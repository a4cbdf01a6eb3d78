import Onadata.Lib.Run
import Onadata.Libs.Utils.ExportTools

/-!
# `Onadata.Proofs.Libs.Utils.ExportFreshness`: when an export is used again

`exports_outdated` compares one time with another: the last modification of a submission when the
export was saved, and the last one now. The rows were read before the export was saved, a
submission that is deleted permanently takes its time along, and the import that overwrites leaves
the times of the submissions that it deletes. The newest export is looked up without regard to its
filter, and to a data view that the options do not name.

`upToDate_run`: with some options, an export is used again only when it has the rows of now, in
every run where none of this happens unnoticed (`KeepsUpToDate`).
-/

set_option autoImplicit false

namespace Onadata

open Onadata.Lib

variable {Data : Type}

/-- A generation that has read its rows. -/
structure Generation (Data : Type) where
  exportType : ExportType
  options : ExportOptions
  rows : List (Nat × Data)

/-- A form with its submissions and exports. `clock` is the time of the last step. -/
structure ExportState (Data : Type) where
  submissions : Table (ExportSubmission Data) := {}
  exports : Table (Export (Nat × Data)) := {}
  generations : List (Generation Data) := []
  clock : Nat := 0

/-- The last modification of a submission. -/
def ExportState.lastModified (s : ExportState Data) : Option Nat :=
  timeOfLastSubmissionUpdate s.submissions

/-- A change of the submissions. -/
inductive SubmissionChange (Data : Type)
  | create (data : Data)
  | edit (pk : Nat) (data : Data)
  | softDelete (pk deletedAt : Nat)
  | deleteSubmissions (instanceIds : Option (List Nat)) (soft : Bool)
  | overwrite
  | deleteInactive (threshold : Nat)

/-- The submissions after the change. -/
def SubmissionChange.apply (now : Nat) : SubmissionChange Data →
    Table (ExportSubmission Data) → Table (ExportSubmission Data)
  | .create data => saveNewInstance now data
  | .edit pk data => saveEditedInstance now pk data
  | .softDelete pk deletedAt => setDeleted now pk deletedAt
  | .deleteSubmissions instanceIds soft => deleteXformSubmissions now instanceIds soft
  | .overwrite => overwriteSubmissions now
  | .deleteInactive threshold => deleteInactiveSubmissions threshold

/-- The change gives the submissions that it is about its time. -/
def SubmissionChange.isTimed : SubmissionChange Data → Bool
  | .create _ | .edit _ _ | .softDelete _ _ => true
  | .deleteSubmissions _ soft => soft
  | .overwrite | .deleteInactive _ => false

/-- A step: a change, the first part of a generation, or the second part of one, which fails with
a message or not. -/
inductive ExportAction (Data : Type)
  | change (change : SubmissionChange Data)
  | read (exportType : ExportType) (options : ExportOptions)
  | save (generation : Nat) (failure : Option String)

/-- The export of a generation. -/
def Generation.finish (now : Nat) (generation : Generation Data) (failure : Option String) :
    Export (Nat × Data) :=
  finishExport now generation.exportType generation.options
    (match failure with
      | some message => .error message
      | none => .ok generation.rows)

/-- A step at a time after the last one. A generation has no start and no end. -/
def ExportStep (source : RowSource Data) (s : ExportState Data)
    (label : Nat × ExportAction Data) (s' : ExportState Data) : Prop :=
  s.clock < label.1 ∧
    match label.2 with
    | .change change =>
        s' = { s with
          submissions := change.apply label.1 s.submissions
          clock := label.1 }
    | .read exportType options =>
        exportType.isTabular = true ∧ getOption options "start" = .none ∧
          getOption options "end" = .none ∧
          s' = { s with
            generations := s.generations ++
              [⟨exportType, options, readRows source options s.submissions⟩]
            clock := label.1 }
    | .save i failure =>
        ∃ generation, s.generations[i]? = some generation ∧
          s' = { s with
            exports := saveNewExport s.exports s.lastModified
              (generation.finish label.1 failure)
            generations := s.generations.eraseIdx i
            clock := label.1 }

/-! ### What is asked of a run -/

/-- The newest export for the options that is successful and has no filter. -/
def newestSuccessful (exports : Table (Export (Nat × Data))) (exportType : ExportType)
    (options : ExportOptions) : Except PyError (Option (Nat × Export (Nat × Data))) := do
  let kwargs ← getExportOptionsQueryKwargs options
  return latestExport ((exportsWith exports exportType kwargs).filter fun item =>
    item.2.internalStatus = .successful && !item.2.hasQuery)

/-- When no new export has to be created, the newest one was built from the rows of now. -/
def UpToDate (settings : ExportSettings) (source : RowSource Data) (exportType : ExportType)
    (options : ExportOptions) (requestKeys : Option (List String)) (s : ExportState Data) :
    Prop :=
  shouldCreateNewExport settings s.exports s.lastModified exportType options requestKeys =
    .ok false →
    ∃ newest, newestSuccessful s.exports exportType options = .ok (some newest) ∧
      newest.2.file = some (readRows source options s.submissions)

variable (source : RowSource Data) (exportType : ExportType) (options : ExportOptions)

/-- The export is found with the options. -/
def FoundWith {Row : Type} (exportType : ExportType) (options : ExportOptions) (row : Export Row) :
    Prop :=
  ∃ kwargs, getExportOptionsQueryKwargs options = .ok kwargs ∧
    row.matchesKwargs exportType kwargs = true

/-- What remains has the rows for the options and the last modification that were there, or a
later modification than each export that the options find. -/
def Noticed (s : ExportState Data) (remaining : Table (ExportSubmission Data)) : Prop :=
  (timeOfLastSubmissionUpdate remaining = s.lastModified ∧
    readRows source options remaining = readRows source options s.submissions) ∨
  ∀ item ∈ s.exports.rows, FoundWith exportType options item.2 →
    item.2.internalStatus = .successful →
    ∀ exported modified, item.2.timeOfLastSubmission = some exported →
      timeOfLastSubmissionUpdate remaining = some modified → exported < modified

/-- The steps that keep the exports for the options up to date. A deletion that gives no time is
noticed. An export that the options find has no filter, and the rows that a generation with the
options would read when it is saved. -/
def KeepsUpToDate (s : ExportState Data) (label : Nat × ExportAction Data)
    (_ : ExportState Data) : Prop :=
  match label.2 with
  | .change change =>
      change.isTimed = true ∨
        Noticed source exportType options s (change.apply label.1 s.submissions)
  | .read _ _ => True
  | .save i failure =>
      ∀ generation, s.generations[i]? = some generation → failure = none →
        FoundWith exportType options (generation.finish label.1 none) →
          (generation.finish label.1 none).hasQuery = false ∧
            generation.rows = readRows source options s.submissions

/-- What the exports for the options have in common after such steps. -/
structure ExportInv (s : ExportState Data) : Prop where
  modified_le : ∀ item ∈ s.submissions.rows, item.2.dateModified ≤ s.clock
  exported_le : ∀ item ∈ s.exports.rows, ∀ exported,
    item.2.timeOfLastSubmission = some exported → exported ≤ s.clock
  found : ∀ item ∈ s.exports.rows, FoundWith exportType options item.2 →
    item.2.notFailed = true → item.2.internalStatus = .successful ∧ item.2.hasQuery = false ∧
      ∀ exported modified, item.2.timeOfLastSubmission = some exported →
        s.lastModified = some modified → modified ≤ exported →
          item.2.file = some (readRows source options s.submissions)

variable {source} {exportType} {options}

/-! ### The times of the submissions -/

/-- The last modification is one, and the others are not after it. -/
theorem timeOfLastSubmissionUpdate_eq_some {submissions : Table (ExportSubmission Data)}
    {modified : Nat} :
    timeOfLastSubmissionUpdate submissions = some modified ↔
      (∃ item ∈ submissions.rows, item.2.dateModified = modified) ∧
        ∀ item ∈ submissions.rows, item.2.dateModified ≤ modified := by
  unfold timeOfLastSubmissionUpdate
  rw [List.max?_eq_some_iff, List.mem_map, List.forall_mem_map]

/-- A row of a table where some rows became other ones. -/
theorem mem_modify_iff {Row : Type} {t : Table Row} {p : Nat × Row → Bool} {f : Row → Row}
    {item : Nat × Row} :
    item ∈ (t.modify p f).rows ↔
      ∃ old ∈ t.rows, (old.1, if p old then f old.2 else old.2) = item :=
  List.mem_map

/-- The submissions that are changed have the time of the change. -/
theorem modify_timed {now : Nat} {submissions : Table (ExportSubmission Data)}
    {p : Nat × ExportSubmission Data → Bool} {f : ExportSubmission Data → ExportSubmission Data}
    (hf : ∀ row, (f row).dateModified = now) :
    (submissions.modify p f).rows = submissions.rows ∨
      ∃ item ∈ (submissions.modify p f).rows, item.2.dateModified = now := by
  by_cases h : ∃ item ∈ submissions.rows, p item = true
  · obtain ⟨item, hitem, hp⟩ := h
    refine Or.inr ⟨_, mem_modify_iff.mpr ⟨item, hitem, rfl⟩, ?_⟩
    rw [if_pos hp]
    exact hf item.2
  · refine Or.inl (congrArg Table.rows (Table.modify_eq_self f fun item hitem => ?_))
    exact Bool.eq_false_iff.mpr fun hp => h ⟨item, hitem, hp⟩

/-- A change that gives its time changes nothing, or its time is there afterwards. -/
theorem timed_cases {now : Nat} {change : SubmissionChange Data} (htimed : change.isTimed = true)
    (submissions : Table (ExportSubmission Data)) :
    (change.apply now submissions).rows = submissions.rows ∨
      ∃ item ∈ (change.apply now submissions).rows, item.2.dateModified = now := by
  cases change with
  | create data =>
      refine Or.inr ⟨(submissions.nextPk, ⟨data, now, none⟩), ?_, rfl⟩
      exact List.mem_append_right _ (List.mem_singleton_self _)
  | edit pk data => exact modify_timed fun _ => rfl
  | softDelete pk deletedAt => exact modify_timed fun _ => rfl
  | deleteSubmissions instanceIds soft =>
      have hsoft : soft = true := htimed
      unfold SubmissionChange.apply deleteXformSubmissions
      simp only [if_pos hsoft]
      exact modify_timed fun _ => rfl
  | overwrite => cases htimed
  | deleteInactive threshold => cases htimed

/-- A change modifies no submission after its time. -/
theorem modified_le_apply {now : Nat} {submissions : Table (ExportSubmission Data)}
    (hbefore : ∀ item ∈ submissions.rows, item.2.dateModified ≤ now)
    (change : SubmissionChange Data) :
    ∀ item ∈ (change.apply now submissions).rows, item.2.dateModified ≤ now := by
  have hmodify : ∀ (p : Nat × ExportSubmission Data → Bool)
      (f : ExportSubmission Data → ExportSubmission Data),
      (∀ row, row.dateModified ≤ now → (f row).dateModified ≤ now) →
        ∀ item ∈ (submissions.modify p f).rows, item.2.dateModified ≤ now := by
    intro p f hf item hitem
    obtain ⟨old, hold, rfl⟩ := mem_modify_iff.mp hitem
    show (if p old then f old.2 else old.2).dateModified ≤ now
    split
    · exact hf old.2 (hbefore old hold)
    · exact hbefore old hold
  cases change with
  | create data =>
      intro item hitem
      cases List.mem_append.mp hitem with
      | inl hold => exact hbefore item hold
      | inr hnew =>
          rw [List.mem_singleton.mp hnew]
  | edit pk data =>
      refine hmodify _ _ ?_
      exact fun _ _ => Nat.le_refl now
  | softDelete pk deletedAt =>
      refine hmodify _ _ ?_
      exact fun _ _ => Nat.le_refl now
  | deleteSubmissions instanceIds soft =>
      cases soft with
      | true =>
          show ∀ item ∈ (submissions.modify (instanceQs instanceIds)
            fun row => { row with deletedAt := some now, dateModified := now }).rows, _
          refine hmodify _ _ ?_
          exact fun _ _ => Nat.le_refl now
      | false => exact fun item hitem => hbefore item (List.mem_filter.mp hitem).1
  | overwrite =>
      refine hmodify _ _ ?_
      exact fun _ hrow => hrow
  | deleteInactive threshold => exact fun item hitem => hbefore item (List.mem_filter.mp hitem).1

/-! ### The exports -/

/-- The exports after one is saved: some that were there, and the new one. -/
theorem mem_saveNewExport {Row : Type} {exports : Table (Export Row)} {lastModified : Option Nat}
    {new : Export Row} {item : Nat × Export Row}
    (h : item ∈ (saveNewExport exports lastModified new).rows) :
    item ∈ exports.rows ∨
      item.2 = { new with
        timeOfLastSubmission := lastModified
        internalStatus := if new.file.isSome then .successful else new.internalStatus } := by
  unfold saveNewExport at h
  cases List.mem_append.mp h with
  | inl hold =>
      refine Or.inl ?_
      split at hold
      · unfold deleteOldestExport at hold
        split at hold
        · exact (List.mem_filter.mp hold).1
        · exact hold
      · exact hold
  | inr hnew => exact Or.inr (congrArg Prod.snd (List.mem_singleton.mp hnew))

/-- The export that is found for the options is of their type and has them. -/
theorem foundWith_of_mem {Row : Type} {exports : Table (Export Row)}
    {kwargs : List (String × PyValue)} (hkwargs : getExportOptionsQueryKwargs options = .ok kwargs)
    {item : Nat × Export Row} (h : item ∈ exportsWith exports exportType kwargs) :
    item ∈ exports.rows ∧ FoundWith exportType options item.2 :=
  ⟨(List.mem_filter.mp h).1, kwargs, hkwargs, (List.mem_filter.mp h).2⟩

/-- Where the exports have the invariant, the newest one that is not failed is successful and has no
filter. -/
theorem newestSuccessful_eq {s : ExportState Data} (hinv : ExportInv source exportType options s)
    {kwargs : List (String × PyValue)}
    (hkwargs : getExportOptionsQueryKwargs options = .ok kwargs) :
    newestSuccessful s.exports exportType options =
      .ok (latestExport ((exportsWith s.exports exportType kwargs).filter (·.2.notFailed))) := by
  unfold newestSuccessful
  rw [hkwargs]
  show Except.ok _ = Except.ok _
  congr 2
  refine List.filter_congr fun item hitem => ?_
  obtain ⟨hmem, hfound⟩ := foundWith_of_mem hkwargs hitem
  cases hfailed : item.2.notFailed with
  | true =>
      obtain ⟨hsuccessful, hquery, -⟩ := hinv.found item hmem hfound hfailed
      rw [hsuccessful, hquery]
      rfl
  | false =>
      have hstatus : item.2.internalStatus ≠ .successful := by
        intro hsuccessful
        unfold Export.notFailed at hfailed
        rw [hsuccessful] at hfailed
        exact absurd hfailed (by decide)
      rw [decide_eq_false hstatus]
      rfl

/-- Where no new export has to be created, the exports are not outdated. -/
theorem exportsOutdated_of_reused {Row : Type} {settings : ExportSettings}
    {exports : Table (Export Row)} {lastModified : Option Nat}
    {requestKeys : Option (List String)}
    (h : shouldCreateNewExport settings exports lastModified exportType options requestKeys =
      .ok false) :
    exportsOutdated exports lastModified exportType options = .ok false := by
  unfold shouldCreateNewExport at h
  dsimp only at h
  split at h
  · cases h
  · split at h
    · cases h
    · obtain ⟨kwargs, -, h⟩ := bind_eq_ok.mp h
      generalize (if hasNoFilter options = true then _ else _ : List (Nat × Export Row)) = found
        at h
      cases hfound : found.isEmpty with
      | true =>
          rw [if_pos hfound] at h
          cases h
      | false =>
          rw [if_neg (Bool.eq_false_iff.mp hfound)] at h
          exact h

/-- Exports that are not outdated have a newest one, with the last modification of now or a later
one. -/
theorem exists_newest_of_not_outdated {Row : Type} {exports : Table (Export Row)}
    {lastModified : Option Nat}
    (h : exportsOutdated exports lastModified exportType options = .ok false) :
    ∃ kwargs newest exported modified, getExportOptionsQueryKwargs options = .ok kwargs ∧
      latestExport ((exportsWith exports exportType kwargs).filter (·.2.notFailed)) =
        some newest ∧
      newest.2.timeOfLastSubmission = some exported ∧ lastModified = some modified ∧
      modified ≤ exported := by
  unfold exportsOutdated at h
  obtain ⟨kwargs, hkwargs, h⟩ := bind_eq_ok.mp h
  split at h
  · cases h
  · rename_i newest hnewest
    split at h
    · rename_i exported modified hexported _
      have hlt : ¬ exported < modified := of_decide_eq_false (Except.ok.inj h)
      exact ⟨kwargs, newest, exported, modified, hkwargs, hnewest, hexported, rfl,
        Nat.le_of_not_lt hlt⟩
    · cases h

/-- With the invariant, the exports are up to date. -/
theorem ExportInv.upToDate {s : ExportState Data} (hinv : ExportInv source exportType options s)
    (settings : ExportSettings) (requestKeys : Option (List String)) :
    UpToDate settings source exportType options requestKeys s := by
  intro h
  obtain ⟨kwargs, newest, exported, modified, hkwargs, hnewest, hexported, hmodified, hle⟩ :=
    exists_newest_of_not_outdated (exportsOutdated_of_reused h)
  rw [newestSuccessful_eq hinv hkwargs, hnewest]
  have hmem := List.mem_filter.mp (List.argmax_mem (Option.mem_def.mpr hnewest))
  obtain ⟨hexport, hfound⟩ := foundWith_of_mem hkwargs hmem.1
  obtain ⟨-, -, hrows⟩ := hinv.found newest hexport hfound hmem.2
  exact ⟨newest, rfl, hrows exported modified hexported hmodified hle⟩

/-! ### A step -/

/-- A change that gives its time, or is noticed, keeps the rows of the exports that are not
outdated after it. -/
theorem ExportInv.change {s : ExportState Data} (hinv : ExportInv source exportType options s)
    {now : Nat} (hnow : s.clock < now) {change : SubmissionChange Data}
    (hguard : change.isTimed = true ∨
      Noticed source exportType options s (change.apply now s.submissions))
    {item : Nat × Export (Nat × Data)} (hitem : item ∈ s.exports.rows)
    (hfound : FoundWith exportType options item.2) (hnotFailed : item.2.notFailed = true)
    {exported modified : Nat} (hexported : item.2.timeOfLastSubmission = some exported)
    (hmodified : timeOfLastSubmissionUpdate (change.apply now s.submissions) = some modified)
    (hle : modified ≤ exported) :
    item.2.file = some (readRows source options (change.apply now s.submissions)) := by
  obtain ⟨hsuccessful, -, hrows⟩ := hinv.found item hitem hfound hnotFailed
  cases hguard with
  | inl htimed =>
      cases @timed_cases _ now _ htimed s.submissions with
      | inl hsame =>
          -- No submission is changed.
          unfold timeOfLastSubmissionUpdate at hmodified
          unfold readRows
          rw [hsame] at hmodified ⊢
          exact hrows exported modified hexported hmodified hle
      | inr hthere =>
          -- The export is outdated.
          obtain ⟨row, hrow, htime⟩ := hthere
          have hlast := (timeOfLastSubmissionUpdate_eq_some.mp hmodified).2 row hrow
          have hclock := hinv.exported_le item hitem exported hexported
          omega
  | inr hnoticed =>
      cases hnoticed with
      | inl hsame =>
          rw [hsame.1] at hmodified
          rw [hsame.2]
          exact hrows exported modified hexported hmodified hle
      | inr hlater =>
          have hlt := hlater item hitem hfound hsuccessful exported modified hexported hmodified
          exact absurd hlt (Nat.not_lt.mpr hle)

/-- The export of a generation that meets the guard has the rows of now. -/
theorem finish_upToDate {s : ExportState Data} {now i : Nat} {generation : Generation Data}
    {failure : Option String}
    (hguard : KeepsUpToDate source exportType options s (now, .save i failure) s)
    (hget : s.generations[i]? = some generation) {new : Export (Nat × Data)}
    (hnew : new = { generation.finish now failure with
      timeOfLastSubmission := s.lastModified
      internalStatus := if (generation.finish now failure).file.isSome then .successful
        else (generation.finish now failure).internalStatus })
    (hfound : FoundWith exportType options new) (hnotFailed : new.notFailed = true) :
    new.internalStatus = .successful ∧ new.hasQuery = false ∧
      new.file = some (readRows source options s.submissions) := by
  subst hnew
  cases failure with
  | some message => cases hnotFailed
  | none =>
      obtain ⟨hquery, hrows⟩ := hguard generation hget rfl hfound
      refine ⟨rfl, hquery, ?_⟩
      show some generation.rows = _
      rw [hrows]

/-- The step lemma. -/
theorem ExportInv.step {s s' : ExportState Data} {label : Nat × ExportAction Data}
    (hinv : ExportInv source exportType options s) (hstep : ExportStep source s label s')
    (hguard : KeepsUpToDate source exportType options s label s') :
    ExportInv source exportType options s' := by
  obtain ⟨now, action⟩ := label
  obtain ⟨hnow, hstep⟩ := hstep
  have hbefore : ∀ item ∈ s.submissions.rows, item.2.dateModified ≤ now :=
    fun item hitem => Nat.le_trans (hinv.modified_le item hitem) (Nat.le_of_lt hnow)
  have hexports : ∀ item ∈ s.exports.rows, ∀ exported,
      item.2.timeOfLastSubmission = some exported → exported ≤ now :=
    fun item hitem exported hexported =>
      Nat.le_trans (hinv.exported_le item hitem exported hexported) (Nat.le_of_lt hnow)
  cases action with
  | change change =>
      obtain rfl := hstep
      refine ⟨modified_le_apply hbefore change, hexports, ?_⟩
      intro item hitem hfound hnotFailed
      obtain ⟨hsuccessful, hquery, -⟩ := hinv.found item hitem hfound hnotFailed
      refine ⟨hsuccessful, hquery, fun exported modified hexported hmodified hle => ?_⟩
      exact hinv.change hnow hguard hitem hfound hnotFailed hexported hmodified hle
  | read exportType' options' =>
      obtain ⟨-, -, -, rfl⟩ := hstep
      exact ⟨hbefore, hexports, hinv.found⟩
  | save i failure =>
      obtain ⟨generation, hget, rfl⟩ := hstep
      refine ⟨hbefore, ?_, ?_⟩
      · intro item hitem exported hexported
        cases mem_saveNewExport hitem with
        | inl hold => exact hexports item hold exported hexported
        | inr hnew =>
            rw [hnew] at hexported
            obtain ⟨row, hrow, htime⟩ := (timeOfLastSubmissionUpdate_eq_some.mp hexported).1
            rw [← htime]
            exact hbefore row hrow
      · intro item hitem hfound hnotFailed
        cases mem_saveNewExport hitem with
        | inl hold => exact hinv.found item hold hfound hnotFailed
        | inr hnew =>
            obtain ⟨hsuccessful, hquery, hrows⟩ :=
              finish_upToDate hguard hget hnew hfound hnotFailed
            exact ⟨hsuccessful, hquery, fun _ _ _ _ _ => hrows⟩

/-! ### A run -/

/-- The form has no exports yet, and its submissions were modified before. -/
structure NoExports (s : ExportState Data) : Prop where
  exports : s.exports.rows = []
  modified_le : ∀ item ∈ s.submissions.rows, item.2.dateModified ≤ s.clock

theorem NoExports.exportInv {s : ExportState Data} (h : NoExports s) :
    ExportInv source exportType options s where
  modified_le := h.modified_le
  exported_le := by
    rw [h.exports]
    exact fun item hitem => absurd hitem List.not_mem_nil
  found := by
    rw [h.exports]
    exact fun item hitem => absurd hitem List.not_mem_nil

/-- In every state of a run whose steps keep the exports for the options up to date, no new export
is created only when the newest one has the rows of now. -/
theorem upToDate_run (settings : ExportSettings) (requestKeys : Option (List String))
    {s s' : ExportState Data} {labels : List (Nat × ExportAction Data)} (hstart : NoExports s)
    (hrun : Run (Guarded (ExportStep source) (KeepsUpToDate source exportType options)) s labels
      s') :
    Run (Guarded (ExportStep source)
      fun _ _ s' => UpToDate settings source exportType options requestKeys s') s labels s' := by
  refine Run.guarded_mono (ExportInv source exportType options) hstart.exportInv ?_ ?_ hrun
  · intro s label s' _ hstep hinv hguard
    exact (hinv.step hstep hguard).upToDate settings requestKeys
  · intro s label s' _ hstep hguard hinv
    exact hinv.step hstep hguard

/-! ### A submission that arrives while the file is written -/

/-- Every submission is a row for every query. -/
def allRows : RowSource Nat where
  inForm := fun _ _ => true
  inView := fun _ _ _ => true

/-- The rows are read, and the export is saved two microseconds later. -/
def exportAround (between : SubmissionChange Nat) : List (Nat × ExportAction Nat) :=
  [(1, .change (.create 41)), (2, .read .csv []), (3, .change between), (4, .save 0 none)]

/-- The second submission is not in the export that is used again. -/
theorem not_upToDate_run :
    ¬ ∀ (Data : Type) (source : RowSource Data) (settings : ExportSettings)
      (exportType : ExportType) (options : ExportOptions) (requestKeys : Option (List String))
      (s s' : ExportState Data) (labels : List (Nat × ExportAction Data)),
      hasNoFilter options = true → NoExports s → Run (ExportStep source) s labels s' →
        UpToDate settings source exportType options requestKeys s' := by
  intro h
  have hrun : ∃ s', Run (ExportStep allRows) {} (exportAround (.create 42)) s' ∧
      shouldCreateNewExport {} s'.exports s'.lastModified .csv [] none = .ok false ∧
      (newestSuccessful s'.exports .csv []).map (Option.map (·.2.file)) =
        .ok (some (some [(0, 41)])) ∧
      readRows allRows [] s'.submissions = [(0, 41), (1, 42)] := by
    refine ⟨_, .cons ⟨by decide, rfl⟩ (.cons ⟨by decide, rfl, rfl, rfl, rfl⟩
      (.cons ⟨by decide, rfl⟩ (.cons ⟨by decide, _, rfl, rfl⟩ (.nil _)))), ?_, ?_, ?_⟩
    · decide
    · decide
    · decide
  obtain ⟨s', hrun, hreused, hfile, hrows⟩ := hrun
  have hnone : NoExports ({} : ExportState Nat) := ⟨rfl, fun item hitem => by cases hitem⟩
  obtain ⟨newest, hnewest, hnew⟩ := h Nat allRows {} .csv [] none {} s' _ rfl hnone hrun hreused
  rw [hnewest] at hfile
  have hsame : newest.2.file = some [(0, 41)] := Option.some.inj (Except.ok.inj hfile)
  rw [hsame, hrows] at hnew
  exact absurd hnew (by decide)

/-- The submission is edited after the export is saved: a new export has to be created. -/
theorem upToDate_run_edited :
    ∃ s', Run (Guarded (ExportStep allRows) fun _ _ s' =>
      UpToDate {} allRows .csv [] none s') {} [(1, .change (.create 41)), (2, .read .csv []),
        (3, .save 0 none), (4, .change (.edit 0 42))] s' := by
  refine ⟨_, upToDate_run {} none ⟨rfl, fun item hitem => by cases hitem⟩
    (.cons ⟨⟨by decide, rfl⟩, Or.inl rfl⟩ (.cons ⟨⟨by decide, rfl, rfl, rfl, rfl⟩, trivial⟩
      (.cons ⟨⟨by decide, _, rfl, rfl⟩, ?_⟩ (.cons ⟨⟨by decide, rfl⟩, Or.inl rfl⟩ (.nil _)))))⟩
  intro generation hget _ _
  cases hget
  exact ⟨rfl, rfl⟩

end Onadata
