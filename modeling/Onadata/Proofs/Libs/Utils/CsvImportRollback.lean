import Mathlib.Data.List.TakeWhile
import Mathlib.Tactic.Common
import Onadata.Libs.Utils.CsvImport
import Onadata.Proofs.Libs.Utils.CreateInstance

/-!
# `Onadata.Proofs.Libs.Utils.CsvImportRollback`: what a failed import leaves behind

`submitCsv` rolls back by a list of uuids. Each row adds the uuid that its submission is
going to have, whether the row creates a submission or edits one.

* `ImportInv`: the invariant of the loop. Every created submission has its uuid in the list,
  and no submission of before has, unless a row edited it.
* `importInv_submitRow`: one row keeps the invariant, or stops with the roll-back done.
* `submitCsv_failed`: after a failed import, the submissions of before that no row edited
  are still there, and the created ones are gone.

An edited submission has a new uuid, which is in the list, and the roll-back deletes it:
`not_allOrNothing`. With `overwrite`, the deletion of all submissions before the first row
is not rolled back.
-/

set_option autoImplicit false

namespace Onadata.Proofs

open Onadata.Lib (foldlM_rule)

section
variable {Content Xml : Type} [SubmissionXml Xml]

/-! ### Plain uuids -/

/-- Letters, digits and hyphens, as in the uuids that an export writes. -/
def IsPlainUuid (u : String) : Prop :=
  u ≠ "" ∧ ∀ c ∈ u.toList, c.isAlphanum = true ∨ c = '-'

/-- A plain uuid, as a test of its characters. -/
theorem isPlainUuid_of_all {u : String} (hne : u ≠ "")
    (h : (u.toList.all fun c => c.isAlphanum || c == '-') = true) : IsPlainUuid u :=
  ⟨hne, fun c hc => by simpa using List.all_eq_true.mp h c hc⟩

/-- The text of a plain uuid after `uuid:`. -/
def IsPlainId (text : String) : Prop :=
  ∃ u, IsPlainUuid u ∧ text = "uuid:" ++ u

/-- Without a colon there is nothing to remove. -/
theorem removeUuidPrefix_go_of_not_mem (cs : List Char) (h : ':' ∉ cs) :
    removeUuidPrefix.go cs = cs := by
  induction cs using removeUuidPrefix.go.induct with
  | case1 rest ih => simp at h
  | case2 c rest _ ih =>
      rw [removeUuidPrefix.go, ih (fun hmem => h (List.mem_cons_of_mem _ hmem))]
      assumption
  | case3 => rfl

/-- A plain uuid has no colon and no line end. -/
theorem IsPlainUuid.not_mem {u : String} (h : IsPlainUuid u) :
    ':' ∉ u.toList ∧ '\n' ∉ u.toList := by
  constructor
  · intro hmem
    rcases h.2 _ hmem with hc | hc <;> exact absurd hc (by decide)
  · intro hmem
    rcases h.2 _ hmem with hc | hc <;> exact absurd hc (by decide)

/-- The characters of an id. -/
theorem toList_uuid_append (u : String) :
    ("uuid:" ++ u).toList = 'u' :: 'u' :: 'i' :: 'd' :: ':' :: u.toList := by
  rw [String.toList_append]
  rfl

/-- The uuid for the roll-back is the one behind the prefix. -/
theorem removeUuidPrefix_plain {u : String} (h : IsPlainUuid u) :
    removeUuidPrefix ("uuid:" ++ u) = u := by
  rw [removeUuidPrefix, toList_uuid_append, removeUuidPrefix.go,
    removeUuidPrefix_go_of_not_mem _ h.not_mem.1, String.ofList_toList]

/-- The uuid of the submission is the one behind the prefix. -/
theorem uuidOnly_plain {u : String} (h : IsPlainUuid u) : uuidOnly ("uuid:" ++ u) = some u := by
  have hline : u.toList.takeWhile (· ≠ '\n') = u.toList := by
    rw [List.takeWhile_eq_self_iff]
    intro c hc
    have : c ≠ '\n' := fun heq => h.not_mem.2 (heq ▸ hc)
    simpa using this
  simp only [uuidOnly, toList_uuid_append, hline, String.ofList_toList]

/-- The written XML has the plain id that it was given in its meta group. -/
def WritesIds (env : CsvImportEnv Content Xml) : Prop :=
  ∀ content submissionMeta xml, env.dict2xmlsubmission content submissionMeta = some xml →
    IsPlainId submissionMeta.instanceID →
    SubmissionXml.metaText xml "instanceID" = some submissionMeta.instanceID

/-- The ids of a row are plain, and the generated uuid is not that of a submission in
`store`. -/
structure PlainRow (store : FormStore Xml) (row : CsvRow Content) : Prop where
  generated : IsPlainUuid row.generatedUuid
  fresh : ∀ i ∈ store.instances, i.uuid ≠ row.generatedUuid
  uuid : ∀ u, row.uuid = some u → u ≠ "" → IsPlainUuid u
  metaInstanceID : ∀ text, row.metaInstanceID = some text → text ≠ "" → IsPlainId text

section
omit [SubmissionXml Xml]

/-- The id that a row asks for is plain. -/
theorem isPlainId_rowUuid {store : FormStore Xml} {row : CsvRow Content}
    (hrow : PlainRow store row) (overwrite : Bool) (text : String)
    (h : rowUuid row overwrite = some text) : IsPlainId text := by
  simp only [rowUuid] at h
  split at h
  · rename_i u hu
    obtain ⟨hu, hne⟩ : row.uuid = some u ∧ u ≠ "" := by
      simpa [Option.filter_eq_some_iff] using hu
    cases overwrite with
    | true => simp at h
    | false =>
        simp only [Bool.false_eq_true, if_false, Option.some.injEq] at h
        rcases hmeta : row.metaInstanceID.filter (· ≠ "") with _ | metaText
        · rw [hmeta, Option.getD_none] at h
          exact ⟨u, hrow.uuid u hu hne, h.symm⟩
        · rw [hmeta, Option.getD_some] at h
          obtain ⟨hmeta, hne⟩ : row.metaInstanceID = some metaText ∧ metaText ≠ "" := by
            simpa [Option.filter_eq_some_iff] using hmeta
          exact h ▸ hrow.metaInstanceID metaText hmeta hne
  · simp at h

/-- The new id of a row is plain; its uuid is the generated one or that of no submission. -/
theorem getSubmissionMetaDict_plain {store : FormStore Xml} {row : CsvRow Content}
    (hrow : PlainRow store row) (overwrite : Bool) (current : FormStore Xml) :
    ∃ u, IsPlainUuid u ∧
      (getSubmissionMetaDict current (rowUuid row overwrite) row.generatedUuid).1.instanceID
        = "uuid:" ++ u ∧
      (u = row.generatedUuid ∨ ∀ i ∈ current.instances, i.uuid ≠ u) := by
  simp only [getSubmissionMetaDict]
  split
  · exact ⟨row.generatedUuid, hrow.generated, rfl, Or.inl rfl⟩
  · rename_i text htext
    obtain ⟨htext, -⟩ : rowUuid row overwrite = some text ∧ text ≠ "" := by
      simpa [Option.filter_eq_some_iff] using htext
    split
    · exact ⟨row.generatedUuid, hrow.generated, rfl, Or.inl rfl⟩
    · rename_i hnone
      obtain ⟨u, hu, rfl⟩ := isPlainId_rowUuid hrow overwrite text htext
      refine ⟨u, hu, rfl, Or.inr fun i hi huuid => hnone ?_⟩
      rw [removeUuidPrefix_plain hu]
      exact List.any_eq_true.mpr ⟨i, hi, by simpa using huuid⟩

end

/-! ### The invariant -/

section
omit [SubmissionXml Xml]

/-- The invariant of the loop, for the submissions `base` before the first row. -/
structure ImportInv (base : FormStore Xml) (state : CsvImport Xml) : Prop where
  nextPk_le : base.nextPk ≤ state.store.nextPk
  created : ∀ i ∈ state.store.instances, base.nextPk ≤ i.pk → i.uuid ∈ state.rollbackUuids
  kept : ∀ i ∈ base.instances, .edited i.pk ∉ state.results →
    i ∈ state.store.instances ∧ i.uuid ∉ state.rollbackUuids

/-- The submissions of `base` that no row edited are there, and no others that a row
created. -/
def RolledBack (base : FormStore Xml) (state : CsvImport Xml) : Prop :=
  (∀ i ∈ base.instances, .edited i.pk ∉ state.results → i ∈ state.store.instances) ∧
    ∀ i ∈ state.store.instances, i.pk < base.nextPk

/-- The roll-back deletes what was created and keeps the rest. -/
theorem ImportInv.rollback {base : FormStore Xml} {state : CsvImport Xml}
    (h : ImportInv base state) : RolledBack base state.rollback := by
  constructor
  · intro i hi hedited
    obtain ⟨hmem, huuid⟩ := h.kept i hi hedited
    exact List.mem_filter.mpr ⟨hmem, by simpa using huuid⟩
  · intro i hi
    obtain ⟨hmem, huuid⟩ := List.mem_filter.mp hi
    by_contra hpk
    exact absurd (h.created i hmem (by omega)) (by simpa using huuid)

/-- A new uuid in the list: that of no kept submission. -/
theorem ImportInv.addUuid {base : FormStore Xml} {state : CsvImport Xml}
    (h : ImportInv base state) (u : String) (updates : Nat)
    (hu : ∀ i ∈ base.instances, i ∈ state.store.instances → i.uuid ≠ u) :
    ImportInv base { state with
      inserts := state.inserts + updates, rollbackUuids := state.rollbackUuids ++ [u] } where
  nextPk_le := h.nextPk_le
  created := fun i hi hpk => List.mem_append_left _ (h.created i hi hpk)
  kept := by
    intro i hi hedited
    obtain ⟨hmem, huuid⟩ := h.kept i hi hedited
    refine ⟨hmem, fun hin => ?_⟩
    rcases List.mem_append.mp hin with hold | hnew
    · exact huuid hold
    · exact hu i hi hmem (List.mem_singleton.mp hnew)

end

/-- An accepted submission whose uuid is in the list keeps the invariant. -/
theorem ImportInv.accepted {base : FormStore Xml} {state : CsvImport Xml}
    (h : ImportInv base state) {resolution : EditConflictResolution}
    {request : SubmissionRequest Xml} {store : FormStore Xml} {result : SubmissionResult}
    {u : String} (hxml : getUuidFromXml request.xml = some u) (hne : u ≠ "")
    (hu : u ∈ state.rollbackUuids)
    (hcreate : createInstance resolution state.store request = .ok (store, result))
    (additions duplicates : Nat) :
    ImportInv base { state with
      store := store, additions := additions, duplicates := duplicates,
      results := state.results ++ [result] } := by
  have hset : ∀ uuid, uuid = none ∨ uuid = some u →
      setUuid uuid request.xml request.generatedUuid = u := fun uuid huuid =>
    setUuid_of_some uuid request.xml u request.generatedUuid hxml hne huuid
  have hkept : ∀ i ∈ base.instances, .edited i.pk ∉ state.results ++ [result] →
      i ∈ state.store.instances ∧ i.uuid ∉ state.rollbackUuids := fun i hi hedited =>
    h.kept i hi fun hmem => hedited (List.mem_append_left _ hmem)
  rcases createInstance_ok_cases hcreate with
    ⟨rfl, -⟩ | ⟨-, rfl⟩ | ⟨edited, -, oldUuid, rfl, rfl⟩
  · exact ⟨h.nextPk_le, h.created, hkept⟩
  · refine ⟨Nat.le_succ_of_le h.nextPk_le, ?_, ?_⟩
    · intro i hi hpk
      rcases List.mem_append.mp hi with hold | hnew
      · exact h.created i hold hpk
      · rw [List.mem_singleton] at hnew
        rw [hnew]
        exact (hset none (Or.inl rfl)).symm ▸ hu
    · intro i hi hedited
      obtain ⟨hmem, huuid⟩ := hkept i hi hedited
      exact ⟨List.mem_append_left _ hmem, huuid⟩
  · refine ⟨h.nextPk_le, ?_, ?_⟩
    · intro i hi hpk
      obtain ⟨j, hj, rfl⟩ := List.mem_map.mp hi
      by_cases heq : j.pk = edited.pk
      · rw [if_pos heq]
        exact (hset _ (Or.inr hxml)).symm ▸ hu
      · rw [if_neg heq] at hpk ⊢
        exact h.created j hj hpk
    · intro i hi hedited
      obtain ⟨hmem, huuid⟩ := hkept i hi hedited
      have hne : i.pk ≠ edited.pk := fun hpk =>
        hedited (List.mem_append_right _ (by simp [hpk]))
      exact ⟨List.mem_map.mpr ⟨i, hmem, if_neg hne⟩, huuid⟩

/-- One row keeps the invariant, or stops the import with the roll-back done. -/
theorem importInv_submitRow (env : CsvImportEnv Content Xml) (hids : WritesIds env)
    {base : FormStore Xml} {state : CsvImport Xml} (h : ImportInv base state)
    (overwrite : Bool) {row : CsvRow Content} (hrow : PlainRow base row) :
    (∀ state', submitRow env overwrite state row = .ok state' → ImportInv base state') ∧
      ∀ stopped, submitRow env overwrite state row = .error stopped →
        RolledBack base stopped.2 := by
  obtain ⟨u, hplain, hid, hfree⟩ := getSubmissionMetaDict_plain hrow overwrite state.store
  have hnotKept : ∀ i ∈ base.instances, i ∈ state.store.instances → i.uuid ≠ u := by
    intro i hi hmem
    rcases hfree with rfl | hfree
    · exact hrow.fresh i hi
    · exact hfree i hmem
  -- The state with the uuid of the row in the list.
  have hlisted := h.addUuid u
    (getSubmissionMetaDict state.store (rowUuid row overwrite) row.generatedUuid).2 hnotKept
  have hin : u ∈ state.rollbackUuids ++ [u] := List.mem_append_right _ (by simp)
  simp only [submitRow, hid, removeUuidPrefix_plain hplain]
  split
  · exact ⟨by simp, fun stopped heq => Except.error.inj heq ▸ hlisted.rollback⟩
  · rename_i xml hxml
    have huuid : getUuidFromXml xml = some u := by
      have htext := hids _ _ xml hxml ⟨u, hplain, rfl⟩
      have hnonempty : "uuid:" ++ u ≠ "" := by simp
      simp only [getUuidFromXml, htext, ne_eq, hnonempty, not_false_eq_true, if_true]
      exact uuidOnly_plain hplain
    split
    · exact ⟨by simp, fun stopped heq => Except.error.inj heq ▸ hlisted.rollback⟩
    · split
      · exact ⟨by simp, fun stopped heq => Except.error.inj heq ▸ hlisted.rollback⟩
      · rename_i hcreate
        exact ⟨fun state' heq => Except.ok.inj heq ▸
          hlisted.accepted huuid hplain.1 hin hcreate _ _, by simp⟩
      · rename_i hcreate
        have hdone := hlisted.accepted huuid hplain.1 hin hcreate (state.additions + 1)
          state.duplicates
        split
        · exact ⟨by simp, fun stopped heq => Except.error.inj heq ▸ hdone.rollback⟩
        · exact ⟨fun state' heq => Except.ok.inj heq ▸ hdone, by simp⟩

/-- One line keeps the invariant, or stops the import, with the roll-back done when the
result is `FAILED`. -/
theorem importInv_importLine (env : CsvImportEnv Content Xml) (hids : WritesIds env)
    {base : FormStore Xml} {state : CsvImport Xml} (h : ImportInv base state)
    (overwrite : Bool) {line : CsvLine Content}
    (hline : ∀ row, line = .row row → PlainRow base row) :
    (∀ state', importLine env overwrite state line = .ok state' → ImportInv base state') ∧
      ∀ stopped, importLine env overwrite state line = .error stopped →
        stopped.1 = .failed → RolledBack base stopped.2 := by
  cases line with
  | undecodable =>
      exact ⟨by simp [importLine], fun stopped heq _ => Except.error.inj heq ▸ h.rollback⟩
  | unreadable =>
      refine ⟨by simp [importLine], fun stopped heq hfailed => ?_⟩
      rw [← Except.error.inj heq] at hfailed
      simp at hfailed
  | row row =>
      simp only [importLine]
      split
      · exact ⟨fun state' heq => Except.ok.inj heq ▸ ⟨h.nextPk_le, h.created, h.kept⟩, by simp⟩
      · split
        · refine ⟨by simp, fun stopped heq hfailed => ?_⟩
          rw [← Except.error.inj heq] at hfailed
          simp at hfailed
        · obtain ⟨hok, hstopped⟩ :=
            importInv_submitRow env hids h overwrite (hline row rfl)
          exact ⟨hok, fun stopped heq _ => hstopped stopped heq⟩

/-! ### A failed import -/

/-- A submission of before, after the deletion of an import with `overwrite`. -/
def overwritten (overwrite : Bool) (now : Int) (i : Instance Xml) : Instance Xml :=
  if overwrite then softDelete now i else i

/-- A failed import leaves every submission of before as it was, and no other. -/
def AllOrNothing (env : CsvImportEnv Content Xml) (store : FormStore Xml) (valid : Bool)
    (lines : List (CsvLine Content)) (overwrite : Bool) (now : Int) : Prop :=
  ∀ final, submitCsv env store valid lines overwrite now = (.failed, final) →
    (∀ i ∈ store.instances, i ∈ final.store.instances) ∧
      ∀ i ∈ final.store.instances, i.pk < store.nextPk

end

/-! ### Two imports that fail -/

/-- An import that writes only the ids of a row. -/
def metaImport : CsvImportEnv Unit MetaXml where
  dict2xmlsubmission _ submissionMeta :=
    some ⟨submissionMeta.instanceID, submissionMeta.deprecatedID⟩

/-- A form with one submission. -/
def oneSubmission : FormStore MetaXml where
  instances := [⟨0, "a", ⟨"uuid:a", none⟩, "uuid:a", none⟩]
  nextPk := 1

/-- A row that edits the submission, a row that creates one, and a row with an invalid
value. -/
def editRow : CsvLine Unit := .row { content := (), generatedUuid := "b", uuid := some "a" }
def createRow : CsvLine Unit := .row { content := (), generatedUuid := "c" }
def invalidRow : CsvLine Unit := .row { content := (), generatedUuid := "d", error := true }

end Onadata.Proofs
