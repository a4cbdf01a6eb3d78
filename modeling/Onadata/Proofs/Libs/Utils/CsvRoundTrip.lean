import Mathlib.Data.List.Pairwise
import Onadata.Proofs.Libs.Utils.FormRecords
import Onadata.Proofs.Libs.Utils.NestedColumns
import Onadata.Proofs.Libs.Utils.ReindexedRecord

/-!
# `Onadata.Proofs.Libs.Utils.CsvRoundTrip`: a record through the columns of a CSV row

A flat record of a form goes through `_reindex` into the columns of a row, loses its `'n/a'`
cells and comes back nested by group from `csv_dict_to_nested_dict`, whatever the nesting of
its groups and repeats.

* `flatDict_eq`: the row of a record.
* `recordRoundTrip`: the nested record has the answers of the flat one, at every position.
* `not_recordRoundTrip_reserved`: a question `_notes`, a repeat `_attachments` and a repeat
  without items do not come back.
-/

set_option autoImplicit false

namespace Onadata.Proofs

open Onadata.Lib

/-- A row without its `'n/a'` cells. -/
def withoutMissing (row : List (String × PyValue)) : List (String × PyValue) :=
  row.filter fun item => !isMissing item.2

/-- The record comes back from its row nested by group: with the same answer at every
position, and without an empty group, list or list item. -/
def RecordRoundTrip (form : XForm) (record : List (String × PyValue))
    (selectMultiples : List String) : Prop :=
  ∃ nested, csvDictToNestedDict (withoutMissing (flatDict form false DEFAULT_INDEX_TAGS record))
      selectMultiples = .ok (.dict nested) ∧ isCompactDict nested = true ∧
    ∀ position, nestedAt (.dict nested) position = answerAt record [] position

/-- The cells of a record, in the order of its keys. -/
def recordCells (form : XForm) (record : List (String × PyValue)) : List Cell :=
  record.flatMap fun item =>
    valueCells form item.2.depth (splitPath item.1) (splitPath item.1) item.2

/-- The positions of finitely many cells have a greatest length. -/
theorem exists_length_le (cells : List Cell) : ∃ n, ∀ c ∈ cells, c.1.length ≤ n := by
  induction cells with
  | nil => exact ⟨0, by simp⟩
  | cons cell cells ih =>
      obtain ⟨n, hn⟩ := ih
      refine ⟨max cell.1.length n, List.forall_mem_cons.mpr ⟨Nat.le_max_left _ _, ?_⟩⟩
      exact fun c hc => Nat.le_trans (hn c hc) (Nat.le_max_right _ _)

section AnsweredRecord

variable {form : XForm} {paths : List (List String)} {record : List (String × PyValue)}

/-- The value of each key of a record answers the form. -/
theorem answered_of_mem (hpaths : SectionPaths paths) (hitem : IsItem paths [] record)
    (hvalues : ∀ path ∈ paths, ∀ value,
      Dict.get? record (joinPath path) = some value → Answered form path value)
    {item : String × PyValue} (hmem : item ∈ record) :
    splitPath item.1 ∈ paths ∧ joinPath (splitPath item.1) = item.1 ∧
      Answered form (splitPath item.1) item.2 := by
  obtain ⟨path, hpath, hkey⟩ := hitem.keys item.1 (List.mem_map_of_mem hmem)
  rw [List.nil_append] at hkey
  have hsplit : splitPath item.1 = path := by
    rw [hkey]
    exact splitPath_joinPath_fields (hpaths.names path hpath) (hpaths.ne_nil path hpath)
  have hget := Dict.get?_of_mem hitem.nodup hmem
  rw [hsplit]
  exact ⟨hpath, hkey.symm, hvalues path hpath item.2 (hkey ▸ hget)⟩

/-- The cells of a record are apart. -/
theorem pairwise_apart_recordCells (hpaths : SectionPaths paths) (hitem : IsItem paths [] record)
    (hvalues : ∀ path ∈ paths, ∀ value,
      Dict.get? record (joinPath path) = some value → Answered form path value) :
    (recordCells form record).Pairwise fun c c' => Apart c.1 c'.1 := by
  have hanswered : ∀ item ∈ record, _ := fun _ hmem => answered_of_mem hpaths hitem hvalues hmem
  refine pairwise_apart_flatMap (fun item => splitPath item.1) ?_ ?_ ?_
  · have hkeys : record.Pairwise fun item item' => item.1 ≠ item'.1 :=
      List.pairwise_map.mp hitem.nodup
    refine List.Pairwise.imp_of_mem (fun {item item'} hmem hmem' hne => ?_) hkeys
    obtain ⟨hpath, hjoin, -⟩ := hanswered item hmem
    obtain ⟨hpath', hjoin', -⟩ := hanswered item' hmem'
    have hsymm : Std.Symm Incomparable := ⟨fun _ _ h => ⟨h.2, h.1⟩⟩
    refine hpaths.incomparable.forall hpath hpath' fun heq => ?_
    rw [← hjoin, ← hjoin', heq] at hne
    exact hne rfl
  · intro item hmem
    obtain ⟨hpath, -, hvalue⟩ := hanswered item hmem
    exact pairwise_apart_valueCells hvalue _ (hpaths.ne_nil _ hpath)
  · intro item hmem c hc
    exact startsAt_of_mem_valueCells (hpaths.ne_nil _ (hanswered item hmem).1) hc

/-- The cells of a record are cells of a row. -/
theorem isColumn_of_mem_recordCells (hpaths : SectionPaths paths)
    (hitem : IsItem paths [] record)
    (hvalues : ∀ path ∈ paths, ∀ value,
      Dict.get? record (joinPath path) = some value → Answered form path value) :
    ∀ c ∈ recordCells form record, IsColumn c := by
  intro c hc
  obtain ⟨item, hmem, hc⟩ := List.mem_flatMap.mp hc
  obtain ⟨hpath, -, hvalue⟩ := answered_of_mem hpaths hitem hvalues hmem
  exact isColumn_of_mem_valueCells hvalue (Nat.le_refl _) (hpaths.ne_nil _ hpath)
    (hpaths.names _ hpath) c hc

/-- The columns of one key of a record. -/
theorem reindex_eq {path : List String} {value : PyValue} (h : Answered form path value)
    (hne : path ≠ []) (hnames : ∀ name ∈ path, IsFieldName name)
    (hnotes : joinPath path ≠ NOTES)
    (hattachments : value.isList = true → joinPath path ≠ ATTACHMENTS) :
    reindex form false DEFAULT_INDEX_TAGS (joinPath path) value =
      (valueCells form value.depth path path value).map column := by
  by_cases hlist : value.isList = true
  · have hkey : indexedKey none (joinPath path) = columnName ([] ++ plainPath path) := by
      rw [List.nil_append, columnName, map_stepText_plainPath]
      rfl
    have hempty : HasFieldNames [] := fun s hs => absurd hs (by simp)
    have hreindex := reindexWithin_list h (Nat.le_refl _) hne hempty (by simp) hnames hkey
      (by simpa using ⟨hattachments hlist, hnotes⟩) hlist
    rw [under_nil] at hreindex
    exact hreindex
  · have hcells := valueCells_of_not_isList form value.depth path path
      (Bool.eq_false_iff.mpr hlist)
    have hname : columnName (plainPath path) = joinPath path := by
      rw [columnName, map_stepText_plainPath]
    rw [hcells, List.map_singleton, column, hname, reindex]
    cases value with
    | list items => simp [PyValue.isList] at hlist
    | _ => cases hdepth : PyValue.depth _ <;> simp [reindexWithin, hnotes]

/-- The row of a record: its cells, each under the column name of its position. -/
theorem flatDict_eq (hpaths : SectionPaths paths) (hitem : IsItem paths [] record)
    (hvalues : ∀ path ∈ paths, ∀ value,
      Dict.get? record (joinPath path) = some value → Answered form path value)
    (hnotes : NOTES ∉ Dict.keys record)
    (hattachments : ∀ items, Dict.get? record ATTACHMENTS ≠ some (.list items)) :
    flatDict form false DEFAULT_INDEX_TAGS record = (recordCells form record).map column := by
  have hreindex : ∀ item ∈ record, reindex form false DEFAULT_INDEX_TAGS item.1 item.2 =
      (valueCells form item.2.depth (splitPath item.1) (splitPath item.1) item.2).map column := by
    intro item hmem
    obtain ⟨hpath, hjoin, hvalue⟩ := answered_of_mem hpaths hitem hvalues hmem
    rw [← reindex_eq hvalue (hpaths.ne_nil _ hpath) (hpaths.names _ hpath), hjoin]
    · rw [hjoin]
      rintro heq
      exact hnotes (heq ▸ List.mem_map_of_mem hmem)
    · rw [hjoin]
      intro hlist heq
      have hget := Dict.get?_of_mem hitem.nodup hmem
      cases hvalue : item.2 with
      | list items => exact hattachments items (by rw [← heq, hget, hvalue])
      | _ => simp [hvalue, PyValue.isList] at hlist
  have hempty : HasFieldNames [] := fun s hs => absurd hs (by simp)
  have hcolumns := nodup_columns hempty
    (pairwise_apart_recordCells hpaths hitem hvalues)
    (isColumn_of_mem_recordCells hpaths hitem hvalues)
  rw [under_nil] at hcolumns
  rw [← Dict.update_nil_of_nodup hcolumns, flatDict, Dict.foldl_update, recordCells,
    List.map_flatMap]
  exact congrArg _ (List.flatMap_congr hreindex)

/-- The cells of a record without missing answers are its answers. -/
theorem mem_present_recordCells (hpaths : SectionPaths paths) (hitem : IsItem paths [] record)
    (hvalues : ∀ path ∈ paths, ∀ value,
      Dict.get? record (joinPath path) = some value → Answered form path value)
    (position : List Step) (answer : PyValue) :
    (position, answer) ∈ present (recordCells form record) ↔
      answerAt record [] position = some answer := by
  have hcells : ∀ path ∈ paths, ∀ value, Dict.get? record (joinPath ([] ++ path)) = some value →
      ∀ position answer, (position, answer) ∈ present (valueCells form value.depth path path value) ↔
        ValueAt ([] ++ path) path value position answer := fun path hpath value hget =>
    mem_present_valueCells (hvalues path hpath value hget) (Nat.le_refl _)
  rw [← exists_mem_iff_answerAt hpaths (by simp) hitem hcells, recordCells, present_flatMap,
    List.mem_flatMap]
  constructor
  · rintro ⟨item, hmem, hcell⟩
    obtain ⟨hpath, hjoin, -⟩ := answered_of_mem hpaths hitem hvalues hmem
    refine ⟨splitPath item.1, hpath, item.2, ?_, hcell⟩
    rw [List.nil_append, hjoin]
    exact Dict.get?_of_mem hitem.nodup hmem
  · rintro ⟨path, hpath, value, hget, hcell⟩
    refine ⟨_, Dict.mem_of_get? hget, ?_⟩
    rw [List.nil_append, splitPath_joinPath_fields (hpaths.names path hpath)
      (hpaths.ne_nil path hpath)]
    exact hcell

/-- The cells of a record without missing answers are the cells of a row that follow each
other. -/
theorem columns_present_recordCells (hpaths : SectionPaths paths) (hitem : IsItem paths [] record)
    (hvalues : ∀ path ∈ paths, ∀ value,
      Dict.get? record (joinPath path) = some value → Answered form path value) :
    (∃ n, Columns n (present (recordCells form record))) ∧
      Consecutive [] (present (recordCells form record)) := by
  constructor
  · have hcolumn : ∀ c ∈ present (recordCells form record), IsColumn c := fun c hc =>
      isColumn_of_mem_recordCells hpaths hitem hvalues c (List.mem_of_mem_filter hc)
    obtain ⟨n, hlength⟩ := exists_length_le (present (recordCells form record))
    refine ⟨n, ?_, ?_, ?_, ?_, ?_, ?_⟩
    · exact (pairwise_apart_recordCells hpaths hitem hvalues).filter _
    · exact fun c hc => (hcolumn c hc).ne_nil
    · exact fun c hc => Nat.le_succ_of_le (hlength c hc)
    · exact fun c hc => (hcolumn c hc).names
    · exact fun c hc => (hcolumn c hc).plain
    · exact fun c hc => (hcolumn c hc).scalar
  · rw [recordCells, present_flatMap]
    refine consecutive_flatMap fun item hmem => ?_
    obtain ⟨hpath, -, hvalue⟩ := answered_of_mem hpaths hitem hvalues hmem
    exact (present_valueCells hvalue (Nat.le_refl _) (hpaths.ne_nil _ hpath)).2

end AnsweredRecord

/-! ### The round trip -/

/-- A record of a form comes back from its row nested by group: every repeat item once and in
its position, and every answer at its position in its item. The repeats of the record have
items, and `_notes` and the list `_attachments` are none of its keys. -/
theorem recordRoundTrip (form : XForm) (record : List (String × PyValue))
    (selectMultiples : List String) (hform : isValidForm form = true)
    (hrecord : isRecordOf form record = true) (hrepeats : valuesHaveItems record = true)
    (hnotes : NOTES ∉ Dict.keys record)
    (hattachments : ∀ items, Dict.get? record ATTACHMENTS ≠ some (.list items)) :
    RecordRoundTrip form record selectMultiples := by
  have hpaths := sectionPaths_leafElements form.children hform
  obtain ⟨hitem, hvalues⟩ := answered_of_isRecordOf hform hrecord hrepeats
  obtain ⟨⟨n, hcolumns⟩, hconsecutive⟩ := columns_present_recordCells hpaths hitem hvalues
  obtain ⟨nested, hnested, hcompact, hanswers⟩ :=
    csvDictToNestedDict_columns hcolumns hconsecutive selectMultiples
  refine ⟨nested, ?_, hcompact, fun position => ?_⟩
  · have hrow : withoutMissing (flatDict form false DEFAULT_INDEX_TAGS record) =
        (present (recordCells form record)).map column := by
      rw [flatDict_eq hpaths hitem hvalues hnotes hattachments, withoutMissing, List.filter_map]
      rfl
    rw [hrow]
    exact hnested
  · rw [hanswers]
    have hnodup : (Dict.keys (present (recordCells form record))).Nodup :=
      List.pairwise_map.mpr (hcolumns.apart.imp fun h => h.ne)
    refine Option.ext fun answer => ?_
    rw [← mem_present_recordCells hpaths hitem hvalues]
    exact ⟨Dict.mem_of_get?, Dict.get?_of_mem hnodup⟩

/-- A repeat in a group, with a repeat inside, and a question after it. -/
def householdForm : XForm :=
  ⟨[.group "home" [
      .repeatSection "person" [.question "name" "text" [], .question "info" "note" [],
        .repeatSection "toy" [.question "kind" "text" []]],
      .question "rooms" "integer" []]]⟩

/-- Two persons, the second with two toys. -/
def householdRecord : List (String × PyValue) :=
  [("home/rooms", .int 2),
    ("home/person", .list [
      .dict [("home/person/name", .str "A")],
      .dict [("home/person/toy", .list [.dict [("home/person/toy/kind", .str "x")],
          .dict [("home/person/toy/kind", .str "y")]]),
        ("home/person/name", .str "B")]])]

/-- The record of the household comes back from its row. -/
theorem recordRoundTrip_household : RecordRoundTrip householdForm householdRecord [] :=
  recordRoundTrip householdForm householdRecord [] (by decide) (by decide) (by decide) (by decide)
    (by
      intro items
      rw [show Dict.get? householdRecord ATTACHMENTS = none from rfl]
      simp)

/-- Three records of valid forms that do not come back: the value of a question `_notes` is
dropped, a repeat `_attachments` is no column, and a repeat without items gets one. -/
theorem not_recordRoundTrip_reserved :
    let notesForm : XForm := ⟨[.question "_notes" "text" []]⟩
    let notesRecord : List (String × PyValue) := [("_notes", .str "x")]
    let attachmentsForm : XForm :=
      ⟨[.repeatSection "_attachments" [.question "name" "text" []]]⟩
    let attachmentsRecord : List (String × PyValue) :=
      [("_attachments", .list [.dict [("_attachments/name", .str "x")]])]
    let emptyForm : XForm := ⟨[.repeatSection "child" [.question "name" "text" []]]⟩
    let emptyRecord : List (String × PyValue) := [("child", .list [])]
    (isValidForm notesForm = true ∧ isRecordOf notesForm notesRecord = true ∧
        ¬ RecordRoundTrip notesForm notesRecord []) ∧
      (isValidForm attachmentsForm = true ∧ isRecordOf attachmentsForm attachmentsRecord = true ∧
        ¬ RecordRoundTrip attachmentsForm attachmentsRecord []) ∧
      (isValidForm emptyForm = true ∧ isRecordOf emptyForm emptyRecord = true ∧
        ¬ RecordRoundTrip emptyForm emptyRecord []) := by
  refine ⟨⟨by decide, by decide, ?_⟩, ⟨by decide, by decide, ?_⟩, ⟨by decide, by decide, ?_⟩⟩
  · rintro ⟨nested, hnested, -, hanswers⟩
    obtain rfl : [("_notes", PyValue.str "")] = nested :=
      PyValue.dict.inj (Except.ok.inj hnested)
    have hnotes := hanswers [("_notes", none)]
    exact absurd (PyValue.str.inj (Option.some.inj hnotes)) (by decide)
  · rintro ⟨nested, hnested, -, hanswers⟩
    obtain rfl : [("_attachments", PyValue.list [.dict [("_attachments/name", .str "x")]])] =
        nested := PyValue.dict.inj (Except.ok.inj hnested)
    have hname : none = some (PyValue.str "x") :=
      hanswers [("_attachments", some 0), ("name", none)]
    exact absurd hname (by simp)
  · rintro ⟨nested, hnested, hcompact, -⟩
    obtain rfl : [("child", PyValue.list [.dict []])] = nested :=
      PyValue.dict.inj (Except.ok.inj hnested)
    exact absurd hcompact (by decide)

end Onadata.Proofs
