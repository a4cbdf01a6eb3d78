import Onadata.Lib.Pairing
import Onadata.Lib.ObjectsGet
import Onadata.Proofs.Apps.Api.TableauIds

/-!
# `Onadata.Proofs.Apps.Api.TableauJoin`: Tableau rows join by their ids

`JoinsByIds` states what the output of `process_tableau_data` promises: the ids of the rows of a
table differ, and a row of a repeat names by `__parent_table` and `__parent_id` one row, that of the
submission or the item around it.

`joinsByIds_iff`: this holds if and only if no two places of a table have one code, and no code is
too large for a double. The codes are those of a pairing function. It is rounded to doubles, so that
from 2^53 on two items can have one code (`not_joinsByIds_large`).
-/

set_option autoImplicit false

namespace Onadata

open Onadata.Lib

/-! ### Rows only come with codes -/

section
variable {form : TableauForm}

/-- An item has a row only where the pairing of its parent and its position is a double. -/
theorem startRow_item_inv {table : String} {id : Int} {idx : Nat}
    {fields : List (String × PyValue)} {start : PyValue × TableauRow} (hid : 0 < id)
    (hnone : Dict.get? fields "_id" = none)
    (h : startRow (.str table) (.int id) idx fields = .ok start) :
    ∃ paired : Nat, pairing id idx = .ok paired ∧
      start = (.int paired, itemStart table id paired) := by
  cases hpairing : pairing id idx with
  | ok paired =>
      rw [startRow_item hid hnone hpairing] at h
      exact ⟨paired, rfl, (Except.ok.inj h).symm⟩
  | error error =>
      have htruthy : PyValue.truthy (.int id) = true := by
        simp [PyValue.truthy]
        omega
      unfold startRow at h
      simp only [hnone, Option.getD_none, htruthy, itemId, hpairing] at h
      cases h

/-- A repeat puts something in a row only where its rows are computed. -/
theorem repeatData_of_addField {key name : String} {value : PyValue} {flat mid : TableauRow}
    {repeatData : String → Except PyError (List TableauRow)}
    (hname : repeatName form key = some name)
    (h : addField form (form.getElement key) value flat repeatData = .ok mid) :
    ∃ rows, repeatData name = .ok rows := by
  unfold repeatName at hname
  cases helement : form.getElement key with
  | none =>
      rw [helement] at hname
      cases hname
  | some element =>
      simp only [helement] at hname
      split at hname
      · rename_i htype
        rw [← Option.some_inj.mp hname]
        simp only [addField, helement, if_pos htype, bind_eq_ok] at h
        exact ⟨h.choose, h.choose_spec.1⟩
      · cases hname

mutual

theorem codesFit_of_processItems {place : TableauPlace} {id : Int} (hcode : place.code = .ok id)
    (hid : 0 < id) (name : String) (items : List PyValue) (idx : Nat) (hidx : 0 < idx)
    (hfit : TableauItemsFit form items) {rows : List TableauRow}
    (h : processItems form (.str place.table) (.int id) name items idx = .ok rows) :
    CodesFit (placesOfItems form place name items idx) := by
  match items with
  | [] =>
      rw [placesOfItems]
      exact fun _ hother => absurd hother List.not_mem_nil
  | item :: rest =>
      rw [TableauItemsFit] at hfit
      rw [processItems, bind_eq_ok] at h
      obtain ⟨row, hrow, h⟩ := h
      rw [bind_eq_ok] at h
      obtain ⟨rows', hrows, -⟩ := h
      rw [placesOfItems]
      intro other hother
      rcases List.mem_append.mp hother with hother | hother
      · exact codesFit_of_processRow hcode hid name idx hidx item hfit.1 hrow other hother
      · exact codesFit_of_processItems hcode hid name rest (idx + 1) (Nat.succ_pos idx) hfit.2
          hrows other hother

theorem codesFit_of_processRow {place : TableauPlace} {id : Int} (hcode : place.code = .ok id)
    (hid : 0 < id) (name : String) (idx : Nat) (hidx : 0 < idx) (item : PyValue)
    (hfit : TableauItemFits form item) {row : TableauRow}
    (h : processRow form (.str place.table) (.int id) name idx item = .ok row) :
    CodesFit (place.below name idx :: placesOfItem form (place.below name idx) item) := by
  match item with
  | .dict fields =>
      rw [TableauItemFits] at hfit
      rw [processRow, bind_eq_ok] at h
      obtain ⟨start, hstart, h⟩ := h
      obtain ⟨paired, hpairing, rfl⟩ := startRow_item_inv hid hfit.1 hstart
      have hbelow : (place.below name idx).code = .ok (paired : Int) := by
        rw [TableauPlace.code_below hcode, hpairing]
        rfl
      have hpos : (0 : Int) < paired := Int.ofNat_lt.mpr (pairing_pos hidx hpairing)
      rw [placesOfItem]
      intro other hother
      rcases List.mem_cons.mp hother with rfl | hother
      · exact ⟨_, hbelow⟩
      · have hfields : processFields form (place.below name idx).table (.int paired) fields
            (itemStart place.table id paired) = .ok row := by
          rw [TableauPlace.table_below]
          exact h
        exact codesFit_of_processFields hbelow hpos fields hfit.2.2 hfields other hother
  | .none | .bool _ | .int _ | .float _ | .str _ | .list _ =>
      rw [TableauItemFits] at hfit
      · exact hfit.elim
      · intro fields heq
        cases heq

theorem codesFit_of_processFields {place : TableauPlace} {id : Int} (hcode : place.code = .ok id)
    (hid : 0 < id) (fields : List (String × PyValue)) (hrepeats : TableauRepeatsFit form fields)
    {flat row : TableauRow} (h : processFields form place.table (.int id) fields flat = .ok row) :
    CodesFit (placesIn form place fields) := by
  match fields with
  | [] =>
      rw [placesIn]
      exact fun _ hother => absurd hother List.not_mem_nil
  | (key, value) :: rest =>
      rw [TableauRepeatsFit] at hrepeats
      rw [processFields, bind_eq_ok] at h
      obtain ⟨mid, hmid, h⟩ := h
      rw [placesIn_cons]
      intro other hother
      rcases List.mem_append.mp hother with hother | hother
      · unfold placesOfField at hother
        cases hname : repeatName form key with
        | none =>
            simp only [hname] at hother
            exact absurd hother List.not_mem_nil
        | some name =>
            simp only [hname] at hother
            obtain ⟨rows, hrows⟩ := repeatData_of_addField hname hmid
            exact codesFit_of_processRepeat hcode hid name value (hrepeats.1 (by rw [hname]; rfl))
              hrows other hother
      · exact codesFit_of_processFields hcode hid rest hrepeats.2 h other hother

theorem codesFit_of_processRepeat {place : TableauPlace} {id : Int} (hcode : place.code = .ok id)
    (hid : 0 < id) (name : String) (value : PyValue) (hfit : TableauRepeatFits form value)
    {rows : List TableauRow}
    (h : processRepeat form place.table (.int id) name value = .ok rows) :
    CodesFit (placesOfRepeat form place name value) := by
  match value with
  | .list items =>
      rw [TableauRepeatFits] at hfit
      rw [processRepeat] at h
      rw [placesOfRepeat]
      exact codesFit_of_processItems hcode hid name items 1 Nat.one_pos hfit h
  | .none | .bool _ | .int _ | .float _ | .str _ | .dict _ =>
      rw [TableauRepeatFits] at hfit
      · exact hfit.elim
      · intro items heq
        cases heq

end

theorem mem_cons_append_left {A : Type} {a b : A} {xs ys : List A} (h : a ∈ b :: xs) :
    a ∈ b :: (xs ++ ys) :=
  List.mem_append_left ys h

theorem mem_cons_append_right {A : Type} {a b : A} {xs ys : List A} (h : a ∈ b :: ys) :
    a ∈ b :: (xs ++ ys) := by
  rcases List.mem_cons.mp h with rfl | h
  · exact List.mem_cons_self
  · exact List.mem_cons_of_mem _ (List.mem_append_right _ h)

mutual

/-- The parent of an item is the place around it, or one of the items with it. -/
theorem parent_of_placesOfItems {place other : TableauPlace} {name : String}
    (items : List PyValue) (idx : Nat) (h : other ∈ placesOfItems form place name items idx) :
    ∃ parent ∈ place :: placesOfItems form place name items idx, other.parent = some parent := by
  match items with
  | [] =>
      rw [placesOfItems] at h
      exact absurd h List.not_mem_nil
  | item :: rest =>
      rw [placesOfItems, List.mem_append, List.mem_cons] at h
      rw [placesOfItems]
      rcases h with (rfl | h) | h
      · exact ⟨place, List.mem_cons_self, TableauPlace.parent_below place name idx⟩
      · obtain ⟨parent, hparent, heq⟩ := parent_of_placesOfItem item h
        exact ⟨parent, List.mem_cons_of_mem _ (List.mem_append_left _ hparent), heq⟩
      · obtain ⟨parent, hparent, heq⟩ := parent_of_placesOfItems rest (idx + 1) h
        exact ⟨parent, mem_cons_append_right hparent, heq⟩

theorem parent_of_placesOfItem {place other : TableauPlace} (item : PyValue)
    (h : other ∈ placesOfItem form place item) :
    ∃ parent ∈ place :: placesOfItem form place item, other.parent = some parent := by
  match item with
  | .dict fields =>
      rw [placesOfItem] at h ⊢
      exact parent_of_placesIn fields h
  | .none | .bool _ | .int _ | .float _ | .str _ | .list _ =>
      rw [placesOfItem] at h
      · exact absurd h List.not_mem_nil
      · intro fields heq
        cases heq

theorem parent_of_placesIn {place other : TableauPlace} (fields : List (String × PyValue))
    (h : other ∈ placesIn form place fields) :
    ∃ parent ∈ place :: placesIn form place fields, other.parent = some parent := by
  match fields with
  | [] =>
      rw [placesIn] at h
      exact absurd h List.not_mem_nil
  | (key, value) :: rest =>
      rw [placesIn_cons, List.mem_append] at h
      rw [placesIn_cons]
      rcases h with h | h
      · unfold placesOfField at h ⊢
        cases hname : repeatName form key with
        | none =>
            simp only [hname] at h
            exact absurd h List.not_mem_nil
        | some name =>
            simp only [hname] at h
            obtain ⟨parent, hparent, heq⟩ := parent_of_placesOfRepeat value h
            exact ⟨parent, mem_cons_append_left hparent, heq⟩
      · obtain ⟨parent, hparent, heq⟩ := parent_of_placesIn rest h
        exact ⟨parent, mem_cons_append_right hparent, heq⟩

theorem parent_of_placesOfRepeat {place other : TableauPlace} {name : String} (value : PyValue)
    (h : other ∈ placesOfRepeat form place name value) :
    ∃ parent ∈ place :: placesOfRepeat form place name value, other.parent = some parent := by
  match value with
  | .list items =>
      rw [placesOfRepeat] at h ⊢
      exact parent_of_placesOfItems items 1 h
  | .none | .bool _ | .int _ | .float _ | .str _ | .dict _ =>
      rw [placesOfRepeat] at h
      · exact absurd h List.not_mem_nil
      · intro items heq
        cases heq

end

end

/-! ### The output -/

/-- A submission of a form, as the data endpoint lists it. -/
structure TableauSubmission (form : TableauForm) where
  id : Int
  fields : List (String × PyValue)
  hasId : Dict.get? fields "_id" = some (.int id)
  positive : 0 < id
  fits : TableauRowFits form fields
  repeatsFit : TableauRepeatsFit form fields

section
variable {form : TableauForm}

/-- The submission among the data. -/
def TableauSubmission.value (submission : TableauSubmission form) : PyValue :=
  .dict submission.fields

/-- The place of the submission. -/
def TableauSubmission.place (submission : TableauSubmission form) : TableauPlace :=
  { submission := submission.id }

/-- The places of the submission and of its items. -/
def TableauSubmission.places (submission : TableauSubmission form) : List TableauPlace :=
  submission.place :: placesIn form submission.place submission.fields

/-- The places of the rows of a table. -/
def placesAt (data : List (TableauSubmission form)) (table : String) : List TableauPlace :=
  ofTable table (data.flatMap TableauSubmission.places)

/-- The rows of a table that the row of a submission holds, that row among them. -/
def rowsWithin (table : String) (row : TableauRow) : List PyValue :=
  (if DEFAULT_TABLE_NAME = table then [.dict row] else []) ++ cellList row table

/-- The rows of a table in the output. -/
def rowsOfTable (output : List TableauRow) (table : String) : List PyValue :=
  output.flatMap (rowsWithin table)

/-- A number in a row. -/
def intCell (key : String) : PyValue → Option Int
  | .dict row => match Dict.get? row key with
    | some (.int n) => some n
    | _ => none
  | _ => none

/-- A text in a row. -/
def strCell (key : String) : PyValue → Option String
  | .dict row => match Dict.get? row key with
    | some (.str text) => some text
    | _ => none
  | _ => none

/-- A row of a repeat names one row, that of the place around it. -/
def NamesParent (data : List (TableauSubmission form)) (output : List TableauRow)
    (place : TableauPlace) (row : PyValue) : Prop :=
  ∀ parent, place.parent = some parent → ∃ table id parentRow,
    strCell "__parent_table" row = some table ∧ intCell "__parent_id" row = some id ∧
    objectsGet (rowsOfTable output table) (fun other => intCell "_id" other = some id) =
      .ok parentRow ∧
    (parent, parentRow) ∈ (placesAt data table).zip (rowsOfTable output table)

/-- The rows of each table are those of its places, their ids differ, and each row of a repeat names
the row around it. -/
structure JoinsByIds (data : List (TableauSubmission form)) (output : List TableauRow) :
    Prop where
  distinct : ∀ table, ((rowsOfTable output table).map (intCell "_id")).Nodup
  parents : ∀ table,
    List.Forall₂ (NamesParent data output) (placesAt data table) (rowsOfTable output table)

/-- No code is too large for a double, and those of a table differ. -/
def IdsApart (data : List (TableauSubmission form)) : Prop :=
  ∀ table, CodesFit (placesAt data table) ∧
    ((placesAt data table).map TableauPlace.code).Nodup

/-- The row of a submission starts with its id. -/
theorem startRow_submission (submission : TableauSubmission form) (idx : Nat) :
    startRow .none .none idx submission.fields =
      .ok (.int submission.id, [("_id", .int submission.id)]) := by
  have hparent : PyValue.truthy .none = false := rfl
  unfold startRow
  simp only [submission.hasId, Option.getD_some, hparent, Bool.and_false]
  rfl

/-- What the row of a submission is. -/
def SubmissionDone (submission : TableauSubmission form) (row : TableauRow) : Prop :=
  RowDone (namesIn form submission.fields) submission.place
    (placesIn form submission.place submission.fields) row

/-- The row of a submission whose codes exist. -/
theorem processRow_submission (submission : TableauSubmission form) (idx : Nat)
    (hcodes : CodesFit submission.places) :
    ∃ row, processRow form .none .none DEFAULT_TABLE_NAME idx submission.value = .ok row ∧
      SubmissionDone submission row := by
  have hcode : submission.place.code = .ok submission.id := rfl
  have hnone : ∀ key ∈ namesIn form submission.fields,
      Dict.get? [("_id", PyValue.int submission.id)] key = none := by
    intro key hkey
    obtain ⟨field, hfield, hname⟩ := mem_namesIn.mp hkey
    refine if_neg fun heq => (submission.fits.names field hfield key hname).1 ?_
    rw [← heq]
    exact List.mem_cons_self
  obtain ⟨row, hrow, hdone⟩ := processFields_spec hcode submission.positive submission.fields
    submission.fits submission.repeatsFit [("_id", .int submission.id)]
    (List.nodup_singleton _) hnone fun other hother => hcodes other (List.mem_cons_of_mem _ hother)
  refine ⟨row, ?_, ?_⟩
  · unfold TableauSubmission.value
    rw [processRow, startRow_submission]
    exact hrow
  · refine RowDone.of_fields hdone (fun other hother => table_mem_namesIn _ hother)
      (fun key items hget => ?_) ⟨⟨_, hcode, ?_⟩, fun parent hparent => ?_⟩
    · have hmem := Dict.mem_of_get? hget
      simp at hmem
    · rw [startColumns_kept submission.fits hdone "_id" (by decide)]
      rfl
    · cases hparent

/-- The rows of submissions whose codes exist. -/
theorem processItems_submissions (data : List (TableauSubmission form)) (idx : Nat)
    (hcodes : ∀ submission ∈ data, CodesFit submission.places) :
    ∃ output, processItems form .none .none DEFAULT_TABLE_NAME
        (data.map TableauSubmission.value) idx = .ok output ∧
      List.Forall₂ SubmissionDone data output := by
  induction data generalizing idx with
  | nil => exact ⟨[], rfl, .nil⟩
  | cons submission rest ih =>
      obtain ⟨row, hrow, hdone⟩ :=
        processRow_submission submission idx (hcodes submission List.mem_cons_self)
      obtain ⟨output, houtput, hrest⟩ :=
        ih (idx + 1) fun other hother => hcodes other (List.mem_cons_of_mem _ hother)
      refine ⟨row :: output, ?_, .cons hdone hrest⟩
      rw [List.map_cons, processItems, hrow]
      show (processItems form _ _ _ _ (idx + 1) >>= _) = _
      rw [houtput]
      rfl

/-- Where submissions have rows, their codes exist. -/
theorem codesFit_of_submissions (data : List (TableauSubmission form)) (idx : Nat)
    {output : List TableauRow}
    (h : processItems form .none .none DEFAULT_TABLE_NAME (data.map TableauSubmission.value) idx =
      .ok output) : ∀ submission ∈ data, CodesFit submission.places := by
  induction data generalizing idx output with
  | nil => exact fun _ hmem => absurd hmem List.not_mem_nil
  | cons submission rest ih =>
      rw [List.map_cons, processItems, bind_eq_ok] at h
      obtain ⟨row, hrow, h⟩ := h
      rw [bind_eq_ok] at h
      obtain ⟨output', houtput, -⟩ := h
      unfold TableauSubmission.value at hrow
      rw [processRow, startRow_submission] at hrow
      intro other hother
      rcases List.mem_cons.mp hother with rfl | hother
      · intro place hplace
        rcases List.mem_cons.mp hplace with rfl | hplace
        · exact ⟨other.id, rfl⟩
        · have hcode : other.place.code = .ok other.id := rfl
          have hfields : processFields form other.place.table (.int other.id) other.fields
              [("_id", .int other.id)] = .ok row := hrow
          exact codesFit_of_processFields hcode other.positive other.fields other.repeatsFit
            hfields place hplace
      · exact ih (idx + 1) houtput other hother

theorem mem_placesAt {data : List (TableauSubmission form)} {place : TableauPlace}
    {table : String} : place ∈ placesAt data table ↔
      (∃ submission ∈ data, place ∈ submission.places) ∧ place.table = table := by
  unfold placesAt ofTable
  rw [List.mem_filter, List.mem_flatMap, decide_eq_true_iff]

/-- The codes of all tables are those of all submissions. -/
theorem codesFit_placesAt {data : List (TableauSubmission form)} :
    (∀ table, CodesFit (placesAt data table)) ↔
      ∀ submission ∈ data, CodesFit submission.places := by
  refine ⟨fun h submission hmem place hplace => ?_, fun h table place hplace => ?_⟩
  · exact h place.table place (mem_placesAt.mpr ⟨⟨submission, hmem, hplace⟩, rfl⟩)
  · obtain ⟨⟨submission, hmem, hplace⟩, -⟩ := mem_placesAt.mp hplace
    exact h submission hmem place hplace

/-- The rows that the row of a submission holds are those of its places. -/
theorem cellsOf_submission {submission : TableauSubmission form} {row : TableauRow}
    (h : SubmissionDone submission row) (table : String) :
    List.Forall₂ CellOf (ofTable table submission.places) (rowsWithin table row) := by
  have hself : ofTable table submission.places =
      (if DEFAULT_TABLE_NAME = table then [submission.place] else []) ++
        ofTable table (placesIn form submission.place submission.fields) := by
    unfold ofTable TableauSubmission.places
    rw [List.filter_cons]
    by_cases htable : DEFAULT_TABLE_NAME = table
    · rw [if_pos htable]
      exact if_pos (decide_eq_true htable)
    · rw [if_neg htable]
      exact if_neg fun heq => htable (of_decide_eq_true heq)
  rw [hself]
  unfold rowsWithin
  refine List.rel_append ?_ (h.lists table)
  split
  · exact .cons ⟨row, rfl, h.own⟩ .nil
  · exact .nil

/-- The rows of a table are those of its places. -/
theorem cellsOf_output {data : List (TableauSubmission form)} {output : List TableauRow}
    (h : List.Forall₂ SubmissionDone data output) (table : String) :
    List.Forall₂ CellOf (placesAt data table) (rowsOfTable output table) := by
  unfold placesAt rowsOfTable
  induction h with
  | nil => exact .nil
  | cons hdone _ ih =>
      rw [List.flatMap_cons, List.flatMap_cons, ofTable_append]
      exact List.rel_append (cellsOf_submission hdone table) ih

/-! ### Joins -/

/-- The id in a row of a place. -/
def codeCell : Except PyError Int → Option Int
  | .ok code => some code
  | .error _ => none

theorem CellOf.id {place : TableauPlace} {row : PyValue} (h : CellOf place row) :
    intCell "_id" row = codeCell place.code := by
  obtain ⟨cells, rfl, hrow⟩ := h
  obtain ⟨code, hcode, hget⟩ := hrow.id
  unfold intCell
  simp only [hget, hcode]
  rfl

/-- The ids of the rows of places are their codes. -/
theorem map_id_cells {places : List TableauPlace} {rows : List PyValue}
    (h : List.Forall₂ CellOf places rows) :
    rows.map (intCell "_id") = (places.map TableauPlace.code).map codeCell := by
  induction h with
  | nil => rfl
  | cons hcell _ ih =>
      simp only [List.map_cons]
      rw [ih, hcell.id]

theorem nodup_codes_iff {places : List TableauPlace} {rows : List PyValue}
    (h : List.Forall₂ CellOf places rows) (hcodes : CodesFit places) :
    (rows.map (intCell "_id")).Nodup ↔ (places.map TableauPlace.code).Nodup := by
  rw [map_id_cells h]
  refine ⟨List.Nodup.of_map codeCell, fun hnodup => hnodup.map_on ?_⟩
  intro code hcode code' hcode' heq
  obtain ⟨place, hplace, rfl⟩ := List.mem_map.mp hcode
  obtain ⟨place', hplace', rfl⟩ := List.mem_map.mp hcode'
  obtain ⟨id, hid⟩ := hcodes place hplace
  obtain ⟨id', hid'⟩ := hcodes place' hplace'
  rw [hid, hid'] at heq ⊢
  rw [Option.some_inj.mp heq]

/-- A place has the row at its position. -/
theorem exists_row_of_place {A B : Type} {R : A → B → Prop} {xs : List A} {ys : List B}
    (h : List.Forall₂ R xs ys) {x : A} (hx : x ∈ xs) : ∃ y, (x, y) ∈ xs.zip ys ∧ R x y := by
  induction h with
  | nil => exact absurd hx List.not_mem_nil
  | cons hfirst _ ih =>
      rcases List.mem_cons.mp hx with rfl | hx
      · exact ⟨_, List.mem_cons_self, hfirst⟩
      · obtain ⟨y, hmem, hy⟩ := ih hx
        exact ⟨y, List.mem_cons_of_mem _ hmem, hy⟩

/-- The parent of a place of the data is one of them. -/
theorem parent_mem_placesAt {data : List (TableauSubmission form)} {place parent : TableauPlace}
    {table : String} (hplace : place ∈ placesAt data table) (hparent : place.parent = some parent) :
    parent ∈ placesAt data parent.table := by
  obtain ⟨⟨submission, hmem, hplace⟩, -⟩ := mem_placesAt.mp hplace
  refine mem_placesAt.mpr ⟨⟨submission, hmem, ?_⟩, rfl⟩
  rcases List.mem_cons.mp hplace with rfl | hplace
  · cases hparent
  · obtain ⟨other, hother, heq⟩ := parent_of_placesIn submission.fields hplace
    rw [hparent] at heq
    rw [Option.some_inj.mp heq]
    exact hother

/-- A row of a repeat names the row of its parent, where the ids of a table differ. -/
theorem namesParent {data : List (TableauSubmission form)} {output : List TableauRow}
    (hrows : ∀ table, List.Forall₂ CellOf (placesAt data table) (rowsOfTable output table))
    (hdistinct : ∀ table, ((rowsOfTable output table).map (intCell "_id")).Nodup)
    {place : TableauPlace} {table : String} {row : PyValue} (hplace : place ∈ placesAt data table)
    (hcell : CellOf place row) : NamesParent data output place row := by
  intro parent hparent
  obtain ⟨cells, rfl, hrow⟩ := hcell
  obtain ⟨htable, code, hcode, hid⟩ := hrow.parent parent hparent
  obtain ⟨parentRow, hzip, hparentCell⟩ :=
    exists_row_of_place (hrows parent.table) (parent_mem_placesAt hplace hparent)
  refine ⟨parent.table, code, parentRow, ?_, ?_, ?_, hzip⟩
  · unfold strCell
    simp only [htable]
  · unfold intCell
    simp only [hid]
  · refine objectsGet_eq_ok_of_nodup (hdistinct parent.table) (fun row row' h h' => ?_)
      (List.of_mem_zip hzip).2 ?_
    · rw [of_decide_eq_true h, of_decide_eq_true h']
    · rw [hparentCell.id, hcode]
      exact decide_eq_true rfl

/-- The rows join by their ids exactly where the codes of a table differ and are doubles. -/
theorem joins_iff (data : List (TableauSubmission form)) :
    (∃ output, processTableauData form (data.map TableauSubmission.value) = .ok output ∧
      JoinsByIds data output) ↔ IdsApart data := by
  unfold IdsApart
  rw [forall_and]
  refine ⟨fun ⟨output, houtput, hjoins⟩ => ?_, fun ⟨hcodes, hnodup⟩ => ?_⟩
  · have hcodes := codesFit_of_submissions data 1 houtput
    obtain ⟨output', houtput', hdone⟩ := processItems_submissions data 1 hcodes
    have hsame : output' = output := Except.ok.inj (houtput'.symm.trans houtput)
    subst hsame
    have hfits := codesFit_placesAt.mpr hcodes
    exact ⟨hfits, fun table =>
      (nodup_codes_iff (cellsOf_output hdone table) (hfits table)).mp (hjoins.distinct table)⟩
  · obtain ⟨output, houtput, hdone⟩ :=
      processItems_submissions data 1 (codesFit_placesAt.mp hcodes)
    have hrows := cellsOf_output hdone
    have hdistinct : ∀ table, ((rowsOfTable output table).map (intCell "_id")).Nodup :=
      fun table => (nodup_codes_iff (hrows table) (hcodes table)).mpr (hnodup table)
    refine ⟨output, houtput, hdistinct, fun table => ?_⟩
    rw [List.forall₂_iff_zip]
    refine ⟨(hrows table).length_eq, fun {place row} hmem => ?_⟩
    exact namesParent hrows hdistinct (List.of_mem_zip hmem).1
      ((List.forall₂_iff_zip.mp (hrows table)).2 hmem)

/-! ### Places differ -/

/-- The way to `other` goes through an item of `place`. -/
def Through (place : TableauPlace) (name : String) (idx : Nat) (other : TableauPlace) : Prop :=
  other.submission = place.submission ∧
    ∃ rest, other.steps = place.steps ++ (name, idx) :: rest

theorem through_below (place : TableauPlace) (name : String) (idx : Nat) :
    Through place name idx (place.below name idx) :=
  ⟨rfl, [], rfl⟩

theorem Through.of_below {place other : TableauPlace} {name name' : String} {idx idx' : Nat}
    (h : Through (place.below name idx) name' idx' other) : Through place name idx other := by
  obtain ⟨hsubmission, rest, hsteps⟩ := h
  refine ⟨hsubmission, (name', idx') :: rest, ?_⟩
  rw [hsteps]
  unfold TableauPlace.below
  rw [List.append_assoc]
  rfl

theorem Through.ne {place other : TableauPlace} {name : String} {idx : Nat}
    (h : Through place name idx other) : other ≠ place := by
  rintro rfl
  obtain ⟨-, rest, hsteps⟩ := h
  have hlength := congrArg List.length hsteps
  rw [List.length_append, List.length_cons] at hlength
  omega

/-- There is one first step on the way to an item. -/
theorem Through.unique {place other : TableauPlace} {name name' : String} {idx idx' : Nat}
    (h : Through place name idx other) (h' : Through place name' idx' other) :
    name = name' ∧ idx = idx' := by
  obtain ⟨-, rest, hsteps⟩ := h
  obtain ⟨-, rest', hsteps'⟩ := h'
  rw [hsteps] at hsteps'
  have hheads := (List.cons.inj (List.append_cancel_left hsteps')).1
  exact Prod.mk.inj hheads

mutual

theorem through_of_items {place other : TableauPlace} {name : String} (items : List PyValue)
    (idx : Nat) (h : other ∈ placesOfItems form place name items idx) :
    ∃ idx', idx ≤ idx' ∧ Through place name idx' other := by
  match items with
  | [] =>
      rw [placesOfItems] at h
      exact absurd h List.not_mem_nil
  | item :: rest =>
      rw [placesOfItems, List.mem_append, List.mem_cons] at h
      rcases h with (rfl | h) | h
      · exact ⟨idx, Nat.le_refl _, through_below place name idx⟩
      · obtain ⟨name', idx', hthrough⟩ := through_of_item item h
        exact ⟨idx, Nat.le_refl _, hthrough.of_below⟩
      · obtain ⟨idx', hle, hthrough⟩ := through_of_items rest (idx + 1) h
        exact ⟨idx', Nat.le_of_succ_le hle, hthrough⟩

theorem through_of_item {place other : TableauPlace} (item : PyValue)
    (h : other ∈ placesOfItem form place item) : ∃ name idx, Through place name idx other := by
  match item with
  | .dict fields =>
      rw [placesOfItem] at h
      obtain ⟨name, -, idx, hthrough⟩ := through_of_placesIn fields h
      exact ⟨name, idx, hthrough⟩
  | .none | .bool _ | .int _ | .float _ | .str _ | .list _ =>
      rw [placesOfItem] at h
      · exact absurd h List.not_mem_nil
      · intro fields heq
        cases heq

theorem through_of_placesIn {place other : TableauPlace} (fields : List (String × PyValue))
    (h : other ∈ placesIn form place fields) :
    ∃ name ∈ namesIn form fields, ∃ idx, Through place name idx other := by
  match fields with
  | [] =>
      rw [placesIn] at h
      exact absurd h List.not_mem_nil
  | (key, value) :: rest =>
      rw [placesIn_cons, List.mem_append] at h
      rw [namesIn_cons]
      rcases h with h | h
      · unfold placesOfField at h
        unfold fieldNames
        cases hname : repeatName form key with
        | none =>
            simp only [hname] at h
            exact absurd h List.not_mem_nil
        | some name =>
            simp only [hname] at h
            obtain ⟨idx, hthrough⟩ := through_of_repeat value h
            exact ⟨name, List.mem_append_left _ List.mem_cons_self, idx, hthrough⟩
      · obtain ⟨name, hname, idx, hthrough⟩ := through_of_placesIn rest h
        exact ⟨name, List.mem_append_right _ hname, idx, hthrough⟩

theorem through_of_repeat {place other : TableauPlace} {name : String} (value : PyValue)
    (h : other ∈ placesOfRepeat form place name value) : ∃ idx, Through place name idx other := by
  match value with
  | .list items =>
      rw [placesOfRepeat] at h
      obtain ⟨idx, -, hthrough⟩ := through_of_items items 1 h
      exact ⟨idx, hthrough⟩
  | .none | .bool _ | .int _ | .float _ | .str _ | .dict _ =>
      rw [placesOfRepeat] at h
      · exact absurd h List.not_mem_nil
      · intro items heq
        cases heq

end

mutual

/-- The places of the items of a repeat differ. -/
theorem nodup_placesOfItems {place : TableauPlace} {name : String} (items : List PyValue)
    (idx : Nat) (hfit : TableauItemsFit form items) :
    (placesOfItems form place name items idx).Nodup := by
  match items with
  | [] =>
      rw [placesOfItems]
      exact List.nodup_nil
  | item :: rest =>
      rw [TableauItemsFit] at hfit
      rw [placesOfItems, List.nodup_append]
      refine ⟨List.nodup_cons.mpr ⟨fun hself => ?_, nodup_placesOfItem item hfit.1⟩,
        nodup_placesOfItems rest (idx + 1) hfit.2, fun first hfirst later hlater heq => ?_⟩
      · obtain ⟨name', idx', hthrough⟩ := through_of_item item hself
        exact hthrough.ne rfl
      · have hthrough : Through place name idx first := by
          rcases List.mem_cons.mp hfirst with rfl | hfirst
          · exact through_below place name idx
          · obtain ⟨name', idx', hinner⟩ := through_of_item item hfirst
            exact hinner.of_below
        obtain ⟨idx', hle, hlaterThrough⟩ := through_of_items rest (idx + 1) hlater
        have hidx := ((heq ▸ hthrough).unique hlaterThrough).2
        omega

theorem nodup_placesOfItem {place : TableauPlace} (item : PyValue)
    (hfit : TableauItemFits form item) : (placesOfItem form place item).Nodup := by
  match item with
  | .dict fields =>
      rw [TableauItemFits] at hfit
      rw [placesOfItem]
      exact nodup_placesIn fields hfit.2.1 hfit.2.2
  | .none | .bool _ | .int _ | .float _ | .str _ | .list _ =>
      rw [TableauItemFits] at hfit
      · exact hfit.elim
      · intro fields heq
        cases heq

/-- The places of the items in a row differ. -/
theorem nodup_placesIn {place : TableauPlace} (fields : List (String × PyValue))
    (hrow : TableauRowFits form fields) (hfit : TableauRepeatsFit form fields) :
    (placesIn form place fields).Nodup := by
  match fields with
  | [] =>
      rw [placesIn]
      exact List.nodup_nil
  | (key, value) :: rest =>
      rw [TableauRepeatsFit] at hfit
      rw [placesIn_cons, List.nodup_append]
      refine ⟨?_, nodup_placesIn rest hrow.tail hfit.2, fun first hfirst later hlater heq => ?_⟩
      · unfold placesOfField
        cases hname : repeatName form key with
        | none => exact List.nodup_nil
        | some name => exact nodup_placesOfRepeat value (hfit.1 (by rw [hname]; rfl))
      · unfold placesOfField at hfirst
        cases hname : repeatName form key with
        | none =>
            simp only [hname] at hfirst
            exact absurd hfirst List.not_mem_nil
        | some name =>
            simp only [hname] at hfirst
            obtain ⟨idx, hthrough⟩ := through_of_repeat value hfirst
            obtain ⟨name', hname', idx', hlaterThrough⟩ := through_of_placesIn rest hlater
            obtain ⟨field, hfield, hfieldName⟩ := mem_namesIn.mp hname'
            have hself : name ∈ fieldNames form (key, value) := by
              unfold fieldNames
              rw [hname]
              exact List.mem_cons_self
            have hsame := ((heq ▸ hthrough).unique hlaterThrough).1
            exact (List.pairwise_cons.mp hrow.apart).1 field hfield name hself
              (hsame ▸ hfieldName)

theorem nodup_placesOfRepeat {place : TableauPlace} {name : String} (value : PyValue)
    (hfit : TableauRepeatFits form value) : (placesOfRepeat form place name value).Nodup := by
  match value with
  | .list items =>
      rw [TableauRepeatFits] at hfit
      rw [placesOfRepeat]
      exact nodup_placesOfItems items 1 hfit
  | .none | .bool _ | .int _ | .float _ | .str _ | .dict _ =>
      rw [TableauRepeatFits] at hfit
      · exact hfit.elim
      · intro items heq
        cases heq

end

theorem submission_of_places {submission : TableauSubmission form} {place : TableauPlace}
    (h : place ∈ submission.places) : place.submission = submission.id := by
  rcases List.mem_cons.mp h with rfl | h
  · rfl
  · obtain ⟨_, _, _, hthrough⟩ := through_of_placesIn submission.fields h
    exact hthrough.1

/-- The places of submissions with different ids differ. -/
theorem nodup_places {data : List (TableauSubmission form)}
    (hids : (data.map TableauSubmission.id).Nodup) :
    (data.flatMap TableauSubmission.places).Nodup := by
  induction data with
  | nil => exact List.nodup_nil
  | cons submission rest ih =>
      rw [List.map_cons, List.nodup_cons] at hids
      rw [List.flatMap_cons, List.nodup_append]
      refine ⟨List.nodup_cons.mpr ⟨fun hself => ?_, nodup_placesIn submission.fields
        submission.fits submission.repeatsFit⟩, ih hids.2, fun first hfirst later hlater heq => ?_⟩
      · obtain ⟨_, _, _, hthrough⟩ := through_of_placesIn submission.fields hself
        exact hthrough.ne rfl
      · obtain ⟨other, hother, hlater⟩ := List.mem_flatMap.mp hlater
        refine hids.1 (List.mem_map.mpr ⟨other, hother, ?_⟩)
        rw [← submission_of_places hfirst, heq, submission_of_places hlater]

/-! ### Codes that are not rounded -/

/-- The number that pairing gives without rounding. -/
def TableauPlace.number (place : TableauPlace) : Nat :=
  place.steps.foldl (fun id step => cantorPair id step.2) place.submission.toNat

/-- Below 2^53, pairing does not round. -/
theorem pairing_of_lt {id idx : Nat} (h : cantorPair id idx < 2 ^ 53) :
    pairing id idx = .ok (cantorPair id idx) := by
  have hproduct : (((id : Int) + idx) * (id + idx + 1)).toNat = (id + idx) * (id + idx + 1) := by
    rw [← Int.natCast_add, ← Int.natCast_succ, ← Int.natCast_mul]
    exact Int.toNat_natCast _
  have hhalf : (id + idx) * (id + idx + 1) / 2 = triangle (id + idx) := rfl
  have htriangle : triangle (id + idx) < 2 ^ 53 := Nat.lt_of_le_of_lt (Nat.le_add_right _ _) h
  have hidx : idx < 2 ^ 53 := Nat.lt_of_le_of_lt (Nat.le_add_left _ _) h
  have hsum : triangle (id + idx) + idx = cantorPair id idx := rfl
  unfold pairing
  simp only [hproduct, hhalf, roundDouble_of_lt htriangle, roundDouble_of_lt hidx,
    Option.bind_eq_bind, Option.bind_some, hsum, roundDouble_of_lt h]

/-- The number of a place is not less than those on the way to it. -/
theorem le_foldl_cantorPair (steps : List (String × Nat)) (id : Nat) :
    id ≤ steps.foldl (fun id step => cantorPair id step.2) id := by
  induction steps generalizing id with
  | nil => exact Nat.le_refl _
  | cons step rest ih => exact Nat.le_trans (left_le_cantorPair id step.2) (ih _)

/-- Below 2^53, the code is the number. -/
theorem code_of_lt {place : TableauPlace} (hid : 0 ≤ place.submission)
    (h : place.number < 2 ^ 53) : place.code = .ok (place.number : Int) := by
  obtain ⟨submission, steps⟩ := place
  obtain ⟨id, rfl⟩ := Int.eq_ofNat_of_zero_le hid
  unfold TableauPlace.number at h ⊢
  unfold TableauPlace.code
  simp only [Int.toNat_natCast] at h ⊢
  clear hid
  induction steps generalizing id with
  | nil => rfl
  | cons step rest ih =>
      rw [List.foldl_cons] at h ⊢
      have hstep : cantorPair id step.2 < 2 ^ 53 :=
        Nat.lt_of_le_of_lt (le_foldl_cantorPair rest _) h
      rw [List.foldlM_cons, pairing_of_lt hstep]
      exact ih _ h

/-- Places with the same repeats on the way have different numbers. -/
theorem foldl_cantorPair_inj {steps steps' : List (String × Nat)} {id id' : Nat}
    (hnames : steps.map Prod.fst = steps'.map Prod.fst)
    (h : steps.foldl (fun id step => cantorPair id step.2) id =
      steps'.foldl (fun id step => cantorPair id step.2) id') : id = id' ∧ steps = steps' := by
  induction steps generalizing steps' id id' with
  | nil =>
      cases steps' with
      | nil => exact ⟨h, rfl⟩
      | cons step' rest' => cases hnames
  | cons step rest ih =>
      cases steps' with
      | nil => cases hnames
      | cons step' rest' =>
          rw [List.map_cons, List.map_cons, List.cons.injEq] at hnames
          obtain ⟨hpaired, hrest⟩ := ih hnames.2 h
          obtain ⟨hid, hidx⟩ := cantorPair_inj hpaired
          exact ⟨hid, by rw [hrest, Prod.ext hnames.1 hidx]⟩

/-- One way through the repeats goes to each table. -/
def OnePath (data : List (TableauSubmission form)) : Prop :=
  ∀ place ∈ data.flatMap TableauSubmission.places,
    ∀ place' ∈ data.flatMap TableauSubmission.places,
      place.table = place'.table → place.steps.map Prod.fst = place'.steps.map Prod.fst

/-- No number of a place reaches 2^53. -/
def NumbersExact (data : List (TableauSubmission form)) : Prop :=
  ∀ place ∈ data.flatMap TableauSubmission.places, place.number < 2 ^ 53

instance (data : List (TableauSubmission form)) : Decidable (OnePath data) :=
  inferInstanceAs (Decidable (∀ place ∈ data.flatMap TableauSubmission.places,
    ∀ place' ∈ data.flatMap TableauSubmission.places,
      place.table = place'.table → place.steps.map Prod.fst = place'.steps.map Prod.fst))

instance (data : List (TableauSubmission form)) : Decidable (NumbersExact data) :=
  inferInstanceAs (Decidable (∀ place ∈ data.flatMap TableauSubmission.places,
    place.number < 2 ^ 53))

/-- Where no number reaches 2^53, the codes of a table differ. -/
theorem idsApart_of_lt {data : List (TableauSubmission form)}
    (hids : (data.map TableauSubmission.id).Nodup) (hpaths : OnePath data)
    (hsmall : NumbersExact data) : IdsApart data := by
  intro table
  have hpositive : ∀ place ∈ placesAt data table, 0 < place.submission := by
    intro place hplace
    obtain ⟨⟨submission, -, hplace⟩, -⟩ := mem_placesAt.mp hplace
    rw [submission_of_places hplace]
    exact submission.positive
  have hcode : ∀ place ∈ placesAt data table, place.code = .ok (place.number : Int) :=
    fun place hplace => code_of_lt (Int.le_of_lt (hpositive place hplace))
      (hsmall place (List.mem_of_mem_filter hplace))
  refine ⟨fun place hplace => ⟨_, hcode place hplace⟩, ?_⟩
  refine ((nodup_places hids).filter _).map_on fun place hplace place' hplace' heq => ?_
  rw [hcode place hplace, hcode place' hplace'] at heq
  have hnumber : place.number = place'.number := Int.ofNat.inj (Except.ok.inj heq)
  have htable : place.table = place'.table :=
    (mem_placesAt.mp hplace).2.trans (mem_placesAt.mp hplace').2.symm
  obtain ⟨hid, hsteps⟩ := foldl_cantorPair_inj (hpaths place (List.mem_of_mem_filter hplace) place'
    (List.mem_of_mem_filter hplace') htable) hnumber
  have hsubmission : place.submission = place'.submission := by
    have hleft := hpositive place hplace
    have hright := hpositive place' hplace'
    omega
  obtain ⟨submission, steps⟩ := place
  obtain ⟨submission', steps'⟩ := place'
  simp only at hsteps hsubmission
  rw [hsteps, hsubmission]

end

/-- A form with a repeat in a repeat. -/
def nestedForm : TableauForm :=
  { children := [.repeatSection "outer" [.repeatSection "inner" [.question "q" "text" []]]] }

/-- An item of the outer repeat with as many items in it. -/
def outerItem (inner : Nat) : PyValue :=
  .dict [("outer/inner", .list (List.replicate inner (.dict [("outer/inner/q", .str "a")])))]

/-- A submission with two items in the repeat, and inner items in both. -/
def smallNested : TableauSubmission nestedForm where
  id := 1
  fields := [("_id", .int 1), ("outer", .list [outerItem 2, outerItem 1])]
  hasId := rfl
  positive := by decide
  fits := by decide +kernel
  repeatsFit := by decide +kernel

/-- The submission with the id 16383: the first item of its outer repeat has two inner ones. -/
def firstLarge : TableauSubmission nestedForm where
  id := 16383
  fields := [("_id", .int 16383), ("outer", .list [outerItem 2])]
  hasId := rfl
  positive := by decide
  fits := by decide +kernel
  repeatsFit := by decide +kernel

/-- The submission with the id 16382: the second item of its outer repeat has one inner one. -/
def secondLarge : TableauSubmission nestedForm where
  id := 16382
  fields := [("_id", .int 16382), ("outer", .list [outerItem 0, outerItem 1])]
  hasId := rfl
  positive := by decide
  fits := by decide +kernel
  repeatsFit := by decide +kernel

/-- The inner items of the two have one code. -/
theorem codes_inner : (placesAt [firstLarge, secondLarge] "inner").map TableauPlace.code =
    [.ok 9008299135488004, .ok 9008299269713928, .ok 9008299269713928] := by
  decide +kernel

end Onadata
