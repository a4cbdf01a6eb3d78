import Mathlib.Data.List.Forall2
import Onadata.Apps.Api.Viewsets.TableauViewset
import Onadata.Lib.ExceptList
import Onadata.Lib.PyDict

/-!
# `Onadata.Proofs.Apps.Api.TableauIds`: the ids of Tableau rows

A place is a submission, or an item of a repeat in it: the names of the repeats and the positions of
the items on the way down. `placesIn` lists the places of the items in a row. The id of a place is
its `code`: the id of the submission, paired with one position after the other.

`FieldsDone` states what the keys of a row put in it. The lists under the names of the repeats have
one row for each place, with its code and with the table and the code of the place around it.
-/

set_option autoImplicit false

namespace Onadata

open Onadata.Lib

/-! ### Places -/

/-- A submission, or an item of a repeat in it. -/
structure TableauPlace where
  submission : Int
  steps : List (String × Nat) := []
  deriving DecidableEq, Repr

namespace TableauPlace

/-- The table of the row. -/
def table (place : TableauPlace) : String :=
  match place.steps.getLast? with
  | some step => step.1
  | none => DEFAULT_TABLE_NAME

/-- An item of a repeat in the row. -/
def below (place : TableauPlace) (name : String) (idx : Nat) : TableauPlace :=
  { place with steps := place.steps ++ [(name, idx)] }

/-- The submission or the item around an item. -/
def parent (place : TableauPlace) : Option TableauPlace :=
  if place.steps = [] then none else some { place with steps := place.steps.dropLast }

/-- The id of the submission, paired with the positions on the way down. -/
def code (place : TableauPlace) : Except PyError Int :=
  place.steps.foldlM (fun id step => do return ((← pairing id step.2 : Nat) : Int))
    place.submission

@[simp]
theorem table_below (place : TableauPlace) (name : String) (idx : Nat) :
    (place.below name idx).table = name := by
  unfold table below
  rw [List.getLast?_append, List.getLast?_singleton]
  rfl

@[simp]
theorem parent_below (place : TableauPlace) (name : String) (idx : Nat) :
    (place.below name idx).parent = some place := by
  unfold parent below
  rw [if_neg (by simp), List.dropLast_concat]

/-- The code of an item is the code of its parent, paired with its position. -/
theorem code_below {place : TableauPlace} {id : Int} (hcode : place.code = .ok id) (name : String)
    (idx : Nat) : (place.below name idx).code = (pairing id idx).map Int.ofNat := by
  unfold code at hcode
  unfold code below
  rw [List.foldlM_append, hcode]
  simp only [List.foldlM_cons, List.foldlM_nil, bind, Except.bind]
  generalize pairing id idx = result
  cases result <;> rfl

end TableauPlace

section
variable (form : TableauForm)

/-- The name of the repeat that a key names. -/
def repeatName (key : String) : Option String :=
  match form.getElement key with
  | some element => if element.2.type = "repeat" then some element.2.name else none
  | none => none

mutual

/-- The places of the items of a repeat, and of those in them. -/
def placesOfItems (place : TableauPlace) (name : String) (items : List PyValue) (idx : Nat) :
    List TableauPlace :=
  match items with
  | [] => []
  | item :: rest =>
      (place.below name idx :: placesOfItem (place.below name idx) item) ++
        placesOfItems place name rest (idx + 1)
termination_by structural items

/-- The places of the items in an item. -/
def placesOfItem (place : TableauPlace) (item : PyValue) : List TableauPlace :=
  match item with
  | .dict fields => placesIn place fields
  | _ => []
termination_by structural item

/-- The places of the items in a row. -/
def placesIn (place : TableauPlace) (fields : List (String × PyValue)) : List TableauPlace :=
  match fields with
  | [] => []
  | (key, value) :: rest =>
      (match repeatName form key with
        | some name => placesOfRepeat place name value
        | none => []) ++ placesIn place rest
termination_by structural fields

/-- The places of the items of the value of a repeat. -/
def placesOfRepeat (place : TableauPlace) (name : String) (value : PyValue) :
    List TableauPlace :=
  match value with
  | .list items => placesOfItems place name items 1
  | _ => []
termination_by structural value

end

mutual

/-- The names of the repeats in the items of a repeat. -/
def namesOfItems (items : List PyValue) : List String :=
  match items with
  | [] => []
  | item :: rest => namesOfItem item ++ namesOfItems rest
termination_by structural items

/-- The names of the repeats in an item. -/
def namesOfItem (item : PyValue) : List String :=
  match item with
  | .dict fields => namesIn fields
  | _ => []
termination_by structural item

/-- The names of the repeats in a row. -/
def namesIn (fields : List (String × PyValue)) : List String :=
  match fields with
  | [] => []
  | (key, value) :: rest =>
      (match repeatName form key with
        | some name => name :: namesOfRepeat value
        | none => []) ++ namesIn rest
termination_by structural fields

/-- The names of the repeats in the value of a repeat. -/
def namesOfRepeat (value : PyValue) : List String :=
  match value with
  | .list items => namesOfItems items
  | _ => []
termination_by structural value

end

/-- The names of the repeats that a key and its value bring. -/
def fieldNames (field : String × PyValue) : List String :=
  match repeatName form field.1 with
  | some name => name :: namesOfRepeat form field.2
  | none => []

/-- The columns that a key and its value bring, unless it is a repeat. -/
def fieldColumns (field : String × PyValue) : List String :=
  match form.getElement field.1 with
  | none => []
  | some element =>
      if element.2.type = "repeat" then []
      else match answerColumns form element field.2 with
        | .ok columns => Dict.keys columns
        | .error _ => []

/-- The columns that rows start with. -/
def startColumns : List String := ["_id", "__parent_id", "__parent_table"]

/-- The keys of a row, without the values of its repeats. The names of the repeats are different
ones, the columns have other names, and the answers are such as their questions have them. -/
structure TableauRowFits (fields : List (String × PyValue)) : Prop where
  apart : fields.Pairwise fun field later => ∀ name ∈ fieldNames form field,
    name ∉ fieldNames form later
  inner : ∀ field ∈ fields, ∀ name, repeatName form field.1 = some name →
    name ∉ namesOfRepeat form field.2
  names : ∀ field ∈ fields, ∀ name ∈ fieldNames form field, name ∉ startColumns ∧
    ∀ other ∈ fields, name ∉ fieldColumns form other
  columns : ∀ field ∈ fields, ∀ column ∈ fieldColumns form field, column ∉ startColumns
  answers : ∀ field ∈ fields, ∀ element, form.getElement field.1 = some element →
    element.2.type ≠ "repeat" → ∃ columns, answerColumns form element field.2 = .ok columns ∧
      ∀ column ∈ columns, column.2.isList = false

/-- An answer is such as its question has it. -/
def AnswerFits (element : PlacedElement) (value : PyValue) : Prop :=
  match answerColumns form element value with
  | .ok columns => ∀ column ∈ columns, column.2.isList = false
  | .error _ => False

instance (element : PlacedElement) (value : PyValue) :
    Decidable (AnswerFits form element value) :=
  match h : answerColumns form element value with
  | .ok columns => decidable_of_iff (∀ column ∈ columns, column.2.isList = false) (by
      unfold AnswerFits
      rw [h])
  | .error _ => isFalse (by
      unfold AnswerFits
      rw [h]
      exact id)

theorem rowFits_iff {fields : List (String × PyValue)} : TableauRowFits form fields ↔
    (fields.Pairwise fun field later => ∀ name ∈ fieldNames form field,
      name ∉ fieldNames form later) ∧
    (∀ field ∈ fields, ∀ name ∈ repeatName form field.1, name ∉ namesOfRepeat form field.2) ∧
    (∀ field ∈ fields, ∀ name ∈ fieldNames form field, name ∉ startColumns ∧
      ∀ other ∈ fields, name ∉ fieldColumns form other) ∧
    (∀ field ∈ fields, ∀ column ∈ fieldColumns form field, column ∉ startColumns) ∧
    ∀ field ∈ fields, ∀ element ∈ form.getElement field.1, element.2.type ≠ "repeat" →
      AnswerFits form element field.2 := by
  have hanswer : ∀ element value, AnswerFits form element value ↔
      ∃ columns, answerColumns form element value = .ok columns ∧
        ∀ column ∈ columns, column.2.isList = false := by
    intro element value
    unfold AnswerFits
    cases answerColumns form element value <;> simp
  simp only [hanswer]
  exact ⟨fun h => ⟨h.apart, h.inner, h.names, h.columns, h.answers⟩,
    fun ⟨apart, inner, names, columns, answers⟩ => ⟨apart, inner, names, columns, answers⟩⟩

instance (fields : List (String × PyValue)) : Decidable (TableauRowFits form fields) :=
  decidable_of_iff' _ (rowFits_iff form)

mutual

/-- The items of a repeat fit. -/
def TableauItemsFit (items : List PyValue) : Prop :=
  match items with
  | [] => True
  | item :: rest => TableauItemFits item ∧ TableauItemsFit rest
termination_by structural items

/-- An item of a repeat fits: it has no id of its own. -/
def TableauItemFits (item : PyValue) : Prop :=
  match item with
  | .dict fields =>
      Dict.get? fields "_id" = none ∧ TableauRowFits form fields ∧ TableauRepeatsFit fields
  | _ => False
termination_by structural item

/-- The values of the repeats of a row fit. -/
def TableauRepeatsFit (fields : List (String × PyValue)) : Prop :=
  match fields with
  | [] => True
  | (key, value) :: rest =>
      ((repeatName form key).isSome → TableauRepeatFits value) ∧ TableauRepeatsFit rest
termination_by structural fields

/-- The value of a repeat fits. -/
def TableauRepeatFits (value : PyValue) : Prop :=
  match value with
  | .list items => TableauItemsFit items
  | _ => False
termination_by structural value

end

mutual

/-- Whether the items of a repeat fit. -/
def decideItemsFit (items : List PyValue) : Decidable (TableauItemsFit form items) :=
  match items with
  | [] => isTrue (by rw [TableauItemsFit]; trivial)
  | item :: rest =>
      have := decideItemFits item
      have := decideItemsFit rest
      decidable_of_iff (TableauItemFits form item ∧ TableauItemsFit form rest) (by
        rw [TableauItemsFit])
termination_by structural items

/-- Whether an item of a repeat fits. -/
def decideItemFits (item : PyValue) : Decidable (TableauItemFits form item) :=
  match item with
  | .dict fields =>
      have := decideRepeatsFit fields
      decidable_of_iff ((Dict.get? fields "_id").isNone ∧ TableauRowFits form fields ∧
        TableauRepeatsFit form fields) (by rw [TableauItemFits, Option.isNone_iff_eq_none])
  | .none | .bool _ | .int _ | .float _ | .str _ | .list _ => isFalse (by simp [TableauItemFits])
termination_by structural item

/-- Whether the values of the repeats of a row fit. -/
def decideRepeatsFit (fields : List (String × PyValue)) :
    Decidable (TableauRepeatsFit form fields) :=
  match fields with
  | [] => isTrue (by rw [TableauRepeatsFit]; trivial)
  | (key, value) :: rest =>
      have := decideRepeatFits value
      have := decideRepeatsFit rest
      decidable_of_iff (((repeatName form key).isSome → TableauRepeatFits form value) ∧
        TableauRepeatsFit form rest) (by rw [TableauRepeatsFit])
termination_by structural fields

/-- Whether the value of a repeat fits. -/
def decideRepeatFits (value : PyValue) : Decidable (TableauRepeatFits form value) :=
  match value with
  | .list items =>
      have := decideItemsFit items
      decidable_of_iff (TableauItemsFit form items) (by rw [TableauRepeatFits])
  | .none | .bool _ | .int _ | .float _ | .str _ | .dict _ => isFalse (by simp [TableauRepeatFits])
termination_by structural value

end

instance (fields : List (String × PyValue)) : Decidable (TableauRepeatsFit form fields) :=
  decideRepeatsFit form fields

end

/-! ### Lists in a row -/

/-- The list under a key of a row. -/
def cellList (row : TableauRow) (key : String) : List PyValue :=
  match Dict.get? row key with
  | some (.list items) => items
  | _ => []

theorem cellList_of_get? {row : TableauRow} {key : String} {items : List PyValue}
    (h : Dict.get? row key = some (.list items)) : cellList row key = items := by
  unfold cellList
  rw [h]

theorem cellList_of_none {row : TableauRow} {key : String} (h : Dict.get? row key = none) :
    cellList row key = [] := by
  unfold cellList
  rw [h]

theorem cellList_congr {row row' : TableauRow} {key : String}
    (h : Dict.get? row key = Dict.get? row' key) : cellList row key = cellList row' key := by
  unfold cellList
  rw [h]

/-- A list, or nothing, is under the key. -/
def ListOrNone (row : TableauRow) (key : String) : Prop :=
  ∀ value, Dict.get? row key = some value → value.isList = true

theorem cellList_insert (row : TableauRow) (key key' : String) (items : List PyValue) :
    cellList (Dict.insert row key (.list items)) key' =
      if key' = key then items else cellList row key' := by
  unfold cellList
  rw [Dict.get?_insert]
  by_cases hkey : key' = key
  · rw [if_pos hkey, if_pos hkey]
  · rw [if_neg hkey, if_neg hkey]

/-- A list is extended, and all other keys stay. -/
theorem extendList_spec {flat : TableauRow} {key : String} (items : List PyValue)
    (hkey : ListOrNone flat key) :
    extendList flat key items =
      .ok (Dict.insert flat key (.list (cellList flat key ++ items))) := by
  unfold extendList cellList
  cases hget : Dict.get? flat key with
  | none => rfl
  | some value =>
      cases value with
      | list old => rfl
      | _ => exact absurd (hkey _ hget) Bool.noConfusion

/-- The lists of a row are lifted to the row around it. -/
structure Lifted (flat row flat' : TableauRow) : Prop where
  lists : ∀ key, cellList flat' key = cellList flat key ++ cellList row key
  kept : ∀ key, (∀ items, Dict.get? row key ≠ some (.list items)) →
    Dict.get? flat' key = Dict.get? flat key
  listOrNone : ∀ key, ListOrNone flat key → ListOrNone flat' key
  nodup : (Dict.keys flat).Nodup → (Dict.keys flat').Nodup

theorem liftLists_cons_of_not_list {key : String} {value : PyValue} (h : value.isList = false)
    (flat rest : TableauRow) : liftLists flat ((key, value) :: rest) = liftLists flat rest := by
  cases value with
  | list items => cases h
  | _ => rfl

theorem liftLists_spec {row flat : TableauRow} (hrow : (Dict.keys row).Nodup)
    (hkeys : ∀ key items, Dict.get? row key = some (.list items) → ListOrNone flat key) :
    ∃ flat', liftLists flat row = .ok flat' ∧ Lifted flat row flat' := by
  induction row generalizing flat with
  | nil =>
      exact ⟨flat, rfl, fun _ => (List.append_nil _).symm, fun _ _ => rfl, fun _ h => h, id⟩
  | cons cell rest ih =>
      obtain ⟨key, value⟩ := cell
      rw [Dict.keys_cons, List.nodup_cons] at hrow
      have hnone : Dict.get? rest key = none := Dict.get?_eq_none.mpr hrow.1
      have hself : Dict.get? ((key, value) :: rest) key = some value := if_pos rfl
      have hother : ∀ key', key' ≠ key →
          Dict.get? ((key, value) :: rest) key' = Dict.get? rest key' :=
        fun key' hne => if_neg fun heq => hne heq.symm
      have hne : ∀ key' items, Dict.get? rest key' = some (.list items) → key' ≠ key := by
        rintro key' items hget rfl
        rw [hnone] at hget
        cases hget
      have hrest : ∀ key' items, Dict.get? rest key' = some (.list items) →
          ListOrNone flat key' := fun key' items hget =>
        hkeys key' items ((hother key' (hne key' items hget)).trans hget)
      cases hvalue : value.isList with
      | false =>
          rw [liftLists_cons_of_not_list hvalue]
          obtain ⟨flat', hflat', hlifted⟩ := ih hrow.2 hrest
          have hcell : ∀ key', cellList ((key, value) :: rest) key' = cellList rest key' := by
            intro key'
            by_cases heq : key' = key
            · rw [heq, cellList_of_none hnone]
              unfold cellList
              rw [hself]
              cases value with
              | list items => cases hvalue
              | _ => rfl
            · exact cellList_congr (hother key' heq)
          refine ⟨flat', hflat', ?_, ?_, hlifted.listOrNone, hlifted.nodup⟩
          · intro key'
            rw [hcell]
            exact hlifted.lists key'
          · intro key' hlist
            refine hlifted.kept key' fun items hget => ?_
            exact hlist items ((hother key' (hne key' items hget)).trans hget)
      | true =>
          cases value with
          | list items =>
              have hflat := extendList_spec items (hkeys key items hself)
              have hstill : ∀ key', ListOrNone flat key' → ListOrNone
                  (Dict.insert flat key (.list (cellList flat key ++ items))) key' := by
                intro key' h found hfound
                rw [Dict.get?_insert] at hfound
                split at hfound
                · rw [← Option.some_inj.mp hfound]
                  rfl
                · exact h found hfound
              have hrest' : ∀ key' items', Dict.get? rest key' = some (.list items') → ListOrNone
                  (Dict.insert flat key (.list (cellList flat key ++ items))) key' :=
                fun key' items' hget => hstill key' (hrest key' items' hget)
              obtain ⟨flat', hflat', hlifted⟩ := ih hrow.2 hrest'
              refine ⟨flat', ?_, ?_, ?_, ?_, ?_⟩
              · rw [liftLists, hflat]
                exact hflat'
              · intro key'
                rw [hlifted.lists, cellList_insert]
                by_cases heq : key' = key
                · rw [if_pos heq, heq, cellList_of_none hnone, List.append_nil,
                    cellList_of_get? hself]
                · rw [if_neg heq, cellList_congr (hother key' heq)]
              · intro key' hlist
                have hne' : key' ≠ key := by
                  rintro rfl
                  exact hlist items hself
                rw [hlifted.kept key' fun items' hget => hlist items'
                  ((hother key' hne').trans hget), Dict.get?_insert, if_neg hne']
              · exact fun key' h => hlifted.listOrNone key' (hstill key' h)
              · exact fun h => hlifted.nodup (Dict.nodup_keys_insert h _ _)
          | _ => cases hvalue

/-- The lists of the rows of a repeat are lifted to the row around it. -/
structure Unpacked (repeatData : List TableauRow) (flat flat' : TableauRow) : Prop where
  lists : ∀ key, cellList flat' key =
    cellList flat key ++ repeatData.flatMap fun row => cellList row key
  kept : ∀ key, (∀ row ∈ repeatData, ∀ items, Dict.get? row key ≠ some (.list items)) →
    Dict.get? flat' key = Dict.get? flat key
  nodup : (Dict.keys flat).Nodup → (Dict.keys flat').Nodup

theorem unpackRepeatData_spec {repeatData : List TableauRow} {flat : TableauRow}
    (hrows : ∀ row ∈ repeatData, (Dict.keys row).Nodup)
    (hkeys : ∀ row ∈ repeatData, ∀ key items, Dict.get? row key = some (.list items) →
      ListOrNone flat key) :
    ∃ flat', unpackRepeatData repeatData flat = .ok flat' ∧ Unpacked repeatData flat flat' := by
  induction repeatData generalizing flat with
  | nil => exact ⟨flat, rfl, fun _ => (List.append_nil _).symm, fun _ _ => rfl, id⟩
  | cons row rest ih =>
      obtain ⟨mid, hmid, hlifted⟩ := liftLists_spec (hrows row List.mem_cons_self)
        (hkeys row List.mem_cons_self)
      have hmidKeys : ∀ other ∈ rest, ∀ key items, Dict.get? other key = some (.list items) →
          ListOrNone mid key := fun other hother key items hget =>
        hlifted.listOrNone key (hkeys other (List.mem_cons_of_mem _ hother) key items hget)
      obtain ⟨flat', hflat', hunpacked⟩ :=
        ih (fun other hother => hrows other (List.mem_cons_of_mem _ hother)) hmidKeys
      refine ⟨flat', ?_, fun key => ?_, fun key hnone => ?_, fun h =>
        hunpacked.nodup (hlifted.nodup h)⟩
      · unfold unpackRepeatData at hflat' ⊢
        rw [List.foldlM_cons, hmid]
        exact hflat'
      · rw [hunpacked.lists, hlifted.lists, List.flatMap_cons, List.append_assoc]
      · rw [hunpacked.kept key fun other hother => hnone other (List.mem_cons_of_mem _ hother),
          hlifted.kept key (hnone row List.mem_cons_self)]

/-- A row without its lists has the other cells. -/
theorem get?_withoutLists {row : TableauRow} {key : String} {value : PyValue}
    (hnodup : (Dict.keys row).Nodup) (hget : Dict.get? row key = some value)
    (hvalue : value.isList = false) : Dict.get? (withoutLists row) key = some value := by
  have hmem : (key, value) ∈ withoutLists row :=
    List.mem_filter.mpr ⟨Dict.mem_of_get? hget, by rw [hvalue]; rfl⟩
  exact Dict.get?_of_mem (hnodup.sublist (List.filter_sublist.map _)) hmem

/-! ### Rows of places -/

/-- The row has the code of the place as its id, and names the place around it. -/
structure RowOf (place : TableauPlace) (row : TableauRow) : Prop where
  id : ∃ code, place.code = .ok code ∧ Dict.get? row "_id" = some (.int code)
  parent : ∀ parent, place.parent = some parent →
    Dict.get? row "__parent_table" = some (.str parent.table) ∧
    ∃ code, parent.code = .ok code ∧ Dict.get? row "__parent_id" = some (.int code)

/-- The cell is a row of the place. -/
def CellOf (place : TableauPlace) (cell : PyValue) : Prop :=
  ∃ row, cell = .dict row ∧ RowOf place row

theorem RowOf.withoutLists {place : TableauPlace} {row : TableauRow} (h : RowOf place row)
    (hnodup : (Dict.keys row).Nodup) : RowOf place (withoutLists row) := by
  refine ⟨?_, fun parent hparent => ?_⟩
  · obtain ⟨code, hcode, hget⟩ := h.id
    exact ⟨code, hcode, get?_withoutLists hnodup hget rfl⟩
  · obtain ⟨htable, code, hcode, hget⟩ := h.parent parent hparent
    exact ⟨get?_withoutLists hnodup htable rfl, code, hcode, get?_withoutLists hnodup hget rfl⟩

variable {form : TableauForm}

/-- The places of the rows of a table. -/
def ofTable (table : String) (places : List TableauPlace) : List TableauPlace :=
  places.filter fun place => place.table = table

@[simp]
theorem ofTable_append (table : String) (places places' : List TableauPlace) :
    ofTable table (places ++ places') = ofTable table places ++ ofTable table places' :=
  List.filter_append ..

theorem ofTable_eq_nil {table : String} {places : List TableauPlace}
    (h : ∀ place ∈ places, place.table ≠ table) : ofTable table places = [] :=
  List.filter_eq_nil_iff.mpr fun place hplace => by simpa using h place hplace

mutual

/-- A place below a row is in the table of one of its repeats. -/
theorem table_mem_namesOfItems {place other : TableauPlace} {name : String}
    (items : List PyValue) (idx : Nat) (h : other ∈ placesOfItems form place name items idx) :
    other.table = name ∨ other.table ∈ namesOfItems form items := by
  match items with
  | [] => exact absurd h List.not_mem_nil
  | item :: rest =>
      rw [placesOfItems, List.mem_append, List.mem_cons] at h
      rw [namesOfItems, List.mem_append]
      rcases h with (rfl | h) | h
      · exact .inl (TableauPlace.table_below place name idx)
      · exact .inr (.inl (table_mem_namesOfItem item h))
      · rcases table_mem_namesOfItems rest (idx + 1) h with h | h
        · exact .inl h
        · exact .inr (.inr h)

theorem table_mem_namesOfItem {place other : TableauPlace} (item : PyValue)
    (h : other ∈ placesOfItem form place item) : other.table ∈ namesOfItem form item := by
  match item with
  | .dict fields =>
      rw [placesOfItem] at h
      rw [namesOfItem]
      exact table_mem_namesIn fields h
  | .none | .bool _ | .int _ | .float _ | .str _ | .list _ =>
      rw [placesOfItem] at h
      · exact absurd h List.not_mem_nil
      · intro fields heq
        cases heq

theorem table_mem_namesIn {place other : TableauPlace} (fields : List (String × PyValue))
    (h : other ∈ placesIn form place fields) : other.table ∈ namesIn form fields := by
  match fields with
  | [] => exact absurd h List.not_mem_nil
  | (key, value) :: rest =>
      rw [placesIn, List.mem_append] at h
      rw [namesIn, List.mem_append]
      rcases h with h | h
      · cases hname : repeatName form key with
        | none =>
            rw [hname] at h
            exact absurd h List.not_mem_nil
        | some name =>
            rw [hname] at h
            exact .inl (List.mem_cons.mpr (table_mem_namesOfRepeat value h))
      · exact .inr (table_mem_namesIn rest h)

theorem table_mem_namesOfRepeat {place other : TableauPlace} {name : String} (value : PyValue)
    (h : other ∈ placesOfRepeat form place name value) :
    other.table = name ∨ other.table ∈ namesOfRepeat form value := by
  match value with
  | .list items =>
      rw [placesOfRepeat] at h
      rw [namesOfRepeat]
      exact table_mem_namesOfItems items 1 h
  | .none | .bool _ | .int _ | .float _ | .str _ | .dict _ =>
      rw [placesOfRepeat] at h
      · exact absurd h List.not_mem_nil
      · intro items heq
        cases heq

end

/-! ### A key of a row -/

/-- The places of the items that a key and its value bring. -/
def placesOfField (form : TableauForm) (place : TableauPlace) (field : String × PyValue) :
    List TableauPlace :=
  match repeatName form field.1 with
  | some name => placesOfRepeat form place name field.2
  | none => []

theorem namesIn_cons (field : String × PyValue) (rest : List (String × PyValue)) :
    namesIn form (field :: rest) = fieldNames form field ++ namesIn form rest := by
  rw [namesIn]
  rfl

theorem placesIn_cons (place : TableauPlace) (field : String × PyValue)
    (rest : List (String × PyValue)) :
    placesIn form place (field :: rest) =
      placesOfField form place field ++ placesIn form place rest := by
  rw [placesIn]
  rfl

theorem mem_namesIn {fields : List (String × PyValue)} {name : String} :
    name ∈ namesIn form fields ↔ ∃ field ∈ fields, name ∈ fieldNames form field := by
  induction fields with
  | nil =>
      rw [namesIn]
      simp
  | cons field rest ih =>
      rw [namesIn_cons, List.mem_append, ih]
      simp

/-- The places that a key brings are in the tables that it names. -/
theorem table_mem_fieldNames {place other : TableauPlace} {field : String × PyValue}
    (h : other ∈ placesOfField form place field) : other.table ∈ fieldNames form field := by
  unfold placesOfField at h
  unfold fieldNames
  cases hname : repeatName form field.1 with
  | none =>
      rw [hname] at h
      exact absurd h List.not_mem_nil
  | some name =>
      rw [hname] at h
      exact List.mem_cons.mpr (table_mem_namesOfRepeat field.2 h)

/-- What the keys of a row put in it. -/
structure FieldsDone (names columns : List String)
    (places : List TableauPlace) (flat flat' : TableauRow) : Prop where
  nodup : (Dict.keys flat').Nodup
  kept : ∀ key, key ∉ names → key ∉ columns → Dict.get? flat' key = Dict.get? flat key
  listsFrom : ∀ key items, Dict.get? flat' key = some (.list items) →
    key ∈ names ∨ ∃ old, Dict.get? flat key = some (.list old)
  lists : ∀ table ∈ names, List.Forall₂ CellOf (ofTable table places) (cellList flat' table)

/-- What the rows of a repeat are. -/
structure ItemsDone (name : String) (names : List String) (places : List TableauPlace)
    (rows : List TableauRow) : Prop where
  own : List.Forall₂ (fun place row => RowOf place row ∧ (Dict.keys row).Nodup)
    (ofTable name places) rows
  nodup : ∀ row ∈ rows, (Dict.keys row).Nodup
  listsFrom : ∀ row ∈ rows, ∀ key items, Dict.get? row key = some (.list items) → key ∈ names
  lists : ∀ table, table ≠ name → List.Forall₂ CellOf (ofTable table places)
    (rows.flatMap fun row => cellList row table)

/-- What the row of an item is. -/
structure RowDone (names : List String) (place : TableauPlace) (places : List TableauPlace)
    (row : TableauRow) : Prop where
  own : RowOf place row
  nodup : (Dict.keys row).Nodup
  listsFrom : ∀ key items, Dict.get? row key = some (.list items) → key ∈ names
  lists : ∀ table, List.Forall₂ CellOf (ofTable table places) (cellList row table)

/-- A key that names no element puts nothing in the row. -/
theorem fieldsDone_refl {flat : TableauRow} (hnodup : (Dict.keys flat).Nodup) :
    FieldsDone [] [] [] flat flat where
  nodup := hnodup
  kept := fun _ _ _ => rfl
  listsFrom := fun _ items h => .inr ⟨items, h⟩
  lists := fun _ h => absurd h List.not_mem_nil

/-- The value of a key after an update with items. -/
theorem get?_update_of_mem {d items : List (String × PyValue)} {key : String}
    (h : key ∈ Dict.keys items) :
    ∃ value, (key, value) ∈ items ∧ Dict.get? (Dict.update d items) key = some value := by
  induction items generalizing d with
  | nil => exact absurd h List.not_mem_nil
  | cons item rest ih =>
      show ∃ value, _ ∧ Dict.get? (Dict.update (Dict.insert d item.1 item.2) rest) key = some value
      by_cases hrest : key ∈ Dict.keys rest
      · obtain ⟨value, hmem, hget⟩ := ih (d := Dict.insert d item.1 item.2) hrest
        exact ⟨value, List.mem_cons_of_mem _ hmem, hget⟩
      · have hkey : key = item.1 := by
          rw [Dict.keys_cons, List.mem_cons] at h
          exact h.resolve_right hrest
        refine ⟨item.2, hkey ▸ List.mem_cons_self, ?_⟩
        refine (Dict.get?_foldl_insert_of_notMem Prod.fst (fun _ item => item.2) rest _ hrest).trans
          ?_
        rw [Dict.get?_insert, if_pos hkey]

theorem get?_update_of_notMem {d items : List (String × PyValue)} {key : String}
    (h : key ∉ Dict.keys items) : Dict.get? (Dict.update d items) key = Dict.get? d key :=
  Dict.get?_foldl_insert_of_notMem Prod.fst (fun _ item => item.2) items d h

/-- An answer puts its columns in the row. -/
theorem fieldsDone_answer {flat columns : TableauRow} (hnodup : (Dict.keys flat).Nodup)
    (hcolumns : ∀ column ∈ columns, column.2.isList = false) :
    FieldsDone [] (Dict.keys columns) [] flat (Dict.update flat columns) where
  nodup := Dict.nodup_keys_update hnodup columns
  kept := fun key _ hkey => get?_update_of_notMem hkey
  listsFrom := by
    intro key items hget
    right
    by_cases hkey : key ∈ Dict.keys columns
    · obtain ⟨value, hmem, hvalue⟩ := get?_update_of_mem (d := flat) hkey
      rw [hvalue] at hget
      have hlist := hcolumns _ hmem
      rw [Option.some_inj.mp hget] at hlist
      cases hlist
    · exact ⟨items, (get?_update_of_notMem hkey).symm.trans hget⟩
  lists := fun _ h => absurd h List.not_mem_nil

/-- A repeat puts its rows in the row, and those of the repeats in it. -/
theorem fieldsDone_repeat {name : String} {names : List String} {places : List TableauPlace}
    {rows : List TableauRow} {flat : TableauRow} (hnodup : (Dict.keys flat).Nodup)
    (hdone : ItemsDone name names places rows)
    (hnone : ∀ key ∈ names, Dict.get? flat key = none) :
    ∃ mid, unpackRepeatData rows flat = .ok mid ∧ FieldsDone (name :: names) [] places flat
      (Dict.insert mid name (.list (rows.map fun row => .dict (withoutLists row)))) := by
  have hkeys : ∀ row ∈ rows, ∀ key items, Dict.get? row key = some (.list items) →
      ListOrNone flat key := by
    intro row hrow key items hget value hvalue
    rw [hnone key (hdone.listsFrom row hrow key items hget)] at hvalue
    cases hvalue
  obtain ⟨mid, hmid, hunpacked⟩ := unpackRepeatData_spec hdone.nodup hkeys
  have hkept : ∀ key, key ∉ names → Dict.get? mid key = Dict.get? flat key := fun key hkey =>
    hunpacked.kept key fun row hrow items hget =>
      hkey (hdone.listsFrom row hrow key items hget)
  refine ⟨mid, hmid, Dict.nodup_keys_insert (hunpacked.nodup hnodup) _ _, ?_, ?_, ?_⟩
  · intro key hkey _
    rw [List.mem_cons, not_or] at hkey
    rw [Dict.get?_insert, if_neg hkey.1]
    exact hkept key hkey.2
  · intro key items hget
    rw [Dict.get?_insert] at hget
    by_cases heq : key = name
    · exact .inl (heq ▸ List.mem_cons_self)
    · rw [if_neg heq] at hget
      by_cases hkey : key ∈ names
      · exact .inl (List.mem_cons_of_mem _ hkey)
      · exact .inr ⟨items, (hkept key hkey).symm.trans hget⟩
  · intro table htable
    rw [cellList_insert]
    by_cases heq : table = name
    · rw [if_pos heq, heq]
      exact List.forall₂_map_right_iff.mpr (hdone.own.imp fun place row hrow =>
        ⟨_, rfl, hrow.1.withoutLists hrow.2⟩)
    · rw [if_neg heq]
      have hmem : table ∈ names := (List.mem_cons.mp htable).resolve_left heq
      rw [hunpacked.lists, cellList_of_none (hnone table hmem), List.nil_append]
      exact hdone.lists table heq

/-- What two keys put in a row, one after the other. -/
theorem FieldsDone.append {names names' columns columns' : List String}
    {places places' : List TableauPlace} {flat mid flat' : TableauRow}
    (h : FieldsDone names columns places flat mid)
    (h' : FieldsDone names' columns' places' mid flat')
    (hapart : ∀ name ∈ names, name ∉ names' ∧ name ∉ columns')
    (hplaces : ∀ place ∈ places, place.table ∈ names)
    (hplaces' : ∀ place ∈ places', place.table ∈ names') :
    FieldsDone (names ++ names') (columns ++ columns') (places ++ places') flat flat' where
  nodup := h'.nodup
  kept := by
    intro key hnames hcolumns
    rw [List.mem_append, not_or] at hnames hcolumns
    rw [h'.kept key hnames.2 hcolumns.2, h.kept key hnames.1 hcolumns.1]
  listsFrom := by
    intro key items hget
    rw [List.mem_append]
    rcases h'.listsFrom key items hget with hkey | ⟨old, hold⟩
    · exact .inl (.inr hkey)
    · rcases h.listsFrom key old hold with hkey | hflat
      · exact .inl (.inl hkey)
      · exact .inr hflat
  lists := by
    intro table htable
    rw [ofTable_append]
    by_cases hmem : table ∈ names
    · have hnone : ofTable table places' = [] := ofTable_eq_nil fun place hplace heq =>
        (hapart table hmem).1 (heq ▸ hplaces' place hplace)
      rw [hnone, List.append_nil,
        cellList_congr (h'.kept table (hapart table hmem).1 (hapart table hmem).2)]
      exact h.lists table hmem
    · have hnone : ofTable table places = [] := ofTable_eq_nil fun place hplace heq =>
        hmem (heq ▸ hplaces place hplace)
      rw [hnone, List.nil_append]
      exact h'.lists table ((List.mem_append.mp htable).resolve_left hmem)

/-- The rows of a repeat with one more item before them. -/
theorem ItemsDone.cons {name : String} {names names' : List String} {place : TableauPlace}
    {places places' : List TableauPlace} {row : TableauRow} {rows : List TableauRow}
    (h : RowDone names place places row) (h' : ItemsDone name names' places' rows)
    (hplace : place.table = name) (hplaces : ∀ other ∈ places, other.table ≠ name) :
    ItemsDone name (names ++ names') ((place :: places) ++ places') (row :: rows) where
  own := by
    have hnone : ofTable name places = [] := ofTable_eq_nil hplaces
    have hself : ofTable name (place :: places) = [place] := by
      unfold ofTable at hnone ⊢
      rw [List.filter_cons, if_pos (decide_eq_true hplace), hnone]
    rw [ofTable_append, hself]
    exact .cons ⟨h.own, h.nodup⟩ h'.own
  nodup := by
    intro other hother
    rcases List.mem_cons.mp hother with rfl | hother
    · exact h.nodup
    · exact h'.nodup other hother
  listsFrom := by
    intro other hother key items hget
    rw [List.mem_append]
    rcases List.mem_cons.mp hother with rfl | hother
    · exact .inl (h.listsFrom key items hget)
    · exact .inr (h'.listsFrom other hother key items hget)
  lists := by
    intro table htable
    have hself : ofTable table (place :: places) = ofTable table places := by
      unfold ofTable
      rw [List.filter_cons,
        if_neg fun heq => htable ((of_decide_eq_true heq).symm.trans hplace)]
    rw [ofTable_append, hself, List.flatMap_cons]
    exact List.rel_append (h.lists table) (h'.lists table htable)

/-- Codes are positive. -/
theorem pairing_pos {val1 : Int} {val2 code : Nat} (hpos : 0 < val2)
    (h : pairing val1 val2 = .ok code) : 0 < code := by
  unfold pairing at h
  simp only at h
  split at h
  · rename_i rounded hrounded
    obtain rfl := Except.ok.inj h
    simp only [Option.bind_eq_bind, Option.bind_eq_some_iff] at hrounded
    obtain ⟨quotient, -, addend, haddend, hsum⟩ := hrounded
    have haddendPos := roundDouble_pos hpos haddend
    exact roundDouble_pos (by omega) hsum
  · cases h

/-- What the row of an item starts with. -/
def itemStart (table : String) (id code : Int) : TableauRow :=
  [("__parent_id", .int id), ("__parent_table", .str table), ("_id", .int code)]

theorem nodup_itemStart (table : String) (id code : Int) :
    (Dict.keys (itemStart table id code)).Nodup := by
  show ["__parent_id", "__parent_table", "_id"].Nodup
  decide

theorem get?_itemStart_of_notMem {table key : String} {id code : Int} (h : key ∉ startColumns) :
    Dict.get? (itemStart table id code) key = none := by
  rw [Dict.get?_eq_none]
  intro hkey
  refine h ?_
  have hkeys : key ∈ ["__parent_id", "__parent_table", "_id"] := hkey
  simp only [List.mem_cons, List.not_mem_nil, or_false] at hkeys
  rcases hkeys with rfl | rfl | rfl <;> decide

theorem get?_itemStart_ne_list {table key : String} {id code : Int} {items : List PyValue} :
    Dict.get? (itemStart table id code) key ≠ some (.list items) := by
  intro h
  have hmem := Dict.mem_of_get? h
  simp [itemStart] at hmem

/-- The row of an item starts with its code and with the code and the table of its parent. -/
theorem startRow_item {table : String} {id : Int} {idx paired : Nat}
    {fields : List (String × PyValue)} (hid : 0 < id) (hnone : Dict.get? fields "_id" = none)
    (hpairing : pairing id idx = .ok paired) :
    startRow (.str table) (.int id) idx fields =
      .ok (.int paired, itemStart table id paired) := by
  have htruthy : PyValue.truthy (.int id) = true := by
    simp [PyValue.truthy]
    omega
  unfold startRow
  rw [hnone]
  simp only [Option.getD_none, htruthy]
  show (itemId (.int id) idx >>= _) = _
  unfold itemId
  simp only [hpairing]
  rfl

theorem TableauRowFits.tail {field : String × PyValue} {rest : List (String × PyValue)}
    (h : TableauRowFits form (field :: rest)) : TableauRowFits form rest where
  apart := (List.pairwise_cons.mp h.apart).2
  inner := fun other hother => h.inner other (List.mem_cons_of_mem _ hother)
  names := fun other hother name hname =>
    ⟨(h.names other (List.mem_cons_of_mem _ hother) name hname).1, fun another hanother =>
      (h.names other (List.mem_cons_of_mem _ hother) name hname).2 another
        (List.mem_cons_of_mem _ hanother)⟩
  columns := fun other hother => h.columns other (List.mem_cons_of_mem _ hother)
  answers := fun other hother => h.answers other (List.mem_cons_of_mem _ hother)

/-- An answer that is no repeat puts its columns in the row. -/
theorem addField_answer {place : TableauPlace} {field : String × PyValue}
    {rest : List (String × PyValue)} {flat : TableauRow}
    {repeatData : String → Except PyError (List TableauRow)}
    (hrepeat : repeatName form field.1 = none) (hfits : TableauRowFits form (field :: rest))
    (hnodup : (Dict.keys flat).Nodup) :
    ∃ mid, addField form (form.getElement field.1) field.2 flat repeatData = .ok mid ∧
      FieldsDone (fieldNames form field) (fieldColumns form field)
        (placesOfField form place field) flat mid := by
  have hnames : fieldNames form field = [] := by
    unfold fieldNames
    rw [hrepeat]
  have hplaces : placesOfField form place field = [] := by
    unfold placesOfField
    rw [hrepeat]
  rw [hnames, hplaces]
  unfold fieldColumns addField
  cases helement : form.getElement field.1 with
  | none => exact ⟨flat, rfl, fieldsDone_refl hnodup⟩
  | some element =>
      have htype : element.2.type ≠ "repeat" := by
        intro htype
        unfold repeatName at hrepeat
        rw [helement] at hrepeat
        simp [htype] at hrepeat
      obtain ⟨columns, hcolumns, hlists⟩ :=
        hfits.answers field List.mem_cons_self element helement htype
      simp only [if_neg htype, hcolumns]
      exact ⟨_, rfl, fieldsDone_answer hnodup hlists⟩

/-- A repeat puts its rows in the row. -/
theorem addField_repeat {place : TableauPlace} {field : String × PyValue} {name : String}
    {rows : List TableauRow} {flat : TableauRow}
    {repeatData : String → Except PyError (List TableauRow)}
    (hrepeat : repeatName form field.1 = some name) (hrows : repeatData name = .ok rows)
    (hdone : ItemsDone name (namesOfRepeat form field.2)
      (placesOfRepeat form place name field.2) rows)
    (hnodup : (Dict.keys flat).Nodup)
    (hnone : ∀ key ∈ fieldNames form field, Dict.get? flat key = none) :
    ∃ mid, addField form (form.getElement field.1) field.2 flat repeatData = .ok mid ∧
      FieldsDone (fieldNames form field) (fieldColumns form field)
        (placesOfField form place field) flat mid := by
  have hnames : fieldNames form field = name :: namesOfRepeat form field.2 := by
    unfold fieldNames
    rw [hrepeat]
  have hplaces : placesOfField form place field = placesOfRepeat form place name field.2 := by
    unfold placesOfField
    rw [hrepeat]
  unfold repeatName at hrepeat
  cases helement : form.getElement field.1 with
  | none =>
      rw [helement] at hrepeat
      cases hrepeat
  | some element =>
      simp only [helement] at hrepeat
      split at hrepeat
      · rename_i htype
        obtain rfl := Option.some_inj.mp hrepeat
        have hcolumns : fieldColumns form field = [] := by
          unfold fieldColumns
          rw [helement]
          exact if_pos htype
        rw [hnames] at hnone
        obtain ⟨mid, hmid, hfields⟩ := fieldsDone_repeat hnodup hdone
          fun key hkey => hnone key (List.mem_cons_of_mem _ hkey)
        rw [hnames, hplaces, hcolumns]
        refine ⟨_, ?_, hfields⟩
        simp only [addField, if_pos htype, hrows, hmid, bind, Except.bind, pure, Except.pure]
      · cases hrepeat

/-! ### The rows of a submission -/

/-- No code is too large for a double. -/
def CodesFit (places : List TableauPlace) : Prop :=
  ∀ place ∈ places, ∃ code, place.code = .ok code

/-- A row, from what its keys put in it. What it starts with holds no lists. -/
theorem RowDone.of_fields {place : TableauPlace} {names columns : List String}
    {places : List TableauPlace} {start row : TableauRow}
    (hdone : FieldsDone names columns places start row)
    (hplaces : ∀ other ∈ places, other.table ∈ names)
    (hstart : ∀ key items, Dict.get? start key ≠ some (.list items)) (hown : RowOf place row) :
    RowDone names place places row := by
  have hlist : ∀ key items, Dict.get? row key = some (.list items) → key ∈ names := by
    intro key items hget
    rcases hdone.listsFrom key items hget with hkey | ⟨old, hold⟩
    · exact hkey
    · exact absurd hold (hstart key old)
  refine ⟨hown, hdone.nodup, hlist, fun table => ?_⟩
  by_cases htable : table ∈ names
  · exact hdone.lists table htable
  · have hnone : ofTable table places = [] :=
      ofTable_eq_nil fun other hother heq => htable (heq ▸ hplaces other hother)
    have hcell : cellList row table = [] := by
      unfold cellList
      split
      · rename_i items hget
        exact absurd (hlist table items hget) htable
      · rfl
    rw [hnone, hcell]
    exact .nil

/-- The keys of a row leave the columns that it starts with as they are. -/
theorem startColumns_kept {fields : List (String × PyValue)} {places : List TableauPlace}
    {start row : TableauRow} (hrow : TableauRowFits form fields)
    (hdone : FieldsDone (namesIn form fields) (fields.flatMap (fieldColumns form)) places start
      row) (key : String) (hkey : key ∈ startColumns) :
    Dict.get? row key = Dict.get? start key := by
  refine hdone.kept key (fun hname => ?_) fun hcolumn => ?_
  · obtain ⟨field, hfield, hname⟩ := mem_namesIn.mp hname
    exact (hrow.names field hfield key hname).1 hkey
  · obtain ⟨field, hfield, hcolumn⟩ := List.mem_flatMap.mp hcolumn
    exact hrow.columns field hfield key hcolumn hkey

/-- The row of an item, from what its keys put in it. -/
theorem rowDone_of_fields {place : TableauPlace} {id : Int} {name : String} {idx paired : Nat}
    {fields : List (String × PyValue)} {row : TableauRow} (hcode : place.code = .ok id)
    (hbelow : (place.below name idx).code = .ok (paired : Int)) (hrow : TableauRowFits form fields)
    (hdone : FieldsDone (namesIn form fields) (fields.flatMap (fieldColumns form))
      (placesIn form (place.below name idx) fields) (itemStart place.table id paired) row) :
    RowDone (namesIn form fields) (place.below name idx)
      (placesIn form (place.below name idx) fields) row := by
  refine RowDone.of_fields hdone (fun other hother => table_mem_namesIn fields hother)
    (fun _ _ => get?_itemStart_ne_list) ⟨⟨paired, hbelow, ?_⟩, fun parent hparent => ?_⟩
  · rw [startColumns_kept hrow hdone "_id" (by decide)]
    rfl
  · rw [TableauPlace.parent_below] at hparent
    obtain rfl := Option.some_inj.mp hparent
    refine ⟨?_, id, hcode, ?_⟩
    · rw [startColumns_kept hrow hdone "__parent_table" (by decide)]
      rfl
    · rw [startColumns_kept hrow hdone "__parent_id" (by decide)]
      rfl

/-- What the keys of a row put in it, with one more key before them. `hrepeat` are the rows of its
value, if it is that of a repeat. -/
theorem processFields_cons {place : TableauPlace} {id : Int} {field : String × PyValue}
    {rest : List (String × PyValue)} {flat : TableauRow}
    (hrow : TableauRowFits form (field :: rest)) (hnodup : (Dict.keys flat).Nodup)
    (hnone : ∀ key ∈ namesIn form (field :: rest), Dict.get? flat key = none)
    (hrepeat : ∀ name, repeatName form field.1 = some name → ∃ rows,
      processRepeat form place.table (.int id) name field.2 = .ok rows ∧
      ItemsDone name (namesOfRepeat form field.2) (placesOfRepeat form place name field.2) rows)
    (hrest : ∀ mid, (Dict.keys mid).Nodup →
      (∀ key ∈ namesIn form rest, Dict.get? mid key = none) → ∃ flat',
      processFields form place.table (.int id) rest mid = .ok flat' ∧
      FieldsDone (namesIn form rest) (rest.flatMap (fieldColumns form))
        (placesIn form place rest) mid flat') :
    ∃ flat', processFields form place.table (.int id) (field :: rest) flat = .ok flat' ∧
      FieldsDone (namesIn form (field :: rest)) ((field :: rest).flatMap (fieldColumns form))
        (placesIn form place (field :: rest)) flat flat' := by
  rw [namesIn_cons] at hnone
  have hnoneField : ∀ name ∈ fieldNames form field, Dict.get? flat name = none :=
    fun name hname => hnone name (List.mem_append_left _ hname)
  obtain ⟨mid, hmid, hdone⟩ : ∃ mid, addField form (form.getElement field.1) field.2 flat
      (fun name => processRepeat form place.table (.int id) name field.2) = .ok mid ∧
      FieldsDone (fieldNames form field) (fieldColumns form field)
        (placesOfField form place field) flat mid := by
    cases hname : repeatName form field.1 with
    | none => exact addField_answer hname hrow hnodup
    | some name =>
        obtain ⟨rows, hrows, hitems⟩ := hrepeat name hname
        exact addField_repeat hname hrows hitems hnodup hnoneField
  have hapart : ∀ name ∈ fieldNames form field, name ∉ namesIn form rest ∧
      name ∉ rest.flatMap (fieldColumns form) := by
    intro name hname
    refine ⟨fun hother => ?_, fun hcolumn => ?_⟩
    · obtain ⟨other, hmem, hother⟩ := mem_namesIn.mp hother
      exact (List.pairwise_cons.mp hrow.apart).1 other hmem name hname hother
    · obtain ⟨other, hmem, hcolumn⟩ := List.mem_flatMap.mp hcolumn
      exact (hrow.names _ List.mem_cons_self name hname).2 other
        (List.mem_cons_of_mem _ hmem) hcolumn
  obtain ⟨flat', hflat', hrestDone⟩ := hrest mid hdone.nodup fun name hname => by
    obtain ⟨other, hmem, hother⟩ := mem_namesIn.mp hname
    rw [hdone.kept name (fun hself => (hapart name hself).1 hname)
      ((hrow.names other (List.mem_cons_of_mem _ hmem) name hother).2 _ List.mem_cons_self)]
    exact hnone name (List.mem_append_right _ hname)
  refine ⟨flat', ?_, ?_⟩
  · rw [processFields, hmid]
    exact hflat'
  · rw [namesIn_cons, placesIn_cons, List.flatMap_cons]
    exact hdone.append hrestDone hapart (fun other hother => table_mem_fieldNames hother)
      fun other hother => table_mem_namesIn rest hother

mutual

/-- The rows of the items of a repeat. -/
theorem processItems_spec {place : TableauPlace} {id : Int} (hcode : place.code = .ok id)
    (hid : 0 < id) (name : String) (items : List PyValue) (idx : Nat) (hidx : 0 < idx)
    (hfit : TableauItemsFit form items) (hname : name ∉ namesOfItems form items)
    (hcodes : CodesFit (placesOfItems form place name items idx)) :
    ∃ rows, processItems form (.str place.table) (.int id) name items idx = .ok rows ∧
      ItemsDone name (namesOfItems form items) (placesOfItems form place name items idx) rows := by
  match items with
  | [] =>
      rw [processItems, namesOfItems, placesOfItems]
      exact ⟨[], rfl, .nil, fun _ h => absurd h List.not_mem_nil,
        fun _ h => absurd h List.not_mem_nil, fun _ _ => .nil⟩
  | item :: rest =>
      rw [TableauItemsFit] at hfit
      rw [namesOfItems, List.mem_append, not_or] at hname
      rw [placesOfItems] at hcodes
      obtain ⟨row, hrow, hrowDone⟩ := processRow_spec hcode hid name idx hidx item hfit.1
        fun other hother => hcodes other (List.mem_append_left _ hother)
      obtain ⟨rows, hrows, hrowsDone⟩ := processItems_spec hcode hid name rest (idx + 1)
        (Nat.succ_pos idx) hfit.2 hname.2
        fun other hother => hcodes other (List.mem_append_right _ hother)
      rw [processItems, namesOfItems, placesOfItems]
      refine ⟨row :: rows, ?_, ItemsDone.cons hrowDone hrowsDone (TableauPlace.table_below ..)
        fun other hother heq => hname.1 (heq ▸ table_mem_namesOfItem item hother)⟩
      rw [hrow]
      show (processItems form _ _ _ rest (idx + 1) >>= _) = _
      rw [hrows]
      rfl

/-- The row of an item. -/
theorem processRow_spec {place : TableauPlace} {id : Int} (hcode : place.code = .ok id)
    (hid : 0 < id) (name : String) (idx : Nat) (hidx : 0 < idx) (item : PyValue)
    (hfit : TableauItemFits form item)
    (hcodes : CodesFit (place.below name idx :: placesOfItem form (place.below name idx) item)) :
    ∃ row, processRow form (.str place.table) (.int id) name idx item = .ok row ∧
      RowDone (namesOfItem form item) (place.below name idx)
        (placesOfItem form (place.below name idx) item) row := by
  match item with
  | .dict fields =>
      rw [TableauItemFits] at hfit
      rw [placesOfItem] at hcodes
      obtain ⟨code, hbelow⟩ := hcodes _ List.mem_cons_self
      have hpaired := hbelow
      rw [TableauPlace.code_below hcode, map_eq_ok] at hpaired
      obtain ⟨paired, hpairing, rfl⟩ := hpaired
      have hpos : (0 : Int) < Int.ofNat paired := Int.ofNat_lt.mpr (pairing_pos hidx hpairing)
      have hnone : ∀ key ∈ namesIn form fields,
          Dict.get? (itemStart place.table id paired) key = none := by
        intro key hkey
        obtain ⟨field, hfield, hname⟩ := mem_namesIn.mp hkey
        exact get?_itemStart_of_notMem (hfit.2.1.names field hfield key hname).1
      obtain ⟨row, hrow, hdone⟩ := processFields_spec hbelow hpos fields hfit.2.1 hfit.2.2
        (itemStart place.table id paired) (nodup_itemStart _ _ _) hnone
        fun other hother => hcodes other (List.mem_cons_of_mem _ hother)
      rw [processRow, namesOfItem, placesOfItem]
      refine ⟨row, ?_, rowDone_of_fields hcode hbelow hfit.2.1 hdone⟩
      rw [startRow_item hid hfit.1 hpairing]
      rw [TableauPlace.table_below] at hrow
      exact hrow
  | .none | .bool _ | .int _ | .float _ | .str _ | .list _ =>
      rw [TableauItemFits] at hfit
      · exact hfit.elim
      · intro fields heq
        cases heq

/-- What the keys of a row put in it. -/
theorem processFields_spec {place : TableauPlace} {id : Int} (hcode : place.code = .ok id)
    (hid : 0 < id) (fields : List (String × PyValue)) (hrow : TableauRowFits form fields)
    (hrepeats : TableauRepeatsFit form fields) (flat : TableauRow) (hnodup : (Dict.keys flat).Nodup)
    (hnone : ∀ key ∈ namesIn form fields, Dict.get? flat key = none)
    (hcodes : CodesFit (placesIn form place fields)) :
    ∃ flat', processFields form place.table (.int id) fields flat = .ok flat' ∧
      FieldsDone (namesIn form fields) (fields.flatMap (fieldColumns form))
        (placesIn form place fields) flat flat' := by
  match fields with
  | [] =>
      rw [processFields, namesIn, placesIn]
      exact ⟨flat, rfl, fieldsDone_refl hnodup⟩
  | (key, value) :: rest =>
      rw [TableauRepeatsFit] at hrepeats
      rw [placesIn_cons] at hcodes
      refine processFields_cons hrow hnodup hnone (fun name hname => ?_) fun mid hmid hmidNone =>
        processFields_spec hcode hid rest hrow.tail hrepeats.2 mid hmid hmidNone
          fun other hother => hcodes other (List.mem_append_right _ hother)
      refine processRepeat_spec hcode hid name value (hrepeats.1 (by rw [hname]; rfl))
        (hrow.inner _ List.mem_cons_self name hname) fun other hother => ?_
      refine hcodes other (List.mem_append_left _ ?_)
      unfold placesOfField
      rw [hname]
      exact hother

/-- The rows of the value of a repeat. -/
theorem processRepeat_spec {place : TableauPlace} {id : Int} (hcode : place.code = .ok id)
    (hid : 0 < id) (name : String) (value : PyValue) (hfit : TableauRepeatFits form value)
    (hname : name ∉ namesOfRepeat form value)
    (hcodes : CodesFit (placesOfRepeat form place name value)) :
    ∃ rows, processRepeat form place.table (.int id) name value = .ok rows ∧
      ItemsDone name (namesOfRepeat form value) (placesOfRepeat form place name value) rows := by
  match value with
  | .list items =>
      rw [TableauRepeatFits] at hfit
      rw [namesOfRepeat] at hname
      rw [placesOfRepeat] at hcodes
      rw [processRepeat, namesOfRepeat, placesOfRepeat]
      exact processItems_spec hcode hid name items 1 Nat.one_pos hfit hname hcodes
  | .none | .bool _ | .int _ | .float _ | .str _ | .dict _ =>
      rw [TableauRepeatFits] at hfit
      · exact hfit.elim
      · intro items heq
        cases heq

end

end Onadata
