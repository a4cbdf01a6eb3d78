import Onadata.Lib.GroupNumbers
import Onadata.Libs.Utils.ExportBuilder

/-!
# `Onadata.Proofs.Libs.Utils.RepeatItems`: the repeat items of records

The repeat items of a list of records in the order in which the data is gone through, each
with its address, its number in its table and the number of the item around it. This is what
the tables of a joined export have to hold.

* `itemRowsOfRecords_numbered`: the items of a table are numbered from one on.
* `itemRowsOfRecords_container`: what is around an item is a record or another item.
* `mem_itemRowsOfRecords_iff`, `itemRowsOfRecords_nodup`: each repeat item of the data is
  there once, under its address.
-/

set_option autoImplicit false

namespace Onadata.Proofs

open Onadata.Lib

/-- Where an item is: the position of the record, and the repeats and positions in them that
lead to the item. -/
structure ItemAddress where
  record : Nat
  path : List (String × Nat)
  deriving DecidableEq, Repr

/-- A repeat item with what its row says. -/
structure ItemRow where
  address : ItemAddress
  table : String
  index : Nat
  parentTable : String
  parentIndex : Nat
  data : PyValue

/-- The address that a path leads to. -/
def ItemAddress.follow (address : ItemAddress) (path : List (String × Nat)) : ItemAddress :=
  { address with path := address.path ++ path }

/-- The address of an item of an item. -/
def ItemAddress.item (address : ItemAddress) (key : String) (position : Nat) : ItemAddress :=
  address.follow [(key, position)]

/-- The value that a path of repeats and positions leads to. -/
def itemAt : PyValue → List (String × Nat) → Option PyValue
  | value, [] => some value
  | .dict items, (key, position) :: path =>
      if isMetadataList key then none
      else
        match Dict.get? items key with
        | some (.list children) => children[position]?.bind fun child => itemAt child path
        | _ => none
  | _, _ :: _ => none

/-- A part of a dict that goes to the row of the dict. The other parts are repeats. -/
def isOwnCell (item : String × PyValue) : Bool :=
  isMetadataList item.1 || !item.2.isList

/-- The counters after some rows. -/
abbrev countRows (counts : String → Nat) (rows : List ItemRow) : String → Nat :=
  advance ItemRow.table counts rows

mutual

/-- The items of a value in the table `name` with number `index`. -/
def itemRows (name : String) (index : Nat) (address : ItemAddress) (counts : String → Nat) :
    PyValue → List ItemRow
  | .dict items => itemRowsOfDict name index address counts items
  | _ => []

/-- The items of a dict. -/
def itemRowsOfDict (name : String) (index : Nat) (address : ItemAddress)
    (counts : String → Nat) : Cells → List ItemRow
  | [] => []
  | (key, .list children) :: rest =>
      if isMetadataList key then itemRowsOfDict name index address counts rest
      else
        let rows := itemRowsOfList key name index address 0 counts children
        rows ++ itemRowsOfDict name index address (countRows counts rows) rest
  | _ :: rest => itemRowsOfDict name index address counts rest

/-- The items of a repeat `key`, from a position on. -/
def itemRowsOfList (key name : String) (index : Nat) (address : ItemAddress) (position : Nat)
    (counts : String → Nat) : List PyValue → List ItemRow
  | [] => []
  | child :: rest =>
      let own : ItemRow := ⟨address.item key position, key, counts key + 1, name, index, child⟩
      let nested := itemRows key own.index own.address (countRows counts [own]) child
      (own :: nested) ++ itemRowsOfList key name index address (position + 1)
        (countRows counts (own :: nested)) rest

end

/-- The items of records, from the record at a position on. -/
def itemRowsOfRecords (surveyName : String) (position : Nat) (counts : String → Nat) :
    List Cells → List ItemRow
  | [] => []
  | record :: rest =>
      let rows := itemRowsOfDict surveyName (position + 1) ⟨position, []⟩ counts record
      rows ++ itemRowsOfRecords surveyName (position + 1) (countRows counts rows) rest

/-! ### The data, part by part -/

section Induction

-- The induction goes through a value, a dict and a list, with all cases for each of them.
set_option linter.unusedSectionVars false

variable {V : PyValue → Prop} {D : Cells → Prop} {L : List PyValue → Prop}
  (dict : ∀ items, D items → V (.dict items))
  (other : ∀ value, value.isDict = false → V value)
  (empty : D [])
  (answer : ∀ item rest, isOwnCell item → D rest → D (item :: rest))
  (repeated : ∀ key children rest, isMetadataList key = false → L children → D rest →
    D ((key, .list children) :: rest))
  (nil : L [])
  (cons : ∀ child rest, V child → L rest → L (child :: rest))

include dict other empty answer repeated nil cons

mutual

/-- Induction over a value: through the dicts and the repeats in them. -/
theorem value_induction : (value : PyValue) → V value
  | .dict items => dict items (dict_induction items)
  | .none | .bool _ | .int _ | .float _ | .str _ | .list _ => other _ rfl

/-- Induction over a dict: each part is an answer or a repeat. -/
theorem dict_induction : (items : Cells) → D items
  | [] => empty
  | (key, .list children) :: rest => by
      cases hkey : isMetadataList key with
      | true =>
          have hanswer : isOwnCell (key, .list children) = true := by
            rw [isOwnCell, hkey, Bool.true_or]
          exact answer _ rest hanswer (dict_induction rest)
      | false => exact repeated key children rest hkey (list_induction children) (dict_induction rest)
  | (_, .none) :: rest | (_, .bool _) :: rest | (_, .int _) :: rest | (_, .float _) :: rest
  | (_, .str _) :: rest | (_, .dict _) :: rest =>
      answer _ rest (Bool.or_true _) (dict_induction rest)

/-- Induction over the items of a repeat. -/
theorem list_induction : (children : List PyValue) → L children
  | [] => nil
  | child :: rest => cons child rest (value_induction child) (list_induction rest)

end

/-- The three inductions together. -/
theorem data_induction :
    (∀ value, V value) ∧ (∀ items, D items) ∧ ∀ children, L children :=
  ⟨value_induction dict other empty answer repeated nil cons,
    dict_induction dict other empty answer repeated nil cons,
    list_induction dict other empty answer repeated nil cons⟩

end Induction

section Rows

variable (name : String) (index : Nat) (address : ItemAddress) (counts : String → Nat)

/-- What is no dict has no items. -/
theorem itemRows_of_not_isDict {value : PyValue} (h : value.isDict = false) :
    itemRows name index address counts value = [] := by
  cases value with
  | dict items => simp [PyValue.isDict] at h
  | _ => rfl

/-- An answer adds no items. -/
theorem itemRowsOfDict_answer {item : String × PyValue} (rest : Cells) (h : isOwnCell item) :
    itemRowsOfDict name index address counts (item :: rest) =
      itemRowsOfDict name index address counts rest := by
  obtain ⟨key, value⟩ := item
  cases value with
  | list children =>
      have hkey : isMetadataList key = true := by
        simpa [isOwnCell, PyValue.isList] using h
      rw [itemRowsOfDict, if_pos hkey]
  | _ => rfl

/-- A repeat adds its items. -/
theorem itemRowsOfDict_repeated {key : String} (children : List PyValue) (rest : Cells)
    (h : isMetadataList key = false) :
    itemRowsOfDict name index address counts ((key, .list children) :: rest) =
      itemRowsOfList key name index address 0 counts children ++
        itemRowsOfDict name index address
          (countRows counts (itemRowsOfList key name index address 0 counts children)) rest := by
  rw [itemRowsOfDict, h]
  rfl

end Rows

/-! ### Data of a form -/

/-- The columns that the export adds to the row of an item. -/
def indexColumns : List String := ["_index", "_parent_index", "_parent_table_name"]

/-- The form of the records: the name of the survey, and how many repeats are around the
repeat with an xpath. -/
structure RepeatForm where
  surveyName : String
  repeatsAround : String → Nat

/-- The lists that are no repeats: tags are texts, notes are texts or dicts with a text, and
attachments are dicts. -/
structure MetadataTyped (key : String) (value : PyValue) : Prop where
  tags : key = "_tags" → ∃ tags : List String, value = .list (tags.map .str)
  notes : key = "_notes" → ∃ notes : List PyValue,
    value = .list notes ∧ ∀ note ∈ notes, ∃ text, noteText note = .ok (.str text)
  attachments : key = "_attachments" → ∃ attachments : List Cells,
    value = .list (attachments.map .dict)

/-- A dict of the data, with the number of repeats around it. The keys are xpaths: they have
no `=`, and only the record has keys without a slash. -/
structure DictFits (form : RepeatForm) (depth : Nat) (items : Cells) : Prop where
  keys_nodup : (Dict.keys items).Nodup
  names : ∀ key ∈ Dict.keys items, '=' ∉ key.toList
  columns : 0 < depth → ∀ key ∈ Dict.keys items, key ∉ indexColumns
  repeats : ∀ key children, (key, .list children) ∈ items → isMetadataList key = false →
    form.repeatsAround key = depth ∧ key ≠ form.surveyName
  metadata : ∀ item ∈ items, MetadataTyped item.1 item.2

mutual

/-- A value, if it is a dict. -/
def ValueFits (form : RepeatForm) (depth : Nat) : PyValue → Prop
  | .dict items => DictFits form depth items ∧ RepeatsFit form depth items
  | _ => True

/-- The items of the repeats of a dict. -/
def RepeatsFit (form : RepeatForm) (depth : Nat) : Cells → Prop
  | [] => True
  | (key, .list children) :: rest =>
      (isMetadataList key = false → ItemsFit form (depth + 1) children) ∧
        RepeatsFit form depth rest
  | _ :: rest => RepeatsFit form depth rest

/-- The items of a repeat. -/
def ItemsFit (form : RepeatForm) (depth : Nat) : List PyValue → Prop
  | [] => True
  | child :: rest => ValueFits form depth child ∧ ItemsFit form depth rest

end

section Fits

variable {form : RepeatForm} {depth : Nat} {item : String × PyValue} {rest : Cells}

/-- The rest of a dict. -/
theorem DictFits.tail (h : DictFits form depth (item :: rest)) : DictFits form depth rest where
  keys_nodup := (List.nodup_cons.mp h.keys_nodup).2
  names := fun key hkey => h.names key (List.mem_cons_of_mem _ hkey)
  columns := fun hdepth key hkey => h.columns hdepth key (List.mem_cons_of_mem _ hkey)
  repeats := fun key children hmem => h.repeats key children (List.mem_cons_of_mem _ hmem)
  metadata := fun other hother => h.metadata other (List.mem_cons_of_mem _ hother)

/-- The first key stands once. -/
theorem DictFits.notMem (h : DictFits form depth (item :: rest)) : item.1 ∉ Dict.keys rest :=
  (List.nodup_cons.mp h.keys_nodup).1

/-- The repeats after an answer. -/
theorem RepeatsFit.tail (h : RepeatsFit form depth (item :: rest)) :
    RepeatsFit form depth rest := by
  obtain ⟨key, value⟩ := item
  cases value with
  | list children => exact h.2
  | _ => exact h

end Fits

/-! ### The numbers -/

/-- The rows continue the numbers of the tables. -/
abbrev NumberedRows (counts : String → Nat) (rows : List ItemRow) : Prop :=
  NumberedGroups ItemRow.table ItemRow.index counts rows

/-- An item and what follows it. -/
theorem NumberedRows.cons {counts : String → Nat} {row : ItemRow} {rows : List ItemRow}
    (hindex : row.index = counts row.table + 1)
    (h : NumberedRows (countRows counts [row]) rows) : NumberedRows counts (row :: rows) :=
  NumberedGroups.append (NumberedGroups.singleton hindex) h

/-- The items of a dict are numbered on. -/
theorem itemRowsOfDict_numbered (items : Cells) :
    ∀ name index address counts,
      NumberedRows counts (itemRowsOfDict name index address counts items) := by
  induction items using dict_induction
    (V := fun value => ∀ name index address counts,
      NumberedRows counts (itemRows name index address counts value))
    (L := fun children => ∀ key name index address position counts,
      NumberedRows counts (itemRowsOfList key name index address position counts children)) with
  | dict items ih name index address counts => exact ih name index address counts
  | other value hvalue name index address counts =>
      rw [itemRows_of_not_isDict _ _ _ _ hvalue]
      exact .nil counts
  | empty => exact fun _ _ _ counts => .nil counts
  | answer item rest hanswer ih =>
      intro name index address counts
      rw [itemRowsOfDict_answer _ _ _ _ _ hanswer]
      exact ih name index address counts
  | repeated key children rest hkey ihlist ih =>
      intro name index address counts
      rw [itemRowsOfDict_repeated _ _ _ _ _ _ hkey]
      exact .append (ihlist key name index address 0 counts) (ih name index address _)
  | nil key name index address position counts => exact .nil counts
  | cons child rest ihchild ih key name index address position counts =>
      unfold itemRowsOfList
      exact .append (NumberedRows.cons rfl (ihchild _ _ _ _)) (ih _ _ _ _ _ _)

/-- The items of records are numbered on. -/
theorem itemRowsOfRecords_numbered (surveyName : String) (position : Nat)
    (counts : String → Nat) (records : List Cells) :
    NumberedRows counts (itemRowsOfRecords surveyName position counts records) := by
  induction records generalizing position counts with
  | nil => exact .nil counts
  | cons record rest ih => exact .append (itemRowsOfDict_numbered record _ _ _ _) (ih _ _)

/-! ### What is around an item -/

/-- The row is for an item of what is at the address, under that number of the table. -/
def ItemRow.IsIn (row : ItemRow) (table : String) (index : Nat) (address : ItemAddress) : Prop :=
  row.parentTable = table ∧ row.parentIndex = index ∧
    ∃ position, row.address = address.item row.table position

/-- The row is for an item of what is at the address, or of another row. -/
def HasContainer (rows : List ItemRow) (table : String) (index : Nat) (address : ItemAddress)
    (row : ItemRow) : Prop :=
  row.IsIn table index address ∨
    ∃ container ∈ rows, row.IsIn container.table container.index container.address

/-- The containers are there among more rows. -/
theorem HasContainer.mono {rows rows' : List ItemRow} {table : String} {index : Nat}
    {address : ItemAddress} {row : ItemRow} (hsub : rows ⊆ rows')
    (h : HasContainer rows table index address row) :
    HasContainer rows' table index address row := by
  rcases h with hin | ⟨container, hmem, hin⟩
  · exact Or.inl hin
  · exact Or.inr ⟨container, hsub hmem, hin⟩

/-- An item of a dict is in the dict or in another item of it. -/
theorem itemRowsOfDict_container (items : Cells) :
    ∀ name index address counts, ∀ row ∈ itemRowsOfDict name index address counts items,
      HasContainer (itemRowsOfDict name index address counts items) name index address row := by
  induction items using dict_induction
    (V := fun value => ∀ name index address counts,
      ∀ row ∈ itemRows name index address counts value,
        HasContainer (itemRows name index address counts value) name index address row)
    (L := fun children => ∀ key name index address position counts,
      ∀ row ∈ itemRowsOfList key name index address position counts children,
        HasContainer (itemRowsOfList key name index address position counts children) name index
          address row) with
  | dict items ih name index address counts row hrow => exact ih _ _ _ _ row hrow
  | other value hvalue name index address counts row hrow =>
      rw [itemRows_of_not_isDict _ _ _ _ hvalue] at hrow
      exact absurd hrow List.not_mem_nil
  | empty => simp [itemRowsOfDict]
  | answer item rest hanswer ih =>
      intro name index address counts
      rw [itemRowsOfDict_answer _ _ _ _ _ hanswer]
      exact ih name index address counts
  | repeated key children rest hkey ihlist ih =>
      intro name index address counts row hrow
      rw [itemRowsOfDict_repeated _ _ _ _ _ _ hkey] at hrow ⊢
      rcases List.mem_append.mp hrow with hrow | hrow
      · exact (ihlist _ _ _ _ _ _ row hrow).mono (List.subset_append_left _ _)
      · exact (ih _ _ _ _ row hrow).mono (List.subset_append_right _ _)
  | nil key name index address position counts row hrow => exact absurd hrow List.not_mem_nil
  | cons child rest ihchild ih key name index address position counts row hrow =>
      unfold itemRowsOfList at hrow ⊢
      rw [List.cons_append, List.mem_cons, List.mem_append] at hrow
      rcases hrow with rfl | hrow | hrow
      · exact Or.inl ⟨rfl, rfl, position, rfl⟩
      · -- A nested item is in the item itself, or deeper.
        rcases ihchild _ _ _ _ row hrow with hin | ⟨container, hmem, hin⟩
        · exact Or.inr ⟨_, List.mem_cons_self, hin⟩
        · exact Or.inr ⟨container, List.mem_append_left _ (List.mem_cons_of_mem _ hmem), hin⟩
      · exact (ih _ _ _ _ _ _ row hrow).mono (List.subset_append_right _ _)

/-- An item of records is in a record or in another item. -/
theorem itemRowsOfRecords_container (surveyName : String) (position : Nat)
    (counts : String → Nat) (records : List Cells) :
    ∀ row ∈ itemRowsOfRecords surveyName position counts records,
      (∃ other, row.IsIn surveyName (other + 1) ⟨other, []⟩) ∨
        ∃ container ∈ itemRowsOfRecords surveyName position counts records,
          row.IsIn container.table container.index container.address := by
  induction records generalizing position counts with
  | nil => simp [itemRowsOfRecords]
  | cons record rest ih =>
      intro row hrow
      rw [itemRowsOfRecords] at hrow ⊢
      rcases List.mem_append.mp hrow with hrow | hrow
      · rcases itemRowsOfDict_container record _ _ _ _ row hrow with hin | ⟨container, hmem, hin⟩
        · exact Or.inl ⟨position, hin⟩
        · exact Or.inr ⟨container, List.mem_append_left _ hmem, hin⟩
      · rcases ih _ _ row hrow with hin | ⟨container, hmem, hin⟩
        · exact Or.inl hin
        · exact Or.inr ⟨container, List.mem_append_right _ hmem, hin⟩

/-! ### The addresses -/

/-- One of the rows is for this value, under the address that the path leads to. -/
def HasItem (rows : List ItemRow) (address : ItemAddress) (path : List (String × Nat))
    (value : PyValue) : Prop :=
  ∃ row ∈ rows, row.address = address.follow path ∧ row.data = value

theorem ItemAddress.follow_follow (address : ItemAddress) (path path' : List (String × Nat)) :
    (address.follow path).follow path' = address.follow (path ++ path') := by
  unfold follow
  rw [List.append_assoc]

theorem ItemAddress.follow_inj {address : ItemAddress} {path path' : List (String × Nat)} :
    address.follow path = address.follow path' ↔ path = path' := by
  simp [follow]

/-- The items have addresses behind what they are in. -/
theorem rows_address :
    (∀ value name index address counts, ∀ row ∈ itemRows name index address counts value,
      ∃ step path, row.address = address.follow (step :: path)) ∧
    (∀ items name index address counts, ∀ row ∈ itemRowsOfDict name index address counts items,
      ∃ key ∈ Dict.keys items, ∃ position path,
        row.address = address.follow ((key, position) :: path)) ∧
    ∀ children key name index address position counts,
      ∀ row ∈ itemRowsOfList key name index address position counts children, ∃ later path,
        row.address = address.follow ((key, position + later) :: path) := by
  refine data_induction ?dict ?other ?empty ?answer ?repeated ?nil ?cons
  case dict =>
    intro items ih name index address counts row hrow
    obtain ⟨key, -, position, path, heq⟩ := ih name index address counts row hrow
    exact ⟨(key, position), path, heq⟩
  case other =>
    intro value hvalue name index address counts row hrow
    rw [itemRows_of_not_isDict _ _ _ _ hvalue] at hrow
    exact absurd hrow List.not_mem_nil
  case empty =>
    intro name index address counts row hrow
    exact absurd hrow List.not_mem_nil
  case answer =>
    intro item rest hanswer ih name index address counts row hrow
    rw [itemRowsOfDict_answer _ _ _ _ _ hanswer] at hrow
    obtain ⟨key, hkey, hplace⟩ := ih _ _ _ _ row hrow
    exact ⟨key, List.mem_cons_of_mem _ hkey, hplace⟩
  case repeated =>
    intro key children rest hkey ihlist ih name index address counts row hrow
    rw [itemRowsOfDict_repeated _ _ _ _ _ _ hkey] at hrow
    rcases List.mem_append.mp hrow with hrow | hrow
    · obtain ⟨later, path, heq⟩ := ihlist _ _ _ _ _ _ row hrow
      exact ⟨key, List.mem_cons_self, _, path, heq⟩
    · obtain ⟨key', hkey', hplace⟩ := ih _ _ _ _ row hrow
      exact ⟨key', List.mem_cons_of_mem _ hkey', hplace⟩
  case nil =>
    intro key name index address position counts row hrow
    exact absurd hrow List.not_mem_nil
  case cons =>
    intro child rest ihchild ih key name index address position counts row hrow
    unfold itemRowsOfList at hrow
    rw [List.cons_append, List.mem_cons, List.mem_append] at hrow
    rcases hrow with rfl | hrow | hrow
    · exact ⟨0, [], rfl⟩
    · obtain ⟨step, path, heq⟩ := ihchild _ _ _ _ row hrow
      exact ⟨0, step :: path, heq.trans (ItemAddress.follow_follow ..)⟩
    · obtain ⟨later, path, heq⟩ := ih _ _ _ _ _ _ row hrow
      exact ⟨later + 1, path, by rw [heq, Nat.add_assoc, Nat.add_comm 1]⟩

theorem hasItem_append {rows rows' : List ItemRow} {address : ItemAddress}
    {path : List (String × Nat)} {value : PyValue} :
    HasItem (rows ++ rows') address path value ↔
      HasItem rows address path value ∨ HasItem rows' address path value := by
  unfold HasItem
  simp only [List.mem_append, or_and_right, exists_or]

theorem hasItem_cons {row : ItemRow} {rows : List ItemRow} {address : ItemAddress}
    {path : List (String × Nat)} {value : PyValue} :
    HasItem (row :: rows) address path value ↔
      (row.address = address.follow path ∧ row.data = value) ∨
        HasItem rows address path value := by
  unfold HasItem
  simp only [List.mem_cons, or_and_right, exists_or, exists_eq_left]

/-- An answer leads to no item. -/
theorem itemAt_answer {item : String × PyValue} {rest : Cells} (hanswer : isOwnCell item)
    (hnew : item.1 ∉ Dict.keys rest) (step : String × Nat) (path : List (String × Nat)) :
    itemAt (.dict (item :: rest)) (step :: path) = itemAt (.dict rest) (step :: path) := by
  obtain ⟨key, position⟩ := step
  rw [itemAt, itemAt]
  split
  · rfl
  · rename_i hkey
    by_cases heq : item.1 = key
    · rw [← heq, Dict.get?_eq_none.mpr hnew, Dict.get?, if_pos rfl]
      -- The key is no metadata list, so that the answer is no list.
      have hlist : item.2.isList = false := by
        rw [isOwnCell, heq, Bool.not_eq_true _ |>.mp hkey] at hanswer
        simpa using hanswer
      cases hvalue : item.2 with
      | list children => simp [hvalue, PyValue.isList] at hlist
      | _ => rfl
    · rw [Dict.get?, if_neg heq]

/-- A repeat leads to its items. -/
theorem itemAt_repeated {key : String} (children : List PyValue) (rest : Cells)
    (hkey : isMetadataList key = false) (key' : String) (position : Nat)
    (path : List (String × Nat)) :
    itemAt (.dict ((key, .list children) :: rest)) ((key', position) :: path) =
      if key = key' then children[position]?.bind fun child => itemAt child path
      else itemAt (.dict rest) ((key', position) :: path) := by
  by_cases heq : key = key'
  · subst heq
    rw [if_pos rfl, itemAt, hkey, Dict.get?, if_pos rfl]
    rfl
  · rw [if_neg heq, itemAt, itemAt, Dict.get?, if_neg heq]

/-- The items of an item have the address of the item in front. -/
theorem hasItem_itemRows_follow (data : PyValue) (name : String) (index : Nat)
    (address : ItemAddress) (counts : String → Nat) (front path : List (String × Nat))
    (value : PyValue) :
    HasItem (itemRows name index (address.follow front) counts data) address path value ↔
      ∃ path', path = front ++ path' ∧
        HasItem (itemRows name index (address.follow front) counts data) (address.follow front)
          path' value := by
  constructor
  · rintro ⟨row, hrow, heq, hdata⟩
    obtain ⟨step, path', hplace⟩ := rows_address.1 _ _ _ _ _ row hrow
    refine ⟨step :: path', ?_, row, hrow, hplace, hdata⟩
    rw [hplace, ItemAddress.follow_follow] at heq
    exact (ItemAddress.follow_inj.mp heq).symm
  · rintro ⟨path', rfl, row, hrow, heq, hdata⟩
    exact ⟨row, hrow, heq.trans (ItemAddress.follow_follow ..), hdata⟩

/-- The addresses of the items of a dict are different. -/
theorem itemRowsOfDict_nodup {form : RepeatForm} (items : Cells) :
    ∀ depth name index address counts, DictFits form depth items → RepeatsFit form depth items →
      ((itemRowsOfDict name index address counts items).map ItemRow.address).Nodup := by
  induction items using dict_induction
    (V := fun value => ∀ depth name index address counts, ValueFits form depth value →
      ((itemRows name index address counts value).map ItemRow.address).Nodup)
    (L := fun children => ∀ depth key name index address position counts,
      ItemsFit form depth children →
      ((itemRowsOfList key name index address position counts children).map
        ItemRow.address).Nodup) with
  | dict items ih depth name index address counts hfits => exact ih _ _ _ _ _ hfits.1 hfits.2
  | other value hvalue depth name index address counts hfits =>
      rw [itemRows_of_not_isDict _ _ _ _ hvalue]
      exact List.nodup_nil
  | empty => exact fun _ _ _ _ _ _ _ => List.nodup_nil
  | answer item rest hanswer ih =>
      intro depth name index address counts hdict hrepeats
      rw [itemRowsOfDict_answer _ _ _ _ _ hanswer]
      exact ih _ _ _ _ _ hdict.tail hrepeats.tail
  | repeated key children rest hkey ihlist ih =>
      intro depth name index address counts hdict hrepeats
      rw [itemRowsOfDict_repeated _ _ _ _ _ _ hkey, List.map_append, List.nodup_append]
      refine ⟨ihlist _ _ _ _ _ _ _ (hrepeats.1 hkey), ih _ _ _ _ _ hdict.tail hrepeats.tail, ?_⟩
      -- The addresses of another repeat go on with another key.
      rintro _ hleft _ hright rfl
      obtain ⟨row, hrow, heq⟩ := List.mem_map.mp hleft
      obtain ⟨row', hrow', heq'⟩ := List.mem_map.mp hright
      obtain ⟨later, path, hplace⟩ := rows_address.2.2 _ _ _ _ _ _ _ row hrow
      obtain ⟨key', hkey', position, path', hplace'⟩ := rows_address.2.1 _ _ _ _ _ row' hrow'
      have hsame := ItemAddress.follow_inj.mp (hplace.symm.trans (heq.trans (heq'.symm.trans hplace')))
      have hkeys : key = key' := congrArg Prod.fst (List.cons.inj hsame).1
      exact hdict.notMem (hkeys ▸ hkey')
  | nil depth key name index address position counts hfits => exact List.nodup_nil
  | cons child rest ihchild ih depth key name index address position counts hfits =>
      unfold itemRowsOfList
      rw [List.map_append, List.map_cons, List.nodup_append, List.nodup_cons]
      refine ⟨⟨?_, ihchild _ _ _ _ _ hfits.1⟩, ih _ _ _ _ _ _ _ hfits.2, ?_⟩
      · -- The address of a nested item is longer.
        intro hown
        obtain ⟨row, hrow, heq⟩ := List.mem_map.mp hown
        obtain ⟨step, path, hplace⟩ := rows_address.1 _ _ _ _ _ row hrow
        rw [heq] at hplace
        have hpath : address.path ++ [(key, position)] =
            address.path ++ [(key, position)] ++ step :: path := congrArg ItemAddress.path hplace
        simp at hpath
      · rintro place hleft _ hright rfl
        -- What comes at the position of the item, and behind it.
        have hhere : ∃ path, place = address.follow ((key, position) :: path) := by
          rcases List.mem_cons.mp hleft with heq | hnested
          · exact ⟨[], heq⟩
          · obtain ⟨row, hrow, heq⟩ := List.mem_map.mp hnested
            obtain ⟨step, path, hplace⟩ := rows_address.1 _ _ _ _ _ row hrow
            exact ⟨step :: path, heq ▸ hplace.trans (ItemAddress.follow_follow ..)⟩
        obtain ⟨path, heq⟩ := hhere
        obtain ⟨row', hrow', heq'⟩ := List.mem_map.mp hright
        obtain ⟨later, path', hplace'⟩ := rows_address.2.2 _ _ _ _ _ _ _ row' hrow'
        have hsame := ItemAddress.follow_inj.mp (heq.symm.trans (heq'.symm.trans hplace'))
        have hpositions : position = position + 1 + later :=
          congrArg Prod.snd (List.cons.inj hsame).1
        omega

/-- The items of a dict are what paths lead to. -/
theorem hasItem_itemRowsOfDict_iff {form : RepeatForm} (items : Cells) :
    ∀ depth name index address counts, DictFits form depth items → RepeatsFit form depth items →
      ∀ path value, HasItem (itemRowsOfDict name index address counts items) address path value ↔
        path ≠ [] ∧ itemAt (.dict items) path = some value := by
  induction items using dict_induction
    (V := fun data => ∀ depth name index address counts, ValueFits form depth data →
      ∀ path value, HasItem (itemRows name index address counts data) address path value ↔
        path ≠ [] ∧ itemAt data path = some value)
    (L := fun children => ∀ depth key name index address position counts,
      ItemsFit form depth children → ∀ path value,
      HasItem (itemRowsOfList key name index address position counts children) address path
          value ↔
        ∃ later path', path = (key, position + later) :: path' ∧
          (children[later]?.bind fun child => itemAt child path') = some value) with
  | dict items ih depth name index address counts hfits path value =>
      exact ih _ _ _ _ _ hfits.1 hfits.2 path value
  | other data hdata depth name index address counts hfits path value =>
      rw [itemRows_of_not_isDict _ _ _ _ hdata]
      cases path with
      | nil => simp [HasItem]
      | cons step path => cases data <;> simp_all [HasItem, itemAt, PyValue.isDict]
  | empty =>
      intro depth name index address counts hdict hrepeats path value
      cases path with
      | nil => simp [HasItem, itemRowsOfDict]
      | cons step path => simp [HasItem, itemRowsOfDict, itemAt, Dict.get?]
  | answer item rest hanswer ih =>
      intro depth name index address counts hdict hrepeats path value
      rw [itemRowsOfDict_answer _ _ _ _ _ hanswer, ih _ _ _ _ _ hdict.tail hrepeats.tail]
      cases path with
      | nil => simp
      | cons step path => rw [itemAt_answer hanswer hdict.notMem]
  | repeated key children rest hkey ihlist ih =>
      intro depth name index address counts hdict hrepeats path value
      rw [itemRowsOfDict_repeated _ _ _ _ _ _ hkey, hasItem_append,
        ihlist _ _ _ _ _ _ _ (hrepeats.1 hkey), ih _ _ _ _ _ hdict.tail hrepeats.tail]
      cases path with
      | nil => simp
      | cons step path =>
          obtain ⟨key', position⟩ := step
          rw [itemAt_repeated children rest hkey]
          by_cases heq : key = key'
          · subst heq
            -- The rest of the dict does not have the key again.
            have hrest : itemAt (.dict rest) ((key, position) :: path) = none := by
              rw [itemAt, hkey, Dict.get?_eq_none.mpr hdict.notMem]
              rfl
            simp [hrest]
          · simp [heq, Ne.symm heq]
  | nil depth key name index address position counts hfits path value =>
      simp [HasItem, itemRowsOfList]
  | cons child rest ihchild ih depth key name index address position counts hfits path value =>
      unfold itemRowsOfList
      rw [hasItem_append, hasItem_cons, ih _ _ _ _ _ _ _ hfits.2]
      simp only [ItemAddress.item, hasItem_itemRows_follow, ihchild _ _ _ _ _ hfits.1,
        ItemAddress.follow_inj]
      constructor
      · rintro ((⟨rfl, rfl⟩ | ⟨path', rfl, -, hvalue⟩) | ⟨later, path', rfl, hvalue⟩)
        · exact ⟨0, [], rfl, by simp [itemAt]⟩
        · exact ⟨0, path', rfl, hvalue⟩
        · exact ⟨later + 1, path', by rw [Nat.add_assoc, Nat.add_comm 1], hvalue⟩
      · rintro ⟨later, path', rfl, hvalue⟩
        cases later with
        | zero =>
            have hchild : itemAt child path' = some value := hvalue
            cases path' with
            | nil => exact Or.inl (Or.inl ⟨rfl, Option.some.inj (by simpa [itemAt] using hchild)⟩)
            | cons step path' =>
                exact Or.inl (Or.inr ⟨step :: path', rfl, List.cons_ne_nil _ _, hchild⟩)
        | succ later =>
            exact Or.inr ⟨later, path', by rw [Nat.add_assoc, Nat.add_comm 1], hvalue⟩

/-- Records of a form. -/
def RecordsFit (form : RepeatForm) (records : List Cells) : Prop :=
  ∀ record ∈ records, DictFits form 0 record ∧ RepeatsFit form 0 record

/-- What is at an address of the records. -/
def dataAt (records : List Cells) (address : ItemAddress) : Option PyValue :=
  records[address.record]?.bind fun record => itemAt (.dict record) address.path

/-- The items of a record have its position. -/
theorem itemRowsOfDict_record (items : Cells) (name : String) (index : Nat)
    (address : ItemAddress) (counts : String → Nat) :
    ∀ row ∈ itemRowsOfDict name index address counts items,
      row.address.record = address.record := by
  intro row hrow
  obtain ⟨key, -, position, path, heq⟩ := rows_address.2.1 _ _ _ _ _ row hrow
  rw [heq]
  rfl

/-- The items of records have the positions of the records. -/
theorem itemRowsOfRecords_record (surveyName : String) (position : Nat)
    (counts : String → Nat) (records : List Cells) :
    ∀ row ∈ itemRowsOfRecords surveyName position counts records,
      position ≤ row.address.record ∧ row.address.record < position + records.length := by
  induction records generalizing position counts with
  | nil => simp [itemRowsOfRecords]
  | cons record rest ih =>
      intro row hrow
      rw [itemRowsOfRecords] at hrow
      rw [List.length_cons]
      rcases List.mem_append.mp hrow with hrow | hrow
      · have heq := itemRowsOfDict_record record _ _ _ _ row hrow
        dsimp only at heq
        omega
      · have hbounds := ih _ _ row hrow
        omega

/-- The addresses of the items of records are different. -/
theorem itemRowsOfRecords_nodup {form : RepeatForm} (surveyName : String) (position : Nat)
    (counts : String → Nat) {records : List Cells} (hfits : RecordsFit form records) :
    ((itemRowsOfRecords surveyName position counts records).map ItemRow.address).Nodup := by
  induction records generalizing position counts with
  | nil => exact List.nodup_nil
  | cons record rest ih =>
      obtain ⟨hrecord, hrest⟩ := List.forall_mem_cons.mp hfits
      rw [itemRowsOfRecords, List.map_append, List.nodup_append]
      refine ⟨itemRowsOfDict_nodup record _ _ _ _ _ hrecord.1 hrecord.2, ih _ _ hrest, ?_⟩
      rintro place hleft _ hright rfl
      obtain ⟨row, hrow, heq⟩ := List.mem_map.mp hleft
      obtain ⟨row', hrow', heq'⟩ := List.mem_map.mp hright
      have hposition : place.record = position :=
        heq ▸ itemRowsOfDict_record record _ _ _ _ row hrow
      have hlater := (itemRowsOfRecords_record _ _ _ _ row' hrow').1
      rw [heq'] at hlater
      omega

/-- The items of records are what addresses lead to. -/
theorem mem_itemRowsOfRecords_iff {form : RepeatForm} (surveyName : String) (position : Nat)
    (counts : String → Nat) {records : List Cells} (hfits : RecordsFit form records)
    (place : Nat) (path : List (String × Nat)) (value : PyValue) :
    (∃ row ∈ itemRowsOfRecords surveyName position counts records,
        row.address = ⟨position + place, path⟩ ∧ row.data = value) ↔
      path ≠ [] ∧ dataAt records ⟨place, path⟩ = some value := by
  induction records generalizing position counts place with
  | nil => simp [itemRowsOfRecords, dataAt]
  | cons record rest ih =>
      obtain ⟨hrecord, hrest⟩ := List.forall_mem_cons.mp hfits
      have hfirst := hasItem_itemRowsOfDict_iff record 0 surveyName (position + 1) ⟨position, []⟩
        counts hrecord.1 hrecord.2 path value
      rw [itemRowsOfRecords]
      simp only [List.mem_append, or_and_right, exists_or]
      cases place with
      | zero =>
          -- Only the items of the first record have its position.
          have hnone : ¬ ∃ row ∈ itemRowsOfRecords surveyName (position + 1)
              (countRows counts (itemRowsOfDict surveyName (position + 1) ⟨position, []⟩ counts
                record)) rest, row.address = ⟨position + 0, path⟩ ∧ row.data = value := by
            rintro ⟨row, hrow, heq, -⟩
            have hlater := (itemRowsOfRecords_record _ _ _ _ row hrow).1
            rw [heq] at hlater
            dsimp only at hlater
            omega
          rw [or_iff_left hnone]
          exact hfirst
      | succ place =>
          have hnone : ¬ ∃ row ∈ itemRowsOfDict surveyName (position + 1) ⟨position, []⟩ counts
              record, row.address = ⟨position + (place + 1), path⟩ ∧ row.data = value := by
            rintro ⟨row, hrow, heq, -⟩
            have hhere := itemRowsOfDict_record record _ _ _ _ row hrow
            rw [heq] at hhere
            dsimp only at hhere
            omega
          have hplace : position + (place + 1) = position + 1 + place := by omega
          rw [or_iff_right hnone, hplace]
          exact ih _ _ hrest place

/-! ### The tables -/

/-- A row of a table with that many repeats around it or more. -/
structure RowFits (form : RepeatForm) (depth : Nat) (row : ItemRow) : Prop where
  depth_le : depth ≤ form.repeatsAround row.table
  ne_surveyName : row.table ≠ form.surveyName
  data : ValueFits form (form.repeatsAround row.table + 1) row.data

/-- A row that is deeper still. -/
theorem RowFits.of_lt {form : RepeatForm} {depth : Nat} {row : ItemRow}
    (h : RowFits form (depth + 1) row) : RowFits form depth row :=
  { h with depth_le := Nat.le_of_lt h.depth_le }

/-- The repeats of a dict have as many repeats around them as the dict, and the repeats in
their items have more. -/
theorem rows_table {form : RepeatForm} :
    (∀ value depth name index address counts, ValueFits form depth value →
      ∀ row ∈ itemRows name index address counts value, RowFits form depth row) ∧
    (∀ items depth name index address counts, DictFits form depth items →
      RepeatsFit form depth items → ∀ row ∈ itemRowsOfDict name index address counts items,
        RowFits form depth row) ∧
    ∀ children depth key name index address position counts, ItemsFit form (depth + 1) children →
      form.repeatsAround key = depth → key ≠ form.surveyName →
      ∀ row ∈ itemRowsOfList key name index address position counts children,
        (row.table = key ∨ depth < form.repeatsAround row.table) ∧ RowFits form depth row := by
  refine data_induction ?dict ?other ?empty ?answer ?repeated ?nil ?cons
  case dict =>
    intro items ih depth name index address counts hfits row hrow
    exact ih _ _ _ _ _ hfits.1 hfits.2 row hrow
  case other =>
    intro value hvalue depth name index address counts hfits row hrow
    rw [itemRows_of_not_isDict _ _ _ _ hvalue] at hrow
    exact absurd hrow List.not_mem_nil
  case empty =>
    intro depth name index address counts hdict hrepeats row hrow
    exact absurd hrow List.not_mem_nil
  case answer =>
    intro item rest hanswer ih depth name index address counts hdict hrepeats row hrow
    rw [itemRowsOfDict_answer _ _ _ _ _ hanswer] at hrow
    exact ih _ _ _ _ _ hdict.tail hrepeats.tail row hrow
  case repeated =>
    intro key children rest hkey ihlist ih depth name index address counts hdict hrepeats row hrow
    rw [itemRowsOfDict_repeated _ _ _ _ _ _ hkey] at hrow
    obtain ⟨haround, hsurvey⟩ := hdict.repeats key children List.mem_cons_self hkey
    rcases List.mem_append.mp hrow with hrow | hrow
    · exact (ihlist _ _ _ _ _ _ _ (hrepeats.1 hkey) haround hsurvey row hrow).2
    · exact ih _ _ _ _ _ hdict.tail hrepeats.tail row hrow
  case nil =>
    intro depth key name index address position counts hfits haround hsurvey row hrow
    exact absurd hrow List.not_mem_nil
  case cons =>
    intro child rest ihchild ih depth key name index address position counts hfits haround hsurvey
      row hrow
    unfold itemRowsOfList at hrow
    rw [List.cons_append, List.mem_cons, List.mem_append] at hrow
    rcases hrow with rfl | hrow | hrow
    · have hdata : ValueFits form (form.repeatsAround key + 1) child := by
        rw [haround]
        exact hfits.1
      exact ⟨Or.inl rfl, Nat.le_of_eq haround.symm, hsurvey, hdata⟩
    · have hnested := ihchild _ _ _ _ _ hfits.1 row hrow
      exact ⟨Or.inr hnested.depth_le, hnested.of_lt⟩
    · exact ih _ _ _ _ _ _ _ hfits.2 haround hsurvey row hrow

/-- The items of records are in tables of repeats. -/
theorem itemRowsOfRecords_table {form : RepeatForm} (position : Nat) (counts : String → Nat)
    {records : List Cells} (hfits : RecordsFit form records) :
    ∀ row ∈ itemRowsOfRecords form.surveyName position counts records, RowFits form 0 row := by
  induction records generalizing position counts with
  | nil => simp [itemRowsOfRecords]
  | cons record rest ih =>
      obtain ⟨hrecord, hrest⟩ := List.forall_mem_cons.mp hfits
      intro row hrow
      rw [itemRowsOfRecords] at hrow
      rcases List.mem_append.mp hrow with hrow | hrow
      · exact rows_table.2.1 _ _ _ _ _ _ hrecord.1 hrecord.2 row hrow
      · exact ih _ _ hrest row hrow

end Onadata.Proofs
