import Onadata.Libs.Utils.CsvBuilder
import Onadata.Proofs.Libs.Utils.SectionCells

/-!
# `Onadata.Proofs.Libs.Utils.RecordColumns`: the cells of a record

The cells that the values of a record have, repeat by repeat and in the order of the form,
and what holds of them for a record that answers a form.

* `Answered`: what the form promises about the value of a key.
* `valueCells`: the cells of the value of a key, with `'n/a'` for missing answers.
* `pairwise_apart_valueCells`: the cells are apart.
* `present_valueCells`: without the missing answers they follow each other, and each value
  has one.
* `mem_present_valueCells`: without the missing answers they are the answers of the record.
-/

set_option autoImplicit false

namespace Onadata.Proofs

open Onadata.Lib

/-- A value that answers a question: a scalar, not empty and not `'n/a'`. -/
def isAnswer : PyValue → Bool
  | .str s => decide (s ≠ "") && decide (s ≠ DEFAULT_NA_REP)
  | .int _ => true
  | .float _ => true
  | .bool _ => true
  | _ => false

/-- The value of a missing answer. -/
def isMissing : PyValue → Bool
  | .str s => decide (s = DEFAULT_NA_REP)
  | _ => false

/-- Cells without the missing answers. -/
def present (cells : List Cell) : List Cell :=
  cells.filter fun c => !isMissing c.2

/-- The element is a repeat or an exported question. -/
def isExported (element : PlacedElement) : Bool :=
  match element.2 with
  | .question _ type _ => !questionTypesToExclude type
  | _ => true

/-- The paths of the exported children of a repeat, from the repeat on. -/
def childPaths (form : XForm) (names : List String) : List (List String) :=
  ((form.getChildElements (joinPath names)).filter isExported).map fun element =>
    element.1.drop names.length

/-- The value of a key of a list item, in the order of the form. -/
def fieldOf (item : PyValue) (names : List String) : PyValue :=
  match item with
  | .dict d => (Dict.get? d (joinPath names)).getD (.str DEFAULT_NA_REP)
  | _ => .str DEFAULT_NA_REP

/-- The cells of the value of a key. `names` are those of the whole key and `path` those from
the list item on. `fuel` bounds the depth of the value. -/
def valueCells (form : XForm) : Nat → List String → List String → PyValue → List Cell
  | fuel + 1, names, path, .list items =>
      listCells path (items.map fun item => (childPaths form names).flatMap fun child =>
        valueCells form fuel (names ++ child) child (fieldOf item (names ++ child)))
  | _, _, path, value => [(plainPath path, value)]

/-- The cells of a list item. -/
def itemCells (form : XForm) (fuel : Nat) (names : List String)
    (item : List (String × PyValue)) : List Cell :=
  (childPaths form names).flatMap fun child =>
    valueCells form fuel (names ++ child) child
      ((Dict.get? item (joinPath (names ++ child))).getD (.str DEFAULT_NA_REP))

/-- The entries of a section have field names, and none of them continues another. -/
structure SectionPaths (paths : List (List String)) : Prop where
  incomparable : paths.Pairwise Incomparable
  ne_nil : ∀ path ∈ paths, path ≠ []
  names : ∀ path ∈ paths, ∀ name ∈ path, IsFieldName name

/-- The repeat with these names is in the form. -/
structure IsRepeat (form : XForm) (names : List String) : Prop where
  fieldNames : ∀ name ∈ names, IsFieldName name
  placed : ∀ element ∈ form.getChildElements (joinPath names), names <+: element.1
  paths : SectionPaths (childPaths form names)

/-- A dict whose keys are those of entries of a section. -/
structure IsItem (paths : List (List String)) (names : List String)
    (item : List (String × PyValue)) : Prop where
  nodup : (Dict.keys item).Nodup
  keys : ∀ key ∈ Dict.keys item, ∃ child ∈ paths, key = joinPath (names ++ child)

/-- The value of a key answers the form: a question has an answer, and a repeat has items,
which are dicts with an answer. -/
inductive Answered (form : XForm) : List String → PyValue → Prop
  | answer {names : List String} {value : PyValue} :
      isAnswer value = true → Answered form names value
  | items {names : List String} {items : List (List (String × PyValue))} :
      items ≠ [] → IsRepeat form names →
      (∀ item ∈ items, item ≠ [] ∧ IsItem (childPaths form names) names item) →
      (∀ item ∈ items, ∀ child ∈ childPaths form names, ∀ value,
        Dict.get? item (joinPath (names ++ child)) = some value →
          Answered form (names ++ child) value) →
      Answered form names (.list (items.map .dict))

/-! ### Answers -/

/-- An answer is a scalar. -/
theorem isScalar_of_isAnswer {value : PyValue} (h : isAnswer value = true) :
    isScalar value = true := by
  cases value with
  | list items => simp [isAnswer] at h
  | dict items => simp [isAnswer] at h
  | _ => rfl

/-- An answer is not missing. -/
theorem isMissing_of_isAnswer {value : PyValue} (h : isAnswer value = true) :
    isMissing value = false := by
  cases value with
  | str s =>
      simp only [isAnswer, Bool.and_eq_true, decide_eq_true_eq] at h
      simp [isMissing, h.2]
  | _ => rfl

/-- A scalar is no list. -/
theorem isList_of_isScalar {value : PyValue} (h : isScalar value = true) :
    value.isList = false := by
  simp only [isScalar, Bool.and_eq_true, Bool.not_eq_true'] at h
  exact h.1

/-! ### Cells of a value -/

/-- The cells of a value that is no list. -/
theorem valueCells_of_not_isList (form : XForm) (fuel : Nat) (names path : List String)
    {value : PyValue} (h : value.isList = false) :
    valueCells form fuel names path value = [(plainPath path, value)] := by
  cases value with
  | list items => simp [PyValue.isList] at h
  | _ => cases fuel <;> rfl

/-- The cells of a list of items. -/
theorem valueCells_list (form : XForm) (fuel : Nat) (names path : List String)
    (items : List (List (String × PyValue))) :
    valueCells form (fuel + 1) names path (.list (items.map .dict)) =
      listCells path (items.map (itemCells form fuel names)) := by
  rw [valueCells, List.map_map]
  rfl

/-- The cells of a value start at its path. -/
theorem startsAt_of_mem_valueCells {form : XForm} {fuel : Nat} {names path : List String}
    {value : PyValue} (hne : path ≠ []) {c : Cell}
    (hc : c ∈ valueCells form fuel names path value) : StartsAt path c.1 := by
  by_cases hlist : value.isList = true
  · cases value with
    | list items =>
        cases fuel with
        | zero =>
            rw [valueCells, List.mem_singleton] at hc
            · exact hc ▸ startsAt_plainPath hne
            · simp
        | succ fuel =>
            rw [valueCells] at hc
            exact startsAt_of_mem_listCells hne hc
    | _ => simp [PyValue.isList] at hlist
  · rw [valueCells_of_not_isList _ _ _ _ (Bool.eq_false_iff.mpr hlist), List.mem_singleton] at hc
    exact hc ▸ startsAt_plainPath hne

/-- The value of a key of an item is less deep than the list. -/
theorem depth_lt_of_get? {items : List (List (String × PyValue))}
    {item : List (String × PyValue)} (hitem : item ∈ items) {key : String} {value : PyValue}
    (h : Dict.get? item key = some value) :
    value.depth + 2 ≤ PyValue.depth (.list (items.map .dict)) := by
  have hvalue : value.depth ≤ PyValue.depthOfDict item :=
    PyValue.depth_le_of_mem_dict (Dict.mem_of_get? h)
  have hdict := PyValue.depth_le_of_mem (List.mem_map_of_mem (f := PyValue.dict) hitem)
  rw [PyValue.depth] at hdict
  show value.depth + 2 ≤ PyValue.depthOfItems _ + 1
  omega

/-- A list has no cells of depth zero. -/
theorem exists_fuel {items : List PyValue} {fuel : Nat}
    (h : PyValue.depth (.list items) ≤ fuel) : ∃ k, fuel = k + 1 := by
  rw [PyValue.depth] at h
  exact ⟨fuel - 1, by omega⟩

/-- The cells of a child of an item: those of its value, or one for the missing answer. -/
theorem forall_child {form : XForm} {names : List String} {items : List (List (String × PyValue))}
    {P : List String → PyValue → Prop}
    (hvalue : ∀ item ∈ items, ∀ child ∈ childPaths form names, ∀ value,
      Dict.get? item (joinPath (names ++ child)) = some value → P child value)
    (hmissing : ∀ child ∈ childPaths form names, P child (.str DEFAULT_NA_REP))
    {item : List (String × PyValue)} (hitem : item ∈ items) {child : List String}
    (hchild : child ∈ childPaths form names) :
    P child ((Dict.get? item (joinPath (names ++ child))).getD (.str DEFAULT_NA_REP)) := by
  cases hget : Dict.get? item (joinPath (names ++ child)) with
  | none => exact hmissing child hchild
  | some value => exact hvalue item hitem child hchild value hget

/-! ### The cells are apart -/

/-- The cells of a value that answers the form are apart. -/
theorem pairwise_apart_valueCells {form : XForm} {names : List String} {value : PyValue}
    (h : Answered form names value) : ∀ (fuel : Nat) {path : List String}, path ≠ [] →
      (valueCells form fuel names path value).Pairwise fun c c' => Apart c.1 c'.1 := by
  induction h with
  | answer hanswer =>
      intro fuel path _
      rw [valueCells_of_not_isList _ _ _ _ (isList_of_isScalar (isScalar_of_isAnswer hanswer))]
      exact List.pairwise_singleton _ _
  | @items names items _ hrepeat _ _ ih =>
      intro fuel path hne
      cases fuel with
      | zero =>
          rw [valueCells]
          · exact List.pairwise_singleton _ _
          · simp
      | succ fuel =>
          rw [valueCells_list]
          refine pairwise_apart_listCells hne fun block hblock => ?_
          obtain ⟨item, hitem, rfl⟩ := List.mem_map.mp hblock
          refine pairwise_apart_flatMap id hrepeat.paths.incomparable ?_ ?_
          · intro child hchild
            refine forall_child (P := fun child value => (valueCells form fuel (names ++ child)
              child value).Pairwise fun c c' => Apart c.1 c'.1) ?_ ?_ hitem hchild
            · exact fun item hitem child hchild value hget =>
                ih item hitem child hchild value hget fuel (hrepeat.paths.ne_nil child hchild)
            · intro child _
              rw [valueCells_of_not_isList _ _ _ _ rfl]
              exact List.pairwise_singleton _ _
          · exact fun child hchild c hc =>
              startsAt_of_mem_valueCells (hrepeat.paths.ne_nil child hchild) hc

/-! ### The cells have column names -/

/-- A cell of a row: its position has field names and ends with one that is no list item, and
its value is a scalar. -/
structure IsColumn (c : Cell) : Prop where
  ne_nil : c.1 ≠ []
  names : HasFieldNames c.1
  plain : ∀ s ∈ c.1.getLast?, s.2 = none
  scalar : isScalar c.2 = true

/-- A scalar at the path of a key is a cell of a row. -/
theorem isColumn_plainPath {path : List String} (hne : path ≠ [])
    (hnames : ∀ name ∈ path, IsFieldName name) {value : PyValue} (h : isScalar value = true) :
    IsColumn (plainPath path, value) := by
  refine ⟨by simpa [plainPath] using hne, ?_, ?_, h⟩
  · intro s hs
    obtain ⟨name, hname, rfl⟩ := List.mem_map.mp hs
    exact hnames name hname
  · intro s hs
    obtain ⟨name, -, rfl⟩ := List.mem_map.mp (List.mem_of_getLast? hs)
    rfl

/-- The names of the position of a list item. -/
theorem mem_indexedPath {path : List String} {i : Nat} {s : Step} (h : s ∈ indexedPath path i) :
    s.1 ∈ path := by
  induction path with
  | nil => simp [indexedPath] at h
  | cons name path ih =>
      cases path with
      | nil =>
          rw [indexedPath, List.mem_singleton] at h
          simp [h]
      | cons name' path =>
          rw [indexedPath_cons name (by simp)] at h
          rcases List.mem_cons.mp h with rfl | h
          · exact List.mem_cons_self
          · exact List.mem_cons_of_mem name (ih h)

/-- A cell of an item is a cell of a row also below the item. -/
theorem IsColumn.under {path : List String} (hnames : ∀ name ∈ path, IsFieldName name) {i : Nat}
    {rest : List Step} {value : PyValue} (h : IsColumn (rest, value)) :
    IsColumn (indexedPath path i ++ rest, value) := by
  refine ⟨by simp [h.ne_nil], ?_, ?_, h.scalar⟩
  · intro s hs
    rcases List.mem_append.mp hs with hs | hs
    · exact hnames s.1 (mem_indexedPath hs)
    · exact h.names s hs
  · intro s hs
    refine h.plain s ?_
    rw [List.getLast?_append_of_ne_nil _ h.ne_nil] at hs
    exact hs

/-- The cells of a value that answers the form are cells of a row. -/
theorem isColumn_of_mem_valueCells {form : XForm} {names : List String} {value : PyValue}
    (h : Answered form names value) : ∀ {fuel : Nat} {path : List String},
      value.depth ≤ fuel → path ≠ [] → (∀ name ∈ path, IsFieldName name) →
        ∀ c ∈ valueCells form fuel names path value, IsColumn c := by
  induction h with
  | answer hanswer =>
      intro fuel path _ hne hnames c hc
      have hscalar := isScalar_of_isAnswer hanswer
      rw [valueCells_of_not_isList _ _ _ _ (isList_of_isScalar hscalar),
        List.mem_singleton] at hc
      exact hc ▸ isColumn_plainPath hne hnames hscalar
  | @items names items _ hrepeat _ _ ih =>
      intro fuel path hfuel hne hnames c hc
      obtain ⟨fuel, rfl⟩ := exists_fuel hfuel
      rw [valueCells_list] at hc
      obtain ⟨i, block, rest, hblock, hpath, hmem⟩ := mem_listCells.mp hc
      obtain ⟨item, hitem, rfl⟩ := List.mem_map.mp (List.mem_of_getElem? hblock)
      obtain ⟨child, hchild, hmem⟩ := List.mem_flatMap.mp hmem
      have hcell : IsColumn (rest, c.2) := by
        refine forall_child (P := fun child value =>
          ∀ c ∈ valueCells form fuel (names ++ child) child value, IsColumn c)
          ?_ ?_ hitem hchild _ hmem
        · intro item hitem child hchild value hget
          have hdepth := depth_lt_of_get? hitem hget
          exact ih item hitem child hchild value hget (by omega)
            (hrepeat.paths.ne_nil child hchild) (hrepeat.paths.names child hchild)
        · intro child hchild c hc
          rw [valueCells_of_not_isList _ _ _ _ rfl, List.mem_singleton] at hc
          exact hc ▸ isColumn_plainPath (hrepeat.paths.ne_nil child hchild)
            (hrepeat.paths.names child hchild) rfl
      have hcolumn := hcell.under hnames (i := i)
      rw [← hpath] at hcolumn
      exact hcolumn

/-! ### The cells without missing answers -/

theorem present_flatMap {Entry : Type} (entries : List Entry) (cells : Entry → List Cell) :
    present (entries.flatMap cells) = entries.flatMap fun e => present (cells e) :=
  List.filter_flatMap

/-- An answer is present. -/
theorem present_singleton {value : PyValue} (h : isAnswer value = true) (position : List Step) :
    present [(position, value)] = [(position, value)] := by
  rw [present, List.filter_singleton, isMissing_of_isAnswer h]
  rfl

/-- The present cells of a list are those of its items. -/
theorem present_valueCells_list (form : XForm) (fuel : Nat) (names path : List String)
    (items : List (List (String × PyValue))) :
    present (valueCells form (fuel + 1) names path (.list (items.map .dict))) =
      listCells path (items.map fun item => present (itemCells form fuel names item)) := by
  rw [valueCells_list, present, filter_listCells fun value => !isMissing value, List.map_map]
  rfl

/-- A position without list items follows anything. -/
theorem follows_plainPath (cells : List Cell) (path : List String) :
    Follows cells (plainPath path) := by
  induction path generalizing cells with
  | nil => exact trivial
  | cons name path ih => exact ⟨fun i hi => absurd hi (by simp), ih _⟩

/-- The present cells of a value that answers the form follow each other, and there is one. -/
theorem present_valueCells {form : XForm} {names : List String} {value : PyValue}
    (h : Answered form names value) : ∀ {fuel : Nat} {path : List String},
      value.depth ≤ fuel → path ≠ [] →
        present (valueCells form fuel names path value) ≠ [] ∧
          Consecutive [] (present (valueCells form fuel names path value)) := by
  induction h with
  | answer hanswer =>
      intro fuel path _ _
      rw [valueCells_of_not_isList _ _ _ _ (isList_of_isScalar (isScalar_of_isAnswer hanswer)),
        present_singleton hanswer]
      exact ⟨by simp, follows_plainPath [] path, trivial⟩
  | @items names items hitems hrepeat hkeys _ ih =>
      intro fuel path hfuel hne
      obtain ⟨fuel, rfl⟩ := exists_fuel hfuel
      rw [present_valueCells_list]
      have hvalues : ∀ item ∈ items, ∀ child ∈ childPaths form names, ∀ value,
          Dict.get? item (joinPath (names ++ child)) = some value →
            present (valueCells form fuel (names ++ child) child value) ≠ [] ∧
              Consecutive [] (present (valueCells form fuel (names ++ child) child value)) := by
        intro item hitem child hchild value hget
        have hdepth := depth_lt_of_get? hitem hget
        exact ih item hitem child hchild value hget (by omega)
          (hrepeat.paths.ne_nil child hchild)
      have hblocks : ∀ item ∈ items, present (itemCells form fuel names item) ≠ [] ∧
          Consecutive [] (present (itemCells form fuel names item)) := by
        intro item hitem
        rw [itemCells, present_flatMap]
        constructor
        · -- The item has a key, and the value of the key has a cell.
          obtain ⟨first, rest, hfirst⟩ := List.exists_cons_of_ne_nil (hkeys item hitem).1
          have hitem' := (hkeys item hitem).2
          obtain ⟨child, hchild, hkey⟩ := hitem'.keys first.1 (by simp [hfirst])
          have hget : Dict.get? item (joinPath (names ++ child)) = some first.2 :=
            hkey ▸ Dict.get?_of_mem hitem'.nodup (by simp [hfirst])
          obtain ⟨c, hc⟩ := List.exists_mem_of_ne_nil _
            (hvalues item hitem child hchild first.2 hget).1
          rw [← Option.getD_some (a := first.2) (b := .str DEFAULT_NA_REP), ← hget] at hc
          exact List.ne_nil_of_mem (List.mem_flatMap.mpr ⟨child, hchild, hc⟩)
        · refine consecutive_flatMap fun child hchild => ?_
          refine forall_child (P := fun child value =>
            Consecutive [] (present (valueCells form fuel (names ++ child) child value)))
            ?_ ?_ hitem hchild
          · exact fun item hitem child hchild value hget =>
              (hvalues item hitem child hchild value hget).2
          · intro child _
            rw [valueCells_of_not_isList _ _ _ _ rfl]
            exact trivial
      constructor
      · refine listCells_ne_nil (by simpa using hitems) fun block hblock => ?_
        obtain ⟨item, hitem, rfl⟩ := List.mem_map.mp hblock
        exact (hblocks item hitem).1
      · refine consecutive_listCells hne fun block hblock => ?_
        obtain ⟨item, hitem, rfl⟩ := List.mem_map.mp hblock
        exact hblocks item hitem

/-! ### The present cells are the answers -/

/-- The value of a split key. -/
theorem get?_splitKeys {paths : List (List String)} {names : List String}
    {item : List (String × PyValue)} (hpaths : SectionPaths paths)
    (hnames : ∀ name ∈ names, IsFieldName name) (hitem : IsItem paths names item)
    {child : List String} (hne : child ≠ []) {value : PyValue} :
    Dict.get? (splitKeys item) (names ++ child) = some value ↔
      child ∈ paths ∧ Dict.get? item (joinPath (names ++ child)) = some value := by
  -- Each key is joined from the names of its split key.
  have hsplit : ∀ child ∈ paths, splitPath (joinPath (names ++ child)) = names ++ child := by
    intro child hchild
    refine splitPath_joinPath (fun name hname => ?_) (by simp [hpaths.ne_nil child hchild])
    rcases List.mem_append.mp hname with hname | hname
    · exact (hnames name hname).1
    · exact (hpaths.names child hchild name hname).1
  have hkeys : ∀ {key value}, (key, value) ∈ item → splitPath key = names ++ child →
      child ∈ paths ∧ key = joinPath (names ++ child) := by
    intro key value hmem hkey
    obtain ⟨child', hchild', rfl⟩ := hitem.keys key (List.mem_map_of_mem hmem)
    rw [hsplit child' hchild', List.append_cancel_left_eq] at hkey
    subst hkey
    exact ⟨hchild', rfl⟩
  constructor
  · intro hget
    obtain ⟨⟨key, value'⟩, hmem, heq⟩ := List.mem_map.mp (Dict.mem_of_get? hget)
    obtain ⟨hkey, rfl⟩ := Prod.mk.inj heq
    obtain ⟨hchild, rfl⟩ := hkeys hmem hkey
    exact ⟨hchild, Dict.get?_of_mem hitem.nodup hmem⟩
  · rintro ⟨hchild, hget⟩
    have hmem := Dict.mem_of_get? hget
    have hnodup : (Dict.keys (splitKeys item)).Nodup := by
      have hsplitKeys : Dict.keys (splitKeys item) = (Dict.keys item).map splitPath := by
        simp [Dict.keys, splitKeys]
      rw [hsplitKeys]
      refine hitem.nodup.map_on fun key hkey key' hkey' heq => ?_
      obtain ⟨child, hchild, rfl⟩ := hitem.keys key hkey
      obtain ⟨child', hchild', rfl⟩ := hitem.keys key' hkey'
      rw [hsplit child hchild, hsplit child' hchild'] at heq
      rw [heq]
    rw [← hsplit child hchild]
    exact Dict.get?_of_mem hnodup (List.mem_map.mpr ⟨_, hmem, rfl⟩)

/-- The cells of the entries of a dict are its answers, if those of each value are. -/
theorem exists_mem_iff_answerAt {paths : List (List String)} {names : List String}
    {item : List (String × PyValue)} (hpaths : SectionPaths paths)
    (hnames : ∀ name ∈ names, IsFieldName name) (hitem : IsItem paths names item)
    {cells : List String → PyValue → List Cell}
    (hvalue : ∀ child ∈ paths, ∀ value,
      Dict.get? item (joinPath (names ++ child)) = some value → ∀ position answer,
        (position, answer) ∈ cells child value ↔
          ValueAt (names ++ child) child value position answer)
    (position : List Step) (answer : PyValue) :
    (∃ child ∈ paths, ∃ value, Dict.get? item (joinPath (names ++ child)) = some value ∧
      (position, answer) ∈ cells child value) ↔
        answerAt item names position = some answer := by
  rw [answerAt_eq_some]
  constructor
  · rintro ⟨child, hchild, value, hget, hmem⟩
    have hne := hpaths.ne_nil child hchild
    exact ⟨child, value, hne, (get?_splitKeys hpaths hnames hitem hne).mpr ⟨hchild, hget⟩,
      (hvalue child hchild value hget position answer).mp hmem⟩
  · rintro ⟨child, value, hne, hget, hat⟩
    obtain ⟨hchild, hget⟩ := (get?_splitKeys hpaths hnames hitem hne).mp hget
    exact ⟨child, hchild, value, hget, (hvalue child hchild value hget position answer).mpr hat⟩

/-- The present cells of a value that answers the form are its answers. -/
theorem mem_present_valueCells {form : XForm} {names : List String} {value : PyValue}
    (h : Answered form names value) : ∀ {fuel : Nat} {path : List String}, value.depth ≤ fuel →
      ∀ position answer, (position, answer) ∈ present (valueCells form fuel names path value) ↔
        ValueAt names path value position answer := by
  induction h with
  | @answer names value hanswer =>
      intro fuel path _ position answer
      have hscalar := isScalar_of_isAnswer hanswer
      have hlist := isList_of_isScalar hscalar
      rw [valueCells_of_not_isList _ _ _ _ hlist, present_singleton hanswer, List.mem_singleton,
        Prod.mk.injEq]
      constructor
      · rintro ⟨rfl, rfl⟩
        exact Or.inl ⟨hscalar, rfl, rfl⟩
      · rintro (⟨-, rfl, rfl⟩ | ⟨_, _, _, _, rfl, -⟩)
        · exact ⟨rfl, rfl⟩
        · simp [PyValue.isList] at hlist
  | @items names items _ hrepeat hkeys _ ih =>
      intro fuel path hfuel position answer
      obtain ⟨fuel, rfl⟩ := exists_fuel hfuel
      have hitem : ∀ item ∈ items, ∀ position answer,
          (position, answer) ∈ present (itemCells form fuel names item) ↔
            answerAt item names position = some answer := by
        intro item hitem position answer
        have hvalue : ∀ child ∈ childPaths form names, ∀ value,
            Dict.get? item (joinPath (names ++ child)) = some value → ∀ position answer,
              (position, answer) ∈ present (valueCells form fuel (names ++ child) child value) ↔
                ValueAt (names ++ child) child value position answer := by
          intro child hchild value hget
          have hdepth := depth_lt_of_get? hitem hget
          exact ih item hitem child hchild value hget (by omega)
        rw [← exists_mem_iff_answerAt hrepeat.paths hrepeat.fieldNames (hkeys item hitem).2 hvalue,
          itemCells, present_flatMap, List.mem_flatMap]
        refine exists_congr fun child => and_congr_right fun _ => ?_
        cases hget : Dict.get? item (joinPath (names ++ child)) with
        | none =>
            rw [Option.getD_none, valueCells_of_not_isList _ _ _ _ rfl]
            simp [present, isMissing]
        | some value => simp
      rw [present_valueCells_list, mem_listCells]
      constructor
      · rintro ⟨i, block, rest, hblock, hpath, hmem⟩
        rw [List.getElem?_map, Option.map_eq_some_iff] at hblock
        obtain ⟨item, hget, rfl⟩ := hblock
        refine Or.inr ⟨_, i, item, rest, rfl, ?_, hpath,
          (hitem item (List.mem_of_getElem? hget) rest answer).mp hmem⟩
        rw [List.getElem?_map, hget]
        rfl
      · rintro (⟨hscalar, -⟩ | ⟨items', i, item, rest, heq, hget, hpath, hat⟩)
        · simp [isScalar, PyValue.isList] at hscalar
        · obtain rfl := PyValue.list.inj heq
          rw [List.getElem?_map, Option.map_eq_some_iff] at hget
          obtain ⟨item', hget, hdict⟩ := hget
          obtain rfl := PyValue.dict.inj hdict
          refine ⟨i, _, rest, ?_, hpath,
            (hitem item' (List.mem_of_getElem? hget) rest answer).mpr hat⟩
          rw [List.getElem?_map, hget]
          rfl

end Onadata.Proofs
