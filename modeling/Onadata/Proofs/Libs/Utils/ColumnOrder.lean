import Onadata.Proofs.Libs.Utils.ArrangedColumns
import Onadata.Proofs.Libs.Utils.RowReading

/-!
# `Onadata.Proofs.Libs.Utils.ColumnOrder`: a row does not depend on the order of its columns

`OrderFree` says that every order of the columns of a row is decoded, without an error, to the same
nested dict, with the items of lists by their indices. The indices are dropped, so a list has the
items in the order of their first columns. The column of a select multiple gives way to the split
columns after it, but makes a list of rows when it comes after one of them.

* `MergedAlike.not_splitOf`: if every order is decoded to a dict with the same answers, no select
  multiple is there as one column and as split columns.
* `orderFree_iff`: exactly when a row does not depend on the order of its columns.
-/

set_option autoImplicit false

namespace Onadata.Proofs

open Onadata.Lib

/-! ### Answers of compact values -/

theorem nestedAt_plain {d : List (String × PyValue)} {name : String} {value : PyValue}
    (hget : Dict.get? d name = some value) (position : List Step) :
    nestedAt (.dict d) ((name, none) :: position) = nestedAt value position := by
  simp only [nestedAt, hget]

theorem nestedAt_item {d : List (String × PyValue)} {name : String} {rows : List PyValue}
    (hget : Dict.get? d name = some (.list rows)) {k : Nat} {row : PyValue}
    (hrow : rows[k]? = some row) (position : List Step) :
    nestedAt (.dict d) ((name, some k) :: position) = nestedAt row position := by
  simp only [nestedAt, hget, hrow]

/-- There is no answer at an item after the last one. -/
theorem nestedAt_item_of_le {d : List (String × PyValue)} {name : String} {rows : List PyValue}
    (hget : Dict.get? d name = some (.list rows)) {k : Nat} (hk : rows.length ≤ k)
    (position : List Step) : nestedAt (.dict d) ((name, some k) :: position) = none := by
  simp only [nestedAt, hget, List.getElem?_eq_none hk]

theorem get?_head (name : String) (value : PyValue) (items : List (String × PyValue)) :
    Dict.get? ((name, value) :: items) name = some value :=
  if_pos rfl

/-- A compact value has an answer, if it is no list. -/
theorem exists_nestedAt (value : PyValue) (hcompact : isCompact value = true)
    (hlist : value.isList = false) : ∃ position, nestedAt value position ≠ none := by
  match value with
  | .dict [] => cases hcompact
  | .dict ((name, .list []) :: items) =>
      simp [isCompact, areCompactValues] at hcompact
  | .dict ((name, .list (row :: rows)) :: items) =>
      have hrow : row.isDict = true ∧ isCompact row = true := by
        simp only [isCompact, areCompactValues, areCompactRows, Bool.and_eq_true] at hcompact
        exact hcompact.2.1.2.1
      have hrowList : row.isList = false := by
        cases row with
        | dict items => rfl
        | _ => cases hrow.1
      obtain ⟨position, hposition⟩ := exists_nestedAt row hrow.2 hrowList
      refine ⟨(name, some 0) :: position, ?_⟩
      rw [nestedAt_item (get?_head ..) List.getElem?_cons_zero]
      exact hposition
  | .dict ((name, .dict below) :: items) =>
      have hbelow : isCompact (.dict below) = true := by
        simp only [isCompact, areCompactValues, Bool.and_eq_true] at hcompact ⊢
        exact hcompact.2.1
      obtain ⟨position, hposition⟩ := exists_nestedAt (.dict below) hbelow rfl
      refine ⟨(name, none) :: position, ?_⟩
      rw [nestedAt_plain (get?_head ..)]
      exact hposition
  | .dict ((name, .none) :: _) | .dict ((name, .bool _) :: _) | .dict ((name, .int _) :: _)
  | .dict ((name, .float _) :: _) | .dict ((name, .str _) :: _) =>
      refine ⟨[(name, none)], ?_⟩
      rw [nestedAt_plain (get?_head ..)]
      exact Option.some_ne_none _
  | .none | .bool _ | .int _ | .float _ | .str _ => exact ⟨[], Option.some_ne_none _⟩

theorem isCompact_of_get? {d : List (String × PyValue)} (h : isCompactDict d = true) {name : String}
    {value : PyValue} (hget : Dict.get? d name = some value) : isCompact value = true := by
  rw [isCompactDict, Bool.and_eq_true] at h
  exact areCompactValues_iff.mp h.2 _ (Dict.mem_of_get? hget)

theorem isCompactDict_of_isCompact {d : List (String × PyValue)}
    (h : isCompact (.dict d) = true) : isCompactDict d = true := by
  simp only [isCompact, Bool.and_eq_true] at h
  rw [isCompactDict, Bool.and_eq_true]
  exact ⟨h.1.2, h.2⟩

/-- Each row of a list has an answer. -/
theorem exists_nestedAt_item {d : List (String × PyValue)} (h : isCompactDict d = true)
    {name : String} {rows : List PyValue} (hget : Dict.get? d name = some (.list rows)) {k : Nat}
    (hk : k < rows.length) : ∃ position, nestedAt (.dict d) ((name, some k) :: position) ≠ none := by
  have hrows := isCompact_of_get? h hget
  rw [isCompact, Bool.and_eq_true] at hrows
  have hrow := areCompactRows_iff.mp hrows.2 _ (List.getElem_mem hk)
  have hlist : rows[k].isList = false := by
    cases hvalue : rows[k] with
    | list items =>
        rw [hvalue] at hrow
        cases hrow.1
    | _ => rfl
  obtain ⟨position, hposition⟩ := exists_nestedAt _ hrow.2 hlist
  refine ⟨position, ?_⟩
  rw [nestedAt_item hget (List.getElem?_eq_getElem hk)]
  exact hposition

/-! ### Lengths -/

section
variable {α β : Type} {f : α → List β} {items : List α}

theorem length_le_flatMap (h : ∀ a ∈ items, 1 ≤ (f a).length) :
    items.length ≤ (items.flatMap f).length := by
  induction items with
  | nil => exact Nat.zero_le _
  | cons a items ih =>
      rw [List.forall_mem_cons] at h
      have hrest := ih h.2
      rw [List.flatMap_cons, List.length_append, List.length_cons]
      omega

theorem length_flatMap_eq (h : ∀ a ∈ items, (f a).length = 1) :
    (items.flatMap f).length = items.length := by
  induction items with
  | nil => rfl
  | cons a items ih =>
      rw [List.forall_mem_cons] at h
      have hrest := ih h.2
      rw [List.flatMap_cons, List.length_append, List.length_cons]
      omega

end

/-- The number of items of a list does not depend on the order of the columns. -/
theorem length_valuesOf_perm {cells cells' : List Cell} (h : cells'.Perm cells) (name : String) :
    (valuesOf (firstSteps cells') name).length = (valuesOf (firstSteps cells) name).length := by
  rw [length_valuesOf, length_valuesOf]
  exact ((firstSteps_perm h).map _).count_eq name

/-! ### Rows that are decoded -/

section
variable (selectMultiples : List String)

/-- The columns are merged to a dict that is `d` without the indices. -/
def MergedTo (cells : List Cell) (d : List (String × PyValue)) : Prop :=
  ∃ merged, addColumns selectMultiples cells (.dict []) = some (.dict merged) ∧
    removeIndicesFromItems [] merged = .ok d

/-- Every order of the columns is merged to a dict with these answers. -/
def MergedAlike (cells : List Cell) (answers : List Step → Option PyValue) : Prop :=
  ∀ cells' : List Cell, cells'.Perm cells → ∃ d, MergedTo selectMultiples cells' d ∧
    isCompactDict d = true ∧ ∀ position, nestedAt (.dict d) position = answers position

end

section
variable {selectMultiples : List String} {cells : List Cell}
  {answers : List Step → Option PyValue}

theorem valuesOf_of_plain (h : RowColumns selectMultiples cells) {name : String}
    (hs : (name, none) ∈ firstSteps cells) : valuesOf (firstSteps cells) name = [none] := by
  have hmem := mem_valuesOf.mpr hs
  rcases h.listed name with hnone | ⟨indices, hindices⟩
  · exact hnone
  · rw [hindices] at hmem
    simp at hmem

/-- The dict of one order of the columns, with the value of each branch. -/
theorem MergedAlike.decoded (h : RowColumns selectMultiples cells)
    (hall : MergedAlike selectMultiples cells answers) {cells' : List Cell}
    (hperm : cells'.Perm cells) :
    ∃ (d : List (String × PyValue)) (value : Step → PyValue), isCompactDict d = true ∧
      (∀ position, nestedAt (.dict d) position = answers position) ∧
      (∀ s ∈ firstSteps cells', (∀ c ∈ below s cells', c.1 ≠ []) →
        ∃ merged, addColumns selectMultiples (below s cells') (.dict []) = some merged ∧
          removeIndicesFromValue (placed s merged) = .ok (value s)) ∧
      ∀ name, Dict.get? d name = joined value name (valuesOf (firstSteps cells') name) := by
  obtain ⟨d, ⟨merged, hmerged, hdecoded⟩, hcompact, hanswers⟩ := hall cells' hperm
  obtain ⟨value, hvalue, hget⟩ := (h.perm hperm).get?_decoded hmerged hdecoded
  exact ⟨d, value, hcompact, hanswers, hvalue, hget⟩

/-- The columns with the shorter ones first. -/
def shortFirst (cells : List Cell) : List Cell :=
  cells.insertionSort fun c c' => c.1.length ≤ c'.1.length

theorem shortFirst_perm (cells : List Cell) : (shortFirst cells).Perm cells :=
  List.perm_insertionSort _ _

theorem pairwise_below_shortFirst (cells : List Cell) (s : Step) :
    (below s (shortFirst cells)).Pairwise fun c c' => c.1.length ≤ c'.1.length := by
  have hsorted : (shortFirst cells).Pairwise fun c c' => c.1.length ≤ c'.1.length :=
    List.pairwise_insertionSort _ _
  have hunder : (under [s] (below s (shortFirst cells))).Pairwise
      fun c c' => c.1.length ≤ c'.1.length := by
    rw [under_singleton_below]
    exact hsorted.sublist List.filter_sublist
  refine (List.pairwise_map.mp hunder).imp (fun hlength => ?_)
  simpa using hlength

/-- The row of a list item whose columns are merged to a dict. -/
theorem itemsOf_dict {s : Step} (hs : s.2.isSome = true) {merged : List (String × PyValue)}
    {value : PyValue} (h : removeIndicesFromValue (placed s (.dict merged)) = .ok value) :
    ∃ row, value = .list [.dict row] ∧ removeIndicesFromItems [] merged = .ok row := by
  have hlist : relisted (.dict merged) = .list [.dict merged] := rfl
  rw [placed, if_pos hs, hlist, removeIndicesFromValue, removeIndicesFromRows] at h
  cases hitems : removeIndicesFromItems [] merged with
  | error e =>
      rw [hitems] at h
      cases h
  | ok row =>
      rw [hitems] at h
      cases h
      exact ⟨row, rfl, rfl⟩

theorem dict_of_placed {s : Step} (hs : ¬ s.2.isSome = true) {merged : List (String × PyValue)}
    {value : PyValue} (h : removeIndicesFromValue (placed s (.dict merged)) = .ok value) :
    ∃ d, value = .dict d ∧ removeIndicesFromItems [] merged = .ok d := by
  rw [placed, if_neg hs, removeIndicesFromValue] at h
  cases hitems : removeIndicesFromItems [] merged with
  | error e =>
      rw [hitems] at h
      cases h
  | ok d =>
      rw [hitems] at h
      cases h
      exact ⟨d, rfl, rfl⟩

/-- A merged list becomes a list of two rows. -/
theorem list_of_placed {s : Step} {row row' value : PyValue}
    (h : removeIndicesFromValue (placed s (.list [row, row'])) = .ok value) :
    ∃ rows, value = .list rows ∧ rows.length = 2 := by
  have hplaced : placed s (.list [row, row']) = .list [row, row'] := by
    rw [placed]
    split
    · rfl
    · rfl
  rw [hplaced] at h
  exact list_of_removeIndices h

/-- A list item has one or two rows. -/
theorem one_le_length_itemsOf {s : Step} (hs : s.2.isSome = true) {merged value : PyValue}
    (hmerged : (∃ d, merged = .dict d) ∨ ∃ row row', merged = .list [row, row'])
    (h : removeIndicesFromValue (placed s merged) = .ok value) : 1 ≤ (itemsOf value).length := by
  rcases hmerged with ⟨d, rfl⟩ | ⟨row, row', rfl⟩
  · obtain ⟨row, rfl, _⟩ := itemsOf_dict hs h
    exact Nat.le_refl _
  · obtain ⟨rows, rfl, hlength⟩ := list_of_placed h
    rw [itemsOf, hlength]
    decide

/-- With the shorter columns first, a group has answers. -/
theorem MergedAlike.exists_answer (h : RowColumns selectMultiples cells)
    (hall : MergedAlike selectMultiples cells answers) {name : String}
    (hs : (name, none) ∈ firstSteps cells) (hne : ∀ c ∈ below (name, none) cells, c.1 ≠ []) :
    ∃ position, answers ((name, none) :: position) ≠ none := by
  have hperm := shortFirst_perm cells
  have hs' := (mem_firstSteps_perm hperm _).mpr hs
  have hne' : ∀ c ∈ below (name, none) (shortFirst cells), c.1 ≠ [] :=
    fun c hc => hne c ((below_perm hperm _).mem_iff.mp hc)
  obtain ⟨d, value, hcompact, hanswers, hvalue, hget⟩ := hall.decoded h hperm
  obtain ⟨merged, hmerged, hplaced⟩ := hvalue _ hs' hne'
  obtain ⟨items, rfl⟩ := ((h.perm hperm).below hne').isDict_of_sorted
    (pairwise_below_shortFirst cells _) hmerged
  obtain ⟨below, hbelow, _⟩ := dict_of_placed (by simp) hplaced
  have hgetName := hget name
  rw [valuesOf_of_plain (h.perm hperm) hs', joined] at hgetName
  obtain ⟨position, hposition⟩ := exists_nestedAt _ (isCompact_of_get? hcompact hgetName) (by
    rw [hbelow]
    rfl)
  refine ⟨position, ?_⟩
  rw [← hanswers, nestedAt_plain hgetName]
  exact hposition

/-- The values of a name with list items. -/
theorem valuesOf_of_item (h : RowColumns selectMultiples cells) {name : String} {i : Nat}
    (hs : (name, some i) ∈ firstSteps cells) :
    ∃ index indices, valuesOf (firstSteps cells) name = some index :: indices ∧
      ∀ j ∈ some index :: indices, j.isSome = true := by
  have hmem := mem_valuesOf.mpr hs
  rcases h.listed name with hnone | ⟨indices, hindices⟩
  · rw [hnone] at hmem
    simp at hmem
  · rw [hindices] at hmem ⊢
    cases indices with
    | nil => cases hmem
    | cons index indices =>
        refine ⟨index, indices.map some, rfl, fun j hj => ?_⟩
        rw [← List.map_cons] at hj
        obtain ⟨_, _, rfl⟩ := List.mem_map.mp hj
        rfl

/-- With the shorter columns first, a list has one row for each item. -/
theorem MergedAlike.no_answer (h : RowColumns selectMultiples cells)
    (hall : MergedAlike selectMultiples cells answers) {name : String} {i : Nat}
    (hs : (name, some i) ∈ firstSteps cells) (position : List Step) :
    answers ((name, some (valuesOf (firstSteps cells) name).length) :: position) = none := by
  have hperm := shortFirst_perm cells
  have hs' := (mem_firstSteps_perm hperm _).mpr hs
  obtain ⟨d, value, _, hanswers, hvalue, hget⟩ := hall.decoded h hperm
  obtain ⟨index, indices, hvalues, hsome⟩ := valuesOf_of_item (h.perm hperm) hs'
  have hgetName := hget name
  have hlength := length_valuesOf_perm hperm name
  rw [hvalues] at hgetName hlength
  have hone : ∀ j ∈ some index :: indices, (itemsOf (value (name, j))).length = 1 := by
    intro j hj
    have hitem := hsome j hj
    have hfirst : (name, j) ∈ firstSteps (shortFirst cells) := mem_valuesOf.mp (hvalues ▸ hj)
    have hne := (h.perm hperm).ne_nil_of_item (s := (name, j)) hitem
    obtain ⟨merged, hmerged, hplaced⟩ := hvalue _ hfirst hne
    obtain ⟨items, rfl⟩ := ((h.perm hperm).below hne).isDict_of_sorted
      (pairwise_below_shortFirst cells _) hmerged
    obtain ⟨row, hrow, _⟩ := itemsOf_dict (s := (name, j)) hitem hplaced
    rw [hrow]
    rfl
  rw [← hanswers]
  refine nestedAt_item_of_le hgetName ?_ position
  rw [length_flatMap_eq hone, hlength]

/-- Every order of the columns of a group or list item is merged to a dict. -/
theorem MergedAlike.isDict_branch (h : RowColumns selectMultiples cells)
    (hall : MergedAlike selectMultiples cells answers) {s : Step} (hs : s ∈ firstSteps cells)
    (hne : ∀ c ∈ below s cells, c.1 ≠ []) {branch : List Cell}
    (hbranch : branch.Perm (below s cells)) :
    ∃ merged, addColumns selectMultiples branch (.dict []) = some (.dict merged) := by
  have hperm := bringFront_perm hbranch
  have hbranchNe : branch ≠ [] := by
    intro hnil
    rw [hnil] at hbranch
    exact mem_firstSteps.mp hs hbranch.nil_eq.symm
  have hs' := (mem_firstSteps_perm hperm _).mpr hs
  have hbelow := below_bringFront s branch cells
  obtain ⟨d, value, hcompact, hanswers, hvalue, hget⟩ := hall.decoded h hperm
  have hneBranch : ∀ c ∈ branch, c.1 ≠ [] := fun c hc => hne c (hbranch.mem_iff.mp hc)
  obtain ⟨merged, hmerged, hplaced⟩ := hvalue s hs' (by rwa [hbelow])
  rw [hbelow] at hmerged
  rcases addColumns_cases hneBranch hmerged with ⟨items, rfl⟩ | ⟨row, row', rfl⟩
  · exact ⟨items, hmerged⟩
  · exfalso
    obtain ⟨rows, hrows, htwo⟩ := list_of_placed hplaced
    obtain ⟨name, index⟩ := s
    have hgetName := hget name
    cases index with
    | none =>
        -- a list has no answer where the group has one
        obtain ⟨position, hposition⟩ := hall.exists_answer h hs hne
        rw [valuesOf_of_plain (h.perm hperm) hs', joined, hrows] at hgetName
        rw [← hanswers, nestedAt_plain hgetName, nestedAt_list] at hposition
        exact hposition rfl
    | some i =>
        -- the item has two rows, so the list has more than one row for each item
        obtain ⟨others, hfirst⟩ := firstSteps_bringFront (name, some i) hbranchNe cells
        have hvalues : valuesOf (firstSteps (bringFront (name, some i) branch cells)) name =
            some i :: valuesOf others name := by
          rw [hfirst, valuesOf, if_pos rfl]
        have hlength := length_valuesOf_perm hperm name
        obtain ⟨index, indices, hindices, hsome⟩ := valuesOf_of_item (h.perm hperm) hs'
        rw [← hindices, hvalues] at hsome
        rw [hvalues] at hgetName hlength
        have hothers : (valuesOf others name).length ≤
            ((valuesOf others name).flatMap fun j => itemsOf (value (name, j))).length := by
          refine length_le_flatMap (fun j hj => ?_)
          have hj := List.mem_cons_of_mem (some i) hj
          have hmem : (name, j) ∈ firstSteps (bringFront (name, some i) branch cells) :=
            mem_valuesOf.mp (hvalues ▸ hj)
          have hneItem := (h.perm hperm).ne_nil_of_item (s := (name, j)) (hsome j hj)
          obtain ⟨merged, hmerged, hplaced⟩ := hvalue _ hmem hneItem
          exact one_le_length_itemsOf (s := (name, j)) (hsome j hj)
            (addColumns_cases hneItem hmerged) hplaced
        obtain ⟨position, hposition⟩ := exists_nestedAt_item hcompact hgetName
          (k := (valuesOf (firstSteps cells) name).length) (by
            rw [List.flatMap_cons, List.length_append, hrows, itemsOf, htwo, ← hlength,
              List.length_cons]
            omega)
        rw [hanswers, hall.no_answer h hs] at hposition
        exact hposition rfl

/-- Every order of the columns of a group or list item is merged to a dict with the same answers. -/
theorem MergedAlike.below (h : RowColumns selectMultiples cells)
    (hall : MergedAlike selectMultiples cells answers) {s : Step} (hs : s ∈ firstSteps cells)
    (hne : ∀ c ∈ below s cells, c.1 ≠ []) :
    MergedAlike selectMultiples (below s cells) fun position => answers (firstItem s :: position) := by
  intro branch hbranch
  obtain ⟨merged, hmerged⟩ := hall.isDict_branch h hs hne hbranch
  have hperm := bringFront_perm hbranch
  have hbranchNe : branch ≠ [] := by
    intro hnil
    rw [hnil] at hbranch
    exact mem_firstSteps.mp hs hbranch.nil_eq.symm
  have hs' := (mem_firstSteps_perm hperm _).mpr hs
  have hbelow := below_bringFront s branch cells
  obtain ⟨d, value, hcompact, hanswers, hvalue, hget⟩ := hall.decoded h hperm
  have hneBranch : ∀ c ∈ branch, c.1 ≠ [] := fun c hc => hne c (hbranch.mem_iff.mp hc)
  obtain ⟨merged', hmerged', hplaced⟩ := hvalue s hs' (by rwa [hbelow])
  rw [hbelow, hmerged] at hmerged'
  cases hmerged'
  obtain ⟨name, index⟩ := s
  have hgetName := hget name
  cases index with
  | none =>
      obtain ⟨items, hitems, hdecoded⟩ := dict_of_placed (by simp) hplaced
      rw [valuesOf_of_plain (h.perm hperm) hs', joined, hitems] at hgetName
      refine ⟨items, ⟨merged, hmerged, hdecoded⟩,
        isCompactDict_of_isCompact (isCompact_of_get? hcompact hgetName), fun position => ?_⟩
      rw [← nestedAt_plain hgetName]
      exact hanswers _
  | some i =>
      obtain ⟨row, hrow, hdecoded⟩ := itemsOf_dict rfl hplaced
      obtain ⟨others, hfirst⟩ := firstSteps_bringFront (name, some i) hbranchNe cells
      rw [hfirst, valuesOf, if_pos rfl, joined, List.flatMap_cons, hrow] at hgetName
      have hrows := isCompact_of_get? hcompact hgetName
      rw [isCompact, Bool.and_eq_true] at hrows
      have hcompactRow := areCompactRows_iff.mp hrows.2 _ List.mem_cons_self
      refine ⟨row, ⟨merged, hmerged, hdecoded⟩, isCompactDict_of_isCompact hcompactRow.2,
        fun position => ?_⟩
      rw [← nestedAt_item hgetName List.getElem?_cons_zero]
      exact hanswers _

/-- If every order is merged to a dict with the same answers, no column is a split column of
another one. -/
theorem MergedAlike.not_splitOf (h : RowColumns selectMultiples cells)
    (hall : MergedAlike selectMultiples cells answers) {position split : List Step}
    {text value : PyValue} (htext : (position, text) ∈ cells) (hvalue : (split, value) ∈ cells) :
    ¬ SplitOf selectMultiples position split := by
  induction position generalizing cells answers split with
  | nil => exact absurd rfl (h.ne_nil _ htext)
  | cons s rest ih =>
      intro hsplit
      obtain ⟨name, choice, hlast, hname, rfl⟩ := hsplit
      cases rest with
      | nil =>
          -- the column comes last, after its split column
          cases hlast
          obtain ⟨before, after, hcells⟩ := List.append_of_mem htext
          have hperm : ((before ++ after) ++ [([(name, none)], text)]).Perm cells := by
            rw [hcells]
            exact (List.perm_append_singleton _ _).trans List.perm_middle.symm
          obtain ⟨d, ⟨merged, hmerged, _⟩, _⟩ := hall _ hperm
          have hrow := h.perm hperm
          obtain ⟨d', new, hd', _, hchanged⟩ := hrow.last_added hmerged
          have hfirst : (name, none) ∈ firstSteps (before ++ after) := by
            refine mem_firstSteps.mpr (List.ne_nil_of_mem (a := ([(choice, none)], value)) ?_)
            refine mem_below.mpr ?_
            have hmem := hperm.mem_iff.mpr hvalue
            exact (List.mem_append.mp hmem).resolve_right (by simp)
          have hkey : stepText (name, none) ∈ Dict.keys d' := by
            rw [hrow.of_append.keys_addColumns hd']
            exact List.mem_map_of_mem hfirst
          cases hchanged with
          | new hnone => exact Dict.get?_eq_none.mp hnone hkey
          | row hsome => cases hsome
          | dict _ hrest => exact hrest rfl
          | text _ hrest => exact hrest rfl
      | cons t rest =>
          have hne : ∀ c ∈ Onadata.Lib.below s cells, c.1 ≠ [] := by
            cases rest with
            | nil => exact h.ne_nil_of_long hvalue
            | cons u rest => exact h.ne_nil_of_long htext
          have hs : s ∈ firstSteps cells :=
            mem_firstSteps.mpr (List.ne_nil_of_mem (mem_below.mpr htext))
          refine ih (h.below hne) (hall.below h hs hne) (mem_below.mpr htext)
            (mem_below.mpr hvalue) ⟨name, choice, ?_, hname, rfl⟩
          rw [List.getLast?_cons_of_ne_nil (by simp)] at hlast
          exact hlast

end

/-! ### The decoder -/

section
variable (selectMultiples : List String) (cells : List Cell)

/-- The columns of a row without those of select multiples that have split columns too. -/
def kept : List Cell :=
  cells.filter fun c => ∀ c' ∈ cells, ¬ SplitOf selectMultiples c.1 c'.1

/-- Every order of the columns is decoded to the same nested dict, with the items of lists by their
indices, and the split columns of a select multiple where it has them. -/
def OrderFree : Prop :=
  ∀ cells' : List Cell, cells'.Perm cells →
    ∃ d, csvDictToNestedDict (cells'.map fun c => (columnName c.1, c.2)) selectMultiples =
        .ok (.dict d) ∧ isCompactDict d = true ∧
      ∀ position, nestedAt (.dict d) position = readAt indexOrder (kept selectMultiples cells) position

/-- No select multiple is there as one column and as split columns. -/
def NoDouble : Prop :=
  ∀ c ∈ cells, ∀ c' ∈ cells, ¬ SplitOf selectMultiples c.1 c'.1

end

section
variable {selectMultiples : List String} {cells : List Cell}

theorem kept_of_noDouble (h : NoDouble selectMultiples cells) : kept selectMultiples cells = cells :=
  List.filter_eq_self.mpr fun c hc => decide_eq_true (h c hc)

/-- A row without a doubled select multiple. -/
theorem RowColumns.columns (h : RowColumns selectMultiples cells)
    (hdouble : NoDouble selectMultiples cells) :
    Columns (cells.map Prod.fst).flatten.length cells where
  apart := h.related.imp_of_mem fun hc hc' hrelated => by
    rcases hrelated with hapart | hsplit | hsplit
    · exact hapart
    · exact absurd hsplit (hdouble _ hc _ hc')
    · exact absurd hsplit (hdouble _ hc' _ hc)
  ne_nil := h.ne_nil
  length_le c hc := by
    have hsub := List.sublist_flatten_of_mem (List.mem_map_of_mem (f := Prod.fst) hc)
    have hlength := hsub.length_le
    omega
  names c hc := (h.column c hc).names
  plain c hc := (h.column c hc).plain
  scalar c hc := (h.column c hc).scalar

/-- A row that is decoded is merged to a dict. -/
theorem RowColumns.mergedTo (h : RowColumns selectMultiples cells) {d : List (String × PyValue)}
    (hd : csvDictToNestedDict (cells.map fun c => (columnName c.1, c.2)) selectMultiples =
      .ok (.dict d)) : MergedTo selectMultiples cells d := by
  have hresults : (cells.map fun c => (columnName c.1, c.2)).map
      (fun item => columnToDict item.1 item.2) = cells.map fun c => columnTree c.1 c.2 := by
    rw [List.map_map]
    refine List.map_congr_left (fun c hc => ?_)
    exact columnToDict_columnName (h.column c hc).names (h.ne_nil c hc) (h.column c hc).plain c.2
  have hmerge := mergeListOfDicts_eq selectMultiples fun c hc => ⟨h.ne_nil c hc, h.column c hc⟩
  rw [csvDictToNestedDict, hresults] at hd
  cases hmerged : mergeListOfDicts (cells.map fun c => columnTree c.1 c.2) selectMultiples with
  | error e =>
      rw [hmerged] at hd
      cases hd
  | ok merged =>
      rw [hmerged] at hd hmerge
      cases merged with
      | dict items =>
          refine ⟨items, hmerge.symm, ?_⟩
          have hremove : removeIndicesFromDict (.dict items) = .ok (.dict d) := hd
          rw [removeIndicesFromDict] at hremove
          cases hitems : removeIndicesFromItems [] items with
          | error e =>
              rw [hitems] at hremove
              cases hremove
          | ok d' =>
              rw [hitems] at hremove
              cases hremove
              rfl
      | _ => cases hd

/-- A row does not depend on the order of its columns exactly when no select multiple is there as
one column and as split columns, and the items of each list have the same answers. -/
theorem orderFree_iff (h : RowColumns selectMultiples cells) :
    OrderFree selectMultiples cells ↔ NoDouble selectMultiples cells ∧ AlikeItems cells := by
  constructor
  · intro hfree
    have hall : MergedAlike selectMultiples cells
        (readAt indexOrder (kept selectMultiples cells)) := by
      intro cells' hperm
      obtain ⟨d, hd, hcompact, hanswers⟩ := hfree cells' hperm
      exact ⟨d, (h.perm hperm).mergedTo hd, hcompact, hanswers⟩
    have hdouble : NoDouble selectMultiples cells := by
      intro c hc c' hc'
      exact hall.not_splitOf h hc hc'
    have hsame : ReadsSame cells (readAt indexOrder (kept selectMultiples cells)) := by
      intro cells' hperm position
      have hdouble' : NoDouble selectMultiples cells' := fun c hc c' hc' =>
        hdouble c (hperm.mem_iff.mp hc) c' (hperm.mem_iff.mp hc')
      obtain ⟨d, hd, _, hread⟩ :=
        csvDictToNestedDict_apart ((h.perm hperm).columns hdouble') selectMultiples
      obtain ⟨d', hd', _, hanswers⟩ := hfree cells' hperm
      rw [hd] at hd'
      cases hd'
      rw [← hread, hanswers]
    exact ⟨hdouble, hsame.alikeItems⟩
  · intro ⟨hdouble, halike⟩ cells' hperm
    have hdouble' : NoDouble selectMultiples cells' := fun c hc c' hc' =>
      hdouble c (hperm.mem_iff.mp hc) c' (hperm.mem_iff.mp hc')
    obtain ⟨d, hd, hcompact, hread⟩ :=
      csvDictToNestedDict_apart ((h.perm hperm).columns hdouble') selectMultiples
    refine ⟨d, hd, hcompact, fun position => ?_⟩
    rw [hread, kept_of_noDouble hdouble]
    exact readAt_perm (h.columns hdouble).apart halike hperm position

end

/-! ### Items in another order -/

/-- Two items of a list, the second one first. -/
def swappedItems : List Cell :=
  [([("child", some 1), ("name", none)], .str "Ben"),
    ([("child", some 0), ("name", none)], .str "Ann")]

theorem rowColumns_swappedItems : RowColumns [] swappedItems := by
  have hcolumn : ∀ (i : Nat) (text : String),
      ScalarColumn [("child", some i), ("name", none)] (.str text) := by
    intro i text
    refine ⟨fun s hs => ?_, fun s hs => ?_, rfl⟩
    · simp only [List.mem_cons, List.not_mem_nil, or_false] at hs
      rcases hs with rfl | rfl
      · show IsFieldName "child"
        decide
      · show IsFieldName "name"
        decide
    · cases hs
      rfl
  refine ⟨?_, ?_, ?_⟩
  · exact List.pairwise_pair.mpr (Or.inl (apart_items "child" (by decide) _ _))
  · simp [swappedItems]
  · intro c hc
    simp only [swappedItems, List.mem_cons, List.not_mem_nil, or_false] at hc
    rcases hc with rfl | rfl
    · exact hcolumn 1 "Ben"
    · exact hcolumn 0 "Ann"

/-- The items are not in the order of their indices. -/
theorem not_orderFree_swappedItems : ¬ OrderFree [] swappedItems := by
  intro h
  have hdouble : NoDouble [] swappedItems := by
    intro c _ c' _ ⟨_, _, _, hname, _⟩
    cases hname
  obtain ⟨d, hd, _, hread⟩ :=
    csvDictToNestedDict_apart (rowColumns_swappedItems.columns hdouble) []
  obtain ⟨d', hd', _, hanswers⟩ := h swappedItems (List.Perm.refl _)
  rw [hd] at hd'
  cases hd'
  have hfirst := hread [("child", some 0), ("name", none)]
  have hindex : readAt indexOrder swappedItems [("child", some 0), ("name", none)] =
      some (.str "Ann") := rfl
  have hfirstColumn : readAt id swappedItems [("child", some 0), ("name", none)] =
      some (.str "Ben") := rfl
  rw [hanswers, kept_of_noDouble hdouble, hindex, hfirstColumn] at hfirst
  exact absurd hfirst (by simp)

/-- The row with the swapped items depends on the order of its columns, by the condition. -/
theorem orderFree_iff_swappedItems : RowColumns [] swappedItems ∧
    (OrderFree [] swappedItems ↔ NoDouble [] swappedItems ∧ AlikeItems swappedItems) :=
  ⟨rowColumns_swappedItems, orderFree_iff rowColumns_swappedItems⟩

end Onadata.Proofs
