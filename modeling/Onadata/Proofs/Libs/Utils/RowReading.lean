import Mathlib.Data.List.Pairwise
import Mathlib.Data.List.Sort
import Onadata.Proofs.Libs.Utils.IndexedCells

/-!
# `Onadata.Proofs.Libs.Utils.RowReading`: the answers of a row, item by item

A record counts the items of a list from zero on, whatever the indices in the column names are.
`readAt arrange cells` is the answer of a row at a position of such a record: `arrange` puts the
indices of a list in an order, and item `k` is the one with index `k` in it. With `id` it is the
order of the first columns.

* `valuesOf_firstSteps_cases`: the first steps with a name are the name alone, or list items.
* `readAt_of_consecutive`: in a row whose cells follow each other, the indices count the items.

A row with its columns in another order has its list items in another order. `ReadsSame` says
that every order of the columns gives the same answers, and `AlikeItems` that the items of each
list have the same answers.

* `readAt_perm`: with alike items, the answers are those by index in every order.
* `ReadsSame.alikeItems`: if every order gives the same answers, the items are alike.
-/

set_option autoImplicit false

namespace Onadata.Proofs

open Onadata.Lib

/-- The indices of a list, in the order of their first columns. -/
def indicesOf (cells : List Cell) (name : String) : List Nat :=
  (valuesOf (firstSteps cells) name).filterMap id

/-- The answer of a row at a position, where list items are counted in an order of their
indices. -/
def readAt (arrange : List Nat → List Nat) : List Cell → List Step → Option PyValue
  | cells, [] => Dict.get? cells []
  | cells, (name, none) :: rest => readAt arrange (below (name, none) cells) rest
  | cells, (name, some k) :: rest =>
      match (arrange (indicesOf cells name))[k]? with
      | none => none
      | some i => readAt arrange (below (name, some i) cells) rest

/-- The names of a list of steps, each plain or with the items of a list. -/
def Listed (steps : List Step) : Prop :=
  ∀ name, valuesOf steps name = [none] ∨
    ∃ indices : List Nat, valuesOf steps name = indices.map some

/-! ### The first steps of a row -/

theorem indicesOf_of_none {cells : List Cell} {name : String}
    (h : valuesOf (firstSteps cells) name = [none]) : indicesOf cells name = [] := by
  rw [indicesOf, h]
  rfl

theorem indicesOf_of_some {cells : List Cell} {name : String} {indices : List Nat}
    (h : valuesOf (firstSteps cells) name = indices.map some) :
    indicesOf cells name = indices := by
  rw [indicesOf, h, List.filterMap_map]
  exact List.filterMap_some

theorem mem_indicesOf {cells : List Cell} {name : String} {i : Nat} :
    i ∈ indicesOf cells name ↔ (name, some i) ∈ firstSteps cells := by
  rw [indicesOf, List.mem_filterMap, ← mem_valuesOf]
  constructor
  · rintro ⟨index, hmem, rfl⟩
    exact hmem
  · intro hmem
    exact ⟨some i, hmem, rfl⟩

theorem map_some_filterMap_id {indices : List (Option Nat)} (h : none ∉ indices) :
    (indices.filterMap id).map some = indices := by
  induction indices with
  | nil => rfl
  | cons index indices ih =>
      cases index with
      | none => simp at h
      | some i =>
          rw [List.filterMap_cons, id]
          show some i :: (indices.filterMap id).map some = _
          rw [ih fun hmem => h (List.mem_cons_of_mem _ hmem)]

/-- A name is plain or names list items if different steps with it are list items. -/
theorem listed_of_items {steps : List Step} (hnodup : steps.Nodup)
    (h : ∀ s ∈ steps, ∀ s' ∈ steps, s ≠ s' → s.1 = s'.1 → s.2.isSome = true) : Listed steps := by
  intro name
  by_cases hnone : none ∈ valuesOf steps name
  · left
    have hall : ∀ index ∈ valuesOf steps name, index = none := by
      intro index hindex
      by_contra hne
      cases h _ (mem_valuesOf.mp hnone) _ (mem_valuesOf.mp hindex) (by simpa using Ne.symm hne) rfl
    have hvalues := nodup_valuesOf hnodup name
    rw [List.eq_replicate_of_mem hall] at hvalues hnone ⊢
    rw [List.nodup_replicate] at hvalues
    have hlength := List.length_pos_of_mem hnone
    rw [List.length_replicate] at hlength
    rw [Nat.le_antisymm hvalues hlength]
    rfl
  · right
    exact ⟨(valuesOf steps name).filterMap id, (map_some_filterMap_id hnone).symm⟩

/-- Among steps of cells that are apart, a name is plain or names list items. -/
theorem listed_firstSteps {cells : List Cell}
    (hapart : cells.Pairwise fun c c' => Apart c.1 c'.1) : Listed (firstSteps cells) := by
  refine listed_of_items (nodup_firstSteps cells) (fun s hs s' hs' hne hname => ?_)
  have ⟨c, hc⟩ := List.exists_mem_of_ne_nil _ (mem_firstSteps.mp hs)
  have ⟨c', hc'⟩ := List.exists_mem_of_ne_nil _ (mem_firstSteps.mp hs')
  have happly := hapart.forall (mem_below.mp hc) (mem_below.mp hc') (by simp [hne])
  rw [Apart, if_neg hne] at happly
  exact (happly hname).1

/-! ### Reading -/

section
variable (arrange : List Nat → List Nat) (harrange : ∀ indices, (arrange indices).Perm indices)
/-- A list item: `arrange` says which one of the row it is. -/
theorem readAt_item (cells : List Cell) (name : String) (k : Nat) (rest : List Step) :
    readAt arrange cells ((name, some k) :: rest) =
      match (arrange (indicesOf cells name))[k]? with
      | none => none
      | some i => readAt arrange (below (name, some i) cells) rest := rfl

include harrange

/-- A row without cells has no answer. -/
theorem readAt_nil (position : List Step) : readAt arrange [] position = none := by
  induction position with
  | nil => rfl
  | cons s rest ih =>
      match s with
      | (name, none) => exact ih
      | (name, some k) =>
          have hnil : arrange (indicesOf [] name) = [] := (harrange []).eq_nil
          rw [readAt_item, hnil]
          rfl

/-- There is no answer at a list item of a name that is plain. -/
theorem readAt_item_of_none {cells : List Cell} {name : String} (k : Nat) (rest : List Step)
    (h : valuesOf (firstSteps cells) name = [none]) :
    readAt arrange cells ((name, some k) :: rest) = none := by
  have hnil : arrange (indicesOf cells name) = [] := by
    rw [indicesOf_of_none h]
    exact (harrange []).eq_nil
  rw [readAt_item, hnil]
  rfl

/-- There is no answer below a step that no cell has. -/
theorem readAt_plain_of_notMem {cells : List Cell} {name : String} (rest : List Step)
    (h : (name, none) ∉ firstSteps cells) :
    readAt arrange cells ((name, none) :: rest) = none := by
  show readAt arrange (below (name, none) cells) rest = none
  rw [not_imp_comm.mp mem_firstSteps.mpr h]
  exact readAt_nil arrange harrange rest

end

/-- In a row whose cells follow each other, the indices count the items. -/
theorem readAt_of_consecutive {cells : List Cell}
    (hapart : cells.Pairwise fun c c' => Apart c.1 c'.1) (h : Consecutive [] cells)
    (position : List Step) : readAt id cells position = Dict.get? cells position := by
  induction position generalizing cells with
  | nil => rfl
  | cons s rest ih =>
      have hbelow : ∀ s, readAt id (below s cells) rest = Dict.get? (below s cells) rest :=
        fun s => ih (pairwise_apart_below hapart s) (h.below s)
      rw [get?_cons, ← hbelow]
      match s with
      | (name, none) => rfl
      | (name, some k) =>
          rw [readAt_item]
          rcases valuesOf_firstSteps hapart h name with hnone | ⟨n, hrange⟩
          · have hnotMem : (name, some k) ∉ firstSteps cells := by
              intro hmem
              have hvalue := mem_valuesOf.mpr hmem
              rw [hnone] at hvalue
              simp at hvalue
            rw [indicesOf_of_none hnone, not_imp_comm.mp mem_firstSteps.mpr hnotMem,
              readAt_nil id fun _ => List.Perm.refl _]
            rfl
          · rw [indicesOf_of_some hrange, id]
            by_cases hlt : k < n
            · rw [List.getElem?_range hlt]
            · have hnotMem : (name, some k) ∉ firstSteps cells := by
                intro hmem
                have hvalue := mem_valuesOf.mpr hmem
                rw [hrange] at hvalue
                exact hlt (by simpa using hvalue)
              rw [List.getElem?_eq_none (by simpa using hlt),
                not_imp_comm.mp mem_firstSteps.mpr hnotMem,
                readAt_nil id fun _ => List.Perm.refl _]

/-- The indices of a list in ascending order. -/
def indexOrder (indices : List Nat) : List Nat :=
  indices.insertionSort (· ≤ ·)

/-- The columns below a place in a row. -/
def belowAt (cells : List Cell) : List Step → List Cell
  | [] => cells
  | s :: place => belowAt (below s cells) place

/-- The items of each list of a row have the same answers. -/
def AlikeItems (cells : List Cell) : Prop :=
  ∀ place name i j, (name, some i) ∈ firstSteps (belowAt cells place) →
    (name, some j) ∈ firstSteps (belowAt cells place) →
      ∀ position, readAt indexOrder (below (name, some i) (belowAt cells place)) position =
        readAt indexOrder (below (name, some j) (belowAt cells place)) position

/-- Every order of the columns gives these answers. -/
def ReadsSame (cells : List Cell) (answers : List Step → Option PyValue) : Prop :=
  ∀ cells' : List Cell, cells'.Perm cells → ∀ position, readAt id cells' position = answers position

/-- The step, or the one to the first item of the list. -/
def firstItem (s : Step) : Step :=
  (s.1, s.2.map fun _ => 0)

/-! ### Another order of the columns -/

theorem indexOrder_perm (indices : List Nat) : (indexOrder indices).Perm indices :=
  List.perm_insertionSort _ _

theorem nodup_indicesOf (cells : List Cell) (name : String) : (indicesOf cells name).Nodup := by
  refine (nodup_valuesOf (nodup_firstSteps cells) name).filterMap (fun index index' i hi hi' => ?_)
  rw [id, Option.mem_def] at hi hi'
  rw [hi, hi']

theorem indicesOf_perm {cells cells' : List Cell} (h : cells.Perm cells') (name : String) :
    (indicesOf cells name).Perm (indicesOf cells' name) := by
  refine (List.perm_ext_iff_of_nodup (nodup_indicesOf _ _) (nodup_indicesOf _ _)).mpr (fun i => ?_)
  rw [mem_indicesOf, mem_indicesOf]
  exact mem_firstSteps_perm h _

/-- The answer at the root does not depend on the order of the columns. -/
theorem get?_nil_perm {cells cells' : List Cell}
    (hapart : cells.Pairwise fun c c' => Apart c.1 c'.1) (h : cells'.Perm cells) :
    Dict.get? cells' [] = Dict.get? cells [] := by
  have hnone : ∀ row : List Cell, (∀ c ∈ row, c.1 ≠ []) → Dict.get? row [] = none := by
    intro row hrow
    rw [Dict.get?_eq_none]
    intro hmem
    have ⟨c, hc, hpath⟩ := List.mem_map.mp hmem
    exact hrow c hc hpath
  rcases root_or_ne_nil hapart with ⟨value, rfl⟩ | hne
  · rw [List.perm_singleton.mp h]
  · rw [hnone cells hne, hnone cells' fun c hc => hne c (h.mem_iff.mp hc)]

theorem AlikeItems.below {cells : List Cell} (h : AlikeItems cells) (s : Step) :
    AlikeItems (below s cells) :=
  fun place => h (s :: place)

/-- With alike items, the answers are those by index in every order of the columns. -/
theorem readAt_perm {cells cells' : List Cell}
    (hapart : cells.Pairwise fun c c' => Apart c.1 c'.1) (halike : AlikeItems cells)
    (h : cells'.Perm cells) (position : List Step) :
    readAt id cells' position = readAt indexOrder cells position := by
  induction position generalizing cells cells' with
  | nil => exact get?_nil_perm hapart h
  | cons s rest ih =>
      have hbelow : ∀ s, readAt id (below s cells') rest = readAt indexOrder (below s cells) rest :=
        fun s => ih (pairwise_apart_below hapart s) (halike.below s) (below_perm h s)
      match s with
      | (name, none) => exact hbelow (name, none)
      | (name, some k) =>
          have hindices : (indicesOf cells' name).Perm (indexOrder (indicesOf cells name)) :=
            (indicesOf_perm h name).trans (indexOrder_perm _).symm
          rw [readAt, readAt, id]
          by_cases hlt : k < (indicesOf cells' name).length
          · have hlt' : k < (indexOrder (indicesOf cells name)).length := by
              rw [← hindices.length_eq]
              exact hlt
            have hmem := hindices.mem_iff.mp (List.getElem_mem hlt)
            have hmem' := List.getElem_mem hlt'
            rw [(indexOrder_perm _).mem_iff, mem_indicesOf] at hmem hmem'
            rw [List.getElem?_eq_getElem hlt, List.getElem?_eq_getElem hlt']
            show readAt id (below (name, some _) cells') rest = _
            rw [hbelow]
            -- another item can have the place
            exact halike [] name _ _ hmem hmem' rest
          · have hge' : (indexOrder (indicesOf cells name)).length ≤ k := by
              rw [← hindices.length_eq]
              omega
            rw [List.getElem?_eq_none (by omega), List.getElem?_eq_none hge']

/-! ### Orders with one branch first -/

/-- The branch in front is that of the step, or of the first item. -/
theorem readAt_bringFront {s : Step} {branch : List Cell} (hne : branch ≠ []) (cells : List Cell)
    (position : List Step) :
    readAt id (bringFront s branch cells) (firstItem s :: position) =
      readAt id branch position := by
  obtain ⟨name, index⟩ := s
  cases index with
  | none =>
      show readAt id (below (name, none) (bringFront (name, none) branch cells)) position = _
      rw [below_bringFront]
  | some i =>
      have ⟨others, hfirst⟩ := firstSteps_bringFront (name, some i) hne cells
      have hindices : indicesOf (bringFront (name, some i) branch cells) name =
          i :: (valuesOf others name).filterMap id := by
        rw [indicesOf, hfirst, valuesOf, if_pos rfl]
        rfl
      show readAt id (bringFront (name, some i) branch cells) ((name, some 0) :: position) = _
      rw [readAt, hindices]
      show readAt id (below (name, some i) (bringFront (name, some i) branch cells)) position = _
      rw [below_bringFront]

section
variable {cells : List Cell} {answers : List Step → Option PyValue}

/-- Every order of the columns of a branch gives the same answers. -/
theorem ReadsSame.below (h : ReadsSame cells answers) {s : Step} (hs : s ∈ firstSteps cells) :
    ReadsSame (below s cells) fun position => answers (firstItem s :: position) := by
  intro branch hbranch position
  have hne : branch ≠ [] := by
    intro hnil
    rw [hnil] at hbranch
    exact mem_firstSteps.mp hs hbranch.nil_eq.symm
  rw [← readAt_bringFront hne cells position]
  exact h _ (bringFront_perm hbranch) _

/-- The answers are those by index, if every order of the columns gives the same. -/
theorem ReadsSame.readAt_indexOrder (h : ReadsSame cells answers) (position : List Step) :
    readAt indexOrder cells position = answers position := by
  induction position generalizing cells answers with
  | nil => exact h cells (List.Perm.refl _) []
  | cons s rest ih =>
      have hself := h cells (List.Perm.refl _)
      match s with
      | (name, none) =>
          by_cases hs : (name, none) ∈ firstSteps cells
          · exact ih (h.below hs)
          · rw [← hself, readAt_plain_of_notMem indexOrder indexOrder_perm rest hs,
              readAt_plain_of_notMem id (fun _ => List.Perm.refl _) rest hs]
      | (name, some k) =>
          have hlength := (indexOrder_perm (indicesOf cells name)).length_eq
          rw [← hself, readAt, readAt, id]
          by_cases hlt : k < (indicesOf cells name).length
          · have hlt' : k < (indexOrder (indicesOf cells name)).length := by omega
            have hmem := mem_indicesOf.mp (List.getElem_mem hlt)
            have hmem' := (indexOrder_perm _).mem_iff.mp (List.getElem_mem hlt')
            rw [mem_indicesOf] at hmem'
            rw [List.getElem?_eq_getElem hlt, List.getElem?_eq_getElem hlt']
            -- both items have the answers of the first one
            show readAt indexOrder (Onadata.Lib.below (name, some _) cells) rest =
              readAt id (Onadata.Lib.below (name, some _) cells) rest
            rw [ih (h.below hmem'), h.below hmem _ (List.Perm.refl _)]
            rfl
          · rw [List.getElem?_eq_none (by omega), List.getElem?_eq_none (by omega)]

/-- The items are alike, if every order of the columns gives the same answers. -/
theorem ReadsSame.alikeItems (h : ReadsSame cells answers) : AlikeItems cells := by
  intro place
  induction place generalizing cells answers with
  | nil =>
      intro name i j hi hj position
      show readAt indexOrder (Onadata.Lib.below (name, some i) cells) position =
        readAt indexOrder (Onadata.Lib.below (name, some j) cells) position
      rw [(h.below hi).readAt_indexOrder, (h.below hj).readAt_indexOrder]
      rfl
  | cons s place ih =>
      by_cases hs : s ∈ firstSteps cells
      · exact ih (h.below hs)
      · have hnil : ∀ place, belowAt [] place = [] := by
          intro place
          induction place with
          | nil => rfl
          | cons t place ih => exact ih
        intro name i j hi
        rw [belowAt, not_imp_comm.mp mem_firstSteps.mpr hs, hnil] at hi
        cases hi

end

end Onadata.Proofs
