import Mathlib.Data.List.Induction
import Mathlib.Data.List.Nodup
import Onadata.Lib.PyDict

/-!
# `Onadata.Lib.PathCells`: values with their paths

A tree as the list of its leaves, each with the steps from the root to it, in the order in
which they were added. `firstSteps` are the branches at the root, in the order of their first
leaves, and `below` is the tree on a branch. `get?_cons` looks a leaf up branch by branch.
`bringFront` is the tree with the leaves of one branch, in any order, before the others.
-/

set_option autoImplicit false

namespace Onadata.Lib

variable {Step Value : Type}

/-- The cells with a path in front. -/
def under (path : List Step) (cells : List (List Step × Value)) : List (List Step × Value) :=
  cells.map fun cell => (path ++ cell.1, cell.2)

@[simp]
theorem under_nil (cells : List (List Step × Value)) : under [] cells = cells :=
  List.map_id' cells

theorem under_append (path path' : List Step) (cells : List (List Step × Value)) :
    under (path ++ path') cells = under path (under path' cells) := by
  simp [under]

/-- A cell below a path. -/
theorem mem_under {path : List Step} {cells : List (List Step × Value)}
    {cell : List Step × Value} :
    cell ∈ under path cells ↔ ∃ rest, cell.1 = path ++ rest ∧ (rest, cell.2) ∈ cells := by
  constructor
  · intro h
    obtain ⟨inner, hinner, rfl⟩ := List.mem_map.mp h
    exact ⟨inner.1, rfl, hinner⟩
  · rintro ⟨rest, hpath, hmem⟩
    refine List.mem_map.mpr ⟨_, hmem, ?_⟩
    rw [← hpath]

variable [DecidableEq Step]

/-- The cells on a branch, without its step. -/
def below (step : Step) (cells : List (List Step × Value)) : List (List Step × Value) :=
  cells.filterMap fun cell =>
    match cell.1 with
    | [] => none
    | first :: path => if first = step then some (path, cell.2) else none

/-- The branches, in the order of their first cells. -/
def firstSteps (cells : List (List Step × Value)) : List Step :=
  (cells.filterMap fun cell => cell.1.head?).eraseDups

/-! ### Branches -/

@[simp]
theorem below_nil (step : Step) : below step ([] : List (List Step × Value)) = [] := rfl

@[simp]
theorem firstSteps_nil : firstSteps ([] : List (List Step × Value)) = [] := rfl

theorem below_append (step : Step) (cells cells' : List (List Step × Value)) :
    below step (cells ++ cells') = below step cells ++ below step cells' :=
  List.filterMap_append

/-- One more cell is on the branch of its first step. -/
theorem below_append_singleton (step first : Step) (path : List Step) (value : Value)
    (cells : List (List Step × Value)) : below step (cells ++ [(first :: path, value)]) =
      if first = step then below step cells ++ [(path, value)] else below step cells := by
  rw [below_append]
  by_cases h : first = step
  · simp [below, h]
  · simp [below, h]

/-- A value at the root is on no branch. -/
@[simp]
theorem below_append_root (step : Step) (value : Value) (cells : List (List Step × Value)) :
    below step (cells ++ [([], value)]) = below step cells := by
  rw [below_append]
  exact List.append_nil _

@[simp]
theorem firstSteps_append_root (value : Value) (cells : List (List Step × Value)) :
    firstSteps (cells ++ [([], value)]) = firstSteps cells := by
  rw [firstSteps, List.filterMap_append]
  exact congrArg List.eraseDups (List.append_nil _)

/-- The cells on a branch are the ones that start with its step. -/
theorem mem_below {step : Step} {cells : List (List Step × Value)} {path : List Step}
    {value : Value} : (path, value) ∈ below step cells ↔ (step :: path, value) ∈ cells := by
  rw [below, List.mem_filterMap]
  constructor
  · rintro ⟨⟨_ | ⟨first, path'⟩, value'⟩, hmem, hcell⟩
    · simp at hcell
    · by_cases hfirst : first = step
      · simp only [hfirst, if_pos] at hcell
        obtain ⟨rfl, rfl⟩ := Prod.mk.inj (Option.some.inj hcell)
        exact hfirst ▸ hmem
      · simp [hfirst] at hcell
  · intro hmem
    exact ⟨_, hmem, by simp⟩

/-- A branch has a cell. -/
theorem mem_firstSteps {step : Step} {cells : List (List Step × Value)} :
    step ∈ firstSteps cells ↔ below step cells ≠ [] := by
  rw [firstSteps, List.mem_eraseDups, List.mem_filterMap]
  constructor
  · rintro ⟨⟨_ | ⟨first, path⟩, value⟩, hmem, hhead⟩
    · simp at hhead
    · obtain rfl := Option.some.inj hhead
      exact List.ne_nil_of_mem (mem_below.mpr hmem)
  · intro hne
    obtain ⟨⟨path, value⟩, hmem⟩ := List.exists_mem_of_ne_nil _ hne
    exact ⟨_, mem_below.mp hmem, rfl⟩

/-- A new branch comes after the others. -/
theorem firstSteps_append_singleton (first : Step) (path : List Step) (value : Value)
    (cells : List (List Step × Value)) : firstSteps (cells ++ [(first :: path, value)]) =
      if first ∈ firstSteps cells then firstSteps cells else firstSteps cells ++ [first] := by
  have hmem : first ∈ firstSteps cells ↔ first ∈ cells.filterMap fun cell => cell.1.head? :=
    List.mem_eraseDups
  rw [firstSteps, List.filterMap_append, List.eraseDups_append]
  by_cases h : first ∈ firstSteps cells
  · rw [if_pos h, List.removeAll, List.filter_eq_nil_iff.mpr]
    · simp [firstSteps]
    · simpa using hmem.mp h
  · rw [if_neg h, List.removeAll, List.filter_eq_self.mpr]
    · simp [firstSteps, List.eraseDups_cons]
    · simpa using mt hmem.mpr h

/-- The branches are different. -/
theorem nodup_firstSteps (cells : List (List Step × Value)) : (firstSteps cells).Nodup := by
  induction cells using List.reverseRecOn with
  | nil => exact List.nodup_nil
  | append_singleton cells cell ih =>
      obtain ⟨_ | ⟨first, path⟩, value⟩ := cell
      · rw [firstSteps_append_root]
        exact ih
      · rw [firstSteps_append_singleton]
        split
        · exact ih
        · rename_i hnew
          exact List.nodup_append.mpr ⟨ih, List.nodup_singleton first, fun a ha b hb hab =>
            hnew (List.mem_singleton.mp hb ▸ hab ▸ ha)⟩

/-- A cell is looked up on the branch of its first step. -/
theorem get?_cons (cells : List (List Step × Value)) (step : Step) (path : List Step) :
    Dict.get? cells (step :: path) = Dict.get? (below step cells) path := by
  induction cells with
  | nil => rfl
  | cons cell cells ih =>
      obtain ⟨_ | ⟨first, path'⟩, value⟩ := cell
      · rw [Dict.get?, if_neg (by simp), ih]
        rfl
      · by_cases hfirst : first = step
        · subst hfirst
          have hbelow : below first ((first :: path', value) :: cells) =
              (path', value) :: below first cells := by
            simp [below]
          rw [hbelow, Dict.get?, Dict.get?, ih]
          simp
        · have hbelow : below step ((first :: path', value) :: cells) = below step cells := by
            simp [below, hfirst]
          rw [hbelow, Dict.get?, if_neg (by simp [hfirst]), ih]

/-! ### Another order of the cells -/

/-- The cells on a branch, in another order. -/
theorem below_perm {cells cells' : List (List Step × Value)} (h : cells.Perm cells') (step : Step) :
    (below step cells).Perm (below step cells') :=
  h.filterMap _

theorem mem_firstSteps_perm {cells cells' : List (List Step × Value)} (h : cells.Perm cells')
    (step : Step) : step ∈ firstSteps cells ↔ step ∈ firstSteps cells' := by
  rw [mem_firstSteps, mem_firstSteps, ← List.length_pos_iff, ← List.length_pos_iff,
    (below_perm h step).length_eq]

/-- The branches do not depend on the order of the cells, up to their order. -/
theorem firstSteps_perm {cells cells' : List (List Step × Value)} (h : cells.Perm cells') :
    (firstSteps cells).Perm (firstSteps cells') :=
  (List.perm_ext_iff_of_nodup (nodup_firstSteps cells) (nodup_firstSteps cells')).mpr
    (mem_firstSteps_perm h)

/-- The cells with those on a branch, in the order of `branch`, before the others. -/
def bringFront (step : Step) (branch cells : List (List Step × Value)) :
    List (List Step × Value) :=
  under [step] branch ++ cells.filter fun cell => cell.1.head? ≠ some step

theorem below_under_singleton (step : Step) (cells : List (List Step × Value)) :
    below step (under [step] cells) = cells := by
  induction cells with
  | nil => rfl
  | cons cell cells ih =>
      rw [below, under, List.map_cons, List.filterMap_cons]
      simp only [List.cons_append, List.nil_append, if_pos]
      exact congrArg _ ih

/-- The cells on a branch are those that start with its step. -/
theorem under_singleton_below (step : Step) (cells : List (List Step × Value)) :
    under [step] (below step cells) = cells.filter fun cell => cell.1.head? = some step := by
  induction cells with
  | nil => rfl
  | cons cell cells ih =>
      obtain ⟨_ | ⟨first, path⟩, value⟩ := cell
      · rw [List.filter_cons_of_neg (by simp)]
        exact ih
      · by_cases hfirst : first = step
        · subst hfirst
          rw [List.filter_cons_of_pos (by simp), ← ih]
          simp [below, under]
        · rw [List.filter_cons_of_neg (by simp [hfirst]), ← ih]
          simp [below, under, hfirst]

theorem below_bringFront (step : Step) (branch cells : List (List Step × Value)) :
    below step (bringFront step branch cells) = branch := by
  rw [bringFront, below_append, below_under_singleton]
  have hrest : below step (cells.filter fun cell => cell.1.head? ≠ some step) = [] := by
    refine List.eq_nil_iff_forall_not_mem.mpr (fun cell hcell => ?_)
    have hmem := List.mem_filter.mp (mem_below.mp hcell)
    simp at hmem
  rw [hrest, List.append_nil]

theorem bringFront_perm {step : Step} {branch cells : List (List Step × Value)}
    (h : branch.Perm (below step cells)) : (bringFront step branch cells).Perm cells := by
  have hbranch : (under [step] branch).Perm
      (cells.filter fun cell => cell.1.head? = some step) := by
    rw [← under_singleton_below]
    exact h.map _
  refine (hbranch.append_right _).trans ?_
  have hsplit := List.filter_append_perm
    (fun cell : List Step × Value => decide (cell.1.head? = some step)) cells
  simpa using hsplit

/-- The branch in front comes first. -/
theorem firstSteps_bringFront (step : Step) {branch : List (List Step × Value)}
    (hne : branch ≠ []) (cells : List (List Step × Value)) :
    ∃ rest, firstSteps (bringFront step branch cells) = step :: rest := by
  obtain ⟨cell, branch, rfl⟩ := List.exists_cons_of_ne_nil hne
  rw [firstSteps, bringFront, under, List.map_cons, List.cons_append, List.filterMap_cons]
  exact ⟨_, List.eraseDups_cons⟩

end Onadata.Lib
