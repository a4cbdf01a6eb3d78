import Mathlib.Data.List.Nodup
import Mathlib.Data.List.Range

/-!
# `Onadata.Lib.GroupNumbers`: rows that are numbered in their groups

Rows that come one after the other, each with a number in its group. A counter for each
group goes on from row to row (`advance`), and the rows are `NumberedGroups` if each row has the
next number of its group.
-/

set_option autoImplicit false

namespace Onadata.Lib

variable {Row Key : Type} [DecidableEq Key] (group : Row → Key) (number : Row → Nat)

/-- The rows of a group. -/
def ofGroup (rows : List Row) (key : Key) : List Row :=
  rows.filter fun row => group row = key

/-- The counters after some rows. -/
def advance (counts : Key → Nat) (rows : List Row) : Key → Nat :=
  fun key => counts key + (ofGroup group rows key).length

/-- The rows of each group have consecutive numbers, from the one after its counter on. -/
def NumberedGroups (counts : Key → Nat) (rows : List Row) : Prop :=
  ∀ key, (ofGroup group rows key).map number =
    List.range' (counts key + 1) (ofGroup group rows key).length

@[simp]
theorem ofGroup_nil (key : Key) : ofGroup group [] key = [] := rfl

@[simp]
theorem ofGroup_append (rows rows' : List Row) (key : Key) :
    ofGroup group (rows ++ rows') key = ofGroup group rows key ++ ofGroup group rows' key :=
  List.filter_append ..

theorem ofGroup_cons (row : Row) (rows : List Row) (key : Key) :
    ofGroup group (row :: rows) key =
      if group row = key then row :: ofGroup group rows key else ofGroup group rows key := by
  unfold ofGroup
  rw [List.filter_cons]
  simp only [decide_eq_true_eq]

/-- A group that no row is in has no rows. -/
theorem ofGroup_eq_nil {rows : List Row} {key : Key} (h : ∀ row ∈ rows, group row ≠ key) :
    ofGroup group rows key = [] :=
  List.filter_eq_nil_iff.mpr fun row hrow hkey => h row hrow (of_decide_eq_true hkey)

/-- Rows of the group are the rows in it. -/
theorem mem_ofGroup {rows : List Row} {key : Key} {row : Row} :
    row ∈ ofGroup group rows key ↔ row ∈ rows ∧ group row = key := by
  rw [ofGroup, List.mem_filter, decide_eq_true_eq]

@[simp]
theorem advance_nil (counts : Key → Nat) : advance group counts [] = counts := rfl

/-- The counters after some rows and some more. -/
theorem advance_append (counts : Key → Nat) (rows rows' : List Row) :
    advance group counts (rows ++ rows') = advance group (advance group counts rows) rows' := by
  funext key
  unfold advance
  rw [ofGroup_append, List.length_append, Nat.add_assoc]

variable {group number}

theorem NumberedGroups.nil (counts : Key → Nat) : NumberedGroups group number counts [] := fun _ => rfl

/-- One row with the next number of its group. -/
theorem NumberedGroups.singleton {counts : Key → Nat} {row : Row}
    (h : number row = counts (group row) + 1) : NumberedGroups group number counts [row] := by
  intro key
  rw [ofGroup_cons]
  split
  · rename_i hkey
    show [number row] = [counts key + 1]
    rw [h, hkey]
  · rfl

/-- Rows that are numbered on from others. -/
theorem NumberedGroups.append {counts : Key → Nat} {rows rows' : List Row}
    (h : NumberedGroups group number counts rows)
    (h' : NumberedGroups group number (advance group counts rows) rows') :
    NumberedGroups group number counts (rows ++ rows') := by
  intro key
  rw [ofGroup_append, List.map_append, List.length_append, h key, h' key, advance,
    ← List.range'_append_1]
  congr 2
  omega

/-- Two rows of a group with one number are the same. -/
theorem NumberedGroups.eq_of_number {counts : Key → Nat} {rows : List Row}
    (h : NumberedGroups group number counts rows) {row row' : Row} (hrow : row ∈ rows)
    (hrow' : row' ∈ rows) (hgroup : group row = group row') (hnumber : number row = number row') :
    row = row' := by
  have hnodup : ((ofGroup group rows (group row')).map number).Nodup := by
    rw [h]
    exact List.nodup_range'
  exact List.inj_on_of_nodup_map hnodup ((mem_ofGroup group).mpr ⟨hrow, hgroup⟩)
    ((mem_ofGroup group).mpr ⟨hrow', rfl⟩) hnumber

/-- The place of a row among the rows of its group is its number. -/
theorem NumberedGroups.number_eq {counts : Key → Nat} {rows : List Row}
    (h : NumberedGroups group number counts rows) {key : Key} {place : Nat} {row : Row}
    (hget : (ofGroup group rows key)[place]? = some row) :
    number row = counts key + 1 + place := by
  have hnumber : ((ofGroup group rows key).map number)[place]? = some (number row) := by
    rw [List.getElem?_map, hget]
    rfl
  rw [h key] at hnumber
  obtain ⟨hlt, heq⟩ := List.getElem?_eq_some_iff.mp hnumber
  rw [← heq, List.getElem_range', Nat.one_mul]

/-- A row stands at the place of its number among the rows of its group. -/
theorem NumberedGroups.getElem?_eq {counts : Key → Nat} {rows : List Row}
    (h : NumberedGroups group number counts rows) {row : Row} (hrow : row ∈ rows) :
    ∃ place, number row = counts (group row) + 1 + place ∧
      (ofGroup group rows (group row))[place]? = some row := by
  obtain ⟨place, hget⟩ := List.mem_iff_getElem?.mp ((mem_ofGroup group).mpr ⟨hrow, rfl⟩)
  exact ⟨place, h.number_eq hget, hget⟩

end Onadata.Lib
