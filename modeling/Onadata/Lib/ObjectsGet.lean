import Mathlib.Data.List.Nodup

/-!
# `Onadata.Lib.ObjectsGet`: the one row that a look-up finds

`objects.get(…)` of a Django manager on the rows of a table: the row with the property, if
there is exactly one. `objectsGet_eq_ok_of_nodup` is the rule for rows that are told apart by
what the look-up asks for.
-/

set_option autoImplicit false

namespace Onadata.Lib

/-- Why `objects.get(…)` returns no row. -/
inductive GetError
  | doesNotExist
  | multipleObjectsReturned
  deriving DecidableEq, Repr

variable {Row : Type}

/-- `objects.get(…)`, for the rows with the property. -/
def objectsGet (rows : List Row) (p : Row → Bool) : Except GetError Row :=
  match rows.filter p with
  | [] => .error .doesNotExist
  | [row] => .ok row
  | _ :: _ :: _ => .error .multipleObjectsReturned

/-- Two rows with the property are too many. -/
theorem objectsGet_eq_multiple {rows : List Row} {p : Row → Bool} {before between after : List Row}
    {row row' : Row} (hrows : rows = before ++ row :: (between ++ row' :: after))
    (hrow : p row = true) (hrow' : p row' = true) :
    objectsGet rows p = .error .multipleObjectsReturned := by
  have hfilter : rows.filter p =
      before.filter p ++ row :: (between.filter p ++ row' :: after.filter p) := by
    rw [hrows, List.filter_append, List.filter_cons_of_pos hrow, List.filter_append,
      List.filter_cons_of_pos hrow']
  unfold objectsGet
  rw [hfilter]
  cases before.filter p with
  | nil => cases between.filter p <;> rfl
  | cons _ before => cases before <;> rfl

/-- The look-up raises exactly when the property does not hold of one row. -/
theorem objectsGet_eq_error_iff {rows : List Row} {p : Row → Bool} :
    (∃ error, objectsGet rows p = .error error) ↔ rows.countP p ≠ 1 := by
  rw [List.countP_eq_length_filter]
  unfold objectsGet
  match rows.filter p with
  | [] => exact iff_of_true ⟨_, rfl⟩ Nat.zero_ne_one
  | [row] => exact iff_of_false (fun ⟨_, h⟩ => by cases h) (fun h => h rfl)
  | row :: row' :: rest =>
      refine iff_of_true ⟨_, rfl⟩ ?_
      rw [List.length_cons, List.length_cons]
      omega

/-- The row that is found has the property, and no other row has it. -/
theorem eq_of_objectsGet {rows : List Row} {p : Row → Bool} {row : Row}
    (h : objectsGet rows p = .ok row) :
    (row ∈ rows ∧ p row = true) ∧ ∀ other ∈ rows, p other = true → other = row := by
  unfold objectsGet at h
  split at h
  · cases h
  · rename_i found hfound
    obtain rfl := Except.ok.inj h
    have hmem : found ∈ rows.filter p := hfound ▸ List.mem_singleton_self found
    refine ⟨List.mem_filter.mp hmem, fun other hother hp => ?_⟩
    have hother' : other ∈ rows.filter p := List.mem_filter.mpr ⟨hother, hp⟩
    rw [hfound] at hother'
    exact List.mem_singleton.mp hother'
  · cases h

/-- Where no row is found, none has the property. -/
theorem not_of_objectsGet {rows : List Row} {p : Row → Bool}
    (h : objectsGet rows p = .error .doesNotExist) : ∀ row ∈ rows, ¬ p row = true := by
  unfold objectsGet at h
  split at h
  · rename_i hfound
    exact List.filter_eq_nil_iff.mp hfound
  · cases h
  · cases h

section
variable {Key : Type} {key : Row → Key}

/-- Of rows with different keys, no two have one key. -/
theorem filter_length_le_one {rows : List Row} (hnodup : (rows.map key).Nodup) {p : Row → Bool}
    (hkey : ∀ row row', p row = true → p row' = true → key row = key row') :
    (rows.filter p).length ≤ 1 := by
  have hkeys : ((rows.filter p).map key).Nodup :=
    hnodup.sublist (List.filter_sublist.map key)
  match hfound : rows.filter p with
  | [] => exact Nat.zero_le _
  | [_] => exact Nat.le_refl _
  | row :: row' :: rest =>
      rw [hfound, List.map_cons, List.map_cons, List.nodup_cons] at hkeys
      have hmem : ∀ found ∈ row :: row' :: rest, p found = true := fun found h =>
        (List.mem_filter.mp (hfound ▸ h)).2
      have heq : key row = key row' :=
        hkey row row' (hmem row List.mem_cons_self)
          (hmem row' (List.mem_cons_of_mem _ List.mem_cons_self))
      exact absurd (heq ▸ List.mem_cons_self) hkeys.1

/-- Of rows with different keys, the look-up by the key finds no second one. -/
theorem objectsGet_ne_multiple {rows : List Row} (hnodup : (rows.map key).Nodup)
    {p : Row → Bool} (hkey : ∀ row row', p row = true → p row' = true → key row = key row') :
    objectsGet rows p ≠ .error .multipleObjectsReturned := by
  have hlength := filter_length_le_one hnodup hkey
  unfold objectsGet
  match hfound : rows.filter p with
  | [] => simp
  | [_] => simp
  | _ :: _ :: rest =>
      rw [hfound, List.length_cons, List.length_cons] at hlength
      omega

/-- Of rows with different keys, the look-up by the key finds the row with the key. -/
theorem objectsGet_eq_ok_of_nodup {rows : List Row} (hnodup : (rows.map key).Nodup)
    {p : Row → Bool} (hkey : ∀ row row', p row = true → p row' = true → key row = key row')
    {row : Row} (hmem : row ∈ rows) (hrow : p row = true) : objectsGet rows p = .ok row := by
  have hlength := filter_length_le_one hnodup hkey
  have hfilter : row ∈ rows.filter p := List.mem_filter.mpr ⟨hmem, hrow⟩
  unfold objectsGet
  match hfound : rows.filter p with
  | [] =>
      rw [hfound] at hfilter
      exact absurd hfilter List.not_mem_nil
  | [found] =>
      rw [hfound] at hfilter
      rw [List.mem_singleton.mp hfilter]
  | _ :: _ :: rest =>
      rw [hfound, List.length_cons, List.length_cons] at hlength
      omega

end

end Onadata.Lib
