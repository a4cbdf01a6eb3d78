import Mathlib.Data.List.Nodup
import Mathlib.Data.List.Perm.Basic

/-!
# `Onadata.Lib.Grouping`: pairs grouped by their keys

A list of pairs can be gone through in its order, counting for each pair the earlier ones
with its key, or key by key. `flatMap_numberFrom_perm` says that both give the same, up to
the order.
-/

set_option autoImplicit false

namespace Onadata.Lib

variable {Key Value Result : Type} [DecidableEq Key]

/-- The values of a key, in order. -/
def valuesOf (pairs : List (Key × Value)) (key : Key) : List Value :=
  match pairs with
  | [] => []
  | pair :: rest => if pair.1 = key then pair.2 :: valuesOf rest key else valuesOf rest key

/-- Each pair with the number of earlier ones with its key. `seen` are the keys before the
list. -/
def numberFrom (seen : List Key) : List (Key × Value) → List (Key × Nat × Value)
  | [] => []
  | pair :: rest => (pair.1, seen.count pair.1, pair.2) :: numberFrom (pair.1 :: seen) rest

theorem valuesOf_nil (key : Key) : valuesOf ([] : List (Key × Value)) key = [] := rfl

theorem valuesOf_cons (pair : Key × Value) (rest : List (Key × Value)) (key : Key) :
    valuesOf (pair :: rest) key =
      if pair.1 = key then pair.2 :: valuesOf rest key else valuesOf rest key := rfl

/-- A key without pairs has no values. -/
theorem valuesOf_eq_nil {pairs : List (Key × Value)} {key : Key} :
    valuesOf pairs key = [] ↔ key ∉ pairs.map (·.1) := by
  induction pairs with
  | nil => simp [valuesOf_nil]
  | cons pair pairs ih =>
      by_cases h : pair.1 = key
      · simp [valuesOf_cons, h]
      · simp only [valuesOf_cons, if_neg h, ih, List.map_cons, List.mem_cons, not_or]
        exact ⟨fun hmem => ⟨Ne.symm h, hmem⟩, fun hmem => hmem.2⟩

/-- The number of values of a key. -/
theorem length_valuesOf (pairs : List (Key × Value)) (key : Key) :
    (valuesOf pairs key).length = (pairs.map (·.1)).count key := by
  induction pairs with
  | nil => rfl
  | cons pair pairs ih =>
      by_cases h : pair.1 = key
      · simp [valuesOf_cons, h, ih]
      · simp [valuesOf_cons, h, ih]

/-- The values of a key are values of pairs with it. -/
theorem mem_valuesOf {pairs : List (Key × Value)} {key : Key} {value : Value} :
    value ∈ valuesOf pairs key ↔ (key, value) ∈ pairs := by
  induction pairs with
  | nil => simp [valuesOf_nil]
  | cons pair pairs ih =>
      obtain ⟨key', value'⟩ := pair
      by_cases h : key' = key
      · simp [valuesOf_cons, h, ih]
      · simp [valuesOf_cons, h, ih, Ne.symm h]

/-- Different pairs have different values for a key. -/
theorem nodup_valuesOf {pairs : List (Key × Value)} (h : pairs.Nodup) (key : Key) :
    (valuesOf pairs key).Nodup := by
  induction pairs with
  | nil => exact List.nodup_nil
  | cons pair pairs ih =>
      rw [List.nodup_cons] at h
      rw [valuesOf_cons]
      split
      · rename_i hkey
        refine List.nodup_cons.mpr ⟨fun hmem => h.1 ?_, ih h.2⟩
        rw [← hkey] at hmem
        exact mem_valuesOf.mp hmem
      · exact ih h.2

/-- The values of a key after one more pair. -/
theorem valuesOf_append_singleton (pairs : List (Key × Value)) (pair : Key × Value)
    (key : Key) : valuesOf (pairs ++ [pair]) key =
      if pair.1 = key then valuesOf pairs key ++ [pair.2] else valuesOf pairs key := by
  induction pairs with
  | nil => simp [valuesOf_cons, valuesOf_nil]
  | cons first pairs ih =>
      rw [List.cons_append]
      simp only [valuesOf_cons, ih]
      by_cases h : first.1 = key
      · simp only [if_pos h]
        split
        · rfl
        · rfl
      · simp only [if_neg h]

/-- The values of a key when each pair gets a new value. -/
theorem valuesOf_map (g : Key → Value → Result) (pairs : List (Key × Value)) (key : Key) :
    valuesOf (pairs.map fun pair => (pair.1, g pair.1 pair.2)) key =
      (valuesOf pairs key).map (g key) := by
  induction pairs with
  | nil => rfl
  | cons pair pairs ih =>
      by_cases h : pair.1 = key
      · simp [valuesOf_cons, h, ih]
      · simp [valuesOf_cons, h, ih]

/-- Without the numbers, the pairs are gone through in order. -/
theorem flatMap_numberFrom (f : Value → List Result) (seen : List Key)
    (pairs : List (Key × Value)) :
    ((numberFrom seen pairs).flatMap fun item => f item.2.2) =
      pairs.flatMap fun pair => f pair.2 := by
  induction pairs generalizing seen with
  | nil => rfl
  | cons pair pairs ih =>
      rw [numberFrom, List.flatMap_cons, List.flatMap_cons, ih]

omit [DecidableEq Key] in
/-- What is put in front for one key comes in front of the whole, up to the order. -/
theorem flatMap_cons_perm {keys : List Key} (hnodup : keys.Nodup) {key : Key}
    (hmem : key ∈ keys) (first : List Result) (g g' : Key → List Result)
    (hkey : g key = first ++ g' key) (hother : ∀ other, other ≠ key → g other = g' other) :
    (keys.flatMap g).Perm (first ++ keys.flatMap g') := by
  induction keys with
  | nil => simp at hmem
  | cons head keys ih =>
      rw [List.nodup_cons] at hnodup
      rw [List.flatMap_cons, List.flatMap_cons]
      rcases List.mem_cons.mp hmem with rfl | hmem
      · have hrest : keys.flatMap g = keys.flatMap g' := by
          refine List.flatMap_congr fun other hother' => hother other ?_
          rintro rfl
          exact hnodup.1 hother'
        rw [hkey, hrest, List.append_assoc]
      · have hne : head ≠ key := by
          rintro rfl
          exact hnodup.1 hmem
        rw [hother head hne]
        refine ((ih hnodup.2 hmem).append_left (g' head)).trans ?_
        rw [← List.append_assoc, ← List.append_assoc]
        exact List.perm_append_comm.append_right _

/-- Going through the pairs in order is going through them key by key, up to the order. -/
theorem flatMap_numberFrom_perm (f : Key → Nat → Value → List Result) (seen : List Key)
    (pairs : List (Key × Value)) {keys : List Key} (hnodup : keys.Nodup)
    (hkeys : ∀ pair ∈ pairs, pair.1 ∈ keys) :
    ((numberFrom seen pairs).flatMap fun item => f item.1 item.2.1 item.2.2).Perm
      (keys.flatMap fun key =>
        ((valuesOf pairs key).zipIdx (seen.count key)).flatMap fun item =>
          f key item.2 item.1) := by
  induction pairs generalizing seen with
  | nil => simp [numberFrom, valuesOf_nil]
  | cons pair pairs ih =>
      rw [List.forall_mem_cons] at hkeys
      rw [numberFrom, List.flatMap_cons]
      refine ((ih (pair.1 :: seen) hkeys.2).append_left _).trans (List.Perm.symm ?_)
      refine flatMap_cons_perm hnodup hkeys.1 _ _ _ ?_ ?_
      · simp [valuesOf_cons, List.zipIdx_cons]
      · intro other hother
        simp [valuesOf_cons, Ne.symm hother]

end Onadata.Lib
