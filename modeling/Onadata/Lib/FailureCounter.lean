import Mathlib.Data.List.Basic
import Mathlib.Logic.Function.Basic

/-!
# `Onadata.Lib.FailureCounter`: attempts that are counted under keys

Attempts are counted under keys, and an attempt is refused when as many as the threshold were made
under its key. An attempt without a key is neither counted nor refused.

`refusals_drop_iff`: all attempts after the first ones are refused exactly when there are no others,
or all are made under one key and the threshold is reached.
-/

set_option autoImplicit false

namespace Onadata.Lib

section
variable {Key : Type} [DecidableEq Key]

/-- The counts with one more attempt under the key. -/
def countOne (counts : Key → Nat) (key : Key) : Key → Nat :=
  Function.update counts key (counts key + 1)

@[simp]
theorem countOne_self (counts : Key → Nat) (key : Key) :
    countOne counts key key = counts key + 1 :=
  Function.update_self _ _ _

theorem countOne_of_ne {counts : Key → Nat} {key key' : Key} (h : key' ≠ key) :
    countOne counts key key' = counts key' :=
  Function.update_of_ne h _ _

/-- Which attempts are refused. -/
def refusals (threshold : Nat) : (Key → Nat) → List (Option Key) → List Bool
  | _, [] => []
  | counts, none :: keys => false :: refusals threshold counts keys
  | counts, some key :: keys =>
      if threshold ≤ counts key then true :: refusals threshold counts keys
      else false :: refusals threshold (countOne counts key) keys

/-- The counts after the attempts. -/
def countsAfter (threshold : Nat) : (Key → Nat) → List (Option Key) → Key → Nat
  | counts, [] => counts
  | counts, none :: keys => countsAfter threshold counts keys
  | counts, some key :: keys =>
      if threshold ≤ counts key then countsAfter threshold counts keys
      else countsAfter threshold (countOne counts key) keys

variable {threshold : Nat}

/-- An attempt with a key. -/
theorem refusals_some (counts : Key → Nat) (key : Key) (keys : List (Option Key)) :
    refusals threshold counts (some key :: keys) =
      if threshold ≤ counts key then true :: refusals threshold counts keys
      else false :: refusals threshold (countOne counts key) keys := rfl

theorem countsAfter_some (counts : Key → Nat) (key : Key) (keys : List (Option Key)) :
    countsAfter threshold counts (some key :: keys) =
      if threshold ≤ counts key then countsAfter threshold counts keys
      else countsAfter threshold (countOne counts key) keys := rfl

@[simp]
theorem length_refusals (counts : Key → Nat) (keys : List (Option Key)) :
    (refusals threshold counts keys).length = keys.length := by
  induction keys generalizing counts with
  | nil => rfl
  | cons key keys ih =>
      cases key with
      | none => simp [refusals, ih]
      | some key =>
          rw [refusals_some]
          split <;> simp [ih]

theorem refusals_append (counts : Key → Nat) (keys keys' : List (Option Key)) :
    refusals threshold counts (keys ++ keys') =
      refusals threshold counts keys ++
        refusals threshold (countsAfter threshold counts keys) keys' := by
  induction keys generalizing counts with
  | nil => rfl
  | cons key keys ih =>
      cases key with
      | none =>
          show false :: refusals threshold counts (keys ++ keys') = _
          rw [ih]
          rfl
      | some key =>
          rw [List.cons_append, refusals_some, refusals_some, countsAfter_some]
          split
          · rw [ih]
            rfl
          · rw [ih]
            rfl

/-- At most the attempts under a key are counted under it. -/
theorem countsAfter_le (counts : Key → Nat) (keys : List (Option Key)) (key : Key) :
    countsAfter threshold counts keys key ≤ counts key + keys.count (some key) := by
  induction keys generalizing counts with
  | nil => exact Nat.le_add_right _ _
  | cons other keys ih =>
      cases other with
      | none =>
          have hnext := ih counts
          rw [List.count_cons_of_ne (by simp)]
          exact hnext
      | some other =>
          rw [countsAfter_some]
          by_cases hkey : other = key
          · rw [hkey, List.count_cons_self]
            split
            · have hnext := ih counts
              omega
            · have hnext := ih (countOne counts key)
              rw [countOne_self] at hnext
              omega
          · rw [List.count_cons_of_ne (by simpa using hkey)]
            split
            · exact ih counts
            · have hnext := ih (countOne counts other)
              rw [countOne_of_ne fun h => hkey h.symm] at hnext
              exact hnext

/-- Attempts under one key are counted, up to the threshold. -/
theorem countsAfter_single {counts : Key → Nat} {keys : List (Option Key)} {key : Key}
    (h : ∀ other ∈ keys, other = some key) :
    min threshold (counts key + keys.length) ≤ countsAfter threshold counts keys key := by
  induction keys generalizing counts with
  | nil => exact Nat.min_le_right _ _
  | cons other keys ih =>
      rw [List.forall_mem_cons] at h
      rw [h.1, countsAfter_some, List.length_cons]
      split
      · have hnext := @ih counts h.2
        omega
      · have hnext := @ih (countOne counts key) h.2
        rw [countOne_self] at hnext
        omega

/-- Where only one key has reached the threshold, all attempts are refused exactly when they are
made under it. -/
theorem refusals_saturated_iff (hpos : 0 < threshold) {counts : Key → Nat} {key : Key}
    (hkey : threshold ≤ counts key) (hother : ∀ other, other ≠ key → counts other = 0)
    (keys : List (Option Key)) :
    (∀ refused ∈ refusals threshold counts keys, refused = true) ↔
      ∀ other ∈ keys, other = some key := by
  induction keys with
  | nil => simp [refusals]
  | cons other keys ih =>
      cases other with
      | none => simp [refusals]
      | some other =>
          rw [refusals]
          by_cases heq : other = key
          · rw [heq, if_pos hkey, List.forall_mem_cons, List.forall_mem_cons, ih]
            simp
          · have hlow : ¬threshold ≤ counts other := by
              rw [hother other heq]
              omega
            rw [if_neg hlow, List.forall_mem_cons, List.forall_mem_cons]
            simp [heq]

/-- All attempts after the first ones are refused exactly when there are no others, or all are made
under one key and the first ones reach the threshold. -/
theorem refusals_drop_iff (hpos : 0 < threshold) {limit : Nat} (hle : limit ≤ threshold)
    (keys : List (Option Key)) :
    (∀ refused ∈ (refusals threshold (fun _ => 0) keys).drop limit, refused = true) ↔
      keys.length ≤ limit ∨ (threshold ≤ limit ∧ ∃ key, ∀ other ∈ keys, other = some key) := by
  by_cases hshort : keys.length ≤ limit
  · rw [List.drop_eq_nil_of_le (by rw [length_refusals]; exact hshort)]
    simp [hshort]
  · have hsplit : (refusals threshold (fun _ => 0) keys).drop limit =
        refusals threshold (countsAfter threshold (fun _ => 0) (keys.take limit))
          (keys.drop limit) := by
      conv_lhs => rw [← List.take_append_drop limit keys, refusals_append]
      refine List.drop_left' ?_
      rw [length_refusals, List.length_take]
      omega
    have hlength : (keys.take limit).length = limit := by
      rw [List.length_take]
      omega
    have hcount : ∀ key, countsAfter threshold (fun _ => 0) (keys.take limit) key ≤
        (keys.take limit).count (some key) := by
      intro key
      have hbound := @countsAfter_le _ _ threshold (fun _ => 0) (keys.take limit) key
      omega
    -- under another key than theirs, the first attempts count nothing
    have hother : ∀ key, (∀ other ∈ keys.take limit, other = some key) → ∀ other, other ≠ key →
        countsAfter threshold (fun _ => 0) (keys.take limit) other = 0 := by
      intro key hall other hne
      have hzero : (keys.take limit).count (some other) = 0 := by
        rw [List.count_eq_zero]
        intro hmem
        exact hne (Option.some.inj (hall _ hmem))
      have hbound := hcount other
      omega
    rw [hsplit]
    constructor
    · intro hrefused
      refine Or.inr ?_
      -- the first of the others is refused, so all before it were made under its key
      cases hdrop : keys.drop limit with
      | nil => exact absurd (List.drop_eq_nil_iff.mp hdrop) hshort
      | cons first rest =>
          rw [hdrop] at hrefused
          cases first with
          | none => exact absurd (hrefused false List.mem_cons_self) Bool.false_ne_true
          | some key =>
              have hreached :
                  threshold ≤ countsAfter threshold (fun _ => 0) (keys.take limit) key := by
                by_contra hlow
                rw [refusals, if_neg hlow] at hrefused
                exact absurd (hrefused false List.mem_cons_self) Bool.false_ne_true
              have hbound := hcount key
              have hmax : (keys.take limit).count (some key) ≤ (keys.take limit).length :=
                List.count_le_length
              have hall : ∀ other ∈ keys.take limit, other = some key := by
                have heq : (keys.take limit).count (some key) = (keys.take limit).length := by omega
                exact fun other hmem => (List.count_eq_length.mp heq other hmem).symm
              refine ⟨by omega, key, fun other hmem => ?_⟩
              rw [← List.take_append_drop limit keys, List.mem_append, hdrop] at hmem
              rcases hmem with hmem | hmem
              · exact hall other hmem
              · exact (refusals_saturated_iff hpos hreached (hother key hall) _).mp hrefused other
                  hmem
    · rintro (h | ⟨hreach, key, hall⟩)
      · exact absurd h hshort
      · have hfirst : ∀ other ∈ keys.take limit, other = some key :=
          fun other hmem => hall other (List.mem_of_mem_take hmem)
        have hmany := @countsAfter_single _ _ threshold (fun _ => 0) _ _ hfirst
        rw [hlength] at hmany
        refine (refusals_saturated_iff hpos (by omega) (hother key hfirst) _).mpr ?_
        exact fun other hmem => hall other (List.mem_of_mem_drop hmem)

end

end Onadata.Lib
