import Mathlib.Order.Compare
import Mathlib.Tactic.Common

/-!
# `Onadata.Lib.LexicographicOrder`: rows compared by several keys

The first key that tells two rows apart decides. Keys that order all rows alike read alike: a key
that only one of two lists has, tells rows apart that the other list does not
(`exists_lexicographic_ne`).
-/

set_option autoImplicit false

namespace Onadata.Lib

variable {Row : Type}

/-- The order of two rows by the first key that tells them apart. -/
def lexicographic (keys : List (Row → Row → Ordering)) (a b : Row) : Ordering :=
  keys.foldr (fun key later => (key a b).then later) .eq

@[simp]
theorem lexicographic_cons (key : Row → Row → Ordering) (keys : List (Row → Row → Ordering))
    (a b : Row) :
    lexicographic (key :: keys) a b = (key a b).then (lexicographic keys a b) := rfl

/-- Rows are alike when no key tells them apart. -/
theorem lexicographic_eq_iff {keys : List (Row → Row → Ordering)} {a b : Row} :
    lexicographic keys a b = .eq ↔ ∀ key ∈ keys, key a b = .eq := by
  induction keys with
  | nil => exact iff_of_true rfl fun key hkey => absurd hkey List.not_mem_nil
  | cons key keys ih =>
      rw [lexicographic_cons, Ordering.then_eq_eq, ih, List.forall_mem_cons]

/-- A key that tells two rows apart, where none of the other list does. -/
theorem exists_lexicographic_ne {keys others : List (Row → Row → Ordering)}
    {key : Row → Row → Ordering} (hkey : key ∈ keys) {a b : Row} (hne : key a b ≠ .eq)
    (hothers : ∀ other ∈ others, other a b = .eq) :
    lexicographic others a b ≠ lexicographic keys a b := by
  rw [lexicographic_eq_iff.mpr hothers]
  intro heq
  exact hne (lexicographic_eq_iff.mp heq.symm key hkey)

end Onadata.Lib
