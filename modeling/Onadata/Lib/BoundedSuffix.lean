import Onadata.Lib.PyText

/-!
# `Onadata.Lib.BoundedSuffix`: suffixes of texts with a maximum length

A suffix is appended to a text if the result is not too long, and cut off again later. Older
versions cut the result at the maximum length, so a text of that length can end with only a start
of the suffix.

* `stripWithin_appendWithin_iff`: exactly which texts come back.
-/

set_option autoImplicit false

namespace Onadata.Lib

/-- The text with the suffix, if there is room for it. -/
@[irreducible] def appendWithin (limit : Nat) (suffix value : String) : String :=
  if value.length + suffix.length ≤ limit then value ++ suffix else value

/-- The text without the suffix, or without the longest start of the suffix at its end if it has
the maximum length. -/
@[irreducible] def stripWithin (limit : Nat) (suffix value : String) : String :=
  if endsWith value suffix then dropEnd value suffix.length
  else if value.length = limit then
    match (List.range' 1 (suffix.length - 1)).reverse.find? fun length =>
        endsWith value (takeStart suffix length) with
    | some length => dropEnd value length
    | none => value
  else value

/-- A text that comes back: it leaves room for the suffix, or it does not end with the suffix and,
at the maximum length, not with a start of it either. -/
def ReturnsWithin (limit : Nat) (suffix value : String) : Prop :=
  value.length + suffix.length ≤ limit ∨
    (endsWith value suffix = false ∧
      (value.length = limit →
        ∀ n, 0 < n → n < suffix.length → endsWith value (takeStart suffix n) = false))

section
variable {limit : Nat} {suffix : String}

/-- The text with the suffix is too long exactly when the text is. -/
theorem length_appendWithin_le (suffix : String) {value : String} :
    (appendWithin limit suffix value).length ≤ limit ↔ value.length ≤ limit := by
  rw [appendWithin]
  split
  · rw [String.length_append]
    omega
  · exact Iff.rfl

theorem length_stripWithin_le (suffix value : String) :
    (stripWithin limit suffix value).length ≤ value.length := by
  have hcut : ∀ n, (dropEnd value n).length ≤ value.length := by
    intro n
    rw [length_dropEnd]
    omega
  unfold stripWithin
  split
  · exact hcut _
  · split
    · split
      · exact hcut _
      · exact Nat.le_refl _
    · exact Nat.le_refl _

/-- A suffix that is cut off leaves the text as it was exactly when `ReturnsWithin` says so. -/
theorem stripWithin_appendWithin_iff (hne : 0 < suffix.length) (value : String) :
    stripWithin limit suffix (appendWithin limit suffix value) = value ↔
      ReturnsWithin limit suffix value := by
  by_cases hroom : value.length + suffix.length ≤ limit
  · simp [appendWithin, stripWithin, hroom, ReturnsWithin]
  · rw [appendWithin, if_neg hroom, ReturnsWithin, stripWithin]
    simp only [hroom, false_or]
    by_cases hend : endsWith value suffix = true
    · have hcut := dropEnd_ne hne (length_le_of_endsWith hend)
      simp [hend, hcut]
    · rw [if_neg hend]
      by_cases hmax : value.length = limit
      · rw [if_pos hmax]
        cases hfind : (List.range' 1 (suffix.length - 1)).reverse.find? fun length =>
            endsWith value (takeStart suffix length) with
        | none =>
            -- no start of the suffix is at the end
            have hnone : ∀ n, 0 < n → n < suffix.length →
                endsWith value (takeStart suffix n) = false := by
              intro n hpos hlt
              rw [List.find?_eq_none] at hfind
              have hmem : n ∈ (List.range' 1 (suffix.length - 1)).reverse := by
                rw [List.mem_reverse, List.mem_range'_1]
                omega
              simpa using hfind n hmem
            simpa [hend] using fun _ => hnone
        | some n =>
            have hmem := List.mem_of_find?_eq_some hfind
            rw [List.mem_reverse, List.mem_range'_1] at hmem
            have hfound : endsWith value (takeStart suffix n) = true := by
              simpa using List.find?_some hfind
            have hlength := length_le_of_endsWith hfound
            rw [length_takeStart (by omega)] at hlength
            have hcut := dropEnd_ne (show 0 < n by omega) hlength
            have hnot : ¬ ∀ n, 0 < n → n < suffix.length →
                endsWith value (takeStart suffix n) = false := by
              intro hall
              rw [hall n (by omega) (by omega)] at hfound
              cases hfound
            simp [hcut, hmax, hnot]
      · simp [hmax, hend]

end

end Onadata.Lib
