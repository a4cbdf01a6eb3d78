import Mathlib.Data.List.TakeWhile
import Onadata.Libs.Utils.ExportNames

/-!
# `Onadata.Proofs.Libs.Utils.ExportFilenames`: a free file name is found

A round of the loop either appends an index, and the name gets longer, or finds an index and counts
it up. In what comes out it finds the same index again (`matchIndex_increment`), so that the loop
never goes back, and no name comes twice (`Later`).

* `uniqueFilename_valid`: after at most as many rounds as there are used names, the name is free.
-/

set_option autoImplicit false

namespace Onadata.Proofs

open Onadata Onadata.Lib

section
variable {decimal : DecimalDigits}

/-! ### The index of a name -/

/-- The two groups are read, when the text has a digit, a dot and a character of the line. -/
theorem matchDigitsExt_append (digits ext : List Char)
    (hdigits : digits ≠ []) (hall : ∀ c ∈ digits, isDecimal decimal c = true) {c : Char}
    (hc : c ≠ '\n') (hext : ∀ c ∈ ext, c ≠ '\n') :
    matchDigitsExt decimal (digits ++ '.' :: c :: ext) = some (digits, '.' :: c :: ext) := by
  have hdot : isDecimal decimal '.' = false := by
    unfold isDecimal
    rw [decimal.value_dot]
    rfl
  have htake : (digits ++ '.' :: c :: ext).takeWhile (isDecimal decimal) = digits := by
    rw [List.takeWhile_append_of_pos hall, List.takeWhile_cons_of_neg (by simp [hdot]),
      List.append_nil]
  have hdrop : (digits ++ '.' :: c :: ext).dropWhile (isDecimal decimal) = '.' :: c :: ext := by
    rw [List.dropWhile_append_of_pos hall, List.dropWhile_cons_of_neg (by simp [hdot])]
  have hline : (c :: ext).takeWhile (· ≠ '\n') = c :: ext := by
    refine List.takeWhile_eq_self_iff.mpr fun c' hc' => ?_
    rcases List.mem_cons.mp hc' with rfl | hmem
    · simpa using hc
    · simpa using hext c' hmem
  unfold matchDigitsExt
  rw [hdrop, htake]
  show (if digits ≠ [] ∧ c ≠ '\n' then
    some (digits, '.' :: (c :: ext).takeWhile (· ≠ '\n')) else none) = _
  rw [if_pos ⟨hdigits, hc⟩, hline]

/-- What the groups are, when they are read. -/
theorem matchDigitsExt_eq_some {text digits ext : List Char}
    (h : matchDigitsExt decimal text = some (digits, ext)) :
    (∃ c rest, ext = '.' :: c :: rest ∧ c ≠ '\n' ∧ ∀ c ∈ rest, c ≠ '\n') ∧
      ∃ rest, text = digits ++ rest := by
  unfold matchDigitsExt at h
  split at h
  · rename_i c rest hdrop
    split at h
    · rename_i hif
      rw [Option.some.injEq, Prod.mk.injEq] at h
      obtain ⟨rfl, rfl⟩ := h
      refine ⟨⟨c, rest.takeWhile (· ≠ '\n'), ?_, hif.2, fun c' hc' => ?_⟩,
        text.dropWhile (isDecimal decimal), List.takeWhile_append_dropWhile.symm⟩
      · rw [List.takeWhile_cons_of_pos (by simpa using hif.2)]
      · simpa using List.mem_takeWhile_imp hc'
    · cases h
  · cases h

/-- No dot stands behind the digits. -/
theorem matchDigitsExt_of_ne {text after : List Char} {c : Char}
    (hdrop : text.dropWhile (isDecimal decimal) = c :: after) (hc : c ≠ '.') :
    matchDigitsExt decimal text = none := by
  unfold matchDigitsExt
  rw [hdrop]
  split
  · rename_i heq
    cases heq
    exact absurd rfl hc
  · rfl

/-- Whether the groups are read does not depend on what stands behind a dash. -/
theorem matchDigitsExt_isSome_append (start rest rest' : List Char) :
    (matchDigitsExt decimal (start ++ '-' :: rest)).isSome =
      (matchDigitsExt decimal (start ++ '-' :: rest')).isSome := by
  have hdash : isDecimal decimal '-' = false := by
    unfold isDecimal
    rw [decimal.value_dash]
    rfl
  have htake : ∀ rest, (start ++ '-' :: rest).takeWhile (isDecimal decimal) =
      start.takeWhile (isDecimal decimal) := by
    intro rest
    induction start with
    | nil => rw [List.nil_append, List.takeWhile_cons_of_neg (by simp [hdash]), List.takeWhile_nil]
    | cons c start ih =>
        rw [List.cons_append, List.takeWhile_cons, List.takeWhile_cons, ih]
  have hdrop : ∀ rest, (start ++ '-' :: rest).dropWhile (isDecimal decimal) =
      start.dropWhile (isDecimal decimal) ++ '-' :: rest := by
    intro rest
    clear htake
    induction start with
    | nil => rw [List.nil_append, List.dropWhile_cons_of_neg (by simp [hdash]), List.dropWhile_nil,
        List.nil_append]
    | cons c start ih =>
        rw [List.cons_append, List.dropWhile_cons, List.dropWhile_cons, ih]
        split <;> rfl
  -- the dot and the character behind it stand before the dash, or one of them is it
  cases hafter : start.dropWhile (isDecimal decimal) with
  | nil =>
      rw [hafter] at hdrop
      rw [matchDigitsExt_of_ne (hdrop rest) (by decide),
        matchDigitsExt_of_ne (hdrop rest') (by decide)]
  | cons c after =>
      rw [hafter] at hdrop
      by_cases hc : c = '.'
      · subst hc
        unfold matchDigitsExt
        rw [htake, htake, hdrop, hdrop]
        cases after with
        | nil =>
            show Option.isSome (if _ ∧ '-' ≠ '\n' then some _ else none) =
              Option.isSome (if _ ∧ '-' ≠ '\n' then some _ else none)
            split <;> rfl
        | cons c' after =>
            show Option.isSome (if _ ∧ c' ≠ '\n' then some _ else none) =
              Option.isSome (if _ ∧ c' ≠ '\n' then some _ else none)
            split <;> rfl
      · rw [matchDigitsExt_of_ne (hdrop rest) hc, matchDigitsExt_of_ne (hdrop rest') hc]

/-- The shape of a name with an index, and that another index is found in its place. -/
theorem matchIndex_replace {before text basename digits ext : List Char}
    (h : matchIndex decimal before text = some (basename, digits, ext)) {digits' : List Char}
    (hdigits : digits' ≠ []) (hall : ∀ c ∈ digits', isDecimal decimal c = true) :
    ∃ start tail, text = start ++ '-' :: tail ∧ basename = before ++ start ∧
      matchIndex decimal before (start ++ '-' :: (digits' ++ ext)) =
        some (basename, digits', ext) := by
  induction text generalizing before with
  | nil => cases h
  | cons c rest ih =>
      unfold matchIndex at h
      cases hhere : (if before ≠ [] ∧ c = '-' then matchDigitsExt decimal rest else none) with
      | some found =>
          -- the index is found here
          obtain ⟨digits'', ext''⟩ := found
          rw [hhere] at h
          cases h
          split at hhere
          · rename_i hif
            obtain ⟨⟨c', ext', rfl, hc', hext'⟩, -⟩ := matchDigitsExt_eq_some hhere
            refine ⟨[], rest, by rw [hif.2, List.nil_append], (List.append_nil _).symm, ?_⟩
            have hread := matchDigitsExt_append digits' ext' hdigits hall hc' hext'
            show matchIndex decimal basename ('-' :: (digits' ++ '.' :: c' :: ext')) = _
            unfold matchIndex
            rw [if_pos ⟨hif.1, rfl⟩, hread]
          · cases hhere
      | none =>
          -- it is found behind, and the character here does not start one with the new digits
          rw [hhere] at h
          change (if c = '\n' then none else matchIndex decimal (before ++ [c]) rest) = _ at h
          split at h
          · cases h
          · rename_i hline
            obtain ⟨start, tail, rfl, hbasename, hfound⟩ := ih h
            refine ⟨c :: start, tail, rfl, by rw [hbasename, List.append_assoc]; rfl, ?_⟩
            have hnone : (if before ≠ [] ∧ c = '-' then
                matchDigitsExt decimal (start ++ '-' :: (digits' ++ ext)) else none) = none := by
              split at hhere
              · rename_i hif
                have hsome := @matchDigitsExt_isSome_append decimal start (digits' ++ ext) tail
                rw [hhere] at hsome
                rw [if_pos hif]
                exact Option.isSome_eq_false_iff.mp hsome |> Option.isNone_iff_eq_none.mp
              · rename_i hif
                exact if_neg hif
            show matchIndex decimal before (c :: (start ++ '-' :: (digits' ++ ext))) = _
            unfold matchIndex
            rw [hnone]
            show (if c = '\n' then none else matchIndex decimal (before ++ [c])
              (start ++ '-' :: (digits' ++ ext))) = _
            rw [if_neg hline, hfound]

/-! ### The rounds -/

/-- The index in a name. -/
def nameIndex (decimal : DecimalDigits) (filename : String) : Option Nat :=
  (matchIndex decimal [] filename.toList).map fun groups => intOfDigits decimal groups.2.1

theorem isDecimal_of_mem_number {n : Nat} {c : Char} (hc : c ∈ (toString n).toList) :
    isDecimal decimal c = true := by
  unfold isDecimal
  rw [decimal.value_of_isDigit c (isDigit_of_mem_number hc)]
  rfl

/-- `int` reads the digits of a number. -/
theorem intOfDigits_number (n : Nat) : intOfDigits decimal (toString n).toList = n := by
  have hdigits : ∀ chars : List Char, (∀ c ∈ chars, c.isDigit = true) → ∀ m,
      chars.foldl (fun n c => 10 * n + (decimal.value c).getD 0) m =
        Nat.ofDigitChars 10 chars m := by
    intro chars
    induction chars with
    | nil => exact fun _ _ => rfl
    | cons c chars ih =>
        intro hall m
        rw [List.foldl_cons, decimal.value_of_isDigit c (hall c List.mem_cons_self),
          ih (fun c' hc' => hall c' (List.mem_cons_of_mem _ hc')), Nat.ofDigitChars_cons]
        rfl
  unfold intOfDigits
  rw [hdigits _ (fun c hc => isDigit_of_mem_number hc), toList_number,
    Nat.ofDigitChars_ten_toDigits]

/-- A name with an index gets the next one. -/
theorem nameIndex_increment {filename : String} {n : Nat}
    (h : nameIndex decimal filename = some n) :
    nameIndex decimal (incrementIndexInFilename decimal filename) = some (n + 1) := by
  unfold nameIndex at h
  obtain ⟨⟨basename, digits, ext⟩, hmatch, rfl⟩ := Option.map_eq_some_iff.mp h
  obtain ⟨start, -, -, rfl, hnext⟩ := @matchIndex_replace _ _ _ _ _ _ hmatch
    (toString (intOfDigits decimal digits + 1)).toList (number_ne_nil _)
    fun c hc => isDecimal_of_mem_number hc
  unfold nameIndex incrementIndexInFilename
  rw [hmatch]
  simp only [String.toList_ofList]
  rw [List.append_assoc, List.cons_append, hnext]
  show some (intOfDigits decimal (toString (intOfDigits decimal digits + 1)).toList) = _
  rw [intOfDigits_number]

/-- A name without an index gets longer. -/
theorem length_increment {filename : String} (h : nameIndex decimal filename = none) :
    filename.length < (incrementIndexInFilename decimal filename).length := by
  have hnone : matchIndex decimal [] filename.toList = none := Option.map_eq_none_iff.mp h
  unfold incrementIndexInFilename
  have hsplit := congrArg List.length
    (List.take_append_drop (extensionStart filename.toList) filename.toList)
  rw [List.length_append] at hsplit
  rw [hnone, ← String.length_toList, ← String.length_toList]
  simp only [String.toList_ofList, List.length_append, List.length_cons]
  omega

/-- A name of a later round. -/
def Later (decimal : DecimalDigits) (before after : String) : Prop :=
  match nameIndex decimal before, nameIndex decimal after with
  | none, none => before.length < after.length
  | none, some _ => True
  | some n, some m => n < m
  | some _, none => False

theorem later_increment (filename : String) :
    Later decimal filename (incrementIndexInFilename decimal filename) := by
  unfold Later
  cases hindex : nameIndex decimal filename with
  | some n =>
      rw [nameIndex_increment hindex]
      exact Nat.lt_succ_self n
  | none =>
      cases hnext : nameIndex decimal (incrementIndexInFilename decimal filename) with
      | none => exact length_increment hindex
      | some m => trivial

theorem Later.trans {first second third : String} (h : Later decimal first second)
    (h' : Later decimal second third) : Later decimal first third := by
  unfold Later at *
  cases hfirst : nameIndex decimal first <;> cases hsecond : nameIndex decimal second <;>
    cases hthird : nameIndex decimal third <;> simp only [hfirst, hsecond, hthird] at h h' ⊢
  · exact Nat.lt_trans h h'
  · exact Nat.lt_trans h h'

theorem Later.ne {before after : String} (h : Later decimal before after) : before ≠ after := by
  rintro rfl
  unfold Later at h
  cases hindex : nameIndex decimal before with
  | none =>
      simp only [hindex] at h
      exact Nat.lt_irrefl _ h
  | some n =>
      simp only [hindex] at h
      exact Nat.lt_irrefl _ h

/-- The names of the rounds differ. -/
theorem searchState_increment_ne (filename : String) {m n : Nat} (h : m < n) :
    searchState (incrementIndexInFilename decimal) filename m ≠
      searchState (incrementIndexInFilename decimal) filename n := by
  refine @Later.ne decimal _ _ ?_
  obtain ⟨k, rfl⟩ := Nat.exists_eq_add_of_lt h
  induction k with
  | zero =>
      rw [Nat.add_zero, searchState_succ]
      exact later_increment _
  | succ k ih =>
      have hstep := ih (by omega)
      rw [show m + (k + 1) + 1 = (m + k + 1) + 1 by omega, searchState_succ]
      exact hstep.trans (later_increment _)

theorem searchState_increment_injective (filename : String) :
    Function.Injective (searchState (incrementIndexInFilename decimal) filename) := by
  intro m n heq
  rcases Nat.lt_trichotomy m n with hlt | heq' | hgt
  · exact absurd heq (searchState_increment_ne filename hlt)
  · exact heq'
  · exact absurd heq.symm (searchState_increment_ne filename hgt)

/-- The loop ends after at most as many rounds as there are used names, with the first name of a
round that is free. -/
theorem uniqueFilename_valid (used : List String) (filename : String) {rounds : Nat}
    (hrounds : used.dedup.length < rounds) :
    ∃ n ≤ used.dedup.length, uniqueFilename decimal rounds used filename =
        some (searchState (incrementIndexInFilename decimal) filename n) ∧
      searchState (incrementIndexInFilename decimal) filename n ∉ used ∧
      ∀ k < n, searchState (incrementIndexInFilename decimal) filename k ∈ used := by
  obtain ⟨n, hn, hfree⟩ := exists_unused used
    (searchState (incrementIndexInFilename decimal) filename)
    (Nat.lt_succ_self used.dedup.length)
    fun m _ n _ heq => searchState_increment_injective filename heq
  obtain ⟨k, hk, hunused, hfound⟩ := @exists_searchUnused _
    (fun name => decide (name ∈ used)) (incrementIndexInFilename decimal) filename n
    (decide_eq_false hfree)
  have hmore := searchUnused_mono (show n + 1 ≤ rounds by omega) hfound
  refine ⟨k, by omega, hmore, of_decide_eq_false hunused, fun j hj => ?_⟩
  obtain ⟨k', -, heq, -, hbefore⟩ := searchUnused_eq_some.mp hfound
  exact of_decide_eq_true (hbefore j (searchState_increment_injective filename heq ▸ hj))

end

/-- The digits of ASCII. -/
def asciiDigits : DecimalDigits where
  value c := if c.isDigit then some (c.toNat - '0'.toNat) else none
  value_of_isDigit _ hc := if_pos hc
  value_dash := rfl
  value_dot := rfl

/-- The loop goes past an index of the form, and past a free number before it. -/
theorem uniqueFilename_valid_visits :
    ∃ n ≤ (["visits.csv", "visits-1.csv"] : List String).dedup.length,
      uniqueFilename asciiDigits 3 ["visits.csv", "visits-1.csv"] "visits.csv" =
          some (searchState (incrementIndexInFilename asciiDigits) "visits.csv" n) ∧
        searchState (incrementIndexInFilename asciiDigits) "visits.csv" n ∉
          (["visits.csv", "visits-1.csv"] : List String) ∧
        ∀ k < n, searchState (incrementIndexInFilename asciiDigits) "visits.csv" k ∈
          (["visits.csv", "visits-1.csv"] : List String) :=
  uniqueFilename_valid _ "visits.csv" (by decide)

end Onadata.Proofs
