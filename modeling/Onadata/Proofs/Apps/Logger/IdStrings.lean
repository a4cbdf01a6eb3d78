import Onadata.Apps.Logger.Models.IdStrings
import Onadata.Lib.PyText

/-!
# `Onadata.Proofs.Apps.Logger.IdStrings`: what `get_unique_id_string` finds

From the second call on, the last number is replaced by the next one if `\w+_\d+$` matches the
id_string, and else the next number is appended. The pattern matches `base_n` when `base` is not
empty and has only word characters (`endsWithNumber_iff`). So the numbers of an id_string with a
hyphen or a dot pile up: `my-form`, `my-form_1`, `my-form_1_2`.

* `getUniqueIdString_new`: with enough nested calls, an id_string that is new is returned.
* `findsFreshId_iff`: when it is the requested one, or the requested one with a number.
-/

set_option autoImplicit false

namespace Onadata.Proofs

open Onadata.Lib

/-! ### The pattern and the last part -/

theorem toList_numbered (base : String) (n : Nat) :
    (base ++ "_" ++ toString n).toList = base.toList ++ '_' :: (toString n).toList := by
  rw [String.toList_append, String.toList_append, List.append_assoc]
  rfl

/-- A number does not hold an underscore. -/
theorem underscore_notMem_number (n : Nat) : '_' ∉ (toString n).toList :=
  notMem_number (by decide) n

section
variable (rules : IdStringRules)

/-- An id_string whose number the pattern finds. -/
def IsNumberable (base : String) : Prop :=
  base ≠ "" ∧ ∀ c ∈ base.toList, rules.isWord c = true

instance (base : String) : Decidable (IsNumberable rules base) :=
  have : Decidable (∀ c ∈ base.toList, rules.isWord c = true) := List.decidableBAll _ _
  inferInstanceAs (Decidable (_ ∧ _))

variable {rules}

/-- Without a newline at its end, a text with a number is looked at as it is. -/
theorem not_newline_numbered (base : String) (n : Nat) :
    (base ++ "_" ++ toString n).toList.getLast? ≠ some '\n' := by
  rw [toList_numbered, List.getLast?_append, List.getLast?_cons]
  intro hlast
  have hne := number_ne_nil n
  have hlast : (toString n).toList.getLast hne = '\n' := by
    rw [List.getLast?_eq_some_getLast hne] at hlast
    simpa using hlast
  have hdigit := isDigit_of_mem_number (hlast ▸ List.getLast_mem hne)
  revert hdigit
  decide

/-- The pattern matches a numbered id_string when the part before the number is not empty and has
only word characters. -/
theorem endsWithNumber_iff (base : String) (n : Nat) :
    endsWithNumber rules (base ++ "_" ++ toString n) = true ↔ IsNumberable rules base := by
  unfold endsWithNumber
  simp only [not_newline_numbered, if_false, List.any_eq_true, List.mem_range, Bool.and_eq_true,
    decide_eq_true_eq, beq_iff_eq, List.all_eq_true]
  rw [toList_numbered]
  constructor
  · rintro ⟨k, -, ⟨⟨⟨hpos, hword⟩, hmark⟩, hmore⟩, hdecimal⟩
    -- the underscore that the pattern finds is the last one
    have hk : k = base.toList.length := by
      rcases Nat.lt_trichotomy k base.toList.length with hlt | heq | hgt
      · have hmem : '_' ∈ (base.toList ++ '_' :: (toString n).toList).drop (k + 1) := by
          rw [List.drop_append_of_le_length (by omega)]
          exact List.mem_append_right _ List.mem_cons_self
        have hunderscore := hdecimal '_' hmem
        rw [rules.not_isDecimal_underscore] at hunderscore
        cases hunderscore
      · exact heq
      · rw [List.getElem?_append_right (by omega)] at hmark
        obtain ⟨j, hj⟩ : ∃ j, k - base.toList.length = j + 1 :=
          ⟨k - base.toList.length - 1, by omega⟩
        rw [hj, List.getElem?_cons_succ] at hmark
        exact absurd (List.mem_of_getElem? hmark) (underscore_notMem_number n)
    subst hk
    rw [List.take_left] at hword
    refine ⟨?_, hword⟩
    rintro rfl
    exact absurd hpos (by decide)
  · rintro ⟨hne, hword⟩
    have hlength : 0 < base.toList.length :=
      List.length_pos_iff.mpr fun hnil => hne (String.toList_eq_nil_iff.mp hnil)
    have hnumber := List.length_pos_iff.mpr (number_ne_nil n)
    have hdrop : (base.toList ++ '_' :: (toString n).toList).drop (base.toList.length + 1) =
        (toString n).toList := by
      rw [← List.drop_drop, List.drop_left]
      rfl
    refine ⟨base.toList.length, ?_, ⟨⟨⟨hlength, ?_⟩, ?_⟩, ?_⟩, ?_⟩
    · rw [List.length_append, List.length_cons]
      omega
    · rw [List.take_left]
      exact hword
    · rw [List.getElem?_append_right (Nat.le_refl _), Nat.sub_self]
      rfl
    · rw [List.length_append, List.length_cons]
      omega
    · rw [hdrop]
      exact fun c hc => rules.isDecimal_digit c (isDigit_of_mem_number hc)

/-- The number is taken away. -/
theorem withoutLastPart_numbered (base : String) (n : Nat) :
    withoutLastPart (base ++ "_" ++ toString n) = base := by
  have hmark : "_".toList = ['_'] := by decide
  have hlast : splitItems ['_'] 0 (toString n).toList = [(toString n).toList] := by
    refine splitItems_last fun hinside => ?_
    exact underscore_notMem_number n ((List.singleton_sublist).mp (List.IsInfix.sublist hinside))
  have hparts : splitText "_" (base ++ "_" ++ toString n) =
      splitText "_" base ++ [toString n] := by
    unfold splitText
    rw [toList_numbered, hmark, splitItems_append_cons, hlast, List.map_append,
      List.map_singleton, String.ofList_toList]
  unfold withoutLastPart
  rw [hparts, List.dropLast_concat]
  exact intercalate_splitText (by decide) base

/-! ### The calls -/

/-- The arguments after `n` calls. -/
def idStringCall (rules : IdStringRules) (requested : String) (n : Nat) : String × Nat :=
  searchState (nextIdString rules) (requested, 0) n

theorem idStringCall_succ (requested : String) (n : Nat) :
    idStringCall rules requested (n + 1) = nextIdString rules (idStringCall rules requested n) :=
  searchState_succ _ n

/-- The first call appends a number. -/
theorem idStringCall_one (requested : String) :
    idStringCall rules requested 1 = (requested ++ "_" ++ toString 1, 1) := by
  rw [idStringCall_succ]
  rfl

/-- A later call replaces the number that the pattern finds. -/
theorem nextIdString_numberable {base : String} (hbase : IsNumberable rules base) (n : Nat) :
    nextIdString rules (base ++ "_" ++ toString (n + 1), n + 1) =
      (base ++ "_" ++ toString (n + 1 + 1), n + 1 + 1) := by
  have hends : n + 1 ≠ 0 ∧ endsWithNumber rules (base ++ "_" ++ toString (n + 1)) = true :=
    ⟨by omega, (endsWithNumber_iff base (n + 1)).mpr hbase⟩
  simp only [nextIdString]
  rw [if_pos hends, withoutLastPart_numbered]

/-- A later call appends one more number when the pattern finds none. -/
theorem nextIdString_piling {base : String} (hbase : ¬IsNumberable rules base) (n count : Nat) :
    nextIdString rules (base ++ "_" ++ toString n, count) =
      (base ++ "_" ++ toString n ++ "_" ++ toString (count + 1), count + 1) := by
  have hends : endsWithNumber rules (base ++ "_" ++ toString n) = false := by
    rw [← Bool.not_eq_true, endsWithNumber_iff]
    exact hbase
  unfold nextIdString
  simp only [hends, Bool.false_eq_true, and_false, if_false]

/-- The numbers of an id_string that the pattern finds count the calls. -/
theorem idStringCall_numberable {requested : String} (hbase : IsNumberable rules requested)
    (n : Nat) : idStringCall rules requested (n + 1) =
      (requested ++ "_" ++ toString (n + 1), n + 1) := by
  induction n with
  | zero => exact idStringCall_one requested
  | succ n ih => rw [idStringCall_succ, ih, nextIdString_numberable hbase]

/-- After `_1`, which the pattern does not match, the numbers behind it count the calls. -/
theorem idStringCall_empty (n : Nat) :
    idStringCall rules "" (n + 2) = ("_1" ++ "_" ++ toString (n + 2), n + 2) := by
  have hfirst : ¬IsNumberable rules "" := fun h => h.1 rfl
  have hsecond : IsNumberable rules "_1" := by
    refine ⟨by decide, ?_⟩
    have hchars : "_1".toList = ['_', '1'] := by decide
    rw [hchars]
    intro c hc
    simp only [List.mem_cons, List.not_mem_nil, or_false] at hc
    rcases hc with rfl | rfl
    · exact rules.isWord_underscore
    · exact rules.isWord_of_isDecimal _ (rules.isDecimal_digit _ (by decide))
  induction n with
  | zero =>
      rw [idStringCall_succ, idStringCall_one, nextIdString_piling hfirst]
      rfl
  | succ n ih => rw [idStringCall_succ, ih, nextIdString_numberable hsecond]

/-- The numbers that pile up behind an id_string. -/
def pileOf : Nat → String
  | 0 => ""
  | n + 1 => pileOf n ++ "_" ++ toString (n + 1)

/-- The numbers of an id_string with another character pile up. -/
theorem idStringCall_other {requested : String}
    (hother : ∃ c ∈ requested.toList, rules.isWord c = false) (n : Nat) :
    idStringCall rules requested (n + 1) = (requested ++ pileOf (n + 1), n + 1) := by
  induction n with
  | zero =>
      rw [idStringCall_one]
      have hpile : pileOf 1 = "_" ++ toString 1 := by decide
      rw [hpile, String.append_assoc]
  | succ n ih =>
      -- the other character is still before the last number
      have hbase : ¬IsNumberable rules (requested ++ pileOf n) := by
        rintro ⟨-, hword⟩
        obtain ⟨c, hc, hnot⟩ := hother
        have hmem : c ∈ (requested ++ pileOf n).toList := by
          rw [String.toList_append]
          exact List.mem_append_left _ hc
        rw [hword c hmem] at hnot
        cases hnot
      have hname : requested ++ pileOf (n + 1) =
          requested ++ pileOf n ++ "_" ++ toString (n + 1) := by
        rw [pileOf, String.append_assoc, String.append_assoc, String.append_assoc]
      rw [idStringCall_succ, ih, hname, nextIdString_piling hbase]
      simp only [pileOf, String.append_assoc]

/-! ### A new id_string is found -/

theorem upper_numbered (base : String) (n : Nat) :
    rules.upper (base ++ "_" ++ toString n) = rules.upper base ++ "_" ++ toString n := by
  rw [rules.upper_append, rules.upper_append, rules.upper_underscore, rules.upper_number]

/-- In upper case, different numbers of calls pile up to different lengths. -/
theorem length_upper_pileOf (n : Nat) :
    (rules.upper (pileOf n)).length < (rules.upper (pileOf (n + 1))).length := by
  have hmark : "_".length = 1 := by decide
  rw [pileOf, upper_numbered, String.length_append, String.length_append]
  omega

theorem length_upper_pileOf_lt {m n : Nat} (hlt : m < n) :
    (rules.upper (pileOf m)).length < (rules.upper (pileOf n)).length := by
  induction hlt with
  | refl => exact length_upper_pileOf m
  | step _ ih => exact Nat.lt_trans ih (length_upper_pileOf _)

/-- From the second call on, the id_strings differ in upper case. -/
theorem upper_idStringCall_injective (requested : String) (m n : Nat)
    (heq : rules.upper (idStringCall rules requested (m + 2)).1 =
      rules.upper (idStringCall rules requested (n + 2)).1) : m = n := by
  by_cases hempty : requested = ""
  · subst hempty
    rw [idStringCall_empty, idStringCall_empty, upper_numbered, upper_numbered] at heq
    have := append_toString_injective _ _ _ heq
    omega
  · by_cases hword : ∀ c ∈ requested.toList, rules.isWord c = true
    · rw [idStringCall_numberable ⟨hempty, hword⟩ (m + 1),
        idStringCall_numberable ⟨hempty, hword⟩ (n + 1), upper_numbered, upper_numbered] at heq
      have := append_toString_injective _ _ _ heq
      omega
    · have hother : ∃ c ∈ requested.toList, rules.isWord c = false := by
        simpa using hword
      rw [idStringCall_other hother (m + 1), idStringCall_other hother (n + 1),
        rules.upper_append, rules.upper_append] at heq
      have hlength := congrArg String.length heq
      rw [String.length_append, String.length_append] at hlength
      rcases Nat.lt_trichotomy m n with hlt | rfl | hgt
      · have := @length_upper_pileOf_lt rules (m + 1 + 1) (n + 1 + 1) (by omega)
        omega
      · rfl
      · have := @length_upper_pileOf_lt rules (n + 1 + 1) (m + 1 + 1) (by omega)
        omega

/-- What is returned is the first id_string that is new. -/
theorem getUniqueIdString_eq_some {account : List String} {frames : Nat}
    {requested idString : String} :
    getUniqueIdString rules account frames requested = some idString ↔
      ∃ n < frames, idString = (idStringCall rules requested n).1 ∧
        idStringAlreadyExistsInAccount rules account idString = false ∧
        ∀ k < n, idStringAlreadyExistsInAccount rules account
          (idStringCall rules requested k).1 = true := by
  unfold getUniqueIdString
  rw [Option.map_eq_some_iff]
  constructor
  · rintro ⟨found, hfound, rfl⟩
    obtain ⟨n, hn, rfl, hfree, hbefore⟩ := searchUnused_eq_some.mp hfound
    exact ⟨n, hn, rfl, hfree, hbefore⟩
  · rintro ⟨n, hn, rfl, hfree, hbefore⟩
    exact ⟨_, searchUnused_eq_some.mpr ⟨n, hn, rfl, hfree, hbefore⟩, rfl⟩

/-- The calls end when one of the id_strings is new. -/
theorem exists_getUniqueIdString {account : List String} {requested : String} {n : Nat}
    (hnew : idStringAlreadyExistsInAccount rules account
      (idStringCall rules requested n).1 = false) :
    ∃ k ≤ n, idStringAlreadyExistsInAccount rules account
        (idStringCall rules requested k).1 = false ∧
      ∀ frames > n, getUniqueIdString rules account frames requested =
        some (idStringCall rules requested k).1 := by
  obtain ⟨k, hk, hfree, hfound⟩ := @exists_searchUnused _
    (fun call : String × Nat => idStringAlreadyExistsInAccount rules account call.1)
    (nextIdString rules) (requested, 0) n hnew
  refine ⟨k, hk, hfree, ?_⟩
  intro frames hframes
  unfold getUniqueIdString
  rw [searchUnused_mono hframes hfound]
  rfl

/-- With a few more nested calls than there are forms, the calls always end with an id_string that
is not in the account. -/
theorem getUniqueIdString_new (account : List String) (requested : String) {frames : Nat}
    (hframes : account.length + 2 < frames) :
    ∃ idString, getUniqueIdString rules account frames requested = some idString ∧
      idStringAlreadyExistsInAccount rules account idString = false := by
  -- one of the id_strings from the second call on is new
  have hcount : (account.map rules.upper).dedup.length < account.length + 1 := by
    have hle := (List.dedup_sublist (account.map rules.upper)).length_le
    rw [List.length_map] at hle
    omega
  obtain ⟨n, hn, hnew⟩ := exists_unused (account.map rules.upper)
    (fun k => rules.upper (idStringCall rules requested (k + 2)).1) hcount
    fun m _ n _ => upper_idStringCall_injective requested m n
  have hunused : idStringAlreadyExistsInAccount rules account
      (idStringCall rules requested (n + 2)).1 = false := by
    unfold idStringAlreadyExistsInAccount
    simpa using hnew
  obtain ⟨k, -, hfree, hfound⟩ := exists_getUniqueIdString hunused
  exact ⟨_, hfound frames (by omega), hfree⟩

/-! ### The form of the id_string -/

/-- What is returned is not in the account, and it is the requested id_string, or this id_string
with a number. -/
def FindsFreshId (rules : IdStringRules) (account : List String) (frames : Nat)
    (requested : String) : Prop :=
  ∃ idString, getUniqueIdString rules account frames requested = some idString ∧
    idStringAlreadyExistsInAccount rules account idString = false ∧
    (idString = requested ∨ ∃ n : Nat, idString = requested ++ "_" ++ toString n)

/-- The requested id_string, and the ones with a number. -/
def numberedId (requested : String) : Nat → String
  | 0 => requested
  | n + 1 => requested ++ "_" ++ toString (n + 1)

/-- The calls that give the requested id_string with a number. -/
theorem idStringCall_eq_numberedId {requested : String} {n : Nat}
    (h : 2 ≤ n → IsNumberable rules requested) :
    (idStringCall rules requested n).1 = numberedId requested n := by
  cases n with
  | zero => rfl
  | succ n =>
      cases n with
      | zero => rw [idStringCall_one, numberedId]
      | succ n => rw [idStringCall_numberable (h (by omega)) (n + 1), numberedId]

/-- What piles up is no number. -/
theorem append_pile_ne (requested rest : String) :
    requested ++ "_1_" ++ rest ≠ requested ∧
      ∀ n : Nat, requested ++ "_1_" ++ rest ≠ requested ++ "_" ++ toString n := by
  have hpile : "_1_".toList = ['_', '1', '_'] := by decide
  constructor
  · intro heq
    have hlength := congrArg String.length heq
    have hthree : "_1_".length = 3 := by decide
    rw [String.length_append, String.length_append] at hlength
    omega
  · intro n heq
    have hchars := congrArg String.toList heq
    rw [toList_numbered, String.toList_append, String.toList_append, List.append_assoc, hpile]
      at hchars
    have htail := List.append_cancel_left hchars
    refine underscore_notMem_number n ?_
    rw [← (List.cons.inj htail).2]
    simp

/-- Without a number that the pattern finds, the second call appends to the number of the first. -/
theorem exists_pile {requested : String} (hbase : ¬IsNumberable rules requested) (n : Nat) :
    ∃ rest, (idStringCall rules requested (n + 2)).1 = requested ++ "_1_" ++ rest := by
  by_cases hempty : requested = ""
  · subst hempty
    refine ⟨toString (n + 2), ?_⟩
    rw [idStringCall_empty]
    show "_1" ++ "_" ++ toString (n + 2) = "" ++ "_1_" ++ toString (n + 2)
    rw [show "_1" ++ "_" = "" ++ "_1_" by decide]
  · have hother : ∃ c ∈ requested.toList, rules.isWord c = false := by
      simpa [IsNumberable, hempty] using hbase
    have hpile : ∀ n, ∃ rest, pileOf (n + 2) = "_1_" ++ rest := by
      intro n
      induction n with
      | zero => exact ⟨"2", by decide⟩
      | succ n ih =>
          obtain ⟨rest, hrest⟩ := ih
          refine ⟨rest ++ "_" ++ toString (n + 3), ?_⟩
          show pileOf (n + 2) ++ "_" ++ toString (n + 3) = _
          rw [hrest, String.append_assoc, String.append_assoc, String.append_assoc]
    obtain ⟨rest, hrest⟩ := hpile n
    refine ⟨rest, ?_⟩
    rw [idStringCall_other hother (n + 1)]
    show requested ++ pileOf (n + 2) = _
    rw [hrest, String.append_assoc]

/-- An id_string of the right form is the requested one with the number of the call. -/
theorem FindsFreshId.exists_numberedId {account : List String} {frames : Nat} {requested : String}
    (h : FindsFreshId rules account frames requested) :
    ∃ n < frames, idStringAlreadyExistsInAccount rules account (numberedId requested n) = false ∧
      (2 ≤ n → IsNumberable rules requested) := by
  obtain ⟨idString, hfound, hfree, hform⟩ := h
  obtain ⟨n, hn, rfl, -, -⟩ := getUniqueIdString_eq_some.mp hfound
  have hbase : 2 ≤ n → IsNumberable rules requested := by
    intro htwo
    by_contra hbase
    obtain ⟨k, rfl⟩ : ∃ k, n = k + 2 := ⟨n - 2, by omega⟩
    obtain ⟨rest, hrest⟩ := exists_pile hbase k
    have hne := append_pile_ne requested rest
    rw [hrest] at hform
    rcases hform with heq | ⟨number, heq⟩
    · exact hne.1 heq
    · exact hne.2 number heq
  rw [idStringCall_eq_numberedId hbase] at hfree
  exact ⟨n, hn, hfree, hbase⟩

/-- The requested id_strings with a number differ in upper case. -/
theorem upper_numberedId_injective (requested : String) (m n : Nat)
    (heq : rules.upper (numberedId requested m) = rules.upper (numberedId requested n)) :
    m = n := by
  have hmark : "_".length = 1 := by decide
  cases m with
  | zero =>
      cases n with
      | zero => rfl
      | succ n =>
          have hlength := congrArg String.length heq
          rw [numberedId, numberedId, upper_numbered, String.length_append, String.length_append]
            at hlength
          omega
  | succ m =>
      cases n with
      | zero =>
          have hlength := congrArg String.length heq
          rw [numberedId, numberedId, upper_numbered, String.length_append, String.length_append]
            at hlength
          omega
      | succ n =>
          rw [numberedId, numberedId, upper_numbered, upper_numbered] at heq
          exact append_toString_injective _ _ _ heq

/-- An id_string of the right form is found exactly when one of those that the nested calls reach
is new. From the number 2 on they are reached when the requested one is not empty and has only word
characters. So with more nested calls than forms, it is found exactly when one of the first two is
new or the requested one is such an id_string. -/
theorem findsFreshId_iff (rules : IdStringRules) (account : List String) (frames : Nat)
    (requested : String) :
    (FindsFreshId rules account frames requested ↔
      ∃ n < frames, idStringAlreadyExistsInAccount rules account (numberedId requested n) = false ∧
        (2 ≤ n → IsNumberable rules requested)) ∧
    (account.length < frames →
      (FindsFreshId rules account frames requested ↔
        idStringAlreadyExistsInAccount rules account requested = false ∨
          idStringAlreadyExistsInAccount rules account (requested ++ "_" ++ toString 1) = false ∨
          IsNumberable rules requested)) := by
  have hiff : FindsFreshId rules account frames requested ↔
      ∃ n < frames, idStringAlreadyExistsInAccount rules account (numberedId requested n) = false ∧
        (2 ≤ n → IsNumberable rules requested) := by
    refine ⟨FindsFreshId.exists_numberedId, ?_⟩
    rintro ⟨n, hn, hnew, hbase⟩
    rw [← idStringCall_eq_numberedId hbase] at hnew
    obtain ⟨k, hk, hfree, hfound⟩ := exists_getUniqueIdString hnew
    refine ⟨_, hfound frames hn, hfree, ?_⟩
    rw [idStringCall_eq_numberedId fun htwo => hbase (by omega)]
    cases k with
    | zero => exact Or.inl rfl
    | succ k => exact Or.inr ⟨k + 1, rfl⟩
  refine ⟨hiff, fun hframes => hiff.trans ⟨?_, ?_⟩⟩
  · rintro ⟨n, hn, hnew, hbase⟩
    cases n with
    | zero => exact Or.inl hnew
    | succ n =>
        cases n with
        | zero => exact Or.inr (Or.inl hnew)
        | succ n => exact Or.inr (Or.inr (hbase (by omega)))
  · rintro (hnew | hnew | hbase)
    · exact ⟨0, by omega, hnew, fun h => absurd h (by omega)⟩
    · -- without a form, the requested id_string itself is new
      cases account with
      | nil => exact ⟨0, by omega, rfl, fun h => absurd h (by omega)⟩
      | cons form account =>
          rw [List.length_cons] at hframes
          exact ⟨1, by omega, hnew, fun h => absurd h (by omega)⟩
    · have hcount : (account.map rules.upper).dedup.length < frames := by
        have hle := (List.dedup_sublist (account.map rules.upper)).length_le
        rw [List.length_map] at hle
        omega
      obtain ⟨n, hn, hnew⟩ := exists_unused (account.map rules.upper)
        (fun k => rules.upper (numberedId requested k)) hcount
        fun m _ n _ => upper_numberedId_injective requested m n
      refine ⟨n, hn, ?_, fun _ => hbase⟩
      unfold idStringAlreadyExistsInAccount
      simpa using hnew

/-! ### A taken id_string with a hyphen -/

/-- The classes and the upper case of ASCII characters. -/
def asciiRules : IdStringRules where
  isWord c := c.isAlphanum || c == '_'
  isDecimal c := c.isDigit
  upper text := String.ofList (text.toList.map Char.toUpper)
  isWord_underscore := by decide
  isWord_of_isDecimal c hc := by simp [Char.isAlphanum, hc]
  isDecimal_digit _ hc := hc
  not_isDecimal_underscore := by decide
  upper_append text text' := by
    rw [String.toList_append, List.map_append, String.ofList_append]
  upper_underscore := by decide
  upper_number n := by
    rw [map_toUpper_number, String.ofList_toList]

/-- `my-form` and `my-form_1` are taken, and `my-form_1_2` is returned. -/
theorem not_findsFreshId_hyphen :
    ¬FindsFreshId asciiRules ["my-form", "my-form_1"] 1000 "my-form" := by
  intro h
  obtain ⟨n, hn, hnew, hbase⟩ := h.exists_numberedId
  have hnot : ¬IsNumberable asciiRules "my-form" := by decide
  cases n with
  | zero => revert hnew; decide
  | succ n =>
      cases n with
      | zero => revert hnew; decide
      | succ n => exact hnot (hbase (by omega))

end

end Onadata.Proofs
