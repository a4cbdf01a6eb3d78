import Mathlib.Algebra.Group.Nat.Defs
import Mathlib.Data.List.Infix
import Mathlib.Tactic.Common

/-!
# `Onadata.Lib.PyText`: the ends of texts, and numbers as texts

Python's `endswith`, `text[:-n]` and `text.split(separator)[0]`, as functions on the
characters of a text.

* `dropEnd_append`: the end that was appended can be cut off again.
* `beforeFirst_append_iff`: what is before the first separator of `name + separator + rest`
  is `name`, unless the separator already starts inside of `name`.

And facts about `str(n)` of a natural number: its digits, its length, and that it says the number.
-/

set_option autoImplicit false

namespace Onadata.Lib

/-- `text.endswith(tail)`. -/
def endsWith (text tail : String) : Bool :=
  tail.toList.isSuffixOf text.toList

/-- `text[:-n]`, for a positive `n`. -/
def dropEnd (text : String) (n : Nat) : String :=
  String.ofList (text.toList.take (text.length - n))

/-- `text[:n]`. -/
def takeStart (text : String) (n : Nat) : String :=
  String.ofList (text.toList.take n)

/-- `text[:stop]`. A negative stop counts from the end. -/
def takeUntil (text : String) (stop : Int) : String :=
  takeStart text (if stop < 0 then text.length + stop else stop).toNat

/-- The items before the first occurrence of `separator`. -/
def itemsBefore {α : Type} [DecidableEq α] (separator : List α) : List α → List α
  | [] => []
  | c :: cs => if separator <+: c :: cs then [] else c :: itemsBefore separator cs

/-- `text.split(separator)[0]`, for a separator that is not empty. -/
def beforeFirst (separator text : String) : String :=
  String.ofList (itemsBefore separator.toList text.toList)

/-- `text.startswith(head)`. -/
def startsWith (text head : String) : Bool :=
  head.toList.isPrefixOf text.toList

/-- The items without the occurrences of `piece`, from left to right. `fuel` bounds the number
of items. -/
def itemsWithout {α : Type} [DecidableEq α] (piece : List α) : (fuel : Nat) → List α → List α
  | 0, items => items
  | _ + 1, [] => []
  | fuel + 1, c :: cs =>
      if piece <+: c :: cs then itemsWithout piece fuel ((c :: cs).drop piece.length)
      else c :: itemsWithout piece fuel cs

/-- `text.replace(piece, "")`, for a piece that is not empty. -/
def removeText (piece text : String) : String :=
  String.ofList (itemsWithout piece.toList text.length text.toList)

/-- `c.isspace()`. -/
def isSpace (c : Char) : Bool :=
  let code := c.toNat
  decide ((0x09 ≤ code ∧ code ≤ 0x0D) ∨ (0x1C ≤ code ∧ code ≤ 0x20) ∨ code = 0x85 ∨
    code = 0xA0 ∨ code = 0x1680 ∨ (0x2000 ≤ code ∧ code ≤ 0x200A) ∨ code = 0x2028 ∨
    code = 0x2029 ∨ code = 0x202F ∨ code = 0x205F ∨ code = 0x3000)

/-- `text.strip()`. -/
def strip (text : String) : String :=
  String.ofList (((text.toList.dropWhile isSpace).reverse.dropWhile isSpace).reverse)

/-- A text ends with what was appended. -/
@[simp] theorem endsWith_append (text tail : String) : endsWith (text ++ tail) tail = true := by
  simp [endsWith, String.toList_append, List.isSuffixOf_iff_suffix]

/-- The end of a text is that of its last piece, when this piece is as long as the end. -/
theorem endsWith_append_of_length_le (text : String) {piece tail : String}
    (h : tail.length ≤ piece.length) : endsWith (text ++ piece) tail = endsWith piece tail := by
  have hlength : tail.toList.length ≤ piece.toList.length := by
    rw [String.length_toList, String.length_toList]
    exact h
  rw [Bool.eq_iff_iff, endsWith, endsWith, List.isSuffixOf_iff_suffix, List.isSuffixOf_iff_suffix,
    String.toList_append]
  constructor
  · intro hsuffix
    exact List.suffix_of_suffix_length_le hsuffix (List.suffix_append _ _) hlength
  · intro hsuffix
    exact hsuffix.trans (List.suffix_append _ _)

/-- `strip` leaves a text that has no white space at its two ends. -/
theorem strip_eq_self {text : String}
    (hhead : ∀ c, text.toList.head? = some c → isSpace c = false)
    (hlast : ∀ c, text.toList.getLast? = some c → isSpace c = false) : strip text = text := by
  have hkept : ∀ items : List Char, (∀ c, items.head? = some c → isSpace c = false) →
      items.dropWhile isSpace = items := by
    intro items hitems
    cases items with
    | nil => rfl
    | cons c rest =>
        rw [List.dropWhile_cons, hitems c rfl]
        rfl
  unfold strip
  rw [hkept _ hhead, hkept _ (by rw [List.head?_reverse]; exact hlast), List.reverse_reverse,
    String.ofList_toList]

/-- Cutting off what was appended. -/
@[simp] theorem dropEnd_append (text tail : String) :
    dropEnd (text ++ tail) tail.length = text := by
  have hlength : (text ++ tail).length - tail.length = text.toList.length := by
    rw [String.length_append, String.length_toList]
    omega
  rw [dropEnd, hlength, String.toList_append, List.take_left, String.ofList_toList]

/-- Cutting off characters leaves fewer. -/
theorem length_dropEnd (text : String) (n : Nat) :
    (dropEnd text n).length = text.length - n := by
  rw [dropEnd, String.length_ofList, List.length_take, String.length_toList]
  omega

/-- A text is not its own proper start. -/
theorem dropEnd_ne {text : String} {n : Nat} (hpos : 0 < n) (hle : n ≤ text.length) :
    dropEnd text n ≠ text := by
  intro heq
  have := congrArg String.length heq
  rw [length_dropEnd] at this
  omega

/-- An end is not longer than the text. -/
theorem length_le_of_endsWith {text tail : String} (h : endsWith text tail = true) :
    tail.length ≤ text.length := by
  rw [endsWith, List.isSuffixOf_iff_suffix] at h
  have := h.length_le
  rwa [String.length_toList, String.length_toList] at this

/-- The length of a start. -/
theorem length_takeStart {text : String} {n : Nat} (h : n ≤ text.length) :
    (takeStart text n).length = n := by
  rw [takeStart, String.length_ofList, List.length_take, String.length_toList]
  omega

section
variable {α : Type}

/-- All of `items` is before the first separator if none starts inside of it. -/
theorem itemsBefore_append_iff [DecidableEq α] (separator rest : List α) (hne : separator ≠ [])
    (items : List α) :
    itemsBefore separator (items ++ (separator ++ rest)) = items ↔
      ∀ k < items.length, ¬ separator <+: (items ++ (separator ++ rest)).drop k := by
  induction items with
  | nil =>
      obtain ⟨c, cs, rfl⟩ := List.exists_cons_of_ne_nil hne
      simp [itemsBefore]
  | cons c cs ih =>
      rw [List.cons_append, itemsBefore]
      constructor
      · intro h k hk
        split at h
        · exact absurd h (List.cons_ne_nil _ _).symm
        · cases k with
          | zero => assumption
          | succ k =>
              exact ih.mp (List.cons.inj h).2 k (Nat.lt_of_succ_lt_succ hk)
      · intro h
        have hhead : ¬ separator <+: c :: (cs ++ (separator ++ rest)) := h 0 (Nat.succ_pos _)
        rw [if_neg hhead, ih.mpr fun k hk => h (k + 1) (Nat.succ_lt_succ hk)]

/-- A separator that starts inside of `items` lies in `items` and all but the last item of
the separator behind it. -/
theorem exists_prefix_drop_iff (separator rest : List α) (hne : separator ≠ [])
    (items : List α) :
    (∃ k < items.length, separator <+: (items ++ (separator ++ rest)).drop k) ↔
      separator <:+: items ++ separator.dropLast := by
  have hlength : separator.dropLast.length = separator.length - 1 := List.length_dropLast
  have hpos : 0 < separator.length := List.length_pos_iff.mpr hne
  have hsplit : items ++ (separator ++ rest) =
      (items ++ separator.dropLast) ++ (separator.getLast hne :: rest) := by
    conv_lhs => rw [← List.dropLast_append_getLast hne]
    simp
  constructor
  · rintro ⟨k, hk, hprefix⟩
    rw [hsplit, List.drop_append_of_le_length (by rw [List.length_append]; omega)] at hprefix
    have hfits : separator.length ≤ ((items ++ separator.dropLast).drop k).length := by
      rw [List.length_drop, List.length_append, hlength]
      omega
    have hinside : separator <+: (items ++ separator.dropLast).drop k :=
      List.prefix_of_prefix_length_le hprefix (List.prefix_append _ _) hfits
    exact hinside.isInfix.trans (List.drop_suffix _ _).isInfix
  · rintro ⟨before, after, heq⟩
    have hbefore : before.length < items.length := by
      have := congrArg List.length heq
      simp only [List.length_append, hlength] at this
      omega
    refine ⟨before.length, hbefore, ?_⟩
    rw [hsplit, ← heq]
    simp

end

/-- What is before the first separator of `name + separator + rest` is `name`, unless the
separator already starts inside of `name`. -/
theorem beforeFirst_append_iff {separator : String} (hne : separator ≠ "")
    (name rest : String) :
    beforeFirst separator (name ++ (separator ++ rest)) = name ↔
      ¬ separator.toList <:+: name.toList ++ separator.toList.dropLast := by
  have hlist : separator.toList ≠ [] := by
    simpa using hne
  rw [beforeFirst, String.toList_append, String.toList_append,
    ← exists_prefix_drop_iff separator.toList rest.toList hlist]
  have hcharacters : String.ofList (itemsBefore separator.toList
        (name.toList ++ (separator.toList ++ rest.toList))) = name ↔
      itemsBefore separator.toList
        (name.toList ++ (separator.toList ++ rest.toList)) = name.toList := by
    constructor
    · intro h
      have := congrArg String.toList h
      rwa [String.toList_ofList] at this
    · intro h
      rw [h, String.ofList_toList]
  rw [hcharacters, itemsBefore_append_iff _ _ hlist]
  simp

/-- The part before a separator is not longer than the text. -/
theorem length_beforeFirst_le (separator text : String) :
    (beforeFirst separator text).length ≤ text.length := by
  have hitems : ∀ items : List Char,
      (itemsBefore separator.toList items).length ≤ items.length := by
    intro items
    induction items with
    | nil => exact Nat.le_refl _
    | cons c cs ih =>
        rw [itemsBefore]
        split
        · exact Nat.zero_le _
        · exact Nat.succ_le_succ ih
  rw [beforeFirst, String.length_ofList, ← String.length_toList]
  exact hitems _

theorem toList_number (n : Nat) : (toString n).toList = Nat.toDigits 10 n := by
  rw [Nat.toString_eq_ofList_toDigits, String.toList_ofList]

theorem isDigit_of_mem_number {n : Nat} {c : Char} (hc : c ∈ (toString n).toList) :
    c.isDigit = true := by
  rw [toList_number] at hc
  exact Nat.isDigit_of_mem_toDigits (by decide) (by decide) hc

/-- A number does not hold another character. -/
theorem notMem_number {c : Char} (h : c.isDigit = false) (n : Nat) :
    c ∉ (toString n).toList := by
  intro hmem
  rw [isDigit_of_mem_number hmem] at h
  cases h

theorem number_ne_nil (n : Nat) : (toString n).toList ≠ [] := by
  rw [toList_number]
  exact Nat.toDigits_ne_nil

/-- The text says the number. -/
theorem number_injective {m n : Nat} (h : (toString m).toList = (toString n).toList) : m = n := by
  rw [toList_number, toList_number] at h
  have hnumber := congrArg (fun digits => Nat.ofDigitChars 10 digits 0) h
  simpa using hnumber

/-- Texts with a number at their end differ. -/
theorem append_toString_injective (base : String) (m n : Nat)
    (h : base ++ toString m = base ++ toString n) : m = n := by
  have hchars := congrArg String.toList h
  rw [String.toList_append, String.toList_append] at hchars
  exact number_injective (List.append_cancel_left hchars)

/-- A number has at most `k` digits. -/
theorem length_toString_le_iff {n k : Nat} (hk : 0 < k) :
    (toString n).length ≤ k ↔ n < 10 ^ k := by
  rw [← String.length_toList, toList_number]
  exact Nat.length_toDigits_le_iff (by omega) hk

theorem length_toString_pos (n : Nat) : 0 < (toString n).length := by
  rw [← String.length_toList]
  exact List.length_pos_iff.mpr (number_ne_nil n)

/-! ### Upper and lower case -/

/-- A digit is its own upper case. -/
theorem toUpper_of_isDigit {c : Char} (hc : c.isDigit = true) : c.toUpper = c := by
  simp only [Char.isDigit, Bool.and_eq_true, decide_eq_true_eq, ge_iff_le,
    UInt32.le_iff_toNat_le] at hc
  have hnine : '9'.val.toNat = 57 := rfl
  have hlower : 'a'.val.toNat = 97 := rfl
  unfold Char.toUpper
  rw [dif_neg]
  rintro ⟨hle, -⟩
  rw [UInt32.le_iff_toNat_le] at hle
  omega

/-- A digit is its own lower case. -/
theorem toLower_of_isDigit {c : Char} (hc : c.isDigit = true) : c.toLower = c := by
  simp only [Char.isDigit, Bool.and_eq_true, decide_eq_true_eq, ge_iff_le,
    UInt32.le_iff_toNat_le] at hc
  have hnine : '9'.val.toNat = 57 := rfl
  have hupper : 'A'.val.toNat = 65 := rfl
  unfold Char.toLower
  rw [dif_neg]
  rintro ⟨hle, -⟩
  simp only [ge_iff_le, UInt32.le_iff_toNat_le] at hle
  omega

theorem map_toUpper_number (n : Nat) :
    (toString n).toList.map Char.toUpper = (toString n).toList := by
  rw [List.map_congr_left fun c hc => toUpper_of_isDigit (isDigit_of_mem_number hc)]
  exact List.map_id' _

theorem map_toLower_number (n : Nat) :
    (toString n).toList.map Char.toLower = (toString n).toList := by
  rw [List.map_congr_left fun c hc => toLower_of_isDigit (isDigit_of_mem_number hc)]
  exact List.map_id' _

end Onadata.Lib
