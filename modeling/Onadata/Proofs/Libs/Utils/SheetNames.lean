import Onadata.Lib.PyText
import Onadata.Libs.Utils.ExportNames

/-!
# `Onadata.Proofs.Libs.Utils.SheetNames`: a free sheet name is found

The names of the loop of `get_valid_sheet_name` can repeat: `a1` is the name of round 1, and the
name of a later round can end with `a1` again when the counter has more digits. Names of rounds
whose counters have the same number of digits differ, as soon as they are as long as a name may be.

* `sheetRound_length`: the length of the name of a round.
* `sheetRound_injective`: the names of the rounds from `10 ^ 20` on differ, as long as the counter
  has 21 digits.
* `getValidSheetName_valid`: the loop ends with a valid name.
-/

set_option autoImplicit false

namespace Onadata.Proofs

open Onadata.Lib

/-! ### The rounds -/

/-- The name of a round is the start of the last name and the counter, as long as the counter has
no more digits than a name may have. -/
theorem nextSheetName_eq (name : String) {i : Nat} (hdigits : (toString i).length ≤ 31) :
    nextSheetName (name, i) =
      (takeStart name (31 - (toString i).length) ++ toString i, i + 1) := by
  have hmax : XLS_SHEET_NAME_MAX_CHARS = 31 := rfl
  have hallowed : ((31 : Nat) : Int) - (toString i).length =
      ((31 - (toString i).length : Nat) : Int) := by omega
  simp only [nextSheetName, hmax, hallowed]
  by_cases hlong : 31 - (toString i).length < name.length
  · rw [if_pos (by omega), takeUntil, if_neg (by omega), Int.toNat_natCast]
  · -- a name that is short enough is its own start
    have hshort : takeStart name (31 - (toString i).length) = name := by
      rw [takeStart, List.take_of_length_le (by rw [String.length_toList]; omega),
        String.ofList_toList]
    rw [if_neg (by omega), hshort]

/-- The state of the loop before its first round or after `n` rounds. -/
def sheetRound (desiredName : String) (n : Nat) : String × Nat :=
  searchState nextSheetName (takeStart desiredName 31, 1) n

theorem sheetRound_counter (desiredName : String) (n : Nat) :
    (sheetRound desiredName n).2 = n + 1 := by
  unfold sheetRound
  induction n with
  | zero => rfl
  | succ n ih =>
      rw [searchState_succ]
      show (searchState nextSheetName (takeStart desiredName 31, 1) n).2 + 1 = n + 1 + 1
      rw [ih]

/-- The name after the next round. -/
theorem sheetRound_succ (desiredName : String) {n : Nat} (hn : n + 1 < 10 ^ 31) :
    (sheetRound desiredName (n + 1)).1 =
      takeStart (sheetRound desiredName n).1 (31 - (toString (n + 1)).length) ++
        toString (n + 1) := by
  have hdigits : (toString (n + 1)).length ≤ 31 := (length_toString_le_iff (by omega)).mpr hn
  have hround : sheetRound desiredName n = ((sheetRound desiredName n).1, n + 1) :=
    Prod.ext rfl (sheetRound_counter desiredName n)
  have hnext : sheetRound desiredName (n + 1) = nextSheetName (sheetRound desiredName n) :=
    searchState_succ _ n
  rw [hnext, hround, nextSheetName_eq _ hdigits]

theorem length_takeStart_eq (text : String) (n : Nat) :
    (takeStart text n).length = min n text.length := by
  rw [takeStart, String.length_ofList, List.length_take, String.length_toList]

/-- A name has at most 31 characters, and it grows in each round until it has them. -/
theorem sheetRound_length (desiredName : String) {n : Nat} (hn : n < 10 ^ 31) :
    (sheetRound desiredName n).1.length ≤ 31 ∧
      min n 31 ≤ (sheetRound desiredName n).1.length := by
  induction n with
  | zero =>
      have hstart := length_takeStart_eq desiredName 31
      show (takeStart desiredName 31).length ≤ 31 ∧ _
      omega
  | succ n ih =>
      have hlast := ih (by omega)
      have hpos := length_toString_pos (n + 1)
      have hdigits : (toString (n + 1)).length ≤ 31 := (length_toString_le_iff (by omega)).mpr hn
      rw [sheetRound_succ desiredName hn, String.length_append, length_takeStart_eq]
      omega

/-- The counters of the rounds from `10 ^ 20` on have 21 digits. -/
theorem length_toString_window {k : Nat} (hk : k < 10 ^ 20) :
    (toString (10 ^ 20 + k)).length = 21 := by
  have hle : (toString (10 ^ 20 + k)).length ≤ 21 :=
    (length_toString_le_iff (by omega)).mpr (by omega)
  have hnot : ¬(toString (10 ^ 20 + k)).length ≤ 20 := by
    rw [length_toString_le_iff (by omega)]
    omega
  omega

/-- The names of the rounds from `10 ^ 20` on differ: they are ten characters of the last name and
the counter. -/
theorem sheetRound_injective (desiredName : String) :
    ∀ m < 10 ^ 20, ∀ n < 10 ^ 20, (sheetRound desiredName (10 ^ 20 + m)).1 =
      (sheetRound desiredName (10 ^ 20 + n)).1 → m = n := by
  -- the name is a start of ten characters and the counter
  have hname : ∀ k < 10 ^ 20, ∃ start : String, start.length = 10 ∧
      (sheetRound desiredName (10 ^ 20 + k)).1 = start ++ toString (10 ^ 20 + k) := by
    intro k hk
    have hlast := sheetRound_length desiredName (show 10 ^ 20 + k - 1 < 10 ^ 31 by omega)
    have hround := sheetRound_succ desiredName (show 10 ^ 20 + k - 1 + 1 < 10 ^ 31 by omega)
    rw [show 10 ^ 20 + k - 1 + 1 = 10 ^ 20 + k by omega, length_toString_window hk] at hround
    refine ⟨_, ?_, hround⟩
    rw [length_takeStart_eq]
    omega
  intro m hm n hn heq
  obtain ⟨start, hstart, hmname⟩ := hname m hm
  obtain ⟨start', hstart', hnname⟩ := hname n hn
  rw [hmname, hnname] at heq
  have hchars := congrArg String.toList heq
  rw [String.toList_append, String.toList_append] at hchars
  have hlength : start.toList.length = start'.toList.length := by
    rw [String.length_toList, String.length_toList]
    omega
  obtain ⟨-, hdigits⟩ := List.append_inj hchars hlength
  have hnumber : "" ++ toString (10 ^ 20 + m) = "" ++ toString (10 ^ 20 + n) := by
    rw [String.toList_injective hdigits]
  have := append_toString_injective "" _ _ hnumber
  omega

/-! ### The loop -/

/-- The loop of `get_valid_sheet_name` ends, with a name of at most 31 characters that does not
exist yet. -/
theorem getValidSheetName_valid (desiredName : String) (existingNames : List String)
    (hfew : existingNames.dedup.length < 10 ^ 20) :
    ∃ name, (∃ rounds, ∀ more ≥ rounds,
        getValidSheetName more desiredName existingNames = some name) ∧
      name.length ≤ 31 ∧ name ∉ existingNames := by
  -- one of the names from round `10 ^ 20` on is new
  obtain ⟨n, hn, hnew⟩ := exists_unused existingNames
    (fun k => (sheetRound desiredName (10 ^ 20 + k)).1) hfew (sheetRound_injective desiredName)
  have hunused : decide ((sheetRound desiredName (10 ^ 20 + n)).1 ∈ existingNames) = false := by
    simpa using hnew
  -- the loop ends there or before
  obtain ⟨k, hk, hfree, hfound⟩ := @exists_searchUnused _
    (fun round : String × Nat => decide (round.1 ∈ existingNames)) _ _ _ hunused
  have hfree : (sheetRound desiredName k).1 ∉ existingNames := of_decide_eq_false hfree
  have hlength := sheetRound_length desiredName (show k < 10 ^ 31 by omega)
  refine ⟨(sheetRound desiredName k).1, ⟨10 ^ 20 + n + 1, ?_⟩, hlength.1, hfree⟩
  intro more hmore
  show Option.map Prod.fst (searchUnused _ nextSheetName more (takeStart desiredName 31, 1)) = _
  rw [searchUnused_mono hmore hfound]
  rfl

/-- A taken name with one that the loop would generate. -/
theorem getValidSheetName_valid_section :
    ["section", "section1"].dedup.length < 10 ^ 20 ∧
      ∃ name, (∃ rounds, ∀ more ≥ rounds,
          getValidSheetName more "section" ["section", "section1"] = some name) ∧
        name.length ≤ 31 ∧ name ∉ ["section", "section1"] :=
  ⟨by decide, getValidSheetName_valid "section" ["section", "section1"] (by decide)⟩

end Onadata.Proofs
