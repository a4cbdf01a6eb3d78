import Mathlib.Data.List.Dedup
import Mathlib.Data.List.Perm.Subperm
import Mathlib.Data.Nat.Find
import Mathlib.Logic.Function.Iterate

/-!
# `Onadata.Lib.UnusedName`: the first unused name

A loop that counts up until a name is unused. Of the candidates, one more than there are used
names are tried: when they differ, one of them is unused (`exists_unused`, `unusedName_notMem`).

`searchUnused` is a loop that changes a state until its name is unused. It ends as soon as some
round has an unused name (`exists_searchUnused`), and no earlier (`searchUnused_eq_some`).
-/

set_option autoImplicit false

namespace Onadata.Lib

section Numbered
variable {Name : Type} [DecidableEq Name]

/-- Of more candidates than there are different used names, one is unused. -/
theorem exists_unused (used : List Name) (candidate : Nat → Name) {count : Nat}
    (hcount : used.dedup.length < count)
    (hdistinct : ∀ m < count, ∀ n < count, candidate m = candidate n → m = n) :
    ∃ n < count, candidate n ∉ used := by
  by_contra hnone
  -- all candidates are used, and they are too many
  have hall : ∀ n < count, candidate n ∈ used := by
    intro n hn
    by_contra hnot
    exact hnone ⟨n, hn, hnot⟩
  have hnodup : ((List.range count).map candidate).Nodup := by
    refine List.Nodup.map_on ?_ List.nodup_range
    intro m hm n hn heq
    exact hdistinct m (List.mem_range.mp hm) n (List.mem_range.mp hn) heq
  have hsubset : (List.range count).map candidate ⊆ used.dedup := by
    intro name hname
    obtain ⟨n, hn, rfl⟩ := List.mem_map.mp hname
    exact List.mem_dedup.mpr (hall n (List.mem_range.mp hn))
  have hlength := (List.subperm_of_subset hnodup hsubset).length_le
  rw [List.length_map, List.length_range] at hlength
  omega

/-- The first of the candidates `start`, `start + 1`, ... that is not used. -/
def unusedName (used : List Name) (candidate : Nat → Name) (start : Nat) : Name :=
  let unused := (List.range (used.length + 1)).find? fun n => candidate (start + n) ∉ used
  candidate (start + unused.getD 0)

/-- The name that is found is unused, when the candidates differ. -/
theorem unusedName_notMem (used : List Name) {candidate : Nat → Name}
    (hinjective : ∀ m n, candidate m = candidate n → m = n) (start : Nat) :
    unusedName used candidate start ∉ used := by
  unfold unusedName
  cases hfound : (List.range (used.length + 1)).find? fun n => candidate (start + n) ∉ used with
  | some n => simpa using List.find?_some hfound
  | none =>
      have hcount : used.dedup.length < used.length + 1 := by
        have hle := (List.dedup_sublist used).length_le
        omega
      obtain ⟨n, hn, hunused⟩ := exists_unused used (fun n => candidate (start + n)) hcount
        fun m _ n _ heq => by
          have := hinjective _ _ heq
          omega
      have hused : candidate (start + n) ∈ used := by
        simpa using List.find?_eq_none.mp hfound n (List.mem_range.mpr hn)
      exact absurd hused hunused

end Numbered

/-! ### Loops that change the name -/

section Search
variable {State : Type} (isUsed : State → Bool) (next : State → State)

/-- `while isUsed(state): state = next(state)`, for less than `rounds` rounds. -/
def searchUnused : (rounds : Nat) → State → Option State
  | 0, _ => none
  | rounds + 1, state =>
      if isUsed state then searchUnused rounds (next state) else some state

/-- The state before the loop or after `n` of its rounds. -/
def searchState (state : State) (n : Nat) : State :=
  next^[n] state

variable {isUsed next}

@[simp] theorem searchState_zero (state : State) : searchState next state 0 = state := rfl

theorem searchState_succ (state : State) (n : Nat) :
    searchState next state (n + 1) = next (searchState next state n) :=
  Function.iterate_succ_apply' next n state

/-- The loop ends in the first state whose name is not used. -/
theorem searchUnused_eq_some {rounds : Nat} {state found : State} :
    searchUnused isUsed next rounds state = some found ↔
      ∃ n < rounds, found = searchState next state n ∧ isUsed found = false ∧
        ∀ k < n, isUsed (searchState next state k) = true := by
  induction rounds generalizing state with
  | zero => simp [searchUnused]
  | succ rounds ih =>
      rw [searchUnused]
      cases hused : isUsed state with
      | false =>
          simp only [Bool.false_eq_true, if_false, Option.some.injEq]
          constructor
          · rintro rfl
            exact ⟨0, by omega, rfl, hused, fun k hk => by omega⟩
          · rintro ⟨n, -, rfl, -, hbefore⟩
            -- a later state would need the first one to be used
            cases n with
            | zero => rfl
            | succ n => simpa [hused] using hbefore 0 (by omega)
      | true =>
          rw [if_pos rfl, ih]
          constructor
          · rintro ⟨n, hn, rfl, hfound, hbefore⟩
            refine ⟨n + 1, by omega, rfl, hfound, ?_⟩
            intro k hk
            cases k with
            | zero => exact hused
            | succ k => exact hbefore k (by omega)
          · rintro ⟨n, hn, rfl, hfound, hbefore⟩
            cases n with
            | zero =>
                rw [searchState_zero, hused] at hfound
                cases hfound
            | succ n => exact ⟨n, by omega, rfl, hfound, fun k hk => hbefore (k + 1) (by omega)⟩

/-- More rounds do not change what is found. -/
theorem searchUnused_mono {rounds more : Nat} {state found : State} (hmore : rounds ≤ more)
    (h : searchUnused isUsed next rounds state = some found) :
    searchUnused isUsed next more state = some found := by
  obtain ⟨n, hn, hfound⟩ := searchUnused_eq_some.mp h
  exact searchUnused_eq_some.mpr ⟨n, by omega, hfound⟩

/-- The loop ends when some round has an unused name, at the latest in that round. -/
theorem exists_searchUnused {state : State} {n : Nat}
    (hunused : isUsed (searchState next state n) = false) :
    ∃ k ≤ n, isUsed (searchState next state k) = false ∧
      searchUnused isUsed next (n + 1) state = some (searchState next state k) := by
  -- the first such round
  have hexists : ∃ k, isUsed (searchState next state k) = false := ⟨n, hunused⟩
  have hfirst := Nat.find_spec hexists
  have hle : Nat.find hexists ≤ n := Nat.find_le hunused
  refine ⟨Nat.find hexists, hle, hfirst, ?_⟩
  refine searchUnused_eq_some.mpr ⟨Nat.find hexists, by omega, rfl, hfirst, ?_⟩
  intro k hk
  have hused := Nat.find_min hexists hk
  simpa using hused

end Search

end Onadata.Lib
