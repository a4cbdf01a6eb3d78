import Mathlib.Logic.Function.Basic

/-!
# `Onadata.Lib.ResponseCache`: responses that are kept under a key

A request is answered from the cache when there is a value under its key. Otherwise the answer
is computed, and kept when it is a value. `Transparent` says that each answer of a run is the
one that is computed without the cache.

`transparent_iff`: a run from an empty cache is transparent exactly when any two requests of it
that share an entry compute the same value. Two requests share an entry (`Shares`) when they
have the same key and it does not expire between them.
-/

set_option autoImplicit false

namespace Onadata.Lib

variable {Request Key Value Error : Type} [DecidableEq Key]

/-- What happens to the cache: a request, or an entry that expires. -/
inductive CacheEvent (Request Key : Type)
  | request (r : Request)
  | expire (k : Key)
  deriving DecidableEq, Repr

/-- The cache with a value under a key. -/
def keep (cache : Key → Option Value) (k : Key) (v : Value) : Key → Option Value :=
  fun k' => if k' = k then some v else cache k'

/-- The cache without the entry of a key. -/
def drop (cache : Key → Option Value) (k : Key) : Key → Option Value :=
  fun k' => if k' = k then none else cache k'

/-- The answer to a request, and the cache after it. -/
def answer (key : Request → Option Key) (compute : Request → Except Error Value)
    (cache : Key → Option Value) (r : Request) : Except Error Value × (Key → Option Value) :=
  match key r with
  | none => (compute r, cache)
  | some k =>
      match cache k with
      | some v => (.ok v, cache)
      | none =>
          match compute r with
          | .ok v => (.ok v, keep cache k v)
          | .error e => (.error e, cache)

/-- Each answer of the run is the computed one. -/
def Transparent (key : Request → Option Key) (compute : Request → Except Error Value) :
    (Key → Option Value) → List (CacheEvent Request Key) → Prop
  | _, [] => True
  | cache, .request r :: rest =>
      (answer key compute cache r).1 = compute r ∧
        Transparent key compute (answer key compute cache r).2 rest
  | cache, .expire k :: rest => Transparent key compute (drop cache k) rest

/-- The request `r` has the key `k`, and comes before the entry of `k` expires. -/
def Reads (key : Request → Option Key) (k : Key) (r : Request) :
    List (CacheEvent Request Key) → Prop
  | [] => False
  | .request q :: rest => (q = r ∧ key q = some k) ∨ Reads key k r rest
  | .expire k' :: rest => k' ≠ k ∧ Reads key k r rest

/-- The request `r` comes before `r'`, with the same key, which does not expire between. -/
def Shares (key : Request → Option Key) (r r' : Request) : List (CacheEvent Request Key) → Prop
  | [] => False
  | .request q :: rest => (q = r ∧ ∃ k, key q = some k ∧ Reads key k r' rest) ∨ Shares key r r' rest
  | .expire _ :: rest => Shares key r r' rest

section
variable {key : Request → Option Key} {compute : Request → Except Error Value}

/-- The values that the cache holds, and those that are computed in the run, are the ones that
later requests compute. -/
theorem transparent_iff_of_cache (events : List (CacheEvent Request Key))
    (cache : Key → Option Value) :
    Transparent key compute cache events ↔
      (∀ k v, cache k = some v → ∀ r, Reads key k r events → compute r = .ok v) ∧
        ∀ r r', Shares key r r' events → ∀ v, compute r = .ok v → compute r' = .ok v := by
  induction events generalizing cache with
  | nil =>
      unfold Transparent
      exact iff_of_true trivial ⟨fun _ _ _ _ h => h.elim, fun _ _ h => h.elim⟩
  | cons event rest ih =>
      cases event with
      | expire k =>
          unfold Transparent Reads Shares
          rw [ih]
          refine and_congr_left fun _ => ?_
          unfold drop
          constructor
          · intro h k' v hv r hr
            exact h k' v (by rw [if_neg (Ne.symm hr.1), hv]) r hr.2
          · intro h k' v hv r hr
            by_cases hk : k' = k
            · simp [hk] at hv
            · rw [if_neg hk] at hv
              exact h k' v hv r ⟨Ne.symm hk, hr⟩
      | request q =>
          unfold Transparent Reads Shares
          rw [ih]
          cases hkey : key q with
          | none =>
              -- a request without a key neither reads nor writes the cache
              simp only [answer, hkey, true_and, reduceCtorEq, and_false, false_and, exists_false,
                false_or]
          | some k =>
              cases hentry : cache k with
              | some v =>
                  simp only [answer, hkey, hentry, Option.some.injEq]
                  constructor
                  · intro h
                    obtain ⟨hq, hcache, hshares⟩ := h
                    refine ⟨fun k' v' hv' r hr => ?_, fun r r' hr v' hv' => ?_⟩
                    · cases hr with
                      | inl hr =>
                          obtain ⟨rfl, rfl⟩ := hr
                          rw [hentry] at hv'
                          rw [← hq, Option.some.inj hv']
                      | inr hr => exact hcache k' v' hv' r hr
                    · cases hr with
                      | inl hr =>
                          obtain ⟨rfl, k', rfl, hreads⟩ := hr
                          rw [← hq] at hv'
                          exact hv' ▸ hcache k v hentry r' hreads
                      | inr hr => exact hshares r r' hr v' hv'
                  · intro h
                    refine ⟨(h.1 k v hentry q (Or.inl ⟨rfl, rfl⟩)).symm, fun k' v' hv' r hr => ?_,
                      fun r r' hr => h.2 r r' (Or.inr hr)⟩
                    exact h.1 k' v' hv' r (Or.inr hr)
              | none =>
                  cases hcompute : compute q with
                  | error e =>
                      simp only [answer, hkey, hentry, hcompute, true_and, Option.some.injEq]
                      constructor
                      · intro h
                        refine ⟨fun k' v' hv' r hr => ?_, fun r r' hr v' hv' => ?_⟩
                        · cases hr with
                          | inl hr => simp [← hr.2, hentry] at hv'
                          | inr hr => exact h.1 k' v' hv' r hr
                        · cases hr with
                          | inl hr => simp [← hr.1, hcompute] at hv'
                          | inr hr => exact h.2 r r' hr v' hv'
                      · intro h
                        exact ⟨fun k' v' hv' r hr => h.1 k' v' hv' r (Or.inr hr),
                          fun r r' hr => h.2 r r' (Or.inr hr)⟩
                  | ok v =>
                      simp only [answer, hkey, hentry, hcompute, true_and, Option.some.injEq]
                      unfold keep
                      constructor
                      · intro h
                        refine ⟨fun k' v' hv' r hr => ?_, fun r r' hr v' hv' => ?_⟩
                        · have hne : k' ≠ k := by
                            intro hk
                            simp [hk, hentry] at hv'
                          cases hr with
                          | inl hr => exact absurd hr.2.symm hne
                          | inr hr => exact h.1 k' v' (by rw [if_neg hne, hv']) r hr
                        · cases hr with
                          | inl hr =>
                              obtain ⟨rfl, k', rfl, hreads⟩ := hr
                              rw [hcompute] at hv'
                              rw [← hv']
                              exact h.1 k v (if_pos rfl) r' hreads
                          | inr hr => exact h.2 r r' hr v' hv'
                      · intro h
                        refine ⟨fun k' v' hv' r hr => ?_, fun r r' hr => h.2 r r' (Or.inr hr)⟩
                        by_cases hk : k' = k
                        · rw [if_pos hk] at hv'
                          rw [← Option.some.inj hv']
                          exact h.2 q r (Or.inl ⟨rfl, k, rfl, hk ▸ hr⟩) v hcompute
                        · rw [if_neg hk] at hv'
                          exact h.1 k' v' hv' r (Or.inr hr)

/-- A run from an empty cache is transparent exactly when the requests that share an entry
compute the same value. -/
theorem transparent_iff (events : List (CacheEvent Request Key)) :
    Transparent key compute (fun _ => none) events ↔
      ∀ r r', Shares key r r' events → ∀ v, compute r = .ok v → compute r' = .ok v := by
  rw [transparent_iff_of_cache]
  exact and_iff_right fun _ _ h => nomatch h

end

end Onadata.Lib
