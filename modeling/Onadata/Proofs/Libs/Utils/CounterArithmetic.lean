import Onadata.Lib.Run
import Onadata.Proofs.Libs.Utils.CacheFailures

/-!
# `Onadata.Proofs.Libs.Utils.CounterArithmetic`: counter calls one after the other

Calls of `adjust_counter` with any deltas and commits, from an empty cache and without a
failure. The database field and the cached counter of a primary key add up to its value at the
start and the deltas, as long as no call by more than one is the first increment of a counter:
that one counts one.

* `balanced_iff`: a run keeps every sum at each step exactly when each of its calls counts in
  full.
* `not_balanced_two`: one call by two.
-/

set_option autoImplicit false

namespace Onadata.Proofs

open Onadata.Lib Onadata.CounterAction

/-- A call of `adjust_counter` or of `commit_cached_counters`. -/
inductive CounterRequest
  | adjust (context : CallContext) (call : AdjustCall)
  | commit (context : CallContext)

/-- The store after a commit that nothing fails in. -/
def afterCommit (context : CallContext) (cache : CounterCache) : CounterCache :=
  match commitCachedCounters context none cache with
  | .ok _ cache' => cache'
  | .error _ cache' => cache'

/-- The store after a call that nothing fails in. -/
def afterRequest (cache : CounterCache) : CounterRequest → CounterCache
  | .adjust context call => afterCall context call none cache
  | .commit context => afterCommit context cache

/-- What a call asks to add to the counter of `pk`. -/
def askedFor (pk : Nat) : CounterRequest → Int
  | .adjust _ call => if call.pk = pk then call.delta else 0
  | .commit _ => 0

/-- The store, and what each counter should add up to. -/
structure Books where
  cache : CounterCache
  total : Nat → Int

/-- A call, and what it asks for. -/
def Books.Step (books : Books) (request : CounterRequest) (books' : Books) : Prop :=
  books' = ⟨afterRequest books.cache request, fun pk => books.total pk + askedFor pk request⟩

/-- The database with an empty cache. -/
def emptyCache (db : Nat → Int) : CounterCache :=
  { db := db, since := 0, failoverReport := false }

/-- The books before the first call. -/
def openBooks (db : Nat → Int) : Books :=
  ⟨emptyCache db, db⟩

/-- The database field and the cached counter of each key add up to its total. -/
def Balanced (books : Books) : Prop :=
  ∀ pk, books.cache.db pk + books.cache.counter pk = books.total pk

/-- The call does not increment a missing counter by more than one. -/
def CountsInFull (cache : CounterCache) : CounterRequest → Prop
  | .adjust _ call => call.delta ≤ 1 ∨ cache.counters call.pk ≠ none
  | .commit _ => True

/-- The books between two calls: the locks are free. -/
structure Between (books : Books) : Prop where
  balanced : Balanced books
  lock : books.cache.lock = false
  idsLock : books.cache.trackedIdsLock = false

/-- What a call adds to the ledger of its key. -/
def countedBy (cache : CounterCache) (call : AdjustCall) : Int :=
  if 0 < call.delta then incremented cache call else call.delta

/-- A call that nothing fails in. -/
theorem afterCall_spec {cache : CounterCache} (context : CallContext) (call : AdjustCall)
    (hlock : cache.lock = false) (hidsLock : cache.trackedIdsLock = false) :
    (∀ pk, amount (afterCall context call none cache).toCounterStore pk =
      amount cache.toCounterStore pk + if call.pk = pk then countedBy cache call else 0) ∧
    (afterCall context call none cache).lock = false ∧
    (afterCall context call none cache).trackedIdsLock = false := by
  have hnone : ∀ op, ¬ Faulty.Hits (none : Option (Fault CacheOperation)) op := by simp
  cases hskips : skipsCache cache call with
  | true =>
      rw [afterCall_skips hskips]
      refine ⟨fun pk => ?_, hlock, hidsLock⟩
      have hdelta : ¬ 0 < call.delta := by
        simp only [skipsCache, hlock, Bool.false_or, Bool.and_eq_true, decide_eq_true_eq] at hskips
        omega
      rw [countedBy, if_neg hdelta]
      exact amount_adjustNumericField _ _ _ _
  | false =>
      have hphase : ∃ mid,
          adjustCached context call none cache =
            executeCachedCounterCommitFailover context none mid ∧
          (∀ pk, amount mid.toCounterStore pk = amount cache.toCounterStore pk +
            if call.pk = pk then countedBy cache call else 0) ∧
          mid.lock = false ∧ mid.trackedIdsLock = false := by
        by_cases hdelta : 0 < call.delta
        · obtain ⟨mid, hrun, hamount, -, -, -, hmidLock, hmidIds, -⟩ :=
            increment_returns context (hnone _) (hnone _) hidsLock (hnone _)
              (hnone _) fun _ => hnone _
          rw [countedBy, if_pos hdelta, adjustCached_increment hdelta]
          exact ⟨mid, Faulty.seq_of_ok hrun, hamount, hmidLock.trans hlock, hmidIds⟩
        · obtain ⟨mid, hrun, hamount, -, -, -, hmidLock, hmidIds, -⟩ :=
            decrement_returns (hnone _) (fun _ => hnone _) hskips hdelta
          rw [countedBy, if_neg hdelta, adjustCached_decrement hdelta]
          exact ⟨mid, Faulty.seq_of_ok hrun, hamount, hmidLock.trans hlock,
            hmidIds.trans hidsLock⟩
      obtain ⟨mid, hcached, hamount, hmidLock, hmidIds⟩ := hphase
      obtain ⟨cache', hrun, hsettled, hlock', hids'⟩ :=
        failover_returns context none hmidLock (by simp)
      rw [afterCall_returns hskips (hcached.trans hrun)]
      refine ⟨fun pk => ?_, hlock', hids'.trans hmidIds⟩
      rw [hsettled.ledger, hamount, Int.add_zero]

/-- A commit that nothing fails in. -/
theorem afterCommit_spec {cache : CounterCache} (context : CallContext)
    (hlock : cache.lock = false) :
    (∀ pk, amount (afterCommit context cache).toCounterStore pk =
      amount cache.toCounterStore pk) ∧
    (afterCommit context cache).lock = false ∧
    (afterCommit context cache).trackedIdsLock = cache.trackedIdsLock := by
  obtain ⟨cache', hrun, hsettled, hlock', hids', -⟩ :=
    commitCachedCounters_returns context none hlock (by simp)
  rw [afterCommit, hrun]
  refine ⟨fun pk => ?_, hlock', hids'⟩
  rw [hsettled.ledger, Int.add_zero]

/-- A call counts its delta exactly when it counts in full. -/
theorem countedBy_eq_iff {cache : CounterCache} {context : CallContext} {call : AdjustCall} :
    countedBy cache call = call.delta ↔ CountsInFull cache (.adjust context call) := by
  unfold countedBy incremented CountsInFull
  by_cases hdelta : 0 < call.delta
  · rw [if_pos hdelta]
    by_cases hnone : cache.counters call.pk = none
    · rw [if_pos hnone]
      constructor
      · exact fun h => .inl (by omega)
      · rintro (h | h)
        · omega
        · exact absurd hnone h
    · rw [if_neg hnone]
      exact iff_of_true rfl (.inr hnone)
  · rw [if_neg hdelta]
    exact iff_of_true rfl (.inl (by omega))

/-- A call leaves the locks free, and keeps the balance exactly when it counts in full. -/
theorem between_step {books books' : Books} {request : CounterRequest}
    (hstep : books.Step request books') (h : Between books) :
    (Balanced books' ↔ CountsInFull books.cache request) ∧
      books'.cache.lock = false ∧ books'.cache.trackedIdsLock = false := by
  subst hstep
  cases request with
  | commit context =>
      obtain ⟨hamount, hlock, hids⟩ := afterCommit_spec context h.lock
      refine ⟨iff_of_true (fun pk => ?_) trivial, hlock, hids.trans h.idsLock⟩
      show amount (afterCommit context books.cache).toCounterStore pk = books.total pk + 0
      rw [hamount, Int.add_zero]
      exact h.balanced pk
  | adjust context call =>
      obtain ⟨hamount, hlock, hids⟩ := afterCall_spec context call h.lock h.idsLock
      refine ⟨?_, hlock, hids⟩
      rw [← countedBy_eq_iff]
      have hpk : ∀ pk,
          amount (afterCall context call none books.cache).toCounterStore pk =
              books.total pk + (if call.pk = pk then call.delta else 0) ↔
            (call.pk = pk → countedBy books.cache call = call.delta) := by
        intro pk
        have hbalanced : amount books.cache.toCounterStore pk = books.total pk := h.balanced pk
        rw [hamount, hbalanced]
        split
        · rename_i heq
          simp [heq]
        · rename_i hne
          simp [hne]
      constructor
      · exact fun hbalanced => (hpk call.pk).mp (hbalanced call.pk) rfl
      · exact fun hcounts pk => (hpk pk).mpr fun _ => hcounts

/-- The books before the first call balance. -/
theorem between_openBooks (db : Nat → Int) : Between (openBooks db) :=
  ⟨fun pk => Int.add_zero (db pk), rfl, rfl⟩

/-- A run of calls keeps the balance at each step exactly when each call counts in full. -/
theorem balanced_iff (db : Nat → Int) (requests : List CounterRequest) (books : Books) :
    Run (Guarded Books.Step fun _ _ books' => Balanced books') (openBooks db) requests books ↔
      Run (Guarded Books.Step fun books request _ => CountsInFull books.cache request)
        (openBooks db) requests books := by
  refine Run.guarded_congr Between (between_openBooks db) ?_ ?_
  · exact fun books request books' _ hstep h => (between_step hstep h).1
  · intro books request books' _ hstep hcounts h
    obtain ⟨hiff, hlock, hids⟩ := between_step hstep h
    exact ⟨hiff.mpr hcounts, hlock, hids⟩

/-- One call by two on an empty cache: the counter is one. -/
theorem not_balanced_two :
    ¬ ∀ (db : Nat → Int) (requests : List CounterRequest) (books : Books),
      Run Books.Step (openBooks db) requests books → Balanced books := by
  intro h
  have hcounts := h (fun _ => 0) [.adjust ⟨5, 5, 7200, id, fun _ => .rfl⟩ ⟨1, 2⟩] _
    (.cons rfl (.nil _)) 1
  revert hcounts
  decide

end Onadata.Proofs
