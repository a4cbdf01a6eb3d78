import Onadata.Proofs.Libs.Utils.CounterCalls

/-!
# `Onadata.Proofs.Libs.Utils.CacheFailures`: a counter call with a failure of the cache

`adjust_counter` falls back to the database if an operation of the cache fails. The fallback adds
the delta whatever has already happened, so the failure is harmless only before the counter in
the cache has changed. The first increment changes it at once, and it counts one.

* `countsExactly_iff`: when a call changes the ledger by its delta and keeps the other ids.
* `not_countsExactly_createdAt`: the second increment of a counter, where the time of the
  caching can not be read.
-/

set_option autoImplicit false

namespace Onadata.Proofs

open Onadata.Lib Onadata.Lib.Faulty Onadata.CounterAction

section
variable {fault : Option (Fault CacheOperation)} {cache cache' : CounterCache}
  {context : CallContext} {call : AdjustCall}

/-! ### The tracked ids -/

/-- `set_cache_with_lock` of a call. -/
def trackId (pk : Nat) : CounterAction Unit :=
  setCacheWithLock fun current => addToModifiedIds pk (current.getD [])

/-- The tracked ids after the update, if it returns. Without the ids that were there, the call
tracks its own id only. -/
def idsAfter (fault : Option (Fault CacheOperation)) (cache : CounterCache) (pk : Nat) :
    Option (List Nat) :=
  if fault = some ⟨.setIds, false⟩ then cache.trackedIds
  else if fault = some ⟨.getIds, true⟩ ∨ fault = some ⟨.getIds, false⟩ then some [pk]
  else some (addToModifiedIds pk cache.ids)

/-- The lock of the tracked ids is taken. -/
theorem trackId_taken (htaken : cache.trackedIdsLock = true) (h : ¬ Hits fault .addIdsLock)
    (pk : Nat) : trackId pk fault cache = .error .cacheLockError cache := by
  have hsame : { cache with trackedIdsLock := true } = cache := by
    rw [← htaken]
  rw [trackId, setCacheWithLock, cacheOperation_seq h, htaken, if_neg (by simp), hsame]
  rfl

/-- The lock of the tracked ids can not be asked for. -/
theorem trackId_acquire (cache : CounterCache) (applied : Bool) (pk : Nat) :
    ∃ taken, trackId pk (some ⟨.addIdsLock, applied⟩) cache =
      .error .connectionError { cache with trackedIdsLock := taken } := by
  rw [trackId, setCacheWithLock, cacheOperation_seq_hits]
  cases applied with
  | false => exact ⟨cache.trackedIdsLock, rfl⟩
  | true => exact ⟨true, rfl⟩

/-- The lock of the tracked ids is free: the ids are written, and the lock is released. -/
theorem trackId_free (hfree : cache.trackedIdsLock = false) (h : ¬ Hits fault .addIdsLock)
    (pk : Nat) :
    trackId pk fault cache =
      cacheUpdate .deleteIdsLock (fun cache => { cache with trackedIdsLock := false }) fault
        { cache with trackedIdsLock := true, trackedIds := idsAfter fault cache pk } := by
  rw [trackId, setCacheWithLock, cacheOperation_seq h, hfree, if_pos (by rfl)]
  cases fault with
  | none => rfl
  | some f =>
      obtain ⟨op, applied⟩ := f
      cases op with
      | getIds => cases applied <;> rfl
      | setIds => cases applied <;> rfl
      | _ => rfl

/-- The other ids stay tracked, if they were read. -/
theorem subset_idsAfter (fault : Option (Fault CacheOperation)) (cache : CounterCache) (pk : Nat)
    (h : ¬ Hits fault .getIds) :
    cache.ids ⊆ (idsAfter fault cache pk).getD [] := by
  intro pk' hpk'
  unfold idsAfter
  split_ifs with hset hget
  · exact hpk'
  · exact absurd (hits_iff.mpr (hget.elim (fun h => ⟨true, h⟩) fun h => ⟨false, h⟩)) h
  · exact mem_addToModifiedIds.mpr (.inr hpk')

/-! ### The increment -/

/-- What the first operation leaves. -/
def added (cache : CounterCache) (pk : Nat) : CounterCache :=
  (cache.addCounter pk 1).2

/-- What the first operation adds to the ledger. -/
def addedAmount (cache : CounterCache) (pk : Nat) : Int :=
  if cache.counters pk = none then 1 else 0

/-- The store before `cache.incr`. -/
def tracked (context : CallContext) (fault : Option (Fault CacheOperation))
    (cache : CounterCache) (pk : Nat) : CounterCache :=
  CounterCache.addCreatedAt
    { added cache pk with
      trackedIds := idsAfter fault (added cache pk) pk
      trackedIdsLock := false } context.now

theorem addCounter_fst (pk : Nat) (value : Int) :
    (cache.addCounter pk value).1 = (cache.counters pk).isNone := by
  unfold CounterCache.addCounter
  split
  · rename_i h
    exact h.symm
  · rename_i h
    exact (Bool.eq_false_iff.mpr h).symm

/-- The first operation sets the counter, or nothing. -/
theorem added_eq (cache : CounterCache) (pk : Nat) :
    added cache pk = if cache.counters pk = none then cache.setCounter pk 1 else cache := by
  unfold added CounterCache.addCounter
  cases cache.counters pk with
  | none => rfl
  | some value => rfl

theorem amount_added (cache : CounterCache) (pk pk' : Nat) :
    amount (added cache pk).toCounterStore pk' =
      amount cache.toCounterStore pk' + if pk = pk' then addedAmount cache pk else 0 := by
  rw [added_eq, addedAmount]
  split_ifs with hnone hpk
  · show amount (cache.toCounterStore.setCounter pk 1) pk' = _
    rw [amount_setCounter, if_pos hpk, CounterStore.counter, hnone]
    rfl
  · show amount (cache.toCounterStore.setCounter pk 1) pk' = _
    rw [amount_setCounter, if_neg hpk]
  · rw [Int.add_zero]
  · rw [Int.add_zero]

theorem counters_added (cache : CounterCache) {pk pk' : Nat} (h : pk' ≠ pk) :
    (added cache pk).counters pk' = cache.counters pk' := by
  rw [added_eq]
  split
  · exact (counters_setCounter _ pk pk' 1).trans (if_neg h)
  · rfl

/-- The first operation leaves the other fields. -/
theorem added_fields (cache : CounterCache) (pk : Nat) :
    added cache pk = { cache with counters := (added cache pk).counters } := by
  rw [added_eq]
  split <;> rfl

/-- The operations of an increment before `cache.incr`. -/
theorem increment_run (hadd : ¬ Hits fault .addCounter) (hacquire : ¬ Hits fault .addIdsLock)
    (hfree : cache.trackedIdsLock = false) (hrelease : ¬ Hits fault .deleteIdsLock)
    (hcreated : ¬ Hits fault .addCreatedAt) :
    incrementCachedCounter context call fault cache =
      (if !(cache.counters call.pk).isNone then incr .incrCounter call.pk call.delta
        else pure ()) fault (tracked context fault cache call.pk) := by
  have hfree' : (added cache call.pk).trackedIdsLock = false := by
    rw [added_fields]
    exact hfree
  have htrack := trackId_free hfree' hacquire call.pk
  rw [cacheUpdate_run hrelease] at htrack
  rw [incrementCachedCounter, cacheOperation_seq hadd, addCounter_fst]
  show (trackId call.pk >>= _) fault (added cache call.pk) = _
  rw [seq_of_ok htrack, seq_of_ok (cacheUpdate_run hcreated)]
  rfl

/-- `cache.incr` of a counter that is there. -/
theorem incr_run {op : CacheOperation} {pk : Nat} {delta value : Int} (h : ¬ Hits fault op)
    (hvalue : cache.counters pk = some value) :
    incr op pk delta fault cache = .ok () (cache.setCounter pk (value + delta)) := by
  rw [incr, cacheOperation_seq h, CounterCache.incrCounter, hvalue]
  rfl

/-- `cache.incr` of a counter that is there, which fails. -/
theorem incr_hits {op : CacheOperation} {applied : Bool} {pk : Nat} {delta value : Int}
    (hvalue : cache.counters pk = some value) :
    incr op pk delta (some ⟨op, applied⟩) cache =
      .error .connectionError
        (if applied then cache.setCounter pk (value + delta) else cache) := by
  rw [incr, cacheOperation_seq_hits, CounterCache.incrCounter, hvalue]

/-- The fields of the store before `cache.incr`. -/
theorem tracked_fields (context : CallContext) (fault : Option (Fault CacheOperation))
    (cache : CounterCache) (pk : Nat) :
    (tracked context fault cache pk).db = (added cache pk).db ∧
      (tracked context fault cache pk).counters = (added cache pk).counters ∧
      (tracked context fault cache pk).ids = (idsAfter fault cache pk).getD [] ∧
      (tracked context fault cache pk).lock = cache.lock ∧
      (tracked context fault cache pk).trackedIdsLock = false ∧
      (tracked context fault cache pk).cacheCreatedAt =
        some (cache.cacheCreatedAt.getD context.now) ∧
      (tracked context fault cache pk).failoverReport = cache.failoverReport := by
  unfold tracked CounterCache.addCreatedAt
  rw [added_fields]
  cases hcreated : cache.createdAt with
  | false => simp [CounterStore.ids, idsAfter, CounterCache.cacheCreatedAt, hcreated]
  | true => simp [CounterStore.ids, idsAfter, CounterCache.cacheCreatedAt, hcreated]

/-- What an increment adds to the ledger before the failover. -/
def incremented (cache : CounterCache) (call : AdjustCall) : Int :=
  if cache.counters call.pk = none then 1 else call.delta

/-- An increment returns, if no operation of it fails. -/
theorem increment_returns (context : CallContext) (hadd : ¬ Hits fault .addCounter)
    (hacquire : ¬ Hits fault .addIdsLock) (hfree : cache.trackedIdsLock = false) (hrelease : ¬ Hits fault .deleteIdsLock)
    (hcreated : ¬ Hits fault .addCreatedAt)
    (hincr : cache.counters call.pk ≠ none → ¬ Hits fault .incrCounter) :
    ∃ mid, incrementCachedCounter context call fault cache = .ok () mid ∧
      (∀ pk, amount mid.toCounterStore pk = amount cache.toCounterStore pk +
        if call.pk = pk then incremented cache call else 0) ∧
      (∀ pk, pk ≠ call.pk → mid.counters pk = cache.counters pk) ∧
      mid.db = cache.db ∧ mid.ids = (idsAfter fault cache call.pk).getD [] ∧
      mid.lock = cache.lock ∧ mid.trackedIdsLock = false ∧
      mid.cacheCreatedAt = some (cache.cacheCreatedAt.getD context.now) ∧
      mid.failoverReport = cache.failoverReport := by
  obtain ⟨hdb, hcounters, hids, hlock, hidsLock, htime, hreport⟩ :=
    tracked_fields context fault cache call.pk
  have hamount : ∀ pk, amount (tracked context fault cache call.pk).toCounterStore pk =
      amount (added cache call.pk).toCounterStore pk := by
    intro pk
    simp only [amount, CounterStore.counter, hdb, hcounters]
  have hsame : (tracked context fault cache call.pk).db = cache.db := by
    rw [hdb, added_fields]
  rw [increment_run hadd hacquire hfree hrelease hcreated]
  cases hvalue : cache.counters call.pk with
  | none =>
      refine ⟨_, rfl, fun pk => ?_, fun pk hpk => ?_, hsame, hids, hlock, hidsLock, htime,
        hreport⟩
      · rw [hamount, amount_added, addedAmount, incremented, hvalue]
        rfl
      · rw [hcounters, counters_added cache hpk]
  | some value =>
      have hadded : added cache call.pk = cache := by
        rw [added_eq, hvalue]
        rfl
      have hpresent : (tracked context fault cache call.pk).counters call.pk = some value := by
        rw [hcounters, hadded, hvalue]
      rw [if_pos (by rfl), incr_run (hincr (by simp [hvalue])) hpresent]
      refine ⟨_, rfl, fun pk => ?_, fun pk hpk => ?_, hsame, hids, hlock, hidsLock, htime,
        hreport⟩
      · show amount ((tracked context fault cache call.pk).toCounterStore.setCounter call.pk
          (value + call.delta)) pk = _
        rw [amount_setCounter, hamount, hadded, CounterStore.counter, hpresent, incremented,
          hvalue]
        split <;> simp
      · show ((tracked context fault cache call.pk).toCounterStore.setCounter call.pk
          (value + call.delta)).counters pk = _
        rw [counters_setCounter, if_neg hpk, hcounters, hadded]

/-- What a failed increment adds to the ledger before the fallback: nothing, unless the first
operation has changed the counter, or the reply of `cache.incr` is lost. -/
def addedBy (fault : Option (Fault CacheOperation)) (cache : CounterCache) (call : AdjustCall) :
    Int :=
  if fault = some ⟨.addCounter, false⟩ then 0
  else if fault = some ⟨.incrCounter, true⟩ then call.delta
  else addedAmount cache call.pk

theorem addedBy_eq (hadd : fault ≠ some ⟨.addCounter, false⟩)
    (hincr : fault ≠ some ⟨.incrCounter, true⟩) :
    addedBy fault cache call = addedAmount cache call.pk := by
  rw [addedBy, if_neg hadd, if_neg hincr]

/-- An increment fails, if an operation of it fails. -/
theorem increment_fails (context : CallContext)
    (h : Hits fault .addCounter ∨ Hits fault .addIdsLock ∨
      cache.trackedIdsLock = false ∧ (Hits fault .deleteIdsLock ∨ Hits fault .addCreatedAt ∨
        Hits fault .incrCounter ∧ cache.counters call.pk ≠ none)) :
    ∃ mid, incrementCachedCounter context call fault cache = .error .connectionError mid ∧
      amount mid.toCounterStore call.pk =
        amount cache.toCounterStore call.pk + addedBy fault cache call ∧
      cache.ids ⊆ mid.ids := by
  have hadded : amount (added cache call.pk).toCounterStore call.pk =
      amount cache.toCounterStore call.pk + addedAmount cache call.pk := by
    rw [amount_added, if_pos rfl]
  have hsameIds : (added cache call.pk).ids = cache.ids := by
    rw [added_fields]
    rfl
  obtain ⟨hdb, hcounters, hids, -⟩ := tracked_fields context fault cache call.pk
  have htracked : amount (tracked context fault cache call.pk).toCounterStore call.pk =
      amount (added cache call.pk).toCounterStore call.pk := by
    simp only [amount, CounterStore.counter, hdb, hcounters]
  by_cases hadd : Hits fault .addCounter
  · -- The counter is added, or not.
    obtain ⟨applied, rfl⟩ := hits_iff.mp hadd
    rw [incrementCachedCounter, cacheOperation_seq_hits]
    refine ⟨_, rfl, ?_⟩
    cases applied with
    | false => exact ⟨by simp [addedBy], fun _ => id⟩
    | true =>
        refine ⟨?_, fun _ hpk => hsameIds.symm ▸ hpk⟩
        rw [addedBy_eq (by simp) (by simp)]
        exact hadded
  by_cases hacquire : Hits fault .addIdsLock
  · obtain ⟨applied, rfl⟩ := hits_iff.mp hacquire
    obtain ⟨taken, hrun⟩ := trackId_acquire (added cache call.pk) applied call.pk
    rw [incrementCachedCounter, cacheOperation_seq hadd]
    show ∃ mid, (trackId call.pk >>= _) _ (added cache call.pk) = _ ∧ _
    rw [seq_of_error hrun]
    refine ⟨_, rfl, ?_, fun _ hpk => hsameIds.symm ▸ hpk⟩
    rw [addedBy_eq (by simp) (by simp)]
    exact hadded
  obtain ⟨hfree, h⟩ := (h.resolve_left hadd).resolve_left hacquire
  have hfree' : (added cache call.pk).trackedIdsLock = false := by
    rw [added_fields]
    exact hfree
  have htrack := trackId_free hfree' hacquire call.pk
  by_cases hrelease : Hits fault .deleteIdsLock
  · obtain ⟨applied, rfl⟩ := hits_iff.mp hrelease
    rw [cacheUpdate_hits] at htrack
    rw [incrementCachedCounter, cacheOperation_seq hadd]
    show ∃ mid, (trackId call.pk >>= _) _ (added cache call.pk) = _ ∧ _
    rw [seq_of_error htrack]
    refine ⟨_, rfl, ?_⟩
    have hsub := subset_idsAfter (some ⟨.deleteIdsLock, applied⟩) (added cache call.pk) call.pk
      (by simp)
    rw [hsameIds] at hsub
    rw [addedBy_eq (by simp) (by simp)]
    cases applied with
    | false => exact ⟨hadded, hsub⟩
    | true => exact ⟨hadded, hsub⟩
  rw [cacheUpdate_run hrelease] at htrack
  by_cases hcreated : Hits fault .addCreatedAt
  · obtain ⟨applied, rfl⟩ := hits_iff.mp hcreated
    rw [incrementCachedCounter, cacheOperation_seq hadd]
    show ∃ mid, (trackId call.pk >>= _) _ (added cache call.pk) = _ ∧ _
    rw [seq_of_ok htrack, seq_of_error cacheUpdate_hits]
    refine ⟨_, rfl, ?_⟩
    have hsub := subset_idsAfter (some ⟨.addCreatedAt, applied⟩) (added cache call.pk) call.pk
      (by simp)
    rw [hsameIds] at hsub
    rw [addedBy_eq (by simp) (by simp)]
    cases applied with
    | false => exact ⟨hadded, hsub⟩
    | true =>
        refine ⟨htracked.trans hadded, ?_⟩
        show cache.ids ⊆ (tracked context (some ⟨.addCreatedAt, true⟩) cache call.pk).ids
        rw [hids]
        exact subset_idsAfter _ cache call.pk (by simp)
  -- The counter is there, and it is incremented, or not.
  obtain ⟨hincr, hpresent⟩ := (h.resolve_left hrelease).resolve_left hcreated
  obtain ⟨applied, rfl⟩ := hits_iff.mp hincr
  obtain ⟨value, hvalue⟩ := Option.ne_none_iff_exists'.mp hpresent
  have hsame : added cache call.pk = cache := by
    rw [added_eq, if_neg hpresent]
  have hvalue' :
      (tracked context (some ⟨.incrCounter, applied⟩) cache call.pk).counters call.pk =
        some value := by
    rw [hcounters, hsame, hvalue]
  rw [increment_run hadd hacquire hfree hrelease hcreated, hvalue, if_pos (by rfl),
    incr_hits hvalue']
  have hsub := subset_idsAfter (some ⟨.incrCounter, applied⟩) cache call.pk (by simp)
  refine ⟨_, rfl, ?_⟩
  cases applied with
  | false =>
      refine ⟨?_, by rw [← hids] at hsub; exact hsub⟩
      show amount (tracked context _ cache call.pk).toCounterStore call.pk = _
      rw [htracked, hsame]
      simp [addedBy, addedAmount, hvalue]
  | true =>
      refine ⟨?_, by rw [← hids] at hsub; exact hsub⟩
      show amount ((tracked context _ cache call.pk).toCounterStore.setCounter call.pk
        (value + call.delta)) call.pk = _
      rw [amount_setCounter, htracked, hsame, if_pos rfl, CounterStore.counter, hvalue']
      simp [addedBy]

/-! ### The decrement -/

/-- A decrement returns, if no operation of it fails. -/
theorem decrement_returns (hget : ¬ Hits fault .getCounter)
    (hdecr : cache.counters call.pk ≠ none → ¬ Hits fault .decrCounter)
    (hskips : skipsCache cache call = false) (hdelta : ¬ 0 < call.delta) :
    ∃ mid, decrementCachedCounter call fault cache = .ok () mid ∧
      (∀ pk, amount mid.toCounterStore pk = amount cache.toCounterStore pk +
        if call.pk = pk then call.delta else 0) ∧
      (∀ pk, pk ≠ call.pk → mid.counters pk = cache.counters pk) ∧
      mid.db = cache.db ∧ mid.ids = cache.ids ∧ mid.lock = cache.lock ∧
      mid.trackedIdsLock = cache.trackedIdsLock ∧
      mid.cacheCreatedAt = cache.cacheCreatedAt ∧
      mid.failoverReport = cache.failoverReport := by
  rw [decrementCachedCounter, cacheRead_seq hget]
  cases hvalue : cache.counters call.pk with
  | none =>
      -- Without a counter, only a call by zero comes here.
      have hzero : call.delta = 0 := by
        simp only [skipsCache, hvalue, Option.isNone_none, Bool.and_true, Bool.or_eq_false_iff,
          decide_eq_false_iff_not] at hskips
        omega
      exact ⟨cache, rfl, fun pk => by simp [hzero], fun _ _ => rfl, rfl, rfl, rfl, rfl, rfl,
        rfl⟩
  | some value =>
      rw [if_pos (by rfl), incr_run (hdecr (by simp [hvalue])) hvalue]
      refine ⟨_, rfl, fun pk => ?_, fun pk hpk => ?_, rfl, rfl, rfl, rfl, rfl, rfl⟩
      · show amount (cache.toCounterStore.setCounter call.pk _) pk = _
        rw [amount_setCounter, CounterStore.counter, hvalue]
        split
        · show _ + (value + -(call.delta * -1) - value) = _
          omega
        · rfl
      · exact (counters_setCounter _ call.pk pk _).trans (if_neg hpk)

/-- A decrement fails, if an operation of it fails. -/
theorem decrement_fails
    (h : Hits fault .getCounter ∨ Hits fault .decrCounter ∧ cache.counters call.pk ≠ none) :
    ∃ mid, decrementCachedCounter call fault cache = .error .connectionError mid ∧
      amount mid.toCounterStore call.pk = amount cache.toCounterStore call.pk +
        (if fault = some ⟨.decrCounter, true⟩ then call.delta else 0) ∧
      mid.ids = cache.ids := by
  rcases h with hget | ⟨hdecr, hpresent⟩
  · obtain ⟨applied, rfl⟩ := hits_iff.mp hget
    rw [decrementCachedCounter, cacheRead_seq_hits]
    exact ⟨cache, rfl, by simp, rfl⟩
  · obtain ⟨applied, rfl⟩ := hits_iff.mp hdecr
    obtain ⟨value, hvalue⟩ := Option.ne_none_iff_exists'.mp hpresent
    rw [decrementCachedCounter, cacheRead_seq (by simp), hvalue, if_pos (by rfl),
      incr_hits hvalue]
    refine ⟨_, rfl, ?_, by cases applied <;> rfl⟩
    cases applied with
    | false => simp
    | true =>
        show amount (cache.toCounterStore.setCounter call.pk _) call.pk = _
        rw [amount_setCounter, CounterStore.counter, hvalue, if_pos rfl, if_pos rfl]
        show _ + (value + -(call.delta * -1) - value) = _
        omega

/-! ### The call -/

/-- The store after the call, whether it returns or raises. -/
def afterCall (context : CallContext) (call : AdjustCall)
    (fault : Option (Fault CacheOperation)) (cache : CounterCache) : CounterCache :=
  match adjustCounter context call fault cache with
  | .ok _ cache' => cache'
  | .error _ cache' => cache'

/-- The call changes the ledger by its delta, and no other id with a cached counter leaves the
tracked ids. -/
def CountsExactly (call : AdjustCall) (cache cache' : CounterCache) : Prop :=
  cache'.db call.pk + cache'.counter call.pk =
      cache.db call.pk + cache.counter call.pk + call.delta ∧
    ∀ pk ∈ cache.ids, pk ≠ call.pk → cache'.counters pk ≠ none → pk ∈ cache'.ids

/-- The operation is one that the failover of the call makes. -/
def InCallFailover (context : CallContext) (cache : CounterCache) (call : AdjustCall)
    (op : CacheOperation) : Prop :=
  if 0 < call.delta then
    InFailover context (some (cache.cacheCreatedAt.getD context.now)) (call.pk :: cache.ids)
      cache.failoverReport op
  else
    InFailover context cache.cacheCreatedAt cache.ids cache.failoverReport op

/-- The first increment of a counter counts its delta. -/
def FirstCounts (context : CallContext) (cache : CounterCache) (call : AdjustCall)
    (fault : Option (Fault CacheOperation)) : Prop :=
  fault = some ⟨.addCounter, false⟩ ∨
    call.delta = 1 ∧ ¬ Hits fault .addCounter ∧ ¬ Hits fault .addIdsLock ∧
      (cache.trackedIdsLock = true ∨
        ¬ Hits fault .deleteIdsLock ∧ ¬ Hits fault .addCreatedAt ∧
          ∀ f ∈ fault, ¬ InCallFailover context cache call f.operation)

/-- A failure in the failover does no harm: the call is one by zero, or a counter is counted
twice that makes up for the second delta. -/
def FailoverCounts (context : CallContext) (cache : CounterCache) (call : AdjustCall)
    (fault : Option (Fault CacheOperation)) : Prop :=
  (∃ f ∈ fault, InCallFailover context cache call f.operation) →
    call.delta + (if fault = some ⟨.deleteCounter call.pk, false⟩ then
      cache.counter call.pk + call.delta else 0) = 0

/-- A later increment of a counter counts its delta. -/
def LaterCounts (context : CallContext) (cache : CounterCache) (call : AdjustCall)
    (fault : Option (Fault CacheOperation)) : Prop :=
  Hits fault .addCounter ∨ Hits fault .addIdsLock ∨
    cache.trackedIdsLock = false ∧ fault ≠ some ⟨.incrCounter, true⟩ ∧
      FailoverCounts context cache call fault

/-- A decrement of a cached counter counts its delta. -/
def DecrementCounts (context : CallContext) (cache : CounterCache) (call : AdjustCall)
    (fault : Option (Fault CacheOperation)) : Prop :=
  (fault = some ⟨.decrCounter, true⟩ → cache.counters call.pk ≠ none → call.delta = 0) ∧
    FailoverCounts context cache call fault

/-- The call counts its delta. -/
def DeltaCounts (context : CallContext) (cache : CounterCache) (call : AdjustCall)
    (fault : Option (Fault CacheOperation)) : Prop :=
  if skipsCache cache call then True
  else if 0 < call.delta then
    if cache.counters call.pk = none then FirstCounts context cache call fault
    else LaterCounts context cache call fault
  else DecrementCounts context cache call fault

/-- The call keeps the other ids: it can read them, or there is none with a counter. -/
def KeepsIds (cache : CounterCache) (call : AdjustCall)
    (fault : Option (Fault CacheOperation)) : Prop :=
  skipsCache cache call = false → 0 < call.delta → cache.trackedIdsLock = false →
    Hits fault .getIds → ∀ pk ∈ cache.ids, pk ≠ call.pk → cache.counters pk = none

/-- The test of the call comes first. -/
theorem adjustCounter_eq :
    adjustCounter context call fault cache =
      (if skipsCache cache call = true then adjustNumericField call.pk call.delta
        else handle (· = .connectionError) (adjustCached context call)
          (adjustNumericField call.pk call.delta) : CounterAction Unit) fault cache :=
  rfl

/-- A call that does not use the cache. -/
theorem afterCall_skips (h : skipsCache cache call = true) :
    afterCall context call fault cache = cache.adjustField call.pk call.delta := by
  have hrun : adjustCounter context call fault cache =
      .ok () (cache.adjustField call.pk call.delta) := by
    rw [adjustCounter_eq, if_pos h]
    rfl
  rw [afterCall, hrun]

/-- A call that uses the cache. -/
theorem adjustCounter_cached (h : skipsCache cache call = false) :
    adjustCounter context call fault cache =
      handle (· = .connectionError) (adjustCached context call)
        (adjustNumericField call.pk call.delta) fault cache := by
  rw [adjustCounter_eq, if_neg (by simp [h])]

theorem afterCall_returns (h : skipsCache cache call = false)
    (hrun : adjustCached context call fault cache = .ok () cache') :
    afterCall context call fault cache = cache' := by
  rw [afterCall, adjustCounter_cached h, handle, hrun]

/-- After a `ConnectionError` the delta goes to the database. -/
theorem afterCall_connectionError (h : skipsCache cache call = false)
    (hrun : adjustCached context call fault cache = .error .connectionError cache') :
    afterCall context call fault cache = cache'.adjustField call.pk call.delta := by
  rw [afterCall, adjustCounter_cached h, handle, hrun]
  rfl

/-- A `CacheLockError` is raised. -/
theorem afterCall_cacheLockError (h : skipsCache cache call = false)
    (hrun : adjustCached context call fault cache = .error .cacheLockError cache') :
    afterCall context call fault cache = cache' := by
  rw [afterCall, adjustCounter_cached h, handle, hrun]
  rfl

theorem amount_adjustField (cache : CounterCache) (pk : Nat) (delta : Int) :
    amount (cache.adjustField pk delta).toCounterStore pk =
      amount cache.toCounterStore pk + delta := by
  show amount (cache.toCounterStore.adjustNumericField pk delta) pk = _
  rw [amount_adjustNumericField, if_pos rfl]

/-- Where the call fails before the failover, after it has added `x` to the ledger. -/
theorem countsExactly_fallback {x : Int} (hskips : skipsCache cache call = false)
    (hrun : adjustCached context call fault cache = .error .connectionError cache')
    (hamount : amount cache'.toCounterStore call.pk = amount cache.toCounterStore call.pk + x)
    (hids : cache.ids ⊆ cache'.ids) :
    CountsExactly call cache (afterCall context call fault cache) ↔ x = 0 := by
  rw [afterCall_connectionError hskips hrun]
  have hledger := amount_adjustField cache' call.pk call.delta
  rw [hamount] at hledger
  constructor
  · rintro ⟨hcounts, -⟩
    have hcounts : amount (cache'.adjustField call.pk call.delta).toCounterStore call.pk =
        amount cache.toCounterStore call.pk + call.delta := hcounts
    omega
  · intro hx
    refine ⟨?_, fun pk hpk _ _ => hids hpk⟩
    show amount (cache'.adjustField call.pk call.delta).toCounterStore call.pk =
        amount cache.toCounterStore call.pk + call.delta
    omega

/-- The failover asks for the ids only whether it has them. -/
theorem inFailover_congr {createdAt : Option Int} {ids ids' : List Nat} {report : Bool}
    {op : CacheOperation} (h : ∀ pk, pk ∈ ids ↔ pk ∈ ids') :
    InFailover context createdAt ids report op ↔ InFailover context createdAt ids' report op := by
  have hcommit : InCommit ids op ↔ InCommit ids' op := by
    cases op with
    | getTrackedCounter pk => exact h pk
    | deleteCounter pk => exact h pk
    | _ => exact Iff.rfl
  simp only [InFailover, hcommit]

/-- What the failover finds when `adjustCached` comes to it: the ledger of the counter has changed
by `x`, and the operations are those of the call. -/
structure BeforeFailover (context : CallContext) (call : AdjustCall)
    (fault : Option (Fault CacheOperation)) (cache mid : CounterCache) (x : Int) : Prop where
  run : adjustCached context call fault cache =
    executeCachedCounterCommitFailover context fault mid
  ledger : amount mid.toCounterStore call.pk = amount cache.toCounterStore call.pk + x
  db : mid.db = cache.db
  counters : ∀ pk, pk ≠ call.pk → mid.counters pk = cache.counters pk
  lock : mid.lock = false
  operations : ∀ f ∈ fault, InFailover context mid.cacheCreatedAt mid.ids mid.failoverReport
    f.operation ↔ InCallFailover context cache call f.operation

/-- A call whose failover returns has counted `x`. -/
theorem afterCall_failover_returns {mid : CounterCache} {x : Int}
    (hskips : skipsCache cache call = false) (h : BeforeFailover context call fault cache mid x)
    (hfault : ∀ f ∈ fault, ¬ InCallFailover context cache call f.operation) :
    amount (afterCall context call fault cache).toCounterStore call.pk =
        amount cache.toCounterStore call.pk + x ∧
      LedgerSettled mid (afterCall context call fault cache) fun _ => 0 := by
  obtain ⟨cache', hrun, hsettled, -⟩ := failover_returns context fault h.lock
    fun f hf hop => hfault f hf ((h.operations f hf).mp hop)
  rw [afterCall_returns hskips (h.run.trans hrun)]
  refine ⟨?_, hsettled⟩
  rw [hsettled.ledger, h.ledger, Int.add_zero]

/-- A call whose failover fails has counted `x` and its delta, and a counter whose deletion is
lost. -/
theorem afterCall_failover_fails {mid : CounterCache} {x : Int}
    (hskips : skipsCache cache call = false) (h : BeforeFailover context call fault cache mid x)
    (hfault : ∃ f ∈ fault, InCallFailover context cache call f.operation) :
    amount (afterCall context call fault cache).toCounterStore call.pk =
        amount cache.toCounterStore call.pk + x +
          (if fault = some ⟨.deleteCounter call.pk, false⟩ then cache.counter call.pk + x else 0) +
          call.delta ∧
      ∀ pk ∈ mid.ids, (afterCall context call fault cache).counters pk ≠ none →
        pk ∈ (afterCall context call fault cache).ids := by
  obtain ⟨f, hf, hop⟩ := hfault
  obtain ⟨cache', hrun, hsettled⟩ := failover_fails context h.lock
    ⟨f, hf, (h.operations f hf).mpr hop⟩
  rw [afterCall_connectionError hskips (h.run.trans hrun)]
  refine ⟨?_, hsettled.tracked⟩
  rw [amount_adjustField, hsettled.ledger, h.ledger, countedTwice]
  have hcounter : mid.counter call.pk = cache.counter call.pk + x := by
    have hledger := h.ledger
    simp only [amount, h.db] at hledger
    omega
  rw [hcounter]

/-- Where the call comes to its failover, with the other ids lost or not. -/
theorem countsExactly_failover {mid : CounterCache} {x : Int} {lost : Prop}
    (hskips : skipsCache cache call = false) (h : BeforeFailover context call fault cache mid x)
    (htracked : ¬ lost → cache.ids ⊆ mid.ids) (hlost : lost → mid.ids = [call.pk])
    (hbefore : lost → ¬ ∃ f ∈ fault, InCallFailover context cache call f.operation) :
    CountsExactly call cache (afterCall context call fault cache) ↔
      ((∃ f ∈ fault, InCallFailover context cache call f.operation) →
        x + (if fault = some ⟨.deleteCounter call.pk, false⟩ then
          cache.counter call.pk + x else 0) = 0) ∧
      ((∀ f ∈ fault, ¬ InCallFailover context cache call f.operation) → x = call.delta) ∧
      (lost → ∀ pk ∈ cache.ids, pk ≠ call.pk → cache.counters pk = none) := by
  have hledger : CountsExactly call cache (afterCall context call fault cache) ↔
      amount (afterCall context call fault cache).toCounterStore call.pk =
        amount cache.toCounterStore call.pk + call.delta ∧
      ∀ pk ∈ cache.ids, pk ≠ call.pk →
        (afterCall context call fault cache).counters pk ≠ none →
          pk ∈ (afterCall context call fault cache).ids := Iff.rfl
  rw [hledger]
  by_cases hfault : ∃ f ∈ fault, InCallFailover context cache call f.operation
  · obtain ⟨hamount, hids⟩ := afterCall_failover_fails hskips h hfault
    have hget : ¬ lost := fun h => hbefore h hfault
    have hnone : ¬ ∀ f ∈ fault, ¬ InCallFailover context cache call f.operation := by
      obtain ⟨f, hf, hop⟩ := hfault
      exact fun h => h f hf hop
    rw [hamount]
    constructor
    · rintro ⟨hcounts, -⟩
      exact ⟨fun _ => by omega, fun h => absurd h hnone, fun h => absurd h hget⟩
    · rintro ⟨hcounts, -, -⟩
      have hcounts := hcounts hfault
      exact ⟨by omega, fun pk hpk _ hpresent => hids pk (htracked hget hpk) hpresent⟩
  · have hnone : ∀ f ∈ fault, ¬ InCallFailover context cache call f.operation :=
      fun f hf hop => hfault ⟨f, hf, hop⟩
    obtain ⟨hamount, hsettled⟩ := afterCall_failover_returns hskips h hnone
    rw [hamount]
    constructor
    · rintro ⟨hcounts, hids⟩
      refine ⟨fun h => absurd h hfault, fun _ => by omega, fun hget pk hpk hne => ?_⟩
      -- Only the id of the call is tracked.
      have hnot : pk ∉ mid.ids := by
        rw [hlost hget]
        simpa using hne
      by_contra hpresent
      refine hnot (hsettled.ids (hids pk hpk hne ?_))
      rw [hsettled.untracked pk hnot, h.counters pk hne]
      exact hpresent
    · rintro ⟨-, hcounts, hids⟩
      refine ⟨by rw [hcounts hnone], fun pk hpk hne hpresent => ?_⟩
      by_cases hget : lost
      · have hnot : pk ∉ mid.ids := by
          rw [hlost hget]
          simpa using hne
        rw [hsettled.untracked pk hnot, h.counters pk hne] at hpresent
        exact absurd (hids hget pk hpk hne) hpresent
      · exact hsettled.tracked pk (htracked hget hpk) hpresent

/-- The `try` block of an increment. -/
theorem adjustCached_increment (h : 0 < call.delta) :
    adjustCached context call = incrementCachedCounter context call >>= fun _ =>
      executeCachedCounterCommitFailover context := by
  rw [adjustCached, if_pos h]

/-- The `try` block of a decrement. -/
theorem adjustCached_decrement (h : ¬ 0 < call.delta) :
    adjustCached context call = decrementCachedCounter call >>= fun _ =>
      executeCachedCounterCommitFailover context := by
  rw [adjustCached, if_neg h]

/-- The call that finds the lock of the tracked ids taken raises, after its first operation. -/
theorem countsExactly_taken (hskips : skipsCache cache call = false) (hdelta : 0 < call.delta)
    (hadd : ¬ Hits fault .addCounter) (hacquire : ¬ Hits fault .addIdsLock)
    (htaken : cache.trackedIdsLock = true) :
    CountsExactly call cache (afterCall context call fault cache) ↔
      cache.counters call.pk = none ∧ call.delta = 1 := by
  have htaken' : (added cache call.pk).trackedIdsLock = true := by
    rw [added_fields]
    exact htaken
  have hrun : adjustCached context call fault cache =
      .error .cacheLockError (added cache call.pk) := by
    rw [adjustCached_increment hdelta]
    refine seq_of_error ?_
    rw [incrementCachedCounter, cacheOperation_seq hadd]
    exact seq_of_error (trackId_taken htaken' hacquire call.pk)
  rw [afterCall_cacheLockError hskips hrun]
  have hamount := amount_added cache call.pk call.pk
  rw [if_pos rfl, addedAmount] at hamount
  have hids : (added cache call.pk).ids = cache.ids := by
    rw [added_fields]
    rfl
  constructor
  · rintro ⟨hcounts, -⟩
    have hcounts : amount (added cache call.pk).toCounterStore call.pk =
        amount cache.toCounterStore call.pk + call.delta := hcounts
    split_ifs at hamount with hnone
    · exact ⟨hnone, by omega⟩
    · omega
  · rintro ⟨hnone, hone⟩
    rw [if_pos hnone] at hamount
    refine ⟨?_, fun pk hpk _ _ => hids.symm ▸ hpk⟩
    show amount (added cache call.pk).toCounterStore call.pk =
      amount cache.toCounterStore call.pk + call.delta
    omega

/-- A fault before the failover is not in it. -/
theorem not_inCallFailover {op : CacheOperation} (h : Hits fault op)
    (hop : op ∈ [.getIds, .deleteIdsLock, .addCreatedAt, .incrCounter, .getCounter,
      .decrCounter]) : ¬ ∃ f ∈ fault, InCallFailover context cache call f.operation := by
  obtain ⟨applied, rfl⟩ := hits_iff.mp h
  rintro ⟨f, hf, hin⟩
  obtain rfl := Option.some.inj hf
  unfold InCallFailover at hin
  simp only [List.mem_cons, List.not_mem_nil, or_false] at hop
  rcases hop with rfl | rfl | rfl | rfl | rfl | rfl <;> split at hin <;>
    simp [InFailover, InCommit] at hin

/-- The increment that comes to its failover. -/
theorem countsExactly_incremented (hskips : skipsCache cache call = false)
    (hdelta : 0 < call.delta) (hadd : ¬ Hits fault .addCounter)
    (hacquire : ¬ Hits fault .addIdsLock) (hfree : cache.trackedIdsLock = false)
    (hrelease : ¬ Hits fault .deleteIdsLock) (hcreated : ¬ Hits fault .addCreatedAt)
    (hincr : cache.counters call.pk ≠ none → ¬ Hits fault .incrCounter) :
    CountsExactly call cache (afterCall context call fault cache) ↔
      ((∃ f ∈ fault, InCallFailover context cache call f.operation) →
        incremented cache call + (if fault = some ⟨.deleteCounter call.pk, false⟩ then
          cache.counter call.pk + incremented cache call else 0) = 0) ∧
      ((∀ f ∈ fault, ¬ InCallFailover context cache call f.operation) →
        incremented cache call = call.delta) ∧
      (Hits fault .getIds → ∀ pk ∈ cache.ids, pk ≠ call.pk → cache.counters pk = none) := by
  obtain ⟨mid, hrun, hamount, hcounters, hdb, hids, hlock, hidsLock, htime, hreport⟩ :=
    increment_returns context hadd hacquire hfree hrelease hcreated hincr
  have hfreeLock : cache.lock = false := by
    simp only [skipsCache, Bool.or_eq_false_iff] at hskips
    exact hskips.1
  have hlost : Hits fault .getIds → mid.ids = [call.pk] := by
    intro hget
    obtain ⟨applied, rfl⟩ := hits_iff.mp hget
    rw [hids]
    cases applied <;> rfl
  have htracked : ¬ Hits fault .getIds → cache.ids ⊆ mid.ids := by
    intro hget
    rw [hids]
    exact subset_idsAfter fault cache call.pk hget
  refine countsExactly_failover hskips ⟨?_, ?_, hdb, hcounters, hlock.trans hfreeLock, ?_⟩
    htracked hlost fun hget => not_inCallFailover hget (by simp)
  · rw [adjustCached_increment hdelta, seq_of_ok hrun]
  · rw [hamount, if_pos rfl]
  · rintro ⟨op, applied⟩ hf
    obtain rfl : fault = some ⟨op, applied⟩ := hf
    rw [InCallFailover, if_pos hdelta, htime, hreport]
    by_cases hother : op = .getIds ∨ op = .setIds
    · -- The ids are not what they should be, and nothing fails in the failover.
      rcases hother with rfl | rfl <;> simp [InFailover, InCommit]
    · obtain ⟨hget, hset⟩ := not_or.mp hother
      refine inFailover_congr fun pk => ?_
      rw [hids, idsAfter, if_neg (by simp [hset]), if_neg (by simp [hget])]
      exact mem_addToModifiedIds.trans List.mem_cons.symm

/-- A fault is at one operation. -/
theorem Hits.unique {op op' : CacheOperation} (h : Hits fault op) (h' : Hits fault op') :
    op = op' := by
  obtain ⟨applied, rfl⟩ := hits_iff.mp h
  simpa using h'

/-- The increment that fails before its failover. -/
theorem countsExactly_incrementFailed (hskips : skipsCache cache call = false)
    (hdelta : 0 < call.delta)
    (hfail : Hits fault .addCounter ∨ Hits fault .addIdsLock ∨
      cache.trackedIdsLock = false ∧ (Hits fault .deleteIdsLock ∨ Hits fault .addCreatedAt ∨
        Hits fault .incrCounter ∧ cache.counters call.pk ≠ none)) :
    CountsExactly call cache (afterCall context call fault cache) ↔
      if cache.counters call.pk = none then FirstCounts context cache call fault
      else LaterCounts context cache call fault := by
  obtain ⟨mid, hrun, hamount, hids⟩ := increment_fails context hfail
  have hcached : adjustCached context call fault cache = .error .connectionError mid := by
    rw [adjustCached_increment hdelta, seq_of_error hrun]
  rw [countsExactly_fallback hskips hcached hamount hids]
  by_cases hnone : cache.counters call.pk = none
  · -- Nothing has been added only if the first operation was lost.
    rw [if_pos hnone, addedBy, addedAmount, if_pos hnone]
    constructor
    · intro hzero
      by_cases hlost : fault = some ⟨.addCounter, false⟩
      · exact .inl hlost
      · rw [if_neg hlost] at hzero
        split_ifs at hzero
        · omega
        · omega
    · rintro (hlost | ⟨-, hadd, hacquire, hrest⟩)
      · exact if_pos hlost
      · obtain ⟨hfree, hfail⟩ := (hfail.resolve_left hadd).resolve_left hacquire
        rcases hrest with htaken | ⟨hrelease, hcreated, -⟩
        · exact absurd htaken (by simp [hfree])
        · exact absurd hnone ((hfail.resolve_left hrelease).resolve_left hcreated).2
  · rw [if_neg hnone, addedBy, addedAmount, if_neg hnone]
    constructor
    · intro hzero
      rcases hfail with hadd | hacquire | ⟨hfree, hfail⟩
      · exact .inl hadd
      · exact .inr (.inl hacquire)
      · refine .inr (.inr ⟨hfree, ?_, fun hin => ?_⟩)
        · rintro rfl
          simp only [Option.some.injEq, Fault.mk.injEq, reduceCtorEq, false_and, if_false,
            if_true] at hzero
          omega
        · refine absurd hin ?_
          rcases hfail with hrelease | hcreated | ⟨hincr, -⟩
          · exact not_inCallFailover hrelease (by simp)
          · exact not_inCallFailover hcreated (by simp)
          · exact not_inCallFailover hincr (by simp)
    · intro hcounts
      have hnot : fault ≠ some ⟨.incrCounter, true⟩ := by
        rintro rfl
        rcases hcounts with hadd | hacquire | ⟨-, hnot, -⟩
        · simp at hadd
        · simp at hacquire
        · exact hnot rfl
      rw [if_neg hnot, ite_self]

/-- An increment. -/
theorem countsExactly_increment (hskips : skipsCache cache call = false)
    (hdelta : 0 < call.delta) :
    CountsExactly call cache (afterCall context call fault cache) ↔
      (if cache.counters call.pk = none then FirstCounts context cache call fault
        else LaterCounts context cache call fault) ∧
      (cache.trackedIdsLock = false → Hits fault .getIds →
        ∀ pk ∈ cache.ids, pk ≠ call.pk → cache.counters pk = none) := by
  by_cases hfail : Hits fault .addCounter ∨ Hits fault .addIdsLock ∨
      cache.trackedIdsLock = false ∧ (Hits fault .deleteIdsLock ∨ Hits fault .addCreatedAt ∨
        Hits fault .incrCounter ∧ cache.counters call.pk ≠ none)
  · have hget : ¬ Hits fault .getIds := by
      intro hget
      rcases hfail with h | h | ⟨-, h | h | ⟨h, -⟩⟩ <;> cases Hits.unique hget h
    rw [countsExactly_incrementFailed hskips hdelta hfail]
    exact (and_iff_left fun _ h => absurd h hget).symm
  obtain ⟨hadd, hfail⟩ := not_or.mp hfail
  obtain ⟨hacquire, hfail⟩ := not_or.mp hfail
  have hnotAdd : fault ≠ some ⟨.addCounter, false⟩ := fun h => hadd (hits_iff.mpr ⟨_, h⟩)
  cases hlock : cache.trackedIdsLock with
  | true =>
      rw [countsExactly_taken hskips hdelta hadd hacquire hlock]
      by_cases hnone : cache.counters call.pk = none
      · simp [hnone, FirstCounts, hnotAdd, hadd, hacquire, hlock]
      · simp [hnone, LaterCounts, hadd, hacquire, hlock]
  | false =>
      rw [hlock] at hfail
      simp only [true_and, not_or, not_and] at hfail
      obtain ⟨hrelease, hcreated, hincr⟩ := hfail
      rw [countsExactly_incremented hskips hdelta hadd hacquire hlock hrelease hcreated
        fun hpresent hhits => hincr hhits hpresent]
      simp only [forall_const]
      rw [← and_assoc]
      refine and_congr_left fun _ => ?_
      by_cases hnone : cache.counters call.pk = none
      · -- The first increment counts one.
        have hzero : cache.counter call.pk = 0 := by rw [CounterStore.counter, hnone]; rfl
        rw [if_pos hnone, incremented, if_pos hnone, hzero]
        constructor
        · rintro ⟨hsome, hcounts⟩
          have hin : ∀ f ∈ fault, ¬ InCallFailover context cache call f.operation := by
            intro f hf hop
            have := hsome ⟨f, hf, hop⟩
            split at this <;> omega
          exact .inr ⟨(hcounts hin).symm, hadd, hacquire, .inr ⟨hrelease, hcreated, hin⟩⟩
        · rintro (hlost | ⟨hone, -, -, htaken | ⟨-, -, hin⟩⟩)
          · exact absurd hlost hnotAdd
          · exact absurd htaken (by simp [hlock])
          · exact ⟨fun hsome => hsome.elim fun f hf => absurd hf.2 (hin f hf.1),
              fun _ => hone.symm⟩
      · rw [if_neg hnone, incremented, if_neg hnone]
        constructor
        · rintro ⟨hsome, -⟩
          refine .inr (.inr ⟨hlock, ?_, hsome⟩)
          rintro rfl
          exact hincr (by simp) hnone
        · rintro (h | h | ⟨-, -, hsome⟩)
          · exact absurd h hadd
          · exact absurd h hacquire
          · exact ⟨hsome, fun _ => rfl⟩

/-- A decrement of a cached counter, or a call by zero. -/
theorem countsExactly_decrement (hskips : skipsCache cache call = false)
    (hdelta : ¬ 0 < call.delta) :
    CountsExactly call cache (afterCall context call fault cache) ↔
      DecrementCounts context cache call fault := by
  by_cases hfail : Hits fault .getCounter ∨
      Hits fault .decrCounter ∧ cache.counters call.pk ≠ none
  · obtain ⟨mid, hrun, hamount, hids⟩ := decrement_fails hfail
    have hcached : adjustCached context call fault cache = .error .connectionError mid := by
      rw [adjustCached_decrement hdelta, seq_of_error hrun]
    rw [countsExactly_fallback hskips hcached hamount fun _ h => hids.symm ▸ h]
    have hnot : ¬ ∃ f ∈ fault, InCallFailover context cache call f.operation := by
      rcases hfail with hget | ⟨hdecr, -⟩
      · exact not_inCallFailover hget (by simp)
      · exact not_inCallFailover hdecr (by simp)
    constructor
    · intro hzero
      refine ⟨?_, fun hin => absurd hin hnot⟩
      rintro rfl -
      exact hzero
    · rintro ⟨hcounts, -⟩
      split
      · rename_i hlost
        rcases hfail with hget | ⟨-, hpresent⟩
        · rw [hlost] at hget
          simp at hget
        · exact hcounts hlost hpresent
      · rfl
  · obtain ⟨hget, hdecr⟩ := not_or.mp hfail
    have hdecr : cache.counters call.pk ≠ none → ¬ Hits fault .decrCounter :=
      fun hpresent hhits => hdecr ⟨hhits, hpresent⟩
    obtain ⟨mid, hrun, hamount, hcounters, hdb, hids, hlock, hidsLock, htime, hreport⟩ :=
      decrement_returns hget hdecr hskips hdelta
    have hfreeLock : cache.lock = false := by
      simp only [skipsCache, Bool.or_eq_false_iff] at hskips
      exact hskips.1
    have hbefore : BeforeFailover context call fault cache mid call.delta := by
      refine ⟨?_, ?_, hdb, hcounters, hlock.trans hfreeLock, fun f _ => ?_⟩
      · rw [adjustCached_decrement hdelta, seq_of_ok hrun]
      · rw [hamount, if_pos rfl]
      · rw [InCallFailover, if_neg hdelta, htime, hids, hreport]
    rw [countsExactly_failover hskips hbefore (fun _ _ h => hids.symm ▸ h)
      (False.elim : False → _) False.elim]
    constructor
    · rintro ⟨hcounts, -⟩
      refine ⟨fun hlost hpresent => ?_, hcounts⟩
      exact absurd (hits_iff.mpr ⟨true, hlost⟩) (hdecr hpresent)
    · rintro ⟨-, hcounts⟩
      exact ⟨hcounts, fun _ => rfl, False.elim⟩

/-- When the call changes the ledger by its delta and keeps the other ids. -/
theorem countsExactly_iff (context : CallContext) (cache : CounterCache) (call : AdjustCall)
    (fault : Option (Fault CacheOperation)) :
    CountsExactly call cache (afterCall context call fault cache) ↔
      DeltaCounts context cache call fault ∧ KeepsIds cache call fault := by
  unfold DeltaCounts KeepsIds
  cases hskips : skipsCache cache call with
  | true =>
      rw [afterCall_skips hskips, if_pos rfl]
      refine iff_of_true ⟨?_, fun pk hpk _ _ => hpk⟩ ⟨trivial, by simp⟩
      exact amount_adjustField cache call.pk call.delta
  | false =>
      rw [if_neg (by simp)]
      by_cases hdelta : 0 < call.delta
      · rw [if_pos hdelta, countsExactly_increment hskips hdelta]
        simp [hdelta]
      · rw [if_neg hdelta, countsExactly_decrement hskips hdelta]
        simp [hdelta]

end

/-- The second increment of a counter, where the time of the caching can not be read: the cache
and the database both count it. -/
theorem not_countsExactly_createdAt :
    ¬ ∀ (context : CallContext) (cache : CounterCache) (call : AdjustCall)
      (fault : Option (Fault CacheOperation)),
      CountsExactly call cache (afterCall context call fault cache) := by
  intro h
  have hcounts := (h ⟨5, 5, 7200, id, fun _ => .rfl⟩
    { db := fun _ => 0
      counters := fun pk => if pk = 1 then some 1 else none
      trackedIds := some [1]
      createdAt := true
      since := 3
      failoverReport := false }
    ⟨1, 1⟩ (some ⟨.getCreatedAt, false⟩)).1
  revert hcounts
  decide

end Onadata.Proofs
