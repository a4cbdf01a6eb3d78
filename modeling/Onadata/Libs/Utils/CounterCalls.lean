import Onadata.Lib.FaultyOperation
import Onadata.Libs.Utils.ModelTools

/-!
# `Onadata.Libs.Utils.CounterCalls`: counter calls one after the other

`adjust_counter` and `commit_cached_counters` of `libs/utils/model_tools.py`, with
`set_cache_with_lock` of `libs/utils/cache_tools.py`, as calls that no other call interrupts.
An operation of the cache can fail with a `ConnectionError`.

The times are those that the process reads. Left out: the expiry of keys. A lock of the
tracked ids that is taken stays taken until the call gives up. `report_exception` and the
logger do not touch the store.
-/

set_option autoImplicit false

namespace Onadata

open Onadata.Lib

/-- The cache operations in the `try` block of `adjust_counter`, by where they are called. -/
inductive CacheOperation
  -- `_increment_cached_counter` and `set_cache_with_lock`
  | addCounter
  | addIdsLock
  | getIds
  | setIds
  | deleteIdsLock
  | addCreatedAt
  | incrCounter
  -- `_decrement_cached_counter`
  | getCounter
  | decrCounter
  -- `_execute_cached_counter_commit_failover`
  | getCreatedAt
  | getReport
  | setReport
  -- `commit_cached_counters`
  | addLock
  | getTrackedIds
  | getTrackedCounter (pk : Nat)
  | deleteCounter (pk : Nat)
  | deleteTrackedIds
  | deleteLock
  | deleteCreatedAt
  deriving DecidableEq, Repr

/-- The exceptions of a call. -/
inductive CacheError
  | connectionError
  | cacheLockError
  | valueError
  deriving DecidableEq, Repr

/-- The counters with the time in `created_at_key`, if there is one, and whether
`failover_report_key` is set. -/
structure CounterCache extends CounterStore where
  since : Int
  failoverReport : Bool

/-- What a call takes from the process: the times that `_increment_cached_counter` and the
failover read, `COUNTER_COMMIT_FAILOVER_TIMEOUT`, and the order of a set. -/
structure CallContext where
  now : Int
  later : Int
  failoverTimeout : Int
  order : List Nat → List Nat
  order_perm : ∀ ids, (order ids).Perm ids

namespace CounterCache

/-- The time in `created_at_key`. -/
def cacheCreatedAt (cache : CounterCache) : Option Int :=
  if cache.createdAt then some cache.since else none

/-- `adjust_numeric_field`. -/
def adjustField (cache : CounterCache) (pk : Nat) (delta : Int) : CounterCache :=
  { cache with toCounterStore := cache.toCounterStore.adjustNumericField pk delta }

/-- `cache.set` of a counter. -/
def setCounter (cache : CounterCache) (pk : Nat) (value : Int) : CounterCache :=
  { cache with toCounterStore := cache.toCounterStore.setCounter pk value }

/-- `cache.delete` of a counter. -/
def deleteCounter (cache : CounterCache) (pk : Nat) : CounterCache :=
  { cache with toCounterStore := cache.toCounterStore.deleteCounter pk }

/-- `cache.add` of a counter. -/
def addCounter (cache : CounterCache) (pk : Nat) (value : Int) : Bool × CounterCache :=
  if (cache.counters pk).isNone then (true, cache.setCounter pk value) else (false, cache)

/-- `cache.incr` of a counter, `none` if the key is missing. -/
def incrCounter (cache : CounterCache) (pk : Nat) (delta : Int) : Option Int × CounterCache :=
  match cache.counters pk with
  | some value => (some (value + delta), cache.setCounter pk (value + delta))
  | none => (none, cache)

/-- `cache.add` of the time of the first increment. -/
def addCreatedAt (cache : CounterCache) (now : Int) : CounterCache :=
  if cache.createdAt then cache else { cache with createdAt := true, since := now }

end CounterCache

/-- A call on the cache and the database. -/
abbrev CounterAction (A : Type) : Type :=
  Faulty CacheOperation CacheError CounterCache A

namespace CounterAction

open Faulty

/-- An operation of the cache. -/
def cacheOperation {A : Type} (op : CacheOperation) (f : CounterCache → A × CounterCache) :
    CounterAction A :=
  operation op .connectionError f

/-- An operation of the cache that only writes. -/
def cacheUpdate (op : CacheOperation) (f : CounterCache → CounterCache) : CounterAction Unit :=
  cacheOperation op fun cache => ((), f cache)

/-- An operation of the cache that only reads. -/
def cacheRead {A : Type} (op : CacheOperation) (f : CounterCache → A) : CounterAction A :=
  cacheOperation op fun cache => (f cache, cache)

/-- `adjust_numeric_field`. -/
def adjustNumericField (pk : Nat) (delta : Int) : CounterAction Unit :=
  safely fun cache => ((), cache.adjustField pk delta)

/-- `set_cache_with_lock` of the tracked ids. -/
def setCacheWithLock (modifyCallback : Option (List Nat) → List Nat) : CounterAction Unit := do
  let acquired ← cacheOperation .addIdsLock fun cache =>
    (!cache.trackedIdsLock, { cache with trackedIdsLock := true })
  if acquired then
    let current ← swallow (cacheRead .getIds fun cache => cache.trackedIds) none
    swallow (cacheUpdate .setIds fun cache =>
      { cache with trackedIds := some (modifyCallback current) }) ()
    cacheUpdate .deleteIdsLock fun cache => { cache with trackedIdsLock := false }
  else
    raise .cacheLockError

/-- `cache.incr` or `cache.decr`, which raise `ValueError` on a missing key. -/
def incr (op : CacheOperation) (pk : Nat) (delta : Int) : CounterAction Unit := do
  let value ← cacheOperation op fun cache => cache.incrCounter pk delta
  if value.isNone then raise .valueError

/-- `_increment_cached_counter`. -/
def incrementCachedCounter (context : CallContext) (call : AdjustCall) : CounterAction Unit := do
  -- The first increment stores one, whatever the delta is.
  let created ← cacheOperation .addCounter fun cache => cache.addCounter call.pk 1
  setCacheWithLock fun current => addToModifiedIds call.pk (current.getD [])
  cacheUpdate .addCreatedAt fun cache => cache.addCreatedAt context.now
  if !created then incr .incrCounter call.pk call.delta

/-- `_decrement_cached_counter`, with the delta of the call. -/
def decrementCachedCounter (call : AdjustCall) : CounterAction Unit := do
  let counter ← cacheRead .getCounter fun cache => cache.counters call.pk
  if counter.isSome then incr .decrCounter call.pk (-(call.delta * -1))

/-- The loop of `commit_cached_counters`. -/
def commitEach : List Nat → CounterAction Unit
  | [] => pure ()
  | pk :: pks => do
      let counter ← cacheRead (.getTrackedCounter pk) fun cache => cache.counter pk
      if counter ≠ 0 then adjustNumericField pk counter
      cacheUpdate (.deleteCounter pk) fun cache => cache.deleteCounter pk
      commitEach pks

/-- `commit_cached_counters`. -/
def commitCachedCounters (context : CallContext) : CounterAction Unit := do
  let acquired ← cacheOperation .addLock fun cache => (!cache.lock, { cache with lock := true })
  if acquired then
    let pks ← cacheRead .getTrackedIds fun cache => cache.ids
    commitEach (context.order pks)
    cacheUpdate .deleteTrackedIds fun cache => { cache with trackedIds := none }
    cacheUpdate .deleteLock fun cache => { cache with lock := false }
    cacheUpdate .deleteCreatedAt fun cache => { cache with createdAt := false }

/-- The end of the failover, after the commit. -/
def reportFailover : CounterAction Unit := do
  let report ← cacheRead .getReport fun cache => cache.failoverReport
  if !report then cacheUpdate .setReport fun cache => { cache with failoverReport := true }

/-- `_execute_cached_counter_commit_failover`. -/
def executeCachedCounterCommitFailover (context : CallContext) : CounterAction Unit := do
  let cacheCreatedAt ← cacheRead .getCreatedAt fun cache => cache.cacheCreatedAt
  if cacheCreatedAt.any fun createdAt => context.failoverTimeout < context.later - createdAt then
    commitCachedCounters context
    reportFailover

/-- The `try` block of `adjust_counter`. -/
def adjustCached (context : CallContext) (call : AdjustCall) : CounterAction Unit := do
  if 0 < call.delta then
    incrementCachedCounter context call
  else
    decrementCachedCounter call
  executeCachedCounterCommitFailover context

/-- The test of `adjust_counter` that comes before its `try` block. -/
def skipsCache (cache : CounterCache) (call : AdjustCall) : Bool :=
  cache.lock || (call.delta < 0 && (cache.counters call.pk).isNone)

/-- `adjust_counter`. -/
def adjustCounter (context : CallContext) (call : AdjustCall) : CounterAction Unit := do
  let skips ← safely fun cache => (skipsCache cache call, cache)
  if skips then
    adjustNumericField call.pk call.delta
  else
    handle (· = .connectionError) (adjustCached context call)
      (adjustNumericField call.pk call.delta)

end CounterAction

end Onadata
