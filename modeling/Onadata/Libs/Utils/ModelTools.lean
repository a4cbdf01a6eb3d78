import Mathlib.Logic.Function.Basic
import Onadata.Lib.ThreadPool

/-!
# `Onadata.Libs.Utils.ModelTools`: cached counters

`adjust_counter` and `commit_cached_counters` of `libs/utils/model_tools.py`, with the lock of
`set_cache_with_lock` of `libs/utils/cache_tools.py`, for one counter field and its keys.

A call is a thread. Its program counter names the cache or database operation that comes
next, and each operation is one atomic step.

The signal handlers of the models put `adjust_…_async` tasks of `apps/logger/tasks.py` into a
queue, `transaction.on_commit` (`CounterTasks`). A worker takes a task from it, in any order, and
calls `adjust_counter`. Here a call runs alone: no other call works on the store before it has
finished.

Left out: failures and expiry of the cache, the timeout of the lock of the tracked ids, and
the commit that a call makes when the cache is older than the failover timeout. The counters
of the cache are integers: `decr` can go below zero.
-/

set_option autoImplicit false

namespace Onadata

open Onadata.Lib

/-- The database field and the cache keys of one counter. `counters` holds the keys with
`key_prefix`, and `trackedIdsLock` is the lock of `tracked_ids_key`. -/
structure CounterStore where
  db : Nat → Int
  counters : Nat → Option Int := fun _ => none
  trackedIds : Option (List Nat) := none
  lock : Bool := false
  trackedIdsLock : Bool := false
  createdAt : Bool := false

/-- The arguments of an `adjust_counter` call. -/
structure AdjustCall where
  pk : Nat
  delta : Int
  deriving DecidableEq, Repr

/-- The next operation of an `adjust_counter` call. `created` is what `cache.add` of the
counter returned, and `current` the tracked ids that the call read. -/
inductive AdjustPc
  | testLock
  | testCounter
  | fallbackToDb
  | addCounter
  | acquireIds (created : Bool)
  | getIds (created : Bool)
  | setIds (created : Bool) (current : List Nat)
  | releaseIds (created : Bool)
  | addCreatedAt (created : Bool)
  | incr
  | getCounter
  | decr
  | failover
  | done
  | raised
  deriving DecidableEq, Repr

/-- The next operation of a `commit_cached_counters` call. `pks` are the ids that are left,
and `counter` the value that was read for `pk`. -/
inductive CommitPc
  | addLock
  | getIds
  | getCounter (pk : Nat) (pks : List Nat)
  | adjustField (pk : Nat) (counter : Int) (pks : List Nat)
  | deleteCounter (pk : Nat) (counter : Int) (pks : List Nat)
  | deleteIds
  | deleteLock
  | deleteCreatedAt
  | done
  deriving DecidableEq, Repr

/-- A call in progress. -/
inductive CounterThread
  | adjust (call : AdjustCall) (pc : AdjustPc)
  | commit (pc : CommitPc)
  deriving DecidableEq, Repr

namespace CounterStore

/-- `adjust_numeric_field`. -/
def adjustNumericField (store : CounterStore) (pk : Nat) (delta : Int) : CounterStore :=
  { store with db := Function.update store.db pk (store.db pk + delta) }

/-- `cache.set` of a counter. -/
def setCounter (store : CounterStore) (pk : Nat) (value : Int) : CounterStore :=
  { store with counters := Function.update store.counters pk (some value) }

/-- `cache.delete` of a counter. -/
def deleteCounter (store : CounterStore) (pk : Nat) : CounterStore :=
  { store with counters := Function.update store.counters pk none }

/-- The tracked ids, the empty set if the key is missing. -/
def ids (store : CounterStore) : List Nat :=
  store.trackedIds.getD []

/-- The cached counter, zero if the key is missing. -/
def counter (store : CounterStore) (pk : Nat) : Int :=
  (store.counters pk).getD 0

end CounterStore

/-- `add_to_modified_ids`. -/
def addToModifiedIds (pk : Nat) (current : List Nat) : List Nat :=
  if pk ∈ current then current else current ++ [pk]

/-- One operation of `adjust_counter`. -/
def adjustStep (call : AdjustCall) (store : CounterStore) : AdjustPc → CounterStore × AdjustPc
  | .testLock =>
      (store,
        if store.lock then .fallbackToDb
        else if call.delta < 0 then .testCounter
        else if 0 < call.delta then .addCounter
        else .getCounter)
  | .testCounter =>
      (store, if (store.counters call.pk).isNone then .fallbackToDb else .getCounter)
  | .fallbackToDb => (store.adjustNumericField call.pk call.delta, .done)
  -- `_increment_cached_counter`
  | .addCounter =>
      if (store.counters call.pk).isNone then (store.setCounter call.pk 1, .acquireIds true)
      else (store, .acquireIds false)
  -- `with_cache_lock` tries again while the lock is taken.
  | .acquireIds created =>
      if store.trackedIdsLock then (store, .acquireIds created)
      else ({ store with trackedIdsLock := true }, .getIds created)
  | .getIds created => (store, .setIds created store.ids)
  | .setIds created current =>
      ({ store with trackedIds := some (addToModifiedIds call.pk current) }, .releaseIds created)
  | .releaseIds created => ({ store with trackedIdsLock := false }, .addCreatedAt created)
  | .addCreatedAt created =>
      ({ store with createdAt := true }, if created then .failover else .incr)
  | .incr =>
      match store.counters call.pk with
      | some value => (store.setCounter call.pk (value + call.delta), .failover)
      | none => (store, .raised)
  -- `_decrement_cached_counter`
  | .getCounter => (store, if (store.counters call.pk).isNone then .failover else .decr)
  | .decr =>
      match store.counters call.pk with
      | some value => (store.setCounter call.pk (value - call.delta * -1), .failover)
      | none => (store, .raised)
  | .failover => (store, .done)
  | .done => (store, .done)
  | .raised => (store, .raised)

/-- The loop of `commit_cached_counters` over the ids that are left. -/
def CommitPc.loop : List Nat → CommitPc
  | [] => .deleteIds
  | pk :: pks => .getCounter pk pks

/-- One operation of `commit_cached_counters`. `order` is the order in which the process
goes through a set. -/
def commitStep (order : List Nat → List Nat) (store : CounterStore) :
    CommitPc → CounterStore × CommitPc
  | .addLock => if store.lock then (store, .done) else ({ store with lock := true }, .getIds)
  | .getIds => (store, .loop (order store.ids))
  | .getCounter pk pks =>
      let counter := store.counter pk
      (store, if counter ≠ 0 then .adjustField pk counter pks else .deleteCounter pk counter pks)
  | .adjustField pk counter pks =>
      (store.adjustNumericField pk counter, .deleteCounter pk counter pks)
  | .deleteCounter pk _ pks => (store.deleteCounter pk, .loop pks)
  | .deleteIds => ({ store with trackedIds := none }, .deleteLock)
  | .deleteLock => ({ store with lock := false }, .deleteCreatedAt)
  | .deleteCreatedAt => ({ store with createdAt := false }, .done)
  | .done => (store, .done)

/-- One operation of a call. -/
def counterStep (order : List Nat → List Nat) (store : CounterStore) :
    CounterThread → CounterStore × CounterThread
  | .adjust call pc => ((adjustStep call store pc).1, .adjust call (adjustStep call store pc).2)
  | .commit pc => ((commitStep order store pc).1, .commit (commitStep order store pc).2)

/-- The steps of a call: a set may be gone through in any order. -/
def CounterStep (store : CounterStore) (thread : CounterThread) (store' : CounterStore)
    (thread' : CounterThread) : Prop :=
  ∃ order : List Nat → List Nat, (∀ ids, (order ids).Perm ids) ∧
    (store', thread') = counterStep order store thread

/-- The calls before their first operation. -/
def startCalls (store : CounterStore) (calls : List AdjustCall) (commits : Nat) :
    Pool CounterStore CounterThread :=
  ⟨store, calls.map (.adjust · .testLock) ++ List.replicate commits (.commit .addLock)⟩

/-- The call has returned or raised. -/
def CounterThread.isFinished : CounterThread → Bool
  | .adjust _ pc => pc = .done || pc = .raised
  | .commit pc => pc = .done

/-- The call runs from its first operation until it has finished, and nothing else runs. -/
def RunsAlone (store : CounterStore) (thread : CounterThread) (store' : CounterStore) : Prop :=
  ∃ (schedule : List Nat) (thread' : CounterThread),
    Run (Pool.Step CounterStep) ⟨store, [thread]⟩ schedule ⟨store', [thread']⟩ ∧
      thread'.isFinished = true

/-- The store of a counter and the tasks that wait. -/
structure CounterTasks where
  store : CounterStore
  tasks : List AdjustCall := []

namespace CounterTasks

/-- `transaction.on_commit(lambda: adjust_…_async.delay(pk, delta=delta))`. -/
def delay (c : CounterTasks) (pk : Nat) (delta : Int) : CounterTasks :=
  { c with tasks := c.tasks ++ [⟨pk, delta⟩] }

/-- The database field and the cached counter of `pk`. -/
def liveNumber (c : CounterTasks) (pk : Nat) : Int :=
  c.store.db pk + c.store.counter pk

/-- What the tasks that wait add to the counter of `pk`. -/
def pendingDelta (c : CounterTasks) (pk : Nat) : Int :=
  (c.tasks.map fun call => if call.pk = pk then call.delta else 0).sum

end CounterTasks

/-- What a worker does: it runs a task that waits, or the periodic commit. -/
inductive CounterTaskOp
  | runTask (i : Nat)
  | commit
  deriving DecidableEq, Repr

/-- A worker runs a call. -/
def CounterTasks.Step (c : CounterTasks) : CounterTaskOp → CounterTasks → Prop
  | .runTask i, c' =>
      ∃ call, c.tasks[i]? = some call ∧ RunsAlone c.store (.adjust call .testLock) c'.store ∧
        c'.tasks = c.tasks.eraseIdx i
  | .commit, c' => RunsAlone c.store (.commit .addLock) c'.store ∧ c'.tasks = c.tasks

end Onadata
