import Onadata.Libs.Utils.ModelTools
import Onadata.Proofs.Libs.Utils.CounterLock

/-!
# `Onadata.Proofs.Libs.Utils.CounterTasks`: a ledger of the calls and the tasks

A call that runs alone does not race with a commit, so that it loses no update. It finds the
lock free and leaves it free.

* `ready_runsAlone`: what such a call adds, and that the store is ready for the next one.
* `ledger_step`: a worker keeps the number together with what the waiting tasks add to it.
-/

set_option autoImplicit false

namespace Onadata.Proofs

open Onadata.Lib

/-- The lock is free, and the next commit finds every counter. -/
structure ReadyStore (store : CounterStore) : Prop where
  free : store.lock = false
  tracked : ∀ pk, store.counters pk ≠ none → pk ∈ store.ids

/-- The store is ready, and the tasks add or subtract one. -/
structure ReadyTasks (c : CounterTasks) : Prop where
  store : ReadyStore c.store
  isUnit : ∀ call ∈ c.tasks, call.delta = 1 ∨ call.delta = -1

/-- A commit holds the lock until it deletes the key. -/
theorem holdsLock_commitStep {order : List Nat → List Nat} {store : CounterStore} {pc : CommitPc}
    (hholds : HoldsLock (.commit pc)) (hkeeps : pc ≠ .deleteLock) :
    HoldsLock (.commit (commitStep order store pc).2) := by
  cases pc with
  | addLock | deleteCreatedAt | done => exact hholds.elim
  | getIds =>
      show HoldsLock (.commit (.loop (order store.ids)))
      cases order store.ids <;> trivial
  | getCounter pk pks =>
      show HoldsLock (.commit (if store.counter pk ≠ 0 then _ else _))
      split <;> trivial
  | adjustField pk counter pks => trivial
  | deleteCounter pk counter pks =>
      show HoldsLock (.commit (.loop pks))
      cases pks <;> trivial
  | deleteIds => trivial
  | deleteLock => exact absurd rfl hkeeps

/-- The lock is taken only while the thread holds it. -/
theorem lock_step {store store' : CounterStore} {thread thread' : CounterThread}
    (hstep : CounterStep store thread store' thread')
    (hlock : store.lock = true → HoldsLock thread) :
    store'.lock = true → HoldsLock thread' := by
  intro hlocked
  have hcases := holdsLock_step hstep
  obtain ⟨order, -, hstep⟩ := hstep
  cases thread with
  | adjust call pc =>
      rcases hcases with ⟨hcommit, -⟩ | ⟨hholds, -⟩ | ⟨-, hsame⟩
      · cases hcommit
      · exact hholds.elim
      · exact (hlock (hsame ▸ hlocked)).elim
  | commit pc =>
      obtain ⟨rfl, rfl⟩ := Prod.mk.inj hstep
      by_cases hdelete : pc = .deleteLock
      · subst hdelete
        exact absurd hlocked (by simp [commitStep])
      · rcases hcases with ⟨hcommit, hfree, -⟩ | ⟨hholds, -⟩ | ⟨-, hsame⟩
        · obtain rfl : pc = .addLock := by simpa using hcommit
          simp [commitStep, hfree, HoldsLock]
        · exact holdsLock_commitStep hholds hdelete
        · exact holdsLock_commitStep (hlock (hsame ▸ hlocked)) hdelete

/-- A finished call does not hold the lock. -/
theorem not_holdsLock_of_finished {thread : CounterThread} (h : thread.isFinished = true) :
    ¬ HoldsLock thread := by
  cases thread with
  | adjust call pc => exact id
  | commit pc =>
      obtain rfl : pc = .done := by simpa [CounterThread.isFinished] using h
      exact id

/-- A finished call will not track a counter. -/
theorem not_willTrack_of_finished {thread : CounterThread} (h : thread.isFinished = true)
    (pk : Nat) : ¬ WillTrack pk thread := by
  cases thread with
  | adjust call pc =>
      rcases (by simpa [CounterThread.isFinished] using h : pc = .done ∨ pc = .raised)
        with rfl | rfl
      · exact id
      · exact id
  | commit pc => exact id

/-- The invariant of a call that runs alone. -/
structure Alone (total : Nat → Int) (s : Pool CounterStore CounterThread) : Prop where
  interleaved : Interleaved total s
  separate : Separate s
  single : ∃ thread, s.threads = [thread] ∧ (s.shared.lock = true → HoldsLock thread)

/-- A call that runs alone does not overlap with a commit, and stays alone. -/
theorem alone_step {total : Nat → Int} {s s' : Pool CounterStore CounterThread} {i : Nat}
    (hs : Alone total s) (hstep : Pool.Step CounterStep s i s') : Alone total s' := by
  obtain ⟨thread, hthreads, hlock⟩ := hs.single
  have hoverlaps : ¬ Overlaps s i := by
    rintro ⟨hcommit, -, u, hu, hcache⟩
    have hmem := List.mem_of_getElem? hcommit
    rw [hthreads, List.mem_singleton] at hu hmem
    rw [hu, ← hmem] at hcache
    exact absurd hcache Bool.false_ne_true
  refine ⟨interleaved_step hs.interleaved hstep (not_losesUpdate hs.separate i),
    separate_step hs.interleaved hs.separate hstep hoverlaps, ?_⟩
  obtain ⟨stepped, thread', hstepped, hstep, hthreads'⟩ := hstep
  obtain rfl : i = 0 := by
    obtain ⟨hi, -⟩ := List.getElem?_eq_some_iff.mp hstepped
    rw [hthreads, List.length_singleton] at hi
    omega
  rw [hthreads] at hstepped hthreads'
  obtain rfl : thread = stepped := Option.some.inj hstepped
  exact ⟨thread', hthreads', lock_step hstep hlock⟩

/-- A call that runs alone, of the calls that are started on a ready store, keeps the ledger
and leaves the store ready. -/
theorem ready_of_alone {store store' : CounterStore} {thread : CounterThread}
    (calls : List AdjustCall) (commits : Nat) (hready : ReadyStore store)
    (hcalls : ∀ call ∈ calls, call.delta = 1 ∨ call.delta = -1)
    (hstart : startCalls store calls commits = ⟨store, [thread]⟩)
    (hruns : RunsAlone store thread store') :
    ReadyStore store' ∧ ∀ pk, store'.db pk + store'.counter pk = ledgerTotal store calls pk := by
  obtain ⟨schedule, thread', hrun, hfinished⟩ := hruns
  have hfirst : Alone (ledgerTotal store calls) ⟨store, [thread]⟩ := by
    rw [← hstart]
    refine ⟨interleaved_startCalls store calls commits hcalls hready.tracked,
      separate_startCalls store calls commits hready.free, thread, ?_, ?_⟩
    · rw [hstart]
    · rw [hstart]
      exact fun hlocked => absurd hlocked (by simp [hready.free])
  have hlast : Alone (ledgerTotal store calls) ⟨store', [thread']⟩ :=
    hrun.invariant (Alone (ledgerTotal store calls))
      (fun _ _ _ _ hstep hs => alone_step hs hstep) hfirst
  have hone : ∀ u ∈ [thread'], u.isFinished = true := fun u hu =>
    (List.mem_singleton.mp hu) ▸ hfinished
  refine ⟨⟨?_, ?_⟩, ?_⟩
  · obtain ⟨single, hthreads, hlock⟩ := hlast.single
    obtain rfl : thread' = single := List.singleton_inj.mp hthreads
    exact Bool.eq_false_iff.mpr fun h => not_holdsLock_of_finished hfinished (hlock h)
  · intro pk hpresent
    rcases hlast.interleaved.accounted.tracked pk hpresent with hids | ⟨u, hu, hwill⟩
    · exact hids
    · exact absurd hwill (not_willTrack_of_finished (hone u hu) pk)
  · exact (noUpdateLost_of_finished hlast.interleaved.accounted hone).1

/-- An `adjust_counter` call that runs alone adds its delta. -/
theorem ready_adjust {store store' : CounterStore} {call : AdjustCall}
    (hready : ReadyStore store) (hunit : call.delta = 1 ∨ call.delta = -1)
    (hruns : RunsAlone store (.adjust call .testLock) store') :
    ReadyStore store' ∧ ∀ pk, store'.db pk + store'.counter pk =
      store.db pk + store.counter pk + if call.pk = pk then call.delta else 0 := by
  have hcalls : ∀ other ∈ [call], other.delta = 1 ∨ other.delta = -1 := fun other hother =>
    (List.mem_singleton.mp hother) ▸ hunit
  obtain ⟨hready', htotal⟩ := ready_of_alone [call] 0 hready hcalls rfl hruns
  refine ⟨hready', fun pk => ?_⟩
  rw [htotal pk, ledgerTotal]
  simp [amount]

/-- A commit that runs alone keeps the numbers. -/
theorem ready_commit {store store' : CounterStore} (hready : ReadyStore store)
    (hruns : RunsAlone store (.commit .addLock) store') :
    ReadyStore store' ∧
      ∀ pk, store'.db pk + store'.counter pk = store.db pk + store.counter pk := by
  obtain ⟨hready', htotal⟩ :=
    ready_of_alone [] 1 hready (fun _ h => absurd h List.not_mem_nil) rfl hruns
  refine ⟨hready', fun pk => ?_⟩
  rw [htotal pk, ledgerTotal]
  simp [amount]

/-! ### The tasks that wait -/

/-- A task that a handler puts into the queue. -/
theorem pendingDelta_delay (c : CounterTasks) (pk pk' : Nat) (delta : Int) :
    (c.delay pk delta).pendingDelta pk' =
      c.pendingDelta pk' + if pk = pk' then delta else 0 := by
  simp [CounterTasks.pendingDelta, CounterTasks.delay]

/-- Handlers leave the tasks ready. -/
theorem readyTasks_delay {c : CounterTasks} (hready : ReadyTasks c) (pk : Nat) {delta : Int}
    (hunit : delta = 1 ∨ delta = -1) : ReadyTasks (c.delay pk delta) := by
  refine ⟨hready.store, fun call hcall => ?_⟩
  rcases List.mem_append.mp hcall with hold | hnew
  · exact hready.isUnit call hold
  · rw [List.mem_singleton.mp hnew]
    exact hunit

/-- A sum without one of its terms. -/
theorem sum_eraseIdx {tasks : List AdjustCall} {i : Nat} {call : AdjustCall}
    (h : tasks[i]? = some call) (f : AdjustCall → Int) :
    ((tasks.eraseIdx i).map f).sum + f call = (tasks.map f).sum := by
  induction tasks generalizing i with
  | nil => simp at h
  | cons first tasks ih =>
      cases i with
      | zero =>
          obtain rfl : first = call := by simpa using h
          simp only [List.eraseIdx_cons_zero, List.map_cons, List.sum_cons]
          omega
      | succ i =>
          have := ih (by simpa using h)
          simp only [List.eraseIdx_cons_succ, List.map_cons, List.sum_cons]
          omega

/-- A worker keeps the number together with what the waiting tasks add to it. -/
theorem ledger_step {c c' : CounterTasks} {op : CounterTaskOp} (hready : ReadyTasks c)
    (hstep : c.Step op c') :
    ReadyTasks c' ∧
      ∀ pk, c'.liveNumber pk + c'.pendingDelta pk = c.liveNumber pk + c.pendingDelta pk := by
  cases op with
  | runTask i =>
      obtain ⟨call, hcall, hruns, htasks⟩ := hstep
      have hunit := hready.isUnit call (List.mem_of_getElem? hcall)
      obtain ⟨hready', hnumber⟩ := ready_adjust hready.store hunit hruns
      refine ⟨⟨hready', fun other hother => ?_⟩, fun pk => ?_⟩
      · rw [htasks] at hother
        exact hready.isUnit other ((List.eraseIdx_sublist _ _).subset hother)
      · have hsum := sum_eraseIdx hcall fun call => if call.pk = pk then call.delta else 0
        unfold CounterTasks.liveNumber CounterTasks.pendingDelta
        rw [htasks, hnumber pk]
        omega
  | commit =>
      obtain ⟨hruns, htasks⟩ := hstep
      obtain ⟨hready', hnumber⟩ := ready_commit hready.store hruns
      refine ⟨⟨hready', fun other hother => hready.isUnit other (htasks ▸ hother)⟩, fun pk => ?_⟩
      unfold CounterTasks.liveNumber CounterTasks.pendingDelta
      rw [htasks, hnumber pk]

/-- A deterministic run of a call until it has finished. -/
theorem runsAlone_of_exec {store : CounterStore} {thread : CounterThread} {schedule : List Nat}
    {s : Pool CounterStore CounterThread} {thread' : CounterThread}
    (hexec : Pool.exec (counterStep id) (fun _ _ => true) ⟨store, [thread]⟩ schedule = some s)
    (hthreads : s.threads = [thread']) (hfinished : thread'.isFinished = true) :
    RunsAlone store thread s.shared := by
  have hrun : Run (Guarded (Pool.Step CounterStep) fun _ _ _ => True)
      ⟨store, [thread]⟩ schedule s :=
    Pool.run_of_exec counterStep_id (fun _ _ _ _ => trivial) hexec
  refine ⟨schedule, thread', ?_, hfinished⟩
  rw [← hthreads]
  exact hrun.mono fun _ _ _ h => h.1

end Onadata.Proofs
