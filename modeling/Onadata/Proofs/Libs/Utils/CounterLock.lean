import Onadata.Proofs.Libs.Utils.CounterLedger

/-!
# `Onadata.Proofs.Libs.Utils.CounterLock`: what the lock of a commit protects

`adjust_counter` tests the lock of the commits once, before it works on the cache. A commit
that takes the lock after that test does not wait for the call.

* `separate_step`: while no commit takes the lock during such a call, the calls and the
  commits are separate.
* `not_losesUpdate`: no step of separate calls and commits loses an update.
* `noUpdateLost`, `noUpdateLost_of_separate`: what holds when all calls of a run have
  finished.
-/

set_option autoImplicit false

namespace Onadata.Proofs

open Onadata.Lib

/-! ### Separate calls and commits -/

/-- The call has found the lock free and works on the cache. -/
def InCache : CounterThread → Bool
  | .adjust _ pc =>
      match pc with
      | .testLock | .fallbackToDb | .failover | .done | .raised => false
      | _ => true
  | .commit _ => false

/-- The commit holds the lock. -/
def HoldsLock : CounterThread → Prop
  | .commit pc =>
      match pc with
      | .addLock | .deleteCreatedAt | .done => False
      | _ => True
  | .adjust _ _ => False

/-- The step takes the lock of the commits while a call works on the cache. -/
def Overlaps (s : Pool CounterStore CounterThread) (i : Nat) : Prop :=
  s.threads[i]? = some (.commit .addLock) ∧ s.shared.lock = false ∧
    ∃ u ∈ s.threads, InCache u = true

instance (s : Pool CounterStore CounterThread) (i : Nat) : Decidable (Overlaps s i) :=
  inferInstanceAs (Decidable (_ ∧ _ ∧ _))

/-- What the thread relies on: a call that found a counter finds it again, and a commit works
on the counters that it has read, and on all of them. -/
def Relies (store : CounterStore) : CounterThread → Prop
  | .adjust call pc =>
      match pc with
      | .acquireIds false | .getIds false | .setIds false _ | .releaseIds false
      | .addCreatedAt false | .incr | .getCounter | .decr => store.counters call.pk ≠ none
      | _ => True
  | .commit pc =>
      match pc with
      | .getCounter pk pks => ∀ pk', store.counters pk' ≠ none → pk' ∈ pk :: pks
      | .adjustField pk counter pks | .deleteCounter pk counter pks =>
          store.counter pk = counter ∧ ∀ pk', store.counters pk' ≠ none → pk' ∈ pk :: pks
      | .deleteIds => ∀ pk', store.counters pk' = none
      | _ => True

/-- The calls that work on the cache and the commit that holds the lock are separate. -/
structure Separate (s : Pool CounterStore CounterThread) : Prop where
  exclusive : Exclusive HoldsLock (s.shared.lock = true) s.threads
  free : ∀ u ∈ s.threads, InCache u = true → s.shared.lock = false
  relies : ∀ u ∈ s.threads, Relies s.shared u

/-- Separate threads lose no update in the next step. -/
theorem not_losesUpdate {s : Pool CounterStore CounterThread} (hs : Separate s) (i : Nat) :
    ¬ LosesUpdate s i := by
  rintro ⟨thread, hthread, hloses⟩
  have hrelies := hs.relies thread (List.mem_of_getElem? hthread)
  rcases hloses with hdrops | ⟨rfl, pk, hpresent, -⟩
  · cases thread with
    | adjust call pc =>
        cases pc with
        | incr | getCounter | decr => exact hrelies hdrops
        | _ => exact hdrops
    | commit pc =>
        cases pc with
        | deleteCounter pk counter pks => exact hdrops hrelies.1
        | _ => exact hdrops
  · exact hpresent (hrelies pk)

/-- An operation takes the lock of the commits, releases it, or does neither. -/
theorem holdsLock_step {store store' : CounterStore} {thread thread' : CounterThread}
    (hstep : CounterStep store thread store' thread') :
    (thread = .commit .addLock ∧ store.lock = false ∧ store'.lock = true ∧
      store'.counters = store.counters) ∨
    (HoldsLock thread ∧ ¬ HoldsLock thread') ∨
    ((HoldsLock thread' → HoldsLock thread) ∧ store'.lock = store.lock) := by
  obtain ⟨order, -, hstep⟩ := hstep
  cases thread with
  | adjust call pc =>
      obtain ⟨rfl, rfl⟩ := Prod.mk.inj hstep
      refine Or.inr (Or.inr ⟨fun h => h.elim, ?_⟩)
      cases pc with
      | addCounter | acquireIds created | incr | decr =>
          simp only [adjustStep]
          split <;> rfl
      | _ => rfl
  | commit pc =>
      obtain ⟨rfl, rfl⟩ := Prod.mk.inj hstep
      cases pc with
      | addLock =>
          by_cases hlock : store.lock = true
          · have htaken : commitStep order store .addLock = (store, .done) := by
              simp [commitStep, hlock]
            rw [htaken]
            exact Or.inr (Or.inr ⟨fun h => h.elim, rfl⟩)
          · have hfree : commitStep order store .addLock =
                ({ store with lock := true }, .getIds) := by
              simp [commitStep, hlock]
            rw [hfree]
            exact Or.inl ⟨rfl, Bool.eq_false_iff.mpr hlock, rfl, rfl⟩
      | deleteLock => exact Or.inr (Or.inl ⟨trivial, id⟩)
      | deleteCreatedAt | done => exact Or.inr (Or.inr ⟨fun h => h.elim, rfl⟩)
      | _ => exact Or.inr (Or.inr ⟨fun _ => trivial, rfl⟩)

/-- A call comes to the cache only when the lock is free. -/
theorem inCache_step {store store' : CounterStore} {thread thread' : CounterThread}
    (hstep : CounterStep store thread store' thread') (h : InCache thread' = true) :
    (InCache thread = true ∨ store.lock = false) ∧ store'.lock = store.lock := by
  have hlock : store'.lock = store.lock := by
    rcases holdsLock_step hstep with ⟨rfl, -⟩ | ⟨hholds, -⟩ | ⟨-, hsame⟩
    · obtain ⟨order, -, hstep⟩ := hstep
      obtain rfl := (Prod.mk.inj hstep).2
      exact absurd h (by simp [InCache])
    · cases thread with
      | adjust call pc => exact hholds.elim
      | commit pc =>
          obtain ⟨order, -, hstep⟩ := hstep
          obtain rfl := (Prod.mk.inj hstep).2
          exact absurd h (by simp [InCache])
    · exact hsame
  refine ⟨?_, hlock⟩
  obtain ⟨order, -, hstep⟩ := hstep
  cases thread with
  | adjust call pc =>
      obtain ⟨-, rfl⟩ := Prod.mk.inj hstep
      cases pc with
      | testLock =>
          simp only [adjustStep] at h
          split at h
          · exact absurd h (by simp [InCache])
          · rename_i hfree
            exact Or.inr (Bool.eq_false_iff.mpr hfree)
      | fallbackToDb | failover | done | raised => exact absurd h (by simp [adjustStep, InCache])
      | _ => exact Or.inl rfl
  | commit pc =>
      obtain ⟨-, rfl⟩ := Prod.mk.inj hstep
      exact absurd h (by simp [InCache])

/-- Only a call that works on the cache and a commit with the lock write counters, and the
call removes none. -/
theorem counters_cases {store store' : CounterStore} {thread thread' : CounterThread}
    (hstep : CounterStep store thread store' thread') :
    store'.counters = store.counters ∨ HoldsLock thread ∨
      (InCache thread = true ∧ ∀ pk, store.counters pk ≠ none → store'.counters pk ≠ none) := by
  have hset : ∀ (pk pk' : Nat) (value : Int), store.counters pk' ≠ none →
      (store.setCounter pk value).counters pk' ≠ none := by
    intro pk pk' value hpresent
    rw [counters_setCounter]
    split
    · exact Option.some_ne_none value
    · exact hpresent
  obtain ⟨order, -, hstep⟩ := hstep
  cases thread with
  | adjust call pc =>
      obtain ⟨rfl, -⟩ := Prod.mk.inj hstep
      cases pc with
      | addCounter | incr | decr =>
          refine Or.inr (Or.inr ⟨rfl, fun pk hpresent => ?_⟩)
          simp only [adjustStep]
          split
          · exact hset _ _ _ hpresent
          · exact hpresent
      | acquireIds created =>
          refine Or.inl ?_
          simp only [adjustStep]
          split <;> rfl
      | _ => exact Or.inl rfl
  | commit pc =>
      obtain ⟨rfl, -⟩ := Prod.mk.inj hstep
      cases pc with
      | addLock =>
          refine Or.inl ?_
          simp only [commitStep]
          split <;> rfl
      | deleteCounter pk counter pks => exact Or.inr (Or.inl trivial)
      | _ => exact Or.inl rfl

/-- The loop relies on the ids that are left. -/
theorem relies_loop {store : CounterStore} {pks : List Nat}
    (h : ∀ pk, store.counters pk ≠ none → pk ∈ pks) : Relies store (.commit (.loop pks)) := by
  cases pks with
  | nil => exact fun pk => Classical.not_not.mp fun hne => absurd (h pk hne) (by simp)
  | cons pk pks => exact h

/-- What a call relies on holds after its own operation. -/
theorem relies_adjustStep (call : AdjustCall) (store : CounterStore) (pc : AdjustPc)
    (hdelta : call.delta ≠ 0) (hrelies : Relies store (.adjust call pc)) :
    Relies (adjustStep call store pc).1 (.adjust call (adjustStep call store pc).2) := by
  cases pc with
  | testLock =>
      simp only [adjustStep]
      split_ifs
      · trivial
      · trivial
      · trivial
      · omega
  | testCounter | addCounter =>
      simp only [adjustStep]
      split
      · trivial
      · rename_i hpresent
        exact fun hnone => hpresent (Option.isNone_iff_eq_none.mpr hnone)
  | acquireIds created =>
      simp only [adjustStep]
      cases created with
      | false => split <;> exact hrelies
      | true => split <;> trivial
  | addCreatedAt created | getIds created | releaseIds created | setIds created current =>
      cases created with
      | false => exact hrelies
      | true => trivial
  | getCounter =>
      simp only [adjustStep]
      split
      · trivial
      · exact hrelies
  | incr | decr =>
      simp only [adjustStep]
      split <;> trivial
  | _ => trivial

/-- What a commit relies on holds after its own operation. When it reads the tracked ids,
they have to hold every counter. -/
theorem relies_commitStep (order : List Nat → List Nat) (horder : ∀ ids, (order ids).Perm ids)
    (store : CounterStore) (pc : CommitPc) (hrelies : Relies store (.commit pc))
    (htracked : HoldsLock (.commit pc) → ∀ pk, store.counters pk ≠ none → pk ∈ store.ids) :
    Relies (commitStep order store pc).1 (.commit (commitStep order store pc).2) := by
  cases pc with
  | addLock =>
      simp only [commitStep]
      split <;> trivial
  | getIds =>
      refine relies_loop fun pk hpresent => ?_
      exact (horder store.ids).mem_iff.mpr (htracked trivial pk hpresent)
  | getCounter pk pks =>
      simp only [commitStep]
      split
      · exact ⟨rfl, hrelies⟩
      · exact ⟨rfl, hrelies⟩
  | adjustField pk counter pks => exact hrelies
  | deleteCounter pk counter pks =>
      refine relies_loop fun pk' hpresent => ?_
      rw [commitStep, counters_deleteCounter] at hpresent
      split at hpresent
      · exact absurd rfl hpresent
      · rename_i hne
        exact (List.mem_cons.mp (hrelies.2 pk' hpresent)).resolve_left hne
  | _ => trivial

/-- What a thread relies on holds after its own operation. -/
theorem relies_step {store store' : CounterStore} {thread thread' : CounterThread}
    (hstep : CounterStep store thread store' thread') (hunit : IsUnit thread)
    (hrelies : Relies store thread)
    (htracked : HoldsLock thread → ∀ pk, store.counters pk ≠ none → pk ∈ store.ids) :
    Relies store' thread' := by
  obtain ⟨order, horder, hstep⟩ := hstep
  cases thread with
  | adjust call pc =>
      obtain ⟨rfl, rfl⟩ := Prod.mk.inj hstep
      have hdelta := hunit.1
      exact relies_adjustStep call store pc (by omega) hrelies
  | commit pc =>
      obtain ⟨rfl, rfl⟩ := Prod.mk.inj hstep
      exact relies_commitStep order horder store pc hrelies htracked

/-- What a thread relies on is a matter of the counters. -/
theorem Relies.congr {store store' : CounterStore} {u : CounterThread} (h : Relies store u)
    (hcounters : store'.counters = store.counters) : Relies store' u := by
  unfold Relies CounterStore.counter at h ⊢
  rw [hcounters]
  exact h

/-- Without the lock, a thread relies on counters to stay. -/
theorem Relies.mono {store store' : CounterStore} {u : CounterThread} (h : Relies store u)
    (hfree : ¬ HoldsLock u)
    (hcounters : InCache u = true → ∀ pk, store.counters pk ≠ none → store'.counters pk ≠ none) :
    Relies store' u := by
  cases u with
  | adjust call pc =>
      cases pc with
      | acquireIds created | getIds created | releaseIds created | addCreatedAt created
      | setIds created current =>
          cases created with
          | false => exact hcounters rfl call.pk h
          | true => trivial
      | incr | getCounter | decr => exact hcounters rfl call.pk h
      | _ => trivial
  | commit pc =>
      cases pc with
      | addLock | deleteCreatedAt | done => trivial
      | _ => exact absurd trivial hfree

/-- A call that will track a counter works on the cache. -/
theorem inCache_of_willTrack {pk : Nat} {u : CounterThread} (h : WillTrack pk u) :
    InCache u = true := by
  cases u with
  | adjust call pc =>
      cases pc with
      | acquireIds created | getIds created | setIds created current => rfl
      | _ => exact h.elim
  | commit pc => exact h.elim

/-! ### Runs -/

/-- A step that does not overlap keeps the calls and the commits separate. -/
theorem separate_step {total : Nat → Int} {s s' : Pool CounterStore CounterThread} {i : Nat}
    (hs : Interleaved total s) (hseparate : Separate s) (hstep : Pool.Step CounterStep s i s')
    (hoverlaps : ¬ Overlaps s i) : Separate s' := by
  obtain ⟨thread, thread', hthread, hstep, hthreads⟩ := hstep
  have hmem : thread ∈ s.threads := List.mem_of_getElem? hthread
  have hbusy : HoldsLock thread → ∀ u ∈ s.threads, ¬ InCache u = true := by
    intro hholds u hu hcache
    have hlocked := hseparate.exclusive.locked thread hmem hholds
    rw [hseparate.free u hu hcache] at hlocked
    exact absurd hlocked (by simp)
  have hself : Relies s'.shared thread' := by
    refine relies_step hstep (hs.isUnit thread hmem) (hseparate.relies thread hmem) ?_
    intro hholds pk hpresent
    rcases hs.accounted.tracked pk hpresent with hids | ⟨u, hu, hwill⟩
    · exact hids
    · exact absurd (inCache_of_willTrack hwill) (hbusy hholds u hu)
  refine ⟨?_, ?_, ?_⟩
  · rw [hthreads]
    rcases holdsLock_step hstep with ⟨-, hfree, hlocked, -⟩ | ⟨hholds, hreleased⟩ | ⟨hholds, hsame⟩
    · exact hseparate.exclusive.acquire (by simp [hfree]) hlocked
    · exact hseparate.exclusive.release hthread hholds hreleased
    · exact hseparate.exclusive.keep hthread hholds fun h => hsame.trans h
  · intro u hu hcache
    rcases List.mem_or_eq_of_mem_set (hthreads ▸ hu) with hold | rfl
    · have hfree := hseparate.free u hold hcache
      rcases holdsLock_step hstep with ⟨rfl, -⟩ | ⟨hholds, -⟩ | ⟨-, hsame⟩
      · exact absurd ⟨hthread, hfree, u, hold, hcache⟩ hoverlaps
      · exact absurd hcache (hbusy hholds u hold)
      · exact hsame.trans hfree
    · obtain ⟨hbefore, hsame⟩ := inCache_step hstep hcache
      rcases hbefore with hbefore | hfree
      · exact hsame.trans (hseparate.free thread hmem hbefore)
      · exact hsame.trans hfree
  · intro u hu
    rw [hthreads] at hu
    rcases List.mem_or_eq_of_mem_set hu with hold | rfl
    · have hrelies := hseparate.relies u hold
      rcases counters_cases hstep with hsame | hholds | ⟨hcache, hgrow⟩
      · exact hrelies.congr hsame
      · -- A commit deletes a counter: no other thread relies on one.
        rcases hseparate.exclusive.mem_set_cases hthread hholds hu with rfl | ⟨-, hnot⟩
        · exact hself
        · exact hrelies.mono hnot fun h => absurd h (hbusy hholds u hold)
      · have hfree := hseparate.free thread hmem hcache
        exact hrelies.mono (hseparate.exclusive.not_holds (by simp [hfree]) hold) fun _ => hgrow
    · exact hself

/-- Calls and commits before their first operation are separate if the lock is free. -/
theorem separate_startCalls (store : CounterStore) (calls : List AdjustCall) (commits : Nat)
    (hfree : store.lock = false) : Separate (startCalls store calls commits) := by
  have hstart : ∀ u ∈ (startCalls store calls commits).threads,
      ¬ HoldsLock u ∧ Relies store u := by
    intro u hu
    simp only [startCalls, List.mem_append, List.mem_map, List.mem_replicate] at hu
    rcases hu with ⟨call, -, rfl⟩ | ⟨-, rfl⟩
    · exact ⟨id, trivial⟩
    · exact ⟨id, trivial⟩
  refine ⟨⟨?_, ?_⟩, fun _ _ _ => hfree, fun u hu => (hstart u hu).2⟩
  · exact fun i j t u ht _ hholds _ => absurd hholds (hstart t (List.mem_of_getElem? ht)).1
  · exact fun t ht hholds => absurd hholds (hstart t ht).1

/-- When the calls of a run in which no step loses an update have finished, every counter is
at its total and the next commit finds every counter. -/
theorem noUpdateLost (store : CounterStore) (calls : List AdjustCall) (commits : Nat)
    (hcalls : ∀ call ∈ calls, call.delta = 1 ∨ call.delta = -1)
    (htracked : ∀ pk, store.counters pk ≠ none → pk ∈ store.ids) (schedule : List Nat)
    (s : Pool CounterStore CounterThread)
    (hrun : Run (Guarded (Pool.Step CounterStep) fun s i _ => ¬ LosesUpdate s i)
      (startCalls store calls commits) schedule s)
    (hfinished : ∀ u ∈ s.threads, u.isFinished = true) :
    NoUpdateLost (ledgerTotal store calls) s.shared := by
  have hs : Interleaved (ledgerTotal store calls) s :=
    hrun.invariant (Interleaved (ledgerTotal store calls))
      (fun s i s' _ hstep hs => interleaved_step hs hstep.1 hstep.2)
      (interleaved_startCalls store calls commits hcalls htracked)
  exact noUpdateLost_of_finished hs.accounted hfinished

/-- No step loses an update in a run in which no commit takes the lock while a call works on
the cache. -/
theorem not_losesUpdate_of_separate (store : CounterStore) (calls : List AdjustCall)
    (commits : Nat) (hcalls : ∀ call ∈ calls, call.delta = 1 ∨ call.delta = -1)
    (htracked : ∀ pk, store.counters pk ≠ none → pk ∈ store.ids) (hfree : store.lock = false)
    (schedule : List Nat) (s : Pool CounterStore CounterThread)
    (hrun : Run (Guarded (Pool.Step CounterStep) fun s i _ => ¬ Overlaps s i)
      (startCalls store calls commits) schedule s) :
    Run (Guarded (Pool.Step CounterStep) fun s i _ => ¬ LosesUpdate s i)
      (startCalls store calls commits) schedule s := by
  refine hrun.guarded_mono
    (fun s => Interleaved (ledgerTotal store calls) s ∧ Separate s) ?_ ?_ ?_
  · exact ⟨interleaved_startCalls store calls commits hcalls htracked,
      separate_startCalls store calls commits hfree⟩
  · exact fun s i s' _ _ hs _ => not_losesUpdate hs.2 i
  · intro s i s' _ hstep hoverlaps hs
    exact ⟨interleaved_step hs.1 hstep (not_losesUpdate hs.2 i),
      separate_step hs.1 hs.2 hstep hoverlaps⟩

/-! ### A commit during an increment -/

/-- A counter with three cached increments. -/
def cachedThree : CounterStore where
  db _ := 0
  counters pk := if pk = 0 then some 3 else none
  trackedIds := some [0]

/-- The steps of a thread in the order of the list are steps. -/
theorem counterStep_id (store : CounterStore) (thread : CounterThread) :
    CounterStep store thread (counterStep id store thread).1 (counterStep id store thread).2 :=
  ⟨id, fun ids => .refl ids, rfl⟩

/-- The commit (thread 1) reads the counter before the call (thread 0) increments it, and
deletes it after. -/
def commitDuringIncrement : List Nat :=
  [0, 0, 0, 0, 0, 0, 0, 1, 1, 1, 0, 0, 1, 1, 1, 1, 1]

/-- The commit takes the lock after the call has tested it, and the increment is lost: the
field is at three and no counter is left. -/
theorem not_noUpdateLost_commitDuringIncrement :
    ∃ s, Run (Pool.Step CounterStep) (startCalls cachedThree [⟨0, 1⟩] 1)
        commitDuringIncrement s ∧ (∀ u ∈ s.threads, u.isFinished = true) ∧
      s.shared.db 0 = 3 ∧ s.shared.counters 0 = none ∧
      ¬ NoUpdateLost (ledgerTotal cachedThree [⟨0, 1⟩]) s.shared := by
  have hexec : (Pool.exec (counterStep id) (fun _ _ => true)
      (startCalls cachedThree [⟨0, 1⟩] 1) commitDuringIncrement).map
        (fun s => (s.threads, s.shared.db 0, s.shared.counters 0)) =
      some ([.adjust ⟨0, 1⟩ .done, .commit .done], 3, none) := by decide
  obtain ⟨s, hs, hvalues⟩ := Option.map_eq_some_iff.mp hexec
  simp only [Prod.mk.injEq] at hvalues
  obtain ⟨hthreads, hdb, hcounter⟩ := hvalues
  have hrun : Run (Guarded (Pool.Step CounterStep) fun _ _ _ => True)
      (startCalls cachedThree [⟨0, 1⟩] 1) commitDuringIncrement s :=
    Pool.run_of_exec counterStep_id (fun _ _ _ _ => trivial) hs
  refine ⟨s, hrun.mono fun _ _ _ h => h.1, by rw [hthreads]; decide, hdb, hcounter, ?_⟩
  intro hkept
  have htotal := hkept.1 0
  rw [hdb, CounterStore.counter, hcounter] at htotal
  exact absurd htotal (by decide)

/-- One after the other, the call and the commit leave the field at four. -/
theorem noUpdateLost_sequential :
    ∃ s, Run (Pool.Step CounterStep) (startCalls cachedThree [⟨0, 1⟩] 1)
        (List.replicate 9 0 ++ List.replicate 8 1) s ∧
      s.shared.db 0 = 4 ∧ NoUpdateLost (ledgerTotal cachedThree [⟨0, 1⟩]) s.shared := by
  have hexec : (Pool.exec (counterStep id) (fun s i => !decide (Overlaps s i))
      (startCalls cachedThree [⟨0, 1⟩] 1) (List.replicate 9 0 ++ List.replicate 8 1)).map
        (fun s => (s.threads, s.shared.db 0)) =
      some ([.adjust ⟨0, 1⟩ .done, .commit .done], 4) := by decide
  obtain ⟨s, hs, hvalues⟩ := Option.map_eq_some_iff.mp hexec
  simp only [Prod.mk.injEq] at hvalues
  obtain ⟨hthreads, hdb⟩ := hvalues
  have hrun : Run (Guarded (Pool.Step CounterStep) fun s i _ => ¬ Overlaps s i)
      (startCalls cachedThree [⟨0, 1⟩] 1) (List.replicate 9 0 ++ List.replicate 8 1) s :=
    Pool.run_of_exec counterStep_id (fun _ _ _ hcheck => by simpa using hcheck) hs
  have hcalls : ∀ call ∈ [(⟨0, 1⟩ : AdjustCall)], call.delta = 1 ∨ call.delta = -1 := by decide
  have htracked : ∀ pk, cachedThree.counters pk ≠ none → pk ∈ cachedThree.ids := by
    intro pk hpresent
    by_cases hpk : pk = 0
    · exact hpk ▸ List.mem_singleton_self 0
    · exact absurd (by simp [cachedThree, hpk]) hpresent
  have hkeeps := not_losesUpdate_of_separate cachedThree _ 1 hcalls htracked rfl _ s hrun
  exact ⟨s, hrun.mono fun _ _ _ h => h.1, hdb,
    noUpdateLost cachedThree _ 1 hcalls htracked _ s hkeeps (by rw [hthreads]; decide)⟩

end Onadata.Proofs
