import Mathlib.Algebra.BigOperators.Group.List.Basic
import Mathlib.Algebra.Order.Ring.Int
import Onadata.Lib.Run

/-!
# `Onadata.Lib.ThreadPool`: threads that share a state

A pool is a shared state and a list of threads. A step of the pool is an atomic step of one
thread, named by its position, so that a run of the pool is one interleaving.

* `Pool.sum_step`: an amount of the shared state and what the threads owe to it.
* `Exclusive`: a lock that at most one thread holds, with the rules for a step that takes
  it, releases it or does neither.
* `Pool.run_of_exec`, `Pool.run_of_attempt`: a schedule of a deterministic thread step, which
  may have to wait, is a run whose steps pass a check.
-/

set_option autoImplicit false

namespace Onadata.Lib

variable {Shared Thread : Type}

/-- A shared state and the threads that work on it. -/
structure Pool (Shared Thread : Type) where
  shared : Shared
  threads : List Thread

namespace Pool

/-- The thread at position `i` takes an atomic step. -/
def Step (step : Shared → Thread → Shared → Thread → Prop) (s : Pool Shared Thread) (i : Nat)
    (s' : Pool Shared Thread) : Prop :=
  ∃ thread thread', s.threads[i]? = some thread ∧
    step s.shared thread s'.shared thread' ∧ s'.threads = s.threads.set i thread'

/-! ### The threads after a step -/

/-- The thread that takes the step is there after it. -/
theorem mem_set_self {threads : List Thread} {i : Nat} {thread : Thread} (thread' : Thread)
    (h : threads[i]? = some thread) : thread' ∈ threads.set i thread' := by
  obtain ⟨hi, -⟩ := List.getElem?_eq_some_iff.mp h
  exact List.mem_set hi thread'

/-- The other threads stay. -/
theorem mem_set_of_ne {threads : List Thread} {i : Nat} {thread u : Thread}
    (thread' : Thread) (h : threads[i]? = some thread) (hu : u ∈ threads) (hne : u ≠ thread) :
    u ∈ threads.set i thread' := by
  obtain ⟨j, hj⟩ := List.mem_iff_getElem?.mp hu
  have hij : i ≠ j := by
    rintro rfl
    exact hne (Option.some.inj (hj.symm.trans h))
  rw [List.mem_iff_getElem?]
  exact ⟨j, by rw [List.getElem?_set_ne hij, hj]⟩

/-- A step changes a sum over the threads by what it changes for its thread. -/
theorem sum_map_set {threads : List Thread} {i : Nat} {thread : Thread} (thread' : Thread)
    (owed : Thread → Int) (h : threads[i]? = some thread) :
    ((threads.set i thread').map owed).sum + owed thread =
      (threads.map owed).sum + owed thread' := by
  induction threads generalizing i with
  | nil => simp at h
  | cons first threads ih =>
      cases i with
      | zero =>
          rw [List.getElem?_cons_zero, Option.some.injEq] at h
          simp only [List.set_cons_zero, List.map_cons, List.sum_cons, h]
          omega
      | succ i =>
          rw [List.getElem?_cons_succ] at h
          have := ih h
          simp only [List.set_cons_succ, List.map_cons, List.sum_cons]
          omega

/-- The amount of the shared state together with what the threads owe to it is kept by a
step exactly when its thread keeps it. -/
theorem sum_step {threads : List Thread} {i : Nat} {thread thread' : Thread}
    (owed : Thread → Int) (h : threads[i]? = some thread) (amount amount' : Int) :
    amount' + ((threads.set i thread').map owed).sum = amount + (threads.map owed).sum ↔
      amount' + owed thread' = amount + owed thread := by
  have := sum_map_set thread' owed h
  omega

/-! ### Schedules -/

/-- The run of a schedule under a deterministic thread step. It stops at a position without
a thread, and at a step that fails the check. -/
def exec (step : Shared → Thread → Shared × Thread) (check : Pool Shared Thread → Nat → Bool)
    (s : Pool Shared Thread) : List Nat → Option (Pool Shared Thread)
  | [] => some s
  | i :: schedule =>
      match s.threads[i]? with
      | none => none
      | some thread =>
          if check s i then
            let (shared, thread') := step s.shared thread
            exec step check ⟨shared, s.threads.set i thread'⟩ schedule
          else none

/-- A schedule that does not stop early is a run whose steps pass the check. -/
theorem run_of_exec {step : Shared → Thread → Shared × Thread}
    {check : Pool Shared Thread → Nat → Bool}
    {Rel : Shared → Thread → Shared → Thread → Prop}
    {guard : Pool Shared Thread → Nat → Pool Shared Thread → Prop}
    (hstep : ∀ shared thread, Rel shared thread (step shared thread).1 (step shared thread).2)
    (hcheck : ∀ s i s', check s i = true → guard s i s')
    {s s' : Pool Shared Thread} {schedule : List Nat}
    (hexec : exec step check s schedule = some s') :
    Run (Guarded (Step Rel) guard) s schedule s' := by
  induction schedule generalizing s with
  | nil =>
      rw [exec, Option.some.injEq] at hexec
      exact hexec ▸ .nil s
  | cons i schedule ih =>
      rw [exec] at hexec
      cases hthread : s.threads[i]? with
      | none => simp [hthread] at hexec
      | some thread =>
          simp only [hthread, Option.ite_none_right_eq_some] at hexec
          obtain ⟨hpass, hexec⟩ := hexec
          have hfirst : Step Rel s i ⟨_, _⟩ := ⟨thread, _, hthread, hstep s.shared thread, rfl⟩
          exact .cons ⟨hfirst, hcheck _ _ _ hpass⟩ (ih hexec)

/-- The run of a schedule under a deterministic thread step that may have to wait. It stops at
a position without a thread, at a thread that waits, and at a step that fails the check. -/
def attempt (step : Shared → Thread → Option (Shared × Thread))
    (check : Pool Shared Thread → Nat → Bool) (s : Pool Shared Thread) :
    List Nat → Option (Pool Shared Thread)
  | [] => some s
  | i :: schedule =>
      match s.threads[i]? with
      | none => none
      | some thread =>
          match step s.shared thread with
          | none => none
          | some (shared, thread') =>
              if check s i then attempt step check ⟨shared, s.threads.set i thread'⟩ schedule
              else none

/-- A schedule that does not stop early is a run whose steps pass the check. -/
theorem run_of_attempt {step : Shared → Thread → Option (Shared × Thread)}
    {check : Pool Shared Thread → Nat → Bool}
    {Rel : Shared → Thread → Shared → Thread → Prop}
    {guard : Pool Shared Thread → Nat → Pool Shared Thread → Prop}
    (hstep : ∀ shared thread shared' thread', step shared thread = some (shared', thread') →
      Rel shared thread shared' thread')
    (hcheck : ∀ s i s', check s i = true → guard s i s')
    {s s' : Pool Shared Thread} {schedule : List Nat}
    (hattempt : attempt step check s schedule = some s') :
    Run (Guarded (Step Rel) guard) s schedule s' := by
  induction schedule generalizing s with
  | nil =>
      rw [attempt, Option.some.injEq] at hattempt
      exact hattempt ▸ .nil s
  | cons i schedule ih =>
      unfold attempt at hattempt
      cases hthread : s.threads[i]? with
      | none => simp [hthread] at hattempt
      | some thread =>
          cases hnext : step s.shared thread with
          | none => simp [hthread, hnext] at hattempt
          | some next =>
              simp only [hthread, hnext, Option.ite_none_right_eq_some] at hattempt
              obtain ⟨hpass, hattempt⟩ := hattempt
              have hrel := hstep s.shared thread next.1 next.2 hnext
              have hfirst : Step Rel s i ⟨next.1, s.threads.set i next.2⟩ :=
                ⟨thread, next.2, hthread, hrel, rfl⟩
              exact .cons ⟨hfirst, hcheck _ _ _ hpass⟩ (ih hattempt)

end Pool

/-! ### A lock -/

/-- At most one of the threads holds the lock, and the lock is taken while one does. -/
structure Exclusive (holds : Thread → Prop) (locked : Prop) (threads : List Thread) : Prop where
  unique : ∀ (i j : Nat) (t u : Thread), threads[i]? = some t → threads[j]? = some u →
    holds t → holds u → i = j
  locked : ∀ t ∈ threads, holds t → locked

namespace Exclusive

variable {holds : Thread → Prop} {locked locked' : Prop} {threads : List Thread} {i : Nat}
  {thread thread' : Thread}

/-- A thread after the step at `i`: the new one at `i`, an old one elsewhere. -/
theorem getElem?_set_cases {threads : List Thread} {i j : Nat} {u thread' : Thread}
    (h : (threads.set i thread')[j]? = some u) :
    (j = i ∧ u = thread') ∨ (j ≠ i ∧ threads[j]? = some u) := by
  by_cases hij : i = j
  · subst hij
    rw [List.getElem?_set_self'] at h
    obtain ⟨-, -, rfl⟩ := Option.map_eq_some_iff.mp h
    exact Or.inl ⟨rfl, rfl⟩
  · rw [List.getElem?_set_ne hij] at h
    exact Or.inr ⟨fun heq => hij heq.symm, h⟩

/-- No thread holds a free lock. -/
theorem not_holds (h : Exclusive holds locked threads) (hfree : ¬ locked) {u : Thread}
    (hu : u ∈ threads) : ¬ holds u :=
  fun hholds => hfree (h.locked u hu hholds)

/-- After a step of the holder, no other thread is one that holds the lock. -/
theorem mem_set_cases (h : Exclusive holds locked threads)
    (hthread : threads[i]? = some thread) (hholds : holds thread) {u : Thread}
    (hu : u ∈ threads.set i thread') : u = thread' ∨ (u ∈ threads ∧ ¬ holds u) := by
  obtain ⟨j, hj⟩ := List.mem_iff_getElem?.mp hu
  rcases getElem?_set_cases hj with ⟨-, rfl⟩ | ⟨hne, hj⟩
  · exact Or.inl rfl
  · refine Or.inr ⟨List.mem_iff_getElem?.mpr ⟨j, hj⟩, fun huholds => hne ?_⟩
    exact h.unique j i u thread hj hthread huholds hholds

/-- A step that does not take the lock, and leaves it taken. -/
theorem keep (h : Exclusive holds locked threads) (hthread : threads[i]? = some thread)
    (hholds : holds thread' → holds thread) (hlocked : locked → locked') :
    Exclusive holds locked' (threads.set i thread') := by
  have hold : ∀ {j : Nat} {u : Thread}, (threads.set i thread')[j]? = some u → holds u →
      ∃ before, threads[j]? = some before ∧ holds before := by
    intro j u hj hu
    rcases getElem?_set_cases hj with ⟨rfl, rfl⟩ | ⟨-, hj⟩
    · exact ⟨thread, hthread, hholds hu⟩
    · exact ⟨u, hj, hu⟩
  constructor
  · intro j k t u hj hk ht hu
    obtain ⟨_, hj, ht⟩ := hold hj ht
    obtain ⟨_, hk, hu⟩ := hold hk hu
    exact h.unique j k _ _ hj hk ht hu
  · intro u hu huholds
    obtain ⟨j, hj⟩ := List.mem_iff_getElem?.mp hu
    obtain ⟨before, hj, hbefore⟩ := hold hj huholds
    exact hlocked (h.locked before (List.mem_iff_getElem?.mpr ⟨j, hj⟩) hbefore)

/-- A step that takes a free lock. -/
theorem acquire (h : Exclusive holds locked threads) (hfree : ¬ locked) (hlocked : locked') :
    Exclusive holds locked' (threads.set i thread') := by
  have hself : ∀ {j : Nat} {u : Thread}, (threads.set i thread')[j]? = some u → holds u → j = i := by
    intro j u hj hu
    rcases getElem?_set_cases hj with ⟨rfl, -⟩ | ⟨-, hj⟩
    · rfl
    · exact absurd hu (h.not_holds hfree (List.mem_iff_getElem?.mpr ⟨j, hj⟩))
  constructor
  · intro j k t u hj hk ht hu
    rw [hself hj ht, hself hk hu]
  · exact fun _ _ _ => hlocked

/-- A step of the holder that releases the lock. -/
theorem release (h : Exclusive holds locked threads) (hthread : threads[i]? = some thread)
    (hholds : holds thread) (hreleased : ¬ holds thread') :
    Exclusive holds locked' (threads.set i thread') := by
  have hnone : ∀ {j : Nat} {u : Thread}, (threads.set i thread')[j]? = some u → ¬ holds u := by
    intro j u hj hu
    rcases getElem?_set_cases hj with ⟨-, rfl⟩ | ⟨hne, hj⟩
    · exact hreleased hu
    · exact hne (h.unique j i u thread hj hthread hu hholds)
  constructor
  · exact fun j k t u hj _ ht _ => absurd ht (hnone hj)
  · intro u hu huholds
    obtain ⟨j, hj⟩ := List.mem_iff_getElem?.mp hu
    exact absurd huholds (hnone hj)

end Exclusive

end Onadata.Lib
