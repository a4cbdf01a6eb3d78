import Onadata.Libs.Utils.ModelTools

/-!
# `Onadata.Proofs.Libs.Utils.CounterLedger`: no counter update is lost

The ledger of a primary key is its database field, its cached counter and what the calls in
progress still owe to them. The module says which steps keep every ledger, and which keep
every cached counter known to the next commit.

* `amount_step_iff`: an operation keeps the ledger exactly when it does not drop a value.
* `accounted_step_iff`: a step keeps the ledger and the tracked ids exactly when it does not
  lose an update.
* `accounted_iff`: a run keeps them exactly when no step of it loses an update.
-/

set_option autoImplicit false

namespace Onadata.Proofs

open Onadata.Lib

/-! ### One operation -/

/-- What an `adjust_counter` call still has to add. -/
def owedBy (delta : Int) : AdjustPc → Int
  | .testLock | .testCounter | .fallbackToDb | .addCounter | .incr | .getCounter | .decr => delta
  | .acquireIds created | .getIds created | .setIds created _ | .releaseIds created
  | .addCreatedAt created => if created then 0 else delta
  | .failover | .done | .raised => 0

/-- What a thread still has to add to the ledger of `pk`. A commit that has written a counter
to the database has to take it out of the cache. -/
def owed (pk : Nat) : CounterThread → Int
  | .adjust call pc => if call.pk = pk then owedBy call.delta pc else 0
  | .commit (.deleteCounter pk' counter _) => if pk' = pk then -counter else 0
  | .commit _ => 0

/-- The database field and the cached counter of `pk`. -/
def amount (store : CounterStore) (pk : Nat) : Int :=
  store.db pk + store.counter pk

/-- The operation drops a value: the commit deletes a counter that has changed since it was
read, or the call finds no counter after it found one before. -/
def DropsValue (store : CounterStore) : CounterThread → Prop
  | .commit (.deleteCounter pk counter _) => store.counter pk ≠ counter
  | .adjust call .incr | .adjust call .getCounter | .adjust call .decr =>
      store.counters call.pk = none
  | _ => False

/-- A call by one, up or down, that increments only if it goes up. -/
def IsUnit : CounterThread → Prop
  | .adjust call pc =>
      (call.delta = 1 ∨ call.delta = -1) ∧ (pc = .addCounter → call.delta = 1)
  | .commit _ => True

@[simp]
theorem counters_setCounter (store : CounterStore) (pk pk' : Nat) (value : Int) :
    (store.setCounter pk value).counters pk' =
      if pk' = pk then some value else store.counters pk' := by
  simp only [CounterStore.setCounter, Function.update_apply]

@[simp]
theorem counters_deleteCounter (store : CounterStore) (pk pk' : Nat) :
    (store.deleteCounter pk).counters pk' = if pk' = pk then none else store.counters pk' := by
  simp only [CounterStore.deleteCounter, Function.update_apply]

@[simp]
theorem amount_adjustNumericField (store : CounterStore) (pk pk' : Nat) (delta : Int) :
    amount (store.adjustNumericField pk delta) pk' =
      amount store pk' + if pk = pk' then delta else 0 := by
  by_cases h : pk = pk'
  · subst h
    simp only [amount, CounterStore.adjustNumericField, CounterStore.counter,
      Function.update_self, if_true]
    omega
  · simp [amount, CounterStore.adjustNumericField, CounterStore.counter, h, Ne.symm h]

@[simp]
theorem amount_setCounter (store : CounterStore) (pk pk' : Nat) (value : Int) :
    amount (store.setCounter pk value) pk' =
      amount store pk' + if pk = pk' then value - store.counter pk else 0 := by
  by_cases h : pk = pk'
  · subst h
    simp only [amount, CounterStore.setCounter, CounterStore.counter, Function.update_self,
      Option.getD_some, if_true]
    omega
  · simp [amount, CounterStore.setCounter, CounterStore.counter, h, Ne.symm h]

@[simp]
theorem amount_deleteCounter (store : CounterStore) (pk pk' : Nat) :
    amount (store.deleteCounter pk) pk' =
      amount store pk' + if pk = pk' then -store.counter pk else 0 := by
  by_cases h : pk = pk'
  · subst h
    simp [amount, CounterStore.deleteCounter, CounterStore.counter]
  · simp [amount, CounterStore.deleteCounter, CounterStore.counter, h, Ne.symm h]

/-- An operation of `adjust_counter` that adds `x` to the ledger keeps it exactly when `x` is
what the call does not owe any more. -/
theorem amount_adjust_iff {call : AdjustCall} {store store' : CounterStore}
    {pc pc' : AdjustPc} (x : Int)
    (hamount : ∀ pk, amount store' pk = amount store pk + if call.pk = pk then x else 0) :
    (∀ pk, amount store' pk + owed pk (.adjust call pc') =
      amount store pk + owed pk (.adjust call pc)) ↔
        x + owedBy call.delta pc' = owedBy call.delta pc := by
  constructor
  · intro h
    have := h call.pk
    rw [hamount, if_pos rfl] at this
    simp only [owed, if_pos] at this
    omega
  · intro h pk
    rw [hamount]
    by_cases hpk : call.pk = pk
    · simp only [owed, if_pos hpk]
      omega
    · simp only [owed, if_neg hpk]
      omega

/-- An operation of `adjust_counter` keeps the ledger exactly when it drops no value. -/
theorem amount_adjustStep_iff (call : AdjustCall) (store : CounterStore) (pc : AdjustPc)
    (hunit : IsUnit (.adjust call pc)) :
    (∀ pk, amount (adjustStep call store pc).1 pk +
        owed pk (.adjust call (adjustStep call store pc).2) =
      amount store pk + owed pk (.adjust call pc)) ↔ ¬ DropsValue store (.adjust call pc) := by
  obtain ⟨hdelta, hadd⟩ := hunit
  have hne : call.delta ≠ 0 := by omega
  cases pc with
  | testLock =>
      rw [amount_adjust_iff 0 (by simp [adjustStep])]
      simp only [adjustStep, DropsValue, not_false_eq_true, iff_true]
      split_ifs <;> simp [owedBy]
  | testCounter =>
      rw [amount_adjust_iff 0 (by simp [adjustStep])]
      simp only [adjustStep, DropsValue, not_false_eq_true, iff_true]
      split <;> simp [owedBy]
  | fallbackToDb =>
      rw [amount_adjust_iff call.delta (by simp [adjustStep])]
      simp [adjustStep, owedBy, DropsValue]
  | addCounter =>
      cases hcounter : store.counters call.pk with
      | none =>
          -- The counter starts at one, which is the delta.
          rw [amount_adjust_iff 1 (by simp [adjustStep, hcounter, CounterStore.counter])]
          simp [adjustStep, hcounter, owedBy, DropsValue, hadd rfl]
      | some value =>
          rw [amount_adjust_iff 0 (by simp [adjustStep, hcounter])]
          simp [adjustStep, hcounter, owedBy, DropsValue]
  | acquireIds created =>
      have hamount : ∀ pk, amount (adjustStep call store (.acquireIds created)).1 pk =
          amount store pk + if call.pk = pk then 0 else 0 := by
        intro pk
        simp only [adjustStep]
        split <;> simp [amount, CounterStore.counter]
      rw [amount_adjust_iff 0 hamount]
      simp only [adjustStep, DropsValue, not_false_eq_true, iff_true]
      split <;> simp [owedBy]
  | getIds created =>
      rw [amount_adjust_iff 0 (by simp [adjustStep])]
      simp [adjustStep, owedBy, DropsValue]
  | setIds created current =>
      rw [amount_adjust_iff 0 (by simp [adjustStep, amount, CounterStore.counter])]
      simp [adjustStep, owedBy, DropsValue]
  | releaseIds created =>
      rw [amount_adjust_iff 0 (by simp [adjustStep, amount, CounterStore.counter])]
      simp [adjustStep, owedBy, DropsValue]
  | addCreatedAt created =>
      rw [amount_adjust_iff 0 (by simp [adjustStep, amount, CounterStore.counter])]
      cases created with
      | false => simp [adjustStep, owedBy, DropsValue]
      | true => simp [adjustStep, owedBy, DropsValue]
  | incr =>
      cases hcounter : store.counters call.pk with
      | none =>
          rw [amount_adjust_iff 0 (by simp [adjustStep, hcounter])]
          simpa [adjustStep, hcounter, owedBy, DropsValue] using hne.symm
      | some value =>
          rw [amount_adjust_iff call.delta
            (by simp [adjustStep, hcounter, CounterStore.counter])]
          simp [adjustStep, hcounter, owedBy, DropsValue]
  | getCounter =>
      rw [amount_adjust_iff 0 (by simp [adjustStep])]
      cases hcounter : store.counters call.pk with
      | none => simpa [adjustStep, hcounter, owedBy, DropsValue] using hne.symm
      | some value => simp [adjustStep, hcounter, owedBy, DropsValue]
  | decr =>
      cases hcounter : store.counters call.pk with
      | none =>
          rw [amount_adjust_iff 0 (by simp [adjustStep, hcounter])]
          simpa [adjustStep, hcounter, owedBy, DropsValue] using hne.symm
      | some value =>
          rw [amount_adjust_iff call.delta
            (by simp [adjustStep, hcounter, CounterStore.counter])]
          simp [adjustStep, hcounter, owedBy, DropsValue]
  | failover =>
      rw [amount_adjust_iff 0 (by simp [adjustStep])]
      simp [adjustStep, owedBy, DropsValue]
  | done =>
      rw [amount_adjust_iff 0 (by simp [adjustStep])]
      simp [adjustStep, owedBy, DropsValue]
  | raised =>
      rw [amount_adjust_iff 0 (by simp [adjustStep])]
      simp [adjustStep, owedBy, DropsValue]

/-- The loop of a commit owes nothing between two ids. -/
@[simp]
theorem owed_loop (pk : Nat) (pks : List Nat) : owed pk (.commit (.loop pks)) = 0 := by
  cases pks with
  | nil => rfl
  | cons pk' pks => rfl

/-- An operation of `commit_cached_counters` keeps the ledger exactly when it drops no
value. -/
theorem amount_commitStep_iff (order : List Nat → List Nat) (store : CounterStore)
    (pc : CommitPc) :
    (∀ pk, amount (commitStep order store pc).1 pk +
        owed pk (.commit (commitStep order store pc).2) =
      amount store pk + owed pk (.commit pc)) ↔ ¬ DropsValue store (.commit pc) := by
  cases pc with
  | addLock =>
      simp only [commitStep, DropsValue, not_false_eq_true, iff_true]
      intro pk
      split <;> simp [owed, amount, CounterStore.counter]
  | getIds =>
      simp only [commitStep, DropsValue, owed_loop, not_false_eq_true, iff_true]
      intro pk
      rfl
  | getCounter pk pks =>
      simp only [commitStep, DropsValue, not_false_eq_true, iff_true]
      intro pk'
      split
      · simp [owed]
      · rename_i hzero
        simp [owed, not_not.mp hzero]
  | adjustField pk counter pks =>
      simp only [commitStep, DropsValue, not_false_eq_true, iff_true]
      intro pk'
      rw [amount_adjustNumericField]
      by_cases hpk : pk = pk'
      · simp only [owed, if_pos hpk]
        omega
      · simp only [owed, if_neg hpk]
        omega
  | deleteCounter pk counter pks =>
      simp only [commitStep, DropsValue, amount_deleteCounter, owed_loop, not_not]
      constructor
      · intro h
        have := h pk
        simp only [owed, if_pos] at this
        omega
      · intro heq pk'
        by_cases hpk : pk = pk'
        · simp only [owed, if_pos hpk]
          omega
        · simp only [owed, if_neg hpk]
          omega
  | deleteIds => simp [commitStep, DropsValue, owed, amount, CounterStore.counter]
  | deleteLock => simp [commitStep, DropsValue, owed, amount, CounterStore.counter]
  | deleteCreatedAt => simp [commitStep, DropsValue, owed, amount, CounterStore.counter]
  | done => simp [commitStep, DropsValue]

/-- An operation keeps the ledger exactly when it drops no value. -/
theorem amount_step_iff {store store' : CounterStore} {thread thread' : CounterThread}
    (hstep : CounterStep store thread store' thread') (hunit : IsUnit thread) :
    (∀ pk, amount store' pk + owed pk thread' = amount store pk + owed pk thread) ↔
      ¬ DropsValue store thread := by
  obtain ⟨order, -, hstep⟩ := hstep
  cases thread with
  | adjust call pc =>
      obtain ⟨rfl, rfl⟩ := Prod.mk.inj hstep
      exact amount_adjustStep_iff call store pc hunit
  | commit pc =>
      obtain ⟨rfl, rfl⟩ := Prod.mk.inj hstep
      exact amount_commitStep_iff order store pc

/-! ### The tracked ids -/

/-- The call will put `pk` into the tracked ids. -/
def WillTrack (pk : Nat) : CounterThread → Prop
  | .adjust call (.acquireIds _) | .adjust call (.getIds _) | .adjust call (.setIds _ _) =>
      call.pk = pk
  | _ => False

/-- The call holds the lock of the tracked ids. -/
def HoldsIds : CounterThread → Prop
  | .adjust _ (.getIds _) | .adjust _ (.setIds _ _) | .adjust _ (.releaseIds _) => True
  | _ => False

/-- The tracked ids that the call has read and will write back. -/
def readIds : CounterThread → Option (List Nat)
  | .adjust _ (.setIds _ current) => some current
  | _ => none

/-- An operation adds a counter only when the call goes on to track it. -/
theorem counters_step {store store' : CounterStore} {thread thread' : CounterThread}
    (hstep : CounterStep store thread store' thread') (pk : Nat)
    (hpresent : store'.counters pk ≠ none) :
    store.counters pk ≠ none ∨ WillTrack pk thread' := by
  obtain ⟨order, -, hstep⟩ := hstep
  cases thread with
  | adjust call pc =>
      obtain ⟨rfl, rfl⟩ := Prod.mk.inj hstep
      cases pc with
      | addCounter =>
          simp only [adjustStep] at hpresent ⊢
          split at hpresent
          · rename_i hnone
            by_cases hpk : pk = call.pk
            · rw [if_pos hnone]
              exact Or.inr hpk.symm
            · exact Or.inl (by simpa [hpk] using hpresent)
          · exact Or.inl hpresent
      | incr | decr =>
          simp only [adjustStep] at hpresent
          split at hpresent
          · rename_i value hvalue
            by_cases hpk : pk = call.pk
            · exact Or.inl (by simp [hpk, hvalue])
            · exact Or.inl (by simpa [hpk] using hpresent)
          · exact Or.inl hpresent
      | acquireIds created =>
          simp only [adjustStep] at hpresent
          split at hpresent <;> exact Or.inl hpresent
      | _ => exact Or.inl hpresent
  | commit pc =>
      obtain ⟨rfl, rfl⟩ := Prod.mk.inj hstep
      cases pc with
      | deleteCounter pk' counter pks =>
          simp only [commitStep, counters_deleteCounter] at hpresent
          split at hpresent
          · exact absurd rfl hpresent
          · exact Or.inl hpresent
      | addLock =>
          simp only [commitStep] at hpresent
          split at hpresent <;> exact Or.inl hpresent
      | _ => exact Or.inl hpresent

/-- An operation leaves the tracked ids, deletes them for a commit, or writes them for an
increment. -/
theorem ids_step {store store' : CounterStore} {thread thread' : CounterThread}
    (hstep : CounterStep store thread store' thread') :
    store'.ids = store.ids ∨ (thread = .commit .deleteIds ∧ store'.ids = []) ∨
      ∃ call created current, thread = .adjust call (.setIds created current) ∧
        store'.ids = addToModifiedIds call.pk current := by
  obtain ⟨order, -, hstep⟩ := hstep
  cases thread with
  | adjust call pc =>
      obtain ⟨rfl, -⟩ := Prod.mk.inj hstep
      cases pc with
      | setIds created current => exact Or.inr (Or.inr ⟨call, created, current, rfl, rfl⟩)
      | addCounter | acquireIds created | incr | decr =>
          refine Or.inl ?_
          simp only [adjustStep]
          split <;> rfl
      | _ => exact Or.inl rfl
  | commit pc =>
      obtain ⟨rfl, -⟩ := Prod.mk.inj hstep
      cases pc with
      | deleteIds => exact Or.inr (Or.inl ⟨rfl, rfl⟩)
      | addLock =>
          refine Or.inl ?_
          simp only [commitStep]
          split <;> rfl
      | _ => exact Or.inl rfl

/-- A call that will track `pk` still will, or it writes the tracked ids now. -/
theorem willTrack_step {store store' : CounterStore} {thread thread' : CounterThread}
    (hstep : CounterStep store thread store' thread') {pk : Nat} (h : WillTrack pk thread) :
    WillTrack pk thread' ∨
      ∃ call created current, thread = .adjust call (.setIds created current) := by
  obtain ⟨order, -, hstep⟩ := hstep
  cases thread with
  | adjust call pc =>
      obtain ⟨-, rfl⟩ := Prod.mk.inj hstep
      cases pc with
      | acquireIds created =>
          refine Or.inl ?_
          simp only [adjustStep]
          split <;> exact h
      | getIds created => exact Or.inl h
      | setIds created current => exact Or.inr ⟨call, created, current, rfl⟩
      | _ => exact h.elim
  | commit pc => exact h.elim

/-- The tracked ids that a call will write back are read in one operation. -/
theorem readIds_step {store store' : CounterStore} {thread thread' : CounterThread}
    (hstep : CounterStep store thread store' thread') {current : List Nat}
    (h : readIds thread' = some current) : current = store'.ids := by
  obtain ⟨order, -, hstep⟩ := hstep
  cases thread with
  | adjust call pc =>
      obtain ⟨rfl, rfl⟩ := Prod.mk.inj hstep
      cases pc with
      | getIds created => exact (Option.some.inj h).symm
      | _ =>
          simp only [adjustStep] at h
          repeat' split at h
          all_goals exact absurd h (by simp [readIds])
  | commit pc =>
      obtain ⟨rfl, rfl⟩ := Prod.mk.inj hstep
      exact absurd h (by simp [readIds])

/-- An operation takes the lock of the tracked ids, releases it, or does neither. -/
theorem holdsIds_step {store store' : CounterStore} {thread thread' : CounterThread}
    (hstep : CounterStep store thread store' thread') :
    (¬ store.trackedIdsLock = true ∧ store'.trackedIdsLock = true) ∨
    (HoldsIds thread ∧ ¬ HoldsIds thread') ∨
    ((HoldsIds thread' → HoldsIds thread) ∧
      (store.trackedIdsLock = true → store'.trackedIdsLock = true)) := by
  obtain ⟨order, -, hstep⟩ := hstep
  cases thread with
  | adjust call pc =>
      obtain ⟨rfl, rfl⟩ := Prod.mk.inj hstep
      cases pc with
      | acquireIds created =>
          simp only [adjustStep]
          split
          · exact Or.inr (Or.inr ⟨id, id⟩)
          · rename_i hfree
            exact Or.inl ⟨hfree, rfl⟩
      | getIds created => exact Or.inr (Or.inr ⟨fun _ => trivial, id⟩)
      | setIds created current => exact Or.inr (Or.inr ⟨fun _ => trivial, id⟩)
      | releaseIds created => exact Or.inr (Or.inl ⟨trivial, id⟩)
      | _ =>
          refine Or.inr (Or.inr ?_)
          simp only [adjustStep]
          repeat' split
          all_goals exact ⟨fun h => h.elim, id⟩
  | commit pc =>
      obtain ⟨rfl, rfl⟩ := Prod.mk.inj hstep
      refine Or.inr (Or.inr ⟨fun h => h.elim, ?_⟩)
      cases pc with
      | addLock =>
          simp only [commitStep]
          split <;> exact id
      | _ => exact id

/-- A call by one stays one. -/
theorem isUnit_step {store store' : CounterStore} {thread thread' : CounterThread}
    (hstep : CounterStep store thread store' thread') (h : IsUnit thread) :
    IsUnit thread' := by
  obtain ⟨order, -, hstep⟩ := hstep
  cases thread with
  | adjust call pc =>
      obtain ⟨-, rfl⟩ := Prod.mk.inj hstep
      refine ⟨h.1, ?_⟩
      cases pc with
      | testLock =>
          simp only [adjustStep]
          rcases h.1 with hdelta | hdelta
          · exact fun _ => hdelta
          · -- A decrement does not reach the increment.
            split_ifs <;> simp_all
      | _ =>
          simp only [adjustStep]
          repeat' split
          all_goals simp
  | commit pc =>
      obtain ⟨-, rfl⟩ := Prod.mk.inj hstep
      trivial

/-! ### Interleavings -/

/-- The step loses an update: its operation drops a value, or a commit deletes the tracked
ids while there is a counter that no call in progress will track. -/
def LosesUpdate (s : Pool CounterStore CounterThread) (i : Nat) : Prop :=
  ∃ thread, s.threads[i]? = some thread ∧
    (DropsValue s.shared thread ∨
      thread = .commit .deleteIds ∧
        ∃ pk, s.shared.counters pk ≠ none ∧ ∀ u ∈ s.threads, ¬ WillTrack pk u)

/-- Every ledger is at its total, and every counter is tracked or will be. -/
structure Accounted (total : Nat → Int) (s : Pool CounterStore CounterThread) : Prop where
  ledger : ∀ pk, amount s.shared pk + (s.threads.map (owed pk)).sum = total pk
  tracked : ∀ pk, s.shared.counters pk ≠ none →
    pk ∈ s.shared.ids ∨ ∃ u ∈ s.threads, WillTrack pk u

/-- The invariant: what is accounted for, and what the lock of the tracked ids protects. -/
structure Interleaved (total : Nat → Int) (s : Pool CounterStore CounterThread) : Prop where
  accounted : Accounted total s
  isUnit : ∀ u ∈ s.threads, IsUnit u
  exclusive : Exclusive HoldsIds (s.shared.trackedIdsLock = true) s.threads
  snapshot : ∀ u ∈ s.threads, ∀ current, readIds u = some current → s.shared.ids ⊆ current

/-- The ids that an increment writes. -/
theorem mem_addToModifiedIds {pk pk' : Nat} {current : List Nat} :
    pk' ∈ addToModifiedIds pk current ↔ pk' = pk ∨ pk' ∈ current := by
  rw [addToModifiedIds]
  split
  · rename_i hmem
    exact ⟨Or.inr, fun h => h.elim (fun heq => heq ▸ hmem) id⟩
  · rw [List.mem_append, List.mem_singleton, or_comm]

/-- A call that was going to track `pk` still is, unless it writes the ids in this step. -/
theorem exists_willTrack_step {s s' : Pool CounterStore CounterThread} {i : Nat}
    {thread thread' : CounterThread} (hthread : s.threads[i]? = some thread)
    (hstep : CounterStep s.shared thread s'.shared thread')
    (hthreads : s'.threads = s.threads.set i thread') {pk : Nat}
    (h : ∃ u ∈ s.threads, WillTrack pk u) :
    (∃ u ∈ s'.threads, WillTrack pk u) ∨
      ∃ call created current, thread = .adjust call (.setIds created current) ∧
        call.pk = pk := by
  obtain ⟨u, hu, hwill⟩ := h
  by_cases heq : u = thread
  · subst heq
    rcases willTrack_step hstep hwill with h | ⟨call, created, current, rfl⟩
    · exact Or.inl ⟨thread', hthreads ▸ Pool.mem_set_self thread' hthread, h⟩
    · exact Or.inr ⟨call, created, current, rfl, hwill⟩
  · exact Or.inl ⟨u, hthreads ▸ Pool.mem_set_of_ne thread' hthread hu heq, hwill⟩

/-- A step keeps the tracking exactly when it does not delete the ids of a counter. -/
theorem tracked_step_iff {total : Nat → Int} {s s' : Pool CounterStore CounterThread}
    {i : Nat} {thread thread' : CounterThread} (hs : Interleaved total s)
    (hthread : s.threads[i]? = some thread)
    (hstep : CounterStep s.shared thread s'.shared thread')
    (hthreads : s'.threads = s.threads.set i thread') :
    (∀ pk, s'.shared.counters pk ≠ none →
      pk ∈ s'.shared.ids ∨ ∃ u ∈ s'.threads, WillTrack pk u) ↔
      ¬ (thread = .commit .deleteIds ∧
        ∃ pk, s.shared.counters pk ≠ none ∧ ∀ u ∈ s.threads, ¬ WillTrack pk u) := by
  constructor
  · rintro htracked ⟨rfl, pk, hpresent, hnone⟩
    obtain ⟨order, -, h⟩ := hstep
    obtain ⟨hshared, rfl⟩ := Prod.mk.inj h
    rw [hshared] at htracked
    rcases htracked pk hpresent with hids | ⟨u, hu, hwill⟩
    · exact absurd hids (by simp [commitStep, CounterStore.ids])
    · rcases List.mem_or_eq_of_mem_set (hthreads ▸ hu) with hold | rfl
      · exact hnone u hold hwill
      · exact hwill
  · intro hkeeps pk hpresent
    have hwritten : ∀ {call created current}, thread = .adjust call (.setIds created current) →
        s'.shared.ids = addToModifiedIds call.pk current := by
      rintro call created current rfl
      obtain ⟨order, -, h⟩ := hstep
      rw [(Prod.mk.inj h).1]
      rfl
    rcases counters_step hstep pk hpresent with hpresent | hwill
    · have hthere : pk ∈ s.shared.ids ∨ ∃ u ∈ s.threads, WillTrack pk u :=
        hs.accounted.tracked pk hpresent
      rcases ids_step hstep with hsame | ⟨hdelete, -⟩ | ⟨call, created, current, heq, hids⟩
      · rcases hthere with hids | hwill
        · exact Or.inl (hsame ▸ hids)
        · rcases exists_willTrack_step hthread hstep hthreads hwill with
            h | ⟨call, created, current, heq, rfl⟩
          · exact Or.inr h
          · exact Or.inl (hwritten heq ▸ mem_addToModifiedIds.mpr (Or.inl rfl))
      · -- The commit deletes the ids: a call will track the counter again.
        have hwill : ∃ u ∈ s.threads, WillTrack pk u := by
          by_contra hnone
          exact hkeeps ⟨hdelete, pk, hpresent, fun u hu hwill => hnone ⟨u, hu, hwill⟩⟩
        rcases exists_willTrack_step hthread hstep hthreads hwill with
          h | ⟨call, created, current, heq, rfl⟩
        · exact Or.inr h
        · exact absurd (hdelete.symm.trans heq) (by simp)
      · rw [hids]
        rcases hthere with hmem | hwill
        · -- What was tracked was read under the lock.
          have hcurrent := hs.snapshot thread (List.mem_of_getElem? hthread) current
            (by rw [heq]; rfl)
          exact Or.inl (mem_addToModifiedIds.mpr (Or.inr (hcurrent hmem)))
        · rcases exists_willTrack_step hthread hstep hthreads hwill with
            h | ⟨call', created', current', heq', rfl⟩
          · exact Or.inr h
          · rw [← hids, hwritten heq']
            exact Or.inl (mem_addToModifiedIds.mpr (Or.inl rfl))
    · exact Or.inr ⟨thread', hthreads ▸ Pool.mem_set_self thread' hthread, hwill⟩

/-- In an interleaved state, a step keeps the ledgers and the tracking exactly when it loses
no update. -/
theorem accounted_step_iff {total : Nat → Int} {s s' : Pool CounterStore CounterThread}
    {i : Nat} (hs : Interleaved total s) (hstep : Pool.Step CounterStep s i s') :
    Accounted total s' ↔ ¬ LosesUpdate s i := by
  obtain ⟨thread, thread', hthread, hstep, hthreads⟩ := hstep
  have hledger : (∀ pk, amount s'.shared pk + (s'.threads.map (owed pk)).sum = total pk) ↔
      ¬ DropsValue s.shared thread := by
    rw [← amount_step_iff hstep (hs.isUnit thread (List.mem_of_getElem? hthread))]
    refine forall_congr' fun pk => ?_
    rw [← hs.accounted.ledger pk, hthreads]
    exact Pool.sum_step (owed pk) hthread _ _
  have htracked := tracked_step_iff hs hthread hstep hthreads
  constructor
  · rintro ⟨hledger', htracked'⟩ ⟨other, hother, hloses⟩
    obtain rfl := Option.some.inj (hother.symm.trans hthread)
    rcases hloses with hdrops | hdeletes
    · exact hledger.mp hledger' hdrops
    · exact htracked.mp htracked' hdeletes
  · intro hkeeps
    refine ⟨hledger.mpr fun hdrops => hkeeps ⟨thread, hthread, Or.inl hdrops⟩, ?_⟩
    exact htracked.mpr fun hdeletes => hkeeps ⟨thread, hthread, Or.inr hdeletes⟩

/-- A call that is about to write the tracked ids holds their lock. -/
theorem holdsIds_of_readIds {u : CounterThread} {current : List Nat}
    (h : readIds u = some current) : HoldsIds u := by
  cases u with
  | adjust call pc =>
      cases pc with
      | setIds created current => trivial
      | _ => exact absurd h (by simp [readIds])
  | commit pc => exact absurd h (by simp [readIds])

/-- A step that loses no update keeps the invariant. -/
theorem interleaved_step {total : Nat → Int} {s s' : Pool CounterStore CounterThread}
    {i : Nat} (hs : Interleaved total s) (hstep : Pool.Step CounterStep s i s')
    (hkeeps : ¬ LosesUpdate s i) : Interleaved total s' := by
  have haccounted := (accounted_step_iff hs hstep).mpr hkeeps
  obtain ⟨thread, thread', hthread, hstep, hthreads⟩ := hstep
  have hmem : thread ∈ s.threads := List.mem_of_getElem? hthread
  refine ⟨haccounted, ?_, ?_, ?_⟩
  · intro u hu
    rcases List.mem_or_eq_of_mem_set (hthreads ▸ hu) with hold | rfl
    · exact hs.isUnit u hold
    · exact isUnit_step hstep (hs.isUnit thread hmem)
  · rw [hthreads]
    rcases holdsIds_step hstep with ⟨hfree, hlocked⟩ | ⟨hholds, hreleased⟩ | ⟨hholds, hlocked⟩
    · exact hs.exclusive.acquire hfree hlocked
    · exact hs.exclusive.release hthread hholds hreleased
    · exact hs.exclusive.keep hthread hholds hlocked
  · intro u hu current hread
    rw [hthreads] at hu
    rcases List.mem_or_eq_of_mem_set hu with hold | rfl
    · rcases ids_step hstep with hsame | ⟨-, hempty⟩ | ⟨call, created, other, rfl, -⟩
      · rw [hsame]
        exact hs.snapshot u hold current hread
      · simp [hempty]
      · -- The call that writes the ids holds their lock, so `u` is the call after that.
        have hholds : HoldsIds (.adjust call (.setIds created other)) := trivial
        rcases hs.exclusive.mem_set_cases hthread hholds hu with rfl | ⟨-, hnot⟩
        · rw [readIds_step hstep hread]
          exact fun _ => id
        · exact absurd (holdsIds_of_readIds hread) hnot
    · rw [readIds_step hstep hread]
      exact fun _ => id

/-! ### Runs -/

/-- What the ledger of `pk` adds up to: what was there and the deltas of the calls. -/
def ledgerTotal (store : CounterStore) (calls : List AdjustCall) (pk : Nat) : Int :=
  amount store pk + (calls.map fun call => if call.pk = pk then call.delta else 0).sum

/-- Every counter is at its total, and the next commit finds every counter. -/
def NoUpdateLost (total : Nat → Int) (store : CounterStore) : Prop :=
  (∀ pk, store.db pk + store.counter pk = total pk) ∧
    ∀ pk, store.counter pk ≠ 0 → pk ∈ store.ids

/-- Calls by one, before their first operation, are interleaved. -/
theorem interleaved_startCalls (store : CounterStore) (calls : List AdjustCall)
    (commits : Nat) (hcalls : ∀ call ∈ calls, call.delta = 1 ∨ call.delta = -1)
    (htracked : ∀ pk, store.counters pk ≠ none → pk ∈ store.ids) :
    Interleaved (ledgerTotal store calls) (startCalls store calls commits) := by
  have hstart : ∀ u ∈ (startCalls store calls commits).threads,
      (∃ call ∈ calls, u = .adjust call .testLock) ∨ u = .commit .addLock := by
    intro u hu
    simp only [startCalls, List.mem_append, List.mem_map, List.mem_replicate] at hu
    rcases hu with ⟨call, hcall, rfl⟩ | ⟨-, rfl⟩
    · exact Or.inl ⟨call, hcall, rfl⟩
    · exact Or.inr rfl
  have hnone : ∀ u ∈ (startCalls store calls commits).threads,
      ¬ HoldsIds u ∧ readIds u = none := by
    intro u hu
    rcases hstart u hu with ⟨call, -, rfl⟩ | rfl
    · exact ⟨id, rfl⟩
    · exact ⟨id, rfl⟩
  refine ⟨⟨?_, fun pk hpresent => Or.inl (htracked pk hpresent)⟩, ?_, ⟨?_, ?_⟩, ?_⟩
  · intro pk
    rw [ledgerTotal, startCalls, List.map_append, List.map_map, List.sum_append,
      List.map_replicate]
    simp [owed, owedBy, Function.comp_def]
  · intro u hu
    rcases hstart u hu with ⟨call, hcall, rfl⟩ | rfl
    · exact ⟨hcalls call hcall, nofun⟩
    · trivial
  · exact fun i j t u ht _ hholds _ => absurd hholds (hnone t (List.mem_of_getElem? ht)).1
  · exact fun t ht hholds => absurd hholds (hnone t ht).1
  · intro u hu current hread
    rw [(hnone u hu).2] at hread
    exact absurd hread (by simp)

/-- When every call has finished, what is accounted for is in the store. -/
theorem noUpdateLost_of_finished {total : Nat → Int} {s : Pool CounterStore CounterThread}
    (hs : Accounted total s) (hfinished : ∀ u ∈ s.threads, u.isFinished = true) :
    NoUpdateLost total s.shared := by
  have howed : ∀ pk, ∀ u ∈ s.threads, owed pk u = 0 ∧ ¬ WillTrack pk u := by
    intro pk u hu
    have := hfinished u hu
    cases u with
    | adjust call pc =>
        rcases (by simpa [CounterThread.isFinished] using this : pc = .done ∨ pc = .raised)
          with rfl | rfl
        · exact ⟨by simp [owed, owedBy], id⟩
        · exact ⟨by simp [owed, owedBy], id⟩
    | commit pc =>
        obtain rfl : pc = .done := by simpa [CounterThread.isFinished] using this
        exact ⟨rfl, id⟩
  constructor
  · intro pk
    have hzero : (s.threads.map (owed pk)).sum = 0 :=
      List.sum_eq_zero fun x hx => by
        obtain ⟨u, hu, rfl⟩ := List.mem_map.mp hx
        exact (howed pk u hu).1
    have := hs.ledger pk
    rw [hzero, add_zero] at this
    exact this
  · intro pk hcounter
    have hpresent : s.shared.counters pk ≠ none := fun hnone =>
      hcounter (by rw [CounterStore.counter, hnone]; rfl)
    rcases hs.tracked pk hpresent with hids | ⟨u, hu, hwill⟩
    · exact hids
    · exact absurd hwill (howed pk u hu).2

/-- In a run, everything stays accounted for at each step exactly when no step loses an
update. -/
theorem accounted_iff (store : CounterStore) (calls : List AdjustCall) (commits : Nat)
    (hcalls : ∀ call ∈ calls, call.delta = 1 ∨ call.delta = -1)
    (htracked : ∀ pk, store.counters pk ≠ none → pk ∈ store.ids) (schedule : List Nat)
    (s : Pool CounterStore CounterThread) :
    Run (Guarded (Pool.Step CounterStep) fun _ _ s' =>
        Accounted (ledgerTotal store calls) s') (startCalls store calls commits) schedule s ↔
      Run (Guarded (Pool.Step CounterStep) fun s i _ => ¬ LosesUpdate s i)
        (startCalls store calls commits) schedule s := by
  refine Run.guarded_congr (Interleaved (ledgerTotal store calls))
    (interleaved_startCalls store calls commits hcalls htracked) ?_ ?_
  · exact fun s i s' _ hstep hs => accounted_step_iff hs hstep
  · exact fun s i s' _ hstep hkeeps hs => interleaved_step hs hstep hkeeps

end Onadata.Proofs
