import Onadata.Apps.Logger.ProjectDates

/-!
# `Onadata.Proofs.Apps.Logger.ProjectDates`: which modification times are lost

A recorded time is kept while it, or a later one of the project, is in the cached dict or was
written to the project. The dict is read in one operation and written back in another one, so
that what was put into it in between is lost. The same happens to what comes between the
reading and the deletion of the dict.

`timesKept_run` proves that every recorded time is kept in a run exactly when no step drops
an item of the cached dict. `not_dropsTime_of_sameDict` is the usual reason: the dict is the
one that the call read, and has no later time of the project.
-/

set_option autoImplicit false

namespace Onadata.Proofs

open Onadata.Lib

/-- The time, or a later one of the project, is among the times. -/
def CoveredBy (times : List ProjectTime) (item : ProjectTime) : Prop :=
  ∃ later ∈ times, later.1 = item.1 ∧ item.2 ≤ later.2

instance (times : List ProjectTime) (item : ProjectTime) : Decidable (CoveredBy times item) :=
  inferInstanceAs (Decidable (∃ later ∈ times, _))

/-- The time is in the cached dict or was written, or a later one is. -/
def TimeKept (store : ProjectDateStore) (item : ProjectTime) : Prop :=
  CoveredBy store.projectIds item ∨ CoveredBy store.applied item

/-- The time was recorded: it was in the dict at the start, or its call has returned. -/
def Recorded (start : ProjectDateStore) (s : Pool ProjectDateStore ProjectDateThread)
    (item : ProjectTime) : Prop :=
  item ∈ start.projectIds ∨ .update item .done ∈ s.threads

/-- Every recorded time is kept. -/
def TimesKept (start : ProjectDateStore) (s : Pool ProjectDateStore ProjectDateThread) : Prop :=
  ∀ item, Recorded start s item → TimeKept s.shared item

/-- The step writes or deletes the dict and drops an item of it: neither the new dict nor the
written times have the time or a later one. -/
def DropsTime (s : Pool ProjectDateStore ProjectDateThread) (i : Nat) : Prop :=
  match s.threads[i]? with
  | some (.update recorded (.set projectIds)) =>
      ∃ item ∈ s.shared.projectIds,
        ¬ CoveredBy (Dict.insert projectIds recorded.1 recorded.2) item ∧
          ¬ CoveredBy s.shared.applied item
  | some (.apply .delete) =>
      ∃ item ∈ s.shared.projectIds, ¬ CoveredBy s.shared.applied item
  | _ => False

/-- The invariant: the items of the cached dict, and those that a call has read of it, were
recorded. -/
structure DatesRecorded (start : ProjectDateStore)
    (s : Pool ProjectDateStore ProjectDateThread) : Prop where
  kept : TimesKept start s
  cached : ∀ item ∈ s.shared.projectIds, Recorded start s item
  read : ∀ recorded projectIds, .update recorded (.set projectIds) ∈ s.threads →
    ∀ item ∈ projectIds, Recorded start s item

/-! ### Covered times -/

/-- A time is covered by itself. -/
theorem coveredBy_of_mem {times : List ProjectTime} {item : ProjectTime} (h : item ∈ times) :
    CoveredBy times item :=
  ⟨item, h, rfl, Nat.le_refl _⟩

/-- More times cover as much. -/
theorem CoveredBy.mono {times times' : List ProjectTime} {item : ProjectTime}
    (h : CoveredBy times item) (hsub : times ⊆ times') : CoveredBy times' item := by
  obtain ⟨later, hlater, hcovers⟩ := h
  exact ⟨later, hsub hlater, hcovers⟩

/-- What covers a time that covers another one covers that one. -/
theorem CoveredBy.trans {times times' : List ProjectTime} {item : ProjectTime}
    (h : CoveredBy times item) (hcovers : ∀ later ∈ times, CoveredBy times' later) :
    CoveredBy times' item := by
  obtain ⟨later, hlater, hproject, hle⟩ := h
  obtain ⟨last, hlast, hsame, hle'⟩ := hcovers later hlater
  exact ⟨last, hlast, hsame.trans hproject, Nat.le_trans hle hle'⟩

/-! ### One step -/

section
variable {start : ProjectDateStore} {s s' : Pool ProjectDateStore ProjectDateThread} {i : Nat}

/-- A call that has returned stays so. -/
theorem Recorded.step (hstep : Pool.Step ProjectDateStep s i s') {item : ProjectTime}
    (h : Recorded start s item) : Recorded start s' item := by
  obtain ⟨thread, thread', hthread, hstep, hthreads⟩ := hstep
  rcases h with h | h
  · exact Or.inl h
  · right
    rw [hthreads]
    by_cases hself : ProjectDateThread.update item .done = thread
    · subst hself
      obtain ⟨-, rfl⟩ := Prod.mk.inj hstep
      exact Pool.mem_set_self _ hthread
    · exact Pool.mem_set_of_ne _ hthread h hself

/-- What was recorded after a step was recorded before, or the step wrote it into the dict. -/
theorem recorded_step_cases (hstep : Pool.Step ProjectDateStep s i s') {item : ProjectTime}
    (h : Recorded start s' item) :
    Recorded start s item ∨ ∃ projectIds, s.threads[i]? = some (.update item (.set projectIds)) ∧
      s'.shared.cached = some (Dict.insert projectIds item.1 item.2) := by
  obtain ⟨thread, thread', hthread, hstep, hthreads⟩ := hstep
  rcases h with h | h
  · exact Or.inl (Or.inl h)
  · rw [hthreads] at h
    rcases List.mem_or_eq_of_mem_set h with hold | hnew
    · exact Or.inl (Or.inr hold)
    · obtain ⟨hshared, hthread'⟩ := Prod.mk.inj hstep
      subst hnew
      cases thread with
      | update recorded pc =>
          cases pc with
          | get => cases hthread'
          | set projectIds =>
              cases hthread'
              exact Or.inr ⟨projectIds, hthread, by rw [hshared]⟩
          | done =>
              cases hthread'
              exact Or.inl (Or.inr (List.mem_of_getElem? hthread))
      | apply pc =>
          cases pc <;> cases hthread'

/-- The times that were written stay written. -/
theorem applied_step (hstep : Pool.Step ProjectDateStep s i s') :
    s.shared.applied ⊆ s'.shared.applied := by
  obtain ⟨thread, thread', -, hstep, -⟩ := hstep
  obtain ⟨hshared, -⟩ := Prod.mk.inj hstep
  rw [hshared]
  cases thread with
  | update recorded pc => cases pc <;> exact List.Subset.refl _
  | apply pc =>
      cases pc with
      | update item rest => exact List.subset_append_left _ _
      | _ => exact List.Subset.refl _

/-- The cached dict after a step: a call wrote back what it read with its own time, the task
deleted it, or it is as before. -/
theorem cached_step_cases (hstep : Pool.Step ProjectDateStep s i s') :
    (∃ recorded projectIds, s.threads[i]? = some (.update recorded (.set projectIds)) ∧
      s'.shared.projectIds = Dict.insert projectIds recorded.1 recorded.2 ∧
      .update recorded .done ∈ s'.threads ∧ s'.shared.applied = s.shared.applied) ∨
    (s.threads[i]? = some (.apply .delete) ∧ s'.shared.projectIds = [] ∧
      s'.shared.applied = s.shared.applied) ∨
    (¬ DropsTime s i ∧ s'.shared.projectIds = s.shared.projectIds) := by
  obtain ⟨thread, thread', hthread, hstep, hthreads⟩ := hstep
  obtain ⟨hshared, hthread'⟩ := Prod.mk.inj hstep
  have hids : s'.shared.projectIds = (projectDateStep s.shared thread).1.projectIds :=
    congrArg ProjectDateStore.projectIds hshared
  have happlied : s'.shared.applied = (projectDateStep s.shared thread).1.applied :=
    congrArg ProjectDateStore.applied hshared
  cases thread with
  | update recorded pc =>
      cases pc with
      | set projectIds =>
          refine Or.inl ⟨recorded, projectIds, hthread, hids, ?_, happlied⟩
          rw [hthreads, hthread']
          exact Pool.mem_set_self _ hthread
      | get | done =>
          refine Or.inr (Or.inr ⟨fun h => ?_, hids⟩)
          unfold DropsTime at h
          rw [hthread] at h
          exact h
  | apply pc =>
      cases pc with
      | delete => exact Or.inr (Or.inl ⟨hthread, hids, happlied⟩)
      | get | update item rest | done =>
          refine Or.inr (Or.inr ⟨fun h => ?_, hids⟩)
          unfold DropsTime at h
          rw [hthread] at h
          exact h

/-- What a call has read after a step: it was read before, or it is the cached dict. -/
theorem read_step_cases (hstep : Pool.Step ProjectDateStep s i s') {recorded : ProjectTime}
    {projectIds : List ProjectTime} (h : .update recorded (.set projectIds) ∈ s'.threads) :
    .update recorded (.set projectIds) ∈ s.threads ∨ projectIds = s.shared.projectIds := by
  obtain ⟨thread, thread', hthread, hstep, hthreads⟩ := hstep
  rw [hthreads] at h
  rcases List.mem_or_eq_of_mem_set h with hold | hnew
  · exact Or.inl hold
  · obtain ⟨-, hthread'⟩ := Prod.mk.inj hstep
    subst hnew
    cases thread with
    | update other pc =>
        cases pc <;> cases hthread'
        exact Or.inr rfl
    | apply pc => cases pc <;> cases hthread'

/-- The items that a write puts into the dict. -/
theorem mem_dict_insert {d : List ProjectTime} {key value : Nat} {item : ProjectTime}
    (h : item ∈ Dict.insert d key value) : item = (key, value) ∨ item ∈ d := by
  induction d with
  | nil => exact Or.inl (List.mem_singleton.mp h)
  | cons first d ih =>
      rw [Dict.insert] at h
      split at h
      · exact (List.mem_cons.mp h).imp_right (List.mem_cons_of_mem _)
      · rcases List.mem_cons.mp h with rfl | h
        · exact Or.inr List.mem_cons_self
        · exact (ih h).imp_right (List.mem_cons_of_mem _)

/-- A step keeps every recorded time exactly when it drops no item of the dict. -/
theorem timesKept_step_iff (hs : DatesRecorded start s)
    (hstep : Pool.Step ProjectDateStep s i s') :
    TimesKept start s' ↔ ¬ DropsTime s i := by
  have happlied := applied_step hstep
  constructor
  · -- An item that is dropped was recorded, and is not kept.
    intro hkept hdrops
    rcases cached_step_cases hstep with
      ⟨recorded, projectIds, hthread, hcached, -, hsame⟩ | ⟨hthread, hcached, hsame⟩ | ⟨hnot, -⟩
    · unfold DropsTime at hdrops
      rw [hthread] at hdrops
      obtain ⟨item, hitem, hnew, hold⟩ := hdrops
      rcases hkept item ((hs.cached item hitem).step hstep) with hcovered | hcovered
      · exact hnew (hcached ▸ hcovered)
      · exact hold (hsame ▸ hcovered)
    · unfold DropsTime at hdrops
      rw [hthread] at hdrops
      obtain ⟨item, hitem, hold⟩ := hdrops
      rcases hkept item ((hs.cached item hitem).step hstep) with hcovered | hcovered
      · obtain ⟨later, hlater, -⟩ := hcached ▸ hcovered
        exact absurd hlater List.not_mem_nil
      · exact hold (hsame ▸ hcovered)
    · exact hnot hdrops
  · intro hnot item hrecorded
    rcases recorded_step_cases hstep hrecorded with hbefore | ⟨projectIds, -, hcached⟩
    · rcases hs.kept item hbefore with hcovered | hcovered
      · have hitems : ∀ later ∈ s.shared.projectIds,
            CoveredBy (s'.shared.projectIds ++ s'.shared.applied) later := by
          intro later hlater
          rcases cached_step_cases hstep with
            ⟨recorded, projectIds, hthread, hcached, -, hsame⟩ | ⟨hthread, -, hsame⟩ | ⟨-, hcached⟩
          · unfold DropsTime at hnot
            rw [hthread] at hnot
            push Not at hnot
            by_cases hnew : CoveredBy (Dict.insert projectIds recorded.1 recorded.2) later
            · exact (hcached ▸ hnew).mono (List.subset_append_left _ _)
            · exact (hsame ▸ hnot later hlater hnew).mono (List.subset_append_right _ _)
          · unfold DropsTime at hnot
            rw [hthread] at hnot
            push Not at hnot
            exact (hsame ▸ hnot later hlater).mono (List.subset_append_right _ _)
          · exact (coveredBy_of_mem (hcached ▸ hlater)).mono (List.subset_append_left _ _)
        obtain ⟨later, hlater, hcovers⟩ := hcovered.trans hitems
        rcases List.mem_append.mp hlater with hlater | hlater
        · exact Or.inl ⟨later, hlater, hcovers⟩
        · exact Or.inr ⟨later, hlater, hcovers⟩
      · exact Or.inr (hcovered.mono happlied)
    · left
      unfold ProjectDateStore.projectIds
      rw [hcached]
      exact coveredBy_of_mem (Dict.mem_insert projectIds item.1 item.2)

/-- A step that drops no item keeps the invariant. -/
theorem datesRecorded_step (hs : DatesRecorded start s)
    (hstep : Pool.Step ProjectDateStep s i s') (hnot : ¬ DropsTime s i) :
    DatesRecorded start s' := by
  refine ⟨(timesKept_step_iff hs hstep).mpr hnot, fun item hitem => ?_, ?_⟩
  · rcases cached_step_cases hstep with
      ⟨recorded, projectIds, hthread, hcached, hdone, -⟩ | ⟨-, hcached, -⟩ | ⟨-, hcached⟩
    · rw [hcached] at hitem
      rcases mem_dict_insert hitem with rfl | hread
      · exact Or.inr hdone
      · exact (hs.read recorded projectIds (List.mem_of_getElem? hthread) item hread).step hstep
    · rw [hcached] at hitem
      exact absurd hitem List.not_mem_nil
    · exact (hs.cached item (hcached ▸ hitem)).step hstep
  · intro recorded projectIds hmem item hitem
    rcases read_step_cases hstep hmem with hbefore | rfl
    · exact (hs.read recorded projectIds hbefore item hitem).step hstep
    · exact (hs.cached item hitem).step hstep

/-- A call or a task that finds the dict as it read it drops nothing: the call has no earlier
time than the dict, and the task has written every item of the dict. -/
theorem not_dropsTime_of_sameDict
    (hset : ∀ recorded projectIds, s.threads[i]? = some (.update recorded (.set projectIds)) →
      projectIds = s.shared.projectIds ∧ (Dict.keys projectIds).Nodup ∧
        ∀ time, (recorded.1, time) ∈ projectIds → time ≤ recorded.2)
    (hdelete : s.threads[i]? = some (.apply .delete) →
      s.shared.projectIds ⊆ s.shared.applied) : ¬ DropsTime s i := by
  unfold DropsTime
  split
  · rename_i recorded projectIds hthread
    obtain ⟨hsame, hnodup, hlater⟩ := hset recorded projectIds hthread
    rintro ⟨item, hitem, hnew, -⟩
    rw [← hsame] at hitem
    by_cases hproject : item.1 = recorded.1
    · exact hnew ⟨recorded, Dict.mem_insert _ _ _, hproject.symm,
        hlater item.2 (hproject ▸ hitem)⟩
    · exact hnew (coveredBy_of_mem ((Dict.mem_insert_iff hnodup).mpr (Or.inr ⟨hitem, hproject⟩)))
  · rename_i hthread
    rintro ⟨item, hitem, hnot⟩
    exact hnot (coveredBy_of_mem (hdelete hthread hitem))
  · exact id

end

/-! ### Runs -/

/-- Before the first operation, the recorded times are those of the dict. -/
theorem datesRecorded_start (store : ProjectDateStore) (updates : List ProjectTime)
    (applies : Nat) : DatesRecorded store (startProjectDates store updates applies) := by
  have hstart : ∀ recorded pc,
      .update recorded pc ∈ (startProjectDates store updates applies).threads → pc = .get := by
    intro recorded pc hmem
    simp only [startProjectDates, List.mem_append, List.mem_map, List.mem_replicate] at hmem
    rcases hmem with ⟨update, -, heq⟩ | ⟨-, heq⟩
    · exact ((ProjectDateThread.update.inj heq).2).symm
    · cases heq
  refine ⟨fun item hrecorded => ?_, fun item hitem => Or.inl hitem, ?_⟩
  · rcases hrecorded with h | h
    · exact Or.inl (coveredBy_of_mem h)
    · cases hstart item .done h
  · intro recorded projectIds hmem
    cases hstart recorded _ hmem

/-- The call of each update is there after every run. -/
theorem exists_update_of_run {store : ProjectDateStore} {updates : List ProjectTime}
    {applies : Nat} {schedule : List Nat} {s : Pool ProjectDateStore ProjectDateThread}
    (hrun : Run (Pool.Step ProjectDateStep) (startProjectDates store updates applies) schedule s)
    {update : ProjectTime} (hupdate : update ∈ updates) :
    ∃ pc, .update update pc ∈ s.threads := by
  refine hrun.invariant (fun s => ∃ pc, .update update pc ∈ s.threads) ?_ ?_
  · rintro s i s' - ⟨thread, thread', hthread, hstep, hthreads⟩ ⟨pc, hmem⟩
    by_cases hself : ProjectDateThread.update update pc = thread
    · subst hself
      obtain ⟨-, hthread'⟩ := Prod.mk.inj hstep
      have hnext : ∃ pc', thread' = .update update pc' := by
        cases pc with
        | get => exact ⟨_, hthread'⟩
        | set projectIds => exact ⟨_, hthread'⟩
        | done => exact ⟨_, hthread'⟩
      obtain ⟨pc', rfl⟩ := hnext
      exact ⟨pc', hthreads ▸ Pool.mem_set_self _ hthread⟩
    · exact ⟨pc, hthreads ▸ Pool.mem_set_of_ne _ hthread hmem hself⟩
  · refine ⟨.get, ?_⟩
    simp only [startProjectDates, List.mem_append, List.mem_map]
    exact Or.inl ⟨update, hupdate, rfl⟩

/-- In a run, every recorded time is kept after each step exactly when no step drops an item
of the cached dict. When all calls of such a run have returned, the time of each update is
kept. -/
theorem timesKept_run (store : ProjectDateStore) (updates : List ProjectTime) (applies : Nat)
    (schedule : List Nat) (s : Pool ProjectDateStore ProjectDateThread) :
    (Run (Guarded (Pool.Step ProjectDateStep) fun _ _ s' => TimesKept store s')
        (startProjectDates store updates applies) schedule s ↔
      Run (Guarded (Pool.Step ProjectDateStep) fun s i _ => ¬ DropsTime s i)
        (startProjectDates store updates applies) schedule s) ∧
    (Run (Guarded (Pool.Step ProjectDateStep) fun s i _ => ¬ DropsTime s i)
        (startProjectDates store updates applies) schedule s →
      (∀ thread ∈ s.threads, thread.isFinished = true) →
      ∀ update ∈ updates, TimeKept s.shared update) := by
  have hstart := datesRecorded_start store updates applies
  refine ⟨?_, fun hrun hfinished update hupdate => ?_⟩
  · exact Run.guarded_congr (DatesRecorded store) hstart
      (fun s i s' _ hstep hs => timesKept_step_iff hs hstep)
      (fun s i s' _ hstep hnot hs => datesRecorded_step hs hstep hnot)
  · have hlast := hrun.invariant (DatesRecorded store)
      (fun s i s' _ hstep hs => datesRecorded_step hs hstep.1 hstep.2) hstart
    obtain ⟨pc, hmem⟩ := exists_update_of_run (hrun.mono fun _ _ _ h => h.1) hupdate
    have hdone : pc = .done := of_decide_eq_true (hfinished _ hmem)
    exact hlast.kept update (Or.inr (hdone ▸ hmem))

/-- The steps of a thread are steps. -/
theorem projectDateStep_step (store : ProjectDateStore) (thread : ProjectDateThread) :
    ProjectDateStep store thread (projectDateStep store thread).1
      (projectDateStep store thread).2 :=
  rfl

instance (s : Pool ProjectDateStore ProjectDateThread) (i : Nat) : Decidable (DropsTime s i) := by
  unfold DropsTime
  split <;> infer_instance

/-- An update and the task, one after the other. -/
theorem timesKept_run_sequential :
    ∃ s, Run (Pool.Step ProjectDateStep) (startProjectDates {} [(1, 5)] 1) [0, 0, 1, 1, 1] s ∧
      TimeKept s.shared (1, 5) := by
  have hexec : (Pool.exec projectDateStep (fun s i => !decide (DropsTime s i))
      (startProjectDates {} [(1, 5)] 1) [0, 0, 1, 1, 1]).map (fun s => s.threads) =
        some [.update (1, 5) .done, .apply .done] := by decide
  obtain ⟨s, hs, hthreads⟩ := Option.map_eq_some_iff.mp hexec
  have hrun : Run (Guarded (Pool.Step ProjectDateStep) fun s i _ => ¬ DropsTime s i)
      (startProjectDates {} [(1, 5)] 1) [0, 0, 1, 1, 1] s :=
    Pool.run_of_exec projectDateStep_step (fun _ _ _ hcheck => by simpa using hcheck) hs
  exact ⟨s, hrun.mono fun _ _ _ h => h.1,
    (timesKept_run {} [(1, 5)] 1 _ s).2 hrun (by rw [hthreads]; decide) (1, 5)
      List.mem_cons_self⟩

/-- Two updates read the empty dict before either writes it: the first time is lost. -/
theorem not_timesKept_racing :
    ¬∀ (store : ProjectDateStore) (updates : List ProjectTime) (applies : Nat)
      (schedule : List Nat) (s : Pool ProjectDateStore ProjectDateThread),
      Run (Pool.Step ProjectDateStep) (startProjectDates store updates applies) schedule s →
      (∀ thread ∈ s.threads, thread.isFinished = true) →
      ∀ update ∈ updates, TimeKept s.shared update := by
  intro h
  have hexec : (Pool.exec projectDateStep (fun _ _ => true)
      (startProjectDates {} [(1, 5), (2, 6)] 0) [0, 1, 0, 1]).map (fun s => (s.threads, s.shared)) =
        some ([.update (1, 5) .done, .update (2, 6) .done], { cached := some [(2, 6)] }) := by
    decide
  obtain ⟨s, hs, hvalues⟩ := Option.map_eq_some_iff.mp hexec
  obtain ⟨hthreads, hshared⟩ := Prod.mk.inj hvalues
  have hrun : Run (Guarded (Pool.Step ProjectDateStep) fun _ _ _ => True)
      (startProjectDates {} [(1, 5), (2, 6)] 0) [0, 1, 0, 1] s :=
    Pool.run_of_exec projectDateStep_step (fun _ _ _ _ => trivial) hs
  have hkept := h {} [(1, 5), (2, 6)] 0 [0, 1, 0, 1] s (hrun.mono fun _ _ _ h => h.1)
    (by rw [hthreads]; decide) (1, 5) List.mem_cons_self
  rw [TimeKept, hshared] at hkept
  exact absurd hkept (by decide)

end Onadata.Proofs
