import Onadata.Apps.Logger.Models.EntityList
import Onadata.Proofs.Libs.Utils.CounterTasks

/-!
# `Onadata.Proofs.Apps.Logger.EntityCount`: an entity list counts its live entities

`CountsEntities` says that `num_entities`, the cached counter and what the waiting tasks add
are the number of live entities of each list. A soft deletion takes the entity out of the
number. `delete` does it again, also for an entity that was soft deleted before.

`countsEntities_run` proves that the number is right after each operation of a run exactly
when no entity is deleted that was soft deleted before.
-/

set_option autoImplicit false

namespace Onadata.Proofs

open Onadata.Lib

/-- The number of entities of each list is right, when the tasks that wait have run. -/
def CountsEntities (s : EntityLists) : Prop :=
  ∀ entityList, s.counter.liveNumber entityList + s.counter.pendingDelta entityList =
    s.liveCount entityList

/-- The condition: an entity that is deleted is live. -/
def DeletesLive (s : EntityLists) : EntityOp → Prop
  | .delete pk => ∀ row, s.entities.get? pk = some row → row.deletedAt = none
  | _ => True

/-- The number is right, and the store and the tasks are ready for a worker. -/
structure EntityLedger (s : EntityLists) : Prop where
  counts : CountsEntities s
  ready : ReadyTasks s.counter

/-- A task that a handler adds, together with what the operation does to the live entities. -/
theorem countsEntities_delay_iff {s s' : EntityLists} {entityList : Nat} (delta : Int)
    (hs : CountsEntities s) (hcounter : s'.counter = s.counter.delay entityList delta) :
    CountsEntities s' ↔ ∀ entityList', (s'.liveCount entityList' : Int) =
      s.liveCount entityList' + if entityList = entityList' then delta else 0 := by
  unfold CountsEntities at hs ⊢
  refine forall_congr' fun entityList' => ?_
  have hlist := hs entityList'
  rw [hcounter, pendingDelta_delay]
  show s.counter.liveNumber entityList' + _ = _ ↔ _
  omega

/-! ### The operations -/

/-- A creation adds an entity and a task. -/
theorem entityLedger_create {s : EntityLists} (hs : EntityLedger s) (entityList : Nat) :
    EntityLedger (s.create { entityList := entityList }) := by
  refine ⟨(countsEntities_delay_iff 1 hs.counts rfl).mpr fun entityList' => ?_, ?_⟩
  · unfold EntityLists.liveCount
    show (((s.entities.create _).count _ : Nat) : Int) = _
    rw [Table.count_create]
    by_cases h : entityList = entityList'
    · simp [h]
    · simp [h]
  · exact readyTasks_delay hs.ready entityList (Or.inl rfl)

/-- Saving an entity as it is stored changes nothing that counts. -/
theorem entityLedger_update {s : EntityLists} (hs : EntityLedger s) {pk : Nat} {row : EntityRow}
    (hrow : s.entities.get? pk = some row) : EntityLedger (s.save pk row) := by
  have hcounter : (s.save pk row).counter = s.counter := by
    show (s.decrOnSoftDelete pk row).counter = _
    unfold EntityLists.decrOnSoftDelete
    by_cases hlive : row.deletedAt = none
    · rw [if_pos hlive]
    · rw [if_neg hlive, hrow]
      show (if row.deletedAt = none then _ else s).counter = _
      rw [if_neg hlive]
  have hentities : (s.save pk row).entities = s.entities.save pk row := by
    show (s.decrOnSoftDelete pk row).entities.save pk row = _
    unfold EntityLists.decrOnSoftDelete
    by_cases hlive : row.deletedAt = none
    · rw [if_pos hlive]
    · rw [if_neg hlive, hrow]
      show (if row.deletedAt = none then _ else s).entities.save pk row = _
      rw [if_neg hlive]
  refine ⟨fun entityList => ?_, hcounter ▸ hs.ready⟩
  have hlist := hs.counts entityList
  have hcount : (s.save pk row).liveCount entityList = s.liveCount entityList := by
    unfold EntityLists.liveCount
    rw [hentities, Table.count_save hrow, Table.count_delete hrow]
  rw [hcounter, hcount]
  exact hlist

/-- A soft deletion of a live entity takes it out of the number. -/
theorem entityLedger_softDelete {s : EntityLists} (hs : EntityLedger s) {pk : Nat}
    {row : EntityRow} (hrow : s.entities.get? pk = some row) (now : Int) :
    EntityLedger (s.softDelete pk row now) := by
  by_cases hlive : row.deletedAt = none
  · have hsaved : s.softDelete pk row now =
        { entities := s.entities.save pk { row with deletedAt := some now }
          counter := s.counter.delay row.entityList (-1) } := by
      unfold EntityLists.softDelete EntityLists.save EntityLists.decrOnSoftDelete
      rw [if_pos hlive, if_neg (by simp), hrow]
      simp [hlive, EntityLists.incrEntityListNumEntities]
    rw [hsaved]
    refine ⟨(countsEntities_delay_iff (-1) hs.counts rfl).mpr fun entityList => ?_, ?_⟩
    · have htotal := Table.count_delete hrow
        fun row => row.entityList = entityList && row.deletedAt.isNone
      unfold EntityLists.liveCount
      rw [Table.count_save hrow]
      by_cases h : row.entityList = entityList
      · simp only [h, hlive, decide_true, Option.isNone_none, Bool.and_self, if_true] at htotal
        simp only [h, Option.isNone_some, Bool.and_false, Bool.false_eq_true, if_false, if_true]
        omega
      · simp only [h, decide_false, Bool.false_and, Bool.false_eq_true, if_false] at htotal
        simp only [h, Option.isNone_some, Bool.and_false, Bool.false_eq_true, if_false]
        omega
    · exact readyTasks_delay hs.ready row.entityList (Or.inr rfl)
  · unfold EntityLists.softDelete
    rw [if_neg hlive]
    exact hs

/-- A deletion keeps the number right exactly when the entity is live. -/
theorem countsEntities_delete_iff {s : EntityLists} (hs : CountsEntities s) {pk : Nat}
    {row : EntityRow} (hrow : s.entities.get? pk = some row) :
    CountsEntities (s.delete pk row) ↔ row.deletedAt = none := by
  have hcount : ∀ entityList, ((s.delete pk row).liveCount entityList : Int) +
      (if row.entityList = entityList ∧ row.deletedAt = none then 1 else 0) =
        s.liveCount entityList := by
    intro entityList
    have htotal := Table.count_delete hrow
      fun row => row.entityList = entityList && row.deletedAt.isNone
    unfold EntityLists.liveCount
    show (((s.entities.delete pk).count _ : Nat) : Int) + _ = _
    rw [← htotal]
    by_cases h : row.entityList = entityList ∧ row.deletedAt = none
    · simp [h]
    · have hnot : (decide (row.entityList = entityList) && row.deletedAt.isNone) = false := by
        rw [Bool.eq_false_iff]
        exact fun htrue => h (by simpa using htrue)
      simp [h, hnot]
  refine (countsEntities_delay_iff (-1) hs rfl).trans ?_
  constructor
  · intro h
    by_contra hlive
    have hown := hcount row.entityList
    have hright := h row.entityList
    simp only [hlive, and_false, if_false, if_true] at hown hright
    omega
  · intro hlive entityList
    have hown := hcount entityList
    simp only [hlive, and_true] at hown
    split at hown
    · rename_i h
      rw [if_pos h]
      omega
    · rename_i h
      rw [if_neg h]
      omega

/-! ### Runs -/

/-- From a right number, an operation leads to a right number exactly under the condition. -/
theorem countsEntities_iff {s s' : EntityLists} {op : EntityOp} (hs : EntityLedger s)
    (hstep : EntityStep s op s') : CountsEntities s' ↔ DeletesLive s op := by
  cases op with
  | create entityList =>
      obtain rfl := hstep
      exact iff_of_true (entityLedger_create hs entityList).counts trivial
  | update pk =>
      obtain ⟨row, hrow, rfl⟩ := hstep
      exact iff_of_true (entityLedger_update hs hrow).counts trivial
  | softDelete pk now =>
      obtain ⟨row, hrow, rfl⟩ := hstep
      exact iff_of_true (entityLedger_softDelete hs hrow now).counts trivial
  | delete pk =>
      obtain ⟨row, hrow, rfl⟩ := hstep
      rw [countsEntities_delete_iff hs.counts hrow, DeletesLive, hrow]
      simp
  | worker op =>
      obtain ⟨hstep, hentities⟩ := hstep
      refine iff_of_true (fun entityList => ?_) trivial
      rw [(ledger_step hs.ready hstep).2 entityList, hs.counts entityList,
        EntityLists.liveCount, EntityLists.liveCount, hentities]

/-- An operation leaves the store and the tasks ready. -/
theorem readyTasks_entityStep {s s' : EntityLists} {op : EntityOp} (hs : EntityLedger s)
    (hstep : EntityStep s op s') : ReadyTasks s'.counter := by
  cases op with
  | create entityList =>
      obtain rfl := hstep
      exact (entityLedger_create hs entityList).ready
  | update pk =>
      obtain ⟨row, hrow, rfl⟩ := hstep
      exact (entityLedger_update hs hrow).ready
  | softDelete pk now =>
      obtain ⟨row, hrow, rfl⟩ := hstep
      exact (entityLedger_softDelete hs hrow now).ready
  | delete pk =>
      obtain ⟨row, hrow, rfl⟩ := hstep
      exact readyTasks_delay hs.ready row.entityList (Or.inr rfl)
  | worker op => exact (ledger_step hs.ready hstep.1).1

/-- In a run, the number of entities is right after each operation exactly when each deleted
entity is live. When no task waits at the end of such a run, `num_entities` and the cached
counter are the number of live entities of each list. -/
theorem countsEntities_run {s s' : EntityLists} {ops : List EntityOp} (hs : EntityLedger s) :
    (Run (Guarded EntityStep fun _ _ s' => CountsEntities s') s ops s' ↔
      Run (Guarded EntityStep fun s op _ => DeletesLive s op) s ops s') ∧
    (Run (Guarded EntityStep fun s op _ => DeletesLive s op) s ops s' →
      s'.counter.tasks = [] →
      ∀ entityList, s'.counter.store.db entityList + s'.counter.store.counter entityList =
        s'.liveCount entityList) := by
  have hkeeps : ∀ (s : EntityLists) (op : EntityOp) (s' : EntityLists), EntityStep s op s' →
      DeletesLive s op → EntityLedger s → EntityLedger s' := fun s op s' hstep hlive hs =>
    ⟨(countsEntities_iff hs hstep).mpr hlive, readyTasks_entityStep hs hstep⟩
  refine ⟨?_, fun hrun htasks entityList => ?_⟩
  · exact Run.guarded_congr EntityLedger hs
      (fun s op s' _ hstep hs => countsEntities_iff hs hstep)
      (fun s op s' _ hstep hlive hs => hkeeps s op s' hstep hlive hs)
  · have hlast := hrun.invariant EntityLedger
      (fun s op s' _ hstep hs => hkeeps s op s' hstep.1 hstep.2 hs) hs
    have hcounts := hlast.counts entityList
    rw [CounterTasks.pendingDelta, htasks] at hcounts
    simpa [CounterTasks.liveNumber] using hcounts

/-- No entities and an empty cache. -/
def noEntities : EntityLists where
  counter := { store := { db := fun _ => 0 } }

/-- An entity is created and its task runs: the cached counter is one. -/
theorem countsEntities_run_created :
    ∃ s', Run EntityStep noEntities [.create 7, .worker (.runTask 0)] s' ∧
      s'.counter.store.db 7 + s'.counter.store.counter 7 = 1 := by
  have hexec : (Pool.exec (counterStep id) (fun _ _ => true)
      ⟨noEntities.counter.store, [.adjust ⟨7, 1⟩ .testLock]⟩ (List.replicate 8 0)).map
        (fun s => s.threads) = some [.adjust ⟨7, 1⟩ .done] := by decide
  obtain ⟨s, hs, hthreads⟩ := Option.map_eq_some_iff.mp hexec
  have hruns := runsAlone_of_exec hs hthreads rfl
  let last : EntityLists :=
    { entities := (noEntities.create { entityList := 7 }).entities
      counter := { store := s.shared } }
  have hrun : Run (Guarded EntityStep fun s op _ => DeletesLive s op) noEntities
      [.create 7, .worker (.runTask 0)] last := by
    have hworker : EntityStep (noEntities.create { entityList := 7 }) (.worker (.runTask 0)) last :=
      ⟨⟨⟨7, 1⟩, rfl, hruns, rfl⟩, rfl⟩
    exact .cons ⟨rfl, trivial⟩ (.cons ⟨hworker, trivial⟩ (.nil last))
  have hledger : EntityLedger noEntities :=
    ⟨fun _ => rfl, ⟨⟨rfl, fun _ h => absurd rfl h⟩, fun _ h => absurd h List.not_mem_nil⟩⟩
  exact ⟨last, hrun.mono fun _ _ _ h => h.1, (countsEntities_run hledger).2 hrun rfl 7⟩

/-- A list with an entity that was soft deleted, and no live one. -/
def purgedLists : EntityLists where
  entities :=
    { rows := [(0, { entityList := 7, deletedAt := some 5 })]
      nextPk := 1
      pk_lt := by decide
      nodup := by decide }
  counter := { store := { db := fun _ => 0 } }

/-- The deletion of an entity that was soft deleted before makes the number negative. -/
theorem not_countsEntities_purged :
    ¬∀ (s : EntityLists) (ops : List EntityOp) (s' : EntityLists), EntityLedger s →
      Run EntityStep s ops s' → s'.counter.tasks = [] →
      ∀ entityList, s'.counter.store.db entityList + s'.counter.store.counter entityList =
        s'.liveCount entityList := by
  intro h
  have hexec : (Pool.exec (counterStep id) (fun _ _ => true)
      ⟨purgedLists.counter.store, [.adjust ⟨7, -1⟩ .testLock]⟩ (List.replicate 3 0)).map
        (fun s => (s.threads, s.shared.db 7 + s.shared.counter 7)) =
          some ([.adjust ⟨7, -1⟩ .done], -1) := by decide
  obtain ⟨s, hs, hvalues⟩ := Option.map_eq_some_iff.mp hexec
  obtain ⟨hthreads, hnumber⟩ := Prod.mk.inj hvalues
  have hruns := runsAlone_of_exec hs hthreads rfl
  let last : EntityLists :=
    { entities := purgedLists.entities.delete 0
      counter := { store := s.shared } }
  have hledger : EntityLedger purgedLists := by
    refine ⟨fun entityList => ?_, ⟨rfl, fun _ h => absurd rfl h⟩, fun _ h => absurd h List.not_mem_nil⟩
    simp [purgedLists, CounterTasks.liveNumber, CounterTasks.pendingDelta, CounterStore.counter,
      EntityLists.liveCount, Table.count]
  have hworker : EntityStep (purgedLists.delete 0 { entityList := 7, deletedAt := some 5 })
      (.worker (.runTask 0)) last := ⟨⟨⟨7, -1⟩, rfl, hruns, rfl⟩, rfl⟩
  have hright := h purgedLists [.delete 0, .worker (.runTask 0)] last hledger
    (.cons ⟨_, rfl, rfl⟩ (.cons hworker (.nil last))) rfl 7
  rw [show last.counter.store.db 7 + last.counter.store.counter 7 = -1 from hnumber,
    show last.liveCount 7 = 0 from rfl] at hright
  exact absurd hright (by decide)

end Onadata.Proofs
