import Onadata.Libs.Utils.CounterCalls
import Onadata.Proofs.Libs.Utils.CounterLedger

/-!
# `Onadata.Proofs.Libs.Utils.CounterCalls`: what a counter call leaves

The ledger of a primary key is its database field and its cached counter (`amount`).

* `commitCachedCounters_returns` and `commitCachedCounters_fails`: a commit keeps every ledger,
  with one exception: if the deletion of a counter is lost, the counter is counted twice.
* `failover_returns` and `failover_fails`: the same for the end of `adjust_counter`.
* `increment_first`, `increment_again` and `decrement_returns`: what the part before it adds to
  the ledger.
-/

set_option autoImplicit false

namespace Onadata.Proofs

open Onadata.Lib Onadata.Lib.Faulty Onadata.CounterAction

section
variable {fault : Option (Fault CacheOperation)} {cache cache' : CounterCache}

/-! ### Operations -/

theorem cacheOperation_seq {A B : Type} {op : CacheOperation}
    {f : CounterCache → A × CounterCache} {g : A → CounterAction B} (h : ¬ Hits fault op) :
    (cacheOperation op f >>= g) fault cache = g (f cache).1 fault (f cache).2 :=
  operation_seq_of_not_hits h

theorem cacheOperation_seq_hits {A B : Type} {op : CacheOperation} {applied : Bool}
    {f : CounterCache → A × CounterCache} {g : A → CounterAction B} :
    (cacheOperation op f >>= g) (some ⟨op, applied⟩) cache =
      .error .connectionError (if applied then (f cache).2 else cache) :=
  operation_seq_of_hits

theorem cacheRead_seq {A B : Type} {op : CacheOperation} {f : CounterCache → A}
    {g : A → CounterAction B} (h : ¬ Hits fault op) :
    (cacheRead op f >>= g) fault cache = g (f cache) fault cache :=
  operation_seq_of_not_hits h

theorem cacheRead_seq_hits {A B : Type} {op : CacheOperation} {applied : Bool}
    {f : CounterCache → A} {g : A → CounterAction B} :
    (cacheRead op f >>= g) (some ⟨op, applied⟩) cache = .error .connectionError cache := by
  rw [cacheRead, cacheOperation_seq_hits, ite_self]

theorem cacheUpdate_run {op : CacheOperation} {f : CounterCache → CounterCache}
    (h : ¬ Hits fault op) : cacheUpdate op f fault cache = .ok () (f cache) := by
  unfold cacheUpdate cacheOperation
  exact operation_of_not_hits h

theorem cacheUpdate_hits {op : CacheOperation} {applied : Bool}
    {f : CounterCache → CounterCache} :
    cacheUpdate op f (some ⟨op, applied⟩) cache =
      .error .connectionError (if applied then f cache else cache) := by
  unfold cacheUpdate cacheOperation
  exact operation_of_hits

/-- A fault that hits is one of its two kinds. -/
theorem hits_iff {op : CacheOperation} :
    Hits fault op ↔ ∃ applied, fault = some ⟨op, applied⟩ := by
  constructor
  · rintro ⟨⟨op', applied⟩, hfault, rfl⟩
    exact ⟨applied, hfault⟩
  · rintro ⟨applied, rfl⟩
    exact hits_some.mpr rfl

/-! ### The commit -/

/-- One round of the commit. -/
def commitOne (cache : CounterCache) (pk : Nat) : CounterCache :=
  (cache.adjustField pk (cache.counter pk)).deleteCounter pk

@[simp]
theorem amount_commitOne (pk pk' : Nat) :
    amount (commitOne cache pk).toCounterStore pk' = amount cache.toCounterStore pk' := by
  show amount (((cache.adjustNumericField pk (cache.counter pk))).deleteCounter pk) pk' = _
  rw [amount_deleteCounter, amount_adjustNumericField]
  by_cases h : pk = pk'
  · simp only [if_pos h]
    show _ + cache.counter pk + -cache.counter pk = _
    omega
  · simp [if_neg h]

theorem counters_commitOne (pk pk' : Nat) :
    (commitOne cache pk).counters pk' = if pk' = pk then none else cache.counters pk' :=
  counters_deleteCounter _ pk pk'

/-- The rounds of a commit keep every ledger. -/
@[simp]
theorem amount_commitAll (cache : CounterCache) (pks : List Nat) (pk : Nat) :
    amount (pks.foldl commitOne cache).toCounterStore pk = amount cache.toCounterStore pk := by
  induction pks generalizing cache with
  | nil => rfl
  | cons first pks ih => rw [List.foldl_cons, ih, amount_commitOne]

/-- The rounds of a commit take the counters out of the cache. -/
theorem counters_commitAll (pks : List Nat) (pk : Nat) :
    (pks.foldl commitOne cache).counters pk =
      if pk ∈ pks then none else cache.counters pk := by
  induction pks generalizing cache with
  | nil => rfl
  | cons first pks ih =>
      rw [List.foldl_cons, ih, counters_commitOne]
      by_cases hrest : pk ∈ pks
      · rw [if_pos hrest, if_pos (List.mem_cons_of_mem _ hrest)]
      · rw [if_neg hrest]
        simp only [List.mem_cons, hrest, or_false]

/-- The rounds of a commit touch nothing else. -/
theorem commitAll_eq (pks : List Nat) :
    pks.foldl commitOne cache =
      { cache with
        db := (pks.foldl commitOne cache).db
        counters := (pks.foldl commitOne cache).counters } := by
  induction pks generalizing cache with
  | nil => rfl
  | cons first pks ih =>
      rw [List.foldl_cons, ih]
      rfl

/-- Nothing to adjust by zero. -/
theorem adjustField_zero (pk : Nat) : cache.adjustField pk 0 = cache := by
  show { cache with db := Function.update cache.db pk (cache.db pk + 0) } = cache
  rw [Int.add_zero, Function.update_eq_self]

/-- The first two operations of a round. -/
theorem commitEach_cons {pk : Nat} {pks : List Nat} (h : ¬ Hits fault (.getTrackedCounter pk)) :
    commitEach (pk :: pks) fault cache =
      (cacheUpdate (.deleteCounter pk) (fun cache => cache.deleteCounter pk) >>= fun _ =>
        commitEach pks) fault (cache.adjustField pk (cache.counter pk)) := by
  rw [commitEach, cacheRead_seq h]
  by_cases hzero : cache.counter pk = 0
  · rw [if_neg (by simpa using hzero), hzero, adjustField_zero]
  · rw [if_pos hzero]
    rfl

/-- The loop of the commit without a fault in it. -/
theorem commitEach_returns {pks : List Nat}
    (h : ∀ pk ∈ pks, ¬ Hits fault (.getTrackedCounter pk) ∧ ¬ Hits fault (.deleteCounter pk)) :
    commitEach pks fault cache = .ok () (pks.foldl commitOne cache) := by
  induction pks generalizing cache with
  | nil => rfl
  | cons pk pks ih =>
      obtain ⟨hget, hdelete⟩ := h pk List.mem_cons_self
      rw [commitEach_cons hget, seq_of_ok (cacheUpdate_run hdelete)]
      exact ih fun pk' hpk' => h pk' (List.mem_cons_of_mem _ hpk')

/-- What is counted twice: a counter that is in the database, and whose deletion is lost. -/
def countedTwice (fault : Option (Fault CacheOperation)) (cache : CounterCache) (pk : Nat) : Int :=
  if fault = some ⟨.deleteCounter pk, false⟩ then cache.counter pk else 0

/-- The loop of the commit with a fault in it. -/
theorem commitEach_fails {pks : List Nat} (cache : CounterCache)
    (h : ∃ pk ∈ pks, Hits fault (.getTrackedCounter pk) ∨ Hits fault (.deleteCounter pk)) :
    ∃ cache', commitEach pks fault cache = .error .connectionError cache' ∧
      cache'.ids = cache.ids ∧ (∀ pk ∉ pks, cache'.counters pk = cache.counters pk) ∧
      ∀ pk, amount cache'.toCounterStore pk =
        amount cache.toCounterStore pk + countedTwice fault cache pk := by
  induction pks generalizing cache with
  | nil => exact absurd h (by simp)
  | cons first pks ih =>
      by_cases hget : Hits fault (.getTrackedCounter first)
      · -- The counter is not read: nothing has changed.
        obtain ⟨applied, rfl⟩ := hits_iff.mp hget
        refine ⟨cache, cacheRead_seq_hits, rfl, fun _ _ => rfl, fun pk => ?_⟩
        simp [countedTwice]
      rw [commitEach_cons hget]
      by_cases hdelete : Hits fault (.deleteCounter first)
      · obtain ⟨applied, rfl⟩ := hits_iff.mp hdelete
        rw [seq_of_error cacheUpdate_hits]
        refine ⟨_, rfl, by cases applied <;> rfl, fun pk hpk => ?_, fun pk => ?_⟩
        · have hne : pk ≠ first := List.ne_of_not_mem_cons hpk
          cases applied with
          | false => rfl
          | true => exact (counters_deleteCounter _ first pk).trans (if_neg hne)
        · cases applied with
          | false =>
              show amount (cache.adjustNumericField first (cache.counter first)) pk = _
              rw [amount_adjustNumericField, countedTwice]
              by_cases hpk : first = pk
              · simp [hpk]
              · simp [hpk]
          | true =>
              show amount (commitOne cache first).toCounterStore pk = _
              simp [countedTwice]
      · -- The round is done, and the fault is in a later one.
        rw [seq_of_ok (cacheUpdate_run hdelete)]
        have hlater : ∃ pk ∈ pks, Hits fault (.getTrackedCounter pk) ∨
            Hits fault (.deleteCounter pk) := by
          obtain ⟨pk, hpk, hhits⟩ := h
          rcases List.mem_cons.mp hpk with rfl | hpk
          · exact absurd hhits (not_or.mpr ⟨hget, hdelete⟩)
          · exact ⟨pk, hpk, hhits⟩
        obtain ⟨cache', hrun, hids, hcounters, hamount⟩ := ih (commitOne cache first) hlater
        refine ⟨cache', hrun, hids, fun pk hpk => ?_, fun pk => ?_⟩
        · rw [hcounters pk fun hmem => hpk (List.mem_cons_of_mem _ hmem), counters_commitOne,
            if_neg (List.ne_of_not_mem_cons hpk)]
        · rw [hamount, amount_commitOne, countedTwice, countedTwice]
          split
          · rename_i hfault
            have hne : pk ≠ first := by
              rintro rfl
              exact hdelete (hits_iff.mpr ⟨false, hfault⟩)
            show _ + ((commitOne cache first).counters pk).getD 0 = _
            rw [counters_commitOne, if_neg hne]
            rfl
          · rfl

/-- The cache operations of a commit. -/
def InCommit (ids : List Nat) : CacheOperation → Prop
  | .addLock | .getTrackedIds | .deleteTrackedIds | .deleteLock | .deleteCreatedAt => True
  | .getTrackedCounter pk | .deleteCounter pk => pk ∈ ids
  | _ => False

/-- From `cache` to `cache'`: the ledgers have changed by `extra`, and the only ids that are no
longer tracked are those whose counter is gone. -/
structure LedgerSettled (cache cache' : CounterCache) (extra : Nat → Int) : Prop where
  ledger : ∀ pk, amount cache'.toCounterStore pk = amount cache.toCounterStore pk + extra pk
  tracked : ∀ pk ∈ cache.ids, cache'.counters pk ≠ none → pk ∈ cache'.ids
  untracked : ∀ pk ∉ cache.ids, cache'.counters pk = cache.counters pk
  ids : cache'.ids ⊆ cache.ids

/-- Nothing that counts has changed. -/
theorem LedgerSettled.refl_of {extra : Nat → Int} (hdb : cache'.db = cache.db)
    (hcounters : cache'.counters = cache.counters) (hids : cache'.trackedIds = cache.trackedIds)
    (hextra : ∀ pk, extra pk = 0) : LedgerSettled cache cache' extra := by
  have hsame : cache'.ids = cache.ids := by
    simp only [CounterStore.ids, hids]
  refine ⟨fun pk => ?_, fun pk hpk _ => hsame ▸ hpk, fun pk _ => by rw [hcounters], ?_⟩
  · rw [hextra, Int.add_zero]
    simp only [amount, CounterStore.counter, hdb, hcounters]
  · rw [hsame]
    exact fun _ => id

/-- What is left after the rounds of a commit. -/
theorem settled_commitAll {pks : List Nat} {extra : Nat → Int}
    (hdb : cache'.db = (pks.foldl commitOne cache).db)
    (hcounters : cache'.counters = (pks.foldl commitOne cache).counters)
    (hpks : ∀ pk, pk ∈ pks ↔ pk ∈ cache.ids) (hids : cache'.ids ⊆ cache.ids)
    (hextra : ∀ pk, extra pk = 0) : LedgerSettled cache cache' extra := by
  refine ⟨fun pk => ?_, fun pk hpk hpresent => ?_, fun pk hpk => ?_, hids⟩
  · rw [hextra, Int.add_zero, ← amount_commitAll cache pks pk]
    simp only [amount, CounterStore.counter, hdb, hcounters]
  · -- The counters of the tracked ids are gone.
    rw [hcounters, counters_commitAll, if_pos ((hpks pk).mpr hpk)] at hpresent
    exact absurd rfl hpresent
  · rw [hcounters, counters_commitAll, if_neg fun h => hpk ((hpks pk).mp h)]

/-- The operations of a commit before its loop. -/
theorem commitCachedCounters_start {context : CallContext} (hlock : cache.lock = false)
    (hadd : ¬ Hits fault .addLock) (hget : ¬ Hits fault .getTrackedIds) :
    commitCachedCounters context fault cache =
      (commitEach (context.order cache.ids) >>= fun _ =>
        (cacheUpdate .deleteTrackedIds fun cache => { cache with trackedIds := none }) >>= fun _ =>
          (cacheUpdate .deleteLock fun cache => { cache with lock := false }) >>= fun _ =>
            cacheUpdate .deleteCreatedAt fun cache => { cache with createdAt := false })
        fault { cache with lock := true } := by
  rw [commitCachedCounters, cacheOperation_seq hadd, hlock, if_pos (by rfl), cacheRead_seq hget]
  rfl

/-- The same from a store with the lock. -/
theorem LedgerSettled.of_locked {extra : Nat → Int}
    (h : LedgerSettled { cache with lock := true } cache' extra) :
    LedgerSettled cache cache' extra :=
  ⟨h.ledger, h.tracked, h.untracked, h.ids⟩

/-- A commit without a fault in it keeps every ledger, and releases its lock. -/
theorem commitCachedCounters_returns (context : CallContext)
    (fault : Option (Fault CacheOperation)) (hlock : cache.lock = false)
    (h : ∀ f ∈ fault, ¬ InCommit cache.ids f.operation) :
    ∃ cache', commitCachedCounters context fault cache = .ok () cache' ∧
      LedgerSettled cache cache' (fun _ => 0) ∧ cache'.lock = false ∧
      cache'.trackedIdsLock = cache.trackedIdsLock ∧
      cache'.failoverReport = cache.failoverReport := by
  have hnot : ∀ op, InCommit cache.ids op → ¬ Hits fault op := by
    rintro op hop ⟨f, hf, rfl⟩
    exact h f hf hop
  have hmem : ∀ pk, pk ∈ context.order cache.ids ↔ pk ∈ cache.ids := fun pk =>
    (context.order_perm cache.ids).mem_iff
  have hloop : ∀ pk ∈ context.order cache.ids,
      ¬ Hits fault (.getTrackedCounter pk) ∧ ¬ Hits fault (.deleteCounter pk) := by
    intro pk hpk
    have hpk : pk ∈ cache.ids := (hmem pk).mp hpk
    exact ⟨hnot (.getTrackedCounter pk) hpk, hnot (.deleteCounter pk) hpk⟩
  rw [commitCachedCounters_start hlock (hnot .addLock trivial) (hnot .getTrackedIds trivial),
    seq_of_ok (commitEach_returns hloop),
    seq_of_ok (cacheUpdate_run (hnot .deleteTrackedIds trivial)),
    seq_of_ok (cacheUpdate_run (hnot .deleteLock trivial)),
    cacheUpdate_run (hnot .deleteCreatedAt trivial)]
  refine ⟨_, rfl, LedgerSettled.of_locked ?_, rfl, ?_, ?_⟩
  · exact settled_commitAll rfl rfl hmem (List.nil_subset _) fun _ => rfl
  · rw [commitAll_eq]
  · rw [commitAll_eq]

/-- A commit with a fault in it keeps every ledger but one whose deletion is lost. -/
theorem commitCachedCounters_fails (context : CallContext) (hlock : cache.lock = false)
    (h : ∃ f ∈ fault, InCommit cache.ids f.operation) :
    ∃ cache', commitCachedCounters context fault cache = .error .connectionError cache' ∧
      LedgerSettled cache cache' (countedTwice fault cache) := by
  obtain ⟨⟨op, applied⟩, rfl, hop⟩ := h
  have hmem : ∀ pk, pk ∈ context.order cache.ids ↔ pk ∈ cache.ids := fun pk =>
    (context.order_perm cache.ids).mem_iff
  have hloop : (∀ pk, op ≠ .getTrackedCounter pk ∧ op ≠ .deleteCounter pk) →
      commitEach (context.order cache.ids) (some ⟨op, applied⟩) { cache with lock := true } =
        .ok () ((context.order cache.ids).foldl commitOne { cache with lock := true }) := by
    intro hne
    refine commitEach_returns fun pk _ => ?_
    rw [hits_some, hits_some]
    exact hne pk
  have hfails : (∃ pk ∈ cache.ids, op = .getTrackedCounter pk ∨ op = .deleteCounter pk) →
      ∃ cache', commitCachedCounters context (some ⟨op, applied⟩) cache =
          .error .connectionError cache' ∧
        LedgerSettled cache cache' (countedTwice (some ⟨op, applied⟩) cache) := by
    rintro ⟨pk, hpk, hpkop⟩
    obtain ⟨cache', hrun, hids, hcounters, hamount⟩ :=
      commitEach_fails { cache with lock := true }
        ⟨pk, (hmem pk).mpr hpk, (by rwa [hits_some, hits_some] :
          Hits (some ⟨op, applied⟩) _ ∨ Hits (some ⟨op, applied⟩) _)⟩
    have hstart : op ≠ .addLock ∧ op ≠ .getTrackedIds := by
      rcases hpkop with rfl | rfl <;> simp
    rw [commitCachedCounters_start hlock (by simpa using hstart.1) (by simpa using hstart.2),
      seq_of_error hrun]
    refine ⟨cache', rfl,
      LedgerSettled.of_locked ⟨hamount, fun pk hpk _ => ?_, fun pk hpk => ?_, ?_⟩⟩
    · exact hids ▸ hpk
    · exact hcounters pk fun h => hpk ((hmem pk).mp h)
    · exact hids ▸ List.Subset.refl _
  cases op with
  | getTrackedCounter pk => exact hfails ⟨pk, hop, .inl rfl⟩
  | deleteCounter pk => exact hfails ⟨pk, hop, .inr rfl⟩
  | addLock =>
      rw [commitCachedCounters, cacheOperation_seq_hits]
      refine ⟨_, rfl, ?_⟩
      cases applied with
      | false => exact .refl_of rfl rfl rfl fun _ => by simp [countedTwice]
      | true => exact .refl_of rfl rfl rfl fun _ => by simp [countedTwice]
  | getTrackedIds =>
      rw [commitCachedCounters, cacheOperation_seq (by simp), hlock, if_pos (by rfl),
        cacheRead_seq_hits]
      exact ⟨_, rfl, .refl_of rfl rfl rfl fun _ => by simp [countedTwice]⟩
  | deleteTrackedIds =>
      rw [commitCachedCounters_start hlock (by simp) (by simp),
        seq_of_ok (hloop fun pk => by simp), seq_of_error cacheUpdate_hits]
      refine ⟨_, rfl, LedgerSettled.of_locked ?_⟩
      cases applied with
      | false =>
          refine settled_commitAll rfl rfl hmem ?_ fun _ => by simp [countedTwice]
          simp only [Bool.false_eq_true, if_false]
          rw [commitAll_eq]
          exact fun _ => id
      | true =>
          exact settled_commitAll rfl rfl hmem (List.nil_subset _)
            fun _ => by simp [countedTwice]
  | deleteLock =>
      rw [commitCachedCounters_start hlock (by simp) (by simp),
        seq_of_ok (hloop fun pk => by simp), seq_of_ok (cacheUpdate_run (by simp)),
        seq_of_error cacheUpdate_hits]
      refine ⟨_, rfl, LedgerSettled.of_locked ?_⟩
      cases applied with
      | false =>
          exact settled_commitAll rfl rfl hmem (List.nil_subset _)
            fun _ => by simp [countedTwice]
      | true =>
          exact settled_commitAll rfl rfl hmem (List.nil_subset _)
            fun _ => by simp [countedTwice]
  | deleteCreatedAt =>
      rw [commitCachedCounters_start hlock (by simp) (by simp),
        seq_of_ok (hloop fun pk => by simp), seq_of_ok (cacheUpdate_run (by simp)),
        seq_of_ok (cacheUpdate_run (by simp)), cacheUpdate_hits]
      refine ⟨_, rfl, LedgerSettled.of_locked ?_⟩
      cases applied with
      | false =>
          exact settled_commitAll rfl rfl hmem (List.nil_subset _)
            fun _ => by simp [countedTwice]
      | true =>
          exact settled_commitAll rfl rfl hmem (List.nil_subset _)
            fun _ => by simp [countedTwice]
  | _ => exact hop.elim

/-! ### The failover -/

/-- The failover makes a commit, with this time in `created_at_key`. -/
def FailoverDue (context : CallContext) (createdAt : Option Int) : Prop :=
  ∃ time ∈ createdAt, context.failoverTimeout < context.later - time

/-- The cache operations of the failover, with what it finds in the cache. -/
def InFailover (context : CallContext) (createdAt : Option Int) (ids : List Nat)
    (report : Bool) (op : CacheOperation) : Prop :=
  op = .getCreatedAt ∨
    FailoverDue context createdAt ∧
      (InCommit ids op ∨ op = .getReport ∨ op = .setReport ∧ report = false)

/-- What the code tests is whether a commit is due. -/
theorem failoverDue_iff {context : CallContext} {createdAt : Option Int} :
    createdAt.any (fun time => context.failoverTimeout < context.later - time) = true ↔
      FailoverDue context createdAt := by
  cases createdAt with
  | none => simp [FailoverDue]
  | some time => simp [FailoverDue]

/-- After what has changed nothing that counts. -/
theorem LedgerSettled.trans_refl {mid : CounterCache} {extra : Nat → Int}
    (h : LedgerSettled cache mid extra) (hdb : cache'.db = mid.db)
    (hcounters : cache'.counters = mid.counters) (hids : cache'.trackedIds = mid.trackedIds) :
    LedgerSettled cache cache' extra := by
  have hsame : cache'.ids = mid.ids := by
    simp only [CounterStore.ids, hids]
  refine ⟨fun pk => ?_, fun pk hpk hpresent => ?_, fun pk hpk => ?_, hsame ▸ h.ids⟩
  · rw [← h.ledger]
    simp only [amount, CounterStore.counter, hdb, hcounters]
  · rw [hcounters] at hpresent
    exact hsame ▸ h.tracked pk hpk hpresent
  · rw [hcounters, h.untracked pk hpk]

/-- The failover that makes a commit. -/
theorem failover_due {context : CallContext} (hget : ¬ Hits fault .getCreatedAt)
    (hdue : FailoverDue context cache.cacheCreatedAt) :
    executeCachedCounterCommitFailover context fault cache =
      (commitCachedCounters context >>= fun _ => reportFailover) fault cache := by
  rw [executeCachedCounterCommitFailover, cacheRead_seq hget,
    if_pos (failoverDue_iff.mpr hdue)]

/-- The failover without a fault in it keeps every ledger. -/
theorem failover_returns (context : CallContext) (fault : Option (Fault CacheOperation))
    (hlock : cache.lock = false)
    (h : ∀ f ∈ fault, ¬ InFailover context cache.cacheCreatedAt cache.ids
      cache.failoverReport f.operation) :
    ∃ cache', executeCachedCounterCommitFailover context fault cache = .ok () cache' ∧
      LedgerSettled cache cache' (fun _ => 0) ∧ cache'.lock = false ∧
      cache'.trackedIdsLock = cache.trackedIdsLock := by
  have hnot : ∀ op, InFailover context cache.cacheCreatedAt cache.ids cache.failoverReport op →
      ¬ Hits fault op := by
    rintro op hop ⟨f, hf, rfl⟩
    exact h f hf hop
  have hget : ¬ Hits fault .getCreatedAt := hnot _ (.inl rfl)
  by_cases hdue : FailoverDue context cache.cacheCreatedAt
  · obtain ⟨mid, hrun, hsettled, hmidLock, hmidIds, hmidReport⟩ :=
      commitCachedCounters_returns context fault hlock
        fun f hf hop => h f hf (.inr ⟨hdue, .inl hop⟩)
    have hgetReport : ¬ Hits fault .getReport := hnot _ (.inr ⟨hdue, .inr (.inl rfl)⟩)
    rw [failover_due hget hdue, seq_of_ok hrun, reportFailover, cacheRead_seq hgetReport]
    cases hreport : mid.failoverReport with
    | true => exact ⟨mid, rfl, hsettled, hmidLock, hmidIds⟩
    | false =>
        rw [hmidReport] at hreport
        have hset : ¬ Hits fault .setReport :=
          hnot _ (.inr ⟨hdue, .inr (.inr ⟨rfl, hreport⟩)⟩)
        rw [if_pos (by rfl), cacheUpdate_run hset]
        exact ⟨_, rfl, hsettled.trans_refl rfl rfl rfl, hmidLock, hmidIds⟩
  · rw [executeCachedCounterCommitFailover, cacheRead_seq hget,
      if_neg fun hany => hdue (failoverDue_iff.mp hany)]
    exact ⟨cache, rfl, .refl_of rfl rfl rfl fun _ => rfl, hlock, rfl⟩

/-- The failover with a fault in it keeps every ledger but one whose deletion is lost. -/
theorem failover_fails (context : CallContext) (hlock : cache.lock = false)
    (h : ∃ f ∈ fault, InFailover context cache.cacheCreatedAt cache.ids
      cache.failoverReport f.operation) :
    ∃ cache', executeCachedCounterCommitFailover context fault cache =
        .error .connectionError cache' ∧
      LedgerSettled cache cache' (countedTwice fault cache) := by
  obtain ⟨⟨op, applied⟩, rfl, hop⟩ := h
  by_cases hget : op = .getCreatedAt
  · subst hget
    rw [executeCachedCounterCommitFailover, cacheRead_seq_hits]
    exact ⟨cache, rfl, .refl_of rfl rfl rfl fun _ => by simp [countedTwice]⟩
  · obtain ⟨hdue, hop⟩ := hop.resolve_left hget
    rw [failover_due (by simpa using hget) hdue]
    rcases hop with hop | hop
    · obtain ⟨cache', hrun, hsettled⟩ :=
        commitCachedCounters_fails context hlock ⟨_, rfl, hop⟩
      exact ⟨cache', seq_of_error hrun, hsettled⟩
    · -- The fault comes after the commit.
      have hafter : ¬ InCommit cache.ids op ∧ ∀ pk, op ≠ .deleteCounter pk := by
        rcases hop with rfl | ⟨rfl, -⟩ <;> simp [InCommit]
      obtain ⟨mid, hrun, hsettled, -, -, hmidReport⟩ :=
        commitCachedCounters_returns context (some ⟨op, applied⟩) hlock
          (by simpa using hafter.1)
      have hsettled : LedgerSettled cache mid (countedTwice (some ⟨op, applied⟩) cache) := by
        refine ⟨fun pk => ?_, hsettled.tracked, hsettled.untracked, hsettled.ids⟩
        rw [hsettled.ledger, countedTwice, if_neg (by simpa using fun h => (hafter.2 pk h).elim)]
      rw [seq_of_ok hrun, reportFailover]
      rcases hop with rfl | ⟨rfl, hreport⟩
      · rw [cacheRead_seq_hits]
        exact ⟨mid, rfl, hsettled⟩
      · rw [cacheRead_seq (by simp), hmidReport, hreport, if_pos (by rfl), cacheUpdate_hits]
        refine ⟨_, rfl, ?_⟩
        cases applied with
        | false => exact hsettled
        | true => exact hsettled.trans_refl rfl rfl rfl

end

end Onadata.Proofs
