import Onadata.Apps.Logger.Models.DecryptedCount
import Onadata.Proofs.Libs.Utils.CounterTasks

/-!
# `Onadata.Proofs.Apps.Logger.DecryptedCount`: the cached count and a recount

The counter goes up when a submission without a history is decrypted, and down when any
submission is deleted. The recount looks at `is_encrypted` and `deleted_at`.

`KeepsDecrypted` is the condition under which an operation changes both by the same amount,
and `countsDecrypted_run` proves that the two agree after each operation of a run exactly
when each operation meets it.
-/

set_option autoImplicit false

namespace Onadata.Proofs

open Onadata.Lib

/-- The cached count is the recount, when the tasks that wait have run. -/
def CountsDecrypted (s : DecryptedForm) : Prop :=
  s.liveNumOfDecryptedSubmissions + s.counter.pendingDelta s.pk = s.recount

/-- The condition: an edit finds the submission encrypted or deleted, a decryption a live one
without a history or a deleted one with a history, a soft deletion a decrypted or deleted one,
and a deletion a live and decrypted one. -/
def KeepsDecrypted (s : DecryptedForm) : DecryptedOp → Prop
  | .create => True
  | .edit pk =>
      ∀ row, s.instances.get? pk = some row → row.deletedAt = none → row.isEncrypted = true
  | .decrypt pk =>
      ∀ row, s.instances.get? pk = some row → row.xmlEncrypted = true →
        (row.deletedAt = none ↔ row.submissionHistory = 0)
  | .setDeleted pk _ =>
      ∀ row, s.instances.get? pk = some row → row.deletedAt = none → row.isEncrypted = false
  | .delete pk =>
      ∀ row, s.instances.get? pk = some row → row.deletedAt = none ∧ row.isEncrypted = false
  | .worker _ => True

/-- The counts agree, `is_encrypted` is what the last save wrote, and a worker can run. -/
structure DecryptedLedger (s : DecryptedForm) : Prop where
  counts : CountsDecrypted s
  status : ∀ pk row, s.instances.get? pk = some row → row.isEncrypted = row.xmlEncrypted
  ready : ReadyTasks s.counter

/-- The submission is one of the recount. -/
def Recounted (row : EncryptedRow) : Prop :=
  row.deletedAt = none ∧ row.isEncrypted = false

instance (row : EncryptedRow) : Decidable (Recounted row) :=
  inferInstanceAs (Decidable (_ ∧ _))

/-- The filter of the recount. -/
theorem recounted_iff (row : EncryptedRow) :
    (row.deletedAt.isNone && !row.isEncrypted) = decide (Recounted row) := by
  rw [Bool.eq_iff_iff, decide_eq_true_eq]
  simp [Recounted]

/-! ### What one save does -/

/-- The recount after a row was written. -/
theorem recount_save {s : DecryptedForm} {pk : Nat} {old : EncryptedRow}
    (hold : s.instances.get? pk = some old) (row : EncryptedRow) :
    (((s.instances.save pk row).count fun row => row.deletedAt.isNone && !row.isEncrypted :
      Nat) : Int) + (if Recounted old then 1 else 0) =
        s.recount + if Recounted row then 1 else 0 := by
  have htotal := Table.count_delete hold fun row => row.deletedAt.isNone && !row.isEncrypted
  unfold DecryptedForm.recount
  rw [Table.count_save hold]
  simp only [recounted_iff, decide_eq_true_eq] at htotal ⊢
  split_ifs at htotal ⊢ <;> omega

/-- A save of a stored submission: what it adds to the recount, and the task of a soft
deletion. -/
theorem save_spec {s : DecryptedForm} {pk : Nat} {old : EncryptedRow}
    (hold : s.instances.get? pk = some old) (row : EncryptedRow) :
    (s.save pk row).pk = s.pk ∧
    (s.save pk row).instances = s.instances.save pk row.setEncryptionStatus ∧
    (s.save pk row).counter =
      if old.deletedAt = none ∧ row.deletedAt ≠ none then s.counter.delay s.pk (-1)
      else s.counter := by
  have hhandler : s.decrDecryptedOnSoftDelete pk row.setEncryptionStatus =
      { s with counter :=
          if old.deletedAt = none ∧ row.deletedAt ≠ none then s.counter.delay s.pk (-1)
          else s.counter } := by
    unfold DecryptedForm.decrDecryptedOnSoftDelete
    rw [hold, show row.setEncryptionStatus.deletedAt = row.deletedAt from rfl]
    by_cases hrow : row.deletedAt = none
    · rw [if_pos hrow, if_neg fun h => h.2 hrow]
    · rw [if_neg hrow]
      by_cases hlive : old.deletedAt = none
      · rw [if_pos ⟨hlive, hrow⟩]
        simp [hlive, DecryptedForm.decrXFormNumOfDecryptedSubmissions]
      · rw [if_neg fun h => hlive h.1]
        simp [hlive]
  unfold DecryptedForm.save
  dsimp only
  rw [hhandler]
  exact ⟨rfl, rfl, rfl⟩

/-- A state in which one row was written and one task may have been added. -/
theorem countsDecrypted_written_iff {s s' : DecryptedForm} (hs : CountsDecrypted s) {pk : Nat}
    {old row : EncryptedRow} (hold : s.instances.get? pk = some old) (hpk : s'.pk = s.pk)
    (hinstances : s'.instances = s.instances.save pk row) (delta : Int)
    (hcounter : s'.counter.liveNumber s.pk + s'.counter.pendingDelta s.pk =
      s.counter.liveNumber s.pk + s.counter.pendingDelta s.pk + delta) :
    CountsDecrypted s' ↔
      delta + (if Recounted old then 1 else 0) = if Recounted row then 1 else 0 := by
  have hrecount := recount_save hold row
  unfold CountsDecrypted DecryptedForm.liveNumOfDecryptedSubmissions at hs ⊢
  rw [hpk, DecryptedForm.recount, hinstances]
  omega

/-- The status of the submissions after a row was written. -/
theorem status_save {s : DecryptedForm} {pk : Nat} {old : EncryptedRow}
    (hold : s.instances.get? pk = some old)
    (hs : ∀ pk row, s.instances.get? pk = some row → row.isEncrypted = row.xmlEncrypted)
    (row : EncryptedRow) (pk' : Nat) (row' : EncryptedRow)
    (hrow' : (s.instances.save pk row.setEncryptionStatus).get? pk' = some row') :
    row'.isEncrypted = row'.xmlEncrypted := by
  rw [Table.get?_save _ hold] at hrow'
  split at hrow'
  · obtain rfl := Option.some.inj hrow'
    rfl
  · exact hs pk' row' hrow'

/-- The numbers of a form to which a task was added. -/
theorem liveNumber_delay (c : CounterTasks) (pk : Nat) (delta : Int) :
    (c.delay pk delta).liveNumber pk + (c.delay pk delta).pendingDelta pk =
      c.liveNumber pk + c.pendingDelta pk + delta := by
  rw [pendingDelta_delay, if_pos rfl]
  show c.liveNumber pk + _ = _
  omega

/-! ### The operations -/

section
variable {s : DecryptedForm} {pk : Nat} {row : EncryptedRow}

/-- An edit keeps the counts equal exactly when it takes no submission out of the recount. -/
theorem countsDecrypted_edit_iff (hs : DecryptedLedger s)
    (hrow : s.instances.get? pk = some row) :
    CountsDecrypted (s.editInstance pk row) ↔
      (row.deletedAt = none → row.isEncrypted = true) := by
  obtain ⟨hpk, hinstances, hcounter⟩ := save_spec hrow
    { row with submissionHistory := row.submissionHistory + 1, xmlEncrypted := true }
  rw [if_neg fun h => h.2 h.1] at hcounter
  have hnumber : (s.editInstance pk row).counter.liveNumber s.pk +
      (s.editInstance pk row).counter.pendingDelta s.pk =
        s.counter.liveNumber s.pk + s.counter.pendingDelta s.pk + 0 := by
    rw [show (s.editInstance pk row).counter = s.counter from hcounter]
    omega
  refine (countsDecrypted_written_iff hs.counts hrow hpk hinstances _ hnumber).trans ?_
  by_cases hrecounted : Recounted row
  · simp [Recounted, EncryptedRow.setEncryptionStatus, hrecounted.1, hrecounted.2]
  · rw [if_neg hrecounted]
    refine iff_of_true (by simp [Recounted, EncryptedRow.setEncryptionStatus]) fun hlive => ?_
    exact Bool.not_eq_false _ |>.mp fun hplain => hrecounted ⟨hlive, hplain⟩

/-- A soft deletion keeps the counts equal exactly when it takes a decrypted submission, or one
that was deleted before. -/
theorem countsDecrypted_setDeleted_iff (hs : DecryptedLedger s)
    (hrow : s.instances.get? pk = some row) (deletedAt : Int) :
    CountsDecrypted (s.setDeleted pk row deletedAt) ↔
      (row.deletedAt = none → row.isEncrypted = false) := by
  obtain ⟨hpk, hinstances, hcounter⟩ := save_spec hrow { row with deletedAt := some deletedAt }
  have hnumber : (s.setDeleted pk row deletedAt).counter.liveNumber s.pk +
      (s.setDeleted pk row deletedAt).counter.pendingDelta s.pk =
        s.counter.liveNumber s.pk + s.counter.pendingDelta s.pk +
          if row.deletedAt = none then -1 else 0 := by
    rw [show (s.setDeleted pk row deletedAt).counter = _ from hcounter]
    by_cases hlive : row.deletedAt = none
    · rw [if_pos ⟨hlive, by simp⟩, if_pos hlive, liveNumber_delay]
    · rw [if_neg fun h => hlive h.1, if_neg hlive]
      omega
  refine (countsDecrypted_written_iff hs.counts hrow hpk hinstances _ hnumber).trans ?_
  by_cases hlive : row.deletedAt = none
  · by_cases hencrypted : row.isEncrypted = false
    · simp [Recounted, EncryptedRow.setEncryptionStatus, hlive, hencrypted]
    · simp [Recounted, EncryptedRow.setEncryptionStatus, hlive, hencrypted]
  · simp [Recounted, EncryptedRow.setEncryptionStatus, hlive]

/-- A decryption keeps the counts equal exactly when the submission is live and was never
edited, or deleted and was edited. -/
theorem countsDecrypted_decrypt_iff (hs : DecryptedLedger s)
    (hrow : s.instances.get? pk = some row) (hencrypted : row.xmlEncrypted = true) :
    CountsDecrypted (s.decryptInstance pk row) ↔
      (row.deletedAt = none ↔ row.submissionHistory = 0) := by
  obtain ⟨hpk, hinstances, hcounter⟩ := save_spec hrow
    { row with submissionHistory := row.submissionHistory + 1, xmlEncrypted := false }
  rw [if_neg fun h => h.2 h.1] at hcounter
  have hstatus : row.isEncrypted = true := (hs.status pk row hrow).trans hencrypted
  unfold DecryptedForm.decryptInstance
  dsimp only
  by_cases hedit : row.submissionHistory ≠ 0
  · rw [if_pos hedit]
    rw [countsDecrypted_written_iff hs.counts hrow hpk hinstances 0 (by rw [hcounter]; omega)]
    simp [Recounted, EncryptedRow.setEncryptionStatus, hstatus, hedit]
  · rw [if_neg hedit]
    have hnew : row.submissionHistory = 0 := not_ne_iff.mp hedit
    generalize s.save pk
      { row with submissionHistory := row.submissionHistory + 1, xmlEncrypted := false } = saved
      at hpk hinstances hcounter ⊢
    have hnumber : (saved.counter.delay saved.pk 1).liveNumber s.pk +
        (saved.counter.delay saved.pk 1).pendingDelta s.pk =
          s.counter.liveNumber s.pk + s.counter.pendingDelta s.pk + 1 := by
      rw [hcounter, hpk]
      exact liveNumber_delay s.counter s.pk 1
    have hwritten : CountsDecrypted { saved with counter := saved.counter.delay saved.pk 1 } ↔ _ :=
      @countsDecrypted_written_iff s { saved with counter := saved.counter.delay saved.pk 1 }
        hs.counts pk row _ hrow hpk hinstances 1 hnumber
    rw [hwritten]
    simp [Recounted, EncryptedRow.setEncryptionStatus, hstatus, hnew]

/-- A deletion keeps the counts equal exactly when the submission is one of the recount. -/
theorem countsDecrypted_delete_iff (hs : DecryptedLedger s)
    (hrow : s.instances.get? pk = some row) :
    CountsDecrypted (s.delete pk) ↔ row.deletedAt = none ∧ row.isEncrypted = false := by
  have htotal := Table.count_delete hrow fun row => row.deletedAt.isNone && !row.isEncrypted
  have hcounts := hs.counts
  have hnumber := liveNumber_delay s.counter s.pk (-1)
  simp only [recounted_iff, decide_eq_true_eq] at htotal
  unfold CountsDecrypted DecryptedForm.liveNumOfDecryptedSubmissions DecryptedForm.recount
    at hcounts ⊢
  show (s.counter.delay s.pk (-1)).liveNumber s.pk + (s.counter.delay s.pk (-1)).pendingDelta s.pk
    = (((s.instances.delete pk).count _ : Nat) : Int) ↔ Recounted row
  simp only [recounted_iff] at hcounts ⊢
  rw [hnumber]
  by_cases h : Recounted row
  · rw [if_pos h] at htotal
    exact iff_of_true (by omega) h
  · rw [if_neg h] at htotal
    exact iff_of_false (by omega) h

end

/-! ### Runs -/

/-- From equal counts, an operation leads to equal counts exactly under the condition. -/
theorem countsDecrypted_iff {s s' : DecryptedForm} {op : DecryptedOp} (hs : DecryptedLedger s)
    (hstep : DecryptedStep s op s') : CountsDecrypted s' ↔ KeepsDecrypted s op := by
  cases op with
  | create =>
      obtain rfl := hstep
      refine iff_of_true ?_ trivial
      have hcounts := hs.counts
      unfold CountsDecrypted DecryptedForm.recount at hcounts ⊢
      show s.liveNumOfDecryptedSubmissions + s.counter.pendingDelta s.pk =
        (((s.instances.create _).count _ : Nat) : Int)
      rw [Table.count_create]
      simpa [EncryptedRow.setEncryptionStatus] using hcounts
  | edit pk =>
      obtain ⟨row, hrow, rfl⟩ := hstep
      rw [countsDecrypted_edit_iff hs hrow, KeepsDecrypted, hrow]
      simp
  | decrypt pk =>
      obtain ⟨row, hrow, rfl⟩ := hstep
      rw [KeepsDecrypted, hrow]
      by_cases hencrypted : row.xmlEncrypted = true
      · rw [if_pos hencrypted, countsDecrypted_decrypt_iff hs hrow hencrypted]
        simp [hencrypted]
      · rw [if_neg hencrypted]
        exact iff_of_true hs.counts fun row' hrow' h =>
          absurd (Option.some.inj hrow' ▸ h) hencrypted
  | setDeleted pk deletedAt =>
      obtain ⟨row, hrow, rfl⟩ := hstep
      rw [countsDecrypted_setDeleted_iff hs hrow, KeepsDecrypted, hrow]
      simp
  | delete pk =>
      obtain ⟨row, hrow, rfl⟩ := hstep
      rw [countsDecrypted_delete_iff hs hrow, KeepsDecrypted, hrow]
      simp
  | worker op =>
      obtain ⟨hstep, hpk, hinstances⟩ := hstep
      refine iff_of_true ?_ trivial
      have hcounts := hs.counts
      unfold CountsDecrypted DecryptedForm.liveNumOfDecryptedSubmissions DecryptedForm.recount
        at hcounts ⊢
      rw [hpk, (ledger_step hs.ready hstep).2, hcounts, hinstances]

/-- A save of a stored submission keeps the status and leaves the tasks ready. -/
theorem kept_save {s : DecryptedForm} {pk : Nat} {old : EncryptedRow}
    (hs : DecryptedLedger s) (hold : s.instances.get? pk = some old) (row : EncryptedRow) :
    (∀ pk' row', (s.save pk row).instances.get? pk' = some row' →
      row'.isEncrypted = row'.xmlEncrypted) ∧ ReadyTasks (s.save pk row).counter := by
  obtain ⟨-, hinstances, hcounter⟩ := save_spec hold row
  rw [hinstances, hcounter]
  refine ⟨status_save hold hs.status row, ?_⟩
  split
  · exact readyTasks_delay hs.ready s.pk (Or.inr rfl)
  · exact hs.ready

/-- An operation keeps the status and leaves the tasks ready. -/
theorem kept_decryptedStep {s s' : DecryptedForm} {op : DecryptedOp} (hs : DecryptedLedger s)
    (hstep : DecryptedStep s op s') :
    (∀ pk row, s'.instances.get? pk = some row → row.isEncrypted = row.xmlEncrypted) ∧
      ReadyTasks s'.counter := by
  cases op with
  | create =>
      obtain rfl := hstep
      refine ⟨fun pk row hrow => ?_, hs.ready⟩
      rw [DecryptedForm.create, Table.get?_create] at hrow
      split at hrow
      · obtain rfl := Option.some.inj hrow
        rfl
      · exact hs.status pk row hrow
  | edit pk =>
      obtain ⟨row, hrow, rfl⟩ := hstep
      exact kept_save hs hrow _
  | decrypt pk =>
      obtain ⟨row, hrow, rfl⟩ := hstep
      split
      · have hkept := kept_save hs hrow
          { row with submissionHistory := row.submissionHistory + 1, xmlEncrypted := false }
        unfold DecryptedForm.decryptInstance
        dsimp only
        split
        · exact hkept
        · exact ⟨hkept.1, readyTasks_delay hkept.2 _ (Or.inl rfl)⟩
      · exact ⟨hs.status, hs.ready⟩
  | setDeleted pk deletedAt =>
      obtain ⟨row, hrow, rfl⟩ := hstep
      exact kept_save hs hrow _
  | delete pk =>
      obtain ⟨row, hrow, rfl⟩ := hstep
      refine ⟨fun pk' row' hrow' => ?_, readyTasks_delay hs.ready s.pk (Or.inr rfl)⟩
      have hmem := Table.get?_eq_some.mp hrow'
      exact hs.status pk' row' (Table.get?_eq_some.mpr (List.mem_filter.mp hmem).1)
  | worker op =>
      obtain ⟨hstep, -, hinstances⟩ := hstep
      rw [hinstances]
      exact ⟨hs.status, (ledger_step hs.ready hstep).1⟩

/-- In a run, the cached count and the recount agree after each operation exactly when each
operation meets the condition. When no task waits at the end of such a run,
`live_num_of_decrypted_submissions` is the recount. -/
theorem countsDecrypted_run {s s' : DecryptedForm} {ops : List DecryptedOp}
    (hs : DecryptedLedger s) :
    (Run (Guarded DecryptedStep fun _ _ s' => CountsDecrypted s') s ops s' ↔
      Run (Guarded DecryptedStep fun s op _ => KeepsDecrypted s op) s ops s') ∧
    (Run (Guarded DecryptedStep fun s op _ => KeepsDecrypted s op) s ops s' →
      s'.counter.tasks = [] → s'.liveNumOfDecryptedSubmissions = s'.recount) := by
  have hkeeps : ∀ (s : DecryptedForm) (op : DecryptedOp) (s' : DecryptedForm),
      DecryptedStep s op s' → KeepsDecrypted s op → DecryptedLedger s → DecryptedLedger s' := by
    intro s op s' hstep hcondition hs
    obtain ⟨hstatus, hready⟩ := kept_decryptedStep hs hstep
    exact ⟨(countsDecrypted_iff hs hstep).mpr hcondition, hstatus, hready⟩
  refine ⟨?_, fun hrun htasks => ?_⟩
  · exact Run.guarded_congr DecryptedLedger hs
      (fun s op s' _ hstep hs => countsDecrypted_iff hs hstep)
      (fun s op s' _ hstep hcondition hs => hkeeps s op s' hstep hcondition hs)
  · have hlast := hrun.invariant DecryptedLedger
      (fun s op s' _ hstep hs => hkeeps s op s' hstep.1 hstep.2 hs) hs
    have hcounts := hlast.counts
    rw [CountsDecrypted, CounterTasks.pendingDelta, htasks] at hcounts
    simpa using hcounts

/-- A managed form without submissions, with an empty cache. -/
def emptyForm : DecryptedForm where
  pk := 7
  counter := { store := { db := fun _ => 0 } }

theorem decryptedLedger_emptyForm : DecryptedLedger emptyForm :=
  ⟨rfl, fun _ _ h => absurd h (by simp [emptyForm, Table.get?, Dict.get?]),
    ⟨rfl, fun _ h => absurd rfl h⟩, fun _ h => absurd h List.not_mem_nil⟩

/-- A submission is created and decrypted, and the task runs: the count is one. -/
theorem countsDecrypted_run_decrypted :
    ∃ s', Run DecryptedStep emptyForm [.create, .decrypt 0, .worker (.runTask 0)] s' ∧
      s'.liveNumOfDecryptedSubmissions = 1 := by
  have hexec : (Pool.exec (counterStep id) (fun _ _ => true)
      ⟨emptyForm.counter.store, [.adjust ⟨7, 1⟩ .testLock]⟩ (List.replicate 8 0)).map
        (fun s => s.threads) = some [.adjust ⟨7, 1⟩ .done] := by decide
  obtain ⟨s, hs, hthreads⟩ := Option.map_eq_some_iff.mp hexec
  have hruns := runsAlone_of_exec hs hthreads rfl
  let created := emptyForm.create { xmlEncrypted := true }
  let decrypted := created.decryptInstance 0 { xmlEncrypted := true, isEncrypted := true }
  let last : DecryptedForm := { decrypted with counter := { store := s.shared } }
  have hdecrypt : DecryptedStep created (.decrypt 0) decrypted := ⟨_, rfl, rfl⟩
  have hworker : DecryptedStep decrypted (.worker (.runTask 0)) last :=
    ⟨⟨⟨7, 1⟩, rfl, hruns, rfl⟩, rfl, rfl⟩
  have hkeeps : KeepsDecrypted created (.decrypt 0) := by
    intro row hrow _
    obtain rfl := Option.some.inj hrow
    exact iff_of_true rfl rfl
  have hrun : Run (Guarded DecryptedStep fun s op _ => KeepsDecrypted s op) emptyForm
      [.create, .decrypt 0, .worker (.runTask 0)] last :=
    .cons ⟨rfl, trivial⟩ (.cons ⟨hdecrypt, hkeeps⟩ (.cons ⟨hworker, trivial⟩ (.nil last)))
  exact ⟨last, hrun.mono fun _ _ _ h => h.1,
    (countsDecrypted_run decryptedLedger_emptyForm).2 hrun rfl⟩

/-- The deletion of a submission that was never decrypted makes the count negative. -/
theorem not_countsDecrypted_encrypted :
    ¬∀ (s : DecryptedForm) (ops : List DecryptedOp) (s' : DecryptedForm), DecryptedLedger s →
      Run DecryptedStep s ops s' → s'.counter.tasks = [] →
      s'.liveNumOfDecryptedSubmissions = s'.recount := by
  intro h
  have hexec : (Pool.exec (counterStep id) (fun _ _ => true)
      ⟨emptyForm.counter.store, [.adjust ⟨7, -1⟩ .testLock]⟩ (List.replicate 3 0)).map
        (fun s => (s.threads, s.shared.db 7 + s.shared.counter 7)) =
          some ([.adjust ⟨7, -1⟩ .done], -1) := by decide
  obtain ⟨s, hs, hvalues⟩ := Option.map_eq_some_iff.mp hexec
  obtain ⟨hthreads, hnumber⟩ := Prod.mk.inj hvalues
  have hruns := runsAlone_of_exec hs hthreads rfl
  let created := emptyForm.create { xmlEncrypted := true }
  let last : DecryptedForm := { created.delete 0 with counter := { store := s.shared } }
  have hworker : DecryptedStep (created.delete 0) (.worker (.runTask 0)) last :=
    ⟨⟨⟨7, -1⟩, rfl, hruns, rfl⟩, rfl, rfl⟩
  have hright := h emptyForm [.create, .delete 0, .worker (.runTask 0)] last
    decryptedLedger_emptyForm (.cons rfl (.cons ⟨_, rfl, rfl⟩ (.cons hworker (.nil last)))) rfl
  rw [show last.liveNumOfDecryptedSubmissions = -1 from hnumber,
    show last.recount = 0 from rfl] at hright
  exact absurd hright (by decide)

end Onadata.Proofs
