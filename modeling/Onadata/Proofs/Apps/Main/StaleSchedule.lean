import Onadata.Lib.Run
import Onadata.Proofs.Apps.Main.DeactivationWarnings

/-!
# `Onadata.Proofs.Apps.Main.StaleSchedule`: repeated syncs of a stale user

`syncUserDeactivationState` computes the schedule again from the last activity. When it
differs from the stored one, the stored schedule is replaced and the warning state is
cleared. The module says when a sync leaves a stale user on schedule.

* `syncedSchedule`: the schedule that a sync computes.
* `stayedOnSchedule_iff`: a run stays on schedule exactly when each sync of it finds a
  settled state.
* `not_syncSettled_of_pastDue`: after a sync past the threshold, no later sync finds one.
  The grace period counts from the sync, and so each sync starts it again.
-/

set_option autoImplicit false

namespace Onadata.Proofs

open Onadata.Lib (Run Guarded)

/-- The schedule for a user who has been inactive since `lastActivity`: the threshold, or,
when that is past and there are warning offsets, the largest offset from now. -/
def syncedSchedule (cfg : DeactivationSettings) (lastActivity when : Int) : Int :=
  if lastActivity + days cfg.inactivityDays ≤ when then
    match cfg.getWarningDays with
    | [] => lastActivity + days cfg.inactivityDays
    | required :: _ => when + days required
  else lastActivity + days cfg.inactivityDays

/-- `getDeactivationScheduledAt` with the grace rule. -/
theorem getDeactivationScheduledAt_eq_syncedSchedule (cfg : DeactivationSettings)
    (lastActivity when : Int) :
    getDeactivationScheduledAt cfg lastActivity true when
      = syncedSchedule cfg lastActivity when := by
  rcases hdays : cfg.getWarningDays with _ | ⟨required, rest⟩ <;>
    simp [getDeactivationScheduledAt, syncedSchedule, hdays]

/-- The stored schedule of an account. -/
def storedSchedule (account : Account) : Option Int :=
  account.state.bind (·.deactivationScheduledAt)

/-- A sync does not move a stored schedule later, and it changes no recorded warning. -/
def StaysOnSchedule (before : Account) (event : LifecycleEvent) (after : Account) : Prop :=
  event.op = .syncUserDeactivationState →
    (∀ scheduledAt, storedSchedule before = some scheduledAt →
      ∃ scheduledAt', storedSchedule after = some scheduledAt' ∧ scheduledAt' ≤ scheduledAt) ∧
    ∀ state, before.state = some state →
      ∃ state', after.state = some state' ∧ SameWarnings state state'

/-- A sync finds no state, or the schedule it computes, or a schedule that is not earlier
and no recorded warning. -/
def SyncSettled (before : Account) (event : LifecycleEvent) : Prop :=
  event.op = .syncUserDeactivationState →
    ∀ state, before.state = some state →
      let scheduledAt :=
        syncedSchedule event.settings before.getOrCreateUserActivity event.time
      state.deactivationScheduledAt = some scheduledAt ∨
        (IsClear state ∧ ∀ stored, state.deactivationScheduledAt = some stored →
          scheduledAt < stored)

/-- An operation of the lifecycle as a step. -/
def performStep (before : Account) (event : LifecycleEvent) (after : Account) : Prop :=
  after = (before.perform event).1

/-- A sync on an account with a state: it changes nothing when the schedule is the one it
computes, and otherwise replaces the schedule and clears the warnings. -/
theorem state_syncUserDeactivationState (cfg : DeactivationSettings) (account : Account)
    (state : UserDeactivationState) (when : Int) (hstate : account.state = some state) :
    (account.syncUserDeactivationState cfg when).state =
      if state.deactivationScheduledAt
          = some (syncedSchedule cfg account.getOrCreateUserActivity when) then some state
      else
        some { state.clearWarningState with
          deactivationScheduledAt :=
            some (syncedSchedule cfg account.getOrCreateUserActivity when) } := by
  simp only [Account.syncUserDeactivationState, hstate,
    getDeactivationScheduledAt_eq_syncedSchedule]
  split <;> rfl

/-- One step stays on schedule exactly when it finds a settled state. -/
theorem staysOnSchedule_iff (before : Account) (event : LifecycleEvent) :
    StaysOnSchedule before event (before.perform event).1 ↔ SyncSettled before event := by
  rcases event with ⟨cfg, when, op⟩
  by_cases hop : op = .syncUserDeactivationState
  · subst hop
    simp only [StaysOnSchedule, SyncSettled, Account.perform, true_implies]
    rcases hstate : before.state with _ | state
    · simp [storedSchedule, hstate]
    · have hafter := state_syncUserDeactivationState cfg before state when hstate
      simp only [Option.some.injEq, forall_eq', storedSchedule, hstate, Option.bind_some]
      by_cases hsame : state.deactivationScheduledAt
          = some (syncedSchedule cfg before.getOrCreateUserActivity when)
      · -- Up to date: the sync leaves the state as it is.
        rw [if_pos hsame] at hafter
        simp [hafter, hsame, SameWarnings]
      · -- The sync replaces the schedule and clears the warnings.
        rw [if_neg hsame] at hafter
        simp only [hafter, Option.bind_some, Option.some.injEq, exists_eq_left', hsame,
          false_or, SameWarnings, IsClear, UserDeactivationState.clearWarningState]
        constructor
        · rintro ⟨hle, hfirst, hoffsets⟩
          refine ⟨⟨hfirst.symm, hoffsets.symm⟩, fun stored hstored => ?_⟩
          have hne : stored ≠ syncedSchedule cfg before.getOrCreateUserActivity when :=
            fun heq => hsame (heq ▸ hstored)
          have := hle stored hstored
          omega
        · rintro ⟨⟨hfirst, hoffsets⟩, hlt⟩
          refine ⟨fun stored hstored => ?_, hfirst.symm, hoffsets.symm⟩
          exact Int.le_of_lt (hlt stored hstored)
  · simp [StaysOnSchedule, SyncSettled, hop]

/-- A run stays on schedule, at each of its syncs, exactly when each of its syncs finds a
settled state. -/
theorem stayedOnSchedule_iff (account account' : Account) (events : List LifecycleEvent) :
    Run (Guarded performStep StaysOnSchedule) account events account' ↔
      Run (Guarded performStep fun before event _ => SyncSettled before event)
        account events account' := by
  refine Run.guarded_congr (fun _ => True) trivial ?_ fun _ _ _ _ _ _ _ => trivial
  intro before event after _ hstep _
  rw [hstep]
  exact staysOnSchedule_iff before event

/-! ### Users past the threshold -/

/-- A sync stores the schedule that it computes, and keeps the last activity. -/
theorem storedSchedule_syncUserDeactivationState (cfg : DeactivationSettings)
    (account : Account) (when : Int) :
    storedSchedule (account.syncUserDeactivationState cfg when)
      = some (syncedSchedule cfg account.getOrCreateUserActivity when) ∧
    (account.syncUserDeactivationState cfg when).getOrCreateUserActivity
      = account.getOrCreateUserActivity := by
  simp only [Account.syncUserDeactivationState, getDeactivationScheduledAt_eq_syncedSchedule]
  rcases hstate : account.state with _ | state
  · exact ⟨rfl, rfl⟩
  · simp only
    split
    · rename_i hsame
      exact ⟨by simpa [storedSchedule, hstate] using hsame, rfl⟩
    · exact ⟨rfl, rfl⟩

/-- After a sync of a user past the threshold, a sync at a later time does not find a
settled state: it moves the schedule later by the time between them. -/
theorem not_syncSettled_of_pastDue (cfg : DeactivationSettings) (account : Account)
    (required : Int) (rest : List Int) (when later : Int)
    (hcfg : cfg.getWarningDays = required :: rest)
    (hpast : account.getOrCreateUserActivity + days cfg.inactivityDays ≤ when)
    (hlater : when < later) :
    ¬ SyncSettled (account.syncUserDeactivationState cfg when)
      ⟨cfg, later, .syncUserDeactivationState⟩ := by
  obtain ⟨hstored, hactivity⟩ := storedSchedule_syncUserDeactivationState cfg account when
  obtain ⟨state, hstate, hscheduled⟩ := Option.bind_eq_some_iff.mp hstored
  have hfirst : syncedSchedule cfg account.getOrCreateUserActivity when
      = when + days required := by
    rw [syncedSchedule, if_pos hpast, hcfg]
  have hsecond : syncedSchedule cfg account.getOrCreateUserActivity later
      = later + days required := by
    rw [syncedSchedule, if_pos (by omega), hcfg]
  intro hsettled
  rcases hsettled rfl state hstate with hsame | ⟨-, hlt⟩
  · simp only [hactivity, hscheduled, hfirst, hsecond, Option.some.injEq] at hsame
    omega
  · have := hlt _ hscheduled
    simp only [hactivity, hfirst, hsecond] at this
    omega

/-- On day 400 the first sync puts the user on schedule for day 430, and the warning is
planned. -/
example : (idleAccount.syncUserDeactivationState {} (days 400)).state.bind
    (getPendingDeactivationAction {} idleAccount.user · (days 400))
      = some (.sendWarning [30]) := by
  decide

/-- A user inactive since time 0 is synced on day 400, warned on the same day and synced
again a day later: the second sync moves the schedule and clears the warning. -/
theorem not_stayedOnSchedule_idleAccount :
    ¬ ∃ account, Run (Guarded performStep StaysOnSchedule) idleAccount
      [⟨{}, days 400, .syncUserDeactivationState⟩,
        ⟨{}, days 400, .dispatchDeactivationWarning [30] true⟩,
        ⟨{}, days 401, .syncUserDeactivationState⟩] account := by
  simp only [Run.cons_iff, Run.nil_iff, Guarded, performStep]
  rintro ⟨_, _, ⟨rfl, -⟩, _, ⟨rfl, -⟩, _, ⟨rfl, hstays⟩, rfl⟩
  obtain ⟨hschedule, -⟩ := hstays rfl
  obtain ⟨scheduledAt, hafter, hle⟩ := hschedule (days 430) (by decide)
  obtain rfl : days 431 = scheduledAt := Option.some.inj (by rw [← hafter]; decide)
  exact absurd hle (by decide)

end Onadata.Proofs
