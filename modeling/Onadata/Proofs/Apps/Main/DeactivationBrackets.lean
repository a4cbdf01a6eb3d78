import Onadata.Lib.Run
import Onadata.Proofs.Apps.Main.DeactivationWarnings

/-!
# `Onadata.Proofs.Apps.Main.DeactivationBrackets`: deactivations and reactivations

Whether an account is deactivated is not stored. `hasCurrentDeactivation` compares the last
`deactivatedAt` with the last `reactivatedAt`, and two equal times count as deactivated. So a
user who is reactivated at the very time of the deactivation stays deactivated in the state.

* `bracketed_iff`: in a run whose times do not decrease, each deactivation and reactivation
  leaves what it reports exactly when no reactivation falls on the time of the deactivation.
* `not_bracketed_sameTime`: a deactivation and a reactivation at one time.
-/

set_option autoImplicit false

namespace Onadata.Proofs

open Onadata.Lib (Run Guarded)

/-- An account and the time of the last operation. -/
structure TimedAccount where
  account : Account
  clock : Int

/-- An operation that does not run before the last one. -/
def TimedAccount.Step (before : TimedAccount) (event : LifecycleEvent) (after : TimedAccount) :
    Prop :=
  before.clock ≤ event.time ∧ after = ⟨(before.account.perform event).1, event.time⟩

/-- The user is active, and the state has no current deactivation and no warning. -/
def IsReactivated (account : Account) : Prop :=
  account.user.isActive = true ∧
    ∃ state, account.state = some state ∧ state.hasCurrentDeactivation = false ∧ IsClear state

/-- The user is inactive, and the state has a current deactivation. -/
def IsDeactivated (account : Account) : Prop :=
  account.user.isActive = false ∧
    ∃ state, account.state = some state ∧ state.hasCurrentDeactivation = true

/-- The operation leaves what it reports. -/
def Bracketed (account : Account) (event : LifecycleEvent) : Prop :=
  (event.op = .reactivateUser →
    (account.reactivateUser event.settings event.time).2 = true →
      IsReactivated (account.reactivateUser event.settings event.time).1) ∧
  (event.op = .deactivateUser →
    (account.deactivateUser event.settings event.time).2 = .deactivated →
      IsDeactivated (account.deactivateUser event.settings event.time).1)

/-- The operation is not a reactivation at the time of the current deactivation. -/
def NotAtDeactivation (account : Account) (event : LifecycleEvent) : Prop :=
  event.op = .reactivateUser →
    ∀ state, account.state = some state → state.hasCurrentDeactivation = true →
      state.deactivatedAt ≠ some event.time

/-- The times that the state keeps are not later than `clock`. -/
def StampsBy (clock : Int) (account : Account) : Prop :=
  ∀ state, account.state = some state →
    (∀ time ∈ state.deactivatedAt, time ≤ clock) ∧ ∀ time ∈ state.reactivatedAt, time ≤ clock

/-! ### One operation -/

/-- The state has the times of the state before, or none. -/
def KeepsStamps (before after : Account) : Prop :=
  ∀ state', after.state = some state' →
    (state'.deactivatedAt = none ∧ state'.reactivatedAt = none) ∨
    ∃ state, before.state = some state ∧ state'.deactivatedAt = state.deactivatedAt ∧
      state'.reactivatedAt = state.reactivatedAt

theorem keepsStamps_of_state_eq {before after : Account} (h : after.state = before.state) :
    KeepsStamps before after := by
  intro state' hstate
  exact Or.inr ⟨state', h ▸ hstate, rfl, rfl⟩

/-- `syncUserDeactivationState` keeps the times. -/
theorem keepsStamps_syncUserDeactivationState (cfg : DeactivationSettings) (account : Account)
    (when : Int) : KeepsStamps account (account.syncUserDeactivationState cfg when) := by
  intro state' hstate
  rcases hbefore : account.state with _ | state
  · left
    simp only [Account.syncUserDeactivationState, hbefore, Option.some.injEq] at hstate
    subst hstate
    exact ⟨rfl, rfl⟩
  · right
    simp only [Account.syncUserDeactivationState, hbefore] at hstate
    refine ⟨state, rfl, ?_⟩
    split at hstate
    · simp only [Option.some.injEq] at hstate
      exact hstate ▸ ⟨rfl, rfl⟩
    · simp only [Option.some.injEq] at hstate
      subst hstate
      exact ⟨rfl, rfl⟩

/-- `applyRequiredWarningGrace` moves the schedule only. -/
theorem stamps_applyRequiredWarningGrace (cfg : DeactivationSettings)
    (state : UserDeactivationState) (offsets : List Int) (when : Int) :
    (applyRequiredWarningGrace cfg state offsets when).1.deactivatedAt = state.deactivatedAt ∧
      (applyRequiredWarningGrace cfg state offsets when).1.reactivatedAt =
        state.reactivatedAt := by
  simp only [applyRequiredWarningGrace]
  split
  · exact ⟨rfl, rfl⟩
  · split
    · exact ⟨rfl, rfl⟩
    · dsimp only
      split
      · split <;> exact ⟨rfl, rfl⟩
      · exact ⟨rfl, rfl⟩

/-- `dispatchDeactivationWarning` keeps the times. -/
theorem keepsStamps_dispatchDeactivationWarning (cfg : DeactivationSettings) (account : Account)
    (plannedOffsets : List Int) (dispatchSucceeds : Bool) (when : Int) :
    KeepsStamps account
      (account.dispatchDeactivationWarning cfg plannedOffsets dispatchSucceeds when).1 := by
  rcases hstate : account.state with _ | state
  · exact keepsStamps_of_state_eq (by simp [Account.dispatchDeactivationWarning, hstate])
  · simp only [Account.dispatchDeactivationWarning, hstate]
    split
    · exact keepsStamps_of_state_eq rfl
    · split
      · exact keepsStamps_of_state_eq rfl
      · intro state' hstate'
        simp only [Option.some.injEq] at hstate'
        subst hstate'
        exact Or.inr ⟨state, hstate, stamps_applyRequiredWarningGrace cfg state _ when⟩

/-- An operation that neither deactivates nor reactivates keeps the times. -/
theorem keepsStamps_perform (account : Account) (event : LifecycleEvent)
    (hdeactivate : event.op ≠ .deactivateUser) (hreactivate : event.op ≠ .reactivateUser) :
    KeepsStamps account (account.perform event).1 := by
  unfold Account.perform
  cases hop : event.op with
  | editUser user => exact keepsStamps_of_state_eq rfl
  | recordUserActivity when force cacheAdded =>
      show KeepsStamps account
        (account.recordUserActivity event.settings when force cacheAdded event.time)
      rcases recordUserActivity_cases event.settings account when force cacheAdded event.time
        with h | h
      · exact keepsStamps_of_state_eq (by rw [h])
      · rw [h]
        exact keepsStamps_syncUserDeactivationState event.settings _ event.time
  | syncUserDeactivationState =>
      exact keepsStamps_syncUserDeactivationState event.settings account event.time
  | getPendingDeactivationActions => exact keepsStamps_of_state_eq rfl
  | dispatchDeactivationWarning plannedOffsets dispatchSucceeds =>
      exact keepsStamps_dispatchDeactivationWarning event.settings account plannedOffsets
        dispatchSucceeds event.time
  | deactivateUser => exact absurd hop hdeactivate
  | reactivateUser => exact absurd hop hreactivate

/-- `deactivateUser` leaves the account as it is, or makes the user inactive and writes the
time. -/
theorem deactivateUser_stamps (cfg : DeactivationSettings) (account : Account) (when : Int) :
    ((account.deactivateUser cfg when).1 = account ∧
      (account.deactivateUser cfg when).2 ≠ .deactivated) ∨
    (account.deactivateUser cfg when).1.user.isActive = false ∧
      ∃ state state', account.state = some state ∧
        (account.deactivateUser cfg when).1.state = some state' ∧
        state'.deactivatedAt = some when ∧ state'.reactivatedAt = state.reactivatedAt := by
  rcases hstate : account.state with _ | state
  · exact Or.inl (by simp [Account.deactivateUser, hstate])
  · simp only [Account.deactivateUser, hstate]
    split
    · exact Or.inl ⟨rfl, by simp⟩
    · split
      · exact Or.inl ⟨rfl, by simp⟩
      · split
        · exact Or.inl ⟨rfl, by simp⟩
        · exact Or.inr ⟨rfl, state, _, rfl, rfl, rfl, rfl⟩

/-- `reactivateUser` leaves an account without a current deactivation as it is. Otherwise it
makes the user active, clears the warnings and writes the time. -/
theorem reactivateUser_stamps (cfg : DeactivationSettings) (account : Account) (when : Int) :
    ((account.reactivateUser cfg when).1 = account ∧
      (account.reactivateUser cfg when).2 = false ∧
      ∀ state, account.state = some state → state.hasCurrentDeactivation = false) ∨
    ∃ state state', account.state = some state ∧ state.hasCurrentDeactivation = true ∧
      (account.reactivateUser cfg when).2 = true ∧
      (account.reactivateUser cfg when).1.user.isActive = true ∧
      (account.reactivateUser cfg when).1.state = some state' ∧ IsClear state' ∧
      state'.deactivatedAt = state.deactivatedAt ∧ state'.reactivatedAt = some when := by
  rcases hstate : account.state with _ | state
  · exact Or.inl (by simp [Account.reactivateUser, hstate])
  · simp only [Account.reactivateUser, hstate]
    split
    · rename_i hcurrent
      refine Or.inl ⟨rfl, rfl, ?_⟩
      rintro _ ⟨⟩
      simpa using hcurrent
    · rename_i hcurrent
      refine Or.inr ⟨state, _, rfl, by simpa using hcurrent, rfl, rfl, rfl, ⟨rfl, rfl⟩, rfl, rfl⟩

/-! ### Runs -/

/-- A state that is not earlier than its times has a current deactivation after a
deactivation. -/
theorem bracketed_deactivateUser {cfg : DeactivationSettings} {account : Account} {when : Int}
    (hstamps : StampsBy when account)
    (h : (account.deactivateUser cfg when).2 = .deactivated) :
    IsDeactivated (account.deactivateUser cfg when).1 := by
  rcases deactivateUser_stamps cfg account when with ⟨-, hnot⟩ | ⟨hinactive, hstate⟩
  · exact absurd h hnot
  · obtain ⟨state, state', hbefore, hafter, hdeactivated, hreactivated⟩ := hstate
    refine ⟨hinactive, state', hafter, ?_⟩
    unfold UserDeactivationState.hasCurrentDeactivation
    rw [hdeactivated, hreactivated]
    cases htime : state.reactivatedAt with
    | none => rfl
    | some time => exact decide_eq_true ((hstamps state hbefore).2 time htime)

/-- A reactivation leaves what it reports exactly when it does not fall on the time of the
deactivation. -/
theorem bracketed_reactivateUser_iff {cfg : DeactivationSettings} {account : Account}
    {when : Int} (hstamps : StampsBy when account) :
    ((account.reactivateUser cfg when).2 = true →
      IsReactivated (account.reactivateUser cfg when).1) ↔
    ∀ state, account.state = some state → state.hasCurrentDeactivation = true →
      state.deactivatedAt ≠ some when := by
  rcases reactivateUser_stamps cfg account when with ⟨-, hfalse, hnot⟩ | hreactivated
  · refine iff_of_true (fun h => ?_) fun state hstate hcurrent => ?_
    · rw [hfalse] at h
      exact absurd h (by simp)
    · rw [hnot state hstate] at hcurrent
      exact absurd hcurrent (by simp)
  · obtain ⟨state, state', hstate, hcurrent, htrue, hactive, hafter, hclear, hdeactivated,
      hreactivated⟩ := hreactivated
    obtain ⟨time, htime⟩ : ∃ time, state.deactivatedAt = some time := by
      cases hdeactivatedAt : state.deactivatedAt with
      | none => simp [UserDeactivationState.hasCurrentDeactivation, hdeactivatedAt] at hcurrent
      | some time => exact ⟨time, rfl⟩
    have hafterCurrent : state'.hasCurrentDeactivation = decide (when ≤ time) := by
      simp [UserDeactivationState.hasCurrentDeactivation, hdeactivated, htime, hreactivated]
    have hle : time ≤ when := (hstamps state hstate).1 time htime
    constructor
    · intro h state'' hstate'' _ hsame
      obtain rfl : state = state'' := Option.some.inj (hstate.symm.trans hstate'')
      obtain ⟨-, final, hfinal, hnotCurrent, -⟩ := h htrue
      obtain rfl : state' = final := Option.some.inj (hafter.symm.trans hfinal)
      rw [htime, Option.some.injEq] at hsame
      rw [hafterCurrent, hsame] at hnotCurrent
      exact absurd hnotCurrent (by simp)
    · intro h _
      have hne : time ≠ when := by
        rintro rfl
        exact h state hstate hcurrent htime
      refine ⟨hactive, state', hafter, ?_, hclear⟩
      rw [hafterCurrent, decide_eq_false_iff_not]
      omega

/-- An operation leaves what it reports exactly when it is not a reactivation at the time of
the deactivation. -/
theorem bracketed_step_iff {account : Account} {event : LifecycleEvent}
    (hstamps : StampsBy event.time account) :
    Bracketed account event ↔ NotAtDeactivation account event := by
  unfold Bracketed NotAtDeactivation
  rw [and_iff_left fun _ => bracketed_deactivateUser hstamps]
  exact forall_congr' fun _ => bracketed_reactivateUser_iff hstamps

/-- An operation writes no later time than its own. -/
theorem stampsBy_step {before after : TimedAccount} {event : LifecycleEvent}
    (hstep : before.Step event after) (h : StampsBy before.clock before.account) :
    StampsBy after.clock after.account := by
  obtain ⟨hclock, rfl⟩ := hstep
  have hbefore : StampsBy event.time before.account := fun state hstate =>
    ⟨fun time htime => le_trans ((h state hstate).1 time htime) hclock,
      fun time htime => le_trans ((h state hstate).2 time htime) hclock⟩
  show StampsBy event.time (before.account.perform event).1
  intro state' hstate'
  by_cases hdeactivate : event.op = .deactivateUser
  · simp only [Account.perform, hdeactivate] at hstate'
    rcases deactivateUser_stamps event.settings before.account event.time with
      ⟨hsame, -⟩ | ⟨-, state, state'', hstate, hafter, hdeactivated, hreactivated⟩
    · rw [hsame] at hstate'
      exact hbefore state' hstate'
    · obtain rfl : state'' = state' := Option.some.inj (hafter.symm.trans hstate')
      rw [hdeactivated, hreactivated]
      exact ⟨by simp, (hbefore state hstate).2⟩
  by_cases hreactivate : event.op = .reactivateUser
  · simp only [Account.perform, hreactivate] at hstate'
    rcases reactivateUser_stamps event.settings before.account event.time with
      ⟨hsame, -⟩ | ⟨state, state'', hstate, -, -, -, hafter, -, hdeactivated, hreactivated⟩
    · rw [hsame] at hstate'
      exact hbefore state' hstate'
    · obtain rfl : state'' = state' := Option.some.inj (hafter.symm.trans hstate')
      rw [hdeactivated, hreactivated]
      exact ⟨(hbefore state hstate).1, by simp⟩
  rcases keepsStamps_perform before.account event hdeactivate hreactivate state' hstate' with
    ⟨hnone, hnone'⟩ | ⟨state, hstate, hdeactivated, hreactivated⟩
  · rw [hnone, hnone']
    simp
  · rw [hdeactivated, hreactivated]
    exact hbefore state hstate

/-- In a run from an account without a lifecycle state, each deactivation and reactivation
leaves what it reports exactly when no reactivation falls on the time of the deactivation. -/
theorem bracketed_iff (user : LifecycleUser) (initialLastActivity : Int)
    (lastActivity : Option Int) (clock : Int) (events : List LifecycleEvent)
    (after : TimedAccount) :
    Run (Guarded TimedAccount.Step fun before event _ => Bracketed before.account event)
        ⟨⟨user, initialLastActivity, lastActivity, none⟩, clock⟩ events after ↔
      Run (Guarded TimedAccount.Step fun before event _ =>
          NotAtDeactivation before.account event)
        ⟨⟨user, initialLastActivity, lastActivity, none⟩, clock⟩ events after := by
  refine Run.guarded_congr (fun timed => StampsBy timed.clock timed.account) ?_ ?_ ?_
  · rintro state ⟨⟩
  · intro before event after _ hstep h
    refine bracketed_step_iff fun state hstate => ?_
    exact ⟨fun time htime => le_trans ((h state hstate).1 time htime) hstep.1,
      fun time htime => le_trans ((h state hstate).2 time htime) hstep.1⟩
  · exact fun before event after _ hstep _ h => stampsBy_step hstep h

/-- A user who is synced, deactivated on day 21, and reactivated at the same time. -/
def reactivatedAtOnce : List LifecycleEvent :=
  [⟨{ inactivityDays := 20, warningDays := [] }, days 1, .syncUserDeactivationState⟩,
    ⟨{ inactivityDays := 20, warningDays := [] }, days 21, .deactivateUser⟩,
    ⟨{ inactivityDays := 20, warningDays := [] }, days 21, .reactivateUser⟩]

/-- The user is reactivated, and the state still has a current deactivation. -/
theorem not_bracketed_sameTime :
    ¬ ∀ (account : Account) (clock : Int) (events : List LifecycleEvent)
      (after : TimedAccount), account.state = none →
      Run TimedAccount.Step ⟨account, clock⟩ events after →
        Run (Guarded TimedAccount.Step fun before event _ => Bracketed before.account event)
          ⟨account, clock⟩ events after := by
  intro h
  have hrun := h idleAccount 0 reactivatedAtOnce _ rfl
    (.cons ⟨by decide, rfl⟩ (.cons ⟨by decide, rfl⟩ (.cons ⟨by decide, rfl⟩ (.nil _))))
  simp only [reactivatedAtOnce, Run.cons_iff, Run.nil_iff] at hrun
  obtain ⟨first, ⟨⟨-, rfl⟩, -⟩, second, ⟨⟨-, rfl⟩, -⟩, third, ⟨-, hbracketed⟩, -⟩ := hrun
  obtain ⟨-, state, hstate, hnot, -⟩ := hbracketed.1 rfl (by decide)
  obtain rfl := Option.some.inj hstate
  exact absurd hnot (by decide)

end Onadata.Proofs
