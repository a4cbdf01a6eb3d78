import Mathlib.Data.List.Dedup
import Mathlib.Data.List.Sort

/-!
# `Onadata.Apps.Main.UserDeactivation`: the inactive-account lifecycle

The operations of `apps/main/models/user_deactivation.py` and `record_user_activity` of
`apps/main/models/user_activity.py`, on one account: the user, the `UserActivity` row and
the `UserDeactivationState` row. No operation reads or writes the rows of another user.

A point in time is an `Int`, in microseconds, so that datetime arithmetic is integer
arithmetic. Each operation has one time `when`: the time it is given, or else the time at
which it runs.

Left out: the text of the warning email, the tokens and the object permissions that a
deactivation revokes, the tokens that a reactivation creates, and the reports. None of
them is read by the lifecycle.
-/

set_option autoImplicit false

namespace Onadata

/-- `timedelta(days=n)`. -/
def days (n : Int) : Int := n * 86400000000

/-- `PERMISSION_POLICY_REVOKE` and `PERMISSION_POLICY_PRESERVE`. -/
inductive PermissionPolicy
  | revoke
  | preserve
  deriving DecidableEq, Repr

/-- The settings the lifecycle reads. `get_deactivation_inactivity_days` raises
`ValueError` for a threshold that is not positive. -/
structure DeactivationSettings where
  inactivityDays : Int := 365
  inactivityDays_pos : 0 < inactivityDays := by decide
  warningDays : List Int := [30, 7]
  excludedUserIds : List Nat := []
  excludedUsernames : List String := []
  anonymousDefaultUsername : String := ""
  permissionPolicy : PermissionPolicy := .revoke
  activityTrackingMinIntervalSeconds : Int := 300
  deriving Repr

/-- `normalize_warning_days`: the positive offsets, each once, from the largest to the
smallest. -/
def normalizeWarningDays (offsets : List Int) : List Int :=
  ((offsets.filter fun n => 0 < n).dedup).insertionSort (· ≥ ·)

namespace DeactivationSettings

/-- `get_deactivation_warning_days`. -/
def getWarningDays (cfg : DeactivationSettings) : List Int :=
  normalizeWarningDays cfg.warningDays

/-- `get_deactivation_excluded_usernames`. -/
def getExcludedUsernames (cfg : DeactivationSettings) : List String :=
  (cfg.anonymousDefaultUsername :: cfg.excludedUsernames).filter fun name => name ≠ ""

end DeactivationSettings

/-- What the lifecycle reads of a user. `isOrganization` says that an
`OrganizationProfile` exists for the user. -/
structure LifecycleUser where
  pk : Nat
  username : String
  email : String
  isActive : Bool := true
  isStaff : Bool := false
  isSuperuser : Bool := false
  isOrganization : Bool := false
  deriving Repr

/-- A row of `UserDeactivationState`. -/
structure UserDeactivationState where
  deactivationScheduledAt : Option Int
  firstWarningSentAt : Option Int := none
  warnedOffsets : List Int := []
  deactivatedAt : Option Int := none
  reactivatedAt : Option Int := none
  permissionsRevokedAt : Option Int := none
  permissionPolicyApplied : Option PermissionPolicy := none
  deriving DecidableEq, Repr

namespace UserDeactivationState

/-- `clear_warning_state`. -/
def clearWarningState (state : UserDeactivationState) : UserDeactivationState :=
  { state with firstWarningSentAt := none, warnedOffsets := [] }

/-- `mark_warning_offsets_sent`. -/
def markWarningOffsetsSent (state : UserDeactivationState) (offsets : List Int)
    (when : Int) : UserDeactivationState :=
  { state with
      firstWarningSentAt := some (state.firstWarningSentAt.getD when)
      warnedOffsets := normalizeWarningDays (state.warnedOffsets ++ normalizeWarningDays offsets) }

/-- `_has_current_deactivation`. -/
def hasCurrentDeactivation (state : UserDeactivationState) : Bool :=
  match state.deactivatedAt, state.reactivatedAt with
  | none, _ => false
  | some _, none => true
  | some deactivatedAt, some reactivatedAt => reactivatedAt ≤ deactivatedAt

end UserDeactivationState

/-- One account: the user, `user.activity.last_activity` and the lifecycle state.
`initialLastActivity` is what `get_initial_last_activity` returns for the user. -/
structure Account where
  user : LifecycleUser
  initialLastActivity : Int
  lastActivity : Option Int := none
  state : Option UserDeactivationState := none
  deriving Repr

/-- `get_deactivation_exclusion_reason`; `none` stands for the empty string. -/
def getDeactivationExclusionReason (cfg : DeactivationSettings) (user : LifecycleUser) :
    Option String :=
  if !user.isActive then some "inactive"
  else if user.isStaff then some "staff"
  else if user.isSuperuser then some "superuser"
  else if user.isOrganization then some "organization"
  else if user.pk ∈ cfg.excludedUserIds then some "excluded_user_id"
  else if user.username ∈ cfg.getExcludedUsernames then some "excluded_username"
  else none

/-- `get_deactivation_scheduled_at` with `apply_warning_grace`. -/
def getDeactivationScheduledAt (cfg : DeactivationSettings) (lastActivity : Int)
    (applyWarningGrace : Bool) (when : Int) : Int :=
  let scheduledAt := lastActivity + days cfg.inactivityDays
  match applyWarningGrace, cfg.getWarningDays with
  | true, required :: _ => if scheduledAt ≤ when then when + days required else scheduledAt
  | _, _ => scheduledAt

/-- `get_effective_deactivation_scheduled_at`. -/
def getEffectiveDeactivationScheduledAt (cfg : DeactivationSettings)
    (state : UserDeactivationState) (when : Int) : Option Int :=
  match state.deactivationScheduledAt, cfg.getWarningDays with
  | none, _ => none
  | some scheduledAt, [] => some scheduledAt
  | some scheduledAt, required :: _ =>
      if required ∈ state.warnedOffsets then
        match state.firstWarningSentAt with
        | none => some scheduledAt
        | some firstWarningSentAt =>
            some (max scheduledAt (firstWarningSentAt + days required))
      else some (max scheduledAt (when + days required))

/-- The filter of `get_active_deactivation_states`. -/
def isActiveDeactivationState (cfg : DeactivationSettings) (user : LifecycleUser)
    (state : UserDeactivationState) : Bool :=
  (match state.deactivatedAt, state.reactivatedAt with
    | none, _ => true
    | some _, none => false
    | some deactivatedAt, some reactivatedAt => deactivatedAt < reactivatedAt)
  && user.isActive && !user.isStaff && !user.isSuperuser && !user.isOrganization
  && state.deactivationScheduledAt.isSome
  && user.pk ∉ cfg.excludedUserIds && user.username ∉ cfg.getExcludedUsernames

/-- The state is one of `get_deactivation_states_due_for_warning(offset_days, when)`. -/
def isDueForWarning (cfg : DeactivationSettings) (user : LifecycleUser)
    (state : UserDeactivationState) (offsetDays : Int) (when : Int) : Bool :=
  match state.deactivationScheduledAt with
  | none => false
  | some scheduledAt =>
      let inWindow := when < scheduledAt ∧ scheduledAt ≤ when + days offsetDays
      isActiveDeactivationState cfg user state && offsetDays ∉ state.warnedOffsets &&
        match cfg.getWarningDays with
        | [] => inWindow
        | required :: _ =>
            if offsetDays = required then decide (inWindow ∨ scheduledAt ≤ when)
            else required ∈ state.warnedOffsets && inWindow

/-- The state is one of `get_deactivation_states_due_for_deactivation(when)`. -/
def isDeactivationDue (cfg : DeactivationSettings) (user : LifecycleUser)
    (state : UserDeactivationState) (when : Int) : Bool :=
  match state.deactivationScheduledAt with
  | none => false
  | some scheduledAt =>
      isActiveDeactivationState cfg user state && scheduledAt ≤ when &&
        match cfg.getWarningDays with
        | [] => true
        | required :: _ =>
            (match state.firstWarningSentAt with
              | none => false
              | some firstWarningSentAt => firstWarningSentAt ≤ when - days required)
            && required ∈ state.warnedOffsets

/-- What `get_pending_deactivation_actions` plans for a state. -/
inductive PlannedAction
  | deactivate
  | sendWarning (warningOffsets : List Int)
  deriving DecidableEq, Repr

/-- The action `get_pending_deactivation_actions(when)` has for the state, if any: a due
deactivation goes before the warnings, and the due offsets are planned together. -/
def getPendingDeactivationAction (cfg : DeactivationSettings) (user : LifecycleUser)
    (state : UserDeactivationState) (when : Int) : Option PlannedAction :=
  if isDeactivationDue cfg user state when then some .deactivate
  else
    match cfg.getWarningDays.filter fun n => isDueForWarning cfg user state n when with
    | [] => none
    | offsets => some (.sendWarning (normalizeWarningDays offsets))

/-- `get_or_create_user_activity`. -/
def Account.getOrCreateUserActivity (account : Account) : Int :=
  account.lastActivity.getD account.initialLastActivity

/-- `sync_user_deactivation_state` at `when`. The `post_save` handler of a `UserActivity`
row that is created here runs the same function at the same time; the second run finds the
state up to date. -/
def Account.syncUserDeactivationState (cfg : DeactivationSettings) (account : Account)
    (when : Int) : Account :=
  let lastActivity := account.getOrCreateUserActivity
  let scheduledAt := getDeactivationScheduledAt cfg lastActivity true when
  let account := { account with lastActivity := some lastActivity }
  match account.state with
  | none => { account with state := some { deactivationScheduledAt := some scheduledAt } }
  | some state =>
      if state.deactivationScheduledAt = some scheduledAt then account
      else
        { account with
            state :=
              some { state.clearWarningState with deactivationScheduledAt := some scheduledAt } }

/-- `record_user_activity(user, when, force)` at the time `now`. `cacheAdded` is the result
of adding the throttle key to the cache: `none` when the cache fails. -/
def Account.recordUserActivity (cfg : DeactivationSettings) (account : Account)
    (when : Int) (force : Bool) (cacheAdded : Option Bool) (now : Int) : Account :=
  if !account.user.isActive then account
  else if !force && 0 < cfg.activityTrackingMinIntervalSeconds && cacheAdded = some false then
    account
  else
    match account.lastActivity with
    | none => { account with lastActivity := some when }.syncUserDeactivationState cfg now
    | some lastActivity =>
        let staleBefore := when - cfg.activityTrackingMinIntervalSeconds * 1000000
        if when ≤ lastActivity then account
        else if !force && staleBefore < lastActivity then account
        else { account with lastActivity := some when }.syncUserDeactivationState cfg now

/-- `_apply_required_warning_grace`: the state with the schedule moved if necessary, and
the offsets that remain due. -/
def applyRequiredWarningGrace (cfg : DeactivationSettings) (state : UserDeactivationState)
    (warningOffsets : List Int) (when : Int) : UserDeactivationState × List Int :=
  match cfg.getWarningDays with
  | [] => (state, warningOffsets)
  | required :: _ =>
      let warningOffsets := normalizeWarningDays warningOffsets
      if required ∉ warningOffsets then (state, warningOffsets)
      else
        let state :=
          match state.deactivationScheduledAt,
              getEffectiveDeactivationScheduledAt cfg state when with
          | some scheduledAt, some effective =>
              if scheduledAt < effective then
                { state with deactivationScheduledAt := some effective }
              else state
          | _, _ => state
        (state, warningOffsets.filter fun n =>
          match state.deactivationScheduledAt with
          | none => false
          | some scheduledAt => scheduledAt - days n ≤ when)

/-- `dispatch_deactivation_warning` of a plan with the given offsets. The result is the
account and the offsets of the warning, if one was sent. `dispatchSucceeds` is false when
`dispatch_func` raises, which rolls the transaction back. -/
def Account.dispatchDeactivationWarning (cfg : DeactivationSettings) (account : Account)
    (plannedOffsets : List Int) (dispatchSucceeds : Bool) (when : Int) :
    Account × Option (List Int) :=
  match account.state with
  | none => (account, none)
  | some state =>
      let warningOffsets := (normalizeWarningDays plannedOffsets).filter fun n =>
        isDueForWarning cfg account.user state n when
      if warningOffsets = [] ∨ account.user.email = "" then (account, none)
      else if !dispatchSucceeds then (account, none)
      else
        let (state, warningOffsets) :=
          applyRequiredWarningGrace cfg state warningOffsets when
        ({ account with state := some (state.markWarningOffsetsSent warningOffsets when) },
          some warningOffsets)

/-- The outcome of `deactivate_user`. -/
inductive DeactivationResult
  | deactivated
  | notDeactivated
  | excluded (reason : String)
  deriving DecidableEq, Repr

/-- `deactivate_user`. -/
def Account.deactivateUser (cfg : DeactivationSettings) (account : Account) (when : Int) :
    Account × DeactivationResult :=
  match account.state with
  | none => (account, .notDeactivated)
  | some state =>
      if state.hasCurrentDeactivation && !account.user.isActive then (account, .notDeactivated)
      else if !isDeactivationDue cfg account.user state when then (account, .notDeactivated)
      else
        match getDeactivationExclusionReason cfg account.user with
        | some reason => (account, .excluded reason)
        | none =>
            ({ account with
                user := { account.user with isActive := false }
                state :=
                  some { state with
                    deactivatedAt := some when
                    permissionsRevokedAt :=
                      if cfg.permissionPolicy = .revoke then some when else none
                    permissionPolicyApplied := some cfg.permissionPolicy } },
              .deactivated)

/-- `reactivate_user`, and whether it reactivated the user. -/
def Account.reactivateUser (cfg : DeactivationSettings) (account : Account) (when : Int) :
    Account × Bool :=
  match account.state with
  | none => (account, false)
  | some state =>
      if !state.hasCurrentDeactivation then (account, false)
      else
        -- The post_save handler of a created activity row syncs the state; the values it
        -- writes are replaced below.
        ({ account with
            user := { account.user with isActive := true }
            lastActivity := some when
            state :=
              some { state.clearWarningState with
                reactivatedAt := some when
                deactivationScheduledAt :=
                  some (getDeactivationScheduledAt cfg when false when) } },
          true)

/-! ### Runs of the lifecycle -/

/-- The operations on an account. `editUser` stands for any change of the user outside the
lifecycle, such as an administrator who sets `is_staff` or `is_active`. -/
inductive LifecycleOp
  | editUser (user : LifecycleUser)
  | recordUserActivity (when : Int) (force : Bool) (cacheAdded : Option Bool)
  | syncUserDeactivationState
  | getPendingDeactivationActions
  | dispatchDeactivationWarning (plannedOffsets : List Int) (dispatchSucceeds : Bool)
  | deactivateUser
  | reactivateUser
  deriving Repr

/-- An operation, the time at which it runs and the settings at that time. -/
structure LifecycleEvent where
  settings : DeactivationSettings
  time : Int
  op : LifecycleOp
  deriving Repr

/-- The account after the operation, and the offsets of the warning that was sent, if
any. -/
def Account.perform (account : Account) (event : LifecycleEvent) :
    Account × Option (List Int) :=
  match event.op with
  | .editUser user => ({ account with user := user }, none)
  | .recordUserActivity when force cacheAdded =>
      (account.recordUserActivity event.settings when force cacheAdded event.time, none)
  | .syncUserDeactivationState =>
      (account.syncUserDeactivationState event.settings event.time, none)
  | .getPendingDeactivationActions => (account, none)
  | .dispatchDeactivationWarning plannedOffsets dispatchSucceeds =>
      account.dispatchDeactivationWarning event.settings plannedOffsets dispatchSucceeds
        event.time
  | .deactivateUser => ((account.deactivateUser event.settings event.time).1, none)
  | .reactivateUser => ((account.reactivateUser event.settings event.time).1, none)

/-- A warning that was sent, with its time and its offsets. -/
structure SentWarning where
  sentAt : Int
  offsets : List Int
  deriving DecidableEq, Repr

/-- An account with the warnings sent since the last reset of its warning state. -/
structure WarnedAccount where
  account : Account
  warnings : List SentWarning := []
  deriving Repr

/-- The account has no recorded warning: the row is new, or `clear_warning_state` was the
last to write the warning state. -/
def Account.warningStateIsClear (account : Account) : Bool :=
  match account.state with
  | none => true
  | some state => state.firstWarningSentAt = none ∧ state.warnedOffsets = []

/-- One event of a run. A reset of the warning state starts the record of the sent
warnings again. -/
def WarnedAccount.step (run : WarnedAccount) (event : LifecycleEvent) : WarnedAccount :=
  let (account, sent) := run.account.perform event
  { account := account
    warnings :=
      if account.warningStateIsClear then []
      else run.warnings ++ (sent.map fun offsets => ⟨event.time, offsets⟩).toList }

end Onadata
