import Onadata.Apps.Main.UserDeactivation
import Onadata.Lib.PyDict

/-!
# `Onadata.Apps.Main.DeactivationPlan`: planning and execution over all accounts

`get_pending_deactivation_actions` of `apps/main/models/user_deactivation.py` on all rows of
`UserDeactivationState`, and the execution of the planned actions by
`perform_deactivation_action` and `dispatch_deactivation_warning`, as the commands
`deactivate_inactive_users` and `send_inactive_user_warnings` run them.

An account has one state at most, so that an action on a state is one on its account.
-/

set_option autoImplicit false

namespace Onadata

open Onadata.Lib

/-- An account with the primary key of its `UserDeactivationState`. -/
structure StoredAccount where
  statePk : Nat
  account : Account
  deriving Repr

/-- `DEACTIVATION_ACTION_DEACTIVATE` and `DEACTIVATION_ACTION_SEND_WARNING`. -/
inductive DeactivationAction
  | deactivate
  | sendWarning
  deriving DecidableEq, Repr

/-- `UserDeactivationActionPlan`. -/
structure UserDeactivationActionPlan where
  statePk : Nat
  action : DeactivationAction
  when : Int
  warningOffsets : List Int := []
  permissionPolicy : PermissionPolicy
  deriving DecidableEq, Repr

namespace StoredAccount

/-- The row is one of `get_deactivation_states_due_for_deactivation(when)`. -/
def dueForDeactivation (cfg : DeactivationSettings) (when : Int) (row : StoredAccount) : Bool :=
  row.account.state.any fun state => isDeactivationDue cfg row.account.user state when

/-- The row is one of `get_deactivation_states_due_for_warning(offset_days, when)`. -/
def dueForWarning (cfg : DeactivationSettings) (offsetDays when : Int) (row : StoredAccount) :
    Bool :=
  row.account.state.any fun state => isDueForWarning cfg row.account.user state offsetDays when

/-- The order of two rows by `("deactivation_scheduled_at", "user_id")`. -/
def scheduledBefore (row row' : StoredAccount) : Bool :=
  let scheduledAt := (row.account.state.bind (·.deactivationScheduledAt)).getD 0
  let scheduledAt' := (row'.account.state.bind (·.deactivationScheduledAt)).getD 0
  scheduledAt < scheduledAt' ||
    (scheduledAt = scheduledAt' && row.account.user.pk ≤ row'.account.user.pk)

end StoredAccount

/-- `queryset.order_by("deactivation_scheduled_at", "user_id")`. -/
def orderBySchedule (rows : List StoredAccount) : List StoredAccount :=
  rows.insertionSort fun row row' => row.scheduledBefore row'

/-- `actions_by_state_id`: the planned actions in the order of their states. -/
abbrev ActionsByStateId := List (Nat × UserDeactivationActionPlan)

/-- A deactivation is planned for the row. -/
def planDeactivation (cfg : DeactivationSettings) (when : Int) (actions : ActionsByStateId)
    (row : StoredAccount) : ActionsByStateId :=
  Dict.insert actions row.statePk
    { statePk := row.statePk
      action := .deactivate
      when := when
      permissionPolicy := cfg.permissionPolicy }

/-- A warning is planned for the row, with the offsets planned before. -/
def planWarning (cfg : DeactivationSettings) (when offsetDays : Int) (actions : ActionsByStateId)
    (row : StoredAccount) : ActionsByStateId :=
  match Dict.get? actions row.statePk with
  | none =>
      Dict.insert actions row.statePk
        { statePk := row.statePk
          action := .sendWarning
          when := when
          warningOffsets := [offsetDays]
          permissionPolicy := cfg.permissionPolicy }
  | some action =>
      Dict.insert actions row.statePk
        { action with
          warningOffsets := normalizeWarningDays (action.warningOffsets ++ [offsetDays]) }

/-- The rows that `warning_queryset` has for an offset. -/
def warningQueryset (cfg : DeactivationSettings) (rows : List StoredAccount)
    (deactivationStateIds : List Nat) (when offsetDays : Int) : List StoredAccount :=
  (orderBySchedule (rows.filter (StoredAccount.dueForWarning cfg offsetDays when))).filter
    fun row => row.statePk ∉ deactivationStateIds

/-- `actions_by_state_id` of `get_pending_deactivation_actions(when)`. -/
def actionsByStateId (cfg : DeactivationSettings) (rows : List StoredAccount) (when : Int) :
    ActionsByStateId :=
  let deactivations :=
    (orderBySchedule (rows.filter (StoredAccount.dueForDeactivation cfg when))).foldl
      (planDeactivation cfg when) []
  let deactivationStateIds := Dict.keys deactivations
  cfg.getWarningDays.foldl
    (fun actions offsetDays =>
      (warningQueryset cfg rows deactivationStateIds when offsetDays).foldl
        (planWarning cfg when offsetDays) actions)
    deactivations

/-- `get_pending_deactivation_actions(when)`. -/
def getPendingDeactivationActions (cfg : DeactivationSettings) (rows : List StoredAccount)
    (when : Int) : List UserDeactivationActionPlan :=
  (actionsByStateId cfg rows when).map (·.2)

/-! ### Execution -/

/-- What the execution of an action gives: the result of `deactivate_user`, or the offsets of
the warning, if one was sent. -/
inductive ActionResult
  | deactivation (result : DeactivationResult)
  | warning (sent : Option (List Int))
  deriving DecidableEq, Repr

/-- The execution of an action on the account of its state, with a dispatch function that does
not raise: `perform_deactivation_action(action, when)` or
`dispatch_deactivation_warning(action, dispatch_func, when)`. -/
def UserDeactivationActionPlan.executeOn (cfg : DeactivationSettings)
    (plan : UserDeactivationActionPlan) (when : Int) (account : Account) :
    Account × ActionResult :=
  match plan.action with
  | .deactivate =>
      let (account, result) := account.deactivateUser cfg when
      (account, .deactivation result)
  | .sendWarning =>
      let (account, sent) :=
        account.dispatchDeactivationWarning cfg plan.warningOffsets true when
      (account, .warning sent)

/-- The rows after the execution of an action, and what it gives. Without a row for the state,
`get` raises `DoesNotExist`. -/
def UserDeactivationActionPlan.execute (cfg : DeactivationSettings)
    (plan : UserDeactivationActionPlan) (when : Int) (rows : List StoredAccount) :
    Option (List StoredAccount × ActionResult) :=
  (rows.find? fun row => row.statePk = plan.statePk).map fun row =>
    let (account, result) := plan.executeOn cfg when row.account
    (rows.map fun other =>
      if other.statePk = plan.statePk then { other with account := account } else other, result)

/-- The rows after the execution of actions, one after the other. An action whose state does
not exist leaves the rows as they are. -/
def executeAll (cfg : DeactivationSettings) (when : Int) (rows : List StoredAccount)
    (plans : List UserDeactivationActionPlan) : List StoredAccount :=
  plans.foldl (fun rows plan => ((plan.execute cfg when rows).map (·.1)).getD rows) rows

end Onadata
