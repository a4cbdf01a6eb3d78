import Mathlib.Data.List.Induction
import Onadata.Apps.Main.DeactivationPlan
import Onadata.Proofs.Apps.Main.DeactivationWarnings

/-!
# `Onadata.Proofs.Apps.Main.PlannedActions`: the plan and its execution agree

`get_pending_deactivation_actions` collects the actions of all states in one dict, offset by
offset. `deactivate_user` and `dispatch_deactivation_warning` look at each state again.

* `mem_getPendingDeactivationActions_iff`: the plan has for each state the action that its
  account alone calls for.
* `deactivateUser_of_planned`, `dispatchDeactivationWarning_of_planned`: what a planned action
  does to its account, which calls for no action afterwards.
* `pendingActions_takeEffect`: the actions of a plan in any order.
-/

set_option autoImplicit false

namespace Onadata.Proofs

open Onadata.Lib

variable {cfg : DeactivationSettings} {when : Int}

/-! ### The offsets -/

theorem normalizeWarningDays_eq_self {offsets : List Int} (hsorted : offsets.Pairwise (· > ·))
    (hpos : ∀ n ∈ offsets, 0 < n) : normalizeWarningDays offsets = offsets := by
  have hfilter : offsets.filter (fun n => 0 < n) = offsets :=
    List.filter_eq_self.mpr fun n hn => decide_eq_true (hpos n hn)
  have hnodup : offsets.Nodup := hsorted.imp fun hlt => (ne_of_lt hlt).symm
  unfold normalizeWarningDays
  rw [hfilter, hnodup.dedup]
  exact List.Pairwise.insertionSort_eq (hsorted.imp le_of_lt)

theorem getWarningDays_sorted (cfg : DeactivationSettings) :
    cfg.getWarningDays.Pairwise (· > ·) := by
  have hsorted : cfg.getWarningDays.Pairwise (· ≥ ·) := List.pairwise_insertionSort _ _
  have hnodup : cfg.getWarningDays.Nodup :=
    (List.perm_insertionSort _ _).nodup_iff.mpr (List.nodup_dedup _)
  exact hsorted.imp₂ (fun _ _ hge hne => lt_of_le_of_ne hge hne.symm) hnodup

theorem getWarningDays_pos {n : Int} (h : n ∈ cfg.getWarningDays) : 0 < n :=
  ((mem_normalizeWarningDays _ _).mp h).2

/-- Without a due deactivation an account calls for a warning with all due offsets. -/
theorem getPendingDeactivationAction_of_not_due {user : LifecycleUser}
    {state : UserDeactivationState} (hdue : isDeactivationDue cfg user state when = false) :
    getPendingDeactivationAction cfg user state when =
      if (cfg.getWarningDays.filter fun n => isDueForWarning cfg user state n when) = [] then none
      else some (PlannedAction.sendWarning
        (cfg.getWarningDays.filter fun n => isDueForWarning cfg user state n when)) := by
  have hsub := List.filter_sublist
    (p := fun n => isDueForWarning cfg user state n when) (l := cfg.getWarningDays)
  have hself := normalizeWarningDays_eq_self ((getWarningDays_sorted cfg).sublist hsub)
    fun n hn => getWarningDays_pos (hsub.subset hn)
  unfold getPendingDeactivationAction
  rw [hdue, if_neg Bool.false_ne_true]
  split
  · rename_i heq
    rw [heq]
    rfl
  · rename_i hne
    rw [hself, if_neg hne]

/-! ### The plan -/

/-- The plan of a warning for the row with these offsets. -/
def sendWarningPlan (cfg : DeactivationSettings) (when : Int) (row : StoredAccount)
    (offsets : List Int) : UserDeactivationActionPlan :=
  { statePk := row.statePk
    action := .sendWarning
    when := when
    warningOffsets := offsets
    permissionPolicy := cfg.permissionPolicy }

/-- The plan of a warning for the row, with the offsets planned before. -/
def warningPlan (cfg : DeactivationSettings) (when offsetDays : Int)
    (planned : Option UserDeactivationActionPlan) (row : StoredAccount) :
    UserDeactivationActionPlan :=
  match planned with
  | none => sendWarningPlan cfg when row [offsetDays]
  | some action =>
      { action with
        warningOffsets := normalizeWarningDays (action.warningOffsets ++ [offsetDays]) }

/-- The plan of a deactivation of the row. -/
def deactivationPlan (cfg : DeactivationSettings) (when : Int) (row : StoredAccount) :
    UserDeactivationActionPlan :=
  { statePk := row.statePk
    action := .deactivate
    when := when
    permissionPolicy := cfg.permissionPolicy }

/-- The plan for the action that an account calls for. -/
def planFor (cfg : DeactivationSettings) (when : Int) (row : StoredAccount) :
    Option UserDeactivationActionPlan :=
  row.account.state.bind fun state =>
    match getPendingDeactivationAction cfg row.account.user state when with
    | none => none
    | some .deactivate => some (deactivationPlan cfg when row)
    | some (.sendWarning offsets) => some (sendWarningPlan cfg when row offsets)

theorem planWarning_eq (offsetDays : Int) (actions : ActionsByStateId) (row : StoredAccount) :
    planWarning cfg when offsetDays actions row =
      Dict.insert actions row.statePk
        (warningPlan cfg when offsetDays (Dict.get? actions row.statePk) row) := by
  unfold planWarning
  cases hget : Dict.get? actions row.statePk <;> rfl

/-- An ordered query has the rows of the query, each once. -/
theorem map_statePk_orderBySchedule {rows : List StoredAccount}
    (hpk : (rows.map StoredAccount.statePk).Nodup) (p : StoredAccount → Bool) :
    ((orderBySchedule (rows.filter p)).map StoredAccount.statePk).Nodup := by
  have hperm : (orderBySchedule (rows.filter p)).Perm (rows.filter p) :=
    List.perm_insertionSort _ _
  rw [(hperm.map _).nodup_iff]
  exact hpk.sublist (List.filter_sublist.map _)

theorem mem_orderBySchedule {rows : List StoredAccount} {p : StoredAccount → Bool}
    {row : StoredAccount} : row ∈ orderBySchedule (rows.filter p) ↔ row ∈ rows ∧ p row := by
  unfold orderBySchedule
  rw [List.mem_insertionSort, List.mem_filter]

section Plan

variable {rows : List StoredAccount}

/-- The deactivations that are planned. -/
def deactivations (cfg : DeactivationSettings) (when : Int) (rows : List StoredAccount) :
    ActionsByStateId :=
  (orderBySchedule (rows.filter (StoredAccount.dueForDeactivation cfg when))).foldl
    (planDeactivation cfg when) []

/-- The deactivation of a row is planned if it is due. -/
theorem get?_deactivations (cfg : DeactivationSettings) (when : Int)
    (hpk : (rows.map StoredAccount.statePk).Nodup) {row : StoredAccount} (hrow : row ∈ rows) :
    Dict.get? (deactivations cfg when rows) row.statePk =
      if row.dueForDeactivation cfg when then some (deactivationPlan cfg when row) else none := by
  have hnodup := map_statePk_orderBySchedule hpk (StoredAccount.dueForDeactivation cfg when)
  split
  · rename_i hdue
    exact Dict.get?_foldl_insert_of_mem StoredAccount.statePk
      (fun _ row => deactivationPlan cfg when row) [] hnodup (mem_orderBySchedule.mpr ⟨hrow, hdue⟩)
  · rename_i hdue
    refine Dict.get?_foldl_insert_of_notMem StoredAccount.statePk
      (fun _ row => deactivationPlan cfg when row) _ [] fun hmem => ?_
    obtain ⟨other, hother, heq⟩ := List.mem_map.mp hmem
    obtain ⟨hother, hdue'⟩ := mem_orderBySchedule.mp hother
    exact hdue (List.inj_on_of_nodup_map hpk hother hrow heq ▸ hdue')

/-- What one offset does to the plan for a row. -/
theorem get?_warnings (hpk : (rows.map StoredAccount.statePk).Nodup) {row : StoredAccount}
    (hrow : row ∈ rows) (ids : List Nat) (offsetDays : Int) (actions : ActionsByStateId) :
    Dict.get? ((warningQueryset cfg rows ids when offsetDays).foldl
        (planWarning cfg when offsetDays) actions) row.statePk =
      if row.dueForWarning cfg offsetDays when ∧ row.statePk ∉ ids then
        some (warningPlan cfg when offsetDays (Dict.get? actions row.statePk) row)
      else Dict.get? actions row.statePk := by
  have hnodup : ((warningQueryset cfg rows ids when offsetDays).map
      StoredAccount.statePk).Nodup :=
    (map_statePk_orderBySchedule hpk _).sublist (List.filter_sublist.map _)
  have hmem : ∀ {other}, other ∈ warningQueryset cfg rows ids when offsetDays ↔
      other ∈ rows ∧ other.dueForWarning cfg offsetDays when ∧ other.statePk ∉ ids := by
    intro other
    unfold warningQueryset
    rw [List.mem_filter, mem_orderBySchedule, decide_eq_true_eq, and_assoc]
  have hstep : planWarning cfg when offsetDays = fun actions row =>
      Dict.insert actions row.statePk
        (warningPlan cfg when offsetDays (Dict.get? actions row.statePk) row) := by
    funext actions row
    exact planWarning_eq offsetDays actions row
  rw [hstep]
  split
  · rename_i hdue
    exact Dict.get?_foldl_insert_of_mem StoredAccount.statePk _ actions hnodup
      (hmem.mpr ⟨hrow, hdue⟩)
  · rename_i hdue
    refine Dict.get?_foldl_insert_of_notMem StoredAccount.statePk _ _ actions fun hkey => ?_
    obtain ⟨other, hother, heq⟩ := List.mem_map.mp hkey
    obtain ⟨hother, hdue'⟩ := hmem.mp hother
    exact hdue (List.inj_on_of_nodup_map hpk hother hrow heq ▸ hdue')

end Plan

/-- The plan of a warning with these offsets, if there are any. -/
def warningPlanOf (cfg : DeactivationSettings) (when : Int) (row : StoredAccount)
    (offsets : List Int) : Option UserDeactivationActionPlan :=
  if offsets = [] then none
  else some (sendWarningPlan cfg when row offsets)

/-- One more offset goes behind the offsets that are planned. -/
theorem warningPlan_eq (row : StoredAccount) {offsets : List Int} {n : Int}
    (hsorted : (offsets ++ [n]).Pairwise (· > ·)) (hpos : ∀ m ∈ offsets ++ [n], 0 < m) :
    some (warningPlan cfg when n (warningPlanOf cfg when row offsets) row) =
      warningPlanOf cfg when row (offsets ++ [n]) := by
  have hnew : offsets ++ [n] ≠ [] := by simp
  unfold warningPlanOf
  rw [if_neg hnew]
  by_cases hempty : offsets = []
  · rw [if_pos hempty, hempty]
    rfl
  · rw [if_neg hempty]
    show some (sendWarningPlan cfg when row (normalizeWarningDays (offsets ++ [n]))) = _
    rw [normalizeWarningDays_eq_self hsorted hpos]

section Plan

variable {rows : List StoredAccount}

/-- The plan for a row after the loops over some offsets. A row without a planned deactivation
has the offsets that are due. -/
theorem get?_foldl_warnings (hpk : (rows.map StoredAccount.statePk).Nodup) {row : StoredAccount}
    (hrow : row ∈ rows) {ids : List Nat} (hids : row.statePk ∉ ids) {actions : ActionsByStateId}
    (hnone : Dict.get? actions row.statePk = none) {offsets : List Int}
    (hsorted : offsets.Pairwise (· > ·)) (hpos : ∀ n ∈ offsets, 0 < n) :
    Dict.get? (offsets.foldl (fun actions offsetDays =>
        (warningQueryset cfg rows ids when offsetDays).foldl (planWarning cfg when offsetDays)
          actions) actions) row.statePk =
      warningPlanOf cfg when row (offsets.filter fun n => row.dueForWarning cfg n when) := by
  induction offsets using List.reverseRecOn with
  | nil => exact hnone
  | append_singleton offsets n ih =>
      have hsorted' := (List.pairwise_append.mp hsorted).1
      have hpos' : ∀ m ∈ offsets, 0 < m := fun m hm => hpos m (List.mem_append_left _ hm)
      rw [List.foldl_append, List.foldl_cons, List.foldl_nil, get?_warnings hpk hrow,
        ih hsorted' hpos', List.filter_append, List.filter_singleton]
      by_cases hdue : row.dueForWarning cfg n when = true
      · rw [if_pos ⟨hdue, hids⟩, hdue]
        have hsub : (offsets.filter (fun n => row.dueForWarning cfg n when) ++ [n]).Sublist
            (offsets ++ [n]) := List.filter_sublist.append (List.Sublist.refl _)
        exact warningPlan_eq row (hsorted.sublist hsub) fun m hm => hpos m (hsub.subset hm)
      · rw [if_neg fun h => hdue h.1, Bool.not_eq_true _ |>.mp hdue]
        exact congrArg _ (List.append_nil _).symm

/-- A planned deactivation stays. -/
theorem get?_foldl_warnings_of_mem (hpk : (rows.map StoredAccount.statePk).Nodup)
    {row : StoredAccount} (hrow : row ∈ rows) {ids : List Nat} (hids : row.statePk ∈ ids)
    (actions : ActionsByStateId) (offsets : List Int) :
    Dict.get? (offsets.foldl (fun actions offsetDays =>
        (warningQueryset cfg rows ids when offsetDays).foldl (planWarning cfg when offsetDays)
          actions) actions) row.statePk = Dict.get? actions row.statePk := by
  induction offsets generalizing actions with
  | nil => rfl
  | cons n offsets ih =>
      rw [List.foldl_cons, ih, get?_warnings hpk hrow, if_neg fun h => h.2 hids]

/-- The plan has for a row the action that its account calls for. -/
theorem get?_actionsByStateId (hpk : (rows.map StoredAccount.statePk).Nodup)
    {row : StoredAccount} (hrow : row ∈ rows) :
    Dict.get? (actionsByStateId cfg rows when) row.statePk = planFor cfg when row := by
  have hfirst := get?_deactivations cfg when hpk hrow
  show Dict.get? (cfg.getWarningDays.foldl (fun actions offsetDays =>
      (warningQueryset cfg rows (Dict.keys (deactivations cfg when rows)) when offsetDays).foldl
        (planWarning cfg when offsetDays) actions) (deactivations cfg when rows)) row.statePk = _
  by_cases hdue : row.dueForDeactivation cfg when = true
  · rw [if_pos hdue] at hfirst
    have hids : row.statePk ∈ Dict.keys (deactivations cfg when rows) := by
      by_contra hnew
      rw [Dict.get?_eq_none.mpr hnew] at hfirst
      exact absurd hfirst (by simp)
    rw [get?_foldl_warnings_of_mem hpk hrow hids, hfirst]
    unfold StoredAccount.dueForDeactivation at hdue
    unfold planFor
    cases hstate : row.account.state with
    | none => simp [hstate] at hdue
    | some state =>
        have hdue : isDeactivationDue cfg row.account.user state when = true := by
          simpa [hstate] using hdue
        simp [getPendingDeactivationAction, hdue]
  · rw [if_neg hdue] at hfirst
    rw [get?_foldl_warnings hpk hrow (Dict.get?_eq_none.mp hfirst) hfirst
      (getWarningDays_sorted cfg) fun _ => getWarningDays_pos]
    unfold StoredAccount.dueForDeactivation at hdue
    unfold planFor
    cases hstate : row.account.state with
    | none =>
        have hfilter : (cfg.getWarningDays.filter fun n => row.dueForWarning cfg n when) = [] := by
          refine List.filter_eq_nil_iff.mpr fun n _ => ?_
          simp [StoredAccount.dueForWarning, hstate]
        rw [hfilter]
        rfl
    | some state =>
        have hdue : isDeactivationDue cfg row.account.user state when = false := by
          simpa [hstate] using hdue
        have hfilter : (cfg.getWarningDays.filter fun n => row.dueForWarning cfg n when) =
            cfg.getWarningDays.filter fun n =>
              isDueForWarning cfg row.account.user state n when := by
          refine List.filter_congr fun n _ => ?_
          simp [StoredAccount.dueForWarning, hstate]
        have hplan := getPendingDeactivationAction_of_not_due hdue
        rw [hfilter]
        simp only [Option.bind_some, hplan]
        unfold warningPlanOf
        by_cases hempty : (cfg.getWarningDays.filter fun n =>
            isDueForWarning cfg row.account.user state n when) = []
        · rw [if_pos hempty, if_pos hempty]
        · rw [if_neg hempty, if_neg hempty]

end Plan

/-- The plans stand under the primary keys of their states. -/
structure KeyedPlans (rows : List StoredAccount) (actions : ActionsByStateId) : Prop where
  keys_nodup : (Dict.keys actions).Nodup
  statePk : ∀ pk plan, Dict.get? actions pk = some plan →
    plan.statePk = pk ∧ ∃ row ∈ rows, row.statePk = pk

section Plan

variable {rows : List StoredAccount}

theorem KeyedPlans.nil (rows : List StoredAccount) : KeyedPlans rows [] where
  keys_nodup := List.nodup_nil
  statePk := fun _ _ hget => absurd hget (by simp [Dict.get?])

/-- One more plan. -/
theorem KeyedPlans.insert {actions : ActionsByStateId} (h : KeyedPlans rows actions)
    {row : StoredAccount} (hrow : row ∈ rows) {plan : UserDeactivationActionPlan}
    (hplan : plan.statePk = row.statePk) :
    KeyedPlans rows (Dict.insert actions row.statePk plan) where
  keys_nodup := Dict.nodup_keys_insert h.keys_nodup ..
  statePk := by
    intro pk plan' hget
    rw [Dict.get?_insert] at hget
    split at hget
    · rename_i heq
      rw [← Option.some.inj hget, heq]
      exact ⟨hplan, row, hrow, rfl⟩
    · exact h.statePk pk plan' hget

/-- A loop that adds plans. -/
theorem KeyedPlans.foldl {Item : Type} {step : ActionsByStateId → Item → ActionsByStateId}
    {items : List Item} {actions : ActionsByStateId} (h : KeyedPlans rows actions)
    (hstep : ∀ actions, ∀ item ∈ items, KeyedPlans rows actions →
      KeyedPlans rows (step actions item)) : KeyedPlans rows (items.foldl step actions) := by
  induction items generalizing actions with
  | nil => exact h
  | cons item items ih =>
      exact ih (hstep actions item List.mem_cons_self h) fun actions item hitem =>
        hstep actions item (List.mem_cons_of_mem _ hitem)

theorem keyedPlans_actionsByStateId (cfg : DeactivationSettings) (rows : List StoredAccount)
    (when : Int) : KeyedPlans rows (actionsByStateId cfg rows when) := by
  refine KeyedPlans.foldl ?_ fun actions n _ h => ?_
  · refine (KeyedPlans.nil rows).foldl fun actions row hrow h => ?_
    exact h.insert (mem_orderBySchedule.mp hrow).1 rfl
  · refine h.foldl fun actions row hrow h => ?_
    have hmem : row ∈ rows := (mem_orderBySchedule.mp (List.mem_filter.mp hrow).1).1
    rw [planWarning_eq]
    refine h.insert hmem ?_
    unfold warningPlan
    cases hget : Dict.get? actions row.statePk with
    | none => rfl
    | some action => exact (h.statePk _ _ hget).1

/-- The plan has the actions that the accounts call for. -/
theorem mem_getPendingDeactivationActions_iff (hpk : (rows.map StoredAccount.statePk).Nodup)
    (plan : UserDeactivationActionPlan) :
    plan ∈ getPendingDeactivationActions cfg rows when ↔
      ∃ row ∈ rows, planFor cfg when row = some plan := by
  have hkeyed := keyedPlans_actionsByStateId cfg rows when
  constructor
  · intro hplan
    obtain ⟨item, hitem, rfl⟩ := List.mem_map.mp hplan
    have hget := Dict.get?_of_mem hkeyed.keys_nodup hitem
    obtain ⟨-, row, hrow, hrowPk⟩ := hkeyed.statePk _ _ hget
    rw [← hrowPk, get?_actionsByStateId hpk hrow] at hget
    exact ⟨row, hrow, hget⟩
  · rintro ⟨row, hrow, hplan⟩
    rw [← get?_actionsByStateId hpk hrow] at hplan
    exact List.mem_map.mpr ⟨_, Dict.mem_of_get? hplan, rfl⟩

/-- No state has two actions. -/
theorem nodup_getPendingDeactivationActions (cfg : DeactivationSettings)
    (rows : List StoredAccount) (when : Int) :
    ((getPendingDeactivationActions cfg rows when).map
      UserDeactivationActionPlan.statePk).Nodup := by
  have hkeyed := keyedPlans_actionsByStateId cfg rows when
  have hkeys : (getPendingDeactivationActions cfg rows when).map
      UserDeactivationActionPlan.statePk = Dict.keys (actionsByStateId cfg rows when) := by
    unfold getPendingDeactivationActions Dict.keys
    rw [List.map_map]
    refine List.map_congr_left fun item hitem => ?_
    exact (hkeyed.statePk _ _ (Dict.get?_of_mem hkeyed.keys_nodup hitem)).1
  rw [hkeys]
  exact hkeyed.keys_nodup

theorem planFor_statePk {row : StoredAccount} {plan : UserDeactivationActionPlan}
    (hplan : planFor cfg when row = some plan) : plan.statePk = row.statePk := by
  unfold planFor at hplan
  obtain ⟨state, -, hplan⟩ := Option.bind_eq_some_iff.mp hplan
  split at hplan
  · simp at hplan
  · rw [← Option.some.inj hplan]
    rfl
  · rw [← Option.some.inj hplan]
    rfl

end Plan

/-! ### A planned deactivation -/

section Account

variable {user : LifecycleUser} {state : UserDeactivationState} {account : Account}

/-- The query excludes the users that the exclusion function excludes. -/
theorem getDeactivationExclusionReason_of_active
    (h : isActiveDeactivationState cfg user state = true) :
    user.isActive = true ∧ getDeactivationExclusionReason cfg user = none := by
  simp only [isActiveDeactivationState, Bool.and_eq_true, Bool.not_eq_true',
    decide_eq_true_eq] at h
  obtain ⟨⟨⟨⟨⟨⟨⟨-, hactive⟩, hstaff⟩, hsuper⟩, horg⟩, -⟩, hid⟩, hname⟩ := h
  refine ⟨hactive, ?_⟩
  simp only [getDeactivationExclusionReason, hactive, hstaff, hsuper, horg, Bool.not_true,
    Bool.false_eq_true, if_false, if_neg hid, if_neg hname]

theorem isActive_of_isDeactivationDue (h : isDeactivationDue cfg user state when = true) :
    isActiveDeactivationState cfg user state = true := by
  unfold isDeactivationDue at h
  split at h
  · simp at h
  · simp only [Bool.and_eq_true] at h
    exact h.1.1

theorem isActive_of_isDueForWarning {n : Int}
    (h : isDueForWarning cfg user state n when = true) :
    isActiveDeactivationState cfg user state = true := by
  unfold isDueForWarning at h
  split at h
  · simp at h
  · simp only [Bool.and_eq_true] at h
    exact h.1.1

/-- An account whose state is not active calls for no action. -/
theorem getPendingDeactivationAction_of_inactive
    (h : isActiveDeactivationState cfg user state = false) :
    getPendingDeactivationAction cfg user state when = none := by
  have hdue : isDeactivationDue cfg user state when = false := by
    by_contra hdue
    rw [isActive_of_isDeactivationDue (Bool.not_eq_false _ |>.mp hdue)] at h
    exact absurd h (by simp)
  have hwarnings : (cfg.getWarningDays.filter fun n => isDueForWarning cfg user state n when) =
      [] := by
    refine List.filter_eq_nil_iff.mpr fun n _ hn => ?_
    rw [isActive_of_isDueForWarning hn] at h
    exact absurd h (by simp)
  rw [getPendingDeactivationAction_of_not_due hdue, if_pos hwarnings]

/-- A planned deactivation deactivates the user, and the account calls for no action then. -/
theorem deactivateUser_of_planned (hstate : account.state = some state)
    (hplan : getPendingDeactivationAction cfg account.user state when = some .deactivate) :
    (account.deactivateUser cfg when).2 = .deactivated ∧
      ∀ state', (account.deactivateUser cfg when).1.state = some state' →
        getPendingDeactivationAction cfg (account.deactivateUser cfg when).1.user state' when =
          none := by
  have hdue : isDeactivationDue cfg account.user state when = true := by
    by_contra hdue
    rw [getPendingDeactivationAction_of_not_due (Bool.not_eq_true _ |>.mp hdue)] at hplan
    split at hplan <;> simp at hplan
  obtain ⟨hactive, hreason⟩ :=
    getDeactivationExclusionReason_of_active (isActive_of_isDeactivationDue hdue)
  simp only [Account.deactivateUser, hstate, hactive, hdue, hreason, Bool.not_true,
    Bool.and_false, Bool.false_eq_true, if_false]
  refine ⟨trivial, fun state' _ => getPendingDeactivationAction_of_inactive ?_⟩
  simp [isActiveDeactivationState]

/-! ### A planned warning -/

/-- What an account that calls for a warning is due for. -/
theorem due_of_planned_warning {offsets : List Int}
    (hplan : getPendingDeactivationAction cfg user state when = some (.sendWarning offsets)) :
    isDeactivationDue cfg user state when = false ∧ offsets ≠ [] ∧
      offsets = cfg.getWarningDays.filter fun n => isDueForWarning cfg user state n when := by
  have hdue : isDeactivationDue cfg user state when = false := by
    by_contra hdue
    rw [getPendingDeactivationAction, if_pos (Bool.not_eq_false _ |>.mp hdue)] at hplan
    simp at hplan
  rw [getPendingDeactivationAction_of_not_due hdue] at hplan
  split at hplan
  · simp at hplan
  · rename_i hne
    have heq := PlannedAction.sendWarning.inj (Option.some.inj hplan)
    exact ⟨hdue, heq ▸ hne, heq.symm⟩

end Account

section Account

variable {user : LifecycleUser} {state : UserDeactivationState} {account : Account}

/-- What is due for a warning, when the largest offset is `d`. -/
theorem isDueForWarning_iff {d n : Int} {rest : List Int} {scheduledAt : Int}
    (hcfg : cfg.getWarningDays = d :: rest)
    (hscheduled : state.deactivationScheduledAt = some scheduledAt) :
    isDueForWarning cfg user state n when = true ↔
      isActiveDeactivationState cfg user state = true ∧ n ∉ state.warnedOffsets ∧
        if n = d then (when < scheduledAt ∧ scheduledAt ≤ when + days n) ∨ scheduledAt ≤ when
        else d ∈ state.warnedOffsets ∧ when < scheduledAt ∧ scheduledAt ≤ when + days n := by
  simp only [isDueForWarning, hscheduled, hcfg, Bool.and_eq_true, decide_eq_true_eq, and_assoc]
  split
  · simp
  · simp

/-- The state calls for no action when nothing is due. -/
theorem getPendingDeactivationAction_eq_none {scheduledAt : Int}
    (hscheduled : state.deactivationScheduledAt = some scheduledAt) (hlater : when < scheduledAt)
    (hwarnings : ∀ n ∈ cfg.getWarningDays, isDueForWarning cfg user state n when = false) :
    getPendingDeactivationAction cfg user state when = none := by
  have hdue : isDeactivationDue cfg user state when = false := by
    simp only [isDeactivationDue, hscheduled]
    simp [hlater]
  rw [getPendingDeactivationAction_of_not_due hdue, if_pos]
  exact List.filter_eq_nil_iff.mpr fun n hn h => absurd (hwarnings n hn) (by simp [h])

/-- A schedule that is due for a warning. -/
theorem exists_scheduledAt {n : Int} (h : isDueForWarning cfg user state n when = true) :
    ∃ scheduledAt, state.deactivationScheduledAt = some scheduledAt := by
  cases hscheduled : state.deactivationScheduledAt with
  | none => simp [isDueForWarning, hscheduled] at h
  | some scheduledAt => exact ⟨scheduledAt, rfl⟩

/-- `n` days are fewer than `d` days. -/
theorem days_lt {n d : Int} (h : n < d) : days n < days d := by
  unfold days
  omega

/-- Warnings with smaller offsets: the largest one was warned before, and all due offsets are
marked. -/
theorem none_planned_of_marked {d : Int} {rest offsets : List Int} {scheduledAt : Int}
    (hcfg : cfg.getWarningDays = d :: rest)
    (hscheduled : state.deactivationScheduledAt = some scheduledAt)
    (hoffsets : offsets = cfg.getWarningDays.filter fun n =>
      isDueForWarning cfg user state n when)
    (hne : offsets ≠ []) (hd : d ∉ offsets) :
    getPendingDeactivationAction cfg user (state.markWarningOffsetsSent offsets when) when =
      none := by
  obtain ⟨n, hn⟩ := List.exists_mem_of_ne_nil _ hne
  have hdueN : isDueForWarning cfg user state n when = true := by
    rw [hoffsets] at hn
    exact (List.mem_filter.mp hn).2
  have hnd : n ≠ d := fun heq => hd (heq ▸ hn)
  obtain ⟨hactive, -, hwindow⟩ := (isDueForWarning_iff hcfg hscheduled).mp hdueN
  rw [if_neg hnd] at hwindow
  obtain ⟨hwarned, hlater, -⟩ := hwindow
  have hmarked : ∀ m, m ∈ (state.markWarningOffsetsSent offsets when).warnedOffsets ↔
      (m ∈ state.warnedOffsets ∨ m ∈ offsets ∧ 0 < m) ∧ 0 < m := by
    intro m
    simp [UserDeactivationState.markWarningOffsetsSent]
  have hscheduled' :
      (state.markWarningOffsetsSent offsets when).deactivationScheduledAt = some scheduledAt :=
    hscheduled
  refine getPendingDeactivationAction_eq_none hscheduled' hlater fun m hm => ?_
  have hpos : 0 < m := getWarningDays_pos hm
  by_contra hdue
  rw [Bool.not_eq_false] at hdue
  obtain ⟨-, hnew, hwindow'⟩ := (isDueForWarning_iff hcfg hscheduled').mp hdue
  rw [hmarked, not_and_or, not_or] at hnew
  obtain ⟨hnew, hnewOffset⟩ := hnew.resolve_right (not_not.mpr hpos)
  -- An offset that is still due was due before, and so is marked.
  by_cases hmd : m = d
  · exact hnew (hmd ▸ hwarned)
  · rw [if_neg hmd] at hwindow'
    refine hnewOffset ⟨?_, hpos⟩
    rw [hoffsets]
    refine List.mem_filter.mpr ⟨hm, (isDueForWarning_iff hcfg hscheduled).mpr ⟨hactive, hnew, ?_⟩⟩
    rw [if_neg hmd]
    exact ⟨hwarned, hwindow'.2⟩

end Account

section Account

variable {user : LifecycleUser} {state : UserDeactivationState} {account : Account}

/-- The grace rule for the largest offset, when the schedule is no later: it is moved to exactly
that many days from now. -/
theorem applyRequiredWarningGrace_singleton (when : Int) {d : Int} {rest : List Int}
    {scheduledAt : Int}
    (hcfg : cfg.getWarningDays = d :: rest)
    (hscheduled : state.deactivationScheduledAt = some scheduledAt)
    (hle : scheduledAt ≤ when + days d) (hwarned : d ∉ state.warnedOffsets) :
    ∃ state', applyRequiredWarningGrace cfg state [d] when = (state', [d]) ∧
      state'.deactivationScheduledAt = some (when + days d) := by
  have hdays : d ∈ cfg.getWarningDays := hcfg ▸ List.mem_cons_self
  have hpos : 0 < d := getWarningDays_pos hdays
  have heffective : getEffectiveDeactivationScheduledAt cfg state when
      = some (max scheduledAt (when + days d)) := by
    simp [getEffectiveDeactivationScheduledAt, hscheduled, hcfg, hwarned]
  have hnormal : normalizeWarningDays [d] = [d] :=
    normalizeWarningDays_eq_self (List.pairwise_singleton _ _) (by simpa using hpos)
  rw [max_eq_right hle] at heffective
  by_cases hmoved : scheduledAt < when + days d
  · refine ⟨{ state with deactivationScheduledAt := some (when + days d) }, ?_, rfl⟩
    simp [applyRequiredWarningGrace, hcfg, hnormal, heffective, hscheduled, hmoved]
  · have heq : scheduledAt = when + days d := by omega
    refine ⟨state, ?_, heq ▸ hscheduled⟩
    simp [applyRequiredWarningGrace, hcfg, hnormal, heffective, hscheduled, heq]

/-- A warning with the largest offset: it is the only one that is due, and the grace rule moves
the schedule so far that nothing is due after it. -/
theorem none_planned_of_required {d : Int} {rest offsets : List Int} {scheduledAt : Int}
    (hcfg : cfg.getWarningDays = d :: rest)
    (hscheduled : state.deactivationScheduledAt = some scheduledAt)
    (hoffsets : offsets = cfg.getWarningDays.filter fun n =>
      isDueForWarning cfg user state n when)
    (hd : d ∈ offsets) :
    offsets = [d] ∧ (applyRequiredWarningGrace cfg state offsets when).2 = [d] ∧
      getPendingDeactivationAction cfg user
        ((applyRequiredWarningGrace cfg state offsets when).1.markWarningOffsetsSent [d] when)
        when = none := by
  have hdays : d ∈ cfg.getWarningDays := hcfg ▸ List.mem_cons_self
  have hpos : 0 < d := getWarningDays_pos hdays
  have hdaysPos := days_pos hpos
  have hdueD : isDueForWarning cfg user state d when = true := by
    rw [hoffsets] at hd
    exact (List.mem_filter.mp hd).2
  obtain ⟨-, hwarned, hwindow⟩ := (isDueForWarning_iff hcfg hscheduled).mp hdueD
  rw [if_pos rfl] at hwindow
  have hle : scheduledAt ≤ when + days d := by omega
  have hall : ∀ n ∈ offsets, n = d := by
    intro n hn
    rw [hoffsets] at hn
    exact (isDueForWarning_of_not_warned cfg user state d n rest when hcfg hpos hwarned
      (List.mem_filter.mp hn).2).1
  have hsorted : offsets.Pairwise (· > ·) :=
    hoffsets ▸ (getWarningDays_sorted cfg).sublist List.filter_sublist
  have honly : offsets = [d] := by
    cases offsets with
    | nil => exact absurd hd List.not_mem_nil
    | cons first others =>
        obtain ⟨rfl, hothers⟩ := List.forall_mem_cons.mp hall
        cases others with
        | nil => rfl
        | cons second others =>
            have hlt : first > second := List.rel_of_pairwise_cons hsorted List.mem_cons_self
            rw [hothers second List.mem_cons_self] at hlt
            exact absurd hlt (lt_irrefl first)
  subst honly
  obtain ⟨state', happly, hscheduled'⟩ := applyRequiredWarningGrace_singleton when hcfg hscheduled
    hle hwarned
  rw [happly]
  have hmarked : (state'.markWarningOffsetsSent [d] when).deactivationScheduledAt =
      some (when + days d) := hscheduled'
  refine ⟨rfl, rfl, getPendingDeactivationAction_eq_none hmarked (by omega) fun n hn => ?_⟩
  by_contra hdue
  rw [Bool.not_eq_false] at hdue
  obtain ⟨-, hnew, hwindow'⟩ := (isDueForWarning_iff hcfg hmarked).mp hdue
  by_cases hnd : n = d
  · refine hnew ?_
    simp [UserDeactivationState.markWarningOffsetsSent, hnd, hpos]
  · -- A smaller offset is not reached, for the schedule is `d` days away.
    rw [if_neg hnd] at hwindow'
    have hlt : n < d := by
      have hsortedDays := getWarningDays_sorted cfg
      rw [hcfg] at hn hsortedDays
      exact List.rel_of_pairwise_cons hsortedDays ((List.mem_cons.mp hn).resolve_left hnd)
    have hless := days_lt hlt
    omega

end Account

section Account

variable {user : LifecycleUser} {state : UserDeactivationState} {account : Account}

/-- A planned warning is sent and marked with all its offsets, if the user has an email. The
account calls for no action then. -/
theorem dispatchDeactivationWarning_of_planned {offsets : List Int}
    (hstate : account.state = some state)
    (hplan : getPendingDeactivationAction cfg account.user state when =
      some (.sendWarning offsets)) (hemail : account.user.email ≠ "") :
    ∃ state', account.dispatchDeactivationWarning cfg offsets true when =
        ({ account with state := some state' }, some offsets) ∧
      (∀ n ∈ offsets, n ∈ state'.warnedOffsets) ∧
      getPendingDeactivationAction cfg account.user state' when = none := by
  obtain ⟨-, hne, hoffsets⟩ := due_of_planned_warning hplan
  obtain ⟨n, hn⟩ := List.exists_mem_of_ne_nil _ hne
  have hplanned : ∀ m ∈ offsets, m ∈ cfg.getWarningDays ∧
      isDueForWarning cfg account.user state m when = true := by
    rw [hoffsets]
    exact fun m hm => List.mem_filter.mp hm
  have hpos : ∀ m ∈ offsets, 0 < m := fun m hm => getWarningDays_pos (hplanned m hm).1
  have hsorted : offsets.Pairwise (· > ·) :=
    hoffsets ▸ (getWarningDays_sorted cfg).sublist List.filter_sublist
  have hnormal := normalizeWarningDays_eq_self hsorted hpos
  -- The execution finds the same offsets due.
  have hdue : (normalizeWarningDays offsets).filter
      (fun n => isDueForWarning cfg account.user state n when) = offsets := by
    rw [hnormal]
    exact List.filter_eq_self.mpr fun m hm => (hplanned m hm).2
  have hsend : account.dispatchDeactivationWarning cfg offsets true when =
      ({ account with
          state := some ((applyRequiredWarningGrace cfg state offsets when).1.markWarningOffsetsSent
            (applyRequiredWarningGrace cfg state offsets when).2 when) },
        some (applyRequiredWarningGrace cfg state offsets when).2) := by
    simp [Account.dispatchDeactivationWarning, hstate, hdue, hne, hemail]
  have hmarked : ∀ (state : UserDeactivationState), ∀ m ∈ offsets,
      m ∈ (state.markWarningOffsetsSent offsets when).warnedOffsets := by
    intro state m hm
    simp [UserDeactivationState.markWarningOffsetsSent, hm, hpos m hm]
  obtain ⟨scheduledAt, hscheduled⟩ := exists_scheduledAt (hplanned n hn).2
  cases hcfg : cfg.getWarningDays with
  | nil => exact absurd (hplanned n hn).1 (by simp [hcfg])
  | cons d rest =>
      by_cases hd : d ∈ offsets
      · obtain ⟨honly, hgrace, hnone⟩ := none_planned_of_required hcfg hscheduled hoffsets hd
        rw [hgrace] at hsend
        refine ⟨_, honly ▸ hsend, ?_, hnone⟩
        rw [← honly]
        exact hmarked _
      · have hgrace : applyRequiredWarningGrace cfg state offsets when = (state, offsets) := by
          simp [applyRequiredWarningGrace, hcfg, hnormal, hd]
        rw [hgrace] at hsend
        exact ⟨_, hsend, hmarked _, none_planned_of_marked hcfg hscheduled hoffsets hne hd⟩

/-- Without an email a warning is not sent, and the account stays as it is. -/
theorem dispatchDeactivationWarning_of_no_email (offsets : List Int)
    (hemail : account.user.email = "") :
    account.dispatchDeactivationWarning cfg offsets true when = (account, none) := by
  unfold Account.dispatchDeactivationWarning
  cases hstate : account.state with
  | none => rfl
  | some state => simp [hemail]

end Account

/-! ### The execution of all actions -/

/-- A row after the execution of an action: the action is on one state. -/
def executedRow (cfg : DeactivationSettings) (when : Int) (row : StoredAccount)
    (plan : UserDeactivationActionPlan) : StoredAccount :=
  if row.statePk = plan.statePk then
    { row with account := (plan.executeOn cfg when row.account).1 }
  else row

section Execution

variable {rows : List StoredAccount}

theorem executedRow_statePk (row : StoredAccount) (plan : UserDeactivationActionPlan) :
    (executedRow cfg when row plan).statePk = row.statePk := by
  unfold executedRow
  split <;> rfl

/-- An action finds the row of its state. -/
theorem execute_eq (hpk : (rows.map StoredAccount.statePk).Nodup) {row : StoredAccount}
    (hrow : row ∈ rows) {plan : UserDeactivationActionPlan} (hplan : plan.statePk = row.statePk) :
    plan.execute cfg when rows =
      some (rows.map fun row => executedRow cfg when row plan,
        (plan.executeOn cfg when row.account).2) := by
  have hsame : ∀ other ∈ rows, other.statePk = plan.statePk → other = row :=
    fun other hother heq => List.inj_on_of_nodup_map hpk hother hrow (heq.trans hplan)
  have hfind : rows.find? (fun row => row.statePk = plan.statePk) = some row := by
    cases hfound : rows.find? (fun row => row.statePk = plan.statePk) with
    | none => exact absurd (List.find?_eq_none.mp hfound row hrow) (by simp [hplan])
    | some found =>
        have heq : found.statePk = plan.statePk := by simpa using List.find?_some hfound
        rw [hsame found (List.mem_of_find?_eq_some hfound) heq]
  unfold UserDeactivationActionPlan.execute
  rw [hfind]
  show some (rows.map _, _) = some (rows.map _, _)
  congr 2
  refine List.map_congr_left fun other hother => ?_
  unfold executedRow
  split
  · rename_i heq
    rw [hsame other hother heq]
    rfl
  · rfl

/-- Each row has the executions of its own actions. -/
theorem executeAll_eq (hpk : (rows.map StoredAccount.statePk).Nodup)
    (plans : List UserDeactivationActionPlan) :
    executeAll cfg when rows plans =
      rows.map fun row => plans.foldl (executedRow cfg when) row := by
  induction plans generalizing rows with
  | nil => exact (List.map_id rows).symm
  | cons plan plans ih =>
      have hstep : ((plan.execute cfg when rows).map (·.1)).getD rows =
          rows.map fun row => executedRow cfg when row plan := by
        by_cases hrow : ∃ row ∈ rows, row.statePk = plan.statePk
        · obtain ⟨row, hrow, heq⟩ := hrow
          rw [execute_eq hpk hrow heq.symm]
          rfl
        · have hnone : rows.find? (fun row => row.statePk = plan.statePk) = none := by
            refine List.find?_eq_none.mpr fun row hrow' heq => ?_
            exact hrow ⟨row, hrow', by simpa using heq⟩
          unfold UserDeactivationActionPlan.execute
          rw [hnone]
          refine (List.map_id rows).symm.trans (List.map_congr_left fun row hrow' => ?_)
          unfold executedRow
          rw [if_neg fun heq => hrow ⟨row, hrow', heq⟩]
          rfl
      have hpk' : ((rows.map fun row => executedRow cfg when row plan).map
          StoredAccount.statePk).Nodup := by
        rw [List.map_map]
        exact (List.map_congr_left fun row _ => executedRow_statePk row plan) ▸ hpk
      show executeAll cfg when (((plan.execute cfg when rows).map (·.1)).getD rows) plans = _
      rw [hstep, ih hpk', List.map_map]
      rfl

theorem foldl_executedRow_statePk (row : StoredAccount)
    (plans : List UserDeactivationActionPlan) :
    (plans.foldl (executedRow cfg when) row).statePk = row.statePk := by
  induction plans generalizing row with
  | nil => rfl
  | cons plan plans ih => rw [List.foldl_cons, ih, executedRow_statePk]

theorem executeAll_statePk (hpk : (rows.map StoredAccount.statePk).Nodup)
    (plans : List UserDeactivationActionPlan) :
    ((executeAll cfg when rows plans).map StoredAccount.statePk) =
      rows.map StoredAccount.statePk := by
  rw [executeAll_eq hpk, List.map_map]
  exact List.map_congr_left fun row _ => foldl_executedRow_statePk row plans

/-- Actions on other states leave a row as it is. -/
theorem foldl_executedRow_of_ne {row : StoredAccount} {plans : List UserDeactivationActionPlan}
    (hne : ∀ plan ∈ plans, plan.statePk ≠ row.statePk) :
    plans.foldl (executedRow cfg when) row = row := by
  induction plans with
  | nil => rfl
  | cons plan plans ih =>
      obtain ⟨hplan, hplans⟩ := List.forall_mem_cons.mp hne
      have hsame : executedRow cfg when row plan = row := if_neg (Ne.symm hplan)
      rw [List.foldl_cons, hsame, ih hplans]

/-- With one action for each state, a row has the execution of its action. -/
theorem foldl_executedRow_of_mem {row : StoredAccount} {plans : List UserDeactivationActionPlan}
    (hnodup : (plans.map UserDeactivationActionPlan.statePk).Nodup)
    {plan : UserDeactivationActionPlan} (hmem : plan ∈ plans)
    (hplan : plan.statePk = row.statePk) :
    plans.foldl (executedRow cfg when) row = executedRow cfg when row plan := by
  obtain ⟨before, after, rfl⟩ := List.append_of_mem hmem
  rw [List.map_append, List.map_cons, List.nodup_append, List.nodup_cons] at hnodup
  obtain ⟨-, ⟨hafter, -⟩, hbefore⟩ := hnodup
  have hfirst : before.foldl (executedRow cfg when) row = row := by
    refine foldl_executedRow_of_ne fun other hother heq => ?_
    exact hbefore _ (List.mem_map_of_mem hother) _ List.mem_cons_self (heq.trans hplan.symm)
  have hlast : after.foldl (executedRow cfg when) (executedRow cfg when row plan) =
      executedRow cfg when row plan := by
    refine foldl_executedRow_of_ne fun other hother heq => ?_
    rw [executedRow_statePk, ← hplan] at heq
    exact hafter (heq ▸ List.mem_map_of_mem hother)
  rw [List.foldl_append, List.foldl_cons, hfirst, hlast]

end Execution

/-! ### The main theorem -/

/-- A row whose account calls for no action has no plan. -/
theorem planFor_eq_none {row : StoredAccount}
    (h : ∀ state, row.account.state = some state →
      getPendingDeactivationAction cfg row.account.user state when = none) :
    planFor cfg when row = none := by
  unfold planFor
  cases hstate : row.account.state with
  | none => rfl
  | some state => simp only [Option.bind_some, h state hstate]

/-- What the plan of a row does to it. -/
theorem executeOn_of_planned {row : StoredAccount} {plan : UserDeactivationActionPlan}
    (hplan : planFor cfg when row = some plan) :
    (plan.action = .deactivate ∧
      (plan.executeOn cfg when row.account).2 = .deactivation .deactivated ∧
      planFor cfg when (executedRow cfg when row plan) = none) ∨
    plan.action = .sendWarning ∧
      ((row.account.user.email = "" ∧
        plan.executeOn cfg when row.account = (row.account, .warning none)) ∨
      (row.account.user.email ≠ "" ∧
        (plan.executeOn cfg when row.account).2 = .warning (some plan.warningOffsets) ∧
        (∃ state', (plan.executeOn cfg when row.account).1.state = some state' ∧
          ∀ n ∈ plan.warningOffsets, n ∈ state'.warnedOffsets) ∧
        planFor cfg when (executedRow cfg when row plan) = none)) := by
  have hpk := planFor_statePk hplan
  have hrow : executedRow cfg when row plan =
      { row with account := (plan.executeOn cfg when row.account).1 } := if_pos hpk.symm
  rw [hrow]
  unfold planFor at hplan
  obtain ⟨state, hstate, hplan⟩ := Option.bind_eq_some_iff.mp hplan
  split at hplan
  · simp at hplan
  · rename_i hpending
    obtain rfl := Option.some.inj hplan
    obtain ⟨hresult, hnone⟩ := deactivateUser_of_planned hstate hpending
    exact Or.inl ⟨rfl, congrArg ActionResult.deactivation hresult, planFor_eq_none hnone⟩
  · rename_i offsets hpending
    obtain rfl := Option.some.inj hplan
    refine Or.inr ⟨rfl, ?_⟩
    by_cases hemail : row.account.user.email = ""
    · refine Or.inl ⟨hemail, ?_⟩
      simp only [UserDeactivationActionPlan.executeOn, sendWarningPlan,
        dispatchDeactivationWarning_of_no_email offsets hemail]
    · obtain ⟨state', hsend, hmarked, hnone⟩ :=
        dispatchDeactivationWarning_of_planned hstate hpending hemail
      have hexecute : (sendWarningPlan cfg when row offsets).executeOn cfg when row.account =
          ({ row.account with state := some state' }, .warning (some offsets)) := by
        simp only [UserDeactivationActionPlan.executeOn, sendWarningPlan, hsend]
      rw [hexecute]
      refine Or.inr ⟨hemail, rfl, ⟨state', rfl, hmarked⟩, planFor_eq_none fun other hother => ?_⟩
      obtain rfl := Option.some.inj hother
      exact hnone

/-- The actions of a plan, executed in any order. No state has two; each deactivation
deactivates its user; each warning to a user with an email is sent with its offsets, which are
marked, and a warning to a user without an email changes nothing; and a second plan has no action
for a state whose user was deactivated or warned. -/
theorem pendingActions_takeEffect (cfg : DeactivationSettings) (rows : List StoredAccount)
    (hpk : (rows.map StoredAccount.statePk).Nodup) (when : Int)
    (order : List UserDeactivationActionPlan)
    (horder : order.Perm (getPendingDeactivationActions cfg rows when)) :
    (order.map UserDeactivationActionPlan.statePk).Nodup ∧
    (∀ before plan after, order = before ++ plan :: after →
      ∃ row ∈ rows, row.statePk = plan.statePk ∧ ∃ rows' result,
        plan.execute cfg when (executeAll cfg when rows before) = some (rows', result) ∧
        (plan.action = .deactivate → result = .deactivation .deactivated) ∧
        (plan.action = .sendWarning → row.account.user.email ≠ "" →
          result = .warning (some plan.warningOffsets) ∧
          ∃ row' ∈ rows', row'.statePk = plan.statePk ∧ ∃ state',
            row'.account.state = some state' ∧
            ∀ n ∈ plan.warningOffsets, n ∈ state'.warnedOffsets) ∧
        (plan.action = .sendWarning → row.account.user.email = "" →
          result = .warning none ∧ rows' = executeAll cfg when rows before)) ∧
    ∀ plan ∈ order,
      (plan.action = .deactivate ∨
        ∃ row ∈ rows, row.statePk = plan.statePk ∧ row.account.user.email ≠ "") →
      ∀ again ∈ getPendingDeactivationActions cfg (executeAll cfg when rows order) when,
        again.statePk ≠ plan.statePk := by
  have hnodup : (order.map UserDeactivationActionPlan.statePk).Nodup :=
    ((horder.map _).nodup_iff).mpr (nodup_getPendingDeactivationActions cfg rows when)
  have hplanned : ∀ plan ∈ order, ∃ row ∈ rows, planFor cfg when row = some plan :=
    fun plan hmem => (mem_getPendingDeactivationActions_iff hpk plan).mp (horder.mem_iff.mp hmem)
  refine ⟨hnodup, ?_, ?_⟩
  · rintro before plan after rfl
    obtain ⟨row, hrow, hplan⟩ := hplanned plan (by simp)
    have hplanPk := planFor_statePk hplan
    -- The actions before are on other states.
    have hbefore : before.foldl (executedRow cfg when) row = row := by
      rw [List.map_append, List.map_cons, List.nodup_append] at hnodup
      refine foldl_executedRow_of_ne fun other hother heq => ?_
      exact hnodup.2.2 _ (List.mem_map_of_mem hother) _ List.mem_cons_self
        (heq.trans hplanPk.symm)
    have hrow' : row ∈ executeAll cfg when rows before := by
      rw [executeAll_eq hpk]
      exact List.mem_map.mpr ⟨row, hrow, hbefore⟩
    have hpk' : ((executeAll cfg when rows before).map StoredAccount.statePk).Nodup := by
      rw [executeAll_statePk hpk]
      exact hpk
    refine ⟨row, hrow, hplanPk.symm, _, _, execute_eq hpk' hrow' hplanPk, ?_⟩
    rcases executeOn_of_planned hplan with
      ⟨haction, hresult, -⟩ | ⟨haction, ⟨hemail, hsame⟩ | ⟨hemail, hresult, hmarked, -⟩⟩
    · exact ⟨fun _ => hresult, fun h => absurd (haction.symm.trans h) (by decide),
        fun h => absurd (haction.symm.trans h) (by decide)⟩
    · refine ⟨fun h => absurd (haction.symm.trans h) (by decide), fun _ h => absurd hemail h,
        fun _ _ => ⟨by rw [hsame], ?_⟩⟩
      refine (List.map_congr_left fun other hother => ?_).trans (List.map_id _)
      unfold executedRow
      split
      · rename_i heq
        have hother : other = row :=
          List.inj_on_of_nodup_map hpk' hother hrow' (heq.trans hplanPk)
        rw [hother, hsame]
        rfl
      · rfl
    · refine ⟨fun h => absurd (haction.symm.trans h) (by decide), fun _ _ => ⟨hresult, ?_⟩,
        fun _ h => absurd h hemail⟩
      refine ⟨executedRow cfg when row plan, List.mem_map_of_mem hrow', ?_, ?_⟩
      · rw [executedRow_statePk, hplanPk]
      · unfold executedRow
        rw [if_pos hplanPk.symm]
        exact hmarked
  · intro plan hmem heffect again hagain heq
    obtain ⟨row, hrow, hplan⟩ := hplanned plan hmem
    have hpk' : ((executeAll cfg when rows order).map StoredAccount.statePk).Nodup := by
      rw [executeAll_statePk hpk]
      exact hpk
    obtain ⟨row', hrow', hagain⟩ := (mem_getPendingDeactivationActions_iff hpk' again).mp hagain
    rw [executeAll_eq hpk] at hrow'
    obtain ⟨other, hother, rfl⟩ := List.mem_map.mp hrow'
    have hsame : ∀ other ∈ rows, other.statePk = plan.statePk → other = row :=
      fun other hother heq => List.inj_on_of_nodup_map hpk hother hrow
        (heq.trans (planFor_statePk hplan))
    -- The second plan is for the same row, after the execution of its action.
    have hother : other = row := by
      refine hsame other hother ?_
      rw [← heq, planFor_statePk hagain, foldl_executedRow_statePk]
    rw [hother, foldl_executedRow_of_mem hnodup hmem (planFor_statePk hplan)] at hagain
    rcases executeOn_of_planned hplan with
      ⟨-, -, hnone⟩ | ⟨haction, ⟨hemail, -⟩ | ⟨-, -, -, hnone⟩⟩
    · exact absurd (hnone.symm.trans hagain) (by simp)
    · rcases heffect with hdeactivate | ⟨other', hother', heq', hemail'⟩
      · exact absurd (haction.symm.trans hdeactivate) (by decide)
      · exact hemail' (hsame other' hother' heq' ▸ hemail)
    · exact absurd (hnone.symm.trans hagain) (by simp)

/-- An account that is due for a deactivation, one that is due for a warning, and one that is due
for a warning and has no email. -/
def dueAccounts : List StoredAccount :=
  [{ statePk := 1
     account :=
      { user := { pk := 11, username := "ann", email := "ann@example.com" }
        initialLastActivity := 0
        state := some
          { deactivationScheduledAt := some 0
            firstWarningSentAt := some (days (-30))
            warnedOffsets := [30] } } },
   { statePk := 2
     account :=
      { user := { pk := 12, username := "bob", email := "bob@example.com" }
        initialLastActivity := 0
        state := some { deactivationScheduledAt := some (days 5) } } },
   { statePk := 3
     account :=
      { user := { pk := 13, username := "cid", email := "" }
        initialLastActivity := 0
        state := some { deactivationScheduledAt := some (days 5) } } }]

/-- The plan for the three accounts, and no action again for the first one. -/
theorem pendingActions_takeEffect_due :
    (getPendingDeactivationActions {} dueAccounts 0).map (fun plan => (plan.statePk, plan.action)) =
      [(1, .deactivate), (2, .sendWarning), (3, .sendWarning)] ∧
    ∀ plan ∈ getPendingDeactivationActions {} dueAccounts 0, plan.action = .deactivate →
      ∀ again ∈ getPendingDeactivationActions {}
          (executeAll {} 0 dueAccounts (getPendingDeactivationActions {} dueAccounts 0)) 0,
        again.statePk ≠ plan.statePk := by
  have hpk : (dueAccounts.map StoredAccount.statePk).Nodup := by decide
  obtain ⟨-, -, hagain⟩ := pendingActions_takeEffect {} dueAccounts hpk 0
    (getPendingDeactivationActions {} dueAccounts 0) (List.Perm.refl _)
  exact ⟨by decide, fun plan hplan haction => hagain plan hplan (Or.inl haction)⟩

/-- The warning to a user without an email is planned again. -/
theorem not_all_executed_dropped :
    ¬ ∀ (cfg : DeactivationSettings) (rows : List StoredAccount) (when : Int),
      (rows.map StoredAccount.statePk).Nodup →
      ∀ plan ∈ getPendingDeactivationActions cfg rows when,
        plan ∉ getPendingDeactivationActions cfg
          (executeAll cfg when rows (getPendingDeactivationActions cfg rows when)) when := by
  intro h
  have hpk : (dueAccounts.map StoredAccount.statePk).Nodup := by decide
  let plan : UserDeactivationActionPlan :=
    { statePk := 3
      action := .sendWarning
      when := 0
      warningOffsets := [30]
      permissionPolicy := .revoke }
  have hplan : plan ∈ getPendingDeactivationActions {} dueAccounts 0 := by decide
  refine h {} dueAccounts 0 hpk plan hplan ?_
  decide

end Onadata.Proofs
