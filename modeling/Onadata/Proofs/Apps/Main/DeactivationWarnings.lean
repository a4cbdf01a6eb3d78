import Mathlib.Data.List.Sort
import Mathlib.Order.Bounds.Basic
import Mathlib.Tactic.Common
import Onadata.Apps.Main.UserDeactivation

/-!
# `Onadata.Proofs.Apps.Main.DeactivationWarnings`: a deactivation follows a due warning

`deactivateUser` reads the schedule, the time of the first warning and the warned offsets.
These are written by `syncUserDeactivationState`, `dispatchDeactivationWarning` and
`reactivateUser`, in any order. The module relates them to the warnings that were really
sent since the last reset.

* `WarnedFromLog`: the invariant. The recorded time of the first warning is the time of a
  sent warning that carried the largest offset.
* `warnedFromLog_step`: every operation keeps the invariant.
* `deactivateUser_after_warning`: a run deactivates a user only when the schedule is
  reached, the user is not excluded and the largest offset was sent early enough.
-/

set_option autoImplicit false

namespace Onadata.Proofs

/-! ### The warning offsets -/

/-- `normalizeWarningDays` keeps the positive offsets. -/
@[simp]
theorem mem_normalizeWarningDays (offsets : List Int) (n : Int) :
    n ∈ normalizeWarningDays offsets ↔ n ∈ offsets ∧ 0 < n := by
  simp [normalizeWarningDays]

/-- The first of the normalized offsets is the largest one. -/
theorem normalizeWarningDays_eq_cons (offsets : List Int) (d : Int)
    (hd : IsGreatest {n | n ∈ offsets} d) (hpos : 0 < d) :
    ∃ rest, normalizeWarningDays offsets = d :: rest := by
  have hmem : d ∈ normalizeWarningDays offsets := by
    rw [mem_normalizeWarningDays]
    exact ⟨hd.1, hpos⟩
  have hsorted : (normalizeWarningDays offsets).Pairwise (· ≥ ·) :=
    List.pairwise_insertionSort _ _
  rcases hoffsets : normalizeWarningDays offsets with _ | ⟨first, rest⟩
  · simp [hoffsets] at hmem
  · rw [hoffsets] at hmem hsorted
    have hfirst : first ∈ normalizeWarningDays offsets := by
      rw [hoffsets]
      exact List.mem_cons_self
    have hle : first ≤ d := hd.2 ((mem_normalizeWarningDays _ _).mp hfirst).1
    have hge : d ≤ first := by
      rcases List.mem_cons.mp hmem with rfl | hrest
      · exact Int.le_refl d
      · exact List.rel_of_pairwise_cons hsorted hrest
    exact ⟨rest, by rw [Int.le_antisymm hle hge]⟩

/-- A positive number of days is a positive time. -/
theorem days_pos {n : Int} (h : 0 < n) : 0 < days n := by
  simp only [days]
  omega

/-! ### What the operations do to the warning state -/

/-- `after` records the same warnings as `before`. -/
def SameWarnings (before after : UserDeactivationState) : Prop :=
  after.firstWarningSentAt = before.firstWarningSentAt ∧
    after.warnedOffsets = before.warnedOffsets

/-- The warning state is reset. -/
def IsClear (state : UserDeactivationState) : Prop :=
  state.firstWarningSentAt = none ∧ state.warnedOffsets = []

/-- The operation from `before` to `after` sends no warning: the state after it has no
recorded warning, or records the warnings of the state before. -/
def KeepsOrClears (before after : Account) : Prop :=
  ∀ state', after.state = some state' →
    IsClear state' ∨ ∃ state, before.state = some state ∧ SameWarnings state state'

/-- An operation that leaves the state as it is. -/
theorem keepsOrClears_of_state_eq {before after : Account}
    (h : after.state = before.state) : KeepsOrClears before after := by
  intro state' hstate
  exact Or.inr ⟨state', h ▸ hstate, rfl, rfl⟩

/-- `syncUserDeactivationState` sends no warning. -/
theorem keepsOrClears_syncUserDeactivationState (cfg : DeactivationSettings)
    (account : Account) (when : Int) :
    KeepsOrClears account (account.syncUserDeactivationState cfg when) := by
  intro state' hstate
  rcases hbefore : account.state with _ | state
  · left
    simp only [Account.syncUserDeactivationState, hbefore, Option.some.injEq] at hstate
    subst hstate
    exact ⟨rfl, rfl⟩
  · simp only [Account.syncUserDeactivationState, hbefore] at hstate
    split at hstate
    · -- The stored schedule is up to date.
      right
      simp only [Option.some.injEq] at hstate
      exact ⟨state, rfl, hstate ▸ ⟨rfl, rfl⟩⟩
    · left
      simp only [Option.some.injEq] at hstate
      subst hstate
      exact ⟨rfl, rfl⟩

/-- `recordUserActivity` changes nothing, or writes the activity and syncs the state. -/
theorem recordUserActivity_cases (cfg : DeactivationSettings) (account : Account)
    (when : Int) (force : Bool) (cacheAdded : Option Bool) (now : Int) :
    account.recordUserActivity cfg when force cacheAdded now = account ∨
    account.recordUserActivity cfg when force cacheAdded now =
      { account with lastActivity := some when }.syncUserDeactivationState cfg now := by
  simp only [Account.recordUserActivity]
  split
  · exact Or.inl rfl
  · split
    · exact Or.inl rfl
    · split
      · exact Or.inr rfl
      · split
        · exact Or.inl rfl
        · split
          · exact Or.inl rfl
          · exact Or.inr rfl

/-- `recordUserActivity` sends no warning. -/
theorem keepsOrClears_recordUserActivity (cfg : DeactivationSettings) (account : Account)
    (when : Int) (force : Bool) (cacheAdded : Option Bool) (now : Int) :
    KeepsOrClears account (account.recordUserActivity cfg when force cacheAdded now) := by
  rcases recordUserActivity_cases cfg account when force cacheAdded now with h | h
  · rw [h]
    exact keepsOrClears_of_state_eq rfl
  · rw [h]
    exact keepsOrClears_syncUserDeactivationState cfg _ now

/-- What `deactivateUser` does when it makes an active user inactive, and that it leaves
the account as it is when it does not deactivate. -/
theorem deactivateUser_cases (cfg : DeactivationSettings) (account : Account) (when : Int) :
    (account.deactivateUser cfg when).1 = account ∨
    ∃ state state', account.state = some state ∧
      isDeactivationDue cfg account.user state when = true ∧
      getDeactivationExclusionReason cfg account.user = none ∧
      SameWarnings state state' ∧
      (account.deactivateUser cfg when).1.state = some state' := by
  rcases hstate : account.state with _ | state
  · left
    simp [Account.deactivateUser, hstate]
  · simp only [Account.deactivateUser, hstate]
    split
    · exact Or.inl rfl
    · split
      · exact Or.inl rfl
      · rename_i hdue
        split
        · exact Or.inl rfl
        · rename_i hreason
          refine Or.inr ⟨state, _, rfl, ?_, hreason, ?_, rfl⟩
          · simpa using hdue
          · exact ⟨rfl, rfl⟩

/-- `deactivateUser` sends no warning. -/
theorem keepsOrClears_deactivateUser (cfg : DeactivationSettings) (account : Account)
    (when : Int) : KeepsOrClears account (account.deactivateUser cfg when).1 := by
  rcases deactivateUser_cases cfg account when with h | ⟨state, state', hstate, -, -, hsame, h⟩
  · rw [h]
    exact keepsOrClears_of_state_eq rfl
  · intro state'' hstate''
    rw [h] at hstate''
    obtain rfl : state' = state'' := Option.some.inj hstate''
    exact Or.inr ⟨state, hstate, hsame⟩

/-- `reactivateUser` sends no warning. -/
theorem keepsOrClears_reactivateUser (cfg : DeactivationSettings) (account : Account)
    (when : Int) : KeepsOrClears account (account.reactivateUser cfg when).1 := by
  rcases hstate : account.state with _ | state
  · exact keepsOrClears_of_state_eq (by simp [Account.reactivateUser, hstate])
  · simp only [Account.reactivateUser, hstate]
    split
    · exact keepsOrClears_of_state_eq rfl
    · intro state' hstate'
      left
      simp only [Option.some.injEq] at hstate'
      subst hstate'
      exact ⟨rfl, rfl⟩

/-! ### A sent warning -/

/-- While the largest offset has not been warned, only that offset can be due, and the
schedule is at most that many days away. -/
theorem isDueForWarning_of_not_warned (cfg : DeactivationSettings) (user : LifecycleUser)
    (state : UserDeactivationState) (d n : Int) (rest : List Int) (when : Int)
    (hcfg : cfg.getWarningDays = d :: rest) (hpos : 0 < d) (hwarned : d ∉ state.warnedOffsets)
    (hdue : isDueForWarning cfg user state n when = true) :
    n = d ∧ ∃ scheduledAt, state.deactivationScheduledAt = some scheduledAt ∧
      scheduledAt ≤ when + days d := by
  have hdays := days_pos hpos
  rcases hscheduled : state.deactivationScheduledAt with _ | scheduledAt
  · simp [isDueForWarning, hscheduled] at hdue
  · simp only [isDueForWarning, hscheduled, hcfg] at hdue
    by_cases hn : n = d
    · subst hn
      simp only [if_true, Bool.and_eq_true, decide_eq_true_eq] at hdue
      refine ⟨rfl, scheduledAt, rfl, ?_⟩
      omega
    · simp [hn, hwarned] at hdue

/-- The grace rule keeps the largest offset when it is due and not warned: the schedule is
moved to exactly that many days from now. -/
theorem mem_applyRequiredWarningGrace (cfg : DeactivationSettings)
    (state : UserDeactivationState) (d : Int) (rest offsets : List Int) (scheduledAt when : Int)
    (hcfg : cfg.getWarningDays = d :: rest) (hpos : 0 < d)
    (hscheduled : state.deactivationScheduledAt = some scheduledAt)
    (hle : scheduledAt ≤ when + days d) (hwarned : d ∉ state.warnedOffsets) (hd : d ∈ offsets) :
    d ∈ (applyRequiredWarningGrace cfg state offsets when).2 := by
  have heffective : getEffectiveDeactivationScheduledAt cfg state when
      = some (max scheduledAt (when + days d)) := by
    simp [getEffectiveDeactivationScheduledAt, hscheduled, hcfg, hwarned]
  have hmem : d ∈ normalizeWarningDays offsets := by simp [hd, hpos]
  simp only [applyRequiredWarningGrace, hcfg, hmem, not_true_eq_false, if_false,
    heffective, hscheduled]
  refine List.mem_filter.mpr ⟨hmem, ?_⟩
  by_cases hmoved : scheduledAt < max scheduledAt (when + days d)
  · simp only [if_pos hmoved, decide_eq_true_eq]
    omega
  · simp only [if_neg hmoved, hscheduled, decide_eq_true_eq]
    omega

/-- `applyRequiredWarningGrace` moves the schedule and nothing else. -/
theorem sameWarnings_applyRequiredWarningGrace (cfg : DeactivationSettings)
    (state : UserDeactivationState) (offsets : List Int) (when : Int) :
    SameWarnings state (applyRequiredWarningGrace cfg state offsets when).1 := by
  simp only [applyRequiredWarningGrace]
  split
  · exact ⟨rfl, rfl⟩
  · split
    · exact ⟨rfl, rfl⟩
    · dsimp only
      split
      · split <;> exact ⟨rfl, rfl⟩
      · exact ⟨rfl, rfl⟩

/-- `dispatchDeactivationWarning` leaves the account as it is and sends nothing, or sends
a warning and marks it. The first warning since a reset carries the largest offset. -/
theorem dispatchDeactivationWarning_cases (cfg : DeactivationSettings) (account : Account)
    (plannedOffsets : List Int) (dispatchSucceeds : Bool) (when : Int) (d : Int)
    (rest : List Int) (hcfg : cfg.getWarningDays = d :: rest) (hpos : 0 < d) :
    account.dispatchDeactivationWarning cfg plannedOffsets dispatchSucceeds when
      = (account, none) ∨
    ∃ state state' offsets, account.state = some state ∧ SameWarnings state state' ∧
      account.dispatchDeactivationWarning cfg plannedOffsets dispatchSucceeds when
        = ({ account with state := some (state'.markWarningOffsetsSent offsets when) },
            some offsets) ∧
      (d ∉ state.warnedOffsets → d ∈ offsets) := by
  rcases hstate : account.state with _ | state
  · exact Or.inl (by simp [Account.dispatchDeactivationWarning, hstate])
  · simp only [Account.dispatchDeactivationWarning, hstate]
    split
    · exact Or.inl rfl
    · rename_i hsend
      split
      · exact Or.inl rfl
      · refine Or.inr ⟨state, _, _, rfl,
          sameWarnings_applyRequiredWarningGrace cfg state _ when, rfl, fun hwarned => ?_⟩
        -- Some offset is due, and the only one that can be is `d`.
        obtain ⟨n, hn⟩ := List.exists_mem_of_ne_nil _ (not_or.mp hsend).1
        have hdue := (List.mem_filter.mp hn).2
        obtain ⟨rfl, scheduledAt, hscheduled, hle⟩ :=
          isDueForWarning_of_not_warned cfg account.user state d n rest when hcfg hpos hwarned
            hdue
        exact mem_applyRequiredWarningGrace cfg state n rest _ scheduledAt when hcfg hpos
          hscheduled hle hwarned hn

/-! ### The invariant -/

/-- The recorded warnings are those of the sent ones: without a first warning the offset
`d` is not recorded, and otherwise a warning with `d` was sent at the time of the first
warning. -/
def WarnedFromLog (d : Int) (run : WarnedAccount) : Prop :=
  ∀ state, run.account.state = some state →
    (state.firstWarningSentAt = none → d ∉ state.warnedOffsets) ∧
    ∀ sentAt, state.firstWarningSentAt = some sentAt →
      ∃ warning ∈ run.warnings, warning.sentAt = sentAt ∧ d ∈ warning.offsets

/-- An operation that sends no warning keeps the invariant. -/
theorem warnedFromLog_of_keepsOrClears (d : Int) (run run' : WarnedAccount)
    (hinv : WarnedFromLog d run) (hkeeps : KeepsOrClears run.account run'.account)
    (hwarnings : run'.warnings =
      if run'.account.warningStateIsClear then [] else run.warnings) :
    WarnedFromLog d run' := by
  intro state' hstate'
  rcases hkeeps state' hstate' with hclear | ⟨state, hstate, hfirst, hoffsets⟩
  · rw [hclear.1, hclear.2]
    simp
  · obtain ⟨hnone, hsome⟩ := hinv state hstate
    rw [hfirst, hoffsets]
    refine ⟨hnone, fun sentAt hsent => ?_⟩
    have hnotClear : run'.account.warningStateIsClear = false := by
      simp [Account.warningStateIsClear, hstate', hfirst, hsent]
    rw [hwarnings, hnotClear]
    exact hsome sentAt hsent

/-- Every operation keeps the invariant. -/
theorem warnedFromLog_step (d : Int) (rest : List Int) (hpos : 0 < d) (run : WarnedAccount)
    (event : LifecycleEvent) (hcfg : event.settings.getWarningDays = d :: rest)
    (hinv : WarnedFromLog d run) : WarnedFromLog d (run.step event) := by
  have hquiet : ∀ after, run.account.perform event = (after, none) →
      KeepsOrClears run.account after → WarnedFromLog d (run.step event) := by
    intro after hperform hkeeps
    refine warnedFromLog_of_keepsOrClears d run _ hinv ?_ ?_
    · simpa [WarnedAccount.step, hperform] using hkeeps
    · simp [WarnedAccount.step, hperform]
  rcases event with ⟨cfg, when, op⟩
  cases op with
  | editUser user => exact hquiet _ rfl (keepsOrClears_of_state_eq rfl)
  | recordUserActivity lastActivity force cacheAdded =>
      exact hquiet _ rfl (keepsOrClears_recordUserActivity cfg _ _ _ _ _)
  | syncUserDeactivationState =>
      exact hquiet _ rfl (keepsOrClears_syncUserDeactivationState cfg _ _)
  | getPendingDeactivationActions => exact hquiet _ rfl (keepsOrClears_of_state_eq rfl)
  | deactivateUser => exact hquiet _ rfl (keepsOrClears_deactivateUser cfg _ _)
  | reactivateUser => exact hquiet _ rfl (keepsOrClears_reactivateUser cfg _ _)
  | dispatchDeactivationWarning plannedOffsets dispatchSucceeds =>
      rcases dispatchDeactivationWarning_cases cfg run.account plannedOffsets
          dispatchSucceeds when d rest hcfg hpos with
        h | ⟨state, state', offsets, hstate, ⟨hfirst, hoffsets⟩, h, hd⟩
      · exact hquiet _ h (keepsOrClears_of_state_eq rfl)
      · obtain ⟨hnone, hsome⟩ := hinv state hstate
        intro state'' hstate''
        simp only [WarnedAccount.step, Account.perform, h, Option.some.injEq] at hstate''
        subst hstate''
        refine ⟨by simp [UserDeactivationState.markWarningOffsetsSent], fun sentAt hsent => ?_⟩
        simp only [WarnedAccount.step, Account.perform, h, Account.warningStateIsClear,
          UserDeactivationState.markWarningOffsetsSent, reduceCtorEq, false_and,
          decide_false, Bool.false_eq_true, if_false, Option.map_some, Option.toList_some,
          List.mem_append, List.mem_singleton]
        simp only [UserDeactivationState.markWarningOffsetsSent, Option.some.injEq, hfirst]
          at hsent
        rcases hwarned : state.firstWarningSentAt with _ | first
        · -- The first warning since the last reset: this one, and it carries `d`.
          rw [hwarned, Option.getD_none] at hsent
          exact ⟨⟨when, offsets⟩, Or.inr rfl, hsent, hd (hnone hwarned)⟩
        · -- The time of the first warning is kept, and so is its record.
          rw [hwarned, Option.getD_some] at hsent
          obtain ⟨warning, hmem, hat, hwd⟩ := hsome first hwarned
          exact ⟨warning, Or.inl hmem, hat.trans hsent, hwd⟩

/-- A due deactivation has reached its schedule, and the first warning was recorded, with
the largest offset, at least that many days ago. -/
theorem isDeactivationDue_warned (cfg : DeactivationSettings) (user : LifecycleUser)
    (state : UserDeactivationState) (when : Int) (d : Int) (rest : List Int)
    (hcfg : cfg.getWarningDays = d :: rest)
    (hdue : isDeactivationDue cfg user state when = true) :
    ∃ scheduledAt first, state.deactivationScheduledAt = some scheduledAt ∧
      scheduledAt ≤ when ∧ state.firstWarningSentAt = some first ∧
      first + days d ≤ when := by
  rcases hscheduled : state.deactivationScheduledAt with _ | scheduledAt
  · simp [isDeactivationDue, hscheduled] at hdue
  · rcases hfirst : state.firstWarningSentAt with _ | first
    · simp [isDeactivationDue, hscheduled, hcfg, hfirst] at hdue
    · simp only [isDeactivationDue, hscheduled, hcfg, hfirst, Bool.and_eq_true,
        decide_eq_true_eq] at hdue
      refine ⟨scheduledAt, first, rfl, hdue.1.2, rfl, ?_⟩
      omega

/-- In every run from an account without lifecycle state, with fixed warning offsets of
which `d` is the largest, `deactivateUser` makes an active user inactive at `when` only if
the stored schedule is at or before `when`, the user is not excluded, and a warning that
carried `d` was sent at or before `d` days before `when`, since the last reset. -/
theorem deactivateUser_after_warning (offsets : List Int) (d : Int)
    (hd : IsGreatest {n | n ∈ offsets} d) (hpos : 0 < d) (account : Account)
    (hstart : account.state = none) (events : List LifecycleEvent)
    (hsettings : ∀ event ∈ events, event.settings.warningDays = offsets)
    (run : WarnedAccount) (hrun : run = events.foldl WarnedAccount.step ⟨account, []⟩)
    (cfg : DeactivationSettings) (hcfg : cfg.warningDays = offsets) (when : Int)
    (hactive : run.account.user.isActive = true)
    (hinactive : (run.account.deactivateUser cfg when).1.user.isActive = false) :
    ∃ state scheduledAt, run.account.state = some state ∧
      state.deactivationScheduledAt = some scheduledAt ∧ scheduledAt ≤ when ∧
      getDeactivationExclusionReason cfg run.account.user = none ∧
      ∃ warning ∈ run.warnings, d ∈ warning.offsets ∧ warning.sentAt ≤ when - days d := by
  obtain ⟨rest, hrest⟩ := normalizeWarningDays_eq_cons offsets d hd hpos
  have hdays : ∀ settings : DeactivationSettings, settings.warningDays = offsets →
      settings.getWarningDays = d :: rest := by
    intro settings h
    rw [DeactivationSettings.getWarningDays, h, hrest]
  have hinv : WarnedFromLog d run := by
    subst hrun
    refine List.foldlRecOn events WarnedAccount.step (motive := WarnedFromLog d) ?_ ?_
    · intro state hstate
      simp [hstart] at hstate
    · intro run hrun event hevent
      exact warnedFromLog_step d rest hpos run event (hdays _ (hsettings event hevent)) hrun
  rcases deactivateUser_cases cfg run.account when with
    h | ⟨state, -, hstate, hdue, hreason, -⟩
  · simp [h, hactive] at hinactive
  · obtain ⟨scheduledAt, first, hscheduled, hle, hfirst, hwarned⟩ :=
      isDeactivationDue_warned cfg _ state when d rest (hdays cfg hcfg) hdue
    obtain ⟨warning, hmem, hat, hwd⟩ := (hinv state hstate).2 first hfirst
    refine ⟨state, scheduledAt, hstate, hscheduled, hle, hreason, warning, hmem, hwd, ?_⟩
    rw [hat]
    omega

/-- An account whose user was last active at time 0. -/
def idleAccount : Account where
  user := { pk := 1, username := "bob", email := "bob@example.com" }
  initialLastActivity := 0

/-- The account is synced on the first day and warned on day 340. -/
def warnedRun : WarnedAccount :=
  [⟨{}, days 1, .syncUserDeactivationState⟩,
    ⟨{}, days 340, .dispatchDeactivationWarning [30] true⟩].foldl WarnedAccount.step
      ⟨idleAccount, []⟩

/-- The warned account is deactivated on day 370, 30 days after the warning. -/
theorem warnedRun_deactivated :
    ∃ state scheduledAt, warnedRun.account.state = some state ∧
      state.deactivationScheduledAt = some scheduledAt ∧ scheduledAt ≤ days 370 ∧
      getDeactivationExclusionReason {} warnedRun.account.user = none ∧
      ∃ warning ∈ warnedRun.warnings,
        30 ∈ warning.offsets ∧ warning.sentAt ≤ days 370 - days 30 := by
  have hd : IsGreatest {n : Int | n ∈ [(30 : Int), 7]} 30 := by
    constructor
    · decide
    · intro n hn
      simp only [Set.mem_ofPred_eq, List.mem_cons, List.not_mem_nil, or_false] at hn
      omega
  exact deactivateUser_after_warning [30, 7] 30 hd (by decide) idleAccount rfl _
    (by simp) warnedRun rfl {} rfl (days 370) (by decide) (by decide)

end Onadata.Proofs
