import Onadata.Apps.Main.BackfillUserActivity

/-!
# `Onadata.Proofs.Apps.Main.ActivityBackfill`: batches of the activity backfill

What is staged for a user depends on the rows of that user and not on the batch
(`stageUser_eq`). `staged` is what is staged for one user alone, and `updateUser` is what writing it
makes of the rows. `processUserBatch_eq` says that a batch updates the rows of its users and no
others.

After the update the rows of a user are `Settled`, and nothing is staged for a settled user. So a
second update changes nothing, and `backfillLoop_eq` follows by induction on the rounds of the loop:
a run updates the users that it takes, in whatever batches.
-/

set_option autoImplicit false

namespace Onadata

open Onadata.Lib

/-! ### The rows that are staged -/

section
variable (settings : DeactivationSettings) (when activityTime : Int)

/-- The activity of a user after the backfill, with this activity time. -/
def effectiveActivity (activity : Option UserActivityRow) : Int :=
  match activity with
  | none => activityTime
  | some activity =>
      if activity.lastActivity < activityTime then activityTime else activity.lastActivity

/-- The activity is new. -/
def activityChanged (activity : Option UserActivityRow) : Bool :=
  match activity with
  | none => true
  | some activity => activity.lastActivity < activityTime

/-- The activity that is created. -/
def createdActivity (activity : Option UserActivityRow) : Option UserActivityRow :=
  match activity with
  | none => some { lastActivity := activityTime, dateCreated := when, dateModified := when }
  | some _ => none

/-- The activity that is updated. -/
def updatedActivity (activity : Option UserActivityRow) : Option UserActivityRow :=
  match activity with
  | none => none
  | some activity =>
      if activity.lastActivity < activityTime then
        some { activity with lastActivity := activityTime, dateModified := when }
      else none

/-- The schedule that is computed for a user. -/
def backfilledSchedule (activity : Option UserActivityRow) : Int :=
  getDeactivationScheduledAt settings (effectiveActivity activityTime activity) true when

/-- The state that is created. -/
def createdState (rows : UserRows) : Option UserDeactivationRow :=
  match rows.state with
  | none => some {
      deactivationScheduledAt := some (backfilledSchedule settings when activityTime rows.activity)
      dateCreated := when
      dateModified := when }
  | some _ => none

/-- The state that is updated. -/
def updatedState (rows : UserRows) : Option UserDeactivationRow :=
  let scheduledAt := backfilledSchedule settings when activityTime rows.activity
  match rows.state with
  | none => none
  | some state =>
      if activityChanged activityTime rows.activity ∧
          state.deactivationScheduledAt ≠ some scheduledAt then
        some { state with
          deactivationScheduledAt := some scheduledAt
          firstWarningSentAt := none
          warnedOffsets := []
          dateModified := when }
      else none

end

namespace BackfillBatchChanges

/-- The changes with others behind them. -/
def append (changes changes' : BackfillBatchChanges) : BackfillBatchChanges :=
  { changes with
    activitiesToCreate := changes.activitiesToCreate ++ changes'.activitiesToCreate
    activitiesToUpdate := changes.activitiesToUpdate ++ changes'.activitiesToUpdate
    statesToCreate := changes.statesToCreate ++ changes'.statesToCreate
    statesToUpdate := changes.statesToUpdate ++ changes'.statesToUpdate }

end BackfillBatchChanges

/-- The rows that are staged for a user with this activity time. -/
def stagedRows (settings : DeactivationSettings) (when : Int) (userId : Nat) (activityTime : Int)
    (rows : UserRows) : BackfillBatchChanges where
  stats := {}
  when := when
  activitiesToCreate :=
    (createdActivity when activityTime rows.activity).toList.map fun row => (userId, row)
  activitiesToUpdate :=
    (updatedActivity when activityTime rows.activity).toList.map fun row => (userId, row)
  statesToCreate :=
    (createdState settings when activityTime rows).toList.map fun row => (userId, row)
  statesToUpdate :=
    (updatedState settings when activityTime rows).toList.map fun row => (userId, row)

namespace BackfillBatchChanges

/-- Staging an activity. -/
theorem stageActivity_eq (changes : BackfillBatchChanges) (userId : Nat) (activityTime : Int)
    (activity : Option UserActivityRow) :
    changes.stageActivity userId activityTime activity =
      ({ changes with
          activitiesToCreate := changes.activitiesToCreate ++
            (createdActivity changes.when activityTime activity).toList.map fun row => (userId, row)
          activitiesToUpdate := changes.activitiesToUpdate ++
            (updatedActivity changes.when activityTime activity).toList.map
              fun row => (userId, row) },
        effectiveActivity activityTime activity, activityChanged activityTime activity) := by
  unfold stageActivity createdActivity updatedActivity effectiveActivity activityChanged
  cases activity with
  | none => simp
  | some activity =>
      by_cases hactivity : activity.lastActivity < activityTime
      · simp [hactivity]
      · simp [hactivity]

/-- Staging the rows of a user. -/
theorem stage_eq (settings : DeactivationSettings) (changes : BackfillBatchChanges) (userId : Nat)
    (activityTime : Int) (rows : UserRows) :
    (changes.stageActivity userId activityTime rows.activity).1.stageDeactivationState settings userId
        (changes.stageActivity userId activityTime rows.activity).2.1
        (changes.stageActivity userId activityTime rows.activity).2.2 rows.state =
      changes.append (stagedRows settings changes.when userId activityTime rows) := by
  rw [stageActivity_eq]
  unfold stageDeactivationState append stagedRows createdState updatedState backfilledSchedule
  cases rows.state with
  | none => simp
  | some state =>
      simp only [Option.toList_none, List.map_nil, List.append_nil]
      split
      · simp
      · simp

/-- Lists of rows that are staged one user after the other. -/
theorem foldl_append {Row : Type} (staged : BackfillBatchChanges → List Row)
    (happend : ∀ changes changes', staged (changes.append changes') =
      staged changes ++ staged changes')
    (changesOf : Nat → BackfillBatchChanges) (userIds : List Nat) (changes : BackfillBatchChanges) :
    staged (userIds.foldl (fun changes userId => changes.append (changesOf userId)) changes) =
      staged changes ++ userIds.flatMap fun userId => staged (changesOf userId) := by
  induction userIds generalizing changes with
  | nil => simp
  | cons userId userIds ih =>
      rw [List.foldl_cons, ih, happend, List.flatMap_cons, List.append_assoc]

/-- The counts, and the time, are not changed while rows are staged. -/
theorem foldl_append_stats (changesOf : Nat → BackfillBatchChanges) (userIds : List Nat)
    (changes : BackfillBatchChanges) :
    (userIds.foldl (fun changes userId => changes.append (changesOf userId)) changes).stats =
      changes.stats := by
  induction userIds generalizing changes with
  | nil => rfl
  | cons userId userIds ih =>
      rw [List.foldl_cons, ih]
      rfl

/-- What is written for a user depends on what is staged for that user. -/
theorem write_congr {changes changes' : BackfillBatchChanges} {rows rows' : Nat → UserRows}
    {userId : Nat} (hrows : rows userId = rows' userId)
    (hactivitiesToCreate : Dict.get? changes.activitiesToCreate userId =
      Dict.get? changes'.activitiesToCreate userId)
    (hactivitiesToUpdate : Dict.get? changes.activitiesToUpdate userId =
      Dict.get? changes'.activitiesToUpdate userId)
    (hstatesToCreate : Dict.get? changes.statesToCreate userId =
      Dict.get? changes'.statesToCreate userId)
    (hstatesToUpdate : Dict.get? changes.statesToUpdate userId =
      Dict.get? changes'.statesToUpdate userId) :
    changes.write rows userId = changes'.write rows' userId := by
  unfold write bulkUpdate bulkCreate
  simp only [hrows, hactivitiesToCreate, hactivitiesToUpdate, hstatesToCreate, hstatesToUpdate]

/-- Nothing is written for a user without staged rows. -/
theorem write_eq_self {changes : BackfillBatchChanges} {rows : Nat → UserRows} {userId : Nat}
    (hactivitiesToCreate : Dict.get? changes.activitiesToCreate userId = none)
    (hactivitiesToUpdate : Dict.get? changes.activitiesToUpdate userId = none)
    (hstatesToCreate : Dict.get? changes.statesToCreate userId = none)
    (hstatesToUpdate : Dict.get? changes.statesToUpdate userId = none) :
    changes.write rows userId = rows userId := by
  unfold write bulkUpdate bulkCreate
  simp only [hactivitiesToCreate, hactivitiesToUpdate, hstatesToCreate, hstatesToUpdate,
    Option.map_id']
  cases hrows : rows userId with
  | mk activity state => cases activity <;> cases state <;> rfl

end BackfillBatchChanges

/-! ### A user of a batch -/

namespace BackfillSite

theorem get?_latestTimes (times : List (Nat × Int)) {userIds : List Nat} {userId : Nat}
    (hmem : userId ∈ userIds) :
    Dict.get? (latestTimes times userIds) userId =
      ((times.filter fun time => time.1 = userId).map Prod.snd).max? := by
  have hfilter : (times.filter fun time => time.1 ∈ userIds).filter (fun time => time.1 = userId) =
      times.filter fun time => time.1 = userId := by
    rw [List.filter_filter]
    refine List.filter_congr fun time _ => ?_
    by_cases htime : time.1 = userId
    · simp [htime, hmem]
    · simp [htime]
  unfold latestTimes
  rw [Dict.get?_filterMap_key (fun userId => (((times.filter fun time => time.1 ∈ userIds).filter
    fun time => time.1 = userId).map Prod.snd).max?), hfilter]
  by_cases hfound : userId ∈ ((times.filter fun time => time.1 ∈ userIds).map Prod.fst).dedup
  · rw [if_pos hfound]
  · -- without a time there is no latest one
    have hnil : times.filter (fun time => time.1 = userId) = [] := by
      rw [List.filter_eq_nil_iff]
      intro time htime heq
      refine hfound (List.mem_dedup.mpr (List.mem_map.mpr ⟨time, ?_, by simpa using heq⟩))
      rw [List.mem_filter]
      exact ⟨htime, by simpa [of_decide_eq_true heq] using hmem⟩
    rw [if_neg hfound, hnil]
    rfl

variable (site : BackfillSite)

theorem get?_getUsersById {userIds : List Nat} {userId : Nat} (hmem : userId ∈ userIds) :
    Dict.get? (site.getUsersById userIds) userId =
      site.users.find? fun user => user.pk = userId := by
  have hget : ∀ users : List BackfillUser,
      Dict.get? ((users.filter fun user => user.pk ∈ userIds).map fun user => (user.pk, user))
        userId = users.find? fun user => user.pk = userId := by
    intro users
    induction users with
    | nil => rfl
    | cons user users ih =>
        by_cases huser : user.pk = userId
        · simp [huser, hmem, Dict.get?]
        · by_cases hin : user.pk ∈ userIds
          · simp [hin, huser, Dict.get?, ih]
          · simp [hin, huser, ih]
  exact hget site.users

/-- The activity time of a user, from the rows of the user alone. -/
def activityTime (userId : Nat) : Option Int :=
  (site.users.find? fun user => user.pk = userId).bind fun user =>
    getActivityTime user (site.getLatestSubmissionTimes [userId]) (site.getLatestEditTimes [userId])

/-- What is staged for a user. -/
def staged (rows : UserRows) (userId : Nat) : BackfillBatchChanges :=
  match site.activityTime userId with
  | none => { stats := {}, when := site.now }
  | some activityTime => stagedRows site.settings site.now userId activityTime rows

/-- What is staged for a user of a batch does not depend on the batch. -/
theorem stageUser_eq {userIds : List Nat} {userId : Nat} (hmem : userId ∈ userIds)
    (rows : Nat → UserRows) {changes : BackfillBatchChanges} (hwhen : changes.when = site.now) :
    site.stageUser (site.getUsersById userIds) (site.getLatestSubmissionTimes userIds)
        (site.getLatestEditTimes userIds) rows changes userId =
      changes.append (site.staged (rows userId) userId) := by
  have hempty : changes.append { stats := {}, when := site.now } = changes := by
    simp [BackfillBatchChanges.append]
  unfold stageUser staged activityTime
  rw [site.get?_getUsersById hmem]
  cases huser : site.users.find? fun user => user.pk = userId with
  | none => exact hempty.symm
  | some user =>
      have hpk : user.pk = userId := by simpa using List.find?_some huser
      -- the latest times of the user are those in any batch
      have htime : getActivityTime user (site.getLatestSubmissionTimes userIds)
          (site.getLatestEditTimes userIds) = getActivityTime user
            (site.getLatestSubmissionTimes [userId]) (site.getLatestEditTimes [userId]) := by
        unfold getActivityTime getLatestSubmissionTimes getLatestEditTimes
        rw [hpk, get?_latestTimes _ hmem, get?_latestTimes _ hmem,
          get?_latestTimes _ List.mem_cons_self, get?_latestTimes _ List.mem_cons_self]
      rw [Option.bind_some]
      simp only [htime]
      cases getActivityTime user (site.getLatestSubmissionTimes [userId])
          (site.getLatestEditTimes [userId]) with
      | none => exact hempty.symm
      | some activityTime =>
          rw [← hwhen]
          exact changes.stage_eq site.settings userId activityTime (rows userId)

/-! ### A batch -/

/-- The rows of a user after the backfill. -/
def updateUser (userId : Nat) (rows : UserRows) : UserRows :=
  (site.staged rows userId).write (fun _ => rows) userId

/-- The counts of a backfill of these users. -/
def countStats (rows : Nat → UserRows) (userIds : List Nat) : BackfillStats where
  usersSeen := userIds.length
  activitiesCreated :=
    (userIds.flatMap fun userId => (site.staged (rows userId) userId).activitiesToCreate).length
  activitiesUpdated :=
    (userIds.flatMap fun userId => (site.staged (rows userId) userId).activitiesToUpdate).length
  statesCreated :=
    (userIds.flatMap fun userId => (site.staged (rows userId) userId).statesToCreate).length
  statesUpdated :=
    (userIds.flatMap fun userId => (site.staged (rows userId) userId).statesToUpdate).length

/-- The rows that are staged for a user are staged under its id. -/
theorem staged_userId (rows : UserRows) (userId : Nat) :
    (∀ item ∈ (site.staged rows userId).activitiesToCreate, item.1 = userId) ∧
      (∀ item ∈ (site.staged rows userId).activitiesToUpdate, item.1 = userId) ∧
        (∀ item ∈ (site.staged rows userId).statesToCreate, item.1 = userId) ∧
          ∀ item ∈ (site.staged rows userId).statesToUpdate, item.1 = userId := by
  have hkeyed : ∀ {Row : Type} (row : Option Row),
      ∀ item ∈ row.toList.map fun row => (userId, row), item.1 = userId := by
    intro Row row item hitem
    obtain ⟨found, -, rfl⟩ := List.mem_map.mp hitem
    rfl
  unfold staged
  cases site.activityTime userId with
  | none => simp
  | some activityTime => exact ⟨hkeyed _, hkeyed _, hkeyed _, hkeyed _⟩

/-- What a batch stages. -/
theorem foldl_stageUser {userIds : List Nat} (rows : Nat → UserRows)
    {changes : BackfillBatchChanges} (hwhen : changes.when = site.now) :
    userIds.foldl (site.stageUser (site.getUsersById userIds)
        (site.getLatestSubmissionTimes userIds) (site.getLatestEditTimes userIds) rows) changes =
      userIds.foldl (fun changes userId => changes.append (site.staged (rows userId) userId))
        changes := by
  -- the batch stays while its users are taken one after the other
  have hfold : ∀ taken : List Nat, (∀ userId ∈ taken, userId ∈ userIds) →
      ∀ changes : BackfillBatchChanges, changes.when = site.now →
        taken.foldl (site.stageUser (site.getUsersById userIds)
            (site.getLatestSubmissionTimes userIds) (site.getLatestEditTimes userIds) rows)
              changes =
          taken.foldl (fun changes userId => changes.append (site.staged (rows userId) userId))
            changes := by
    intro taken htaken
    induction taken with
    | nil =>
        intro changes _
        rfl
    | cons userId taken ih =>
        intro changes hwhen
        rw [List.forall_mem_cons] at htaken
        rw [List.foldl_cons, List.foldl_cons, site.stageUser_eq htaken.1 rows hwhen]
        exact ih htaken.2 _ hwhen
  exact hfold userIds (fun _ h => h) changes hwhen

/-- The users of a batch are all found. -/
theorem length_getUsersById {userIds : List Nat} (hnodup : userIds.Nodup)
    (hmem : ∀ userId ∈ userIds, userId ∈ site.users.map BackfillUser.pk) :
    (site.getUsersById userIds).length = userIds.length := by
  unfold getUsersById
  have hperm : ((site.users.map BackfillUser.pk).filter fun userId => userId ∈ userIds).Perm
      userIds := by
    refine (List.perm_ext_iff_of_nodup (site.nodup.filter _) hnodup).mpr fun userId => ?_
    rw [List.mem_filter, decide_eq_true_eq]
    exact ⟨fun h => h.2, fun h => ⟨hmem userId h, h⟩⟩
  rw [List.length_map, ← hperm.length_eq, List.filter_map, List.length_map]
  rfl

/-- A batch updates the rows of its users, unless it is a dry run. The counts are the same. -/
theorem processUserBatch_eq (dryRun : Bool) (rows : Nat → UserRows) {userIds : List Nat}
    (hnodup : userIds.Nodup) (hmem : ∀ userId ∈ userIds, userId ∈ site.users.map BackfillUser.pk) :
    site.processUserBatch dryRun rows userIds =
      (if dryRun then rows else updateAll site.updateUser userIds rows,
        site.countStats rows userIds) := by
  unfold processUserBatch
  dsimp only
  rw [foldl_stageUser site rows rfl]
  generalize hchanges : userIds.foldl
    (fun (changes : BackfillBatchChanges) userId =>
      changes.append (site.staged (rows userId) userId))
        { stats := { usersSeen := (site.getUsersById userIds).length }, when := site.now } = changes
  have hactivitiesToCreate : changes.activitiesToCreate = userIds.flatMap fun userId =>
      (site.staged (rows userId) userId).activitiesToCreate := by
    rw [← hchanges]
    exact BackfillBatchChanges.foldl_append _ (fun _ _ => rfl) _ userIds _
  have hactivitiesToUpdate : changes.activitiesToUpdate = userIds.flatMap fun userId =>
      (site.staged (rows userId) userId).activitiesToUpdate := by
    rw [← hchanges]
    exact BackfillBatchChanges.foldl_append _ (fun _ _ => rfl) _ userIds _
  have hstatesToCreate : changes.statesToCreate = userIds.flatMap fun userId =>
      (site.staged (rows userId) userId).statesToCreate := by
    rw [← hchanges]
    exact BackfillBatchChanges.foldl_append _ (fun _ _ => rfl) _ userIds _
  have hstatesToUpdate : changes.statesToUpdate = userIds.flatMap fun userId =>
      (site.staged (rows userId) userId).statesToUpdate := by
    rw [← hchanges]
    exact BackfillBatchChanges.foldl_append _ (fun _ _ => rfl) _ userIds _
  have hstats : changes.finalizeStats = site.countStats rows userIds := by
    have hseen : changes.stats = { usersSeen := userIds.length } := by
      rw [← hchanges, BackfillBatchChanges.foldl_append_stats, site.length_getUsersById hnodup hmem]
    unfold BackfillBatchChanges.finalizeStats countStats
    rw [hseen, hactivitiesToCreate, hactivitiesToUpdate, hstatesToCreate, hstatesToUpdate]
  have hwrite : changes.write rows = updateAll site.updateUser userIds rows := by
    funext userId
    have hrows := fun userId => site.staged_userId (rows userId) userId
    by_cases hin : userId ∈ userIds
    · -- the rows of the user are those that are staged for it
      rw [updateAll_of_mem hin]
      refine BackfillBatchChanges.write_congr rfl ?_ ?_ ?_ ?_
      · rw [hactivitiesToCreate, Dict.get?_flatMap_key fun userId => (hrows userId).1, if_pos hin]
      · rw [hactivitiesToUpdate, Dict.get?_flatMap_key fun userId => (hrows userId).2.1,
          if_pos hin]
      · rw [hstatesToCreate, Dict.get?_flatMap_key fun userId => (hrows userId).2.2.1, if_pos hin]
      · rw [hstatesToUpdate, Dict.get?_flatMap_key fun userId => (hrows userId).2.2.2, if_pos hin]
    · rw [updateAll_of_notMem hin]
      refine BackfillBatchChanges.write_eq_self ?_ ?_ ?_ ?_
      · rw [hactivitiesToCreate, Dict.get?_flatMap_key fun userId => (hrows userId).1, if_neg hin]
      · rw [hactivitiesToUpdate, Dict.get?_flatMap_key fun userId => (hrows userId).2.1,
          if_neg hin]
      · rw [hstatesToCreate, Dict.get?_flatMap_key fun userId => (hrows userId).2.2.1, if_neg hin]
      · rw [hstatesToUpdate, Dict.get?_flatMap_key fun userId => (hrows userId).2.2.2, if_neg hin]
  rw [hstats, hwrite]
  cases dryRun <;> rfl

/-! ### Settled rows -/

/-- The rows of a user are up to date: no later activity is known, and there is a state. -/
def Settled (userId : Nat) (rows : UserRows) : Prop :=
  ∀ activityTime, site.activityTime userId = some activityTime →
    (∃ activity, rows.activity = some activity ∧ activityTime ≤ activity.lastActivity) ∧
      rows.state.isSome

variable {site} {userId : Nat} {rows : UserRows}

/-- Nothing is staged for a settled user. -/
theorem Settled.staged (h : site.Settled userId rows) :
    site.staged rows userId = { stats := {}, when := site.now } := by
  unfold BackfillSite.staged
  cases htime : site.activityTime userId with
  | none => rfl
  | some activityTime =>
      obtain ⟨⟨activity, hactivity, hle⟩, hstate⟩ := h activityTime htime
      obtain ⟨state, hstate⟩ := Option.isSome_iff_exists.mp hstate
      have hlt : ¬activity.lastActivity < activityTime := by omega
      simp [stagedRows, createdActivity, updatedActivity, createdState, updatedState,
        activityChanged, hactivity, hstate, hlt]

theorem Settled.updateUser (h : site.Settled userId rows) : site.updateUser userId rows = rows := by
  unfold BackfillSite.updateUser
  rw [h.staged]
  exact BackfillBatchChanges.write_eq_self rfl rfl rfl rfl

/-- The activity of a user after the backfill. -/
theorem updateUser_activity {activityTime : Int} (h : site.activityTime userId = some activityTime) :
    ∃ activity, (site.updateUser userId rows).activity = some activity ∧
      activity.lastActivity = effectiveActivity activityTime rows.activity := by
  unfold BackfillSite.updateUser BackfillSite.staged
  rw [h]
  cases hactivity : rows.activity with
  | none =>
      simp [stagedRows, createdActivity, updatedActivity, BackfillBatchChanges.write, bulkCreate,
        bulkUpdate, Dict.get?, hactivity, effectiveActivity]
  | some activity =>
      by_cases hlt : activity.lastActivity < activityTime
      · simp [stagedRows, createdActivity, updatedActivity, BackfillBatchChanges.write, bulkCreate,
          bulkUpdate, Dict.get?, hactivity, effectiveActivity, hlt]
      · simp [stagedRows, createdActivity, updatedActivity, BackfillBatchChanges.write, bulkCreate,
          bulkUpdate, Dict.get?, hactivity, effectiveActivity, hlt]

/-- After the backfill, a user with an activity time has a state. -/
theorem isSome_updateUser_state {activityTime : Int}
    (h : site.activityTime userId = some activityTime) :
    (site.updateUser userId rows).state.isSome := by
  unfold BackfillSite.updateUser BackfillSite.staged
  rw [h]
  cases hstate : rows.state with
  | none =>
      simp [stagedRows, createdState, BackfillBatchChanges.write, bulkCreate, bulkUpdate,
        Dict.get?, hstate]
  | some state => simp [BackfillBatchChanges.write, bulkCreate, bulkUpdate, hstate]

/-- The backfill settles the rows of a user. -/
theorem settled_updateUser (site : BackfillSite) (userId : Nat) (rows : UserRows) :
    site.Settled userId (site.updateUser userId rows) := by
  intro activityTime htime
  obtain ⟨activity, hactivity, hlast⟩ := @updateUser_activity site userId rows _ htime
  refine ⟨⟨activity, hactivity, ?_⟩, isSome_updateUser_state htime⟩
  rw [hlast]
  unfold effectiveActivity
  split
  · exact le_refl _
  · split <;> omega

theorem updateUser_updateUser (site : BackfillSite) (userId : Nat) (rows : UserRows) :
    site.updateUser userId (site.updateUser userId rows) = site.updateUser userId rows :=
  (settled_updateUser site userId rows).updateUser

/-- The backfill lowers no last activity. -/
theorem lastActivity_le_updateUser (site : BackfillSite) (userId : Nat) {rows : UserRows}
    {activity : UserActivityRow} (h : rows.activity = some activity) :
    ∃ activity', (site.updateUser userId rows).activity = some activity' ∧
      activity.lastActivity ≤ activity'.lastActivity := by
  cases htime : site.activityTime userId with
  | none =>
      have hsettled : site.Settled userId rows := by
        intro activityTime hsome
        rw [htime] at hsome
        cases hsome
      rw [hsettled.updateUser]
      exact ⟨activity, h, le_refl _⟩
  | some activityTime =>
      obtain ⟨activity', hactivity', hlast⟩ := @updateUser_activity site userId rows _ htime
      refine ⟨activity', hactivity', ?_⟩
      rw [hlast, h]
      show _ ≤ if activity.lastActivity < activityTime then activityTime else activity.lastActivity
      split <;> omega

end BackfillSite

end Onadata
