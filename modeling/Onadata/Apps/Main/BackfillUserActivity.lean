import Onadata.Apps.Main.UserDeactivation
import Onadata.Lib.KeyedBatches
import Onadata.Lib.PyDict

/-!
# `Onadata.Apps.Main.BackfillUserActivity`: the backfill of the user activity

The command `backfill_user_activity`. It takes the users in batches, in the order of their ids, and
stages the rows that it creates or updates for the users of a batch before it writes them.

`BackfillSite` is what the command only reads: the users, the submissions, the settings and the
clock. The rows that it writes are the `UserActivity` and the `UserDeactivationState` of each user,
one of each at most.
-/

set_option autoImplicit false

namespace Onadata

open Onadata.Lib

/-- What the command reads of a user. -/
structure BackfillUser where
  pk : Nat
  lastLogin : Option Int
  dateJoined : Option Int
  deriving Repr

/-- What the command reads of an `Instance`. -/
structure BackfillInstance where
  userId : Option Nat
  dateCreated : Option Int
  lastEditedById : Option Nat
  lastEdited : Option Int
  deriving Repr

/-- What a run of the command only reads. -/
structure BackfillSite where
  users : List BackfillUser
  instances : List BackfillInstance
  settings : DeactivationSettings
  now : Int
  nodup : (users.map BackfillUser.pk).Nodup

/-- A row of `UserActivity`. -/
structure UserActivityRow where
  lastActivity : Int
  dateCreated : Int
  dateModified : Int
  deriving DecidableEq, Repr

/-- A row of `UserDeactivationState` with its dates. -/
structure UserDeactivationRow extends UserDeactivationState where
  dateCreated : Int
  dateModified : Int
  deriving DecidableEq, Repr

/-- The rows of a user. -/
structure UserRows where
  activity : Option UserActivityRow
  state : Option UserDeactivationRow
  deriving DecidableEq, Repr

/-! ### Counts -/

/-- `BackfillStats`. -/
structure BackfillStats where
  usersSeen : Nat := 0
  activitiesCreated : Nat := 0
  activitiesUpdated : Nat := 0
  statesCreated : Nat := 0
  statesUpdated : Nat := 0
  deriving DecidableEq, Repr

/-- `BackfillStats.add`. -/
def BackfillStats.add (stats other : BackfillStats) : BackfillStats where
  usersSeen := stats.usersSeen + other.usersSeen
  activitiesCreated := stats.activitiesCreated + other.activitiesCreated
  activitiesUpdated := stats.activitiesUpdated + other.activitiesUpdated
  statesCreated := stats.statesCreated + other.statesCreated
  statesUpdated := stats.statesUpdated + other.statesUpdated

/-! ### The tables -/

section
variable {Row : Type}

/-- `bulk_create(staged, ignore_conflicts=True)` on a table with at most one row for each user. -/
def bulkCreate (staged : List (Nat × Row)) (table : Nat → Option Row) (userId : Nat) :
    Option Row :=
  match table userId with
  | some row => some row
  | none => Dict.get? staged userId

/-- `bulk_update(staged, fields)`. `setFields` takes the fields over from the staged row. -/
def bulkUpdate (setFields : Row → Row → Row) (staged : List (Nat × Row))
    (table : Nat → Option Row) (userId : Nat) : Option Row :=
  (table userId).map fun row =>
    match Dict.get? staged userId with
    | some update => setFields row update
    | none => row

end

/-! ### Staged changes -/

/-- `BackfillBatchChanges`. The rows are staged with their users. -/
structure BackfillBatchChanges where
  stats : BackfillStats
  when : Int
  activitiesToCreate : List (Nat × UserActivityRow) := []
  activitiesToUpdate : List (Nat × UserActivityRow) := []
  statesToCreate : List (Nat × UserDeactivationRow) := []
  statesToUpdate : List (Nat × UserDeactivationRow) := []

namespace BackfillBatchChanges

/-- `stage_activity`: the effective activity, and whether it is new. -/
def stageActivity (changes : BackfillBatchChanges) (userId : Nat) (activityTime : Int)
    (activity : Option UserActivityRow) : BackfillBatchChanges × Int × Bool :=
  match activity with
  | none =>
      let created := {
        lastActivity := activityTime
        dateCreated := changes.when
        dateModified := changes.when }
      ({ changes with activitiesToCreate := changes.activitiesToCreate ++ [(userId, created)] },
        activityTime, true)
  | some activity =>
      if activity.lastActivity < activityTime then
        let updated :=
          { activity with lastActivity := activityTime, dateModified := changes.when }
        ({ changes with activitiesToUpdate := changes.activitiesToUpdate ++ [(userId, updated)] },
          activityTime, true)
      else (changes, activity.lastActivity, false)

/-- `stage_deactivation_state`. -/
def stageDeactivationState (settings : DeactivationSettings) (changes : BackfillBatchChanges)
    (userId : Nat) (effectiveActivity : Int) (activityChanged : Bool)
    (state : Option UserDeactivationRow) : BackfillBatchChanges :=
  let scheduledAt := getDeactivationScheduledAt settings effectiveActivity true changes.when
  match state with
  | none =>
      let created := {
        deactivationScheduledAt := some scheduledAt
        dateCreated := changes.when
        dateModified := changes.when }
      { changes with statesToCreate := changes.statesToCreate ++ [(userId, created)] }
  | some state =>
      if activityChanged ∧ state.deactivationScheduledAt ≠ some scheduledAt then
        let updated := { state with
          deactivationScheduledAt := some scheduledAt
          firstWarningSentAt := none
          warnedOffsets := []
          dateModified := changes.when }
        { changes with statesToUpdate := changes.statesToUpdate ++ [(userId, updated)] }
      else changes

/-- `finalize_stats`. -/
def finalizeStats (changes : BackfillBatchChanges) : BackfillStats :=
  { changes.stats with
    activitiesCreated := changes.activitiesToCreate.length
    activitiesUpdated := changes.activitiesToUpdate.length
    statesCreated := changes.statesToCreate.length
    statesUpdated := changes.statesToUpdate.length }

/-- `write`. -/
def write (changes : BackfillBatchChanges) (rows : Nat → UserRows) : Nat → UserRows :=
  let activities := bulkCreate changes.activitiesToCreate fun userId => (rows userId).activity
  let activities := bulkUpdate
    (fun row update =>
      { row with lastActivity := update.lastActivity, dateModified := update.dateModified })
    changes.activitiesToUpdate activities
  let states := bulkCreate changes.statesToCreate fun userId => (rows userId).state
  let states := bulkUpdate
    (fun row update => { row with
      deactivationScheduledAt := update.deactivationScheduledAt
      firstWarningSentAt := update.firstWarningSentAt
      warnedOffsets := update.warnedOffsets
      dateModified := update.dateModified })
    changes.statesToUpdate states
  fun userId => { activity := activities userId, state := states userId }

end BackfillBatchChanges

/-! ### A batch -/

namespace BackfillSite

/-- `get_user_id_batch`. -/
def getUserIdBatch (site : BackfillSite) (afterUserId batchSize : Nat) : List Nat :=
  (keysAfter (site.users.map BackfillUser.pk) afterUserId).take batchSize

/-- The latest of the times, for each of the users who have one. -/
def latestTimes (times : List (Nat × Int)) (userIds : List Nat) : List (Nat × Int) :=
  let times := times.filter fun time => time.1 ∈ userIds
  (times.map Prod.fst).dedup.filterMap fun userId =>
    ((times.filter fun time => time.1 = userId).map Prod.snd).max?.map fun time => (userId, time)

/-- `get_latest_submission_times`. -/
def getLatestSubmissionTimes (site : BackfillSite) (userIds : List Nat) : List (Nat × Int) :=
  latestTimes (site.instances.filterMap fun row =>
    match row.userId, row.dateCreated with
    | some userId, some dateCreated => some (userId, dateCreated)
    | _, _ => none) userIds

/-- `get_latest_edit_times`. -/
def getLatestEditTimes (site : BackfillSite) (userIds : List Nat) : List (Nat × Int) :=
  latestTimes (site.instances.filterMap fun row =>
    match row.lastEditedById, row.lastEdited with
    | some userId, some lastEdited => some (userId, lastEdited)
    | _, _ => none) userIds

/-- `get_users_by_id`. -/
def getUsersById (site : BackfillSite) (userIds : List Nat) : List (Nat × BackfillUser) :=
  (site.users.filter fun user => user.pk ∈ userIds).map fun user => (user.pk, user)

end BackfillSite

/-- `get_activity_time`. -/
def getActivityTime (user : BackfillUser) (latestSubmissionTimes latestEditTimes : List (Nat × Int)) :
    Option Int :=
  let candidates := [
    user.lastLogin,
    Dict.get? latestSubmissionTimes user.pk,
    Dict.get? latestEditTimes user.pk,
    user.dateJoined]
  (candidates.filterMap id).max?

namespace BackfillSite

/-- The loop of `process_user_batch`: what is staged for a user. -/
def stageUser (site : BackfillSite) (usersById : List (Nat × BackfillUser))
    (latestSubmissionTimes latestEditTimes : List (Nat × Int)) (rows : Nat → UserRows)
    (changes : BackfillBatchChanges) (userId : Nat) : BackfillBatchChanges :=
  match Dict.get? usersById userId with
  | none => changes
  | some user =>
      match getActivityTime user latestSubmissionTimes latestEditTimes with
      | none => changes
      | some activityTime =>
          let (changes, effectiveActivity, activityChanged) :=
            changes.stageActivity userId activityTime (rows userId).activity
          changes.stageDeactivationState site.settings userId effectiveActivity activityChanged
            (rows userId).state

/-- `process_user_batch`: the rows after it, and the counts. -/
def processUserBatch (site : BackfillSite) (dryRun : Bool) (rows : Nat → UserRows)
    (userIds : List Nat) : (Nat → UserRows) × BackfillStats :=
  let usersById := site.getUsersById userIds
  let changes := userIds.foldl
    (site.stageUser usersById (site.getLatestSubmissionTimes userIds)
      (site.getLatestEditTimes userIds) rows)
    { stats := { usersSeen := usersById.length }, when := site.now }
  if dryRun then (rows, changes.finalizeStats)
  else (changes.write rows, changes.finalizeStats)

end BackfillSite

/-! ### A run -/

/-- The arguments of a run that say how many users it takes. The command refuses a batch size that
is not positive. -/
structure BackfillLimits where
  batchSize : Nat := 1000
  maxUsers : Option Nat := none
  batchSize_pos : 0 < batchSize := by decide

/-- The variables of the loop, with the rows. -/
structure BackfillProgress where
  rows : Nat → UserRows
  totalStats : BackfillStats
  afterUserId : Nat

namespace BackfillLimits

/-- `next_batch_size`, which is zero when no users remain to be taken. -/
def nextBatchSize (limits : BackfillLimits) (usersSeen : Nat) : Nat :=
  match limits.maxUsers with
  | none => limits.batchSize
  | some maxUsers => min limits.batchSize (maxUsers - usersSeen)

end BackfillLimits

namespace BackfillSite

/-- One round of the loop with these users. -/
def processNextBatch (site : BackfillSite) (dryRun : Bool) (progress : BackfillProgress)
    (userIds : List Nat) (last : Nat) : BackfillProgress :=
  let (rows, batchStats) := site.processUserBatch dryRun progress.rows userIds
  { rows := rows
    totalStats := progress.totalStats.add batchStats
    afterUserId := last }

/-- The loop of `backfill_user_activity`. -/
def backfillLoop (site : BackfillSite) (limits : BackfillLimits) (dryRun : Bool)
    (progress : BackfillProgress) : BackfillProgress :=
  let userIds := site.getUserIdBatch progress.afterUserId
    (limits.nextBatchSize progress.totalStats.usersSeen)
  match _hlast : userIds.getLast? with
  | none => progress
  | some last => site.backfillLoop limits dryRun (site.processNextBatch dryRun progress userIds last)
termination_by (keysAfter (site.users.map BackfillUser.pk) progress.afterUserId).length
decreasing_by
  exact length_keysAfter_lt site.nodup _hlast

/-- `backfill_user_activity`. The result also has the rows, and the id to resume after. -/
def backfillUserActivity (site : BackfillSite) (limits : BackfillLimits) (dryRun : Bool)
    (startAfterUserId : Nat) (rows : Nat → UserRows) : BackfillProgress :=
  site.backfillLoop limits dryRun
    { rows := rows, totalStats := {}, afterUserId := startAfterUserId }

/-- Consecutive runs, each of which resumes after the last id of the one before it. -/
def consecutiveRuns (site : BackfillSite) (startAfterUserId : Nat) (rows : Nat → UserRows) :
    List BackfillLimits → (Nat → UserRows) × Nat
  | [] => (rows, startAfterUserId)
  | limits :: rest =>
      let progress := site.backfillUserActivity limits false startAfterUserId rows
      site.consecutiveRuns progress.afterUserId progress.rows rest

end BackfillSite

end Onadata
