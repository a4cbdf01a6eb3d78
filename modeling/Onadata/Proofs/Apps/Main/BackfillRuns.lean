import Onadata.Proofs.Apps.Main.ActivityBackfill

/-!
# `Onadata.Proofs.Apps.Main.BackfillRuns`: runs of the activity backfill

`takenIds` are the users that a run takes: those behind its start, up to its limit.
`backfillUserActivity_eq` says that a run updates them, counts them and ends at the last of them,
whatever its batch size. Consecutive runs take what the first ones leave (`consecutiveRuns_eq`), so
that they are one run with the limits added up.
-/

set_option autoImplicit false

namespace Onadata

open Onadata.Lib

namespace BackfillLimits

/-- The first users, up to the limit. -/
def limitTo (maxUsers : Option Nat) (userIds : List Nat) : List Nat :=
  match maxUsers with
  | none => userIds
  | some maxUsers => userIds.take maxUsers

/-- What a run may still take. -/
def remaining (limits : BackfillLimits) (usersSeen : Nat) : Option Nat :=
  limits.maxUsers.map fun maxUsers => maxUsers - usersSeen

theorem nextBatchSize_none {limits : BackfillLimits} (h : limits.maxUsers = none)
    (usersSeen : Nat) : limits.nextBatchSize usersSeen = limits.batchSize := by
  rw [nextBatchSize, h]

theorem nextBatchSize_some {limits : BackfillLimits} {maxUsers : Nat}
    (h : limits.maxUsers = some maxUsers) (usersSeen : Nat) :
    limits.nextBatchSize usersSeen = min limits.batchSize (maxUsers - usersSeen) := by
  rw [nextBatchSize, h]

/-- No users are taken when the next batch is empty. -/
theorem limitTo_eq_nil {limits : BackfillLimits} {usersSeen : Nat} {userIds : List Nat}
    (h : userIds.take (limits.nextBatchSize usersSeen) = []) :
    limitTo (limits.remaining usersSeen) userIds = [] := by
  have hpos := limits.batchSize_pos
  rw [List.take_eq_nil_iff] at h
  unfold remaining
  cases hmax : limits.maxUsers with
  | none =>
      rw [nextBatchSize_none hmax] at h
      exact h.resolve_left (by omega)
  | some maxUsers =>
      rw [nextBatchSize_some hmax] at h
      show userIds.take (maxUsers - usersSeen) = []
      rw [List.take_eq_nil_iff]
      exact h.imp_left fun hzero => by omega

/-- The users that are taken are those of the next batch, and then those behind it. -/
theorem limitTo_eq_append (limits : BackfillLimits) (usersSeen : Nat) (userIds : List Nat) :
    limitTo (limits.remaining usersSeen) userIds =
      userIds.take (limits.nextBatchSize usersSeen) ++
        limitTo
          (limits.remaining (usersSeen + (userIds.take (limits.nextBatchSize usersSeen)).length))
          (userIds.drop (limits.nextBatchSize usersSeen)) := by
  unfold remaining
  cases hmax : limits.maxUsers with
  | none => exact (List.take_append_drop _ _).symm
  | some maxUsers =>
      have hsize := nextBatchSize_some hmax usersSeen
      generalize limits.nextBatchSize usersSeen = size at hsize ⊢
      show userIds.take (maxUsers - usersSeen) = userIds.take size ++
        (userIds.drop size).take (maxUsers - (usersSeen + (userIds.take size).length))
      have hsplit : maxUsers - usersSeen = size + (maxUsers - usersSeen - size) := by omega
      conv_lhs => rw [hsplit, List.take_add]
      -- where the batch is short, nothing is left behind it
      by_cases hshort : userIds.length ≤ size
      · rw [List.drop_eq_nil_of_le hshort, List.take_nil, List.take_nil]
      · rw [List.length_take, Nat.min_eq_left (by omega), Nat.sub_sub]

end BackfillLimits

namespace BackfillSite
variable (site : BackfillSite)

/-- The ids of the users. -/
def userIds : List Nat :=
  site.users.map BackfillUser.pk

/-- The users that a run takes. -/
def takenIds (limits : BackfillLimits) (usersSeen afterUserId : Nat) : List Nat :=
  BackfillLimits.limitTo (limits.remaining usersSeen) (keysAfter site.userIds afterUserId)

variable {site}

/-- The users that are taken are the first ones behind the start. -/
theorem takenIds_start (limits : BackfillLimits) (usersSeen afterUserId : Nat) :
    site.takenIds limits usersSeen afterUserId <+: keysAfter site.userIds afterUserId := by
  unfold takenIds BackfillLimits.limitTo
  cases limits.remaining usersSeen with
  | none => exact List.prefix_refl _
  | some remaining => exact List.take_prefix _ _

/-- The counts of two groups of users. -/
theorem countStats_append (rows : Nat → UserRows) (userIds userIds' : List Nat) :
    site.countStats rows (userIds ++ userIds') =
      (site.countStats rows userIds).add (site.countStats rows userIds') := by
  unfold countStats BackfillStats.add
  simp only [List.length_append, List.flatMap_append]

/-- The counts are those of the rows of the users. -/
theorem countStats_congr {rows rows' : Nat → UserRows} {userIds : List Nat}
    (h : ∀ userId ∈ userIds, rows userId = rows' userId) :
    site.countStats rows userIds = site.countStats rows' userIds := by
  have hflat : ∀ {Row : Type} (staged : BackfillBatchChanges → List Row),
      (userIds.flatMap fun userId => staged (site.staged (rows userId) userId)) =
        userIds.flatMap fun userId => staged (site.staged (rows' userId) userId) := by
    intro Row staged
    refine List.flatMap_congr fun userId hmem => ?_
    rw [h userId hmem]
  unfold countStats
  rw [hflat BackfillBatchChanges.activitiesToCreate, hflat BackfillBatchChanges.activitiesToUpdate,
    hflat BackfillBatchChanges.statesToCreate, hflat BackfillBatchChanges.statesToUpdate]

theorem add_assoc (stats stats' stats'' : BackfillStats) :
    (stats.add stats').add stats'' = stats.add (stats'.add stats'') := by
  unfold BackfillStats.add
  simp only [Nat.add_assoc]

theorem countStats_nil (rows : Nat → UserRows) : site.countStats rows [] = {} := rfl

/-- The rows after a run that takes these users. -/
def rowsAfter (site : BackfillSite) (dryRun : Bool) (rows : Nat → UserRows)
    (userIds : List Nat) : Nat → UserRows :=
  if dryRun then rows else updateAll site.updateUser userIds rows

/-- The loop ends when no batch is left. -/
theorem backfillLoop_none {limits : BackfillLimits} {progress : BackfillProgress}
    (h : (site.getUserIdBatch progress.afterUserId
      (limits.nextBatchSize progress.totalStats.usersSeen)).getLast? = none) (dryRun : Bool) :
    site.backfillLoop limits dryRun progress = progress := by
  rw [backfillLoop]
  split
  · rfl
  · rename_i last hlast
    rw [h] at hlast
    cases hlast

/-- A round of the loop. -/
theorem backfillLoop_some {limits : BackfillLimits} {progress : BackfillProgress} {last : Nat}
    (h : (site.getUserIdBatch progress.afterUserId
      (limits.nextBatchSize progress.totalStats.usersSeen)).getLast? = some last) (dryRun : Bool) :
    site.backfillLoop limits dryRun progress = site.backfillLoop limits dryRun
      (site.processNextBatch dryRun progress (site.getUserIdBatch progress.afterUserId
        (limits.nextBatchSize progress.totalStats.usersSeen)) last) := by
  rw [backfillLoop]
  split
  · rename_i hlast
    rw [h] at hlast
    cases hlast
  · rename_i last' hlast
    rw [h] at hlast
    rw [← Option.some.inj hlast]

/-- Users that are taken after others. -/
theorem rowsAfter_append (dryRun : Bool) (rows : Nat → UserRows) (userIds userIds' : List Nat) :
    site.rowsAfter dryRun (site.rowsAfter dryRun rows userIds) userIds' =
      site.rowsAfter dryRun rows (userIds ++ userIds') := by
  unfold rowsAfter
  cases dryRun with
  | true => rfl
  | false => exact updateAll_append (updateUser_updateUser site) userIds userIds' rows

theorem rowsAfter_of_notMem {dryRun : Bool} {rows : Nat → UserRows} {userIds : List Nat}
    {userId : Nat} (h : userId ∉ userIds) : site.rowsAfter dryRun rows userIds userId = rows userId := by
  unfold rowsAfter
  cases dryRun with
  | true => rfl
  | false => exact updateAll_of_notMem h

/-- The loop takes its users in batches, and the result does not depend on the batches. -/
theorem backfillLoop_eq (limits : BackfillLimits) (dryRun : Bool) (progress : BackfillProgress) :
    site.backfillLoop limits dryRun progress =
      { rows := site.rowsAfter dryRun progress.rows
          (site.takenIds limits progress.totalStats.usersSeen progress.afterUserId)
        totalStats := progress.totalStats.add (site.countStats progress.rows
          (site.takenIds limits progress.totalStats.usersSeen progress.afterUserId))
        afterUserId := (site.takenIds limits progress.totalStats.usersSeen
          progress.afterUserId).getLast?.getD progress.afterUserId } := by
  induction progress using backfillLoop.induct site limits dryRun with
  | case1 progress batch hlast =>
      -- no users are left, or none may be taken
      have hnil : site.takenIds limits progress.totalStats.usersSeen progress.afterUserId = [] :=
        BackfillLimits.limitTo_eq_nil (List.getLast?_eq_none_iff.mp hlast)
      rw [backfillLoop_none hlast, hnil, countStats_nil]
      cases dryRun with
      | true => rfl
      | false =>
          show progress = { progress with rows := updateAll site.updateUser [] progress.rows }
          rw [updateAll_nil]
  | case2 progress batch last hlast ih =>
      have hbatch : keysAfter site.userIds progress.afterUserId = batch ++
          (keysAfter site.userIds progress.afterUserId).drop
            (limits.nextBatchSize progress.totalStats.usersSeen) :=
        (List.take_append_drop _ _).symm
      have hnodup : (keysAfter site.userIds progress.afterUserId).Nodup :=
        nodup_keysAfter site.nodup
      have hprocess := @processUserBatch_eq site dryRun progress.rows batch
        (hnodup.sublist (List.take_sublist _ _))
        fun userId hmem => (mem_keysAfter.mp (List.mem_of_mem_take hmem)).1
      -- the users that are taken are the batch and those that the rest of the loop takes
      have htaken : site.takenIds limits progress.totalStats.usersSeen progress.afterUserId =
          batch ++ site.takenIds limits (progress.totalStats.usersSeen + batch.length) last := by
        have hleft := keysAfter_getLast site.nodup hbatch hlast
        unfold takenIds
        rw [BackfillLimits.limitTo_eq_append]
        congr 2
        exact hleft.symm
      have hnext : site.processNextBatch dryRun progress batch last =
          { rows := site.rowsAfter dryRun progress.rows batch
            totalStats := progress.totalStats.add (site.countStats progress.rows batch)
            afterUserId := last } := by
        unfold processNextBatch
        rw [hprocess]
        rfl
      have hdisjoint : ∀ userId ∈ site.takenIds limits
          (progress.totalStats.usersSeen + batch.length) last, userId ∉ batch := by
        have hsub := (@takenIds_start site limits progress.totalStats.usersSeen
          progress.afterUserId).sublist
        rw [htaken] at hsub
        intro userId hmem hin
        exact List.disjoint_of_nodup_append (hnodup.sublist hsub) hin hmem
      rw [backfillLoop_some hlast]
      show site.backfillLoop limits dryRun (site.processNextBatch dryRun progress batch last) = _
      rw [ih, hnext]
      show BackfillProgress.mk (site.rowsAfter dryRun (site.rowsAfter dryRun progress.rows batch)
          (site.takenIds limits (progress.totalStats.usersSeen + batch.length) last))
        ((progress.totalStats.add (site.countStats progress.rows batch)).add
          (site.countStats (site.rowsAfter dryRun progress.rows batch)
            (site.takenIds limits (progress.totalStats.usersSeen + batch.length) last)))
        ((site.takenIds limits (progress.totalStats.usersSeen + batch.length) last).getLast?.getD
          last) = _
      rw [rowsAfter_append, add_assoc,
        countStats_congr fun userId hmem => rowsAfter_of_notMem (hdisjoint userId hmem),
        ← countStats_append, ← htaken]
      congr 1
      rw [htaken, List.getLast?_append, hlast]
      cases (site.takenIds limits (progress.totalStats.usersSeen + batch.length) last).getLast? <;>
        rfl

/-- A run updates and counts the users that it takes. -/
theorem backfillUserActivity_eq (limits : BackfillLimits) (dryRun : Bool) (startAfterUserId : Nat)
    (rows : Nat → UserRows) :
    site.backfillUserActivity limits dryRun startAfterUserId rows =
      { rows := site.rowsAfter dryRun rows (site.takenIds limits 0 startAfterUserId)
        totalStats := site.countStats rows (site.takenIds limits 0 startAfterUserId)
        afterUserId :=
          (site.takenIds limits 0 startAfterUserId).getLast?.getD startAfterUserId } := by
  unfold backfillUserActivity
  rw [backfillLoop_eq]
  congr 1
  unfold BackfillStats.add
  simp

/-! ### Consecutive runs -/

theorem takenIds_zero (limits : BackfillLimits) (startAfterUserId : Nat) :
    site.takenIds limits 0 startAfterUserId =
      BackfillLimits.limitTo limits.maxUsers (keysAfter site.userIds startAfterUserId) := by
  unfold takenIds BackfillLimits.remaining
  cases limits.maxUsers <;> rfl

/-- Behind the last of the first users are the others. -/
theorem keysAfter_getLast?_getD {startAfterUserId : Nat} {taken left : List Nat}
    (h : keysAfter site.userIds startAfterUserId = taken ++ left) :
    keysAfter site.userIds (taken.getLast?.getD startAfterUserId) = left := by
  cases hlast : taken.getLast? with
  | none =>
      rw [List.getLast?_eq_none_iff.mp hlast, List.nil_append] at h
      exact h
  | some last => exact keysAfter_getLast site.nodup h hlast

/-- The limit of two runs together. -/
def addMax : Option Nat → Option Nat → Option Nat
  | some maxUsers, some maxUsers' => some (maxUsers + maxUsers')
  | _, _ => none

/-- The limit of consecutive runs together. -/
def totalMax : List BackfillLimits → Option Nat
  | [] => some 0
  | limits :: runs => addMax limits.maxUsers (totalMax runs)

/-- The users up to a limit, and then those behind them up to another one. -/
theorem limitTo_addMax (maxUsers maxUsers' : Option Nat) (userIds : List Nat) :
    ∃ left, userIds = BackfillLimits.limitTo maxUsers userIds ++ left ∧
      BackfillLimits.limitTo (addMax maxUsers maxUsers') userIds =
        BackfillLimits.limitTo maxUsers userIds ++ BackfillLimits.limitTo maxUsers' left := by
  cases maxUsers with
  | none =>
      have hnil : BackfillLimits.limitTo maxUsers' [] = [] := by
        cases maxUsers' with
        | none => rfl
        | some maxUsers' => exact List.take_nil
      refine ⟨[], (List.append_nil _).symm, ?_⟩
      rw [hnil, List.append_nil]
      rfl
  | some maxUsers =>
      refine ⟨userIds.drop maxUsers, (List.take_append_drop _ _).symm, ?_⟩
      cases maxUsers' with
      | none => exact (List.take_append_drop _ _).symm
      | some maxUsers' => exact List.take_add

/-- Consecutive runs take the users that one run with their limits takes. -/
theorem consecutiveRuns_eq (startAfterUserId : Nat) (rows : Nat → UserRows)
    (runs : List BackfillLimits) :
    site.consecutiveRuns startAfterUserId rows runs =
      (site.rowsAfter false rows
          (BackfillLimits.limitTo (totalMax runs) (keysAfter site.userIds startAfterUserId)),
        (BackfillLimits.limitTo (totalMax runs)
          (keysAfter site.userIds startAfterUserId)).getLast?.getD startAfterUserId) := by
  induction runs generalizing startAfterUserId rows with
  | nil =>
      show (rows, startAfterUserId) = (updateAll site.updateUser [] rows, startAfterUserId)
      rw [updateAll_nil]
  | cons limits runs ih =>
      obtain ⟨left, hleft, htotal⟩ := limitTo_addMax limits.maxUsers (totalMax runs)
        (keysAfter site.userIds startAfterUserId)
      rw [consecutiveRuns, backfillUserActivity_eq, takenIds_zero]
      dsimp only
      rw [ih, keysAfter_getLast?_getD hleft, rowsAfter_append, totalMax, htotal]
      congr 1
      rw [List.getLast?_append]
      cases (BackfillLimits.limitTo (totalMax runs) left).getLast? <;> rfl

/-- No users come after the last id of these runs. -/
def ReachesEnd (site : BackfillSite) (startAfterUserId : Nat) (rows : Nat → UserRows)
    (runs : List BackfillLimits) : Prop :=
  site.getUserIdBatch (site.consecutiveRuns startAfterUserId rows runs).2 1 = []

/-- Runs that reach the end take all users behind their start. -/
theorem limitTo_of_reachesEnd {startAfterUserId : Nat} {rows : Nat → UserRows}
    {runs : List BackfillLimits} (h : site.ReachesEnd startAfterUserId rows runs) :
    BackfillLimits.limitTo (totalMax runs) (keysAfter site.userIds startAfterUserId) =
      keysAfter site.userIds startAfterUserId := by
  obtain ⟨left, hleft⟩ : ∃ left, keysAfter site.userIds startAfterUserId =
      BackfillLimits.limitTo (totalMax runs) (keysAfter site.userIds startAfterUserId) ++ left := by
    cases totalMax runs with
    | none => exact ⟨[], (List.append_nil _).symm⟩
    | some maxUsers => exact ⟨_, (List.take_append_drop _ _).symm⟩
  unfold ReachesEnd getUserIdBatch at h
  rw [consecutiveRuns_eq, List.take_eq_nil_iff] at h
  have hnil := h.resolve_left (by omega)
  have hrest := keysAfter_getLast?_getD hleft
  rw [← userIds, hrest] at hnil
  rw [hnil, List.append_nil] at hleft
  exact hleft.symm

/-- The backfill of these rows, from this start, does not depend on batching. -/
structure IndependentOfBatching (site : BackfillSite) (startAfterUserId : Nat)
    (rows : Nat → UserRows) : Prop where
  /-- The batch size changes nothing. -/
  batchSize : ∀ (limits limits' : BackfillLimits) (dryRun : Bool),
    limits.maxUsers = limits'.maxUsers →
      site.backfillUserActivity limits dryRun startAfterUserId rows =
        site.backfillUserActivity limits' dryRun startAfterUserId rows
  /-- Consecutive runs leave the rows that one run with their limits together leaves. -/
  consecutive : ∀ (runs : List BackfillLimits) (whole : BackfillLimits),
    whole.maxUsers = totalMax runs →
      (site.consecutiveRuns startAfterUserId rows runs).1 =
        (site.backfillUserActivity whole false startAfterUserId rows).rows
  /-- Consecutive runs that reach the end leave the rows that a complete run leaves. -/
  complete : ∀ (runs : List BackfillLimits) (whole : BackfillLimits), whole.maxUsers = none →
    site.ReachesEnd startAfterUserId rows runs →
      (site.consecutiveRuns startAfterUserId rows runs).1 =
        (site.backfillUserActivity whole false startAfterUserId rows).rows
  /-- A dry run reports the counts of the real run, and changes nothing. -/
  dryRun : ∀ limits : BackfillLimits,
    (site.backfillUserActivity limits true startAfterUserId rows).totalStats =
        (site.backfillUserActivity limits false startAfterUserId rows).totalStats ∧
      (site.backfillUserActivity limits true startAfterUserId rows).rows = rows
  /-- A second complete run changes nothing, and reports no changes. -/
  second : ∀ whole whole' : BackfillLimits, whole.maxUsers = none → whole'.maxUsers = none →
    let first := site.backfillUserActivity whole false startAfterUserId rows
    let second := site.backfillUserActivity whole' false startAfterUserId first.rows
    second.rows = first.rows ∧ second.totalStats = { usersSeen := first.totalStats.usersSeen }
  /-- A run lowers no last activity. -/
  lastActivity : ∀ (limits : BackfillLimits) (dryRun : Bool) (userId : Nat)
    (activity : UserActivityRow), (rows userId).activity = some activity →
      ∃ activity', ((site.backfillUserActivity limits dryRun startAfterUserId rows).rows
          userId).activity = some activity' ∧
        activity.lastActivity ≤ activity'.lastActivity

/-- Settled users are counted, and nothing else. -/
theorem countStats_of_settled {rows : Nat → UserRows} {userIds : List Nat}
    (h : ∀ userId ∈ userIds, site.Settled userId (rows userId)) :
    site.countStats rows userIds = { usersSeen := userIds.length } := by
  have hflat : ∀ {Row : Type} (staged : BackfillBatchChanges → List Row),
      staged { stats := {}, when := site.now } = [] →
        (userIds.flatMap fun userId => staged (site.staged (rows userId) userId)).length = 0 := by
    intro Row staged hnil
    rw [List.length_eq_zero_iff, List.flatMap_eq_nil_iff]
    intro userId hmem
    rw [(h userId hmem).staged]
    exact hnil
  unfold countStats
  rw [hflat BackfillBatchChanges.activitiesToCreate rfl,
    hflat BackfillBatchChanges.activitiesToUpdate rfl,
    hflat BackfillBatchChanges.statesToCreate rfl, hflat BackfillBatchChanges.statesToUpdate rfl]

/-- The backfill does not depend on batching, whatever the users and their rows are. -/
theorem independentOfBatching (site : BackfillSite) (startAfterUserId : Nat)
    (rows : Nat → UserRows) : site.IndependentOfBatching startAfterUserId rows := by
  constructor
  case batchSize =>
    intro limits limits' dryRun hmax
    rw [backfillUserActivity_eq, backfillUserActivity_eq, takenIds_zero, takenIds_zero, hmax]
  case consecutive =>
    intro runs whole hmax
    rw [consecutiveRuns_eq, backfillUserActivity_eq, takenIds_zero, hmax]
  case complete =>
    intro runs whole hmax hend
    rw [consecutiveRuns_eq, limitTo_of_reachesEnd hend, backfillUserActivity_eq, takenIds_zero,
      hmax]
    rfl
  case dryRun =>
    intro limits
    rw [backfillUserActivity_eq, backfillUserActivity_eq]
    exact ⟨rfl, rfl⟩
  case second =>
    intro whole whole' hmax hmax'
    dsimp only
    rw [backfillUserActivity_eq, backfillUserActivity_eq, takenIds_zero, takenIds_zero, hmax,
      hmax']
    -- all users behind the start are settled by the first run
    have hsettled : ∀ userId ∈ keysAfter site.userIds startAfterUserId, site.Settled userId
        (site.rowsAfter false rows (keysAfter site.userIds startAfterUserId) userId) := by
      intro userId hmem
      show site.Settled userId (updateAll site.updateUser _ rows userId)
      rw [updateAll_of_mem hmem]
      exact settled_updateUser site userId (rows userId)
    refine ⟨?_, countStats_of_settled hsettled⟩
    exact updateAll_eq_self fun userId hmem => (hsettled userId hmem).updateUser
  case lastActivity =>
    intro limits dryRun userId activity hactivity
    rw [backfillUserActivity_eq]
    show ∃ activity', (site.rowsAfter dryRun rows _ userId).activity = some activity' ∧ _
    generalize site.takenIds limits 0 startAfterUserId = taken
    by_cases hmem : userId ∈ taken
    · cases dryRun with
      | true => exact ⟨activity, hactivity, le_refl _⟩
      | false =>
          show ∃ activity', (updateAll site.updateUser taken rows userId).activity = _ ∧ _
          rw [updateAll_of_mem hmem]
          exact lastActivity_le_updateUser site userId hactivity
    · rw [rowsAfter_of_notMem hmem]
      exact ⟨activity, hactivity, le_refl _⟩

end BackfillSite

end Onadata
