import Onadata.Apps.Logger.Models.DailyCount
import Onadata.Lib.Run

/-!
# `Onadata.Proofs.Apps.Logger.DailyCount`: when the count of today is right

The date and the count are two cache entries. The count does not say of which day it is: the
first operation of a day writes the date next to the count of an earlier day, if that is still
cached.

`todayRight_run` proves that the count is right after each operation of a run exactly when
each operation meets `KeepsToday`: an operation on a day whose date is not cached finds no
count of an earlier day (a creation) or a count of zero (a deletion), a hard deletion finds a
live submission or one of an earlier day, and the entries of a day do not expire before the
day is over.
-/

set_option autoImplicit false

namespace Onadata.Proofs

open Onadata.Lib

variable {calendar : LocalCalendar}

/-- The cached date is the one of today. -/
def DateCached (calendar : LocalCalendar) (s : DailyForm) : Prop :=
  cacheGet s.dateEntry s.now = some (s.currentDate calendar)

instance (s : DailyForm) : Decidable (DateCached calendar s) :=
  inferInstanceAs (Decidable (_ = _))

/-- The cached count. -/
def cachedCount (s : DailyForm) : Option Int :=
  cacheGet s.countEntry s.now

/-- The count of today is right. -/
def TodayRight (calendar : LocalCalendar) (s : DailyForm) : Prop :=
  s.submissionCountForToday calendar = some (s.liveCreatedToday calendar : Int)

/-- The condition on a hard deletion: of a live submission it is the one on every deletion. A
submission that was deleted before must not be counted out again. -/
def KeepsHardDeleted (calendar : LocalCalendar) (s : DailyForm) (row : DatedRow) : Prop :=
  if DateCached calendar s then
    row.deleted = true → calendar.date row.createdAt = s.currentDate calendar →
      s.liveCreatedToday calendar = 0
  else
    cachedCount s = some 0 ∨
      (cachedCount s = some 1 ∧ calendar.date row.createdAt = s.currentDate calendar)

/-- The condition. -/
def KeepsToday (calendar : LocalCalendar) (s : DailyForm) : DailyOp → Prop
  | .create => DateCached calendar s ∨ cachedCount s = none ∨ cachedCount s = some 0
  | .softDelete _ => DateCached calendar s ∨ cachedCount s = some 0
  | .hardDelete pk => ∀ row, s.instances.get? pk = some row → KeepsHardDeleted calendar s row
  | .wait time =>
      DateCached calendar s → calendar.date time = s.currentDate calendar →
        if cacheGet s.dateEntry time = none then s.liveCreatedToday calendar = 0
        else cacheGet s.countEntry time ≠ none

/-- The count is right, and what is stored comes from the past. -/
structure DailyLedger (calendar : LocalCalendar) (s : DailyForm) : Prop where
  right : TodayRight calendar s
  created : ∀ pk row, s.instances.get? pk = some row → row.createdAt ≤ s.now
  dated : ∀ entry, s.dateEntry = some entry → entry.value ≤ s.currentDate calendar

/-! ### The cache entries -/

/-- An entry that was just written is there. -/
theorem cacheGet_set {Value : Type} (value : Value) (now : Nat) :
    cacheGet (some { value := value, expiresAt := now + 86400 }) now = some value := by
  rw [cacheGet, if_pos (show now < now + 86400 by omega)]

/-- The date of today is cached after a call. -/
theorem dateCached_touchDate (s : DailyForm) : DateCached calendar (s.touchDate calendar) := by
  unfold DailyForm.touchDate
  by_cases h : cacheGet s.dateEntry s.now = some (s.currentDate calendar)
  · rw [if_pos h]
    exact h
  · rw [if_neg h]
    exact cacheGet_set _ _

/-- A call leaves everything but the two entries as it is. -/
theorem touchDate_fields (s : DailyForm) :
    (s.touchDate calendar).now = s.now ∧ (s.touchDate calendar).countEntry = s.countEntry ∧
      (s.touchDate calendar).instances = s.instances := by
  unfold DailyForm.touchDate
  split <;> exact ⟨rfl, rfl, rfl⟩

/-- The cached count after an increment or a decrement of a cached count. -/
theorem cachedCount_addToCount {s : DailyForm} {count : Int} (h : cachedCount s = some count)
    (delta : Int) : cachedCount (s.addToCount delta) = some (count + delta) := by
  unfold cachedCount cacheGet at h
  split at h
  · rename_i entry hentry
    by_cases hnow : s.now < entry.expiresAt
    · rw [if_pos hnow] at h
      obtain rfl := Option.some.inj h
      unfold DailyForm.addToCount cachedCount
      rw [hentry]
      simp only [if_pos hnow]
      rw [cacheGet, if_pos hnow]
    · rw [if_neg hnow] at h
      cases h
  · cases h

/-- An increment or a decrement changes the count only. -/
theorem addToCount_fields (s : DailyForm) (delta : Int) :
    (s.addToCount delta).now = s.now ∧ (s.addToCount delta).dateEntry = s.dateEntry ∧
      (s.addToCount delta).instances = s.instances := by
  unfold DailyForm.addToCount
  split
  · split <;> exact ⟨rfl, rfl, rfl⟩
  · exact ⟨rfl, rfl, rfl⟩

/-- What a call makes of the count. -/
def countAfter (incr counted : Bool) (count : Option Int) : Option Int :=
  if count.getD 0 = 0 ∧ incr then some 1
  else if incr then count.map (· + 1)
  else if 0 < count.getD 0 ∧ counted then count.map (· - 1)
  else count

/-- `_update_submission_count_for_today`: the date is the one of today, and the count is
written without a look at the day that it is of. -/
theorem update_spec (s : DailyForm) (incr : Bool) (dateCreated : Option Nat) :
    (s.updateSubmissionCountForToday calendar incr dateCreated).now = s.now ∧
    (s.updateSubmissionCountForToday calendar incr dateCreated).instances = s.instances ∧
    (s.updateSubmissionCountForToday calendar incr dateCreated).dateEntry =
      (s.touchDate calendar).dateEntry ∧
    cachedCount (s.updateSubmissionCountForToday calendar incr dateCreated) =
      countAfter incr (dateCreated.map calendar.date = some (s.currentDate calendar))
        (cachedCount s) := by
  obtain ⟨hnow, hcount, hinstances⟩ := @touchDate_fields calendar s
  have hsame : cachedCount (s.touchDate calendar) = cachedCount s := by
    unfold cachedCount
    rw [hnow, hcount]
  have hdate : (s.touchDate calendar).currentDate calendar = s.currentDate calendar :=
    congrArg calendar.date hnow
  unfold DailyForm.updateSubmissionCountForToday countAfter
  dsimp only
  rw [hdate, show cacheGet (s.touchDate calendar).countEntry (s.touchDate calendar).now =
    cachedCount s from hsame]
  by_cases hfirst : (cachedCount s).getD 0 = 0 ∧ incr = true
  · rw [if_pos hfirst, if_pos hfirst]
    exact ⟨hnow, hinstances, rfl, cacheGet_set _ _⟩
  · rw [if_neg hfirst, if_neg hfirst]
    have hcached : ∀ delta : Int, (cachedCount s).getD 0 ≠ 0 →
        cachedCount ((s.touchDate calendar).addToCount delta) =
          (cachedCount s).map (· + delta) := by
      intro delta hne
      cases hcase : cachedCount s with
      | none => exact absurd (by rw [hcase]; rfl) hne
      | some count => exact cachedCount_addToCount (hsame.trans hcase) delta
    have hfields := fun delta => addToCount_fields (s.touchDate calendar) delta
    by_cases hincr : incr = true
    · rw [if_pos hincr, if_pos hincr]
      refine ⟨(hfields 1).1.trans hnow, (hfields 1).2.2.trans hinstances, (hfields 1).2.1, ?_⟩
      exact hcached 1 fun hzero => hfirst ⟨hzero, hincr⟩
    · rw [if_neg hincr, if_neg hincr]
      by_cases hdecr : 0 < (cachedCount s).getD 0 ∧
          dateCreated.map calendar.date = some (s.currentDate calendar)
      · rw [if_pos hdecr, if_pos ⟨hdecr.1, decide_eq_true hdecr.2⟩]
        refine ⟨(hfields (-1)).1.trans hnow, (hfields (-1)).2.2.trans hinstances,
          (hfields (-1)).2.1, ?_⟩
        exact hcached (-1) (by omega)
      · rw [if_neg hdecr, if_neg fun h => hdecr ⟨h.1, of_decide_eq_true h.2⟩]
        exact ⟨hnow, hinstances, rfl, hsame⟩

/-- The count is right after a call exactly when the count that it leaves is. -/
theorem todayRight_update_iff (s s' : DailyForm) (incr : Bool) (dateCreated : Option Nat)
    (hnow : s'.now = s.now)
    (hdate : s'.dateEntry = (s.updateSubmissionCountForToday calendar incr dateCreated).dateEntry)
    (hcount : s'.countEntry =
      (s.updateSubmissionCountForToday calendar incr dateCreated).countEntry) :
    TodayRight calendar s' ↔
      countAfter incr (dateCreated.map calendar.date = some (s.currentDate calendar))
        (cachedCount s) = some (s'.liveCreatedToday calendar : Int) := by
  obtain ⟨hsame, -, hentry, hafter⟩ := @update_spec calendar s incr dateCreated
  have hcached : DateCached calendar s' := by
    have htouched := @dateCached_touchDate calendar s
    unfold DateCached DailyForm.currentDate at htouched ⊢
    rw [hdate, hentry, hnow, ← (@touchDate_fields calendar s).1]
    exact htouched
  have hread : s'.submissionCountForToday calendar = cachedCount s' := if_pos hcached
  rw [TodayRight, hread, ← hafter]
  unfold cachedCount
  rw [hcount, hnow, hsame]

/-- The cached count of a state in which the count of today is right. -/
theorem right_cases {s : DailyForm} (hs : TodayRight calendar s) :
    (DateCached calendar s ∧ cachedCount s = some (s.liveCreatedToday calendar : Int)) ∨
      (¬ DateCached calendar s ∧ s.liveCreatedToday calendar = 0) := by
  unfold TodayRight DailyForm.submissionCountForToday at hs
  by_cases h : DateCached calendar s
  · rw [if_pos (show cacheGet s.dateEntry s.now = _ from h)] at hs
    exact Or.inl ⟨h, hs⟩
  · rw [if_neg (show ¬ cacheGet s.dateEntry s.now = _ from h), Option.some.injEq] at hs
    exact Or.inr ⟨h, by omega⟩

/-! ### The operations -/

/-- The number of the submissions of today after a creation. -/
theorem liveCreatedToday_create (s : DailyForm) :
    (s.create calendar).liveCreatedToday calendar = s.liveCreatedToday calendar + 1 := by
  obtain ⟨hnow, hinstances, -, -⟩ := @update_spec calendar
    { s with instances := s.instances.create { createdAt := s.now } } true none
  unfold DailyForm.liveCreatedToday DailyForm.create
  rw [hinstances]
  unfold DailyForm.currentDate
  rw [hnow]
  rw [Table.count_create]
  simp

/-- A creation keeps the count right exactly when no count of an earlier day is cached. -/
theorem todayRight_create_iff {s : DailyForm} (hs : TodayRight calendar s) :
    TodayRight calendar (s.create calendar) ↔ KeepsToday calendar s .create := by
  obtain ⟨hnow, -, -, -⟩ := @update_spec calendar
    { s with instances := s.instances.create { createdAt := s.now } } true none
  have hiff := @todayRight_update_iff calendar
    { s with instances := s.instances.create { createdAt := s.now } } (s.create calendar) true none
    hnow rfl rfl
  rw [hiff, liveCreatedToday_create]
  show countAfter true _ (cachedCount s) = _ ↔
    DateCached calendar s ∨ cachedCount s = none ∨ cachedCount s = some 0
  unfold countAfter
  rcases right_cases hs with ⟨hcached, hcount⟩ | ⟨hnot, hzero⟩
  · refine iff_of_true ?_ (Or.inl hcached)
    rw [hcount, Option.getD_some]
    by_cases hfirst : (s.liveCreatedToday calendar : Int) = 0
    · rw [if_pos ⟨hfirst, rfl⟩, Int.natCast_add, hfirst]
      rfl
    · rw [if_neg fun h => hfirst h.1, if_pos rfl]
      simp
  · rw [hzero]
    cases hcase : cachedCount s with
    | none => simp [hnot]
    | some count =>
        by_cases hcount : count = 0
        · simp [hcount]
        · refine iff_of_false ?_ (by simp [hnot, hcount])
          rw [Option.getD_some, if_neg fun h => hcount h.1, if_pos rfl, Option.map_some,
            Option.some.injEq]
          omega

/-- The number of the submissions of today without one that was live, and with it. -/
theorem liveCreatedToday_removed {s : DailyForm} {pk : Nat} {row : DatedRow}
    (hrow : s.instances.get? pk = some row) :
    ((s.instances.delete pk).count fun row =>
        calendar.date row.createdAt = s.currentDate calendar && !row.deleted) +
      (if calendar.date row.createdAt = s.currentDate calendar ∧ row.deleted = false then 1 else 0) =
        s.liveCreatedToday calendar := by
  have htotal := Table.count_delete hrow fun row =>
    calendar.date row.createdAt = s.currentDate calendar && !row.deleted
  rw [DailyForm.liveCreatedToday, ← htotal]
  by_cases h : calendar.date row.createdAt = s.currentDate calendar ∧ row.deleted = false
  · simp [h]
  · have hnot : (decide (calendar.date row.createdAt = s.currentDate calendar) && !row.deleted) =
        false := by
      rw [Bool.eq_false_iff]
      exact fun htrue => h (by simpa using htrue)
    simp [h, hnot]

/-- A deletion leaves the right count exactly under the condition on hard deletions. -/
theorem countAfter_delete_iff {s : DailyForm} (hs : TodayRight calendar s) {pk : Nat}
    {row : DatedRow} (hrow : s.instances.get? pk = some row) :
    countAfter false (Option.map calendar.date (some row.createdAt) =
        some (s.currentDate calendar)) (cachedCount s) =
      some (((s.instances.delete pk).count fun row =>
        calendar.date row.createdAt = s.currentDate calendar && !row.deleted : Nat) : Int) ↔
      KeepsHardDeleted calendar s row := by
  have hremoved := @liveCreatedToday_removed calendar _ _ _ hrow
  generalize (s.instances.delete pk).count _ = left at hremoved ⊢
  unfold countAfter KeepsHardDeleted
  simp only [Bool.false_eq_true, and_false, if_false, Option.map_some, Option.some.injEq,
    decide_eq_true_eq]
  rcases right_cases hs with ⟨hcached, hcount⟩ | ⟨hnot, hzero⟩
  · rw [if_pos hcached, hcount, Option.getD_some]
    generalize s.liveCreatedToday calendar = live at hremoved
    by_cases htoday : calendar.date row.createdAt = s.currentDate calendar
    · cases hdeleted : row.deleted with
      | false =>
          simp only [htoday, hdeleted, and_self, if_true] at hremoved
          rw [if_pos ⟨by omega, htoday⟩]
          simp only [Option.map_some, Option.some.injEq, Bool.false_eq_true, false_implies,
            iff_true]
          omega
      | true =>
          simp only [hdeleted, Bool.true_eq_false, and_false, if_false] at hremoved
          simp only [htoday, true_implies]
          by_cases hpos : 0 < (live : Int)
          · rw [if_pos ⟨hpos, trivial⟩]
            simp only [Option.map_some, Option.some.injEq]
            omega
          · rw [if_neg fun h => hpos h.1]
            simp only [Option.some.injEq]
            omega
    · simp only [htoday, false_and, if_false] at hremoved
      rw [if_neg fun h => htoday h.2]
      simp only [Option.some.injEq, htoday, false_implies, implies_true, iff_true]
      omega
  · -- No live submission is of today, so that the count has to become zero.
    have hleft : left = 0 := by
      omega
    rw [if_neg hnot, hleft]
    cases hcase : cachedCount s with
    | none => simp
    | some count =>
        rw [Option.getD_some]
        by_cases hdecr : 0 < count ∧ calendar.date row.createdAt = s.currentDate calendar
        · rw [if_pos hdecr]
          simp only [Option.map_some, Option.some.injEq, hdecr.2, and_true, Int.natCast_zero]
          omega
        · rw [if_neg hdecr]
          simp only [Option.some.injEq, Int.natCast_zero]
          constructor
          · exact Or.inl
          · rintro (h | ⟨h, htoday⟩)
            · exact h
            · exact absurd ⟨by omega, htoday⟩ hdecr

/-- A hard deletion keeps the count right exactly under the condition. -/
theorem todayRight_hardDelete_iff {s : DailyForm} (hs : TodayRight calendar s) {pk : Nat}
    {row : DatedRow} (hrow : s.instances.get? pk = some row) :
    TodayRight calendar (s.hardDelete calendar pk row) ↔ KeepsHardDeleted calendar s row := by
  obtain ⟨hnow, hinstances, -, -⟩ := @update_spec calendar
    { s with instances := s.instances.delete pk } false (some row.createdAt)
  have hiff := @todayRight_update_iff calendar
    { s with instances := s.instances.delete pk } (s.hardDelete calendar pk row) false
    (some row.createdAt) hnow rfl rfl
  have hlive : (s.hardDelete calendar pk row).liveCreatedToday calendar =
      (s.instances.delete pk).count fun row =>
        calendar.date row.createdAt = s.currentDate calendar && !row.deleted := by
    unfold DailyForm.liveCreatedToday DailyForm.hardDelete
    rw [hinstances]
    unfold DailyForm.currentDate
    rw [hnow]
  rw [hiff, hlive]
  exact countAfter_delete_iff hs hrow

/-- A soft deletion keeps the count right exactly when the date is cached, or the count is
zero. -/
theorem todayRight_softDelete_iff {s : DailyForm} (hs : TodayRight calendar s) {pk : Nat}
    {row : DatedRow} (hrow : s.instances.get? pk = some row) (hlive : row.deleted = false) :
    TodayRight calendar (s.softDelete calendar pk row) ↔
      KeepsToday calendar s (.softDelete pk) := by
  obtain ⟨hnow, hinstances, -, -⟩ := @update_spec calendar s false (some row.createdAt)
  have hiff := @todayRight_update_iff calendar s (s.softDelete calendar pk row) false
    (some row.createdAt) hnow rfl rfl
  have hcount : (s.softDelete calendar pk row).liveCreatedToday calendar =
      (s.instances.delete pk).count fun row =>
        calendar.date row.createdAt = s.currentDate calendar && !row.deleted := by
    unfold DailyForm.liveCreatedToday DailyForm.softDelete
    dsimp only
    rw [hinstances]
    unfold DailyForm.currentDate
    dsimp only
    rw [hnow, Table.count_save hrow]
    simp
  rw [hiff, hcount, countAfter_delete_iff hs hrow]
  show KeepsHardDeleted calendar s row ↔ DateCached calendar s ∨ cachedCount s = some 0
  unfold KeepsHardDeleted
  rcases right_cases hs with ⟨hcached, -⟩ | ⟨hnot, hzero⟩
  · rw [if_pos hcached]
    exact iff_of_true (fun hdeleted => absurd hdeleted (by simp [hlive])) (Or.inl hcached)
  · -- A live submission of today would be one of the number.
    have htoday : calendar.date row.createdAt ≠ s.currentDate calendar := by
      intro htoday
      have hremoved := @liveCreatedToday_removed calendar _ _ _ hrow
      rw [if_pos ⟨htoday, hlive⟩] at hremoved
      omega
    rw [if_neg hnot]
    simp [hnot, htoday]

/-- No submission and no cached date is of a later day. -/
theorem later_day {s : DailyForm} (hs : DailyLedger calendar s) {time : Nat}
    (hle : s.now ≤ time) (hday : calendar.date time ≠ s.currentDate calendar) :
    ({ s with now := time } : DailyForm).liveCreatedToday calendar = 0 ∧
      ¬ DateCached calendar { s with now := time } := by
  have hlater : s.currentDate calendar < calendar.date time :=
    Nat.lt_of_le_of_ne (calendar.date_le hle) (Ne.symm hday)
  constructor
  · unfold DailyForm.liveCreatedToday Table.count
    rw [List.countP_eq_zero]
    intro item hitem hcounted
    have hcreated := hs.created item.1 item.2 (Table.get?_eq_some.mpr hitem)
    have hdate := calendar.date_le hcreated
    simp only [Bool.and_eq_true, decide_eq_true_eq] at hcounted
    have hsame : calendar.date item.2.createdAt = calendar.date time := hcounted.1
    unfold DailyForm.currentDate at hlater
    omega
  · intro hcached
    unfold DateCached cacheGet at hcached
    dsimp only at hcached
    split at hcached
    · rename_i entry hentry
      have hdated := hs.dated entry hentry
      split at hcached
      · have hsame : entry.value = calendar.date time := Option.some.inj hcached
        omega
      · cases hcached
    · cases hcached

/-- The passing of time keeps the count right exactly when the entries of the day do not
expire before the day is over. -/
theorem todayRight_wait_iff {s : DailyForm} (hs : DailyLedger calendar s) {time : Nat}
    (hle : s.now ≤ time) :
    TodayRight calendar { s with now := time } ↔ KeepsToday calendar s (.wait time) := by
  show _ ↔ (DateCached calendar s → calendar.date time = s.currentDate calendar → _)
  by_cases hday : calendar.date time = s.currentDate calendar
  · have hlive : ({ s with now := time } : DailyForm).liveCreatedToday calendar =
        s.liveCreatedToday calendar := by
      unfold DailyForm.liveCreatedToday DailyForm.currentDate
      unfold DailyForm.currentDate at hday
      dsimp only
      rw [hday]
    have hkept : ∀ {Value : Type} (entry : Option (CacheEntry Value)),
        cacheGet entry time = cacheGet entry s.now ∨ cacheGet entry time = none := by
      intro Value entry
      cases entry with
      | none => exact Or.inr rfl
      | some entry =>
          unfold cacheGet
          dsimp only
          by_cases htime : time < entry.expiresAt
          · rw [if_pos htime, if_pos (by omega)]
            exact Or.inl rfl
          · rw [if_neg htime]
            exact Or.inr rfl
    unfold TodayRight DailyForm.submissionCountForToday
    rw [hlive, show ({ s with now := time } : DailyForm).currentDate calendar =
      s.currentDate calendar from hday]
    dsimp only
    rcases right_cases hs.right with ⟨hcached, hcount⟩ | ⟨hnot, hzero⟩
    · simp only [hcached, hday, true_implies]
      rcases hkept s.dateEntry with hdate | hdate
      · rw [hdate, if_pos (show cacheGet s.dateEntry s.now = _ from hcached), if_neg (by
          rw [show cacheGet s.dateEntry s.now = _ from hcached]; simp)]
        rcases hkept s.countEntry with hsame | hgone
        · rw [hsame, show cacheGet s.countEntry s.now = _ from hcount]
          simp
        · rw [hgone]
          simp
      · rw [hdate, if_neg (by simp), if_pos rfl, Option.some.injEq]
        omega
    · refine iff_of_true ?_ fun hcached => absurd hcached hnot
      rcases hkept s.dateEntry with hdate | hdate
      · rw [hdate, if_neg (show ¬ cacheGet s.dateEntry s.now = _ from hnot), hzero]
        rfl
      · rw [hdate, if_neg (by simp), hzero]
        rfl
  · obtain ⟨hzero, hnot⟩ := later_day hs hle hday
    refine iff_of_true ?_ fun _ hsame => absurd hsame hday
    unfold TodayRight DailyForm.submissionCountForToday
    rw [if_neg (show ¬ cacheGet _ _ = some _ from hnot), hzero]
    rfl

/-! ### Runs -/

/-- From a right count, an operation leads to a right count exactly under the condition. -/
theorem todayRight_iff {s s' : DailyForm} {op : DailyOp} (hs : DailyLedger calendar s)
    (hstep : DailyStep calendar s op s') : TodayRight calendar s' ↔ KeepsToday calendar s op := by
  cases op with
  | create =>
      obtain rfl := hstep
      exact todayRight_create_iff hs.right
  | softDelete pk =>
      obtain ⟨row, hrow, hlive, rfl⟩ := hstep
      exact todayRight_softDelete_iff hs.right hrow hlive
  | hardDelete pk =>
      obtain ⟨row, hrow, rfl⟩ := hstep
      rw [todayRight_hardDelete_iff hs.right hrow, KeepsToday, hrow]
      simp
  | wait time =>
      obtain ⟨hle, rfl⟩ := hstep
      exact todayRight_wait_iff hs hle

/-- The cached date after a call is not of a later day. -/
theorem dated_update {s : DailyForm} (hs : DailyLedger calendar s) {s' : DailyForm}
    (hnow : s'.now = s.now) (hdate : s'.dateEntry = (s.touchDate calendar).dateEntry) :
    ∀ entry, s'.dateEntry = some entry → entry.value ≤ s'.currentDate calendar := by
  intro entry hentry
  rw [hdate] at hentry
  rw [show s'.currentDate calendar = s.currentDate calendar from congrArg calendar.date hnow]
  unfold DailyForm.touchDate at hentry
  split at hentry
  · exact hs.dated entry hentry
  · obtain rfl := Option.some.inj hentry
    exact Nat.le_refl _

/-- What is stored after an operation comes from the past. -/
theorem past_step {s s' : DailyForm} {op : DailyOp} (hs : DailyLedger calendar s)
    (hstep : DailyStep calendar s op s') :
    (∀ pk row, s'.instances.get? pk = some row → row.createdAt ≤ s'.now) ∧
      ∀ entry, s'.dateEntry = some entry → entry.value ≤ s'.currentDate calendar := by
  cases op with
  | create =>
      obtain rfl := hstep
      obtain ⟨hnow, hinstances, hdate, -⟩ := @update_spec calendar
        { s with instances := s.instances.create { createdAt := s.now } } true none
      refine ⟨fun pk row hrow => ?_, dated_update hs hnow ?_⟩
      · have hnow' : (s.create calendar).now = s.now := hnow
        rw [hnow']
        rw [DailyForm.create, hinstances, Table.get?_create] at hrow
        split at hrow
        · obtain rfl := Option.some.inj hrow
          exact Nat.le_refl _
        · exact hs.created pk row hrow
      · rw [DailyForm.create, hdate]
        unfold DailyForm.touchDate DailyForm.currentDate
        dsimp only
        split <;> rfl
  | softDelete pk =>
      obtain ⟨row, hrow, -, rfl⟩ := hstep
      obtain ⟨hnow, hinstances, hdate, -⟩ := @update_spec calendar s false
        (some row.createdAt)
      refine ⟨fun pk' row' hrow' => ?_, dated_update hs hnow hdate⟩
      have hnow' : (s.softDelete calendar pk row).now = s.now := hnow
      have hrow' : ((s.updateSubmissionCountForToday calendar false
          (some row.createdAt)).instances.save pk { row with deleted := true }).get? pk' =
            some row' := hrow'
      rw [hinstances, Table.get?_save _ hrow] at hrow'
      rw [hnow']
      split at hrow'
      · obtain rfl := Option.some.inj hrow'
        exact hs.created pk row hrow
      · exact hs.created pk' row' hrow'
  | hardDelete pk =>
      obtain ⟨row, hrow, rfl⟩ := hstep
      obtain ⟨hnow, hinstances, hdate, -⟩ := @update_spec calendar
        { s with instances := s.instances.delete pk } false (some row.createdAt)
      refine ⟨fun pk' row' hrow' => ?_, dated_update hs hnow ?_⟩
      · have hnow' : (s.hardDelete calendar pk row).now = s.now := hnow
        rw [DailyForm.hardDelete, hinstances] at hrow'
        rw [hnow']
        have hmem := Table.get?_eq_some.mp hrow'
        exact hs.created pk' row' (Table.get?_eq_some.mpr (List.mem_filter.mp hmem).1)
      · rw [DailyForm.hardDelete, hdate]
        unfold DailyForm.touchDate DailyForm.currentDate
        dsimp only
        split <;> rfl
  | wait time =>
      obtain ⟨hle, rfl⟩ := hstep
      exact ⟨fun pk row hrow => Nat.le_trans (hs.created pk row hrow) hle,
        fun entry hentry => Nat.le_trans (hs.dated entry hentry) (calendar.date_le hle)⟩

/-- In a run, the count of today is right after each operation, the passing of time included,
exactly when each operation meets the condition. -/
theorem todayRight_run {s s' : DailyForm} {ops : List DailyOp} (hs : DailyLedger calendar s) :
    Run (Guarded (DailyStep calendar) fun _ _ s' => TodayRight calendar s') s ops s' ↔
      Run (Guarded (DailyStep calendar) fun s op _ => KeepsToday calendar s op) s ops s' :=
  Run.guarded_congr (DailyLedger calendar) hs
    (fun _ _ _ _ hstep hs => todayRight_iff hs hstep)
    (fun _ _ _ _ hstep hkeeps hs =>
      ⟨(todayRight_iff hs hstep).mpr hkeeps, (past_step hs hstep).1, (past_step hs hstep).2⟩)

/-- The days of 86400 seconds. -/
def utcCalendar : LocalCalendar where
  date := fun time => time / 86400
  date_le := Nat.div_le_div_right

/-- A form without submissions has no entries in the cache. -/
theorem dailyLedger_empty (now : Nat) : DailyLedger utcCalendar { now := now } :=
  ⟨rfl, fun _ _ h => (by cases h), fun _ h => (by cases h)⟩

/-- A submission is created and deleted on a day, and another one is created. -/
theorem todayRight_run_sameDay :
    ∃ s', Run (Guarded (DailyStep utcCalendar) fun _ _ s' => TodayRight utcCalendar s') { now := 0 }
      [.create, .softDelete 0, .wait 3600, .create] s' ∧
        s'.submissionCountForToday utcCalendar = some 1 := by
  let created := ({ now := 0 } : DailyForm).create utcCalendar
  let deleted := created.softDelete utcCalendar 0 { createdAt := 0 }
  let later : DailyForm := { deleted with now := 3600 }
  have hdelete : DailyStep utcCalendar created (.softDelete 0) deleted := ⟨_, rfl, rfl, rfl⟩
  have hwait : DailyStep utcCalendar deleted (.wait 3600) later := ⟨by decide, rfl⟩
  have hcached : KeepsToday utcCalendar deleted (.wait 3600) := by
    intro _ _
    rw [if_neg (by decide)]
    decide
  have hrun : Run (Guarded (DailyStep utcCalendar) fun s op _ => KeepsToday utcCalendar s op)
      { now := 0 } [.create, .softDelete 0, .wait 3600, .create] (later.create utcCalendar) :=
    .cons ⟨rfl, Or.inr (Or.inl rfl)⟩ (.cons ⟨hdelete, Or.inl (by decide)⟩
      (.cons ⟨hwait, hcached⟩ (.cons ⟨rfl, Or.inl (by decide)⟩ (.nil _))))
  exact ⟨_, (todayRight_run (dailyLedger_empty 0)).mpr hrun, by decide⟩

/-- A submission is created shortly before midnight and another one shortly after it: the
count of the new day is two. -/
theorem not_todayRight_midnight :
    ¬∀ (calendar : LocalCalendar) (s : DailyForm) (ops : List DailyOp) (s' : DailyForm),
      DailyLedger calendar s → Run (DailyStep calendar) s ops s' → TodayRight calendar s' := by
  intro h
  let created := ({ now := 86000 } : DailyForm).create utcCalendar
  let later : DailyForm := { created with now := 87000 }
  have hwait : DailyStep utcCalendar created (.wait 87000) later := ⟨by decide, rfl⟩
  have hright := h utcCalendar { now := 86000 } [.create, .wait 87000, .create]
    (later.create utcCalendar) (dailyLedger_empty 86000)
    (.cons rfl (.cons hwait (.cons rfl (.nil _))))
  exact absurd hright (show ¬ (later.create utcCalendar).submissionCountForToday utcCalendar =
    some _ by decide)

end Onadata.Proofs
