import Onadata.Lib.Table

/-!
# `Onadata.Apps.Logger.Models.DailyCount`: the submissions of today

`_update_submission_count_for_today` of `apps/logger/models/instance.py`, as the creation, the
soft deletion and the hard deletion of a submission call it, and
`XForm.submission_count_for_today` of `apps/logger/models/xform.py`.

Times are in seconds. The cache keeps an entry until its time is over.

Left out: failures of the cache.
-/

set_option autoImplicit false

namespace Onadata

open Onadata.Lib (Table)

/-- A time zone: the local date at a time. Its clock is never put back over a midnight, as that of
`TIME_ZONE` in `settings/common.py`. -/
structure LocalCalendar where
  date : Nat → Nat
  date_le : ∀ {time time' : Nat}, time ≤ time' → date time ≤ date time'

/-- An entry of the cache. -/
structure CacheEntry (Value : Type) where
  value : Value
  expiresAt : Nat
  deriving DecidableEq, Repr

/-- `safe_cache_get`. -/
def cacheGet {Value : Type} (entry : Option (CacheEntry Value)) (now : Nat) : Option Value :=
  match entry with
  | some entry => if now < entry.expiresAt then some entry.value else none
  | none => none

/-- A row of `Instance`. -/
structure DatedRow where
  createdAt : Nat
  deleted : Bool := false
  deriving DecidableEq, Repr

/-- A form with its submissions, the two cache entries and the time of the day. -/
structure DailyForm where
  now : Nat
  dateEntry : Option (CacheEntry Nat) := none
  countEntry : Option (CacheEntry Int) := none
  instances : Table DatedRow := {}

namespace DailyForm

variable (calendar : LocalCalendar) (s : DailyForm)

/-- `timezone.localdate()`. -/
def currentDate : Nat :=
  calendar.date s.now

/-- `safe_cache_set(count_cache_key, 1, 86400)`. -/
def setCount : DailyForm :=
  { s with countEntry := some { value := 1, expiresAt := s.now + 86400 } }

/-- `safe_cache_incr` and `safe_cache_decr` of the count: the entry keeps its timeout. -/
def addToCount (delta : Int) : DailyForm :=
  match s.countEntry with
  | some entry =>
      if s.now < entry.expiresAt then
        { s with countEntry := some { entry with value := entry.value + delta } }
      else s
  | none => s

/-- The date entry is the one of today after the first call of a day. -/
def touchDate : DailyForm :=
  if cacheGet s.dateEntry s.now = some (s.currentDate calendar) then s
  else
    { s with
        dateEntry := some { value := s.currentDate calendar, expiresAt := s.now + 86400 } }

/-- `_update_submission_count_for_today`. -/
def updateSubmissionCountForToday (incr : Bool) (dateCreated : Option Nat) : DailyForm :=
  let s := s.touchDate calendar
  let currentCount := (cacheGet s.countEntry s.now).getD 0
  if currentCount = 0 ∧ incr then s.setCount
  else if incr then s.addToCount 1
  else if 0 < currentCount ∧
      dateCreated.map calendar.date = some (s.currentDate calendar) then s.addToCount (-1)
  else s

/-- `XForm.submission_count_for_today`. -/
def submissionCountForToday : Option Int :=
  if cacheGet s.dateEntry s.now = some (s.currentDate calendar) then cacheGet s.countEntry s.now
  else some 0

/-- The submissions that were created on the local day and are not deleted. -/
def liveCreatedToday : Nat :=
  s.instances.count fun row =>
    calendar.date row.createdAt = s.currentDate calendar && !row.deleted

/-- A new submission. -/
def create : DailyForm :=
  { s with instances := s.instances.create { createdAt := s.now } }.updateSubmissionCountForToday
    calendar true none

/-- `Instance.set_deleted` of a live submission. -/
def softDelete (pk : Nat) (row : DatedRow) : DailyForm :=
  let s := s.updateSubmissionCountForToday calendar false (some row.createdAt)
  { s with instances := s.instances.save pk { row with deleted := true } }

/-- `Instance.delete`. -/
def hardDelete (pk : Nat) (row : DatedRow) : DailyForm :=
  { s with instances := s.instances.delete pk }.updateSubmissionCountForToday
    calendar false (some row.createdAt)

end DailyForm

/-- What happens at the time, and the passing of time. -/
inductive DailyOp
  | create
  | softDelete (pk : Nat)
  | hardDelete (pk : Nat)
  | wait (time : Nat)
  deriving DecidableEq, Repr

/-- An operation on a submission that is there. Only a live submission is soft deleted. -/
def DailyStep (calendar : LocalCalendar) (s : DailyForm) : DailyOp → DailyForm → Prop
  | .create, s' => s' = s.create calendar
  | .softDelete pk, s' =>
      ∃ row, s.instances.get? pk = some row ∧ row.deleted = false ∧
        s' = s.softDelete calendar pk row
  | .hardDelete pk, s' =>
      ∃ row, s.instances.get? pk = some row ∧ s' = s.hardDelete calendar pk row
  | .wait time, s' => s.now ≤ time ∧ s' = { s with now := time }

end Onadata
