import Mathlib.Data.List.SplitOn
import Onadata.Lib.PyValue

/-!
# `Onadata.Apps.Api.Viewsets.BulkDelete`: submissions are deleted in the background

The deletion of the submissions of a form that `DataViewSet.destroy` starts, the task
`delete_xform_submissions_async`, and the listings that `exclude_deleting_submissions_clause` keeps
the submissions out of while their deletion goes on.

A request starts its task before it records the ids in the cache entry of the form, and a task
deletes the rows before it deletes the entry: these are different steps. A deletion is permanent or
not, which makes no difference to a listing. A digit is one of ASCII.
-/

set_option autoImplicit false

namespace Onadata

/-- The data of a request to delete submissions, without `delete_all`. -/
structure DestroyRequest where
  instanceIds : Option String
  permanentDelete : Bool := false

/-- Why a request is refused. -/
inductive DestroyError
  | permanentDeleteDisabled
  | dataIdsNotProvided
  | invalidDataIds
  deriving DecidableEq, Repr

/-- The message of the error. -/
def DestroyError.message : DestroyError → String
  | .permanentDeleteDisabled => "Permanent submission deletion is not enabled for this server."
  | .dataIdsNotProvided => "Data id(s) not provided."
  | .invalidDataIds => "Invalid data ids were provided."

/-- `int(x)`, for a text of digits. -/
def digitsToNat (digits : List Char) : Nat :=
  digits.foldl (fun n c => 10 * n + (c.toNat - '0'.toNat)) 0

/-- `[x for x in instance_ids.split(",") if x.isdigit()]`. -/
def namedIds (instanceIds : String) : List Nat :=
  ((instanceIds.toList.splitOn ',').filter fun x => !x.isEmpty && x.all Char.isDigit).map
    digitsToNat

/-- The ids that `destroy` starts a task for. -/
def destroyIds (enableSubmissionPermanentDelete : Bool) (request : DestroyRequest) :
    Except DestroyError (List Nat) :=
  if request.permanentDelete && !enableSubmissionPermanentDelete then
    .error .permanentDeleteDisabled
  else
    match request.instanceIds with
    | none | some "" => .error .dataIdsNotProvided
    | some instanceIds =>
        if namedIds instanceIds = [] then .error .invalidDataIds else .ok (namedIds instanceIds)

/-- A form whose submissions are deleted. `deleting` is the cache entry `xfm-submissions-deleting-`
of the form. A request in `started` has not recorded its ids yet; a task in `tasks` has not run; and
`finishing` tasks have deleted their rows but not the entry yet. -/
structure DeletingForm where
  live : List Nat
  deleting : Option (List Nat) := none
  started : List (List Nat) := []
  tasks : List (List Nat) := []
  finishing : Nat := 0
  answered : List (List Nat) := []
  deriving Repr

namespace DeletingForm

/-- `exclude_deleting_submissions_clause`: the ids that a listing leaves out. -/
def excludedIds (s : DeletingForm) : List Nat :=
  s.deleting.getD []

/-- The submissions that a listing can have. -/
def listed (s : DeletingForm) : List Nat :=
  s.live.filter fun pk => !s.excludedIds.contains pk

/-- `delete_xform_submissions_async.delay`. -/
def delay (s : DeletingForm) (instanceIds : List Nat) : DeletingForm :=
  { s with
    tasks := s.tasks ++ [instanceIds]
    started := s.started ++ [instanceIds] }

/-- `safe_cache_set`, and the answer of the request. -/
def record (s : DeletingForm) (i : Nat) (instanceIds : List Nat) : DeletingForm :=
  { s with
    deleting := some instanceIds
    started := s.started.eraseIdx i
    answered := s.answered ++ [instanceIds] }

/-- `delete_xform_submissions`, until the rows are deleted. -/
def deleteRows (s : DeletingForm) (i : Nat) (instanceIds : List Nat) : DeletingForm :=
  { s with
    live := s.live.filter fun pk => !instanceIds.contains pk
    tasks := s.tasks.eraseIdx i
    finishing := s.finishing + 1 }

/-- `safe_cache_delete`, at the end of a task. -/
def deleteEntry (s : DeletingForm) : DeletingForm :=
  { s with
    deleting := none
    finishing := s.finishing - 1 }

end DeletingForm

end Onadata
