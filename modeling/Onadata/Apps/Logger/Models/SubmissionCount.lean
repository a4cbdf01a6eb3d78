import Onadata.Lib.Table

/-!
# `Onadata.Apps.Logger.Models.SubmissionCount`: the number of submissions of a form

What `Instance.save`, `Instance.set_deleted` and `Instance.delete` of
`apps/logger/models/instance.py` do to `XForm.num_of_submissions`, with their signal
handlers in the order in which these are connected.

An instance holds a form object, `instance.xform`, which is loaded at its first use. Its
columns can be older than the row of the form, and `xform.save()` writes all of them.

Left out: the number of submissions of the user profile, the caches, the attachments, and
the columns of the form and of the submissions that no modelled function reads. The form is
active and no merged dataset, since a save raises otherwise, and
`ASYNC_POST_SUBMISSION_PROCESSING_ENABLED` is off, as by default.
-/

set_option autoImplicit false

namespace Onadata

open Onadata.Lib (Table)

/-- The columns of `XForm` that the handlers write. -/
structure XFormColumns where
  numOfSubmissions : Int := 0
  instancesWithGeopoints : Bool := false
  deriving DecidableEq, Repr

/-- A row of `Instance`. `gps` tells of each geopoint answer of the XML if it parses, and
`geom` if the geometry is set. -/
structure SubmissionRow where
  gps : List Bool := []
  geom : Bool := false
  deletedAt : Option Int := none
  deriving DecidableEq, Repr

/-- `deleted_at__isnull=True`. -/
def SubmissionRow.live (row : SubmissionRow) : Bool :=
  row.deletedAt.isNone

/-- A form with its submissions. `geopointXpaths` and `areaXpaths` tell if the form has
geopoint questions, and geoshapes or geotraces. -/
structure CountedForm where
  geopointXpaths : Bool := false
  areaXpaths : Bool := false
  xform : XFormColumns := {}
  instances : Table SubmissionRow := {}

namespace CountedForm

/-- `xform.save()`. -/
def saveXForm (s : CountedForm) (xform : XFormColumns) : CountedForm :=
  { s with xform := xform }

/-- `xform.save(update_fields=["num_of_submissions"])`. -/
def saveNumOfSubmissions (s : CountedForm) (xform : XFormColumns) : CountedForm :=
  { s with xform := { s.xform with numOfSubmissions := xform.numOfSubmissions } }

/-- The submissions with `deleted_at` null. -/
def liveCount (s : CountedForm) : Nat :=
  s.instances.count SubmissionRow.live

/-- `_set_geom`: the first point of a form marks it, and writes the form object. A geopoint
that does not parse leaves everything as it is. -/
def setGeom (s : CountedForm) (xform : XFormColumns) (row : SubmissionRow) :
    CountedForm × XFormColumns × SubmissionRow :=
  if s.geopointXpaths && row.gps.all id then
    let row := { row with geom := !row.gps.isEmpty }
    if !xform.instancesWithGeopoints && row.geom then
      let xform := { xform with instancesWithGeopoints := true }
      (s.saveXForm xform, xform, row)
    else (s, xform, row)
  else (s, xform, row)

/-- `update_xform_submission_count`. -/
def updateXFormSubmissionCount (s : CountedForm) : CountedForm :=
  { s with xform := { s.xform with numOfSubmissions := s.xform.numOfSubmissions + 1 } }

/-- `_update_xform_submission_count_delete`, on the row of the form. -/
def updateXFormSubmissionCountDelete (s : CountedForm) : CountedForm :=
  s.saveNumOfSubmissions
    { s.xform with numOfSubmissions := max (s.xform.numOfSubmissions - 1) 0 }

/-- `_is_instance_soft_deleted`, before the row is written. -/
def isInstanceSoftDeleted (s : CountedForm) (pk : Nat) (row : SubmissionRow) : Bool :=
  match s.instances.get? pk with
  | some oldInstance => oldInstance.deletedAt.isNone && row.deletedAt.isSome
  | none => false

/-- `decr_xform_num_of_submissions_on_soft_delete`. -/
def decrOnSoftDelete (s : CountedForm) (pk : Nat) (row : SubmissionRow) : CountedForm :=
  if s.isInstanceSoftDeleted pk row then s.updateXFormSubmissionCountDelete else s

/-- `_update_geopoints`: without a live geometry the form object is marked anew and written. -/
def updateGeopoints (s : CountedForm) (xform : XFormColumns) : CountedForm × XFormColumns :=
  if s.instances.count (fun row => row.live && row.geom) < 1 then
    let xform := { xform with instancesWithGeopoints := s.areaXpaths }
    (s.saveXForm xform, xform)
  else (s, xform)

/-- `XForm.submission_count` of the form object. -/
def submissionCount (s : CountedForm) (xform : XFormColumns) (forceUpdate : Bool) :
    CountedForm × XFormColumns :=
  if xform.numOfSubmissions = 0 ∨ forceUpdate then
    if (s.liveCount : Int) ≠ xform.numOfSubmissions then
      let xform := { xform with numOfSubmissions := s.liveCount }
      (s.saveNumOfSubmissions xform, xform)
    else (s, xform)
  else (s, xform)

/-- `Instance.save` of a new submission with a form object, then `post_save_submission`. -/
def create (s : CountedForm) (xform : XFormColumns) (gps : List Bool) : CountedForm :=
  let (s, _, row) := s.setGeom xform { gps := gps }
  { s with instances := s.instances.create row }.updateXFormSubmissionCount

/-- `Instance.save` of a stored submission: the geometry, the handlers before the save, the
row, and `post_save_submission`. -/
def saveInstance (s : CountedForm) (xform : XFormColumns) (pk : Nat) (row : SubmissionRow) :
    CountedForm × XFormColumns :=
  let (s, xform, row) := s.setGeom xform row
  let s := s.decrOnSoftDelete pk row
  let s := { s with instances := s.instances.save pk row }
  if row.deletedAt.isSome then s.updateGeopoints xform else (s, xform)

/-- `Instance.set_deleted`. -/
def setDeleted (s : CountedForm) (xform : Option XFormColumns) (pk : Nat) (row : SubmissionRow)
    (deletedAt : Int) : CountedForm :=
  let (s, xform) :=
    s.saveInstance (xform.getD s.xform) pk { row with deletedAt := some deletedAt }
  (s.submissionCount xform true).1

/-- `Instance.delete`: the row goes, then the handlers run. The first of them loads the form
object. -/
def hardDelete (s : CountedForm) (xform : Option XFormColumns) (pk : Nat) : CountedForm :=
  let xform := xform.getD s.xform
  let s := { s with instances := s.instances.delete pk }
  (s.updateXFormSubmissionCountDelete.updateGeopoints xform).1

end CountedForm

/-- The operations on submissions, with the form object that the instance holds, if it has
one. -/
inductive SubmissionOp
  | create (xform : XFormColumns) (gps : List Bool)
  | setDeleted (pk : Nat) (xform : Option XFormColumns) (deletedAt : Int)
  | delete (pk : Nat) (xform : Option XFormColumns)
  deriving DecidableEq, Repr

/-- An operation: a submission that is soft deleted is live, and one that is deleted is
there. -/
def CountedForm.apply (s : CountedForm) : SubmissionOp → Option CountedForm
  | .create xform gps => some (s.create xform gps)
  | .setDeleted pk xform deletedAt =>
      match s.instances.get? pk with
      | some row => if row.live then some (s.setDeleted xform pk row deletedAt) else none
      | none => none
  | .delete pk xform =>
      match s.instances.get? pk with
      | some _ => some (s.hardDelete xform pk)
      | none => none

end Onadata
