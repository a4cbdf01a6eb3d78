import Onadata.Apps.Logger.Models.SubmissionCount
import Onadata.Libs.Utils.ModelTools

/-!
# `Onadata.Libs.Utils.DeleteSubmissions`: submissions are deleted one by one or together

`Instance.set_deleted` of `apps/logger/models/instance.py` with its signal handlers, and
`delete_xform_submissions` of `libs/utils/logger_tools.py` with `soft_delete=True`, on the
submissions and attachments of one form and on the numbers of the form and of its owner.

An instance is loaded before it is deleted, and its form object at the first use, as in
`Onadata.Apps.Logger.Models.SubmissionCount`; `delete_xform_submissions` gets a form object that is
as old. The task that adjusts the number of decrypted submissions does nothing for a form that is
not managed, and is left out there.

Left out: the caches, the dates, the messages, and the columns that no modelled function reads. The
form is active and no merged dataset, and a submission that is deleted is not decrypted.
-/

set_option autoImplicit false

namespace Onadata

open Onadata.Lib (Table)

/-- A row of `Instance`. `gps` tells of each geopoint answer if it parses, and `xmlEncrypted` is
`check_encrypted()`. -/
structure DeletableRow where
  gps : List Bool := []
  geom : Bool := false
  xmlEncrypted : Bool := false
  isEncrypted : Bool := false
  deletedAt : Option Int := none
  deletedBy : Option Nat := none
  deriving DecidableEq, Repr

/-- `deleted_at__isnull=True`. -/
def DeletableRow.live (row : DeletableRow) : Bool :=
  row.deletedAt.isNone

/-- A row of `Attachment`. -/
structure DeletableAttachment where
  submission : Nat
  deletedAt : Option Int := none
  deletedBy : Option Nat := none
  deriving DecidableEq, Repr

/-- A form with its submissions and their attachments. The owner may have no profile. -/
structure DeletableForm where
  pk : Nat
  isManaged : Bool := false
  geopointXpaths : Bool := false
  areaXpaths : Bool := false
  xform : XFormColumns := {}
  profileNumOfSubmissions : Option Int := none
  instances : Table DeletableRow := {}
  attachments : Table DeletableAttachment := {}
  counter : CounterTasks

namespace DeletableForm

/-- `xform.save()`. -/
def saveXForm (s : DeletableForm) (xform : XFormColumns) : DeletableForm :=
  { s with xform := xform }

/-- `xform.save(update_fields=["num_of_submissions"])`. -/
def saveNumOfSubmissions (s : DeletableForm) (xform : XFormColumns) : DeletableForm :=
  { s with xform := { s.xform with numOfSubmissions := xform.numOfSubmissions } }

/-- The submissions with `deleted_at` null. -/
def liveCount (s : DeletableForm) : Nat :=
  s.instances.count DeletableRow.live

/-- The geometry that `_set_geom` gives a row. -/
def rowWithGeom (s : DeletableForm) (row : DeletableRow) : DeletableRow :=
  if s.geopointXpaths && row.gps.all id then { row with geom := !row.gps.isEmpty } else row

/-- What `_set_geom` does to the form. -/
def setGeom (s : DeletableForm) (xform : XFormColumns) (row : DeletableRow) :
    DeletableForm × XFormColumns :=
  if s.geopointXpaths && row.gps.all id && !xform.instancesWithGeopoints &&
      (s.rowWithGeom row).geom then
    let xform := { xform with instancesWithGeopoints := true }
    (s.saveXForm xform, xform)
  else (s, xform)

/-- `_update_xform_submission_count_delete`. -/
def updateXFormSubmissionCountDelete (s : DeletableForm) : DeletableForm :=
  { s.saveNumOfSubmissions
      { s.xform with numOfSubmissions := max (s.xform.numOfSubmissions - 1) 0 } with
    profileNumOfSubmissions := s.profileNumOfSubmissions.map fun n => max (n - 1) 0 }

/-- `_is_instance_soft_deleted`, before the row is written. -/
def isInstanceSoftDeleted (s : DeletableForm) (pk : Nat) (row : DeletableRow) : Bool :=
  match s.instances.get? pk with
  | some oldInstance => oldInstance.deletedAt.isNone && row.deletedAt.isSome
  | none => false

/-- `decr_xform_num_of_submissions_on_soft_delete`. -/
def decrOnSoftDelete (s : DeletableForm) (pk : Nat) (row : DeletableRow) : DeletableForm :=
  if s.isInstanceSoftDeleted pk row then s.updateXFormSubmissionCountDelete else s

/-- An attachment that is deleted with its submission. -/
def DeletableAttachment.deleted (row : DeletableRow) (attachment : DeletableAttachment) :
    DeletableAttachment :=
  { attachment with deletedAt := row.deletedAt, deletedBy := row.deletedBy }

/-- `soft_delete_attachments_on_soft_delete`. -/
def softDeleteAttachmentsOnSoftDelete (s : DeletableForm) (pk : Nat) (row : DeletableRow) :
    DeletableForm :=
  if s.isInstanceSoftDeleted pk row then
    { s with
      attachments := s.attachments.modify
        (fun item => item.2.submission = pk && item.2.deletedAt.isNone)
          (DeletableAttachment.deleted row) }
  else s

/-- `decr_xform_num_of_decrypted_submissions_on_soft_delete`. -/
def decrDecryptedOnSoftDelete (s : DeletableForm) (pk : Nat) (row : DeletableRow) :
    DeletableForm :=
  if s.isInstanceSoftDeleted pk row && s.isManaged then
    { s with counter := s.counter.delay s.pk (-1) }
  else s

/-- No submission that is not deleted has a geometry. -/
def withoutGeometry (s : DeletableForm) : Bool :=
  s.instances.count (fun row => row.live && row.geom) < 1

/-- `_update_geopoints`. -/
def updateGeopoints (s : DeletableForm) (xform : XFormColumns) : DeletableForm × XFormColumns :=
  if s.withoutGeometry then
    let xform := { xform with instancesWithGeopoints := s.areaXpaths }
    (s.saveXForm xform, xform)
  else (s, xform)

/-- `XForm.submission_count` of the form object, with `force_update`. -/
def submissionCount (s : DeletableForm) (xform : XFormColumns) : DeletableForm :=
  if (s.liveCount : Int) ≠ xform.numOfSubmissions then
    s.saveNumOfSubmissions { xform with numOfSubmissions := s.liveCount }
  else s

/-- `Instance.save` of a stored submission that is marked as deleted: the form object is loaded,
and the handlers before the save, the row and `post_save_submission` follow. -/
def saveInstance (s : DeletableForm) (pk : Nat) (row : DeletableRow) :
    DeletableForm × XFormColumns :=
  let (form, xform) := s.setGeom s.xform row
  let row := { s.rowWithGeom row with isEncrypted := row.xmlEncrypted }
  let form := form.decrOnSoftDelete pk row
  let form := form.softDeleteAttachmentsOnSoftDelete pk row
  let form := form.decrDecryptedOnSoftDelete pk row
  { form with instances := form.instances.save pk row }.updateGeopoints xform

/-- `Instance.set_deleted` of a stored submission. -/
def setDeleted (s : DeletableForm) (deletedAt : Int) (user : Nat) (pk : Nat) (row : DeletableRow) :
    DeletableForm :=
  let (form, xform) :=
    s.saveInstance pk { row with deletedAt := some deletedAt, deletedBy := some user }
  form.submissionCount xform

/-- `Instance.set_deleted` of one submission after the other. -/
def setDeletedEach (deletedAt : Int) (user : Nat) : List Nat → DeletableForm → DeletableForm
  | [], s => s
  | pk :: pks, s =>
      match s.instances.get? pk with
      | some row => setDeletedEach deletedAt user pks (s.setDeleted deletedAt user pk row)
      | none => setDeletedEach deletedAt user pks s

/-! ### Deletion of many -/

/-- The submissions of `delete_xform_submissions`. -/
def isSelected (instanceIds : Option (List Nat)) (item : Nat × DeletableRow) : Bool :=
  item.2.live &&
    match instanceIds with
    | none | some [] => true
    | some ids => ids.contains item.1

/-- `update_num_of_decrypted_submissions`. -/
def updateNumOfDecryptedSubmissions (s : DeletableForm) : DeletableForm :=
  let count : Nat :=
    if s.isManaged then s.instances.count fun row => row.live && !row.isEncrypted else 0
  let store := s.counter.store.deleteCounter s.pk
  { s with counter.store := { store with db := Function.update store.db s.pk count } }

/-- `delete_xform_submissions`, with `soft_delete=True`. -/
def deleteXformSubmissions (s : DeletableForm) (now : Int) (deletedBy : Nat)
    (instanceIds : Option (List Nat)) : DeletableForm :=
  let xform := s.xform
  let form := { s with
    instances := s.instances.modify (isSelected instanceIds)
      fun row => { row with deletedAt := some now, deletedBy := some deletedBy } }
  let (form, xform) :=
    if instanceIds = none then
      let xform := { xform with numOfSubmissions := 0 }
      (form.saveNumOfSubmissions xform, xform)
    else (form, xform)
  (form.submissionCount xform).updateNumOfDecryptedSubmissions

end DeletableForm

end Onadata
