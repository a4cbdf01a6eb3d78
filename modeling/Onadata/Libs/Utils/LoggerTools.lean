import Onadata.Apps.Logger.Models.Instance

/-!
# `Onadata.Libs.Utils.LoggerTools`: receiving a submission

`create_instance` of `libs/utils/logger_tools.py` on one form, from the point where the
form is found and the submission checks have passed. `createInstance` is one transaction:
an error leaves the store as it was.

A duplicate saves the attachments and the instance again. This writes none of the columns
of the model.
-/

set_option autoImplicit false

namespace Onadata

/-- `INSTANCE_EDIT_CONFLICT_RESOLUTION`. -/
inductive EditConflictResolution
  | reject
  | lastWriteWins
  | unsupported (name : String)
  deriving DecidableEq, Repr

/-- A submission. `mayEdit` is the result of `check_edit_submission_permissions`, and
`generatedUuid` is what `get_uuid` returns during the call. -/
structure SubmissionRequest (Xml : Type) where
  xml : Xml
  mayEdit : Bool := true
  generatedUuid : String := ""
  deriving DecidableEq, Repr

/-- What `create_instance` answers: a duplicate, or the instance with what was done. -/
inductive SubmissionResult
  | duplicate
  | created (pk : Nat)
  | edited (pk : Nat)
  | alreadyApplied (pk : Nat)
  deriving DecidableEq, Repr

variable {Xml : Type} [SubmissionXml Xml]

/-- `_edit_instance`: the row before the edit goes to the history under `oldUuid`. -/
def editInstance (store : FormStore Xml) (edited : Instance Xml) (oldUuid : String)
    (newUuid : Option String) (request : SubmissionRequest Xml) :
    Except SubmissionError (FormStore Xml × SubmissionResult) :=
  if !request.mayEdit then throw .permissionDenied
  else do
    let history : InstanceHistory Xml :=
      { xformInstance := edited.pk, uuid := oldUuid, xml := edited.xml,
        checksum := edited.checksum }
    let store ← { store with histories := store.histories ++ [history] }.save
      { edited with
        xml := request.xml
        uuid := setUuid newUuid request.xml request.generatedUuid
        checksum := SubmissionXml.checksum request.xml }
    return (store, .edited edited.pk)

/-- `handle_edit_conflict`. -/
def handleEditConflict (resolution : EditConflictResolution) (store : FormStore Xml)
    (edited : Instance Xml) (oldUuid : String) (newUuid : Option String)
    (request : SubmissionRequest Xml) :
    Except SubmissionError (FormStore Xml × SubmissionResult) :=
  match resolution with
  | .lastWriteWins => editInstance store edited oldUuid newUuid request
  | .reject => throw .instanceEditConflict
  | .unsupported _ => throw .unsupportedResolution

/-- A new submission in `_get_instance`. -/
def createNewInstance (store : FormStore Xml) (request : SubmissionRequest Xml) :
    Except SubmissionError (FormStore Xml × SubmissionResult) := do
  let (store, created) ← store.create request.xml request.generatedUuid
  return (store, .created created.pk)

/-- `_get_instance`. -/
def getInstance (resolution : EditConflictResolution) (store : FormStore Xml)
    (newUuid : Option String) (request : SubmissionRequest Xml) :
    Except SubmissionError (FormStore Xml × SubmissionResult) :=
  match (getDeprecatedUuidFromXml request.xml).filter (· ≠ "") with
  | none => createNewInstance store request
  | some oldUuid =>
      match store.findInstance (some oldUuid) with
      | some edited => editInstance store edited oldUuid newUuid request
      | none =>
          match store.findHistory newUuid with
          | some history => return (store, .alreadyApplied history.xformInstance)
          | none =>
              match store.findHistory (some oldUuid) with
              | none => createNewInstance store request
              | some history =>
                  match store.instanceByPk history.xformInstance with
                  | some edited =>
                      handleEditConflict resolution store edited oldUuid newUuid request
                  -- A history row has an instance.
                  | none => throw .integrityError

/-- `create_instance`. -/
def createInstance (resolution : EditConflictResolution) (store : FormStore Xml)
    (request : SubmissionRequest Xml) :
    Except SubmissionError (FormStore Xml × SubmissionResult) :=
  let newUuid := getUuidFromXml request.xml
  if (store.findInstance newUuid).isSome then return (store, .duplicate)
  else if (store.findLiveHistory newUuid).isSome then return (store, .duplicate)
  else getInstance resolution store newUuid request

end Onadata
