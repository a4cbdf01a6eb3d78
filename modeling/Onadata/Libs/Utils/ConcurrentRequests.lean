import Onadata.Lib.ThreadPool
import Onadata.Libs.Utils.LoggerTools

/-!
# `Onadata.Libs.Utils.ConcurrentRequests`: submissions that are received at the same time

`create_instance` of `libs/utils/logger_tools.py` statement by statement, for requests that
share the database. Every request has its own transaction at the read-committed level: a
query sees what is committed, and what a request writes is seen by the others when it
commits. An update waits for the row if another transaction has written it, and a write
waits for a uuid that another transaction is about to use.

An instance that is read stays in memory, and `instance.save()` writes all of its columns.
-/

set_option autoImplicit false

namespace Onadata

open Onadata.Lib (Pool)

/-- What `history.xform_instance` is loaded for: to be saved again, or as the instance of a
conflicting edit. -/
inductive LoadPurpose
  | resave (answer : SubmissionResult)
  | conflict (oldUuid : String)
  deriving DecidableEq, Repr

/-- What a request has written and not committed. -/
inductive PendingWrite (Xml : Type)
  | saved (row : Instance Xml) (history : Option (InstanceHistory Xml))
  | created (row : Instance Xml)
  deriving DecidableEq, Repr

/-- The next statement of a request. -/
inductive RequestPhase (Xml : Type)
  | duplicateCheck
  | historyCheck
  | lookup
  | appliedCheck (oldUuid : String)
  | conflictCheck (oldUuid : String)
  | load (pk : Nat) (purpose : LoadPurpose)
  | writeHistory (edited : Instance Xml) (oldUuid : String)
  | save (row : Instance Xml) (history : Option (InstanceHistory Xml))
      (answer : SubmissionResult)
  | create
  | commit (write : PendingWrite Xml) (answer : SubmissionResult)
  | done (answer : Except SubmissionError SubmissionResult)

/-- A request in progress. -/
structure RequestThread (Xml : Type) where
  request : SubmissionRequest Xml
  phase : RequestPhase Xml := .duplicateCheck

/-- The committed rows, with the primary keys that are locked by an update and the uuids that
are written, in transactions that are not committed. -/
structure EditDb (Xml : Type) where
  store : FormStore Xml
  locked : List Nat := []
  claimed : List String := []

variable {Xml : Type} [SubmissionXml Xml]

/-- The commit of a transaction. -/
def EditDb.commit (db : EditDb Xml) : PendingWrite Xml → EditDb Xml
  | .saved row history =>
      { store := { db.store with
          instances := db.store.instances.map fun i => if i.pk = row.pk then row else i
          histories := db.store.histories ++ history.toList }
        locked := db.locked.erase row.pk
        claimed := db.claimed.erase row.uuid }
  | .created row =>
      { db with
          store := { db.store with instances := db.store.instances ++ [row] }
          claimed := db.claimed.erase row.uuid }

/-- `_edit_instance` up to its first write. -/
def startEdit (request : SubmissionRequest Xml) (edited : Instance Xml) (oldUuid : String) :
    RequestPhase Xml :=
  if !request.mayEdit then .done (throw .permissionDenied) else .writeHistory edited oldUuid

/-- The instance that `_edit_instance` saves. -/
def editedRow (request : SubmissionRequest Xml) (edited : Instance Xml) : Instance Xml :=
  { edited with
      xml := request.xml
      uuid := setUuid (getUuidFromXml request.xml) request.xml request.generatedUuid
      checksum := SubmissionXml.checksum request.xml }

/-- The next statement of a request, if it does not have to wait. -/
def requestStep (resolution : EditConflictResolution) (db : EditDb Xml)
    (request : SubmissionRequest Xml) : RequestPhase Xml → Option (EditDb Xml × RequestPhase Xml)
  | .duplicateCheck =>
      if (db.store.findInstance (getUuidFromXml request.xml)).isSome then
        some (db, .done (.ok .duplicate))
      else some (db, .historyCheck)
  | .historyCheck =>
      match db.store.findLiveHistory (getUuidFromXml request.xml) with
      | some history => some (db, .load history.xformInstance (.resave .duplicate))
      | none => some (db, .lookup)
  | .lookup =>
      match (getDeprecatedUuidFromXml request.xml).filter (· ≠ "") with
      | none => some (db, .create)
      | some oldUuid =>
          match db.store.findInstance (some oldUuid) with
          | some edited => some (db, startEdit request edited oldUuid)
          | none => some (db, .appliedCheck oldUuid)
  | .appliedCheck oldUuid =>
      match db.store.findHistory (getUuidFromXml request.xml) with
      | some history =>
          some (db, .load history.xformInstance (.resave (.alreadyApplied history.xformInstance)))
      | none => some (db, .conflictCheck oldUuid)
  | .conflictCheck oldUuid =>
      match db.store.findHistory (some oldUuid) with
      | some history => some (db, .load history.xformInstance (.conflict oldUuid))
      | none => some (db, .create)
  | .load pk purpose =>
      match db.store.instanceByPk pk, purpose with
      -- A history row has an instance.
      | none, _ => some (db, .done (throw .integrityError))
      | some row, .resave answer => some (db, .save row none answer)
      | some row, .conflict oldUuid =>
          match resolution with
          | .lastWriteWins => some (db, startEdit request row oldUuid)
          | .reject => some (db, .done (throw .instanceEditConflict))
          | .unsupported _ => some (db, .done (throw .unsupportedResolution))
  | .writeHistory edited oldUuid =>
      some (db, .save (editedRow request edited)
        (some ⟨edited.pk, oldUuid, edited.xml, edited.checksum⟩) (.edited edited.pk))
  | .save row history answer =>
      if row.pk ∈ db.locked ∨ row.uuid ∈ db.claimed then none
      else if db.store.instances.any fun i => i.pk ≠ row.pk && i.uuid = row.uuid then
        some (db, .done (throw .integrityError))
      else
        some ({ db with locked := row.pk :: db.locked, claimed := row.uuid :: db.claimed },
          .commit (.saved row history) answer)
  | .create =>
      let uuid := setUuid none request.xml request.generatedUuid
      if uuid ∈ db.claimed then none
      else if db.store.instances.any fun i => i.uuid = uuid then
        some (db, .done (throw .integrityError))
      else
        let created : Instance Xml :=
          { pk := db.store.nextPk, uuid := uuid, xml := request.xml,
            checksum := SubmissionXml.checksum request.xml }
        some ({ db with
            store := { db.store with nextPk := db.store.nextPk + 1 }
            claimed := uuid :: db.claimed },
          .commit (.created created) (.created created.pk))
  | .commit write answer => some (db.commit write, .done (.ok answer))
  | .done _ => none

/-- A statement of a request. -/
def RequestStep (resolution : EditConflictResolution) (db : EditDb Xml)
    (thread : RequestThread Xml) (db' : EditDb Xml) (thread' : RequestThread Xml) : Prop :=
  requestStep resolution db thread.request thread.phase = some (db', thread'.phase) ∧
    thread'.request = thread.request

/-- The requests before their first statement. -/
def startRequests (store : FormStore Xml) (requests : List (SubmissionRequest Xml)) :
    Pool (EditDb Xml) (RequestThread Xml) :=
  ⟨{ store := store }, requests.map fun request => { request := request }⟩

end Onadata
