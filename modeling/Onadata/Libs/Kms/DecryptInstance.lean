import Onadata.Apps.Logger.Models.Kms
import Onadata.Lib.PyDict
import Onadata.Lib.PyValue
import Onadata.Lib.Transaction
import Onadata.Libs.Utils.MediaTracking

/-!
# `Onadata.Libs.Kms.DecryptInstance`: a submission is decrypted

`decrypt_instance` and `save_decryption_error` of `libs/kms/tools.py`, `Instance.save` and
`save_full_json` of `apps/logger/models/instance.py` and `Attachment.save` of
`apps/logger/models/attachment.py`.

`DecryptServices` is what the code calls: `decrypt_submission` of the library, the parser of the
submissions, the storage of the files, the broker of the tasks, and the database, which can refuse
each write and the commit. An instance object is a row that was loaded, with the parser that it
keeps once it has one.

The function is called outside a transaction, as the task `decrypt_instance_async` does. A file is
kept with the row of its attachment. Left out: the rows of other tables that the receivers of
`post_save` write, the survey type, the hash of a file, and the dates of the rows apart from those
of `Instance`.
-/

set_option autoImplicit false

namespace Onadata

open Onadata.Lib
open Onadata.Lib.DbAction

/-! ### The rows -/

/-- `Instance.DecryptionStatus`. -/
inductive DecryptionStatus
  | unmanaged
  | pending
  | success
  | failed
  deriving DecidableEq, Repr

/-- What `decrypt_instance` reads of a row of `XForm`. -/
structure ManagedForm where
  isManaged : Bool
  isMergedDataset : Bool := false
  version : Option String
  deriving DecidableEq, Repr

/-- A row of `Instance`. The geometry is its text. -/
structure ManagedSubmission where
  xform : Nat
  user : Option Nat := none
  xml : String
  json : List (String × PyValue) := []
  uuid : String
  version : Option String
  geom : Option String := none
  checksum : Option String
  dateCreated : DateTime
  dateModified : DateTime
  lastEdited : Option DateTime := none
  isEncrypted : Bool
  decryptionStatus : DecryptionStatus
  mediaAllReceived : Option Bool := some true

/-- A file in the storage. -/
structure StoredFile where
  name : String
  content : ByteArray

/-- A row of `Attachment`. -/
structure SubmissionAttachment where
  xform : Option Nat
  «instance» : Nat
  mediaFile : StoredFile
  mimetype : String
  extension : String
  fileSize : Nat
  name : Option String
  user : Option Nat
  deletedAt : Option DateTime := none

/-- A row of `InstanceHistory`. -/
structure EncryptedHistory where
  xformInstance : Nat
  xml : String
  uuid : String
  submissionDate : DateTime
  geom : Option String
  checksum : Option String
  deriving DecidableEq, Repr

/-- The rows that are read and written. -/
structure DecryptDatabase where
  xforms : Table ManagedForm := {}
  kmsKeys : Table KMSKey := {}
  xformKeys : List XFormKey := []
  submissions : Table ManagedSubmission := {}
  attachments : Table SubmissionAttachment := {}
  histories : Table EncryptedHistory := {}

/-! ### Failures -/

/-- The codes `DECRYPTION_FAILURE_…` that `decrypt_instance` uses. -/
inductive DecryptionFailureCode
  | keyDisabled
  | keyNotFound
  | invalidSubmission
  | instanceNotEncrypted
  | encryptionUnmanaged
  | notAllMediaReceived
  deriving DecidableEq, Repr

/-- The text of the code. -/
def DecryptionFailureCode.text : DecryptionFailureCode → String
  | .keyDisabled => "KMS_KEY_DISABLED"
  | .keyNotFound => "KMS_KEY_NOT_FOUND"
  | .invalidSubmission => "INVALID_SUBMISSION"
  | .instanceNotEncrypted => "INSTANCE_NOT_ENCRYPTED"
  | .encryptionUnmanaged => "ENCRYPTION_UNMANAGED"
  | .notAllMediaReceived => "NOT_ALL_MEDIA_RECEIVED"

/-- `DECRYPTION_FAILURE_MESSAGES`. -/
def DecryptionFailureCode.message : DecryptionFailureCode → String
  | .keyDisabled => "KMSKey is disabled."
  | .keyNotFound => "KMSKey used for encryption not found."
  | .invalidSubmission => "Corrupted data."
  | .instanceNotEncrypted => "Instance is not encrypted."
  | .encryptionUnmanaged => "Encryption is not using managed keys."
  | .notAllMediaReceived => "Not all media files have been received."

/-- `DECRYPTION_ERROR`. -/
def DECRYPTION_ERROR : String := "_decryption_error"

/-- What is raised. `other` is an exception of another class. -/
inductive DecryptFailure
  | decryptionError (message : String)
  | notAllMediaReceivedError (message : String)
  | invalidSubmissionException (message : String)
  | other (name : String)
  deriving DecidableEq, Repr

/-! ### What is called -/

/-- The iterator of `decrypt_submission`: the files that it gives one after the other, and what it
raises after them. -/
structure DecryptedFiles where
  files : List (String × ByteArray)
  failure : Option DecryptFailure := none

/-- What `Instance.save` takes from the parser. The geometry stays as it is where the answers of the
submission give none. -/
structure ParsedSubmission where
  version : Option String
  geom : Option String → Option String

/-- The functions that are called. `encryptedAttribute` is `tree.attrib.get("encrypted")` of the XML
tree, without one for a text that is no XML. `uuid` is the uuid in the XML, or a new one. -/
structure DecryptServices where
  encryptedAttribute : String → Option String
  getKmsClient : Except DecryptFailure Unit
  decryptSubmission : String → ByteArray → List (String × ByteArray) →
    Except DecryptFailure DecryptedFiles
  openFile : StoredFile → Except DecryptFailure ByteArray
  storeFile : DecryptDatabase → String → ByteArray → Except DecryptFailure String
  guessType : String → Option String
  sha256 : ByteArray → String
  parse : Nat → String → Except DecryptFailure ParsedSubmission
  uuid : String → String
  fullJson : DecryptDatabase → Nat → Except DecryptFailure (List (String × PyValue))
  postSave : DecryptDatabase → Except DecryptFailure Unit
  now : DecryptDatabase → DateTime
  refuses : DecryptDatabase → Option DecryptFailure
  refusesCommit : DecryptDatabase → Option DecryptFailure
  incrTask : Except DecryptFailure Unit

/-- An instance object. `parserXml` is the XML of its parser, once it has one. -/
structure InstanceObject where
  pk : Nat
  row : ManagedSubmission
  parserXml : Option String := none

/-- The instance object and `decrypted_attachment_ids`. -/
structure DecryptMemory where
  object : InstanceObject
  decryptedAttachmentIds : List Nat := []

/-- A computation with the rows and the instance object. -/
abbrev DecryptAction (A : Type) : Type :=
  DbAction DecryptFailure DecryptDatabase DecryptMemory A

section
variable (services : DecryptServices)

/-! ### The instance object -/

/-- `instance`. -/
def getObject : DecryptAction InstanceObject := do
  return (← getMemory).object

/-- The fields of `instance` become other ones. -/
def setRow (f : ManagedSubmission → ManagedSubmission) : DecryptAction Unit := do
  let memory ← getMemory
  setMemory { memory with object := { memory.object with row := f memory.object.row } }

/-- `instance.xform`. -/
def getForm (db : DecryptDatabase) (row : ManagedSubmission) : Except DecryptFailure ManagedForm :=
  match db.xforms.get? row.xform with
  | some form => .ok form
  | none => .error (.other "XForm.DoesNotExist")

/-- `XForm.is_was_managed`. -/
def isWasManaged (db : DecryptDatabase) (pk : Nat) (form : ManagedForm) : Bool :=
  form.isManaged || db.xformKeys.any fun link => link.xform = pk

/-- `Instance.check_encrypted`. -/
def checkEncrypted (xml : String) : Bool :=
  services.encryptedAttribute xml = some "yes"

/-- `instance._set_parser`: a parser that is there is kept. -/
def setParser : DecryptAction ParsedSubmission := do
  let memory ← getMemory
  let xml := memory.object.parserXml.getD memory.object.row.xml
  let parsed ← attempt (services.parse memory.object.row.xform xml)
  setMemory { memory with object := { memory.object with parserXml := some xml } }
  return parsed

/-- `save_full_json`. A recorded error of a failed decryption stays. -/
def saveFullJson : DecryptAction Unit := do
  let object ← getObject
  let db ← getDb
  let json ← attempt (services.fullJson db object.pk)
  let json := match object.row.decryptionStatus, Dict.get? object.row.json DECRYPTION_ERROR with
    | .failed, some .none => json
    | .failed, some error => Dict.insert json DECRYPTION_ERROR error
    | _, _ => json
  write services.refuses fun db =>
    { db with
      submissions := db.submissions.modify (fun item => item.1 = object.pk)
        fun row => { row with json := json } }

/-- The row with the encryption status that its XML has. -/
def withEncryptionStatus (managed : Bool) (row : ManagedSubmission) : ManagedSubmission :=
  if checkEncrypted services row.xml then
    if managed then { row with isEncrypted := true, decryptionStatus := .pending }
    else { row with isEncrypted := true }
  else { row with isEncrypted := false }

/-- `instance.save(force=True)`. -/
def saveInstance : DecryptAction Unit := do
  let db ← getDb
  setRow fun row => { row with dateModified := services.now db }
  let parsed ← setParser services
  let object ← getObject
  let form ← attempt (getForm db object.row)
  setRow fun row => { row with version := parsed.version.or form.version }
  attempt (if form.isMergedDataset then .error (.other "FormIsMergedDatasetError") else .ok ())
  setRow fun row => { row with geom := parsed.geom row.geom }
  setRow fun row => { row with
    uuid := if row.xml ≠ "" ∧ row.uuid = "" then services.uuid row.xml else row.uuid }
  setRow (withEncryptionStatus services (isWasManaged db object.row.xform form))
  let object ← getObject
  write services.refuses fun db =>
    { db with submissions := db.submissions.save object.pk object.row }
  saveFullJson services
  attempt (services.postSave (← getDb))

/-! ### The files -/

/-- `instance.attachments.filter(deleted_at__isnull=True)`. -/
def liveAttachments (db : DecryptDatabase) (pk : Nat) : List (Nat × SubmissionAttachment) :=
  db.attachments.rows.filter fun item => item.2.«instance» = pk && item.2.deletedAt = none

/-- The name of an encrypted file: `attachment.name or attachment.media_file.name.split("/")[-1]`. -/
def encryptedName (attachment : SubmissionAttachment) : String :=
  match attachment.name.filter (· ≠ "") with
  | some name => name
  | none => ({ name := attachment.mediaFile.name, contentType := "" } : MediaFile).filename

/-- `get_encrypted_files`. -/
def getEncryptedFiles (attachments : List SubmissionAttachment) :
    Except DecryptFailure (List (String × ByteArray)) :=
  attachments.foldlM (fun files attachment => do
    let content ← services.openFile attachment.mediaFile
    return Dict.insert files (encryptedName attachment) content) []

/-- `original_name.lower() == "submission.xml"`. -/
def isSubmissionXml (originalName : String) : Bool :=
  originalName.toLower = "submission.xml"

/-- `xml.decode("utf-8")`. -/
def decodeXml (content : ByteArray) : Except DecryptFailure String :=
  match String.fromUTF8? content with
  | some xml => .ok xml
  | none => .error (.other "UnicodeDecodeError")

/-- The submission becomes the decrypted one. -/
def saveDecryptedXml (content : ByteArray) : DecryptAction Unit := do
  let xml ← attempt (decodeXml content)
  setRow fun row => { row with
    xml := xml
    checksum := some (services.sha256 content)
    isEncrypted := false
    decryptionStatus := .success }
  saveInstance services

/-- The row of a decrypted media file. -/
def mediaAttachment (object : InstanceObject) (originalName : String) (content : ByteArray)
    (storedName : String) : SubmissionAttachment :=
  { xform := some object.row.xform
    «instance» := object.pk
    mediaFile := { name := storedName, content := content }
    mimetype := (services.guessType originalName).getD "application/octet-stream"
    extension := ({ name := originalName, contentType := "" } : MediaFile).extension
    fileSize := content.size
    name := some originalName
    user := object.row.user }

/-- A decrypted media file becomes an attachment. -/
def saveMediaFile (originalName : String) (content : ByteArray) : DecryptAction Unit := do
  let object ← getObject
  attempt (if 255 < originalName.length then .error (.other "ValueError") else .ok ())
  let db ← getDb
  let storedName ← attempt (services.storeFile db originalName content)
  write services.refuses fun db =>
    { db with attachments :=
        db.attachments.create (mediaAttachment services object originalName content storedName) }
  let memory ← getMemory
  setMemory { memory with
    decryptedAttachmentIds := memory.decryptedAttachmentIds ++ [db.attachments.nextPk] }

/-- A round of the loop over the decrypted files. -/
def saveDecryptedFile (file : String × ByteArray) : DecryptAction PUnit :=
  if isSubmissionXml file.1 then saveDecryptedXml services file.2
  else saveMediaFile services file.1 file.2

/-! ### Decryption -/

/-- The rows with the error of an instance object. -/
def withDecryptionError (object : InstanceObject) (code : DecryptionFailureCode)
    (db : DecryptDatabase) : DecryptDatabase :=
  { db with
    submissions := db.submissions.modify (fun item => item.1 = object.pk) fun row =>
      { row with
        json := Dict.insert object.row.json DECRYPTION_ERROR (.str code.text)
        decryptionStatus := .failed } }

/-- `save_decryption_error`. -/
def saveDecryptionError (code : DecryptionFailureCode) : DecryptAction Unit := do
  let object ← getObject
  write services.refuses (withDecryptionError object code)

/-- The history row of an instance, before its XML is replaced. -/
def encryptedHistory (object : InstanceObject) : EncryptedHistory :=
  { xformInstance := object.pk
    xml := object.row.xml
    uuid := object.row.uuid
    submissionDate := object.row.lastEdited.getD object.row.dateCreated
    geom := object.row.geom
    checksum := object.row.checksum }

/-- The attachments of an instance that are live and not decrypted are deleted. -/
def softDeleteEncrypted (pk : Nat) (decryptedAttachmentIds : List Nat) (db : DecryptDatabase) :
    DecryptDatabase :=
  { db with
    attachments := db.attachments.modify
      (fun item => item.2.«instance» = pk && item.2.deletedAt = none &&
        !decryptedAttachmentIds.contains item.1)
      fun row => { row with deletedAt := some (services.now db) } }

/-- The transaction in which the encrypted submission is replaced. -/
def replaceSubmission (history : EncryptedHistory) (decryptedFiles : DecryptedFiles) :
    DecryptAction Unit :=
  atomic services.refusesCommit do
    decryptedFiles.files.forM (saveDecryptedFile services)
    attempt (match decryptedFiles.failure with
      | none => .ok ()
      | some failure => .error failure)
    write services.refuses fun db => { db with histories := db.histories.create history }
    let memory ← getMemory
    write services.refuses
      (softDeleteEncrypted services memory.object.pk memory.decryptedAttachmentIds)

/-- The files that `decrypt_submission` gives for an instance. -/
def decryptFiles (db : DecryptDatabase) (object : InstanceObject) (kmsKey : KMSKey) :
    Except DecryptFailure DecryptedFiles := do
  services.getKmsClient
  let encFiles ← getEncryptedFiles services ((liveAttachments db object.pk).map Prod.snd)
  services.decryptSubmission kmsKey.keyId object.row.xml.toUTF8 encFiles

/-- What is done about a failure of the transaction. -/
def recordInvalidSubmission (failure : DecryptFailure) : DecryptAction Unit :=
  match failure with
  | .invalidSubmissionException message => do
      saveDecryptionError services .invalidSubmission
      raise (.decryptionError message)
  | failure => raise failure

/-- The last part of `decrypt_instance`. The task that counts the submission is sent after the
commit. -/
def replaceWithDecrypted (isEdit : Bool) (history : EncryptedHistory)
    (decryptedFiles : DecryptedFiles) : DecryptAction Unit :=
  tryCatch
    (do
      replaceSubmission services history decryptedFiles
      attempt (if isEdit then .ok () else services.incrTask))
    (recordInvalidSubmission services)

/-- The error is recorded and raised. -/
def failWith (code : DecryptionFailureCode) (failure : String → DecryptFailure) :
    DecryptAction Unit := do
  saveDecryptionError services code
  raise (failure code.message)

/-- `decrypt_instance` with the key that encrypted the submission. -/
def decryptWithKey (db : DecryptDatabase) (object : InstanceObject) (xformKey : XFormKey) :
    DecryptAction Unit :=
  match db.kmsKeys.get? xformKey.kmsKey with
  | none => raise (.other "KMSKey.DoesNotExist")
  | some kmsKey =>
      if kmsKey.disabledAt ≠ none then failWith services .keyDisabled .decryptionError
      else if object.row.mediaAllReceived ≠ some true then
        failWith services .notAllMediaReceived .notAllMediaReceivedError
      else do
        let decryptedFiles ← attempt (decryptFiles services db object kmsKey)
        let isEdit := db.histories.rows.any fun item => item.2.xformInstance = object.pk
        replaceWithDecrypted services isEdit (encryptedHistory object) decryptedFiles

/-- `decrypt_instance` with the form of the submission. -/
def decryptManaged (db : DecryptDatabase) (object : InstanceObject) (form : ManagedForm) :
    DecryptAction Unit :=
  if !isWasManaged db object.row.xform form then
    raise (.decryptionError DecryptionFailureCode.encryptionUnmanaged.message)
  else match objectsGet db.xformKeys fun link =>
      link.xform = object.row.xform && some link.version = object.row.version with
    | .error .doesNotExist => failWith services .keyNotFound .decryptionError
    | .error .multipleObjectsReturned => raise (.other "XFormKey.MultipleObjectsReturned")
    | .ok xformKey => decryptWithKey services db object xformKey

/-- `decrypt_instance`. -/
def decryptInstance : DecryptAction Unit := do
  let object ← getObject
  let db ← getDb
  if !checkEncrypted services object.row.xml then
    raise (.decryptionError DecryptionFailureCode.instanceNotEncrypted.message)
  else do
    let form ← attempt (getForm db object.row)
    decryptManaged services db object form

end

end Onadata
