import Mathlib.Data.List.Dedup
import Onadata.Lib.PyValue

/-!
# `Onadata.Libs.Utils.MediaTracking`: the attachments of a submission

`save_attachments`, `update_attachment_tracking` and the managed path of `edit_instance` of
`libs/utils/logger_tools.py`, with `get_expected_media`, `attachments_count` and
`soft_delete_attachments` of `apps/logger/models/instance.py` and `get_values_matching_key`
of `libs/utils/dict_tools.py`, on one submission.

The caches of an instance, which are filled from its XML, are filled after the new XML is
set, by the first save in `_edit_instance`. All calls of `timezone.now()` in one operation
have one time.

Left out: the permission and encryption checks, the history row of an edit, the files
themselves and the flag of the form for OSM files.
-/

set_option autoImplicit false

namespace Onadata

open Onadata.Lib

/-- A row of `Attachment`. -/
structure Attachment where
  name : Option String
  mimetype : String
  extension : String
  user : Option Nat
  xform : Option Nat
  deletedAt : Option Int := none
  deriving DecidableEq, Repr

/-- An uploaded file. -/
structure MediaFile where
  name : String
  contentType : String
  deriving DecidableEq, Repr

/-- What `get_expected_media` reads of a form. `mediaXpaths` is `get_media_survey_xpaths()`
followed by `get_osm_survey_xpaths()`. -/
structure MediaForm where
  pk : Nat
  encrypted : Bool := false
  isWasManaged : Bool := false
  mediaXpaths : List String := []
  deriving Repr

/-- The content of a submitted XML: its uuid and the result of `get_dict`. -/
structure SubmittedXml where
  uuid : String
  data : List (String × PyValue)

/-- A submission: the row of `Instance` and `instance.attachments`. -/
structure MediaInstance where
  xml : SubmittedXml
  user : Option Nat := none
  attachments : List Attachment := []
  totalMedia : Nat := 0
  mediaCount : Nat := 0
  mediaAllReceived : Bool := false

/-- Why the attachments are not saved. -/
inductive AttachmentError
  | attachmentNameError (filename : String)
  | dataError
  | expectedMedia (error : PyError)
  deriving DecidableEq, Repr

/-! ### The expected media -/

mutual

/-- `_get_values` on a value of a dict. A list in a list has no `items`, and cannot be indexed
with the key if it holds it. -/
def valuesIn (key : String) : PyValue → Except PyError (List PyValue)
  | .dict items => do
      let rest ← valuesInItems key items
      return (Dict.get? items key).toList ++ rest
  | .list items => valuesInList key items
  | _ => .ok []

/-- `_get_values` on the items of a dict. -/
def valuesInItems (key : String) : List (String × PyValue) → Except PyError (List PyValue)
  | [] => .ok []
  | (_, value) :: rest => do
      let values ← valuesIn key value
      let others ← valuesInItems key rest
      return values ++ others

/-- `_get_values` on the items of a list. -/
def valuesInList (key : String) : List PyValue → Except PyError (List PyValue)
  | [] => .ok []
  | item :: rest => do
      let values ← match item with
        | .dict _ => valuesIn key item
        | .list _ => .error .attributeError
        | .str s => .ok (if s = key then [.str s] else [])
        | _ => .ok []
      let others ← valuesInList key rest
      return values ++ others

end

/-- `get_values_matching_key`. -/
def getValuesMatchingKey (doc : List (String × PyValue)) (key : String) :
    Except PyError (List PyValue) :=
  valuesIn key (.dict doc)

/-- `i["media/file"]`. -/
def mediaFile : PyValue → Except PyError PyValue
  | .dict items =>
      match Dict.get? items "media/file" with
      | some file => .ok file
      | none => .error .keyError
  | _ => .error .typeError

/-- A name in a set: the XML has texts, and a list or a dict has no hash. -/
def mediaName : PyValue → Except PyError String
  | .str name => .ok name
  | _ => .error .typeError

/-- `media_list` in `get_expected_media`. -/
def MediaForm.mediaList (form : MediaForm) (data : List (String × PyValue)) :
    Except PyError (List PyValue) :=
  match Dict.get? data "encryptedXmlFile", form.encrypted || form.isWasManaged with
  | some file, true =>
      match Dict.get? data "media" with
      | none => .ok [file]
      | some (.list items) => return file :: (← items.mapM mediaFile)
      | some _ => .error .typeError
  | _, _ => return (← form.mediaXpaths.mapM (getValuesMatchingKey data)).flatten

/-- `Instance.get_expected_media`. -/
def MediaForm.getExpectedMedia (form : MediaForm) (data : List (String × PyValue)) :
    Except PyError (List String) := do
  let names ← (← form.mediaList data).mapM mediaName
  return names.dedup

/-! ### The uploaded files -/

/-- `os.path.basename(f.name)`. -/
def MediaFile.filename (file : MediaFile) : String :=
  String.ofList (file.name.toList.reverse.takeWhile (· ≠ '/')).reverse

/-- `os.path.splitext(f.name)[1].replace(".", "")`: a name that starts with its last dot has no
extension. -/
def MediaFile.extension (file : MediaFile) : String :=
  let name := file.filename.toList
  let ending := (name.reverse.takeWhile (· ≠ '.')).reverse
  if (name.take (name.length - ending.length)).all (· == '.') then "" else String.ofList ending

/-- `Attachment.OSM`. -/
def OSM : String := "osm"

/-- The MIME type of the attachment. -/
def MediaFile.mimetype (file : MediaFile) : String :=
  if file.extension = OSM then "text/xml" else file.contentType

/-- The live row that `get_or_create` looks for. -/
def MediaFile.attachment (form : MediaForm) (user : Option Nat) (file : MediaFile) : Attachment :=
  { name := some file.filename
    mimetype := file.mimetype
    extension := file.extension
    user := user
    xform := some form.pk }

/-- One round of `save_attachments`. Whether the file is named in the submission does not
matter: a list with one item is true. -/
def saveAttachment (form : MediaForm) (s : MediaInstance) (attachments : List Attachment)
    (file : MediaFile) : Except AttachmentError (List Attachment) :=
  if 100 < file.filename.length then .error (.attachmentNameError file.filename)
  else do
    let _ ← (form.getExpectedMedia s.xml.data).mapError .expectedMedia
    let row := file.attachment form s.user
    if row ∈ attachments then .ok attachments
    else if 10 < row.extension.length ∨ 100 < row.mimetype.length then .error .dataError
    else .ok (attachments ++ [row])

/-! ### The operations -/

/-- `Instance.attachments_count`: the different names of attachments that are expected. -/
def attachmentsCount (expected : List String) (attachments : List Attachment) : Nat :=
  ((attachments.filterMap Attachment.name).filter (· ∈ expected)).dedup.length

/-- `Instance.soft_delete_attachments`. -/
def softDeleteAttachments (now : Int) (expected : List String) (attachments : List Attachment) :
    List Attachment :=
  attachments.map fun attachment =>
    if attachment.name.any (· ∈ expected) then attachment
    else { attachment with deletedAt := some now }

/-- `update_attachment_tracking`. -/
def updateAttachmentTracking (expected : List String) (s : MediaInstance) : MediaInstance :=
  { s with
      totalMedia := expected.length
      mediaCount := attachmentsCount expected s.attachments
      mediaAllReceived := attachmentsCount expected s.attachments == expected.length }

/-- `save_attachments` with `remove_deleted_media`. -/
def saveAttachments (form : MediaForm) (now : Int) (s : MediaInstance) (files : List MediaFile) :
    Except AttachmentError MediaInstance := do
  let attachments ← files.foldlM (saveAttachment form s) s.attachments
  let expected ← (form.getExpectedMedia s.xml.data).mapError .expectedMedia
  return updateAttachmentTracking expected
    { s with attachments := softDeleteAttachments now expected attachments }

/-- The managed path of `edit_instance`. An XML with the uuid of the submission is a duplicate:
`DuplicateInstance` is raised after its attachments are saved. -/
def MediaInstance.editInstance (form : MediaForm) (now : Int) (s : MediaInstance)
    (xml : SubmittedXml) (files : List MediaFile) : Except AttachmentError MediaInstance :=
  if s.xml.uuid = xml.uuid then saveAttachments form now s files
  else
    saveAttachments form now
      { s with
          xml := xml
          mediaAllReceived := false
          attachments := s.attachments.map fun attachment =>
            if attachment.deletedAt.isNone then { attachment with deletedAt := some now }
            else attachment }
      files

/-- What can happen to a submission. In a `resend`, `create_instance` finds the uuid of the
request in the submission or in its history. -/
inductive MediaOp
  | batch (files : List MediaFile)
  | resend (files : List MediaFile)
  | edit (xml : SubmittedXml) (files : List MediaFile)

/-- The submission after an operation. -/
def MediaOp.apply (form : MediaForm) (now : Int) (s : MediaInstance) :
    MediaOp → Except AttachmentError MediaInstance
  | .batch files => saveAttachments form now s files
  | .resend files => saveAttachments form now s files
  | .edit xml files => s.editInstance form now xml files

end Onadata
