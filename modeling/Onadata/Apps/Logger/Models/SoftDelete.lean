import Onadata.Lib.PyText

/-!
# `Onadata.Apps.Logger.Models.SoftDelete`: soft deletion of a form

`XForm.soft_delete` and `XForm.restore` of `apps/logger/models/xform.py`, and the same
operations of the rows that they go through: the dataviews (`apps/logger/models/data_view.py`),
the merged datasets (`apps/logger/models/merged_xform.py`) and the metadata
(`apps/main/models/meta_data.py`). Both operations are transactions, so that an error leaves
all rows as they were.

A merged dataset is a form with rows of its own, and `FormRows` has the type of its merged
datasets as a parameter. The API merges only forms that are not merged datasets themselves.

Left out: the unique constraints of live forms (a live form already meets them), the title
and the encryption fields that a save fills in, the permissions and the caches.
-/

set_option autoImplicit false

namespace Onadata

open Onadata.Lib

/-- A `datetime`, in microseconds since the epoch. Its year is at most 9999. -/
structure DateTime where
  microseconds : Nat
  bounded : microseconds < 253402300800000000 := by decide
  deriving DecidableEq, Repr

/-- `when.strftime("-deleted-at-%s")`. -/
def deletionSuffix (when : DateTime) : String :=
  "-deleted-at-" ++ toString (when.microseconds / 1000000)

/-- Why a row is not saved. -/
inductive SaveError
  | xlsFormError (message : String)
  | dataError (message : String)
  deriving DecidableEq, Repr

/-- Stops with an error unless the condition holds. -/
def require (condition : Prop) [Decidable condition] (error : SaveError) :
    Except SaveError Unit :=
  if condition then .ok () else .error error

/-- The settings that a save reads, and the characters that `\w` matches. -/
structure SaveSettings where
  strict : Bool := true
  isWord : Char → Bool
  isWord_alphanum : ∀ c : Char, c.isAlphanum = true → isWord c = true

/-- `re.search(r"^[\w-]+$", text)`, for a text without a line end. -/
def SaveSettings.isSlug (cfg : SaveSettings) (text : String) : Bool :=
  !text.toList.isEmpty && text.toList.all fun c => cfg.isWord c || c == '-'

/-- What `timezone.now()` is in the `soft_delete` of each row. -/
structure Clock where
  xform : Nat → DateTime
  dataview : Nat → DateTime
  metadata : Nat → DateTime

/-! ### The form -/

/-- What the soft deletion reads of a row of `XForm`. `xmlIdStrings` are the matches of
`instance_id_regex` in the XML, `titleError` is the message with which `_set_title` refuses
the title, and `smsKeyword` is the `sms_keyword` of the form JSON. -/
structure XFormRecord where
  pk : Nat
  idString : String
  smsIdString : String
  deletedAt : Option DateTime := none
  deletedBy : Option String := none
  downloadable : Bool := true
  numOfSubmissions : Nat := 0
  version : Option String := none
  xmlIdStrings : List String
  titleError : Option String := none
  smsKeyword : Option String := none
  deriving DecidableEq, Repr

/-- `XForm.MAX_ID_LENGTH`. -/
def MAX_ID_LENGTH : Nat := 100

/-- `contains_xml_invalid_char`. -/
def containsXmlInvalidChar (text : String) : Bool :=
  ['&', '>', '<'].any fun c => text.toList.contains c

namespace XFormRecord

/-- `_set_id_string`: the id in the XML. -/
def setIdString (form : XFormRecord) : Except SaveError String :=
  match form.xmlIdStrings with
  | [id] => .ok id
  | _ => .error (.xlsFormError "There should be a single id string.")

/-- `XForm.save` of a stored form, with or without `title` among the fields. The id and the
SMS id are always among them. -/
def save (cfg : SaveSettings) (withTitle : Bool) (form : XFormRecord) :
    Except SaveError XFormRecord := do
  require (withTitle = true → form.titleError = none)
    (.xlsFormError (form.titleError.getD ""))
  let idString ← if form.deletedAt = none then form.setIdString else .ok form.idString
  require (form.idString = "" ∨ form.idString = idString ∨ form.numOfSubmissions = 0)
    (.xlsFormError ("Your updated form's id_string '" ++ idString ++
      "' must match the existing forms' id_string '" ++ form.idString ++ "'."))
  require (cfg.strict = true → cfg.isSlug idString = true)
    (.xlsFormError ("In strict mode, the XForm ID must be a valid slug and contain no " ++
      "spaces. Please ensure that you have set an id_string in the settings sheet or have " ++
      "modified the filename to not contain any spaces."))
  let smsIdString :=
    if form.smsIdString = "" then form.smsKeyword.getD idString else form.smsIdString
  require (idString.length ≤ MAX_ID_LENGTH ∧ smsIdString.length ≤ MAX_ID_LENGTH)
    (.xlsFormError ("The XForm id_string provided exceeds 100 characters. Please change " ++
      "the \"id_string\" or \"form_id\" valuesin settings sheet or reduce the file name if " ++
      "you do not have a settings sheets."))
  require (form.version.any containsXmlInvalidChar = false)
    (.xlsFormError "Version shouldn't have any invalid characters ('>' '&' '<')")
  return { form with idString := idString, smsIdString := smsIdString }

/-- The id of a deleted form: with the suffix, unless it would be too long. -/
@[irreducible] def withSuffix (suffix value : String) : String :=
  if value.length + suffix.length ≤ MAX_ID_LENGTH then value ++ suffix else value

/-- The id of a restored form. A legacy row of the maximum length may end with only a part
of the suffix. -/
@[irreducible] def withoutSuffix (suffix value : String) : String :=
  if endsWith value suffix then dropEnd value suffix.length
  else if value.length = MAX_ID_LENGTH then
    match (List.range' 1 (suffix.length - 1)).reverse.find? fun length =>
        endsWith value (takeStart suffix length) with
    | some length => dropEnd value length
    | none => value
  else value

/-- The fields that `soft_delete` sets. -/
def markDeleted (now : DateTime) (user : Option String) (form : XFormRecord) : XFormRecord :=
  { form with
      deletedAt := some now
      downloadable := false
      idString := withSuffix (deletionSuffix now) form.idString
      smsIdString := withSuffix (deletionSuffix now) form.smsIdString
      deletedBy := user.or form.deletedBy }

/-- The fields that `restore` sets. -/
def markRestored (deletedAt : DateTime) (form : XFormRecord) : XFormRecord :=
  { form with
      deletedAt := none
      idString := withoutSuffix (deletionSuffix deletedAt) form.idString
      smsIdString := withoutSuffix (deletionSuffix deletedAt) form.smsIdString
      downloadable := true
      deletedBy := none }

end XFormRecord

/-! ### The dataviews -/

/-- What the soft deletion reads of a row of `DataView`. -/
structure DataView where
  pk : Nat
  name : String
  deletedAt : Option DateTime := none
  deletedBy : Option String := none
  deriving DecidableEq, Repr

namespace DataView

/-- `DataView.save`: the column of the name has 255 characters. -/
def save (dataview : DataView) : Except SaveError DataView := do
  require (dataview.name.length ≤ 255)
    (.dataError "value too long for type character varying(255)")
  return dataview

/-- `DataView.soft_delete`. -/
def softDelete (clock : Clock) (user : Option String) (dataview : DataView) :
    Except SaveError DataView :=
  let now := clock.dataview dataview.pk
  save { dataview with
    deletedAt := some now
    name := dataview.name ++ deletionSuffix now
    deletedBy := user.or dataview.deletedBy }

/-- `DataView.restore`. -/
def restore (dataview : DataView) : Except SaveError DataView :=
  if dataview.deletedAt.isSome then
    save { dataview with
      name := beforeFirst "-deleted-at-" dataview.name
      deletedAt := none
      deletedBy := none }
  else .ok dataview

end DataView

/-! ### The metadata -/

/-- What the soft deletion reads of a row of `MetaData`. -/
structure MetaData where
  pk : Nat
  dataValue : String
  deletedAt : Option DateTime := none
  deriving DecidableEq, Repr

/-- `MetaData.soft_delete` without the save. -/
def MetaData.markDeleted (clock : Clock) (metadata : MetaData) : MetaData :=
  { metadata with deletedAt := some (clock.metadata metadata.pk) }

/-- `MetaData.restore` without the save. -/
def MetaData.markRestored (metadata : MetaData) : MetaData :=
  { metadata with deletedAt := none }

/-- Marks and saves the selected metadata of a form. `update_attached_object` saves the form
after each of them, with all of its fields. -/
def saveMetadata (cfg : SaveSettings) (selected : MetaData → Bool) (mark : MetaData → MetaData) :
    XFormRecord → List MetaData → Except SaveError (XFormRecord × List MetaData)
  | form, [] => .ok (form, [])
  | form, metadata :: rest =>
      if selected metadata then do
        let form ← form.save cfg true
        let (form, rest) ← saveMetadata cfg selected mark form rest
        return (form, mark metadata :: rest)
      else do
        let (form, rest) ← saveMetadata cfg selected mark form rest
        return (form, metadata :: rest)

/-! ### The form with its rows -/

/-- Rows that can be soft-deleted and restored. -/
class SoftDeletable (Row : Type) where
  deletedAt : Row → Option DateTime
  softDelete : SaveSettings → Clock → Option String → Row → Except SaveError Row
  restore : SaveSettings → Row → Except SaveError Row

instance : SoftDeletable Empty where
  deletedAt := Empty.elim
  softDelete _ _ _ := Empty.elim
  restore _ := Empty.elim

/-- A form with `dataview_set`, `mergedxform_ptr` and `metadata_set`. -/
structure FormRows (Merged : Type) where
  form : XFormRecord
  dataviews : List DataView := []
  merged : List Merged := []
  metadata : List MetaData := []

namespace FormRows
variable {Merged : Type} [SoftDeletable Merged]

/-- `XForm.soft_delete`. -/
def softDelete (cfg : SaveSettings) (clock : Clock) (user : Option String)
    (rows : FormRows Merged) : Except SaveError (FormRows Merged) :=
  if rows.form.deletedAt.isSome then .ok rows
  else do
    let form ← (rows.form.markDeleted (clock.xform rows.form.pk) user).save cfg false
    let dataviews ← rows.dataviews.mapM (DataView.softDelete clock user)
    let merged ← rows.merged.mapM fun dataset =>
      if SoftDeletable.deletedAt dataset = none then
        SoftDeletable.softDelete cfg clock user dataset
      else .ok dataset
    let (form, metadata) ← saveMetadata cfg (fun metadata => metadata.deletedAt.isNone)
      (MetaData.markDeleted clock) form rows.metadata
    return { form := form, dataviews := dataviews, merged := merged, metadata := metadata }

/-- `XForm.restore`. -/
def restore (cfg : SaveSettings) (rows : FormRows Merged) :
    Except SaveError (FormRows Merged) :=
  match rows.form.deletedAt with
  | none => .ok rows
  | some deletedAt => do
    let form ← (rows.form.markRestored deletedAt).save cfg false
    let dataviews ← rows.dataviews.mapM DataView.restore
    let merged ← rows.merged.mapM fun dataset =>
      if (SoftDeletable.deletedAt dataset).isSome then SoftDeletable.restore cfg dataset
      else .ok dataset
    let (form, metadata) ← saveMetadata cfg (fun metadata => metadata.deletedAt.isSome)
      MetaData.markRestored form rows.metadata
    return { form := form, dataviews := dataviews, merged := merged, metadata := metadata }

instance : SoftDeletable (FormRows Merged) where
  deletedAt rows := rows.form.deletedAt
  softDelete := softDelete
  restore := restore

end FormRows

/-- A merged dataset, which no other merged dataset merges. -/
abbrev MergedDataset := FormRows Empty

/-- A form with all rows that are related to it. -/
abbrev FormFamily := FormRows MergedDataset

end Onadata
