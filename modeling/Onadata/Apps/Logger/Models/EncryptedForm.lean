import Onadata.Apps.Logger.Models.SoftDelete
import Onadata.Lib.PyValue

/-!
# `Onadata.Apps.Logger.Models.EncryptedForm`: a form with its XML and its public key

The rows of `XForm` of `apps/logger/models/xform.py` as the encryption of forms reads and
writes them: `get_survey_and_json_from_xlsform` makes the survey of the form again, and
`save` checks the title and the ids, reads off the survey whether the form is encrypted and
puts the public key into the XML of a form without submissions.

The survey is an object of pyxform. It is a value here: setting an attribute gives another
survey, and the survey that `set_survey` caches on the form is passed along with the form.
`FormLibrary` has the functions of pyxform, of the regular expressions and of the hash that
the code calls.

Left out: the description, which no modelled function reads, JSON that was stored as a text,
the unique constraints of live forms, the project that is touched before a save, and the
form list caches.
-/

set_option autoImplicit false

namespace Onadata

open Onadata.Lib

/-- Why a form is not encrypted, or a key not rotated. -/
inductive KmsError
  | encryptionError (message : String)
  | saveError (error : SaveError)
  | pyxformError (message : String)
  | clientError (message : String)
  | doesNotExist (model : String)
  | integrityError (constraint : String)
  | pythonError (error : PyError)
  deriving DecidableEq, Repr

/-- Stops with an error unless the condition holds. -/
def ensure (condition : Prop) [Decidable condition] (error : KmsError) : Except KmsError Unit :=
  if condition then .ok () else .error error

/-- What `create_survey_element_from_dict` raises. -/
inductive SurveyError
  | valueError
  | pyxformError (message : String)
  | keyError (message : String)
  deriving DecidableEq, Repr

/-- The JSON of a form. -/
abbrev FormJson := List (String × PyValue)

/-- The functions outside of the repository that making and saving a form calls. `Xls` is the
type of the XLSForm files and `Survey` the one of pyxform's surveys.

- `workbookToJson xls name`: `workbook_to_json` of the definition in a file;
- `createSurvey`: `create_survey_element_from_dict`;
- `createTupleSurvey`: the same with the triggers of the JSON as tuples, as
  `_convert_triggers_to_tuples` makes them;
- `setPublicKey`, `setVersion`: a survey with this attribute;
- `toXml`: `survey.to_xml()`;
- `hasPublicKey`: `"public_key" in survey.to_json_dict()`;
- `smsKeyword`: `survey.to_json_dict().get("sms_keyword")`;
- `idStrings`: the matches of `instance_id_regex` in an XML;
- `titles`: the matches of `TITLE_PATTERN` in an XML with single spaces;
- `setTitle xml title`: `TITLE_PATTERN.sub`, which puts the title into the XML;
- `hasUrl`: `URL_PATTERN` matches in a title;
- `md5`: the MD5 digest of a text in hexadecimal. -/
structure FormLibrary (Xls Survey : Type) where
  workbookToJson : Xls → PyValue → Except String FormJson
  createSurvey : FormJson → Except SurveyError Survey
  createTupleSurvey : FormJson → Except SurveyError Survey
  setPublicKey : Survey → Option String → Survey
  setVersion : Survey → String → Survey
  toXml : Survey → String
  hasPublicKey : Survey → Bool
  smsKeyword : Survey → Option String
  idStrings : String → List String
  titles : String → List String
  setTitle : String → String → String
  hasUrl : String → Bool
  md5 : String → String

/-- The owner of a form, as `xform.user.profile` tells it. -/
inductive FormOwner
  | withoutProfile
  | person
  | organization (pk : Nat)
  deriving DecidableEq, Repr

/-- A row of `XForm`. -/
structure EncryptedForm (Xls : Type) where
  idString : String
  smsIdString : String
  title : String
  xls : Option Xls := none
  json : FormJson
  xml : String
  version : Option String := none
  publicKey : Option String := none
  encrypted : Bool := false
  isManaged : Bool := false
  hash : Option String := none
  numOfSubmissions : Nat := 0
  deletedAt : Option DateTime := none
  owner : FormOwner

/-- `XFORM_TITLE_LENGTH`. -/
def XFORM_TITLE_LENGTH : Nat := 255

/-- What a missing or broken survey raises. -/
def SurveyError.toKmsError : SurveyError → KmsError
  | .valueError => .pythonError .valueError
  | .pyxformError message => .pyxformError message
  | .keyError _ => .pythonError .keyError

/-- `is_trigger_error`. -/
def isTriggerError (message : String) : Bool :=
  decide ("expected processed trigger data as a tuple".toList <:+: message.toList)

/-- The JSON of a workbook with a field of the form in the place of another value. -/
def overrideField (field : String) (value : Option String) (json : FormJson) : FormJson :=
  match value with
  | none => json
  | some text =>
      match Dict.get? json field with
      | some (.str old) => if text = "" ∨ text = old then json
          else Dict.insert json field (.str text)
      | _ => if text = "" then json else Dict.insert json field (.str text)

namespace EncryptedForm

variable {Xls Survey : Type}

/-- `get_survey_from_file_object`, for the file, the name, the ids and the version of a form. -/
def getSurveyFromFileObject (lib : FormLibrary Xls Survey) (xls : Xls) (name : PyValue)
    (idString title : String) (version : Option String) : Except KmsError (Survey × FormJson) := do
  let xlsformJson ← (lib.workbookToJson xls name).mapError .pyxformError
  let xlsformJson := overrideField "version" version xlsformJson
  let xlsformJson := overrideField "title" (some title) xlsformJson
  let xlsformJson := overrideField "id_string" (some idString) xlsformJson
  let survey ← (lib.createSurvey xlsformJson).mapError SurveyError.toKmsError
  return (survey, xlsformJson)

/-- `_get_survey` of a form without an XLSForm. After a `ValueError` it returns the XML as
bytes, on which the callers set an attribute. -/
def buildSurvey (lib : FormLibrary Xls Survey) (json : FormJson) : Except KmsError Survey :=
  match lib.createSurvey json with
  | .ok survey => .ok survey
  | .error .valueError => .error (.pythonError .attributeError)
  | .error (.pyxformError message) =>
      if isTriggerError message then
        (lib.createTupleSurvey json).mapError SurveyError.toKmsError
      else .error (.pyxformError message)
  | .error (.keyError message) =>
      if isTriggerError message then
        (lib.createTupleSurvey json).mapError SurveyError.toKmsError
      else .error (.pythonError .keyError)

/-- `get_survey_and_json_from_xlsform`. `cached` is the survey that `set_survey` left on the
form. -/
def getSurveyAndJsonFromXlsform (lib : FormLibrary Xls Survey) (cached : Option Survey)
    (form : EncryptedForm Xls) : Except KmsError (Survey × FormJson) :=
  match form.xls with
  | none =>
      match cached with
      | some survey => .ok (survey, form.json)
      | none => do return (← buildSurvey lib form.json, form.json)
  | some xls =>
      match Dict.get? form.json "name" with
      | some name =>
          getSurveyFromFileObject lib xls name form.idString form.title form.version
      | none => .error (.pythonError .keyError)

/-- `get_hash`. -/
def getHash (lib : FormLibrary Xls Survey) (form : EncryptedForm Xls) : String :=
  "md5:" ++ lib.md5 form.xml

/-- `_set_title`: the title in the XML, or the title of the form where they differ. -/
def setTitle (lib : FormLibrary Xls Survey) (form : EncryptedForm Xls) :
    Except KmsError (EncryptedForm Xls) := do
  match lib.titles form.xml with
  | [found] =>
      let renamed : Bool := form.title ≠ "" && takeStart found XFORM_TITLE_LENGTH ≠ form.title
      let titleXml := takeStart (if renamed then form.title else found) XFORM_TITLE_LENGTH
      let form := if renamed then { form with xml := lib.setTitle form.xml titleXml } else form
      let form := if renamed then { form with hash := some (form.getHash lib) } else form
      ensure (containsXmlInvalidChar titleXml = false)
        (.saveError (.xlsFormError
          "Title shouldn't have any invalid xml characters ('>' '&' '<')"))
      ensure (lib.hasUrl form.title = false)
        (.saveError (.xlsFormError "Invalid title value; value shouldn't match a URL"))
      return { form with title := titleXml }
  | _ => throw (.saveError (.xlsFormError "There should be a single title."))

/-- `_set_encrypted_field`. -/
def setEncryptedField (lib : FormLibrary Xls Survey) (survey : Survey)
    (form : EncryptedForm Xls) : EncryptedForm Xls :=
  if form.json = [] then form else { form with encrypted := lib.hasPublicKey survey }

/-- `_set_id_string`: the id in the XML. -/
def setIdString (lib : FormLibrary Xls Survey) (form : EncryptedForm Xls) :
    Except KmsError String :=
  match lib.idStrings form.xml with
  | [id] => .ok id
  | _ => .error (.saveError (.xlsFormError "There should be a single id string."))

/-- `_set_public_key_field`: the public key goes into the JSON and the XML that are made again
from the XLSForm. -/
def setPublicKeyField (lib : FormLibrary Xls Survey) (survey : Survey)
    (form : EncryptedForm Xls) : Except KmsError (EncryptedForm Xls) :=
  match form.publicKey with
  | none => .ok form
  | some publicKey =>
      if publicKey = "" ∨ form.numOfSubmissions ≠ 0 then .ok form
      else do
        let (survey, workbookJson) ← form.getSurveyAndJsonFromXlsform lib (some survey)
        let survey := lib.setPublicKey survey (some publicKey)
        let form := { form with
          json := Dict.insert workbookJson "public_key" (.str publicKey)
          xml := lib.toXml survey }
        return form.setEncryptedField lib survey

/-- `XForm.save` of a stored form, with all of its fields. `survey` is the survey that
`set_survey` left on the form. -/
def save (cfg : SaveSettings) (lib : FormLibrary Xls Survey) (survey : Survey)
    (form : EncryptedForm Xls) : Except KmsError (EncryptedForm Xls) := do
  let form ← form.setTitle lib
  let form := form.setEncryptedField lib survey
  let idString ← if form.deletedAt = none then form.setIdString lib else .ok form.idString
  ensure (form.idString = "" ∨ form.idString = idString ∨ form.numOfSubmissions = 0)
    (.saveError (.xlsFormError ("Your updated form's id_string '" ++ idString ++
      "' must match the existing forms' id_string '" ++ form.idString ++ "'.")))
  ensure (cfg.strict = true → cfg.isSlug idString = true)
    (.saveError (.xlsFormError ("In strict mode, the XForm ID must be a valid slug and " ++
      "contain no spaces. Please ensure that you have set an id_string in the settings " ++
      "sheet or have modified the filename to not contain any spaces.")))
  let smsIdString := if form.smsIdString = "" then (lib.smsKeyword survey).getD idString
    else form.smsIdString
  let form := { form with idString := idString, smsIdString := smsIdString }
  let form ← form.setPublicKeyField lib survey
  ensure (form.idString.length ≤ MAX_ID_LENGTH ∧ form.smsIdString.length ≤ MAX_ID_LENGTH)
    (.saveError (.xlsFormError ("The XForm id_string provided exceeds 100 characters. " ++
      "Please change the \"id_string\" or \"form_id\" valuesin settings sheet or reduce the " ++
      "file name if you do not have a settings sheets.")))
  ensure (form.version.any containsXmlInvalidChar = false)
    (.saveError (.xlsFormError
      "Version shouldn't have any invalid characters ('>' '&' '<')"))
  return form

end EncryptedForm

end Onadata
