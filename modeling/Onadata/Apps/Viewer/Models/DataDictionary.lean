import Onadata.Lib.UnusedName
import Onadata.Libs.Kms.Tools

/-!
# `Onadata.Apps.Viewer.Models.DataDictionary`: forms are published

`DataDictionary.save` and `get_unique_version` of `apps/viewer/models/data_dictionary.py`,
`XForm._get_survey`, and `publish_xls_form`, `publish_xml_form` and `create_xform_version` of
`libs/utils/logger_tools.py`.

`PublishLibrary` adds to `FormLibrary` what publishing calls of pyxform, and the functions that
read and edit the DOM of a form's XML. The id that `get_unique_id_string` finds for a new form and
the uuid of the form are parameters.

Left out: media that are made of external choices, the flags for HXL and start times, the uuid of
a Flow package, and the times of the form.
-/

set_option autoImplicit false

namespace Onadata

open Onadata.Lib

/-- The functions that publishing calls, beside those of saving a form.

- `processXlsform`: `process_xlsform_survey_and_json`, with the default name;
- `rootTag`: `survey.xml_instance().tagName`;
- `surveyVersion`, `surveyIdString`, `surveyName`, `surveyTitle`: `survey.get` of these;
- `setSurveyIdString`, `setSurveyName`: a survey with this attribute;
- `fileName`: the name of a file;
- `surveyFromXml`: `create_survey_element_from_xml`;
- `surveyJson`: `survey.to_json()`;
- `versionInXml`, `setVersionInXml`: `_get_version_from_xform_xml`, `_set_version_in_xform_xml`;
- `setUuidInXml`: `set_uuid_in_xml`, for a uuid and a file name. -/
structure PublishLibrary (Xls Survey : Type) extends FormLibrary Xls Survey where
  processXlsform : Xls → Option String → Except KmsError (Survey × FormJson)
  rootTag : Survey → String
  surveyVersion : Survey → String
  surveyIdString : Survey → String
  surveyName : Survey → String
  surveyTitle : Survey → String
  setSurveyIdString : Survey → String → Survey
  setSurveyName : Survey → String → Survey
  fileName : Xls → String
  surveyFromXml : String → Except KmsError Survey
  surveyJson : Survey → FormJson
  versionInXml : String → String → String
  setVersionInXml : String → String → String → String
  setUuidInXml : String → String → String → Except KmsError String

/-- `is_itemset_error`. -/
def isItemsetError (message : String) : Bool :=
  decide ("itemset".toList <:+: message.toList)

/-- `get_unique_version`, for the versions of the form that are there. -/
def getUniqueVersion (existing : List String) (version : String) : String :=
  if version ∉ existing then version
  else unusedName existing (fun suffix => version ++ "-" ++ toString suffix) 2

/-- `version` as `check_version_set` sets it. -/
def checkVersionSet (now : DateTime) (version : String) : String :=
  if version = "" then versionAt now else version

/-- What a publication brings along: the time, the uuid of the form, and the result of
`get_unique_id_string`. -/
structure Publication where
  now : DateTime
  uuid : String
  uniqueIdString : String → String
  publisher : String

variable {Xls Survey : Type}

namespace EncryptedForm

/-- `_get_survey` of a form with JSON. A survey that has to be read from the XLSForm again leaves
its JSON on the form. -/
def getSurvey (lib : FormLibrary Xls Survey) (form : EncryptedForm Xls) :
    Except KmsError (Survey × EncryptedForm Xls) :=
  match form.xls, lib.createSurvey form.json with
  | some _, .error (.pyxformError message) =>
      if isItemsetError message || isTriggerError message then readAgain
      else .error (.pyxformError message)
  | some _, .error (.keyError message) =>
      if isItemsetError message || isTriggerError message then readAgain
      else .error (.pythonError .keyError)
  | _, _ => do return (← buildSurvey lib form.json, form)
where
  /-- The survey of the XLSForm, with the public key of the form. -/
  readAgain : Except KmsError (Survey × EncryptedForm Xls) := do
    let (survey, workbookJson) ← form.getSurveyAndJsonFromXlsform lib none
    match form.publicKey with
    | none => return (survey, { form with json := workbookJson })
    | some publicKey =>
        if publicKey = "" then return (survey, { form with json := workbookJson })
        else
          return (lib.setPublicKey survey (some publicKey),
            { form with json := Dict.insert workbookJson "public_key" (.str publicKey) })

/-- `file_name()`. -/
def fileName (lib : PublishLibrary Xls Survey) (form : EncryptedForm Xls) : String :=
  match form.xls with
  | some xls => lib.fileName xls
  | none => form.idString ++ ".xml"

/-- `set_uuid_in_xml` and `set_hash`. -/
def withUuid (lib : PublishLibrary Xls Survey) (publication : Publication) (fileName : String)
    (form : EncryptedForm Xls) : Except KmsError (EncryptedForm Xls) := do
  let xml ← lib.setUuidInXml publication.uuid fileName form.xml
  let form := { form with xml := xml }
  return { form with hash := some (form.getHash lib.toFormLibrary) }

/-- The survey of the XLSForm with the id of the form, for the survey `stored` of the form so far,
which a new form does not have. -/
def alignSurvey (lib : PublishLibrary Xls Survey) (publication : Publication)
    (form : EncryptedForm Xls) (stored : Option Survey) (survey : Survey) (json : FormJson) :
    Except KmsError (Survey × FormJson) :=
  match stored with
  | none =>
      let idString := publication.uniqueIdString (lib.surveyIdString survey)
      .ok (lib.setSurveyIdString survey idString, Dict.insert json "id_string" (.str idString))
  | some old =>
      let defaultName := lib.rootTag old
      if form.idString ≠ lib.surveyIdString survey then
        .error (.saveError (.xlsFormError ("Your updated form's id_string '" ++
          lib.surveyIdString survey ++ "' must match the existing forms' id_string '" ++
          form.idString ++ "'.")))
      else if defaultName ≠ "" ∧ defaultName ≠ lib.surveyName survey then
        .ok (lib.setSurveyName survey defaultName, Dict.insert json "name" (.str defaultName))
      else
        .ok (lib.setSurveyIdString survey form.idString,
          Dict.insert json "id_string" (.str form.idString))

/-- The first part of `DataDictionary.save` of a form with an XLSForm. `existing` are the versions
of a stored form. -/
def readXlsform (lib : PublishLibrary Xls Survey) (publication : Publication)
    (existing : List String) (form : EncryptedForm Xls) (xls : Xls) (stored : Option Survey) :
    Except KmsError (EncryptedForm Xls) := do
  let (survey, workbookJson) ← lib.processXlsform xls (stored.map lib.rootTag)
  let version := checkVersionSet publication.now (lib.surveyVersion survey)
  let version := if stored.isSome then getUniqueVersion existing version else version
  -- `survey.get("version")` is what was set
  let survey := lib.setVersion survey version
  let workbookJson := Dict.insert workbookJson "version" (.str version)
  let (survey, workbookJson) ← form.alignSurvey lib publication stored survey workbookJson
  let form := { form with
    json := workbookJson
    xml := lib.toXml survey
    version := some version
    title := lib.surveyTitle survey }
  form.withUuid lib publication (lib.fileName xls)

/-- `DataDictionary.save`. The survey of a stored form is cached before its JSON is another one. -/
def saveDataDictionary (cfg : SaveSettings) (lib : PublishLibrary Xls Survey)
    (publication : Publication) (existing : Option (List String)) (form : EncryptedForm Xls) :
    Except KmsError (EncryptedForm Xls) :=
  match form.xls, existing with
  | none, _ => do
      let (survey, form) ← form.getSurvey lib.toFormLibrary
      form.save cfg lib.toFormLibrary survey
  | some xls, none => do
      let form ← form.readXlsform lib publication [] xls none
      let (survey, form) ← form.getSurvey lib.toFormLibrary
      form.save cfg lib.toFormLibrary survey
  | some xls, some existing => do
      let (stored, form) ← form.getSurvey lib.toFormLibrary
      let form ← form.readXlsform lib publication existing xls (some stored)
      form.save cfg lib.toFormLibrary stored

end EncryptedForm

namespace KmsDatabase

/-- `XFormVersion.objects.filter(xform_id=self.pk).values_list("version", flat=True)`. -/
def versionsOf (db : KmsDatabase Xls) (pk : Nat) : List String :=
  (db.versions.filter fun row => row.xform = pk).filterMap (·.version)

/-- `DataDictionary.objects.get(..., deleted_at__isnull=True)`. -/
def getLiveForm (db : KmsDatabase Xls) (pk : Nat) : Except KmsError (EncryptedForm Xls) :=
  match db.xforms.get? pk with
  | none => .error (.doesNotExist "DataDictionary")
  | some form =>
      if form.deletedAt = none then .ok form else .error (.doesNotExist "DataDictionary")

/-- `create_xform_version` of a saved form. Its version has room in the row. -/
def createVersionOf (db : KmsDatabase Xls) (pk : Nat) (form : EncryptedForm Xls)
    (user : String) : Except KmsError (KmsDatabase Xls) := do
  ensure (form.version.all (·.length ≤ 100) = true) (.pythonError (.other "DataError"))
  return db.createXFormVersion {
    xform := pk
    xls := form.xls
    json := form.json
    version := form.version
    createdBy := some user
    xml := form.xml }

/-- A stored form is saved and its version is kept. -/
def republish (db : KmsDatabase Xls) (pk : Nat) (form : EncryptedForm Xls) (user : String) :
    Except KmsError (KmsDatabase Xls) :=
  createVersionOf { db with xforms := db.xforms.save pk form } pk form user

/-- A new form is made and its version is kept. -/
def publishNew (db : KmsDatabase Xls) (form : EncryptedForm Xls) (user : String) :
    Except KmsError (KmsDatabase Xls) :=
  createVersionOf { db with xforms := db.xforms.create form } db.xforms.nextPk form user

end KmsDatabase

/-- A form that is not stored yet. -/
def unsavedForm (Xls : Type) (owner : FormOwner) : EncryptedForm Xls where
  idString := ""
  smsIdString := ""
  title := ""
  json := []
  xml := ""
  owner := owner

variable (cfg : SaveSettings) (lib : PublishLibrary Xls Survey)

/-- `publish_xls_form`, of the form `pk` or of a new one with this owner. -/
def publishXlsForm (publication : Publication) (db : KmsDatabase Xls) (xls : Xls)
    (target : FormOwner ⊕ Nat) : Except KmsError (KmsDatabase Xls) :=
  match target with
  | .inr pk => do
      let form ← db.getLiveForm pk
      let form ← { form with xls := some xls }.saveDataDictionary cfg lib publication
        (some (db.versionsOf pk))
      db.republish pk form publication.publisher
  | .inl owner => do
      let form : EncryptedForm Xls := { unsavedForm Xls owner with xls := some xls }
      let form ← form.saveDataDictionary cfg lib publication none
      db.publishNew form publication.publisher

/-- The version of an XML form that replaces one: a missing version stays missing. -/
def replacementVersion (existing : List String) (xmlVersion : String) : String :=
  if xmlVersion = "" then xmlVersion else getUniqueVersion existing xmlVersion

/-- `publish_xml_form`, of the form `pk` or of a new one with this owner. -/
def publishXmlForm (publication : Publication) (db : KmsDatabase Xls) (xml fileName : String)
    (target : FormOwner ⊕ Nat) : Except KmsError (KmsDatabase Xls) := do
  let survey ← lib.surveyFromXml xml
  let xmlVersion := lib.versionInXml xml (lib.surveyIdString survey)
  match target with
  | .inr pk => do
      let form ← db.getLiveForm pk
      let newVersion := replacementVersion (db.versionsOf pk) xmlVersion
      let xml := if newVersion ≠ xmlVersion then lib.setVersionInXml xml form.idString newVersion
        else xml
      let form := { form with
        version := some newVersion
        xml := xml
        json := lib.surveyJson survey }
      let form ← form.withUuid lib publication (form.fileName lib)
      let form ← form.saveDataDictionary cfg lib publication (some (db.versionsOf pk))
      db.republish pk form publication.publisher
  | .inl owner => do
      let form : EncryptedForm Xls := { unsavedForm Xls owner with
        xml := xml
        json := lib.surveyJson survey
        version := some xmlVersion }
      let form ← form.withUuid lib publication fileName
      let form ← form.saveDataDictionary cfg lib publication none
      db.publishNew form publication.publisher

end Onadata
