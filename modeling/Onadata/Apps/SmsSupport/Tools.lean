import Onadata.Lib.ExceptList
import Onadata.Lib.TextParts

/-!
# `Onadata.Apps.SmsSupport.Tools`: forms that are filled by SMS

The survey of a form as `json_dict()` gives it, `check_form_sms_compatibility` and
`generate_instance` of `apps/sms_support/tools.py`.

`create_instance` is a parameter: `CreateOutcome` is what it returns or raises. Left out: the
markup around the texts of `check_form_sms_compatibility`, the audit log, and translations.
-/

set_option autoImplicit false

namespace Onadata

open Onadata.Lib

/-- The codes of a response. -/
inductive SmsCode
  | apiError
  | parsingError
  | submissionAccepted
  | submissionRefused
  | internalError
  deriving DecidableEq, Repr

/-- `BASE64_ALPHABET`. -/
def BASE64_ALPHABET : String :=
  "ABCDEFGHIJKLMNOPQRSTUVWXYZabcdefghijklmnopqrstuvwxyz0123456789+/="

/-- `DEFAULT_SEPARATOR`. -/
def DEFAULT_SEPARATOR : String := "+"

/-- `NA_VALUE`. -/
def NA_VALUE : String := "n/a"

/-- `META_FIELDS`. -/
def META_FIELDS : List String :=
  ["start", "end", "today", "deviceid", "subscriberid", "imei", "phonenumber"]

/-- `MEDIA_TYPES`. -/
def MEDIA_TYPES : List String := ["audio", "video", "photo"]

/-- `DEFAULT_DATE_FORMAT`. -/
def DEFAULT_DATE_FORMAT : String := "%Y-%m-%d"

/-- `DEFAULT_DATETIME_FORMAT`. -/
def DEFAULT_DATETIME_FORMAT : String := "%Y-%m-%d-%H:%M"

/-- `SENSITIVE_FIELDS`. -/
def SENSITIVE_FIELDS : List String :=
  ["text", "select all that apply", "geopoint", "barcode"]

/-- A choice of a question. -/
structure SmsChoice where
  name : String
  smsOption : String := ""
  deriving DecidableEq, Repr

/-- A question of a group. `required` is the one of its `bind`. A label that is no text, or a
missing one, is none. -/
structure SmsQuestion where
  type : Option String := none
  name : String := ""
  label : Option String := none
  constraint : String := ""
  required : String := ""
  children : Option (List SmsChoice) := none
  deriving DecidableEq, Repr

/-- An element of the first level. A missing text is empty, which is no different for the
code. -/
structure SmsGroup where
  type : Option String := none
  name : String := ""
  smsField : String := ""
  children : Option (List SmsQuestion) := none
  deriving DecidableEq, Repr

/-- `group.get("children", [{}])`. -/
def SmsGroup.fields (group : SmsGroup) : List SmsQuestion :=
  group.children.getD [{}]

/-- The survey of a form. pyxform gives no two groups the same name, nor two questions of a
group. -/
structure SmsSurvey where
  children : List SmsGroup
  smsSeparator : String := ""
  smsAllowMedia : String := ""
  smsDateFormat : String := ""
  smsDatetimeFormat : String := ""
  smsResponse : String := ""
  nodup_groups : (children.map (·.name)).Nodup
  nodup_fields : ∀ group ∈ children, (group.fields.map (·.name)).Nodup
  deriving Repr

/-- `text or default`. -/
def orDefault (text default : String) : String :=
  if text = "" then default else text

namespace SmsSurvey

/-- `separator`. -/
def separator (survey : SmsSurvey) : String :=
  orDefault survey.smsSeparator DEFAULT_SEPARATOR

/-- `allow_media`. -/
def allowMedia (survey : SmsSurvey) : Bool :=
  survey.smsAllowMedia ≠ ""

end SmsSurvey

/-- `is_last`, for a list that is not empty. -/
def isLast (index : Nat) (items : List SmsQuestion) : Bool :=
  index + 1 = items.length ∨
    ((items.getLast?.bind (·.type)) = some "note" ∧ index + 2 = items.length)

/-! ### `check_form_sms_compatibility` -/

/-- Why a form is not accepted: `check_form_sms_compatibility` returns a text or fails. -/
inductive CheckError
  | blocked (text : String)
  | typeError
  | indexError
  deriving DecidableEq, Repr

/-- The fields whose values can contain spaces. -/
def sensitiveFields (survey : SmsSurvey) : List String :=
  SENSITIVE_FIELDS ++
    (if 1 < (words (orDefault survey.smsDateFormat DEFAULT_DATE_FORMAT)).length then ["date"]
      else []) ++
    (if 1 < (words (orDefault survey.smsDatetimeFormat DEFAULT_DATETIME_FORMAT)).length then
      ["datetime"] else [])

/-- The options of a select question are all set and different. -/
def checkOptions (field : SmsQuestion) : Except CheckError Unit :=
  if field.type = some "select one" ∨ field.type = some "select all that apply" then
    match field.children with
    | none => throw .typeError
    | some choices =>
        let options := (choices.map (·.smsOption)).dedup.filter (· ≠ "")
        if choices.length ≠ options.length then
          throw (.blocked ("Not all options in the choices list for <strong>" ++ field.name ++
            "</strong> have an <em>sms_option</em> value."))
        else return ()
  else return ()

/-- The position of a group where values with spaces are allowed. -/
def lastPos (fields : List SmsQuestion) : Except CheckError Nat :=
  match fields.getLast? with
  | none => throw .indexError
  | some last =>
      if last.type = some "note" ∧ fields.length - 1 ≠ 0 then return fields.length - 2
      else return fields.length - 1

/-- The loop over the fields of a group: none but the one at the last position can contain
spaces. -/
def checkSensitive (sensitive : List String) (last : Nat) :
    (idx : Nat) → List SmsQuestion → Except CheckError Unit
  | _, [] => return ()
  | idx, field :: fields =>
      if idx ≠ last ∧ field.type.getD "" ∈ sensitive then
        throw (.blocked ("Questions for which values can contain spaces are only allowed on last " ++
          "position of group (" ++ field.name ++ ")"))
      else checkSensitive sensitive last (idx + 1) fields

/-- The warnings of a form that is accepted. -/
def smsWarnings (survey : SmsSurvey) : List String :=
  let hasType := fun type : String =>
    survey.children.any fun group => group.fields.any fun field => field.type = some type
  let sensitive := sensitiveFields survey
  (if survey.smsSeparator = "" then
      ["<li>You have not set a separator. Default '+' separator will be used.</li>"] else []) ++
    (if survey.smsDateFormat = "" ∧ hasType "date" then
      ["<li>You have 'date' fields without explicitly setting a date format. Default (" ++
        DEFAULT_DATE_FORMAT ++ ") will be used.</li>"] else []) ++
    (if survey.smsDateFormat = "" ∧ hasType "datetime" then
      ["<li>You have 'datetime' fields without explicitly setting a datetime format. Default (" ++
        DEFAULT_DATETIME_FORMAT ++ ") will be used.</li>"] else []) ++
    (if "date" ∈ sensitive then
      ["<li>'sms_date_format' contains space which will require 'date' questions to be " ++
        "positioned at the end of groups (" ++
        orDefault survey.smsDateFormat DEFAULT_DATE_FORMAT ++ ").</li>"] else []) ++
    (if "datetime" ∈ sensitive then
      ["<li>'sms_datetime_format' contains space which will require 'datetime' questions to be " ++
        "positioned at the end of groups (" ++
        orDefault survey.smsDatetimeFormat DEFAULT_DATETIME_FORMAT ++ ").</li>"] else [])

/-- `check_form_sms_compatibility`: the warnings of a form that it accepts. -/
def checkFormSmsCompatibility (survey : SmsSurvey) : Except CheckError (List String) := do
  let groups := survey.children
  if groups.any fun group => group.type ≠ some "group" then
    throw (.blocked "All your questions must be in groups.")
  match (groups.filter fun group => group.smsField = "" ∧ group.name ≠ "meta").getLast? with
  | some group =>
      throw (.blocked ("All your groups must have an 'sms_field' (use 'meta' prefixed ones for " ++
        "non-fillable groups). " ++ group.name))
  | none => pure ()
  groups.forM fun group => group.fields.forM checkOptions
  groups.forM fun group => do
    let last ← lastPos group.fields
    checkSensitive (sensitiveFields survey) last 0 group.fields
  if survey.allowMedia ∧ survey.separator.toList <:+: BASE64_ALPHABET.toList then
    throw (.blocked ("When allowing medias ('sms_allow_media'), your separator (" ++
      survey.separator ++ ") must be outside Base64 alphabet (letters, digits and +/=). " ++
      "You case use '#' instead."))
  return smsWarnings survey

/-! ### `generate_instance` -/

/-- What `create_instance` returns, or the class of the exception that it raises. -/
inductive CreateOutcome
  | created (uuid : String)
  | nothing
  | instanceInvalidUserError
  | instanceEmptyError
  | formInactiveError
  | doesNotExist
  | expatError
  | duplicateInstance
  | other (exception : String)
  deriving DecidableEq, Repr

/-- A response to an SMS. -/
structure SmsResponse where
  code : SmsCode
  text : String
  id : Option String := none
  sendouts : Option (List (Option String)) := none
  deriving DecidableEq, Repr

/-- `generate_instance`, on what `create_instance` does. Another exception escapes. -/
def generateInstance : CreateOutcome → Except String SmsResponse
  | .created uuid =>
      return { code := .submissionAccepted
               text := "[SUCCESS] Your submission has been accepted."
               id := some (takeStart uuid 8) }
  | .nothing => return { code := .internalError, text := "Unable to create submission." }
  | .instanceInvalidUserError =>
      return { code := .submissionRefused, text := "Username or ID required." }
  | .instanceEmptyError =>
      return { code := .internalError
               text := "Received empty submission. No instance was created" }
  | .formInactiveError => return { code := .submissionRefused, text := "Form is not active" }
  | .doesNotExist =>
      return { code := .submissionRefused, text := "Form does not exist on this account" }
  | .expatError => return { code := .internalError, text := "Improperly formatted XML." }
  | .duplicateInstance => return { code := .submissionRefused, text := "Duplicate submission" }
  | .other exception => throw exception

end Onadata
