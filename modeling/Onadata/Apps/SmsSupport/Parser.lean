import Onadata.Apps.SmsSupport.Tools
import Onadata.Lib.ObjectsGet
import Onadata.Lib.PyDict

/-!
# `Onadata.Apps.SmsSupport.Parser`: SMSes are parsed and submitted

`parse_sms_text` and `process_incoming_smses` of `apps/sms_support/parser.py`.

`SmsRuntime` are the functions of Python's library that turn texts into values and back: any
functions, with the texts of their exceptions. `SmsBackend` is what is behind the submission:
`dict2xform`, and `create_instance` on the database.
-/

set_option autoImplicit false

namespace Onadata

open Onadata.Lib

/-- A value of an answer. A float is its `repr`, a date or a time its ISO text. -/
inductive SmsValue
  | str (text : String)
  | int (n : Int)
  | float (repr : String)
  | date (iso : String)
  | datetime (iso : String)
  deriving DecidableEq, Repr

/-- `bool(value)`. -/
def SmsValue.truthy : SmsValue → Bool
  | .str text => text ≠ ""
  | .int n => n ≠ 0
  | .float repr => repr ∉ ["0.0", "-0.0"]
  | .date _ => true
  | .datetime _ => true

/-- An exception. `valueError` stands for `ValueError` and the classes below it, with its text;
`SMSCastingError` is one. -/
inductive SmsError
  | valueError (text : String)
  | indexError
  | typeError
  | keyError
  | attributeError
  | doesNotExist
  | multipleObjectsReturned
  | other (exception : String)
  deriving DecidableEq, Repr

/-- The library functions. An error is the text of the exception, that of `b64decode` its
`repr`; `format` raises. -/
structure SmsRuntime where
  int : String → Except String Int
  float : String → Except String String
  strptime : String → String → Except String String
  dateOf : String → String
  b64decode : String → Except String String
  lower : String → String
  format : String → List (String × SmsValue) → Except SmsError String

/-- `SMSCastingError(message, question)`. -/
def smsCastingError (message question : String) : SmsError :=
  .valueError (if question = "" then message else question ++ ": " ++ message)

/-- `safe_wrap`. -/
def safeWrap {α : Type} (question : String) (value : Except String α) : Except SmsError α :=
  match value with
  | .ok value => return value
  | .error error => throw (smsCastingError error question)

/-- The text of the exception of an assignment to two names. -/
def notEnoughValues (got : Nat) : String :=
  "not enough values to unpack (expected 2, got " ++ toString got ++ ")"

/-- The formats of dates and times. Both are read from `sms_date_format`. -/
def xlsfDateFmt (survey : SmsSurvey) : String :=
  orDefault survey.smsDateFormat DEFAULT_DATE_FORMAT

def xlsfDatetimeFmt (survey : SmsSurvey) : String :=
  orDefault survey.smsDateFormat DEFAULT_DATETIME_FORMAT

/-- `media_value`: the name of the file, and the file. -/
def mediaValue (rt : SmsRuntime) (value question : String) :
    Except SmsError (SmsValue × List (String × String)) :=
  match splitText ";" value with
  | filename :: part :: parts =>
      match rt.b64decode (";".intercalate (part :: parts)) with
      | .ok content => return (.str filename, [(filename, content)])
      | .error error =>
          throw (smsCastingError ("Media file format incorrect. " ++ error) question)
  | parts => throw (.valueError (notEnoughValues parts.length))

/-- The test of a geopoint. The bounds of latitude and longitude are compared in a way that no
value fails, so that only the numbers themselves are tested, and no count above two is. -/
def checkGeopoint (rt : SmsRuntime) (geodata : List String) : Except String Unit :=
  match geodata with
  | lat :: lon :: rest => do
      let _ ← rt.float lat
      let _ ← rt.float lon
      match rest with
      | [altitude] => do
          let _ ← rt.int altitude
          return ()
      | [altitude, accuracy] => do
          let _ ← rt.int altitude
          let _ ← rt.int accuracy
          return ()
      | _ => return ()
  | [lat] => do
      let _ ← rt.float lat
      throw (notEnoughValues 1)
  | [] => throw (notEnoughValues 0)

/-- `cast_sms_value`: the value and the media it brings. -/
def castSmsValue (rt : SmsRuntime) (survey : SmsSurvey) (value : String) (question : SmsQuestion) :
    Except SmsError (SmsValue × List (String × String)) := do
  let name := question.name
  if (question.required.toLower = "yes" ∨ question.required.toLower = "true") ∧ value = "" then
    throw (smsCastingError "Required field missing" name)
  match question.type with
  | some "text" => return (.str value, [])
  | some "integer" => do
      let n ← safeWrap name (rt.int value)
      return (.int n, [])
  | some "decimal" => do
      let x ← safeWrap name (rt.float value)
      return (.float x, [])
  | some "select one" =>
      match question.children with
      | none => throw .typeError
      | some choices =>
          match choices.find? fun choice => choice.smsOption = value with
          | some choice => return (.str choice.name, [])
          | none => throw (smsCastingError ("No matching choice for '" ++ value ++ "'") name)
  | some "select all that apply" =>
      match question.children with
      | none => if words value = [] then return (.str "", []) else throw .typeError
      | some choices =>
          let names := (words value).flatMap fun option =>
            (choices.filter fun choice => choice.smsOption = option).map (·.name)
          return (.str (joinWords names), [])
  | some "geopoint" => do
      safeWrap name (checkGeopoint rt (words value))
      return (.str (joinWords (words value)), [])
  | some "barcode" => return (.str value, [])
  | some "date" => do
      let time ← safeWrap name (rt.strptime value (xlsfDateFmt survey))
      return (.date (rt.dateOf time), [])
  | some "datetime" => do
      let time ← safeWrap name (rt.strptime value (xlsfDatetimeFmt survey))
      return (.datetime time, [])
  | some "note" => return (.str "", [])
  | type =>
      if type.getD "" ∈ MEDIA_TYPES then mediaValue rt value name
      else throw (smsCastingError ("Unsuported column '" ++ type.getD "None" ++ "'") name)

/-- The sender and the time of a message. -/
structure SmsContext where
  identity : String
  now : String
  today : String

/-- `get_meta_value`. -/
def getMetaValue (context : SmsContext) (type : String) : String :=
  if type ∈ ["deviceid", "subscriberid", "imei"] then NA_VALUE
  else if type ∈ ["start", "end"] then context.now
  else if type = "today" then context.today
  else if type = "phonenumber" then context.identity
  else NA_VALUE

/-- The values of the groups. -/
abbrev SmsAnswers := List (String × List (String × SmsValue))

/-- What `parse_sms_text` returns. -/
structure SmsParsed where
  answers : SmsAnswers := []
  medias : List (String × String) := []
  notes : List (Option String) := []
  deriving DecidableEq, Repr

/-- The text for a question that the user answers: `answers` is none when the group is not in
the message. -/
def userAnswer (answers : Option (List String)) (egroups : List SmsQuestion)
    (idx stepBack : Nat) : Except SmsError String :=
  match answers with
  | none => throw .typeError
  | some answers =>
      if isLast idx egroups then return joinWords (answers.drop idx)
      else
        match answers[idx - stepBack]? with
        | some answer => return answer
        | none => throw .indexError

/-- The loop over the questions of a group: the values of the group, the media and the notes.
Of the questions that are skipped only the media count for `stepBack`. -/
def parseQuestions (rt : SmsRuntime) (survey : SmsSurvey) (context : SmsContext)
    (answers : Option (List String)) (egroups : List SmsQuestion) :
    (idx stepBack : Nat) → List SmsQuestion →
      List (String × SmsValue) × List (String × String) × List (Option String) →
      Except SmsError (List (String × SmsValue) × List (String × String) × List (Option String))
  | _, _, [], parsed => return parsed
  | idx, stepBack, question :: rest, (values, medias, notes) =>
      if question.type = some "calculate" then
        parseQuestions rt survey context answers egroups (idx + 1) stepBack rest
          (values, medias, notes)
      else if question.type = some "note" then
        parseQuestions rt survey context answers egroups (idx + 1) stepBack rest
          (values, medias, if question.constraint = "" then notes ++ [question.label] else notes)
      else if !survey.allowMedia ∧ question.type.getD "" ∈ MEDIA_TYPES then
        parseQuestions rt survey context answers egroups (idx + 1) (stepBack + 1) rest
          (values, medias, notes)
      else if question.type.getD "" ∈ META_FIELDS then
        let value := SmsValue.str (getMetaValue context (question.type.getD ""))
        parseQuestions rt survey context answers egroups (idx + 1) stepBack rest
          (Dict.insert values question.name value, medias, notes)
      else do
        let answer ← userAnswer answers egroups idx stepBack
        let (value, media) ← castSmsValue rt survey answer question
        parseQuestions rt survey context answers egroups (idx + 1) stepBack rest
          (Dict.insert values question.name value, medias ++ media, notes)

/-- One piece of the message: the group's `sms_field` and the words behind it. -/
def parsePiece (piece : String) : Except SmsError (String × List String) :=
  match words piece with
  | groupId :: first :: rest => return (groupId, first :: rest)
  | short => throw (.valueError (notEnoughValues short.length))

/-- `groups`: the words for each `sms_field`. -/
def smsGroups (separator smsText : String) : Except SmsError (List (String × List String)) := do
  let pieces ← (splitText separator smsText).tail.mapM parsePiece
  return Dict.update [] pieces

/-- One round of the loop over the groups of the survey. -/
def parseGroup (rt : SmsRuntime) (survey : SmsSurvey) (context : SmsContext)
    (groups : List (String × List String)) (parsed : SmsParsed) (group : SmsGroup) :
    Except SmsError SmsParsed :=
  if group.type ≠ some "group" then return parsed
  else
    let answers := Dict.get? groups group.smsField
    if group.smsField = "" ∨ (answers.getD [] = [] ∧ !startsWith group.smsField "meta") then
      return parsed
    else do
      let (values, medias, notes) ← parseQuestions rt survey context answers group.fields 0 0
        group.fields ([], parsed.medias, parsed.notes)
      return { answers := Dict.insert parsed.answers group.name values, medias, notes }

/-- `parse_sms_text`. -/
def parseSmsText (rt : SmsRuntime) (survey : SmsSurvey) (context : SmsContext)
    (smsText : String) : Except SmsError SmsParsed := do
  let groups ← smsGroups survey.separator smsText
  survey.children.foldlM (parseGroup rt survey context groups) {}

/-! ### `process_incoming_smses` -/

/-- A form of the user, with its row in the database. -/
structure SmsForm where
  idString : String
  smsIdString : String
  deleted : Bool := false
  allowsSms : Bool
  survey : SmsSurvey
  deriving Repr

/-- The exception of a look-up. -/
def ofGetError : GetError → SmsError
  | .doesNotExist => .doesNotExist
  | .multipleObjectsReturned => .multipleObjectsReturned

/-- What the processing of a message reads: the forms of the user, the clock. -/
structure SmsSite where
  rt : SmsRuntime
  forms : List SmsForm
  now : String
  today : String

/-- A message that is parsed. -/
structure PreparedSms where
  idString : String
  medias : List (String × String)
  answers : SmsAnswers
  notes : List (Option String)
  deriving DecidableEq, Repr

/-- `data`: the values of all the groups. -/
def allValues (answers : SmsAnswers) : List (String × SmsValue) :=
  answers.foldl (fun data group => Dict.update data group.2) []

/-- The form of a message, and the text for it. Without `id_string` the message has the form's
`sms_id_string` before the text. -/
def findForm (site : SmsSite) (text : String) :
    (idString : Option String) → Except SmsError (SmsForm × String)
  | none =>
      match splitWord text with
      | none => throw (.valueError (notEnoughValues (words text).length))
      | some (keyword, text) =>
          match objectsGet site.forms fun form =>
              form.smsIdString = keyword ∧ !form.deleted with
          | .ok form => return (form, text)
          | .error error => throw (ofGetError error)
  | some idString =>
      match objectsGet site.forms fun form => form.idString = idString ∧ !form.deleted with
      | .ok form => return (form, text)
      | .error error => throw (ofGetError error)

/-- The `id_string` of a message: the one of the call, or the third item. -/
def messageIdString (idString : Option String) (rest : List String) : Option String :=
  match idString with
  | some idString => some idString
  | none => rest.head?

/-- The first part of `process_incoming`: the form and what is parsed, or a response. -/
def readIncoming (site : SmsSite) (incoming : List String) (idString : Option String) :
    Except SmsError (SmsResponse ⊕ SmsForm × SmsParsed) :=
  match incoming with
  | identity :: text :: rest =>
      let identity := site.rt.lower (strip identity)
      let text := site.rt.lower (strip text)
      if strip identity = "" ∨ strip text = "" then
        return .inl { code := .apiError
                      text := "'identity' and 'text' fields can not be empty." }
      else do
        let (xform, text) ← findForm site text (messageIdString idString rest)
        if !xform.allowsSms then
          return .inl { code := .submissionRefused
                        text := "The form '" ++ xform.idString ++
                          "' does not accept SMS submissions." }
        else do
          let parsed ← parseSmsText site.rt xform.survey ⟨identity, site.now, site.today⟩ text
          return .inr (xform, parsed)
  | _ => return .inl { code := .apiError, text := "Missing 'identity' or 'text' field." }

/-- `required_fields`. -/
def requiredFields (survey : SmsSurvey) : List String :=
  ((survey.children.flatMap fun group => group.children.getD []).filter fun field =>
    field.required = "yes").map (·.name)

/-- `text.replace("${", "{").format(**data)`. -/
def formatText (rt : SmsRuntime) (text : String) (data : List (String × SmsValue)) :
    Except SmsError String :=
  rt.format (replaceText "$\x7b" "\x7b" text) data

/-- One round of the loop over the notes. A note that is no text has no `replace`. -/
def computeNote (rt : SmsRuntime) (data : List (String × SmsValue)) (note : Option String) :
    Except SmsError (Option String) :=
  match note with
  | none => return none
  | some text =>
      match formatText rt text data with
      | .ok note => return some note
      | .error .attributeError => return some text
      | .error error => throw error

/-- The last part of `process_incoming`, on what is parsed. -/
def finishIncoming (rt : SmsRuntime) (xform : SmsForm) (parsed : SmsParsed) :
    Except SmsError (SmsResponse ⊕ PreparedSms) :=
  let metaGroups := parsed.answers.countP fun group => startsWith group.1 "meta"
  if parsed.answers.length ≤ metaGroups then
    return .inl { code := .parsingError
                  text := "There must be at least one group of questions filled." }
  else
    let values := allValues parsed.answers
    match (requiredFields xform.survey).find? fun field =>
        !((Dict.get? values field).map SmsValue.truthy).getD false with
    | some field =>
        return .inl { code := .submissionRefused
                      text := "Required field " ++ "\x60" ++ field ++ "\x60 is  missing." }
    | none => do
        let notes ← parsed.notes.mapM (computeNote rt values)
        return .inr ⟨xform.idString, parsed.medias, parsed.answers, notes⟩

/-- `process_incoming`: the new success text, if the form has one, and the response or what is
to be submitted. -/
def processIncoming (site : SmsSite) (incoming : List String) (idString : Option String) :
    Option String × Except SmsError (SmsResponse ⊕ PreparedSms) :=
  match readIncoming site incoming idString with
  | .error error => (none, throw error)
  | .ok (.inl response) => (none, return .inl response)
  | .ok (.inr (xform, parsed)) =>
      (if xform.survey.smsResponse = "" then none else some xform.survey.smsResponse,
        finishIncoming site.rt xform parsed)

/-- `resp_str["success"]` at the start. -/
def defaultSuccess : String :=
  "[SUCCESS] Your submission has been accepted. It's ID is \x7b\x7b id \x7d\x7d."

/-- The match of `{{\s*[i,d,I,D]{2}\s*}}` at the start: what is behind it. -/
def matchIdField (cs : List Char) : Option (List Char) :=
  match cs with
  | '\x7b' :: '\x7b' :: cs =>
      match cs.dropWhile isSpace with
      | a :: b :: cs =>
          if a ∈ ['i', ',', 'd', 'I', 'D'] ∧ b ∈ ['i', ',', 'd', 'I', 'D'] then
            match cs.dropWhile isSpace with
            | '\x7d' :: '\x7d' :: cs => some cs
            | _ => none
          else none
      | _ => none
  | _ => none

/-- `re.sub` of the pattern by the id, at most `count` times. `fuel` bounds the characters. -/
def subIdField (id : List Char) : (fuel count : Nat) → List Char → List Char
  | 0, _, cs => cs
  | _, 0, cs => cs
  | _ + 1, _ + 1, [] => []
  | fuel + 1, count + 1, c :: cs =>
      match matchIdField (c :: cs) with
      | some rest => id ++ subIdField id fuel count rest
      | none => c :: subIdField id fuel (count + 1) cs

/-- The success text of a submission. `re.I` is given as the count of `re.sub`, which is two. -/
def successText (rt : SmsRuntime) (success id : String) (answers : SmsAnswers) :
    Except SmsError String :=
  formatText rt (String.ofList (subIdField id.toList success.length 2 success.toList))
    (allValues answers)

/-- The submission: `create_instance` on the XML of `dict2xform`. -/
structure SmsBackend (Db : Type) where
  dict2xform : SmsAnswers → String → String
  createInstance : Db → String → List (String × String) → Db × CreateOutcome

/-- The responses, the success text and the messages to submit, after the first loop. -/
structure SmsBatch where
  responses : List SmsResponse := []
  success : String := defaultSuccess
  prepared : List PreparedSms := []

/-- One round of the first loop. Exceptions other than `ValueError` escape. -/
def collectIncoming (site : SmsSite) (idString : Option String) (batch : SmsBatch)
    (incoming : List String) : Except SmsError SmsBatch :=
  let (success, result) := processIncoming site incoming idString
  let batch := { batch with success := success.getD batch.success }
  match result with
  | .error (.valueError text) =>
      return { batch with responses := batch.responses ++ [{ code := .parsingError, text := text }] }
  | .error error => throw error
  | .ok (.inl response) => return { batch with responses := batch.responses ++ [response] }
  | .ok (.inr prepared) => return { batch with prepared := batch.prepared ++ [prepared] }

section Submit
variable {Db : Type}

/-- `create_instance` for a parsed message. -/
def SmsBackend.create (backend : SmsBackend Db) (db : Db) (prepared : PreparedSms) :
    Db × CreateOutcome :=
  backend.createInstance db (backend.dict2xform prepared.answers prepared.idString)
    prepared.medias

/-- The response to a parsed message. -/
def submitOne (site : SmsSite) (backend : SmsBackend Db) (success : String) (db : Db)
    (prepared : PreparedSms) : Except SmsError (Db × SmsResponse) :=
  match generateInstance (backend.create db prepared).2 with
  | .error exception => throw (.other exception)
  | .ok response =>
      match response.id with
      | none => return ((backend.create db prepared).1, response)
      | some id => do
          let text ← successText site.rt success id prepared.answers
          return ((backend.create db prepared).1,
            { response with text := text, sendouts := some prepared.notes })

/-- One round of the second loop. -/
def submitPrepared (site : SmsSite) (backend : SmsBackend Db) (success : String)
    (state : Db × List SmsResponse) (prepared : PreparedSms) :
    Except SmsError (Db × List SmsResponse) := do
  let (db, response) ← submitOne site backend success state.1 prepared
  return (db, state.2 ++ [response])

/-- `process_incoming_smses`: the database and the responses. -/
def processIncomingSmses (site : SmsSite) (backend : SmsBackend Db) (db : Db)
    (incomings : List (List String)) (idString : Option String) :
    Except SmsError (Db × List SmsResponse) := do
  let batch ← incomings.foldlM (collectIncoming site idString) {}
  batch.prepared.foldlM (submitPrepared site backend batch.success) (db, batch.responses)

end Submit

end Onadata
