import Onadata.Libs.Utils.LoggerTools

/-!
# `Onadata.Libs.Utils.CsvImport`: importing a CSV file

`submit_csv` of `libs/utils/csv_import.py` on one form. The rows are submitted one by one,
each in its own transaction, and the import keeps the list of the uuids to roll back.

A `CsvLine` is what the reader gives: a row, or an exception. A `CsvRow` has what the code
reads of the row before it writes the XML, and the outcomes of the calls that do not
touch the submissions. The answers in a row are `content`, which goes into the XML as it
is.

`CsvImport.results` is not kept by the code. It records what `create_instance` answered for
each row, so that the edited submissions can be named.
-/

set_option autoImplicit false

namespace Onadata

/-- `text.replace("uuid:", "")`. -/
def removeUuidPrefix (text : String) : String :=
  String.ofList (go text.toList)
where
  go : List Char → List Char
    | 'u' :: 'u' :: 'i' :: 'd' :: ':' :: rest => go rest
    | c :: rest => c :: go rest
    | [] => []

/-- The ids that `submit_csv` writes into the meta group. -/
structure SubmissionMeta where
  instanceID : String
  deprecatedID : Option String := none
  deriving DecidableEq, Repr

/-- A row of the CSV file.

- `error`: `validate_row` reports an error;
- `preparable`: the row can be turned into a nested dict;
- `metaInstanceID`, `deprecatedID`, `uuid`: `meta/instanceID`, `meta/deprecatedID` and
  `_uuid`;
- `generatedUuid`: the value of `uuid.uuid4()`;
- `serverUuid`: the uuid that the model generates for a submission without one;
- `refused`: `safe_create_instance` gives an error before it looks at the submissions, or
  raises `ValueError`;
- `mayEdit`: the user may edit submissions;
- `followUpRaises`: storing the import metadata or the submitter raises. -/
structure CsvRow (Content : Type) where
  content : Content
  generatedUuid : String
  serverUuid : String := ""
  error : Bool := false
  preparable : Bool := true
  metaInstanceID : Option String := none
  deprecatedID : Option String := none
  uuid : Option String := none
  refused : Bool := false
  mayEdit : Bool := true
  followUpRaises : Bool := false
  deriving DecidableEq, Repr

/-- What the CSV reader gives: a row, `UnicodeDecodeError`, or another exception. -/
inductive CsvLine (Content : Type)
  | row (row : CsvRow Content)
  | undecodable
  | unreadable
  deriving DecidableEq, Repr

/-- The result of `submit_csv`: the status `FAILED`, the summary of the import, or an
exception that leaves the function. -/
inductive CsvResult
  | failed
  | summary (additions : Int) (duplicates updates : Nat)
  | raised
  deriving DecidableEq, Repr

/-- The state of the import. `invalid` says that `errors` is not empty. -/
structure CsvImport (Xml : Type) where
  store : FormStore Xml
  rollbackUuids : List String := []
  invalid : Bool := false
  additions : Nat := 0
  duplicates : Nat := 0
  inserts : Nat := 0
  results : List SubmissionResult := []
  deriving DecidableEq, Repr

/-- The settings of the import, and `dict2xmlsubmission`, which is `none` when it raises. -/
structure CsvImportEnv (Content Xml : Type) where
  resolution : EditConflictResolution := .reject
  dict2xmlsubmission : Content → SubmissionMeta → Option Xml

variable {Content Xml : Type} [SubmissionXml Xml]

section
omit [SubmissionXml Xml]

/-- `Instance.objects.filter(uuid__in=uuids, xform=xform).delete()`. The history rows of a
deleted instance go with it. -/
def FormStore.deleteByUuid (store : FormStore Xml) (uuids : List String) : FormStore Xml :=
  let kept := store.instances.filter fun i => i.uuid ∉ uuids
  { store with
      instances := kept
      histories := store.histories.filter fun h => kept.any fun i => i.pk = h.xformInstance }

/-- The submissions that are not deleted yet, deleted at `now`. -/
def softDelete (now : Int) (i : Instance Xml) : Instance Xml :=
  if i.deletedAt = none then { i with deletedAt := some now } else i

/-- The roll-back of an import. -/
def CsvImport.rollback (state : CsvImport Xml) : CsvImport Xml :=
  { state with store := state.store.deleteByUuid state.rollbackUuids }

/-- `get_submission_meta_dict`. -/
def getSubmissionMetaDict (store : FormStore Xml) (instanceId : Option String)
    (generatedUuid : String) : SubmissionMeta × Nat :=
  match instanceId.filter (· ≠ "") with
  | none => ({ instanceID := "uuid:" ++ generatedUuid }, 0)
  | some instanceId =>
      if store.instances.any fun i => i.uuid = removeUuidPrefix instanceId then
        ({ instanceID := "uuid:" ++ generatedUuid, deprecatedID := some instanceId }, 1)
      else ({ instanceID := instanceId }, 0)

end

/-- The `row_uuid` of a row. -/
def rowUuid (row : CsvRow Content) (overwrite : Bool) : Option String :=
  match row.uuid.filter (· ≠ "") with
  | some uuid =>
      if overwrite then none else (row.metaInstanceID.filter (· ≠ "")).getD ("uuid:" ++ uuid)
  | none => none

/-- One row that passed the validation. An early return is an `.error`. -/
def submitRow (env : CsvImportEnv Content Xml) (overwrite : Bool) (state : CsvImport Xml)
    (row : CsvRow Content) : Except (CsvResult × CsvImport Xml) (CsvImport Xml) :=
  let (newMeta, update) :=
    getSubmissionMetaDict state.store (rowUuid row overwrite) row.generatedUuid
  let submissionMeta : SubmissionMeta :=
    { newMeta with deprecatedID := newMeta.deprecatedID <|> row.deprecatedID }
  let state : CsvImport Xml := { state with
    inserts := state.inserts + update
    rollbackUuids := state.rollbackUuids ++ [removeUuidPrefix submissionMeta.instanceID] }
  match env.dict2xmlsubmission row.content submissionMeta with
  | none => .error (.failed, state.rollback)
  | some xml =>
      if row.refused then .error (.failed, state.rollback)
      else
        match createInstance env.resolution state.store ⟨xml, row.mayEdit, row.serverUuid⟩ with
        | .error _ => .error (.failed, state.rollback)
        | .ok (store, .duplicate) =>
            .ok { state with
              store := store
              duplicates := state.duplicates + 1
              results := state.results ++ [.duplicate] }
        | .ok (store, result) =>
            let state : CsvImport Xml := { state with
              store := store
              additions := state.additions + 1
              results := state.results ++ [result] }
            if row.followUpRaises then .error (.failed, state.rollback) else .ok state

/-- One round of the loop over the lines. After the first invalid row, the rows are only
validated. -/
def importLine (env : CsvImportEnv Content Xml) (overwrite : Bool) (state : CsvImport Xml)
    (line : CsvLine Content) : Except (CsvResult × CsvImport Xml) (CsvImport Xml) :=
  match line with
  | .undecodable => .error (.failed, state.rollback)
  | .unreadable => .error (.raised, state)
  | .row row =>
      if state.invalid || row.error then .ok { state with invalid := true }
      else if !row.preparable then .error (.raised, state)
      else submitRow env overwrite state row

/-- The state before the loop. With `overwrite`, all submissions are deleted first. -/
def startImport (store : FormStore Xml) (overwrite : Bool) (now : Int) : CsvImport Xml :=
  { store :=
      if overwrite then { store with instances := store.instances.map (softDelete now) }
      else store }

/-- `submit_csv`, at the time `now`. `valid` is the result of `validate_csv_file`. -/
def submitCsv (env : CsvImportEnv Content Xml) (store : FormStore Xml) (valid : Bool)
    (lines : List (CsvLine Content)) (overwrite : Bool) (now : Int) :
    CsvResult × CsvImport Xml :=
  if !valid then (.failed, { store := store })
  else
    match lines.foldlM (importLine env overwrite) (startImport store overwrite now) with
    | .error stopped => stopped
    | .ok state =>
        if state.invalid then (.failed, state.rollback)
        else (.summary ((state.additions : Int) - state.inserts) state.duplicates state.inserts, state)

end Onadata
