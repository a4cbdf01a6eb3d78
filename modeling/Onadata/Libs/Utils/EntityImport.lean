import Onadata.Lib.PyText
import Onadata.Lib.PyValue

/-!
# `Onadata.Libs.Utils.EntityImport`: entities from a CSV file

`import_entities_from_csv` of `libs/utils/entities_utils.py`, with the validation, `create` and
`update` of `EntitySerializer` of `libs/serializers/entity_serializer.py`. It is a generator: what
it raises ends the iteration, and the results before it stay.

The rows come from `csv.reader`. The history of the entities and the user are left out: no result
depends on them.
-/

set_option autoImplicit false

namespace Onadata

open Onadata.Lib

/-- The cells of a row, or the exception that `csv.reader` raises instead. -/
abbrev ReaderRow := Except PyError (List String)

/-- A CSV file: its header and its other rows, without the empty ones, which `csv.DictReader`
skips. -/
structure CsvFile where
  fieldnames : List String
  rows : List ReaderRow

/-- What is wrong with the data of a serializer. -/
inductive EntityFieldError
  | labelBlank
  | labelProhibited
  | dataUnknown (names : List String)
  | dataNull (names : List String)
  | dataEmpty
  | uuidExists
  deriving DecidableEq, Repr

/-- Why a row has no entity. -/
inductive ImportError
  | noProperty
  | invalid (errors : List EntityFieldError)
  | database
  deriving DecidableEq, Repr

/-- The functions of Python, the serializer fields and the database.

- `lower`: `text.lower()`;
- `parseUuid`: the canonical text of `uuid.UUID(hex=text)`, if that does not raise;
- `permitted`: the validators of `CharField` accept the text;
- `storable`: the database takes the text in a JSON column;
- `newUuid`: what `uuid.uuid4()` returns for a row;
- `errorText`: `str(exc)` of the exception. -/
structure ImportRuntime where
  lower : String → String
  parseUuid : String → Option String
  permitted : String → Bool
  storable : String → Bool
  newUuid : Nat → String
  errorText : ImportError → String

/-- An entity of the list. -/
structure StoredEntity where
  pk : Nat
  uuid : String
  deleted : Bool := false
  json : List (String × String)
  deriving DecidableEq, Repr

/-- The entities of the list. The list and the uuid are unique together. -/
structure EntityTable where
  rows : List StoredEntity
  nodup : (rows.map StoredEntity.uuid).Nodup

namespace EntityTable
variable (table : EntityTable)

/-- `Entity.objects.get` of a uuid, among the entities that are not deleted. -/
def objectsGet (uuid : String) : Option StoredEntity :=
  table.rows.find? fun entity => decide (entity.uuid = uuid) && !entity.deleted

/-- `entity_qs.exists()` in `validate_uuid`, without the instance of the serializer. -/
def isTaken (entity : Option StoredEntity) (uuid : String) : Bool :=
  table.rows.any fun other =>
    decide (other.uuid = uuid) && decide (entity.map StoredEntity.pk ≠ some other.pk)

/-- The key of a new row. -/
def nextPk : Nat :=
  (table.rows.map StoredEntity.pk).foldl max 0 + 1

/-- A new entity, unless the uuid is not unique. -/
def insertEntity (uuid : String) (json : List (String × String)) : Option EntityTable :=
  if h : uuid ∈ table.rows.map StoredEntity.uuid then none
  else
    some
      { rows := table.rows ++ [⟨table.nextPk, uuid, false, json⟩]
        nodup := by
          rw [List.map_append, List.nodup_append]
          refine ⟨table.nodup, by simp, ?_⟩
          intro other hother new hnew heq
          have hnew : new = uuid := by simpa using hnew
          exact h (hnew ▸ heq ▸ hother) }

/-- The entities with another JSON for one of them. -/
def updateJson (uuid : String) (json : List (String × String)) : EntityTable where
  rows := table.rows.map fun entity =>
    if entity.uuid = uuid then { entity with json := json } else entity
  nodup := by
    have hsame : (table.rows.map fun entity =>
        if entity.uuid = uuid then { entity with json := json } else entity).map
          StoredEntity.uuid = table.rows.map StoredEntity.uuid := by
      rw [List.map_map]
      refine List.map_congr_left fun entity _ => ?_
      show StoredEntity.uuid (if entity.uuid = uuid then _ else entity) = entity.uuid
      split_ifs <;> rfl
    rw [hsame]
    exact table.nodup

end EntityTable

/-- `data` of the serializer. -/
structure ImportData where
  label : String
  data : List (String × Option String)
  uuid : Option String
  deriving DecidableEq, Repr

section Serializer
variable (env : ImportRuntime) (properties : List String)

/-- The field `label`. -/
def validateLabel (label : String) : List EntityFieldError :=
  if strip label = "" then [.labelBlank]
  else if env.permitted label then [] else [.labelProhibited]

/-- `validate_data`. -/
def validateData (data : List (String × Option String)) : List EntityFieldError :=
  let unknown := (data.filter fun item => item.1 ∉ properties).map Prod.fst
  let nulls := (data.filter fun item => item.2 = none).map Prod.fst
  if unknown ≠ [] then [.dataUnknown unknown] else if nulls ≠ [] then [.dataNull nulls] else []

/-- `validate_uuid`, for a uuid that the field has accepted. -/
def validateUuid (table : EntityTable) (existing : Option StoredEntity) (uuid : Option String) :
    List EntityFieldError :=
  if uuid.any (table.isTaken existing) then [.uuidExists] else []

/-- `serializer.is_valid`: the errors of the fields, or those of `validate`. -/
def serializerErrors (table : EntityTable) (existing : Option StoredEntity)
    (uuid : Option String) (data : ImportData) : List EntityFieldError :=
  let errors := validateLabel env data.label ++ validateData properties data.data ++
    validateUuid table existing uuid
  if errors ≠ [] then errors
  else if existing = none ∧ data.data = [] then [.dataEmpty] else []

/-- `validated_data["data"]`, without the values that `create` and `update` drop. -/
def validatedItems (data : ImportData) : List (String × String) :=
  data.data.filterMap fun item =>
    match item.2 with
    | some value => if value = "" then none else some (item.1, value)
    | none => none

/-- The JSON of a new entity. -/
def createdJson (data : ImportData) : List (String × String) :=
  Dict.update [("label", data.label)] (validatedItems data)

/-- The JSON of an updated entity. -/
def updatedJson (entity : StoredEntity) (data : ImportData) : List (String × String) :=
  Dict.update (Dict.insert entity.json "label" data.label) (validatedItems data)

/-- The database takes what the row adds to a JSON column. -/
def storableData (data : ImportData) : Bool :=
  env.storable data.label && (validatedItems data).all fun item => env.storable item.2

/-- `serializer.save()`. -/
def saveEntity (table : EntityTable) (index : Nat) (existing : Option StoredEntity)
    (uuid : Option String) (data : ImportData) : Option EntityTable :=
  if !storableData env data then none
  else
    match existing with
    | some entity => some (table.updateJson entity.uuid (updatedJson entity data))
    | none => table.insertEntity (uuid.getD (env.newUuid index)) (createdJson data)

end Serializer

/-! ### `import_entities_from_csv` -/

/-- The status of a row. -/
inductive RowStatus
  | created
  | updated
  | error
  deriving DecidableEq, Repr

/-- `RowResult`. -/
structure RowResult where
  index : Nat
  status : RowStatus
  error : Option String := none
  deriving DecidableEq, Repr

/-- The call of `import_entities_from_csv`, without the file. `properties` are those of the
entity list. -/
structure ImportCall where
  properties : List String
  labelColumn : String := "label"
  uuidColumn : String := "uuid"
  dryRun : Bool := false

/-- What the iteration yields, what it raises, and the entities that are left. -/
structure ImportRun where
  results : List RowResult
  raised : Option PyError
  table : EntityTable

section Import
variable (env : ImportRuntime) (call : ImportCall)

/-- `header_key`. -/
def headerKey (key : String) : String :=
  let k := strip key
  if env.lower k = env.lower call.labelColumn then "label"
  else if env.lower k = env.lower call.uuidColumn then "uuid"
  else k

/-- A row of `csv.DictReader`, without the key `None` for the cells that have no name. -/
def dictRow (fieldnames cells : List String) : List (String × Option String) :=
  Dict.update (Dict.update [] ((fieldnames.zip cells).map fun cell => (cell.1, some cell.2)))
    ((fieldnames.drop cells.length).map fun name => (name, none))

/-- The properties of a row. -/
def importProperties (row : List (String × Option String)) : List (String × Option String) :=
  row.filterMap fun item =>
    if item.1 = "label" ∨ item.1 = "uuid" then none
    else if item.1 ∉ call.properties then none
    else
      let value := item.2.map strip
      if value = some "" then none else some (item.1, value)

/-- The data of a row. A cell without a name has the key `None`, which has no `strip`. -/
def importData (fieldnames : List String) (cells : ReaderRow) : Except PyError ImportData := do
  let cells ← cells
  if fieldnames.length < cells.length then throw .attributeError
  else
    let row := Dict.update [] ((dictRow fieldnames cells).map fun item =>
      (headerKey env call item.1, item.2))
    let text := fun key => strip (((Dict.get? row key).getD none).getD "")
    return {
      label := text "label"
      data := importProperties call row
      uuid := if text "uuid" = "" then none else some (text "uuid") }

/-- The uuid of a row as `Entity.objects.get` reads it. -/
def lookupUuid (data : ImportData) : Except PyError (Option String) :=
  match data.uuid with
  | none => return none
  | some text =>
      match env.parseUuid text with
      | some uuid => return some uuid
      | none => throw (.other "ValidationError")

/-- What a row whose data can be read yields. -/
def importReadRow (table : EntityTable) (index : Nat) (uuid : Option String)
    (data : ImportData) : RowResult × EntityTable :=
  let failed := fun error => (⟨index, .error, some (env.errorText error)⟩, table)
  let existing := uuid.bind table.objectsGet
  let yielded : RowResult := ⟨index, if existing = none then .created else .updated, none⟩
  if existing = none ∧ data.data = [] then failed .noProperty
  else if serializerErrors env call.properties table existing uuid data ≠ [] then
    failed (.invalid (serializerErrors env call.properties table existing uuid data))
  else if call.dryRun then (yielded, table)
  else
    match saveEntity env table index existing uuid data with
    | some table' => (yielded, table')
    | none => failed .database

/-- What a row yields, or what it raises. -/
def importRow (fieldnames : List String) (table : EntityTable) (index : Nat) (cells : ReaderRow) :
    Except PyError (RowResult × EntityTable) := do
  let data ← importData env call fieldnames cells
  let uuid ← lookupUuid env data
  return importReadRow env call table index uuid data

/-- The iteration over the rows. -/
def importRows (fieldnames : List String) (table : EntityTable) (index : Nat) :
    List ReaderRow → ImportRun
  | [] => ⟨[], none, table⟩
  | cells :: rows =>
      match importRow env call fieldnames table index cells with
      | .error e => ⟨[], some e, table⟩
      | .ok (result, table') =>
          let run := importRows fieldnames table' (index + 1) rows
          { run with results := result :: run.results }

/-- The file has the label column. -/
def CsvFile.hasLabel (file : CsvFile) : Prop :=
  env.lower call.labelColumn ∈ file.fieldnames.map fun name => env.lower (strip name)

instance (file : CsvFile) : Decidable (file.hasLabel env call) :=
  inferInstanceAs (Decidable (_ ∈ _))

/-- `import_entities_from_csv`. The first row of the file is the header. -/
def importEntitiesFromCsv (table : EntityTable) (file : CsvFile) : ImportRun :=
  if call.properties = [] ∨ ¬ file.hasLabel env call then
    ⟨[], some (.other "CSVImportError"), table⟩
  else importRows env call file.fieldnames table 2 file.rows

end Import

end Onadata
