import Onadata.Lib.PositionalParams
import Onadata.Lib.PyValue

/-!
# `Onadata.Apps.Viewer.ParsedInstanceTools`: a query as SQL conditions

`apps/viewer/parsed_instance_tools.py` turns a user's query into WHERE fragments and their
parameters. A fragment is a `WhereSql`, with `render` for its text. A parameter is the
Python value that is handed to the driver.

A query is a Python value: the text of a request, or the dict or list that a caller made
of it.
-/

set_option autoImplicit false

namespace Onadata

open Onadata.Lib

/-! ### Fragments -/

/-- The left side of a comparison. -/
inductive SqlLhs
  | column (name : String)
  | json
  | jsonAs (sqlType : String)
  deriving DecidableEq, Repr

/-- The comparison operators. -/
inductive SqlOp
  | eq
  | gt
  | gte
  | lt
  | lte
  | matchesRegex
  deriving DecidableEq, Repr

/-- The conditions without `AND` and `OR`. The last five are those that `build_sql_where`
adds; `empty` is the text between two `AND`s when there is no condition. -/
inductive SqlAtom
  | compare (lhs : SqlLhs) (op : SqlOp)
  | isNull (lhs : SqlLhs)
  | jsonTextMatches
  | xformIdIn
  | notPendingDecryption
  | idNotIn (count : Nat)
  | empty
  deriving DecidableEq, Repr

/-- A condition inside an `$or` fragment. -/
inductive OrClause
  | atom (a : SqlAtom)
  | all (atoms : List SqlAtom)
  deriving DecidableEq, Repr

/-- A WHERE fragment. -/
inductive WhereSql
  | atom (a : SqlAtom)
  | any (clauses : List OrClause)
  deriving DecidableEq, Repr

/-- A parameter: a Python value, or the tuple of the form ids. -/
inductive SqlParam
  | value (v : PyValue)
  | tuple (ids : List Int)
  deriving Repr

namespace SqlLhs

/-- The text of the left side. -/
def render : SqlLhs → String
  | .column name => "logger_instance." ++ name
  | .json => "logger_instance.json->>%s"
  | .jsonAs sqlType => "CAST(logger_instance.json->>%s AS " ++ sqlType ++ ")"

/-- The placeholders of the text. -/
def arity : SqlLhs → Nat
  | .column _ => 0
  | .json | .jsonAs _ => 1

end SqlLhs

/-- The text of the operator. -/
def SqlOp.render : SqlOp → String
  | .eq => "="
  | .gt => ">"
  | .gte => ">="
  | .lt => "<"
  | .lte => "<="
  | .matchesRegex => "~*"

namespace SqlAtom

/-- The text of the condition. -/
def render : SqlAtom → String
  | .compare lhs op => " ".intercalate [lhs.render, op.render, "%s"]
  | .isNull lhs => lhs.render ++ " IS NULL"
  | .jsonTextMatches => "logger_instance.json::text ~* cast(%s as text)"
  | .xformIdIn => "logger_instance.xform_id in %s"
  | .notPendingDecryption =>
      "NOT (logger_instance.is_encrypted = TRUE AND logger_xform.is_managed = TRUE)"
  | .idNotIn count =>
      "logger_instance.id NOT IN (" ++ ", ".intercalate (List.replicate count "%s") ++ ")"
  | .empty => ""

/-- The placeholders of the text. -/
def arity : SqlAtom → Nat
  | .compare lhs _ => lhs.arity + 1
  | .isNull lhs => lhs.arity
  | .jsonTextMatches => 1
  | .xformIdIn => 1
  | .notPendingDecryption => 0
  | .idNotIn count => count
  | .empty => 0

end SqlAtom

namespace OrClause

/-- The text of the condition. -/
def render : OrClause → String
  | .atom a => a.render
  | .all atoms => "(" ++ " AND ".intercalate (atoms.map SqlAtom.render) ++ ")"

/-- The placeholders of the text. -/
def arity : OrClause → Nat
  | .atom a => a.arity
  | .all atoms => Clauses.placeholders SqlAtom.arity atoms

end OrClause

namespace WhereSql

/-- The text of the fragment. -/
def render : WhereSql → String
  | .atom a => a.render
  | .any clauses => "(" ++ " OR ".intercalate (clauses.map OrClause.render) ++ ")"

/-- The placeholders of the text. -/
def arity : WhereSql → Nat
  | .atom a => a.arity
  | .any clauses => Clauses.placeholders OrClause.arity clauses

end WhereSql

/-- A string parameter. -/
def SqlParam.str (s : String) : SqlParam :=
  .value (.str s)

/-! ### `get_where_clause` -/

/-- `KNOWN_DATES`. -/
def knownDates : List String := ["_submission_time", "_last_edited", "_date_modified"]

/-- `KNOWN_DATE_FORMATS`. -/
def knownDateFormats : List String :=
  ["%Y-%m-%d", "%Y-%m-%dT%H:%M:%S", "%Y-%m-%dT%H:%M:%S%z", "%Y-%m-%dT%H:%M:%S.%f%z"]

/-- `NONE_JSON_FIELDS`: the column of a field that is not read from the JSON. -/
def noneJsonFields : String → Option String
  | "_submission_time" => some "date_created"
  | "_date_modified" => some "date_modified"
  | "_id" => some "id"
  | "_version" => some "version"
  | "_last_edited" => some "last_edited"
  | _ => none

/-- `OPERANDS`. -/
def operands : String → Option SqlOp
  | "$gt" => some .gt
  | "$gte" => some .gte
  | "$lt" => some .lt
  | "$lte" => some .lte
  | "$i" => some .matchesRegex
  | _ => none

/-- `_json_sql_str` with `KNOWN_DATES`. -/
def jsonSqlStr (key : String) (knownIntegers knownDecimals : List String) : SqlLhs :=
  if key ∈ knownIntegers then .jsonAs "INT"
  else if key ∈ knownDates then .jsonAs "TIMESTAMP"
  else if key ∈ knownDecimals then .jsonAs "DECIMAL"
  else .json

/-- The text of the value of an operator: a field of `KNOWN_DATES` takes a date in one of
the `KNOWN_DATE_FORMATS`. -/
def operatorText (py : PyRuntime) (fieldKey : String) (value : PyValue) :
    Except PyError String :=
  if fieldKey ∈ knownDates then
    match value with
    | .str rawDate =>
        match py.strptime knownDateFormats rawDate with
        | some date => return date
        | none => throw (.other "InavlidDateFormat")
    | _ => throw .typeError
  else return py.text value

/-- One operator of a field in `_parse_where`. An operator outside `OPERANDS` has no
condition, but its parameters are added all the same. -/
def parseOperator (py : PyRuntime) (knownIntegers knownDecimals : List String)
    (fieldKey : String) (item : String × PyValue) : Except PyError (Clauses SqlAtom SqlParam) := do
  let (key, value) := item
  let text ← operatorText py fieldKey value
  let condition (lhs : SqlLhs) : List SqlAtom := ((operands key).map fun op => .compare lhs op).toList
  match noneJsonFields fieldKey with
  | some column => return ⟨condition (.column column), [.str text]⟩
  | none =>
      return ⟨condition (jsonSqlStr fieldKey knownIntegers knownDecimals),
        [.str fieldKey, .str text]⟩

/-- One field of a query in `_parse_where`. -/
def parseField (py : PyRuntime) (knownIntegers knownDecimals : List String)
    (field : String × PyValue) : Except PyError (Clauses SqlAtom SqlParam) :=
  let (fieldKey, fieldValue) := field
  match fieldValue with
  | .dict operators => do
      let parts ← operators.mapM (parseOperator py knownIntegers knownDecimals fieldKey)
      return .concat parts
  | _ =>
      match noneJsonFields fieldKey, fieldValue with
      | some column, _ =>
          return ⟨[.compare (.column column) .eq], [.str (py.text fieldValue)]⟩
      | none, .none => return ⟨[.isNull .json], [.str fieldKey]⟩
      | none, _ => return ⟨[.compare .json .eq], [.str fieldKey, .str (py.text fieldValue)]⟩

/-- `_parse_where` without the `$or` part. -/
def parseWhere (py : PyRuntime) (knownIntegers knownDecimals : List String)
    (query : PyValue) : Except PyError (Clauses SqlAtom SqlParam) :=
  match query with
  | .dict fields => do
      let parts ← fields.mapM (parseField py knownIntegers knownDecimals)
      return .concat parts
  | _ => throw .attributeError

/-- One key of an `$or` clause. A key of `NONE_JSON_FIELDS` adds the whole clause. -/
def parseOrItem (py : PyRuntime) (knownIntegers knownDecimals : List String)
    (orQuery : List (String × PyValue)) (item : String × PyValue) :
    Except PyError (Clauses OrClause SqlParam) :=
  let (key, value) := item
  match noneJsonFields key, value with
  | some _, _ => do
      let clauses ← parseWhere py knownIntegers knownDecimals (.dict orQuery)
      return ⟨[.all clauses.conditions], clauses.params⟩
  | none, .none => return ⟨[.atom (.isNull .json)], [.str key]⟩
  | none, .list items =>
      return .concat (items.map fun item =>
        ⟨[.atom (.compare .json .eq)], [.str key, .value item]⟩)
  | none, _ => return ⟨[.atom (.compare .json .eq)], [.str key, .value value]⟩

/-- One clause of an `$or` list. -/
def parseOrQuery (py : PyRuntime) (knownIntegers knownDecimals : List String)
    (orQuery : PyValue) : Except PyError (Clauses OrClause SqlParam) :=
  match orQuery with
  | .dict items => do
      let parts ← items.mapM (parseOrItem py knownIntegers knownDecimals items)
      return .concat parts
  | _ => throw .attributeError

/-- The values that a `for` loop over a JSON value visits. -/
def iterate : PyValue → Except PyError (List PyValue)
  | .list items => return items
  | .dict items => return items.map fun item => .str item.1
  | .str s => return s.toList.map fun c => .str c.toString
  | _ => throw .typeError

/-- The `$or` part of a query: one fragment for the value of the key, if it is there. -/
def parseOr (py : PyRuntime) (knownIntegers knownDecimals : List String)
    (orDict : Option PyValue) : Except PyError (Clauses WhereSql SqlParam) :=
  match orDict with
  | none => return {}
  | some orDict => do
      let clauses ← iterate orDict
      let parts ← clauses.mapM (parseOrQuery py knownIntegers knownDecimals)
      let or := Clauses.concat parts
      return ⟨[.any or.conditions], or.params⟩

/-- The fragments of a decoded query. -/
def parseQuery (py : PyRuntime) (knownIntegers knownDecimals : List String)
    (query : PyValue) : Except PyError (Clauses WhereSql SqlParam) :=
  match query with
  | .dict fields => do
      let or ← parseOr py knownIntegers knownDecimals (Dict.get? fields "$or")
      let clauses ← parseWhere py knownIntegers knownDecimals (.dict (Dict.erase fields "$or"))
      return (clauses.mapConditions .atom).append or
  | _ => throw .attributeError

/-- `query` after `query.pop("$or")`. -/
def popOr : PyValue → PyValue
  | .dict fields => .dict (Dict.erase fields "$or")
  | query => query

/-- The exception handler of `get_where_clause`: `query` is what the variable holds when
the exception is raised. -/
def searchAsText (query : PyValue) (error : PyError) :
    Except PyError (Clauses WhereSql SqlParam) :=
  if error ≠ .valueError ∧ error ≠ .attributeError then throw error
  else
    match query with
    | .str s =>
        if s.startsWith "\x7b" then throw error
        else return ⟨[.atom .jsonTextMatches], [.str s]⟩
    | _ => return ⟨[.atom .jsonTextMatches], [.value query]⟩

/-- The fragments of a decoded query, or of the text search when it cannot be parsed. -/
def parseQueryOrSearch (py : PyRuntime) (knownIntegers knownDecimals : List String)
    (query : PyValue) : Except PyError (Clauses WhereSql SqlParam) :=
  match parseQuery py knownIntegers knownDecimals query with
  | .ok clauses => return clauses
  | .error error => searchAsText (popOr query) error

/-- `_merge_duplicate_keys`: the values of a key that occurs more than once become a
list. -/
def mergeDuplicateKeys (pairs : List (String × PyValue)) : List (String × PyValue) :=
  let merged : List (String × List PyValue) := pairs.foldl
    (fun d pair => Dict.insert d pair.1 ((Dict.get? d pair.1).getD [] ++ [pair.2])) []
  merged.map fun item =>
    match item with
    | (key, [value]) => (key, value)
    | (key, values) => (key, .list values)

/-- `get_where_clause`. -/
def getWhereClause (py : PyRuntime) (query : PyValue)
    (formIntegerFields formDecimalFields : List String) :
    Except PyError (Clauses WhereSql SqlParam) :=
  let knownIntegers := "_id" :: formIntegerFields
  if !(query.truthy && (query.isDict || query.isStr)) then return {}
  else
    let decoded := match query with
      | .str s => (py.jsonLoads s).map (RawJson.decode mergeDuplicateKeys)
      | query => .ok query
    match decoded with
    | .error error => searchAsText query error
    | .ok (.list []) => throw .indexError
    | .ok (.list (first :: _)) =>
        parseQueryOrSearch py knownIntegers formDecimalFields first
    | .ok query => parseQueryOrSearch py knownIntegers formDecimalFields query

end Onadata
