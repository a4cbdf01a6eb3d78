import Onadata.Apps.Viewer.ParsedInstanceTools
import Onadata.Lib.PyText
import Onadata.Lib.PyValue

/-!
# `Onadata.Apps.Viewer.SortedQuery`: the ORDER BY clause of a data query

`libs/models/sorting.py`, and `_parse_sort_fields`, `_get_sort_fields`, `_has_json_fields` and the
sorting in `get_sql_with_params` of `apps/viewer/models/parsed_instance.py`. The rest of the
statement has no part in the order.

A sort string is the name of a field, with a `-` in front of it for the descending order, or a JSON
object of names and directions. A clause is a list of `OrderTerm`s, with `render` for the text of a
term.
-/

set_option autoImplicit false

namespace Onadata

open Onadata.Lib

/-- The functions of the Python library for a sort string. `intOf` is `int(value)`. -/
structure SortRuntime extends PyRuntime where
  intOf : PyValue → Except PyError Int

/-- The key of an item of the JSON object, with its sign. A value that is not a number is compared
with zero all the same: this raises, unless the value is a float without an integer. -/
def sortKey (py : SortRuntime) (item : String × PyValue) : Except PyError String :=
  match py.intOf item.2, item.2 with
  | .ok order, _ => return if order < 0 then "-" ++ item.1 else item.1
  | .error .valueError, .float _ => return item.1
  | .error .valueError, _ => throw .typeError
  | .error error, _ => throw error

/-- `sort_from_mongo_sort_str`. -/
def sortFromMongoSortStr (py : SortRuntime) (sortStr : String) : Except PyError (List String) :=
  if startsWith sortStr "\x7b" then
    match (py.jsonLoads sortStr).map (RawJson.decode lastWins) with
    | .ok (.dict items) => items.mapM (sortKey py)
    | .ok _ => throw .attributeError
    | .error error => throw error
  else return [sortStr]

/-- `field.lstrip("-")`. -/
def lstripSign (field : String) : String :=
  String.ofList (field.toList.dropWhile (· = '-'))

/-- `field.removeprefix("-")`. -/
def removeSign (field : String) : String :=
  if startsWith field "-" then String.ofList (field.toList.drop 1) else field

/-- What a term sorts by: a JSON field whose name is a placeholder, or a column, with quotes or
without. -/
inductive OrderExpr
  | json
  | quoted (modelName name : String)
  | column (name : String)
  deriving DecidableEq, Repr

/-- The text of what a term sorts by. -/
def OrderExpr.render : OrderExpr → String
  | .json => " logger_instance.json->>%s"
  | .quoted modelName name => "\"" ++ modelName ++ "\".\"" ++ name ++ "\""
  | .column name => " logger_instance." ++ name

/-- A term of an ORDER BY clause. -/
structure OrderTerm where
  expr : OrderExpr
  descending : Bool
  deriving DecidableEq, Repr

/-- The text of the term. -/
def OrderTerm.render (term : OrderTerm) : String :=
  term.expr.render ++ if term.descending then " DESC" else " ASC"

/-- The term of a field in `json_order_by`. -/
def jsonOrderTerm (noneJsonFields : String → Option String) (modelName field : String) :
    OrderTerm where
  expr :=
    match noneJsonFields (lstripSign field) with
    | some column => .quoted modelName column
    | none => .json
  descending := startsWith field "-"

/-- `json_order_by`. -/
def jsonOrderBy (sortList : List String) (noneJsonFields : String → Option String)
    (modelName : String) : List OrderTerm :=
  sortList.map (jsonOrderTerm noneJsonFields modelName)

/-- The text that `json_order_by` returns. -/
def renderOrderBy (terms : List OrderTerm) : String :=
  if terms = [] then "" else "ORDER BY " ++ ",".intercalate (terms.map OrderTerm.render)

/-- `json_order_by_params`. -/
def jsonOrderByParams (sortList : List String) (noneJsonFields : String → Option String) :
    List String :=
  (sortList.map lstripSign).filter fun field => noneJsonFields field = none

/-- The names of `Instance._meta.get_fields()`. They are names of Python attributes, and the
columns of `NONE_JSON_FIELDS` are among them. -/
structure InstanceModel where
  fields : List String
  name_ne : ∀ field ∈ fields, field ≠ "" ∧ startsWith field "-" = false
  columns_mem : ∀ key column, noneJsonFields key = some column → column ∈ fields

/-- `_parse_sort_fields` on one field. -/
def parseSortField (field : String) : String :=
  match (if startsWith field "-" then noneJsonFields (lstripSign field) else none) with
  | some column => "-" ++ column
  | none => (noneJsonFields field).getD field

/-- `_get_sort_fields`. -/
def getSortFields (py : SortRuntime) (sort : Option String) : Except PyError (List String) :=
  match sort with
  | none => return ["id"]
  | some sort => (sortFromMongoSortStr py sort).map (List.map parseSortField)

namespace InstanceModel
variable (model : InstanceModel)

/-- `_has_json_fields`. An empty name does not count: `any` takes it for false. -/
def hasJsonFields (sortList : List String) : Bool :=
  sortList.any fun field => decide (field ≠ "" ∧ lstripSign field ∉ model.fields)

/-- The term of a field in `get_sql_with_params`, when there are only fields of the model. -/
def columnOrderTerm (field : String) : OrderTerm :=
  ⟨.column (removeSign field), startsWith field "-"⟩

/-- The terms that `get_sql_with_params` adds for the fields, and their parameters. -/
def orderBy (sort : List String) : Clauses OrderTerm String :=
  if sort = [] then {}
  else if model.hasJsonFields sort then
    ⟨jsonOrderBy sort noneJsonFields "logger_instance", jsonOrderByParams sort noneJsonFields⟩
  else ⟨sort.map columnOrderTerm, []⟩

/-- The text of the terms. -/
def orderBySql (sort : List String) : String :=
  if sort = [] then ""
  else if model.hasJsonFields sort then
    " " ++ renderOrderBy (jsonOrderBy sort noneJsonFields "logger_instance")
  else " ORDER BY" ++ ",".intercalate ((sort.map columnOrderTerm).map OrderTerm.render)

/-- The ORDER BY clause of `get_sql_with_params` and its parameters. -/
def sqlOrderBy (py : SortRuntime) (sort : Option String) :
    Except PyError (Clauses OrderTerm String) :=
  (getSortFields py sort).map model.orderBy

end InstanceModel

end Onadata
