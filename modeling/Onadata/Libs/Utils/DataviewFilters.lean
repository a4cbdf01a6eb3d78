import Onadata.Apps.Logger.Models.DataView

/-!
# `Onadata.Libs.Utils.DataviewFilters`: the filters of a dataview as ORM lookups

`apply_filters` of `libs/utils/dataview_filters.py`, and the submissions that
`filter(**kwargs)` selects. Django splits the name of a keyword argument at each `__`: the
field, the keys in its JSON, and a lookup if the last part is one.
-/

set_option autoImplicit false

namespace Onadata

open Onadata.Lib

/-- The lookups that `filter_to_field_lookup` names, and the one without a name. -/
inductive JsonLookup
  | iexact
  | lt
  | gt
  | exact
  deriving DecidableEq, Repr

/-- `filter_to_field_lookup`. -/
def filterToFieldLookup : DataViewComparator → String
  | .eq => "__iexact"
  | .lt => "__lt"
  | _ => "__gt"

/-- `text.split("__")`, on characters. -/
def splitLookup : List Char → List (List Char)
  | '_' :: '_' :: rest => [] :: splitLookup rest
  | c :: rest =>
      match splitLookup rest with
      | part :: parts => (c :: part) :: parts
      | [] => [[c]]
  | [] => [[]]

/-- `is_safe_column`, of a text. -/
def isSafeColumn (column : String) : Bool :=
  (splitLookup column.toList).length == 1

/-- `get_field_lookup`. -/
def getFieldLookup (column : String) (filter : DataViewComparator) : String :=
  "json__" ++ column ++ filterToFieldLookup filter

/-- `get_filter_kwargs`. -/
def getFilterKwargs (filters : List DataViewFilter) : List (String × String) :=
  filters.foldl (fun kwargs f =>
    if isSafeColumn f.column then Dict.insert kwargs (getFieldLookup f.column f.filter) f.value
    else kwargs) []

/-! ### What the ORM does -/

/-- The keys and the lookup of the parts of a keyword argument behind the field. -/
def resolveLookup (parts : List String) : List String × JsonLookup :=
  match parts.getLast? with
  | some "iexact" => (parts.dropLast, .iexact)
  | some "lt" => (parts.dropLast, .lt)
  | some "gt" => (parts.dropLast, .gt)
  | _ => (parts, .exact)

/-- The value at keys of dicts. -/
def valueAt : PyValue → List String → Option PyValue
  | value, [] => some value
  | .dict items, key :: keys => (Dict.get? items key).bind fun value => valueAt value keys
  | _, _ :: _ => none

/-- The value that the lookup reads. A single key that is an integer is an index, and a JSON
object has none. -/
def Database.jsonAt (db : Database) (json : SubmissionJson) (keys : List String) :
    Option PyValue :=
  match keys with
  | [key] => if db.isInteger key then none else Dict.get? json key
  | keys => valueAt (.dict json) keys

/-- A lookup in a value. The value of the filter is a JSON text, and `iexact` compares texts. -/
def Database.lookup (db : Database) (lookup : JsonLookup) (value : PyValue) (text : String) :
    Bool :=
  match lookup with
  | .iexact => (db.textOf value).any fun t => db.upper t == db.upper text
  | .lt => db.jsonLt value (.str text)
  | .gt => db.jsonLt (.str text) value
  | .exact => match value with
    | .str t => t == text
    | _ => false

/-- A keyword argument of `filter`. -/
def Database.kwargHolds (db : Database) (json : SubmissionJson) (kwarg : String × String) : Bool :=
  let parts := (splitLookup kwarg.1.toList).map String.ofList
  let (keys, lookup) := resolveLookup parts.tail
  (db.jsonAt json keys).any fun value => db.lookup lookup value kwarg.2

/-- `apply_filters` keeps the submission. -/
def applyFilters (db : Database) (filters : List DataViewFilter) (json : SubmissionJson) : Bool :=
  if filters = [] then true else (getFilterKwargs filters).all (db.kwargHolds json)

end Onadata
