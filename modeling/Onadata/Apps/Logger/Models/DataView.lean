import Onadata.Lib.PositionalParams
import Onadata.Lib.PyValue

/-!
# `Onadata.Apps.Logger.Models.DataView`: the filters of a dataview as SQL

`DataView._get_where_clause` of `apps/logger/models/data_view.py`, and the submissions that
its conditions select.

PostgreSQL and the JSON lookups of Django are a parameter, `Database`, whose laws are what
their documentation says of the order of texts and of JSON values.

Left out: the branch for a comparator that is the name of a date field, which no comparator
is.
-/

set_option autoImplicit false

namespace Onadata

open Onadata.Lib

/-! ### Filters -/

/-- `SUPPORTED_FILTERS`. `ltgt` is `<>` and `bangEq` is `!=`. -/
inductive DataViewComparator
  | eq
  | gt
  | lt
  | gte
  | lte
  | ltgt
  | bangEq
  deriving DecidableEq, Repr

/-- The `condition` of a filter. -/
inductive DataViewCondition
  | and
  | or
  deriving DecidableEq, Repr

/-- A filter of `DataView.query`, with `str(value)`. -/
structure DataViewFilter where
  column : String
  filter : DataViewComparator
  value : String
  condition : DataViewCondition := .and
  deriving DecidableEq, Repr

/-- The fields of the form with a type that `_get_where_clause` knows. -/
structure KnownFields where
  integers : List String := []
  dates : List String := []
  decimals : List String := []
  deriving Repr

/-! ### The conditions -/

/-- What a JSON field is cast to. -/
inductive JsonSql
  | text
  | int
  | timestamp
  | decimal
  deriving DecidableEq, Repr

/-- The text of the left side. -/
def JsonSql.render : JsonSql → String
  | .text => "json->>%s"
  | .int => "CAST(json->>%s AS INT)"
  | .timestamp => "CAST(json->>%s AS TIMESTAMP)"
  | .decimal => "CAST(JSON->>%s AS DECIMAL)"

/-- `_json_sql_str`, with the known fields of `_get_where_clause`. -/
def KnownFields.jsonSqlStr (fields : KnownFields) (key : String) : JsonSql :=
  if key ∈ "_id" :: fields.integers then .int
  else if key ∈ "_submission_time" :: fields.dates then .timestamp
  else if key ∈ fields.decimals then .decimal
  else .text

/-- The operators in the SQL. -/
inductive WhereOp
  | eq
  | gt
  | lt
  | gte
  | lte
  | ne
  deriving DecidableEq, Repr

/-- The text of the operator. -/
def WhereOp.render : WhereOp → String
  | .eq => "="
  | .gt => ">"
  | .lt => "<"
  | .gte => ">="
  | .lte => "<="
  | .ne => "<>"

/-- The operator that `append_where_list` writes. -/
def DataViewComparator.whereOp : DataViewComparator → WhereOp
  | .eq => .eq
  | .gt => .gt
  | .lt => .lt
  | .gte => .gte
  | .lte => .lte
  | .ltgt | .bangEq => .ne

/-- A comparison of a JSON field with a value, each of them a placeholder. -/
structure WhereComparison where
  lhs : JsonSql
  op : WhereOp
  deriving DecidableEq, Repr

/-- The text that `append_where_list` appends. -/
def WhereComparison.render (c : WhereComparison) : String :=
  c.lhs.render ++ " " ++ c.op.render ++ " %s"

/-- A condition of the clause. -/
inductive DataViewWhere
  | compare (c : WhereComparison)
  | any (cs : List WhereComparison)
  deriving DecidableEq, Repr

/-- The text of the condition. -/
def DataViewWhere.render : DataViewWhere → String
  | .compare c => c.render
  | .any cs => "(" ++ " OR ".intercalate (cs.map WhereComparison.render) ++ ")"

/-- The placeholders of the condition. -/
def DataViewWhere.arity : DataViewWhere → Nat
  | .compare _ => 2
  | .any cs => Clauses.placeholders (fun _ => 2) cs

/-- The lists of `_get_where_clause`. -/
structure WhereLists where
  whereList : List WhereComparison := []
  whereParams : List String := []
  orWhere : List WhereComparison := []
  orParams : List String := []

/-- One round of `_get_where_clause`. -/
def appendWhere (fields : KnownFields) (lists : WhereLists) (query : DataViewFilter) :
    WhereLists :=
  let c : WhereComparison := ⟨fields.jsonSqlStr query.column, query.filter.whereOp⟩
  match query.condition with
  | .or =>
      { lists with
          orWhere := lists.orWhere ++ [c]
          orParams := lists.orParams ++ [query.column, query.value] }
  | .and =>
      { lists with
          whereList := lists.whereList ++ [c]
          whereParams := lists.whereParams ++ [query.column, query.value] }

/-- `DataView._get_where_clause`. -/
def KnownFields.getWhereClause (fields : KnownFields) (queries : List DataViewFilter) :
    Clauses DataViewWhere String :=
  let lists := queries.foldl (appendWhere fields) {}
  let orWhere := if lists.orWhere = [] then [] else [DataViewWhere.any lists.orWhere]
  ⟨lists.whereList.map .compare ++ orWhere, lists.whereParams ++ lists.orParams⟩

/-! ### What the database does -/

/-- The JSON of a submission. -/
abbrev SubmissionJson := List (String × PyValue)

/-- A value below all texts: in the order of JSON values, a null and, at the top level, an
empty array come before the texts. -/
def belowTexts : PyValue → Bool
  | .none => true
  | .list items => items.isEmpty
  | _ => false

/-- The functions of PostgreSQL and Python that the filters rest on.

- `upper`: `UPPER(text)`;
- `textLt`: the order of texts in the collation of the database;
- `jsonText`: the text that `->>` makes of a value that is neither a text nor a null;
- `jsonLt`: the order of JSON values;
- `compareAs`: a comparison of two texts after a cast to a type that is not text;
- `isInteger`: `int(text)` does not raise. -/
structure Database where
  upper : String → String
  textLt : String → String → Bool
  jsonText : PyValue → String
  jsonLt : PyValue → PyValue → Bool
  compareAs : JsonSql → WhereOp → String → String → Bool
  isInteger : String → Bool
  textLt_irrefl : ∀ s, textLt s s = false
  textLt_asymm : ∀ s t, textLt s t = true → textLt t s = false
  textLt_total : ∀ s t, s ≠ t → textLt s t = true ∨ textLt t s = true
  jsonLt_text : ∀ s t, jsonLt (.str s) (.str t) = textLt s t
  jsonLt_other : ∀ value s, value.isStr = false →
    jsonLt value (.str s) = belowTexts value ∧ jsonLt (.str s) value = !belowTexts value

namespace Database
variable (db : Database)

/-- `json->>column`: a null has no text. -/
def textOf : PyValue → Option String
  | .none => none
  | .str s => some s
  | value => some (db.jsonText value)

/-- A comparison of two texts. -/
def compareText (op : WhereOp) (text value : String) : Bool :=
  match op with
  | .eq => text == value
  | .gt => db.textLt value text
  | .lt => db.textLt text value
  | .gte => !db.textLt text value
  | .lte => !db.textLt value text
  | .ne => text != value

/-- A comparison of a text with a value. -/
def compareWith (lhs : JsonSql) (op : WhereOp) (text value : String) : Bool :=
  match lhs with
  | .text => db.compareText op text value
  | lhs => db.compareAs lhs op text value

/-- A comparison of a field: it is not true of a field without a text. -/
def compare (c : WhereComparison) (column value : String) (json : SubmissionJson) : Bool :=
  ((Dict.get? json column).bind db.textOf).any fun text => db.compareWith c.lhs c.op text value

end Database

/-- A comparison with its two parameters. -/
def WhereComparison.holds (db : Database) (c : WhereComparison) (params : List String)
    (json : SubmissionJson) : Prop :=
  match params with
  | [column, value] => db.compare c column value json = true
  | _ => False

/-- A condition with its parameters. -/
def DataViewWhere.holds (db : Database) (condition : DataViewWhere) (params : List String)
    (json : SubmissionJson) : Prop :=
  match condition with
  | .compare c => c.holds db params json
  | .any cs => Clauses.HoldsAny (fun _ => 2) (WhereComparison.holds db) cs params json

/-- The clause selects the submission. -/
def KnownFields.Selects (db : Database) (fields : KnownFields) (queries : List DataViewFilter)
    (json : SubmissionJson) : Prop :=
  let clauses := fields.getWhereClause queries
  Clauses.placeholders DataViewWhere.arity clauses.conditions = clauses.params.length ∧
    Clauses.HoldsAll DataViewWhere.arity (DataViewWhere.holds db) clauses.conditions
      clauses.params json

end Onadata
