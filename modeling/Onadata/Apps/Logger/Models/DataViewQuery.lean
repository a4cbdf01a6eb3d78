import Onadata.Apps.Logger.Models.DataView

/-!
# `Onadata.Apps.Logger.Models.DataViewQuery`: the statements of a dataview

`DataView._get_where_clause`, `append_where_list`, `DataView.has_instance` and
`DataView.query_data` of `apps/logger/models/data_view.py`, on any JSON list of filters: a
comparator outside the supported ones, a value that is not a text, a missing key.
`Onadata.Apps.Logger.Models.DataView` has `_get_where_clause` on filters that a serializer has
accepted. `has_instance` and `query_data` each write a statement on the table of submissions with
the conditions of `_get_where_clause`.

PostgreSQL is a parameter, `DataViewDatabase`: when it raises a `DataError` (a text that cannot be
cast) depends on the order in which it tries the conditions.

Left out: the arguments of `query_data` that sort, page or count its rows, or select with a further
query, and the columns of its records. Without them all rows of the dataview are selected.
-/

set_option autoImplicit false

namespace Onadata

open Onadata.Lib

/-- The comparison that `append_where_list` appends for a comparator. -/
def comparatorOp : PyValue → Option WhereOp
  | .str "=" => some .eq
  | .str ">" => some .gt
  | .str "<" => some .lt
  | .str ">=" => some .gte
  | .str "<=" => some .lte
  | .str "<>" => some .ne
  | .str "!=" => some .ne
  | _ => none

/-- `append_where_list`. -/
def appendWhereList (comp : PyValue) (tList : List WhereComparison) (lhs : JsonSql) :
    List WhereComparison :=
  match comparatorOp comp with
  | some op => tList ++ [⟨lhs, op⟩]
  | none => tList

/-- `query.get(key)`. -/
def getItem (items : List (String × PyValue)) (key : String) : PyValue :=
  (Dict.get? items key).getD .none

/-- `_json_sql_str`, of a column that need not be a text. -/
def KnownFields.jsonSqlStrOf (fields : KnownFields) : PyValue → JsonSql
  | .str column => fields.jsonSqlStr column
  | _ => .text

/-- `str(value)`, where `value` is a date if the comparator is the name of a date field. -/
def KnownFields.filterText (fields : KnownFields) (py : PyRuntime) (comp value : PyValue) :
    Except PyError String :=
  match comp, value with
  | .str comp, .str value =>
      if comp ∈ "_submission_time" :: fields.dates then
        match py.strptime ["%Y-%m-%dT%H:%M:%S"] (String.ofList (value.toList.take 19)) with
        | some date => return date
        | none => throw .valueError
      else return value
  | .str comp, value =>
      if comp ∈ "_submission_time" :: fields.dates then throw .typeError
      else return py.text value
  | _, value => return py.text value

/-- `condi and condi.lower() == "or"`. -/
def isOrCondition (condi : PyValue) : Except PyError Bool :=
  if !condi.truthy then return false
  else
    match condi with
    | .str text => return text.toLower == "or"
    | _ => throw .attributeError

/-- The lists of `_get_where_clause`. -/
structure QueryLists where
  whereList : List WhereComparison
  whereParams : List PyValue
  orWhere : List WhereComparison
  orParams : List PyValue

/-- One round of `_get_where_clause`. -/
def KnownFields.appendQuery (fields : KnownFields) (py : PyRuntime) (lists : QueryLists)
    (query : PyValue) : Except PyError QueryLists :=
  match query with
  | .dict items => do
      let comp := getItem items "filter"
      let column := getItem items "column"
      let lhs := fields.jsonSqlStrOf column
      let text ← fields.filterText py comp (getItem items "value")
      let isOr ← isOrCondition (getItem items "condition")
      -- The parameters are appended whether there is a comparison or not.
      if isOr then
        return { lists with
          orWhere := appendWhereList comp lists.orWhere lhs
          orParams := lists.orParams ++ [column, .str text] }
      else
        return { lists with
          whereList := appendWhereList comp lists.whereList lhs
          whereParams := lists.whereParams ++ [column, .str text] }
  | _ => throw .attributeError

/-- `DataView._get_where_clause`. -/
def KnownFields.getWhereClauseOf (fields : KnownFields) (py : PyRuntime)
    (queries : List PyValue) : Except PyError (Clauses DataViewWhere PyValue) := do
  let lists ← queries.foldlM (fields.appendQuery py) ⟨[], [], [], []⟩
  let orWhere := if lists.orWhere = [] then [] else [DataViewWhere.any lists.orWhere]
  return ⟨lists.whereList.map .compare ++ orWhere, lists.whereParams ++ lists.orParams⟩

/-- A row of `logger_instance`. -/
structure DatasetRow where
  id : Nat
  xformId : Nat
  json : SubmissionJson
  deletedAt : Option Nat := none

/-- What the statements read of a dataview. `mergedXforms` are the forms of a merged dataset. -/
structure FilteredDataset where
  xform : Nat
  mergedXforms : Option (List Nat) := none
  fields : KnownFields := {}
  query : List DataViewFilter := []

/-! ### The statements -/

/-- A condition of a statement. -/
inductive RowCondition
  | xformIs
  | xformIn
  | idIs
  | filter (condition : DataViewWhere)
  | notDeleted
  deriving DecidableEq, Repr

/-- A parameter of a statement: `str(i)`, or a tuple. -/
inductive RowParam
  | text (value : String)
  | tuple (pks : List Nat)
  deriving DecidableEq, Repr

/-- The text of the condition. -/
def RowCondition.render : RowCondition → String
  | .xformIs => "xform_id = %s"
  | .xformIn => "xform_id IN %s"
  | .idIs => "id = %s"
  | .filter condition => condition.render
  | .notDeleted => "deleted_at IS NULL"

/-- The placeholders of the condition. -/
def RowCondition.arity : RowCondition → Nat
  | .xformIs | .xformIn | .idIs => 1
  | .filter condition => condition.arity
  | .notDeleted => 0

/-- The text of a parameter that is one. -/
def RowParam.text? : RowParam → Option String
  | .text value => some value
  | .tuple _ => none

/-- The forms of a parameter that is a tuple of them. -/
def RowParam.pks : RowParam → List Nat
  | .text _ => []
  | .tuple pks => pks

/-- The condition holds of a row. -/
def RowCondition.holds (db : Database) (condition : RowCondition) (params : List RowParam)
    (row : DatasetRow) : Prop :=
  match condition with
  | .xformIs => params = [.text (toString row.xformId)]
  | .xformIn => ∃ param ∈ params, row.xformId ∈ param.pks
  | .idIs => params = [.text (toString row.id)]
  | .filter condition => condition.holds db (params.filterMap RowParam.text?) row.json
  | .notDeleted => row.deletedAt = none

/-- The conditions of a statement on `logger_instance`, with their parameters. -/
abbrev RowStatement := Clauses RowCondition RowParam

namespace FilteredDataset
variable (dataView : FilteredDataset)

/-- The conditions of `_get_where_clause` and the last one of both statements. -/
def whereRows : RowStatement :=
  let clauses := dataView.fields.getWhereClause dataView.query
  ⟨clauses.conditions.map .filter ++ [.notDeleted], clauses.params.map .text⟩

/-- The statement of `has_instance`. -/
def hasInstanceStatement (instanceId : Nat) : RowStatement :=
  ⟨.xformIs :: .idIs :: dataView.whereRows.conditions,
    .text (toString dataView.xform) :: .text (toString instanceId) :: dataView.whereRows.params⟩

/-- The statement of `generate_query_string`. -/
def queryDataStatement : RowStatement :=
  match dataView.mergedXforms with
  | some pks => ⟨.xformIn :: dataView.whereRows.conditions, .tuple pks :: dataView.whereRows.params⟩
  | none =>
      ⟨.xformIs :: dataView.whereRows.conditions,
        .text (toString dataView.xform) :: dataView.whereRows.params⟩

end FilteredDataset

/-! ### What the database does -/

instance (db : Database) (c : WhereComparison) (params : List String) (json : SubmissionJson) :
    Decidable (c.holds db params json) :=
  match params with
  | [column, value] => inferInstanceAs (Decidable (db.compare c column value json = true))
  | [] | [_] | _ :: _ :: _ :: _ => inferInstanceAs (Decidable False)

instance (db : Database) (condition : DataViewWhere) (params : List String)
    (json : SubmissionJson) : Decidable (condition.holds db params json) :=
  match condition with
  | .compare c => inferInstanceAs (Decidable (c.holds db params json))
  | .any cs =>
      inferInstanceAs (Decidable (Clauses.HoldsAny _ (WhereComparison.holds db) cs params json))

instance (db : Database) (condition : RowCondition) (params : List RowParam) (row : DatasetRow) :
    Decidable (condition.holds db params row) :=
  match condition with
  | .xformIs | .idIs => inferInstanceAs (Decidable (_ = _))
  | .xformIn => inferInstanceAs (Decidable (∃ param ∈ params, row.xformId ∈ param.pks))
  | .filter condition => inferInstanceAs (Decidable (condition.holds db _ row.json))
  | .notDeleted => inferInstanceAs (Decidable (row.deletedAt = none))

/-- PostgreSQL, with the message of the `DataError` that a statement raises on a table. -/
structure DataViewDatabase extends Database where
  dataError : RowStatement → List DatasetRow → Option String

/-- The rows that a statement fetches. The driver refuses a statement whose placeholders and
parameters differ in number. -/
def DataViewDatabase.execute (db : DataViewDatabase) (table : List DatasetRow)
    (statement : RowStatement) : Except String (List DatasetRow) := do
  if Clauses.placeholders RowCondition.arity statement.conditions ≠ statement.params.length then
    .error "the query has another number of placeholders than parameters"
  match db.dataError statement table with
  | some message => .error message
  | none => .ok (table.filter fun row =>
      Clauses.HoldsAll RowCondition.arity (RowCondition.holds db.toDatabase) statement.conditions
        statement.params row)

/-! ### The methods -/

section
variable (db : DataViewDatabase) (table : List DatasetRow) (dataView : FilteredDataset)

/-- `DataView.has_instance`. `count(json)` fetches one row, which is the number of selected
submissions. -/
def hasInstance (instanceId : Nat) : Except String Bool := do
  let selected ← db.execute table (dataView.hasInstanceStatement instanceId)
  let fetchall := [selected.length]
  let records := fetchall.foldl (fun _ count => some count) none
  return records.isSome

/-- `DataView.query_data`, with the submissions in place of their records. A `DataError` is returned
as `{"error": ..}`. -/
def queryData : Except String (List DatasetRow) := do
  let selected ← db.execute table dataView.queryDataStatement
  return selected.mergeSort fun row row' => row.id ≤ row'.id

end

end Onadata
