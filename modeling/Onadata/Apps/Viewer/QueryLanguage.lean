import Onadata.Apps.Viewer.ParsedInstance

/-!
# `Onadata.Apps.Viewer.QueryLanguage`: what a query says of a row

The query language of `docs/data.rst`, without SQL: when a row meets a condition of a query,
and when it meets the query. `getWhereClause` is compared with it.

A condition on a field is a value that the field is equal to, a null, or a dict of operators.
A field of `NONE_JSON_FIELDS` is a column of the table. Every other field is one of the JSON.
-/

set_option autoImplicit false

namespace Onadata

open Onadata.Lib

/-- The comparisons of the database, on the text of a stored value and the text of a
parameter. Two texts are equal as they stand, so that this one is not asked for. -/
structure SqlDatabase where
  compareAs : SqlLhs → SqlOp → String → String → Bool

/-- The conditions that a query dict gives. A comparison with a null is never true, and the
database refuses to compare a text with a parameter that is not one. -/
def SqlDatabase.atomMeaning (db : SqlDatabase) : AtomMeaning
  | .compare (.column name) op, [.value (.str value)], row =>
      ∃ stored, row.column name = some stored ∧ db.compareAs (.column name) op stored value = true
  | .compare lhs op, [.value (.str key), .value (.str value)], row =>
      ∃ stored, row.json key = some stored ∧ db.compareAs lhs op stored value = true
  | .isNull .json, [.value (.str key)], row => row.json key = none
  | _, _, _ => False

/-- The field is a column of the table. -/
def isColumn (fieldKey : String) : Bool :=
  (noneJsonFields fieldKey).isSome

/-- The stored value of a field. -/
def InstanceRow.field (row : InstanceRow) (fieldKey : String) : Option String :=
  match noneJsonFields fieldKey with
  | some column => row.column column
  | none => row.json fieldKey

section Meaning

variable (py : PyRuntime) (db : SqlDatabase) (knownIntegers knownDecimals : List String)

/-- How the operators compare a field. -/
def fieldLhs (fieldKey : String) : SqlLhs :=
  match noneJsonFields fieldKey with
  | some column => .column column
  | none => jsonSqlStr fieldKey knownIntegers knownDecimals

/-- A stored value is equal to a value of the query. -/
def EqualTo (fieldKey stored : String) (value : PyValue) : Prop :=
  match noneJsonFields fieldKey with
  | some column => db.compareAs (.column column) .eq stored (py.text value) = true
  | none => stored = py.text value

/-- The row meets one operator of a field. -/
def MeetsOperator (row : InstanceRow) (fieldKey : String) (item : String × PyValue) : Prop :=
  ∃ op stored text, operands item.1 = some op ∧ row.field fieldKey = some stored ∧
    operatorText py fieldKey item.2 = .ok text ∧
      db.compareAs (fieldLhs knownIntegers knownDecimals fieldKey) op stored text = true

/-- The row meets a condition of the query. -/
def Meets (row : InstanceRow) (field : String × PyValue) : Prop :=
  match field.2 with
  | .dict operators =>
      ∀ item ∈ operators, MeetsOperator py db knownIntegers knownDecimals row field.1 item
  | .none => row.field field.1 = none
  | value => ∃ stored, row.field field.1 = some stored ∧ EqualTo py db field.1 stored value

/-- The row meets one clause of an `$or` list: with a field of the table, all the conditions
of the clause, and otherwise one of them. The condition on a JSON field counts by itself in
both cases. -/
def MeetsClause (row : InstanceRow) (clause : List (String × PyValue)) : Prop :=
  (∃ item ∈ clause, isColumn item.1 = false ∧
      Meets py db knownIntegers knownDecimals row item) ∨
    ((∃ item ∈ clause, isColumn item.1 = true) ∧
      ∀ item ∈ clause, Meets py db knownIntegers knownDecimals row item)

/-- The row meets the query: all its conditions, and one of the clauses of its `$or` list. -/
def MeetsQuery (row : InstanceRow) (fields : List (String × PyValue))
    (orClauses : Option (List (List (String × PyValue)))) : Prop :=
  (∀ field ∈ fields, field.1 ≠ "$or" → Meets py db knownIntegers knownDecimals row field) ∧
    ∀ clauses ∈ orClauses, ∃ clause ∈ clauses,
      MeetsClause py db knownIntegers knownDecimals row clause

end Meaning

section Plain

variable (py : PyRuntime)

/-- A condition of the language: an operator is one of `OPERANDS`, with a value that the
field takes, and a null is one of a JSON field. -/
def PlainValue (fieldKey : String) : PyValue → Prop
  | .dict operators =>
      ∀ item ∈ operators, (operands item.1).isSome = true ∧
        ∃ text, operatorText py fieldKey item.2 = .ok text
  | .none => isColumn fieldKey = false
  | _ => True

/-- A clause of an `$or` list: a JSON field has a null or a text, and a clause with a field of
the table has a condition. -/
structure PlainClause (clause : List (String × PyValue)) : Prop where
  plain : ∀ item ∈ clause, PlainValue py item.1 item.2
  text : ∀ item ∈ clause, isColumn item.1 = false → item.2 = .none ∨ ∃ s, item.2 = .str s
  condition : (∃ item ∈ clause, isColumn item.1 = true) → ∃ item ∈ clause, item.2 ≠ .dict []

/-- A query dict with the clauses of its `$or` list, which has a key. -/
structure PlainQuery (fields : List (String × PyValue))
    (orClauses : Option (List (List (String × PyValue)))) : Prop where
  plain : ∀ field ∈ fields, field.1 ≠ "$or" → PlainValue py field.1 field.2
  orValue : Dict.get? fields "$or" = orClauses.map fun clauses => .list (clauses.map .dict)
  clauses : ∀ clauses ∈ orClauses,
    (∃ clause ∈ clauses, clause ≠ []) ∧ ∀ clause ∈ clauses, PlainClause py clause

end Plain

end Onadata
