import Onadata.Apps.Viewer.ParsedInstanceTools

/-!
# `Onadata.Apps.Viewer.ParsedInstance`: the WHERE clause of a data query

`build_sql_where` of `apps/viewer/models/parsed_instance.py`, and what its clause selects
when the driver and the database run it.

The driver is psycopg2: it fills the placeholders with the parameters in order, raises
when they differ in number, and has no adapter for a dict (the code registers none). The
meaning of the comparisons other than equality of a JSON field with a text is a parameter
of the model.
-/

set_option autoImplicit false

namespace Onadata

open Onadata.Lib

/-- What `build_sql_where` reads of a form. `mergedXFormIds` are the ids of the forms of a
merged dataset that are not deleted. -/
structure DataForm where
  pk : Int
  integerFields : List String := []
  isMergedDataset : Bool := false
  mergedXFormIds : List Int := []
  deletingSubmissionIds : List Int := []
  deriving Repr

/-- The other arguments of `build_sql_where`. `start` and `stop` are in ISO format. -/
structure DataOptions where
  start : Option String := none
  stop : Option String := none
  isEncrypted : Option Bool := none
  decryptionStatus : Option String := none
  deriving Repr

/-- `exclude_deleting_submissions_clause`. -/
def excludeDeletingSubmissionsClause (ids : List Int) : Clauses WhereSql SqlParam :=
  match ids with
  | [] => {}
  | _ => ⟨[.atom (.idNotIn ids.length)], ids.map fun i => .value (.int i)⟩

/-- The fragments of `query` in `build_sql_where`: those of each query of a list. -/
def queryClauses (py : PyRuntime) (knownIntegers : List String) (query : PyValue) :
    Except PyError (Clauses WhereSql SqlParam) :=
  match query with
  | .list (first :: rest) => do
      let parts ← (first :: rest).mapM fun qry => getWhereClause py qry knownIntegers []
      return .concat parts
  | _ => getWhereClause py query knownIntegers []

/-- The fragments of the query as they stand in the text: without parameters they are left
out, and without fragments an `AND` is followed by nothing. -/
def joinWhere (clauses : Clauses WhereSql SqlParam) : Clauses WhereSql SqlParam :=
  match clauses with
  | ⟨_, []⟩ => {}
  | ⟨[], params⟩ => ⟨[.atom .empty], params⟩
  | clauses => clauses

/-- A comparison of a column with one parameter. -/
def compareColumn (name : String) (op : SqlOp) (param : PyValue) : Clauses WhereSql SqlParam :=
  ⟨[.atom (.compare (.column name) op)], [.value param]⟩

/-- The fragments of `start`, `stop`, the encryption options and the submissions under
deletion. -/
def optionClauses (xform : DataForm) (opts : DataOptions) : List (Clauses WhereSql SqlParam) :=
  [(opts.start.map fun s => compareColumn "date_created" .gte (.str s)).getD {},
    (opts.stop.map fun s => compareColumn "date_created" .lte (.str s)).getD {},
    match opts.isEncrypted with
      | some b => compareColumn "is_encrypted" .eq (.bool b)
      | none => ⟨[.atom .notPendingDecryption], []⟩,
    (opts.decryptionStatus.map fun s => compareColumn "decryption_status" .eq (.str s)).getD {},
    excludeDeletingSubmissionsClause xform.deletingSubmissionIds]

/-- `build_sql_where`. -/
def buildSqlWhere (py : PyRuntime) (xform : DataForm) (query : PyValue) (opts : DataOptions) :
    Except PyError (Clauses WhereSql SqlParam) := do
  let clauses ← queryClauses py xform.integerFields query
  let xformPks :=
    if xform.isMergedDataset ∧ xform.mergedXFormIds ≠ [] then xform.mergedXFormIds
    else [xform.pk]
  let start : Clauses WhereSql SqlParam :=
    ⟨[.atom .xformIdIn, .atom (.isNull (.column "deleted_at"))], [.tuple xformPks]⟩
  return .concat (start :: joinWhere clauses :: optionClauses xform opts)

/-! ### What a clause selects -/

/-- What a condition can read of a submission: the fields of the JSON as text, and the
columns. -/
structure InstanceRow where
  json : String → Option String
  column : String → Option String

/-- The meaning of the conditions, with their parameters, on a row. -/
abbrev AtomMeaning := SqlAtom → List SqlParam → InstanceRow → Prop

/-- The meaning of a condition: a JSON field is compared with a text here, every other
condition has the meaning `others`. -/
def SqlAtom.holds (others : AtomMeaning) : AtomMeaning
  | .compare .json .eq, [.value (.str key), .value (.str value)], row =>
      row.json key = some value
  | atom, params, row => others atom params row

/-- The meaning of a condition of an `$or` fragment. -/
def OrClause.holds (others : AtomMeaning) : OrClause → List SqlParam → InstanceRow → Prop
  | .atom a, params, row => a.holds others params row
  | .all atoms, params, row =>
      Clauses.HoldsAll SqlAtom.arity (SqlAtom.holds others) atoms params row

/-- The meaning of a fragment. -/
def WhereSql.holds (others : AtomMeaning) : WhereSql → List SqlParam → InstanceRow → Prop
  | .atom a, params, row => a.holds others params row
  | .any clauses, params, row =>
      Clauses.HoldsAny OrClause.arity (OrClause.holds others) clauses params row

/-- The fragment is SQL: no parentheses without a condition and no missing condition. -/
def WhereSql.wellFormed : WhereSql → Bool
  | .atom a => a ≠ .empty
  | .any clauses =>
      !clauses.isEmpty && clauses.all fun c => c ≠ .all [] ∧ c ≠ .atom .empty

mutual

/-- The driver has an adapter for the value. -/
def adaptable : PyValue → Bool
  | .dict _ => false
  | .list items => adaptableItems items
  | _ => true

/-- The driver has an adapter for each of the values. -/
def adaptableItems : List PyValue → Bool
  | [] => true
  | item :: rest => adaptable item && adaptableItems rest

end

/-- The driver has an adapter for the parameter. -/
def SqlParam.adaptable : SqlParam → Bool
  | .value v => Onadata.adaptable v
  | .tuple _ => true

/-- The statement with this clause runs and the row satisfies the clause. -/
def Selects (others : AtomMeaning) (clauses : Clauses WhereSql SqlParam) (row : InstanceRow) :
    Prop :=
  (∀ param ∈ clauses.params, param.adaptable = true) ∧
    Clauses.placeholders WhereSql.arity clauses.conditions = clauses.params.length ∧
    (∀ condition ∈ clauses.conditions, condition.wellFormed = true) ∧
    Clauses.HoldsAll WhereSql.arity (WhereSql.holds others) clauses.conditions
      clauses.params row

end Onadata
