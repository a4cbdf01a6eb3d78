import Mathlib.Algebra.BigOperators.Group.List.Basic
import Onadata.Apps.Logger.Models.DataViewQuery
import Onadata.Proofs.Apps.Viewer.MetaPermsConfinement

/-!
# `Onadata.Proofs.Apps.Viewer.Placeholders`: placeholders and their parameters

`get_where_clause` and `DataView._get_where_clause` append a condition and its parameters to two
lists. `appendsOfWhereClause` and `appendsOfFilters` list these appends, each parameter with what
it is produced for. What the functions return is the concatenation of the appends. An append
without a condition, which an unknown operator or comparator makes, moves the parameters behind
it away from their placeholders.

* `placeholdersIn_render`: the placeholders of a fragment are the `%s` of its text.
* `splits_getWhereClause` and `isConcat_getWhereClauseOf`: the appends.
* `placeholdersMatch_iff`: the placeholders match the parameters exactly when all operators of the
  query, and all comparators of the filters, are known.
-/

set_option autoImplicit false

namespace Onadata.Proofs

open Onadata.Lib
open Onadata.Lib.Clauses (placeholderOwners paramOwners)

/-! ### The text of a fragment -/

/-- The placeholders in a text. No fragment has a `%` that is not part of a `%s`. -/
def placeholdersIn (text : String) : Nat :=
  text.toList.count '%'

@[simp]
theorem placeholdersIn_append (s t : String) :
    placeholdersIn (s ++ t) = placeholdersIn s + placeholdersIn t := by
  unfold placeholdersIn
  rw [String.toList_append, List.count_append]

/-- The placeholders of texts with a separator that has none. -/
theorem placeholdersIn_intercalate {separator : String} (h : placeholdersIn separator = 0)
    (texts : List String) :
    placeholdersIn (separator.intercalate texts) = (texts.map placeholdersIn).sum := by
  induction texts with
  | nil => rfl
  | cons text texts ih =>
      cases texts with
      | nil => rw [String.intercalate_singleton, List.map_singleton, List.sum_singleton]
      | cons next texts =>
          rw [String.intercalate_cons_cons, placeholdersIn_append, placeholdersIn_append, h, ih,
            List.map_cons (a := text), List.sum_cons]
          omega

/-- The name of a column or of a type in the text has no placeholder. -/
def PlainLhs : SqlLhs → Prop
  | .column name => placeholdersIn name = 0
  | .jsonAs sqlType => placeholdersIn sqlType = 0
  | .json => True

/-- The left side of the condition, if it has one, is plain. -/
def PlainAtom : SqlAtom → Prop
  | .compare lhs _ | .isNull lhs => PlainLhs lhs
  | _ => True

theorem placeholdersIn_renderLhs {lhs : SqlLhs} (h : PlainLhs lhs) :
    placeholdersIn lhs.render = lhs.arity := by
  cases lhs with
  | column name =>
      show placeholdersIn ("logger_instance." ++ name) = 0
      rw [placeholdersIn_append, (h : placeholdersIn name = 0)]
      decide
  | json => decide
  | jsonAs sqlType =>
      show placeholdersIn ("CAST(logger_instance.json->>%s AS " ++ sqlType ++ ")") = 1
      rw [placeholdersIn_append, placeholdersIn_append, (h : placeholdersIn sqlType = 0)]
      decide

theorem placeholdersIn_renderAtom {a : SqlAtom} (h : PlainAtom a) :
    placeholdersIn a.render = a.arity := by
  cases a with
  | compare lhs op =>
      show placeholdersIn (" ".intercalate [lhs.render, op.render, "%s"]) = lhs.arity + 1
      rw [placeholdersIn_intercalate (by decide)]
      have hop : placeholdersIn op.render = 0 := by cases op <;> decide
      have hvalue : placeholdersIn "%s" = 1 := by decide
      simp only [List.map_cons, List.map_nil, List.sum_cons, List.sum_nil, hop, hvalue,
        placeholdersIn_renderLhs h]
      omega
  | isNull lhs =>
      show placeholdersIn (lhs.render ++ " IS NULL") = lhs.arity
      rw [placeholdersIn_append, placeholdersIn_renderLhs h]
      rfl
  | idNotIn count =>
      show placeholdersIn ("logger_instance.id NOT IN (" ++
        ", ".intercalate (List.replicate count "%s") ++ ")") = count
      have hvalue : placeholdersIn "%s" = 1 := by decide
      have hopen : placeholdersIn "logger_instance.id NOT IN (" = 0 := by decide
      have hclose : placeholdersIn ")" = 0 := by decide
      rw [placeholdersIn_append, placeholdersIn_append, placeholdersIn_intercalate (by decide),
        List.map_replicate, hvalue, hopen, hclose]
      simp
  | jsonTextMatches => decide
  | xformIdIn => decide
  | notPendingDecryption => decide
  | empty => decide

/-- The conditions without `AND` and `OR` in an `$or` fragment. -/
def orAtoms : OrClause → List SqlAtom
  | .atom a => [a]
  | .all atoms => atoms

/-- The conditions without `AND` and `OR` in a fragment, in the order of the text. -/
def fragmentAtoms : WhereSql → List SqlAtom
  | .atom a => [a]
  | .any clauses => clauses.flatMap orAtoms

/-- The placeholders of texts in parentheses. -/
theorem placeholdersIn_parentheses {separator : String} (h : placeholdersIn separator = 0)
    (texts : List String) :
    placeholdersIn ("(" ++ separator.intercalate texts ++ ")") =
      (texts.map placeholdersIn).sum := by
  rw [placeholdersIn_append, placeholdersIn_append, placeholdersIn_intercalate h]
  have hopen : placeholdersIn "(" = 0 := by decide
  have hclose : placeholdersIn ")" = 0 := by decide
  omega

theorem placeholdersIn_renderOr {clause : OrClause} (h : ∀ a ∈ orAtoms clause, PlainAtom a) :
    placeholdersIn clause.render = Clauses.placeholders SqlAtom.arity (orAtoms clause) := by
  cases clause with
  | atom a =>
      show placeholdersIn a.render = Clauses.placeholders SqlAtom.arity [a]
      rw [placeholdersIn_renderAtom (h a (List.mem_singleton_self a))]
      simp
  | all atoms =>
      show placeholdersIn ("(" ++ " AND ".intercalate (atoms.map SqlAtom.render) ++ ")") = _
      rw [placeholdersIn_parentheses (by decide), List.map_map]
      exact congrArg List.sum (List.map_congr_left fun a ha => placeholdersIn_renderAtom (h a ha))

/-- The placeholders of a fragment are the `%s` of its text. -/
theorem placeholdersIn_render {fragment : WhereSql}
    (h : ∀ a ∈ fragmentAtoms fragment, PlainAtom a) :
    placeholdersIn fragment.render =
      Clauses.placeholders SqlAtom.arity (fragmentAtoms fragment) := by
  cases fragment with
  | atom a =>
      show placeholdersIn a.render = Clauses.placeholders SqlAtom.arity [a]
      rw [placeholdersIn_renderAtom (h a (List.mem_singleton_self a))]
      simp
  | any clauses =>
      show placeholdersIn ("(" ++ " OR ".intercalate (clauses.map OrClause.render) ++ ")") =
        Clauses.placeholders SqlAtom.arity (clauses.flatMap orAtoms)
      rw [placeholdersIn_parentheses (by decide), List.map_map]
      have hclause : ∀ clause ∈ clauses, placeholdersIn clause.render =
          Clauses.placeholders SqlAtom.arity (orAtoms clause) := fun clause hclause =>
        placeholdersIn_renderOr fun a ha => h a (List.mem_flatMap.mpr ⟨clause, hclause, ha⟩)
      clear h
      induction clauses with
      | nil => rfl
      | cons clause clauses ih =>
          rw [List.forall_mem_cons] at hclause
          rw [List.map_cons, List.sum_cons, List.flatMap_cons, Clauses.placeholders_append,
            ih hclause.2]
          exact congrArg (· + _) hclause.1

/-! ### The appends -/

/-- What a parameter is produced for: the name of the field, or the value that the field is
compared with. -/
inductive ParamRole
  | name
  | value
  deriving DecidableEq, Repr

/-- What the placeholders of a left side ask for. -/
def lhsRoles : SqlLhs → List ParamRole
  | .column _ => []
  | .json | .jsonAs _ => [.name]

/-- What the placeholders of a condition ask for, in the order of the text. -/
def atomRoles : SqlAtom → List ParamRole
  | .compare lhs _ => lhsRoles lhs ++ [.value]
  | .isNull lhs => lhsRoles lhs
  | .jsonTextMatches | .xformIdIn => [.value]
  | .idNotIn count => List.replicate count .value
  | .notPendingDecryption | .empty => []

@[simp]
theorem length_atomRoles (a : SqlAtom) : (atomRoles a).length = a.arity := by
  cases a with
  | compare lhs op => cases lhs <;> rfl
  | isNull lhs => cases lhs <;> rfl
  | idNotIn count => exact List.length_replicate
  | _ => rfl

/-- The condition of an append, if it has one, and its parameters with what each of them is
produced for. -/
abbrev Append (Cond Param : Type) := Clauses Cond (ParamRole × Param)

/-- The lists are the concatenation of the appends. -/
structure IsConcat {Cond Atom Param : Type} (atoms : Cond → List Atom) (c : Clauses Cond Param)
    (appends : List (Append Atom Param)) : Prop where
  conditions : c.conditions.flatMap atoms = appends.flatMap Clauses.conditions
  params : c.params = (appends.flatMap Clauses.params).map Prod.snd

/-- The placeholders of the append ask for what its parameters are produced for. -/
def RolesMatch (part : Append SqlAtom SqlParam) : Prop :=
  part.conditions.flatMap atomRoles = part.params.map Prod.fst

/-- The conditions of the append are plain. -/
def Plain (part : Append SqlAtom SqlParam) : Prop :=
  ∀ a ∈ part.conditions, PlainAtom a

/-- The lists are the concatenation of plain appends, which all match exactly when the source of
the lists is known. -/
structure Splits {Cond : Type} (atoms : Cond → List SqlAtom) (c : Clauses Cond SqlParam)
    (parts : List (Append SqlAtom SqlParam)) (known : Prop) : Prop where
  isConcat : IsConcat atoms c parts
  plain : ∀ part ∈ parts, Plain part
  matched_iff : (∀ part ∈ parts, RolesMatch part) ↔ known

theorem IsConcat.append {Cond Atom Param : Type} {atoms : Cond → List Atom}
    {c d : Clauses Cond Param} {parts more : List (Append Atom Param)}
    (hc : IsConcat atoms c parts) (hd : IsConcat atoms d more) :
    IsConcat atoms (c.append d) (parts ++ more) := by
  constructor
  · show (c.conditions ++ d.conditions).flatMap atoms = _
    rw [List.flatMap_append, List.flatMap_append, hc.conditions, hd.conditions]
  · show c.params ++ d.params = _
    rw [List.flatMap_append, List.map_append, hc.params, hd.params]

/-- No append. -/
theorem splits_nil {Cond : Type} {atoms : Cond → List SqlAtom} {known : Prop} (h : known) :
    Splits atoms ({} : Clauses Cond SqlParam) [] known :=
  ⟨⟨rfl, rfl⟩, fun _ hpart => absurd hpart List.not_mem_nil,
    iff_of_true (fun _ hpart => absurd hpart List.not_mem_nil) h⟩

/-- The appends of two parts. -/
theorem Splits.append {Cond : Type} {atoms : Cond → List SqlAtom} {c d : Clauses Cond SqlParam}
    {parts more : List (Append SqlAtom SqlParam)} {known known' : Prop}
    (hc : Splits atoms c parts known) (hd : Splits atoms d more known') :
    Splits atoms (c.append d) (parts ++ more) (known ∧ known') := by
  refine ⟨hc.isConcat.append hd.isConcat, fun part hpart => ?_, ?_⟩
  · exact (List.mem_append.mp hpart).elim (hc.plain part) (hd.plain part)
  · rw [← hc.matched_iff, ← hd.matched_iff]
    exact List.forall_mem_append

/-- The same appends under conditions of another kind, and another account of their source. -/
theorem Splits.mono {Cond Cond' : Type} {atoms : Cond → List SqlAtom}
    {atoms' : Cond' → List SqlAtom} {c : Clauses Cond SqlParam} {d : Clauses Cond' SqlParam}
    {parts : List (Append SqlAtom SqlParam)} {known known' : Prop} (h : Splits atoms c parts known)
    (hconditions : d.conditions.flatMap atoms' = c.conditions.flatMap atoms)
    (hparams : d.params = c.params) (hknown : known ↔ known') : Splits atoms' d parts known' :=
  ⟨⟨hconditions.trans h.isConcat.conditions, hparams.trans h.isConcat.params⟩, h.plain,
    h.matched_iff.trans hknown⟩

/-- The appends of the rounds of a loop. -/
theorem splits_mapM {A Cond : Type} {atoms : Cond → List SqlAtom}
    {f : A → Except PyError (Clauses Cond SqlParam)}
    {g : A → Except PyError (List (Append SqlAtom SqlParam))} {known : A → Prop}
    (hround : ∀ x c, f x = .ok c → ∃ parts, g x = .ok parts ∧ Splits atoms c parts (known x))
    {xs : List A} {cs : List (Clauses Cond SqlParam)} (h : xs.mapM f = .ok cs) :
    ∃ partss, xs.mapM g = .ok partss ∧
      Splits atoms (Clauses.concat cs) partss.flatten (∀ x ∈ xs, known x) := by
  rw [mapM_eq_ok] at h
  induction h with
  | nil => exact ⟨[], rfl, splits_nil fun x hx => absurd hx List.not_mem_nil⟩
  | @cons x c xs cs hx _ ih =>
      obtain ⟨parts, hparts, hsplits⟩ := hround x c hx
      obtain ⟨partss, hpartss, hrest⟩ := ih
      refine ⟨parts :: partss, ?_, ?_⟩
      · rw [List.mapM_cons, hparts, hpartss]
        rfl
      · exact (hsplits.append hrest).mono rfl rfl List.forall_mem_cons.symm

/-- One append. -/
theorem splits_single {Cond : Type} {atoms : Cond → List SqlAtom} {c : Clauses Cond SqlParam}
    {part : Append SqlAtom SqlParam} {known : Prop}
    (hconditions : c.conditions.flatMap atoms = part.conditions)
    (hparams : c.params = part.params.map Prod.snd) (hplain : Plain part)
    (hknown : RolesMatch part ↔ known) : Splits atoms c [part] known := by
  refine ⟨⟨?_, ?_⟩, ?_, ?_⟩
  · rw [hconditions, List.flatMap_singleton]
  · rw [hparams, List.flatMap_singleton]
  · exact List.forall_mem_singleton.mpr hplain
  · rw [List.forall_mem_singleton, hknown]

/-- The columns of `NONE_JSON_FIELDS`. -/
theorem plainLhs_noneJsonFields {key column : String} (h : noneJsonFields key = some column) :
    PlainLhs (.column column) := by
  show placeholdersIn column = 0
  unfold noneJsonFields at h
  split at h
  all_goals first
    | cases h
      decide
    | cases h

section Parse
variable (py : PyRuntime) (knownIntegers knownDecimals : List String)

/-- The append for an operator of a field. -/
def appendOfOperator (fieldKey : String) (item : String × PyValue) :
    Except PyError (Append SqlAtom SqlParam) := do
  let text ← operatorText py fieldKey item.2
  match noneJsonFields fieldKey with
  | some column =>
      return ⟨((operands item.1).map fun op => .compare (.column column) op).toList,
        [(.value, .str text)]⟩
  | none =>
      let lhs := jsonSqlStr fieldKey knownIntegers knownDecimals
      return ⟨((operands item.1).map fun op => .compare lhs op).toList,
        [(.name, .str fieldKey), (.value, .str text)]⟩

/-- The append for the value of a field. -/
def appendOfValue (field : String × PyValue) : Append SqlAtom SqlParam :=
  match noneJsonFields field.1, field.2 with
  | some column, _ =>
      ⟨[.compare (.column column) .eq], [(.value, .str (py.text field.2))]⟩
  | none, .none => ⟨[.isNull .json], [(.name, .str field.1)]⟩
  | none, _ =>
      ⟨[.compare .json .eq], [(.name, .str field.1), (.value, .str (py.text field.2))]⟩

/-- The appends for a field of a query: one for each operator, or one for its value. -/
def appendsOfField (field : String × PyValue) : Except PyError (List (Append SqlAtom SqlParam)) :=
  match field.2 with
  | .dict operators => operators.mapM (appendOfOperator py knownIntegers knownDecimals field.1)
  | _ => return [appendOfValue py field]

/-- The appends of `_parse_where`. -/
def appendsOfWhere (query : PyValue) : Except PyError (List (Append SqlAtom SqlParam)) :=
  match query with
  | .dict fields => do
      let partss ← fields.mapM (appendsOfField py knownIntegers knownDecimals)
      return partss.flatten
  | _ => throw .attributeError

/-- The appends for a key of an `$or` clause. -/
def appendsOfOrItem (orQuery : List (String × PyValue)) (item : String × PyValue) :
    Except PyError (List (Append SqlAtom SqlParam)) :=
  match noneJsonFields item.1, item.2 with
  | some _, _ => appendsOfWhere py knownIntegers knownDecimals (.dict orQuery)
  | none, .none => return [⟨[.isNull .json], [(.name, .str item.1)]⟩]
  | none, .list items =>
      return items.map fun value =>
        ⟨[.compare .json .eq], [(.name, .str item.1), (.value, .value value)]⟩
  | none, value =>
      return [⟨[.compare .json .eq], [(.name, .str item.1), (.value, .value value)]⟩]

/-- The appends for an `$or` clause. -/
def appendsOfOrQuery (orQuery : PyValue) : Except PyError (List (Append SqlAtom SqlParam)) :=
  match orQuery with
  | .dict items => do
      let partss ← items.mapM (appendsOfOrItem py knownIntegers knownDecimals items)
      return partss.flatten
  | _ => throw .attributeError

/-- The appends for the `$or` part of a query. -/
def appendsOfOr (orDict : Option PyValue) : Except PyError (List (Append SqlAtom SqlParam)) :=
  match orDict with
  | none => return []
  | some orDict => do
      let clauses ← iterate orDict
      let partss ← clauses.mapM (appendsOfOrQuery py knownIntegers knownDecimals)
      return partss.flatten

/-- The appends for a decoded query: those of the `$or` part come last. -/
def appendsOfQuery (query : PyValue) : Except PyError (List (Append SqlAtom SqlParam)) :=
  match query with
  | .dict fields => do
      let or ← appendsOfOr py knownIntegers knownDecimals (Dict.get? fields "$or")
      let parts ← appendsOfWhere py knownIntegers knownDecimals (.dict (Dict.erase fields "$or"))
      return parts ++ or
  | _ => throw .attributeError

/-! ### Known operators -/

/-- The operators of the fields are in `OPERANDS`. -/
def OperatorsKnown (fields : List (String × PyValue)) : Prop :=
  ∀ field ∈ fields, ∀ operators, field.2 = .dict operators →
    ∀ item ∈ operators, operands item.1 ≠ none

/-- The operators of an `$or` clause are in `OPERANDS`, if the clause has a field that is not read
from the JSON. The other clauses have no operators. -/
def OrOperatorsKnown (orQuery : PyValue) : Prop :=
  ∀ items, orQuery = .dict items → (∃ item ∈ items, noneJsonFields item.1 ≠ none) →
    OperatorsKnown items

/-- The left side of a JSON field is plain, and its placeholder asks for the name. -/
theorem plainLhs_jsonSqlStr (key : String) :
    PlainLhs (jsonSqlStr key knownIntegers knownDecimals) := by
  unfold jsonSqlStr
  split_ifs
  · exact (by decide : placeholdersIn "INT" = 0)
  · exact (by decide : placeholdersIn "TIMESTAMP" = 0)
  · exact (by decide : placeholdersIn "DECIMAL" = 0)
  · exact trivial

theorem lhsRoles_jsonSqlStr (key : String) :
    lhsRoles (jsonSqlStr key knownIntegers knownDecimals) = [.name] := by
  unfold jsonSqlStr
  split_ifs <;> rfl

/-- An append for an operator has a condition exactly when the operator is in `OPERANDS`. -/
theorem matched_operator_iff {lhs : SqlLhs} (hlhs : PlainLhs lhs) (op : Option SqlOp)
    {params : List (ParamRole × SqlParam)} (hparams : params ≠ [])
    (hroles : params.map Prod.fst = lhsRoles lhs ++ [.value]) :
    Plain ⟨(op.map fun op => .compare lhs op).toList, params⟩ ∧
      (RolesMatch ⟨(op.map fun op => .compare lhs op).toList, params⟩ ↔ op ≠ none) := by
  cases op with
  | none =>
      refine ⟨fun a ha => absurd ha List.not_mem_nil, ?_⟩
      refine iff_of_false (fun hmatched => hparams ?_) fun hne => hne rfl
      exact List.map_eq_nil_iff.mp (Eq.symm hmatched)
  | some op =>
      refine ⟨List.forall_mem_singleton.mpr hlhs, ?_⟩
      refine iff_of_true ?_ (Option.some_ne_none op)
      show [SqlAtom.compare lhs op].flatMap atomRoles = params.map Prod.fst
      rw [hroles, List.flatMap_singleton]
      rfl

/-- An operator of a field. -/
theorem splits_parseOperator (fieldKey : String) (item : String × PyValue)
    (c : Clauses SqlAtom SqlParam)
    (h : parseOperator py knownIntegers knownDecimals fieldKey item = .ok c) :
    ∃ part, appendOfOperator py knownIntegers knownDecimals fieldKey item = .ok part ∧
      Splits (fun a => [a]) c [part] (operands item.1 ≠ none) := by
  obtain ⟨key, value⟩ := item
  simp only [parseOperator, bind_eq_ok] at h
  obtain ⟨text, htext, h⟩ := h
  split at h
  · rename_i column hcolumn
    obtain rfl := pure_eq_ok.mp h
    have hpart := matched_operator_iff (plainLhs_noneJsonFields hcolumn) (operands key)
      (List.cons_ne_nil (.value, .str text) []) rfl
    refine ⟨_, ?_, splits_single (List.flatMap_singleton' _) rfl hpart.1 hpart.2⟩
    unfold appendOfOperator
    rw [htext, hcolumn]
    rfl
  · rename_i hcolumn
    obtain rfl := pure_eq_ok.mp h
    have hroles := lhsRoles_jsonSqlStr knownIntegers knownDecimals fieldKey
    have hpart := matched_operator_iff
      (plainLhs_jsonSqlStr knownIntegers knownDecimals fieldKey) (operands key)
      (List.cons_ne_nil (.name, .str fieldKey) [(.value, .str text)]) (by rw [hroles]; rfl)
    refine ⟨_, ?_, splits_single (List.flatMap_singleton' _) rfl hpart.1 hpart.2⟩
    unfold appendOfOperator
    rw [htext, hcolumn]
    rfl

/-- The text comparison of a JSON field. -/
theorem plain_compareJson (key : String) (param : SqlParam) :
    Plain ⟨[.compare .json .eq], [(.name, .str key), (.value, param)]⟩ ∧
      RolesMatch ⟨[.compare .json .eq], [(.name, .str key), (.value, param)]⟩ :=
  ⟨List.forall_mem_singleton.mpr trivial, rfl⟩

/-- The test of a JSON field for null. -/
theorem plain_isNullJson (key : String) :
    Plain ⟨[.isNull .json], [(.name, .str key)]⟩ ∧
      RolesMatch ⟨[.isNull .json], [(.name, .str key)]⟩ :=
  ⟨List.forall_mem_singleton.mpr trivial, rfl⟩

/-- The value of a field. -/
theorem splits_value (key : String) (value : PyValue) (c : Clauses SqlAtom SqlParam)
    (hdict : ∀ operators, value ≠ .dict operators)
    (h : parseField py knownIntegers knownDecimals (key, value) = .ok c) :
    Splits (fun a => [a]) c [appendOfValue py (key, value)] True := by
  have hok : parseField py knownIntegers knownDecimals (key, value) =
      .ok ⟨(appendOfValue py (key, value)).conditions,
        (appendOfValue py (key, value)).params.map Prod.snd⟩ := by
    simp only [parseField, appendOfValue]
    cases value with
    | dict operators => exact absurd rfl (hdict operators)
    | _ => cases noneJsonFields key <;> rfl
  obtain rfl := Except.ok.inj (hok.symm.trans h)
  have hpart : Plain (appendOfValue py (key, value)) ∧
      RolesMatch (appendOfValue py (key, value)) := by
    unfold appendOfValue
    split
    · rename_i column hcolumn
      have hplain : PlainLhs (.column column) := plainLhs_noneJsonFields hcolumn
      exact ⟨List.forall_mem_singleton.mpr hplain, rfl⟩
    · exact plain_isNullJson key
    · exact plain_compareJson key _
  exact splits_single (List.flatMap_singleton' _) rfl hpart.1 (iff_of_true hpart.2 trivial)

/-- The appends of a field. -/
theorem splits_parseField (field : String × PyValue) (c : Clauses SqlAtom SqlParam)
    (h : parseField py knownIntegers knownDecimals field = .ok c) :
    ∃ parts, appendsOfField py knownIntegers knownDecimals field = .ok parts ∧
      Splits (fun a => [a]) c parts
        (∀ operators, field.2 = .dict operators →
          ∀ item ∈ operators, operands item.1 ≠ none) := by
  obtain ⟨key, value⟩ := field
  by_cases hdict : ∃ operators, value = .dict operators
  · obtain ⟨operators, rfl⟩ := hdict
    simp only [parseField, bind_eq_ok, pure_eq_ok] at h
    obtain ⟨cs, hcs, rfl⟩ := h
    have hround : ∀ item c, parseOperator py knownIntegers knownDecimals key item = .ok c →
        ∃ parts, ((appendOfOperator py knownIntegers knownDecimals key item).map
            fun part => [part]) = .ok parts ∧
          Splits (fun a => [a]) c parts (operands item.1 ≠ none) := by
      intro item c hitem
      obtain ⟨part, hpart, hsplits⟩ :=
        splits_parseOperator py knownIntegers knownDecimals key item c hitem
      exact ⟨[part], by rw [hpart]; rfl, hsplits⟩
    obtain ⟨partss, hpartss, hsplits⟩ := splits_mapM hround hcs
    rw [mapM_map, map_eq_ok] at hpartss
    obtain ⟨parts, hparts, rfl⟩ := hpartss
    refine ⟨parts, hparts, ?_⟩
    rw [← List.flatMap_def, List.flatMap_singleton'] at hsplits
    refine hsplits.mono rfl rfl ⟨?_, fun hknown => hknown operators rfl⟩
    rintro hknown _ ⟨⟩
    exact hknown
  · have hnot : ∀ operators, value ≠ .dict operators := fun operators hvalue =>
      hdict ⟨operators, hvalue⟩
    refine ⟨[appendOfValue py (key, value)], ?_, ?_⟩
    · unfold appendsOfField
      split
      · rename_i operators hoperators
        exact absurd hoperators (hnot operators)
      · rfl
    · refine (splits_value py knownIntegers knownDecimals key value c hnot h).mono rfl rfl ?_
      exact iff_of_true trivial fun operators hoperators => absurd hoperators (hnot operators)

/-- The appends of `_parse_where`. -/
theorem splits_parseWhere (fields : List (String × PyValue)) (c : Clauses SqlAtom SqlParam)
    (h : parseWhere py knownIntegers knownDecimals (.dict fields) = .ok c) :
    ∃ parts, appendsOfWhere py knownIntegers knownDecimals (.dict fields) = .ok parts ∧
      Splits (fun a => [a]) c parts (OperatorsKnown fields) := by
  simp only [parseWhere, bind_eq_ok, pure_eq_ok] at h
  obtain ⟨cs, hcs, rfl⟩ := h
  obtain ⟨partss, hpartss, hsplits⟩ :=
    splits_mapM (splits_parseField py knownIntegers knownDecimals) hcs
  refine ⟨partss.flatten, ?_, hsplits⟩
  simp only [appendsOfWhere, hpartss]
  rfl

/-- The values of a list in an `$or` clause: one append for each of them. -/
theorem splits_orItems (key : String) (items : List PyValue) :
    Splits orAtoms
      (Clauses.concat (items.map fun item =>
        (⟨[.atom (.compare .json .eq)], [.str key, .value item]⟩ : Clauses OrClause SqlParam)))
      (items.map fun value => ⟨[.compare .json .eq], [(.name, .str key), (.value, .value value)]⟩)
      True := by
  induction items with
  | nil => exact splits_nil trivial
  | cons item items ih =>
      have hpart := plain_compareJson key (.value item)
      have hfirst : Splits orAtoms ⟨[.atom (.compare .json .eq)], [.str key, .value item]⟩ _ True :=
        splits_single rfl rfl hpart.1 (iff_of_true hpart.2 trivial)
      exact (hfirst.append ih).mono rfl rfl (and_self_iff)

/-- The appends for a key of an `$or` clause. -/
theorem splits_parseOrItem (orQuery : List (String × PyValue)) (item : String × PyValue)
    (c : Clauses OrClause SqlParam)
    (h : parseOrItem py knownIntegers knownDecimals orQuery item = .ok c) :
    ∃ parts, appendsOfOrItem py knownIntegers knownDecimals orQuery item = .ok parts ∧
      Splits orAtoms c parts (noneJsonFields item.1 ≠ none → OperatorsKnown orQuery) := by
  obtain ⟨key, value⟩ := item
  simp only [parseOrItem] at h
  simp only [appendsOfOrItem]
  split at h
  · rename_i column _ hcolumn
    simp only [bind_eq_ok, pure_eq_ok] at h
    obtain ⟨clauses, hclauses, rfl⟩ := h
    obtain ⟨parts, hparts, hsplits⟩ :=
      splits_parseWhere py knownIntegers knownDecimals orQuery clauses hclauses
    simp only [hcolumn]
    refine ⟨parts, hparts, hsplits.mono ?_ rfl ?_⟩
    · simp [orAtoms]
    · simp
  · rename_i hnone
    obtain rfl := pure_eq_ok.mp h
    simp only [hnone]
    have hpart := plain_isNullJson key
    refine ⟨_, rfl, splits_single rfl rfl hpart.1 ?_⟩
    exact iff_of_true hpart.2 fun hsome => absurd rfl hsome
  · rename_i items hnone
    obtain rfl := pure_eq_ok.mp h
    simp only [hnone]
    refine ⟨_, rfl, (splits_orItems key items).mono rfl rfl ?_⟩
    exact iff_of_true trivial fun hsome => absurd rfl hsome
  · rename_i hnone _ _
    obtain rfl := pure_eq_ok.mp h
    simp only [hnone]
    refine ⟨_, rfl, splits_single rfl rfl (plain_compareJson key _).1 ?_⟩
    exact iff_of_true (plain_compareJson key _).2 fun hsome => absurd rfl hsome

/-- The appends for an `$or` clause. -/
theorem splits_parseOrQuery (orQuery : PyValue) (c : Clauses OrClause SqlParam)
    (h : parseOrQuery py knownIntegers knownDecimals orQuery = .ok c) :
    ∃ parts, appendsOfOrQuery py knownIntegers knownDecimals orQuery = .ok parts ∧
      Splits orAtoms c parts (OrOperatorsKnown orQuery) := by
  unfold parseOrQuery at h
  split at h
  · rename_i items
    simp only [bind_eq_ok, pure_eq_ok] at h
    obtain ⟨cs, hcs, rfl⟩ := h
    obtain ⟨partss, hpartss, hsplits⟩ :=
      splits_mapM (splits_parseOrItem py knownIntegers knownDecimals items) hcs
    refine ⟨partss.flatten, ?_, hsplits.mono rfl rfl ?_⟩
    · simp only [appendsOfOrQuery, hpartss]
      rfl
    · constructor
      · rintro hknown _ ⟨⟩ ⟨item, hitem, hcolumn⟩
        exact hknown item hitem hcolumn
      · exact fun hknown item hitem hcolumn => hknown items rfl ⟨item, hitem, hcolumn⟩
  · exact absurd h throw_ne_ok

/-- The operators of the clauses of an `$or` value are in `OPERANDS`. -/
def OrDictKnown (orDict : Option PyValue) : Prop :=
  ∀ value ∈ orDict, ∀ clauses, iterate value = .ok clauses →
    ∀ clause ∈ clauses, OrOperatorsKnown clause

/-- The appends for the `$or` part, which is one fragment. -/
theorem splits_parseOr (orDict : Option PyValue) (c : Clauses WhereSql SqlParam)
    (h : parseOr py knownIntegers knownDecimals orDict = .ok c) :
    ∃ parts, appendsOfOr py knownIntegers knownDecimals orDict = .ok parts ∧
      Splits fragmentAtoms c parts (OrDictKnown orDict) := by
  cases orDict with
  | none =>
      rw [parseOr, pure_eq_ok] at h
      exact ⟨[], rfl, h ▸ splits_nil (by rintro _ ⟨⟩)⟩
  | some value =>
      simp only [parseOr, bind_eq_ok, pure_eq_ok] at h
      obtain ⟨clauses, hclauses, cs, hcs, rfl⟩ := h
      obtain ⟨partss, hpartss, hsplits⟩ :=
        splits_mapM (splits_parseOrQuery py knownIntegers knownDecimals) hcs
      refine ⟨partss.flatten, ?_, hsplits.mono ?_ rfl ?_⟩
      · rw [appendsOfOr, hclauses]
        show (clauses.mapM (appendsOfOrQuery py knownIntegers knownDecimals) >>= fun partss =>
          pure partss.flatten) = _
        rw [hpartss]
        rfl
      · simp [fragmentAtoms]
      · constructor
        · rintro hknown _ ⟨⟩ clauses' hclauses'
          rw [hclauses] at hclauses'
          exact Except.ok.inj hclauses' ▸ hknown
        · exact fun hknown => hknown value rfl clauses hclauses

/-- The appends for a decoded query that can be parsed. -/
theorem splits_parseQuery (fields : List (String × PyValue)) (c : Clauses WhereSql SqlParam)
    (h : parseQuery py knownIntegers knownDecimals (.dict fields) = .ok c) :
    ∃ parts, appendsOfQuery py knownIntegers knownDecimals (.dict fields) = .ok parts ∧
      Splits fragmentAtoms c parts
        (OperatorsKnown (Dict.erase fields "$or") ∧ OrDictKnown (Dict.get? fields "$or")) := by
  simp only [parseQuery, bind_eq_ok, pure_eq_ok] at h
  obtain ⟨or, hor, clauses, hclauses, rfl⟩ := h
  obtain ⟨orParts, horParts, horSplits⟩ :=
    splits_parseOr py knownIntegers knownDecimals _ or hor
  obtain ⟨parts, hparts, hsplits⟩ :=
    splits_parseWhere py knownIntegers knownDecimals _ clauses hclauses
  have hatoms : Splits fragmentAtoms (clauses.mapConditions .atom) parts _ :=
    hsplits.mono (List.flatMap_map ..) rfl Iff.rfl
  refine ⟨parts ++ orParts, ?_, hatoms.append horSplits⟩
  simp only [appendsOfQuery, horParts, hparts]
  rfl

/-! ### The text search -/

/-- The exceptions that `get_where_clause` catches. -/
def IsCaught (error : PyError) : Prop :=
  error = .valueError ∨ error = .attributeError

/-- What a field of a query raises is not caught. -/
theorem not_isCaught_parseField (field : String × PyValue) (e : PyError)
    (h : parseField py knownIntegers knownDecimals field = .error e) : ¬ IsCaught e := by
  obtain ⟨key, value⟩ := field
  simp only [parseField] at h
  split at h
  · rcases bind_eq_error.mp h with h | ⟨_, _, h⟩
    · obtain ⟨item, -, h⟩ := exists_of_mapM_eq_error h
      obtain ⟨op, value⟩ := item
      simp only [parseOperator] at h
      rcases bind_eq_error.mp h with h | ⟨_, _, h⟩
      · unfold operatorText at h
        split at h
        · split at h
          · split at h
            · cases h
            · cases h
              simp [IsCaught]
          · cases h
            simp [IsCaught]
        · cases h
      · split at h <;> cases h
    · cases h
  · split at h <;> cases h

/-- What `_parse_where` raises on a dict is not caught. -/
theorem not_isCaught_parseWhere (fields : List (String × PyValue)) (e : PyError)
    (h : parseWhere py knownIntegers knownDecimals (.dict fields) = .error e) :
    ¬ IsCaught e := by
  simp only [parseWhere] at h
  rcases bind_eq_error.mp h with h | ⟨_, _, h⟩
  · obtain ⟨field, -, h⟩ := exists_of_mapM_eq_error h
    exact not_isCaught_parseField py knownIntegers knownDecimals field e h
  · cases h

/-- What an `$or` clause raises is caught only if the clause is not a dict. -/
theorem isDict_of_isCaught_parseOrQuery (orQuery : PyValue) (e : PyError)
    (h : parseOrQuery py knownIntegers knownDecimals orQuery = .error e) (he : IsCaught e) :
    orQuery.isDict = false := by
  unfold parseOrQuery at h
  split at h
  · rename_i items
    rcases bind_eq_error.mp h with h | ⟨_, _, h⟩
    · obtain ⟨item, -, h⟩ := exists_of_mapM_eq_error h
      obtain ⟨key, value⟩ := item
      simp only [parseOrItem] at h
      split at h
      · rcases bind_eq_error.mp h with h | ⟨_, _, h⟩
        · exact absurd he (not_isCaught_parseWhere py knownIntegers knownDecimals items e h)
        · cases h
      · cases h
      · cases h
      · cases h
    · cases h
  · rename_i hnot
    cases orQuery with
    | dict items => exact absurd rfl (hnot items)
    | _ => rfl

/-- The query has an `$or` value with a clause that is not a dict. -/
def OrClauseNotDict (fields : List (String × PyValue)) : Prop :=
  ∃ value ∈ Dict.get? fields "$or", ∃ clauses, iterate value = .ok clauses ∧
    ∃ clause ∈ clauses, clause.isDict = false

/-- What a dict raises is caught only if it has an `$or` clause that is not a dict. -/
theorem orClauseNotDict_of_isCaught (fields : List (String × PyValue)) (e : PyError)
    (h : parseQuery py knownIntegers knownDecimals (.dict fields) = .error e)
    (he : IsCaught e) : OrClauseNotDict fields := by
  simp only [parseQuery] at h
  rcases bind_eq_error.mp h with h | ⟨_, _, h⟩
  · cases hor : Dict.get? fields "$or" with
    | none =>
        rw [hor] at h
        cases h
    | some value =>
        rw [hor] at h
        simp only [parseOr] at h
        rcases bind_eq_error.mp h with h | ⟨clauses, hclauses, h⟩
        · unfold iterate at h
          split at h <;> cases h
          exact absurd he (by simp [IsCaught])
        · rcases bind_eq_error.mp h with h | ⟨_, _, h⟩
          · obtain ⟨clause, hclause, h⟩ := exists_of_mapM_eq_error h
            exact ⟨value, hor, clauses, hclauses, clause, hclause,
              isDict_of_isCaught_parseOrQuery py knownIntegers knownDecimals clause e h he⟩
          · cases h
  · rcases bind_eq_error.mp h with h | ⟨_, _, h⟩
    · exact absurd he (not_isCaught_parseWhere py knownIntegers knownDecimals _ e h)
    · cases h

/-- A dict that can be parsed has no `$or` clause that is not a dict. -/
theorem not_orClauseNotDict (fields : List (String × PyValue)) (c : Clauses WhereSql SqlParam)
    (h : parseQuery py knownIntegers knownDecimals (.dict fields) = .ok c) :
    ¬ OrClauseNotDict fields := by
  rintro ⟨value, hvalue, clauses, hclauses, clause, hclause, hnot⟩
  have hvalue : Dict.get? fields "$or" = some value := hvalue
  simp only [parseQuery, parseOr, hvalue, bind_eq_ok] at h
  obtain ⟨or, ⟨clauses', hclauses', cs, hcs, -⟩, -⟩ := h
  obtain rfl : clauses = clauses' := Except.ok.inj (hclauses.symm.trans hclauses')
  obtain ⟨c, -, hc⟩ := mem_mapM_of_mem hcs hclause
  unfold parseOrQuery at hc
  split at hc
  · cases hnot
  · exact throw_ne_ok hc

/-- The query that is parsed has known operators, or it is searched as a text. -/
def QueryKnown : PyValue → Prop
  | .dict fields =>
      OrClauseNotDict fields ∨
        OperatorsKnown (Dict.erase fields "$or") ∧ OrDictKnown (Dict.get? fields "$or")
  | _ => True

/-- The append of the text search. -/
def searchAppends (query : PyValue) (error : PyError) :
    Except PyError (List (Append SqlAtom SqlParam)) :=
  (searchAsText query error).map fun c =>
    [⟨[.jsonTextMatches], c.params.map fun param => (.value, param)⟩]

/-- The appends for a decoded query. -/
def appendsOfQueryOrSearch (query : PyValue) :
    Except PyError (List (Append SqlAtom SqlParam)) :=
  match parseQuery py knownIntegers knownDecimals query with
  | .ok _ => appendsOfQuery py knownIntegers knownDecimals query
  | .error error => searchAppends (popOr query) error

/-- The text search has one append. -/
theorem splits_searchAsText {query : PyValue} {error : PyError} {c : Clauses WhereSql SqlParam}
    (h : searchAsText query error = .ok c) :
    ∃ parts, searchAppends query error = .ok parts ∧ Splits fragmentAtoms c parts True := by
  refine ⟨_, by rw [searchAppends, h]; rfl, ?_⟩
  rw [searchAsText_eq_ok h]
  exact splits_single rfl rfl (List.forall_mem_singleton.mpr trivial) (iff_of_true rfl trivial)

/-- The text search comes from a caught exception. -/
theorem isCaught_of_searchAsText {query : PyValue} {error : PyError}
    {c : Clauses WhereSql SqlParam} (h : searchAsText query error = .ok c) : IsCaught error := by
  unfold searchAsText at h
  split at h
  · exact absurd h throw_ne_ok
  · rename_i hcaught
    by_contra hnot
    exact hcaught (not_or.mp hnot)

/-- The appends for a decoded query. -/
theorem splits_parseQueryOrSearch (query : PyValue) (c : Clauses WhereSql SqlParam)
    (h : parseQueryOrSearch py knownIntegers knownDecimals query = .ok c) :
    ∃ parts, appendsOfQueryOrSearch py knownIntegers knownDecimals query = .ok parts ∧
      Splits fragmentAtoms c parts (QueryKnown query) := by
  unfold parseQueryOrSearch at h
  unfold appendsOfQueryOrSearch
  cases hparse : parseQuery py knownIntegers knownDecimals query with
  | ok clauses =>
      rw [hparse] at h
      obtain rfl : clauses = c := pure_eq_ok.mp h
      cases query with
      | dict fields =>
          obtain ⟨parts, hparts, hsplits⟩ :=
            splits_parseQuery py knownIntegers knownDecimals fields clauses hparse
          have hnot := not_orClauseNotDict py knownIntegers knownDecimals fields clauses hparse
          exact ⟨parts, hparts, hsplits.mono rfl rfl (or_iff_right hnot).symm⟩
      | _ => exact absurd hparse throw_ne_ok
  | error error =>
      rw [hparse] at h
      obtain ⟨parts, hparts, hsplits⟩ := splits_searchAsText h
      refine ⟨parts, hparts, hsplits.mono rfl rfl (iff_of_true trivial ?_)⟩
      cases query with
      | dict fields =>
          exact .inl (orClauseNotDict_of_isCaught py knownIntegers knownDecimals fields error
            hparse (isCaught_of_searchAsText h))
      | _ => exact trivial

end Parse

/-! ### `get_where_clause` -/

/-- The query after `json.loads`. -/
def decodedQuery (py : PyRuntime) : PyValue → Except PyError PyValue
  | .str s => (py.jsonLoads s).map (RawJson.decode mergeDuplicateKeys)
  | query => .ok query

/-- The fragments of the query after `json.loads`. -/
def whereOfDecoded (py : PyRuntime) (query : PyValue) (integers decimals : List String) :
    Except PyError PyValue → Except PyError (Clauses WhereSql SqlParam)
  | .error error => searchAsText query error
  | .ok (.list []) => throw .indexError
  | .ok (.list (first :: _)) => parseQueryOrSearch py ("_id" :: integers) decimals first
  | .ok decoded => parseQueryOrSearch py ("_id" :: integers) decimals decoded

theorem getWhereClause_of_read {py : PyRuntime} {query : PyValue} {integers decimals : List String}
    (h : (query.truthy && (query.isDict || query.isStr)) = true) :
    getWhereClause py query integers decimals =
      whereOfDecoded py query integers decimals (decodedQuery py query) := by
  unfold getWhereClause
  rw [h]
  cases query <;> rfl

/-- The appends of the query after `json.loads`. -/
def appendsOfDecoded (py : PyRuntime) (query : PyValue) (integers decimals : List String) :
    Except PyError PyValue → Except PyError (List (Append SqlAtom SqlParam))
  | .error error => searchAppends query error
  | .ok (.list []) => throw .indexError
  | .ok (.list (first :: _)) => appendsOfQueryOrSearch py ("_id" :: integers) decimals first
  | .ok decoded => appendsOfQueryOrSearch py ("_id" :: integers) decimals decoded

/-- The appends of `get_where_clause`. -/
def appendsOfWhereClause (py : PyRuntime) (query : PyValue)
    (formIntegerFields formDecimalFields : List String) :
    Except PyError (List (Append SqlAtom SqlParam)) :=
  if !(query.truthy && (query.isDict || query.isStr)) then return []
  else appendsOfDecoded py query formIntegerFields formDecimalFields (decodedQuery py query)

/-- The dict that `get_where_clause` parses: the first one of a list. -/
def chosenQuery : PyValue → PyValue
  | .list (first :: _) => first
  | decoded => decoded

/-- The operators of the query are in `OPERANDS`, if it is not searched as a text. -/
def WhereKnown (py : PyRuntime) (query : PyValue) : Prop :=
  (query.truthy && (query.isDict || query.isStr)) = true →
    ∀ decoded, decodedQuery py query = .ok decoded → QueryKnown (chosenQuery decoded)

/-- The appends of the query after `json.loads`. -/
theorem splits_whereOfDecoded (py : PyRuntime) (query : PyValue) (integers decimals : List String)
    (decoded : Except PyError PyValue) (c : Clauses WhereSql SqlParam)
    (h : whereOfDecoded py query integers decimals decoded = .ok c) :
    ∃ parts, appendsOfDecoded py query integers decimals decoded = .ok parts ∧
      Splits fragmentAtoms c parts
        (∀ value, decoded = .ok value → QueryKnown (chosenQuery value)) := by
  have hchosen : ∀ value, decoded = .ok value →
      parseQueryOrSearch py ("_id" :: integers) decimals (chosenQuery value) = .ok c →
      ∃ parts, appendsOfQueryOrSearch py ("_id" :: integers) decimals (chosenQuery value) =
        .ok parts ∧ Splits fragmentAtoms c parts
          (∀ value, decoded = .ok value → QueryKnown (chosenQuery value)) := by
    intro value hvalue hparse
    obtain ⟨parts, hparts, hsplits⟩ :=
      splits_parseQueryOrSearch py ("_id" :: integers) decimals _ c hparse
    refine ⟨parts, hparts, hsplits.mono rfl rfl ⟨fun hknown value' hvalue' => ?_, ?_⟩⟩
    · exact Except.ok.inj (hvalue.symm.trans hvalue') ▸ hknown
    · exact fun hknown => hknown value hvalue
  cases decoded with
  | error error =>
      obtain ⟨parts, hparts, hsplits⟩ := splits_searchAsText h
      refine ⟨parts, hparts, hsplits.mono rfl rfl ?_⟩
      exact iff_of_true trivial fun value hvalue => by cases hvalue
  | ok value =>
      cases value with
      | list items =>
          cases items with
          | nil => exact absurd h throw_ne_ok
          | cons first rest => exact hchosen _ rfl h
      | _ => exact hchosen _ rfl h

/-- The appends of `get_where_clause`. -/
theorem splits_getWhereClause (py : PyRuntime) (query : PyValue) (integers decimals : List String)
    (c : Clauses WhereSql SqlParam) (h : getWhereClause py query integers decimals = .ok c) :
    ∃ parts, appendsOfWhereClause py query integers decimals = .ok parts ∧
      Splits fragmentAtoms c parts (WhereKnown py query) := by
  by_cases hread : (query.truthy && (query.isDict || query.isStr)) = true
  · rw [getWhereClause_of_read hread] at h
    obtain ⟨parts, hparts, hsplits⟩ := splits_whereOfDecoded py query integers decimals _ c h
    refine ⟨parts, ?_, hsplits.mono rfl rfl ⟨fun hknown _ => hknown, fun hknown => hknown hread⟩⟩
    unfold appendsOfWhereClause
    rw [hread]
    exact hparts
  · unfold getWhereClause at h
    unfold appendsOfWhereClause
    simp only [hread, Bool.not_false, if_true] at h ⊢
    obtain rfl := pure_eq_ok.mp h
    exact ⟨[], rfl, splits_nil fun h => absurd h hread⟩

/-! ### The filters of a DataView -/

/-- The comparisons of a condition, in the order of the text. -/
def comparisonsOf : DataViewWhere → List WhereComparison
  | .compare c => [c]
  | .any cs => cs

/-- What the placeholders of a comparison ask for. -/
def comparisonRoles (_ : WhereComparison) : List ParamRole :=
  [.name, .value]

theorem placeholdersIn_renderComparison (c : WhereComparison) : placeholdersIn c.render = 2 := by
  obtain ⟨lhs, op⟩ := c
  cases lhs <;> cases op <;> decide

/-- The placeholders of a condition of a DataView are the `%s` of its text. -/
theorem placeholdersIn_renderDataView (condition : DataViewWhere) :
    placeholdersIn condition.render =
      ((comparisonsOf condition).flatMap comparisonRoles).length := by
  rw [List.length_flatMap]
  cases condition with
  | compare c => exact placeholdersIn_renderComparison c
  | any cs =>
      show placeholdersIn ("(" ++ " OR ".intercalate (cs.map WhereComparison.render) ++ ")") = _
      rw [placeholdersIn_parentheses (by decide), List.map_map]
      exact congrArg List.sum
        (List.map_congr_left fun c _ => placeholdersIn_renderComparison c)

section Filters
variable (fields : KnownFields) (py : PyRuntime)

/-- The append for a filter, and whether it belongs to the `OR` part. -/
def appendOfFilter (query : PyValue) :
    Except PyError (Bool × Append WhereComparison PyValue) :=
  match query with
  | .dict items => do
      let comp := getItem items "filter"
      let column := getItem items "column"
      let text ← fields.filterText py comp (getItem items "value")
      let isOr ← isOrCondition (getItem items "condition")
      return (isOr,
        ⟨((comparatorOp comp).map fun op => ⟨fields.jsonSqlStrOf column, op⟩).toList,
          [(.name, column), (.value, .str text)]⟩)
  | _ => throw .attributeError

/-- The appends that belong to the `OR` part, or those that do not. -/
def ofBranch (isOr : Bool) (parts : List (Bool × Append WhereComparison PyValue)) :
    List (Append WhereComparison PyValue) :=
  (parts.filter fun part => part.1 == isOr).map Prod.snd

/-- The appends of `DataView._get_where_clause`: those of the `OR` part come last. -/
def appendsOfFilters (queries : List PyValue) :
    Except PyError (List (Append WhereComparison PyValue)) :=
  (queries.mapM (appendOfFilter fields py)).map fun parts =>
    ofBranch false parts ++ ofBranch true parts

/-- The lists with one more append. -/
def addPart (lists : QueryLists) (part : Bool × Append WhereComparison PyValue) : QueryLists :=
  if part.1 then
    { lists with
      orWhere := lists.orWhere ++ part.2.conditions
      orParams := lists.orParams ++ part.2.params.map Prod.snd }
  else
    { lists with
      whereList := lists.whereList ++ part.2.conditions
      whereParams := lists.whereParams ++ part.2.params.map Prod.snd }

/-- `append_where_list` appends the comparison of a known comparator. -/
theorem appendWhereList_eq (comp : PyValue) (tList : List WhereComparison) (lhs : JsonSql) :
    appendWhereList comp tList lhs =
      tList ++ ((comparatorOp comp).map fun op => ⟨lhs, op⟩).toList := by
  unfold appendWhereList
  cases comparatorOp comp with
  | none => exact (List.append_nil tList).symm
  | some op => rfl

/-- A round adds the append of its filter. -/
theorem appendQuery_eq :
    fields.appendQuery py = fun lists query =>
      (appendOfFilter fields py query).map (addPart lists) := by
  funext lists query
  unfold KnownFields.appendQuery appendOfFilter
  cases query with
  | dict items =>
      simp only [appendWhereList_eq]
      cases fields.filterText py (getItem items "filter") (getItem items "value") with
      | error e => rfl
      | ok text =>
          cases isOrCondition (getItem items "condition") with
          | error e => rfl
          | ok isOr => cases isOr <;> rfl
  | _ => rfl

/-- The lists after a loop: behind what they held stand the appends of each branch. -/
theorem foldl_addPart (parts : List (Bool × Append WhereComparison PyValue))
    (lists : QueryLists) :
    parts.foldl addPart lists =
      ⟨lists.whereList ++ (ofBranch false parts).flatMap Clauses.conditions,
        lists.whereParams ++ ((ofBranch false parts).flatMap Clauses.params).map Prod.snd,
        lists.orWhere ++ (ofBranch true parts).flatMap Clauses.conditions,
        lists.orParams ++ ((ofBranch true parts).flatMap Clauses.params).map Prod.snd⟩ := by
  induction parts generalizing lists with
  | nil => simp [ofBranch]
  | cons part parts ih =>
      obtain ⟨isOr, part⟩ := part
      rw [List.foldl_cons, ih]
      cases isOr <;> simp [addPart, ofBranch]

/-- What `DataView._get_where_clause` returns is the concatenation of the appends. -/
theorem isConcat_getWhereClauseOf (queries : List PyValue) (d : Clauses DataViewWhere PyValue)
    (h : fields.getWhereClauseOf py queries = .ok d) :
    ∃ parts, queries.mapM (appendOfFilter fields py) = .ok parts ∧
      IsConcat comparisonsOf d (ofBranch false parts ++ ofBranch true parts) := by
  simp only [KnownFields.getWhereClauseOf, appendQuery_eq, foldlM_map, bind_eq_ok, map_eq_ok,
    pure_eq_ok] at h
  obtain ⟨_, ⟨parts, hparts, rfl⟩, rfl⟩ := h
  refine ⟨parts, hparts, ?_, ?_⟩
  · rw [foldl_addPart]
    simp only [List.nil_append]
    rw [List.flatMap_append, List.flatMap_append, List.flatMap_map]
    congr 1
    · exact List.flatMap_singleton' _
    · -- Without a comparison of the `OR` part there is no condition for it.
      split_ifs with hnil
      · rw [hnil]
        rfl
      · exact List.flatMap_singleton ..
  · rw [foldl_addPart]
    simp only [List.nil_append]
    rw [List.flatMap_append, List.map_append]

/-- The comparators of the filters are in `SUPPORTED_FILTERS`. -/
def ComparatorsKnown (queries : List PyValue) : Prop :=
  ∀ query ∈ queries, ∀ items, query = .dict items → comparatorOp (getItem items "filter") ≠ none

/-- The append of a filter matches exactly when its comparator is known. -/
theorem matched_appendOfFilter {query : PyValue} {part : Bool × Append WhereComparison PyValue}
    (h : appendOfFilter fields py query = .ok part) :
    part.2.conditions.flatMap comparisonRoles = part.2.params.map Prod.fst ↔
      ∀ items, query = .dict items → comparatorOp (getItem items "filter") ≠ none := by
  unfold appendOfFilter at h
  split at h
  · rename_i items
    simp only [bind_eq_ok, pure_eq_ok] at h
    obtain ⟨text, -, isOr, -, rfl⟩ := h
    cases hop : comparatorOp (getItem items "filter") with
    | none =>
        refine iff_of_false (fun h => ?_) fun h => h items rfl hop
        exact absurd h (List.cons_ne_nil _ _).symm
    | some op =>
        refine iff_of_true rfl ?_
        rintro _ ⟨⟩
        rw [hop]
        exact Option.some_ne_none op
  · exact absurd h throw_ne_ok

/-- The appends match exactly when all comparators are known. -/
theorem matched_appendsOfFilters {queries : List PyValue}
    {parts : List (Bool × Append WhereComparison PyValue)}
    (h : queries.mapM (appendOfFilter fields py) = .ok parts) :
    (∀ part ∈ ofBranch false parts ++ ofBranch true parts,
        part.conditions.flatMap comparisonRoles = part.params.map Prod.fst) ↔
      ComparatorsKnown queries := by
  have hmem : ∀ part, part ∈ ofBranch false parts ++ ofBranch true parts ↔
      ∃ tagged ∈ parts, tagged.2 = part := by
    intro part
    simp only [ofBranch, List.mem_append, List.mem_map, List.mem_filter, beq_iff_eq, ← exists_or]
    refine exists_congr fun tagged => ?_
    cases tagged.1 <;> simp
  constructor
  · intro hmatched query hquery
    obtain ⟨part, hpart, hok⟩ := mem_mapM_of_mem h hquery
    exact (matched_appendOfFilter fields py hok).mp
      (hmatched part.2 ((hmem part.2).mpr ⟨part, hpart, rfl⟩))
  · intro hknown part hpart
    obtain ⟨tagged, htagged, rfl⟩ := (hmem part).mp hpart
    obtain ⟨query, hquery, hok⟩ := exists_of_mem_mapM h htagged
    exact (matched_appendOfFilter fields py hok).mpr (hknown query hquery)

end Filters

/-! ### Placeholders and parameters -/

/-- The placeholders in the texts of the fragments are as many as the parameters, and the
placeholder at each position belongs to the append that the parameter at this position was
produced by, and asks for what that was produced for. -/
def PlaceholdersMatch {Cond Param : Type} (roles : Cond → List ParamRole)
    (fragments : List String) (params : List Param) (appends : List (Append Cond Param)) : Prop :=
  (fragments.map placeholdersIn).sum = params.length ∧
    placeholderOwners roles appends = paramOwners appends

/-- The placeholders match exactly when those of each append do. -/
theorem placeholdersMatch_iff_matched {Cond Atom Param : Type} {roles : Atom → List ParamRole}
    {atoms : Cond → List Atom} {render : Cond → String} {c : Clauses Cond Param}
    {appends : List (Append Atom Param)} (hconcat : IsConcat atoms c appends)
    (hrender : ∀ cond ∈ c.conditions,
      placeholdersIn (render cond) = ((atoms cond).flatMap roles).length) :
    PlaceholdersMatch roles (c.conditions.map render) c.params appends ↔
      ∀ part ∈ appends, part.conditions.flatMap roles = part.params.map Prod.fst := by
  unfold PlaceholdersMatch
  rw [Clauses.placeholderOwners_eq_iff]
  refine and_iff_right_of_imp fun hmatched => ?_
  have hparts : appends.map (fun part => part.conditions.flatMap roles) =
      appends.map fun part => part.params.map Prod.fst := List.map_congr_left hmatched
  calc ((c.conditions.map render).map placeholdersIn).sum
    _ = (c.conditions.map fun cond => ((atoms cond).flatMap roles).length).sum := by
        rw [List.map_map]
        exact congrArg List.sum (List.map_congr_left hrender)
    _ = ((c.conditions.flatMap atoms).flatMap roles).length := by
        rw [List.flatMap_assoc, List.length_flatMap]
    _ = (appends.flatMap fun part => part.conditions.flatMap roles).length := by
        rw [hconcat.conditions, List.flatMap_assoc]
    _ = (appends.flatMap fun part => part.params.map Prod.fst).length := by
        rw [List.flatMap_def, hparts, ← List.flatMap_def]
    _ = c.params.length := by
        rw [hconcat.params, List.length_map, List.length_flatMap, List.length_flatMap]
        simp only [List.length_map]

/-- The placeholders match the parameters exactly when all operators of the query are in
`OPERANDS`, or it is searched as a text, and all comparators of the filters are supported. An
operator or a comparator that is not known appends its parameters without a condition. -/
theorem placeholdersMatch_iff (py : PyRuntime) (query : PyValue) (integers decimals : List String)
    (c : Clauses WhereSql SqlParam) (h : getWhereClause py query integers decimals = .ok c)
    (fields : KnownFields) (queries : List PyValue) (d : Clauses DataViewWhere PyValue)
    (h' : fields.getWhereClauseOf py queries = .ok d) :
    (∃ appends, appendsOfWhereClause py query integers decimals = .ok appends ∧
      IsConcat fragmentAtoms c appends ∧
        (PlaceholdersMatch atomRoles (c.conditions.map WhereSql.render) c.params appends ↔
          WhereKnown py query)) ∧
    (∃ appends, appendsOfFilters fields py queries = .ok appends ∧
      IsConcat comparisonsOf d appends ∧
        (PlaceholdersMatch comparisonRoles (d.conditions.map DataViewWhere.render) d.params
          appends ↔ ComparatorsKnown queries)) := by
  constructor
  · obtain ⟨parts, hparts, hsplits⟩ := splits_getWhereClause py query integers decimals c h
    refine ⟨parts, hparts, hsplits.isConcat, ?_⟩
    rw [← hsplits.matched_iff]
    refine placeholdersMatch_iff_matched hsplits.isConcat fun fragment hfragment => ?_
    have hplain : ∀ a ∈ fragmentAtoms fragment, PlainAtom a := by
      intro a ha
      have hmem : a ∈ c.conditions.flatMap fragmentAtoms :=
        List.mem_flatMap.mpr ⟨fragment, hfragment, ha⟩
      rw [hsplits.isConcat.conditions] at hmem
      obtain ⟨part, hpart, ha⟩ := List.mem_flatMap.mp hmem
      exact hsplits.plain part hpart a ha
    rw [placeholdersIn_render hplain, List.length_flatMap]
    simp only [length_atomRoles]
    rfl
  · obtain ⟨parts, hparts, hconcat⟩ := isConcat_getWhereClauseOf fields py queries d h'
    refine ⟨_, by rw [appendsOfFilters, hparts]; rfl, hconcat, ?_⟩
    rw [← matched_appendsOfFilters fields py hparts]
    exact placeholdersMatch_iff_matched hconcat fun condition _ =>
      placeholdersIn_renderDataView condition

/-- A runtime whose texts of numbers are all `18`. -/
def eighteenRuntime : PyRuntime where
  jsonLoads _ := .error .valueError
  str _ := "18"
  strptime _ _ := none

/-- A query and a filter for an age, with an operator and a comparator. -/
def ageQuery (operator : String) : PyValue :=
  .dict [("age", .dict [(operator, .int 18)])]

def ageFilter (comparator : String) : PyValue :=
  .dict [("column", .str "age"), ("filter", .str comparator), ("value", .str "18")]

theorem placeholdersMatch_iff_age :
    (∃ appends, appendsOfWhereClause eighteenRuntime (ageQuery "$gt") [] [] = .ok appends ∧
      IsConcat fragmentAtoms
        ⟨[.atom (.compare .json .gt)], [.str "age", .str "18"]⟩ appends ∧
        (PlaceholdersMatch atomRoles
            ([WhereSql.atom (.compare .json .gt)].map WhereSql.render)
            [SqlParam.str "age", .str "18"] appends ↔
          WhereKnown eighteenRuntime (ageQuery "$gt"))) ∧
    (∃ appends, appendsOfFilters {} eighteenRuntime [ageFilter ">"] = .ok appends ∧
      IsConcat comparisonsOf
        ⟨[.compare ⟨.text, .gt⟩], [.str "age", .str "18"]⟩ appends ∧
        (PlaceholdersMatch comparisonRoles
            ([DataViewWhere.compare ⟨.text, .gt⟩].map DataViewWhere.render)
            [PyValue.str "age", .str "18"] appends ↔ ComparatorsKnown [ageFilter ">"])) :=
  placeholdersMatch_iff eighteenRuntime (ageQuery "$gt") [] []
    ⟨[.atom (.compare .json .gt)], [.str "age", .str "18"]⟩ rfl {} [ageFilter ">"]
    ⟨[.compare ⟨.text, .gt⟩], [.str "age", .str "18"]⟩ rfl

/-- The parameters of `$ne`, and of the comparator `==`, have no placeholder. -/
theorem not_placeholdersMatch_ne :
    (∃ c, getWhereClause eighteenRuntime (ageQuery "$ne") [] [] = .ok c ∧
      ((c.conditions.map WhereSql.render).map placeholdersIn).sum ≠ c.params.length) ∧
    (∃ d, KnownFields.getWhereClauseOf {} eighteenRuntime [ageFilter "=="] = .ok d ∧
      ((d.conditions.map DataViewWhere.render).map placeholdersIn).sum ≠ d.params.length) :=
  ⟨⟨⟨[], [.str "age", .str "18"]⟩, rfl, by decide⟩, ⟨⟨[], [.str "age", .str "18"]⟩, rfl, by decide⟩⟩

end Onadata.Proofs
