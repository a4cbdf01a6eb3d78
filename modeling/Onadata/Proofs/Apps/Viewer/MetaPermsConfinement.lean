import Onadata.Apps.Viewer.ParsedInstance
import Onadata.Lib.ExceptList
import Onadata.Libs.Permissions

/-!
# `Onadata.Proofs.Apps.Viewer.MetaPermsConfinement`: own data under any query

`filterQuerysetXformMetaPermsSql` adds one key to the query of a user who may only see
the own submissions. The user controls everything else of the query. The module shows that
the added condition reaches the WHERE clause and is filled with its own parameters.

* `noDeficit_getWhereClause`: no part of a query gives more placeholders than parameters.
  An operator outside `OPERANDS` gives parameters without placeholders; the driver then
  refuses the statement.
* `segment_getWhereClause`: the condition on `_submitted_by` is a segment of the clause, or
  the clause holds a dict as parameter, for which the driver has no adapter.
* `selects_confined`: every selected row has the user's name in `_submitted_by`.
-/

set_option autoImplicit false

namespace Onadata.Proofs

open Onadata.Lib
open Onadata.Lib.Clauses (NoDeficit Segment)

/-! ### Placeholders and parameters -/

section Parse
variable (py : PyRuntime) (knownIntegers knownDecimals : List String)

/-- The results of a loop have no deficit together when each round has none. -/
theorem noDeficit_concat_mapM {A Cond : Type} {arity : Cond → Nat}
    {f : A → Except PyError (Clauses Cond SqlParam)} {xs : List A}
    {parts : List (Clauses Cond SqlParam)} (hparts : xs.mapM f = .ok parts)
    (h : ∀ x ∈ xs, ∀ c, f x = .ok c → NoDeficit arity c) :
    NoDeficit arity (Clauses.concat parts) := by
  refine Clauses.noDeficit_concat parts fun part hpart => ?_
  obtain ⟨x, hx, hfx⟩ := exists_of_mem_mapM hparts hpart
  exact h x hx part hfx

/-- A field outside `NONE_JSON_FIELDS` has one placeholder, for its name. -/
theorem arity_jsonSqlStr (key : String) :
    (jsonSqlStr key knownIntegers knownDecimals).arity = 1 := by
  simp only [jsonSqlStr]
  split
  · rfl
  · split
    · rfl
    · split <;> rfl

/-- An operator gives at least one parameter for each placeholder. -/
theorem noDeficit_parseOperator (fieldKey : String) (item : String × PyValue)
    (c : Clauses SqlAtom SqlParam)
    (h : parseOperator py knownIntegers knownDecimals fieldKey item = .ok c) :
    NoDeficit SqlAtom.arity c := by
  obtain ⟨key, value⟩ := item
  simp only [parseOperator, bind_eq_ok] at h
  obtain ⟨text, -, h⟩ := h
  split at h
  · rw [pure_eq_ok] at h
    subst h
    rcases operands key with _ | op <;> simp [NoDeficit, SqlAtom.arity, SqlLhs.arity]
  · rw [pure_eq_ok] at h
    subst h
    rcases operands key with _ | op <;> simp [NoDeficit, SqlAtom.arity, arity_jsonSqlStr]

/-- A field of a query gives at least one parameter for each placeholder. -/
theorem noDeficit_parseField (field : String × PyValue) (c : Clauses SqlAtom SqlParam)
    (h : parseField py knownIntegers knownDecimals field = .ok c) :
    NoDeficit SqlAtom.arity c := by
  obtain ⟨fieldKey, fieldValue⟩ := field
  simp only [parseField] at h
  split at h
  · simp only [bind_eq_ok, pure_eq_ok] at h
    obtain ⟨parts, hparts, rfl⟩ := h
    exact noDeficit_concat_mapM hparts fun item _ c hc =>
      noDeficit_parseOperator py knownIntegers knownDecimals fieldKey item c hc
  · split at h <;> rw [pure_eq_ok] at h <;> subst h <;>
      simp [NoDeficit, SqlAtom.arity, SqlLhs.arity]

/-- `parseWhere` gives at least one parameter for each placeholder. -/
theorem noDeficit_parseWhere (query : PyValue) (c : Clauses SqlAtom SqlParam)
    (h : parseWhere py knownIntegers knownDecimals query = .ok c) :
    NoDeficit SqlAtom.arity c := by
  simp only [parseWhere] at h
  split at h
  · simp only [bind_eq_ok, pure_eq_ok] at h
    obtain ⟨parts, hparts, rfl⟩ := h
    exact noDeficit_concat_mapM hparts fun field _ c hc =>
      noDeficit_parseField py knownIntegers knownDecimals field c hc
  · simp at h

/-- A key of an `$or` clause gives at least one parameter for each placeholder. -/
theorem noDeficit_parseOrItem (orQuery : List (String × PyValue)) (item : String × PyValue)
    (c : Clauses OrClause SqlParam)
    (h : parseOrItem py knownIntegers knownDecimals orQuery item = .ok c) :
    NoDeficit OrClause.arity c := by
  obtain ⟨key, value⟩ := item
  simp only [parseOrItem] at h
  split at h
  · -- The whole clause, in parentheses.
    simp only [bind_eq_ok, pure_eq_ok] at h
    obtain ⟨clauses, hclauses, rfl⟩ := h
    have := noDeficit_parseWhere py knownIntegers knownDecimals _ clauses hclauses
    simpa [NoDeficit, OrClause.arity] using this
  · rw [pure_eq_ok] at h
    subst h
    simp [NoDeficit, OrClause.arity, SqlAtom.arity, SqlLhs.arity]
  · rw [pure_eq_ok] at h
    subst h
    refine Clauses.noDeficit_concat _ fun part hpart => ?_
    obtain ⟨item, -, rfl⟩ := List.mem_map.mp hpart
    simp [NoDeficit, OrClause.arity, SqlAtom.arity, SqlLhs.arity]
  · rw [pure_eq_ok] at h
    subst h
    simp [NoDeficit, OrClause.arity, SqlAtom.arity, SqlLhs.arity]

/-- An `$or` clause gives at least one parameter for each placeholder. -/
theorem noDeficit_parseOrQuery (orQuery : PyValue) (c : Clauses OrClause SqlParam)
    (h : parseOrQuery py knownIntegers knownDecimals orQuery = .ok c) :
    NoDeficit OrClause.arity c := by
  simp only [parseOrQuery] at h
  split at h
  · simp only [bind_eq_ok, pure_eq_ok] at h
    obtain ⟨parts, hparts, rfl⟩ := h
    exact noDeficit_concat_mapM hparts fun item _ c hc =>
      noDeficit_parseOrItem py knownIntegers knownDecimals _ item c hc
  · simp at h

/-- The `$or` part gives at least one parameter for each placeholder. -/
theorem noDeficit_parseOr (orDict : Option PyValue) (c : Clauses WhereSql SqlParam)
    (h : parseOr py knownIntegers knownDecimals orDict = .ok c) :
    NoDeficit WhereSql.arity c := by
  cases orDict with
  | none =>
      rw [parseOr, pure_eq_ok] at h
      exact h ▸ Clauses.noDeficit_empty
  | some orDict =>
      simp only [parseOr, bind_eq_ok, pure_eq_ok] at h
      obtain ⟨clauses, -, parts, hparts, rfl⟩ := h
      have := noDeficit_concat_mapM hparts fun orQuery _ c hc =>
        noDeficit_parseOrQuery py knownIntegers knownDecimals orQuery c hc
      simpa [NoDeficit, WhereSql.arity] using this

/-- `parseQuery` gives at least one parameter for each placeholder. -/
theorem noDeficit_parseQuery (query : PyValue) (c : Clauses WhereSql SqlParam)
    (h : parseQuery py knownIntegers knownDecimals query = .ok c) :
    NoDeficit WhereSql.arity c := by
  simp only [parseQuery] at h
  split at h
  · simp only [bind_eq_ok, pure_eq_ok] at h
    obtain ⟨or, hor, clauses, hclauses, rfl⟩ := h
    have hwhere := noDeficit_parseWhere py knownIntegers knownDecimals _ clauses hclauses
    exact (hwhere.mapConditions WhereSql.arity fun _ => rfl).append
      (noDeficit_parseOr py knownIntegers knownDecimals _ or hor)
  · simp at h

/-- The text search has one placeholder and one parameter. -/
theorem searchAsText_eq_ok {query : PyValue} {error : PyError}
    {c : Clauses WhereSql SqlParam} (h : searchAsText query error = .ok c) :
    c = ⟨[.atom .jsonTextMatches], [.value query]⟩ := by
  simp only [searchAsText] at h
  split at h
  · simp at h
  · split at h
    · split at h
      · simp at h
      · exact (pure_eq_ok.mp h).symm
    · exact (pure_eq_ok.mp h).symm

/-- `getWhereClause` gives at least one parameter for each placeholder. -/
theorem noDeficit_getWhereClause (query : PyValue) (integers decimals : List String)
    (c : Clauses WhereSql SqlParam) (h : getWhereClause py query integers decimals = .ok c) :
    NoDeficit WhereSql.arity c := by
  have hsearch : ∀ query error, searchAsText query error = .ok c →
      NoDeficit WhereSql.arity c := by
    intro query error h
    rw [searchAsText_eq_ok h]
    simp [NoDeficit, WhereSql.arity, SqlAtom.arity]
  have hquery : ∀ ks query, parseQueryOrSearch py ks decimals query = .ok c →
      NoDeficit WhereSql.arity c := by
    intro ks query h
    simp only [parseQueryOrSearch] at h
    split at h
    · rename_i clauses hparse
      rw [pure_eq_ok] at h
      exact h ▸ noDeficit_parseQuery py ks decimals query clauses hparse
    · exact hsearch _ _ h
  simp only [getWhereClause] at h
  split at h
  · rw [pure_eq_ok] at h
    exact h ▸ Clauses.noDeficit_empty
  · split at h
    · exact hsearch _ _ h
    · simp at h
    · exact hquery _ _ h
    · exact hquery _ _ h

end Parse

/-! ### The condition on `_submitted_by` -/

/-- `_submitted_by` equals the name. -/
def submittedBy (username : String) : Clauses WhereSql SqlParam :=
  ⟨[.atom (.compare .json .eq)], [.str "_submitted_by", .str username]⟩

/-- The clause has a parameter that the driver cannot adapt. -/
def Unadaptable (c : Clauses WhereSql SqlParam) : Prop :=
  ∃ param ∈ c.params, param.adaptable = false

/-- In the clause of a dict with the key, the condition is a segment. -/
theorem segment_parseQuery (py : PyRuntime) (knownIntegers knownDecimals : List String)
    (username : String) (fields : List (String × PyValue)) (c : Clauses WhereSql SqlParam)
    (hmem : ("_submitted_by", .str username) ∈ fields)
    (h : parseQuery py knownIntegers knownDecimals (.dict fields) = .ok c) :
    Segment WhereSql.arity (submittedBy username) c := by
  simp only [parseQuery, bind_eq_ok, pure_eq_ok] at h
  obtain ⟨or, hor, clauses, hclauses, rfl⟩ := h
  refine Segment.append_right ?_ (noDeficit_parseOr py knownIntegers knownDecimals _ or hor)
  simp only [parseWhere, bind_eq_ok, pure_eq_ok] at hclauses
  obtain ⟨parts, hparts, rfl⟩ := hclauses
  -- The key is not `$or`, so it is still among the fields.
  have hfield : ("_submitted_by", PyValue.str username) ∈ Dict.erase fields "$or" := by
    rw [Dict.erase, List.mem_filter]
    exact ⟨hmem, by simp⟩
  obtain ⟨part, hpart, hparse⟩ := mem_mapM_of_mem hparts hfield
  have heq : part = ⟨[.compare .json .eq], [.str "_submitted_by", .str username]⟩ :=
    (pure_eq_ok.mp hparse).symm
  have hdeficit : ∀ p ∈ parts, NoDeficit SqlAtom.arity p := by
    intro p hp
    obtain ⟨field, -, hfield⟩ := exists_of_mem_mapM hparts hp
    exact noDeficit_parseField py knownIntegers knownDecimals field p hfield
  have hsegment := (Segment.of_mem hpart hdeficit).mapConditions
    WhereSql.arity (f := WhereSql.atom) fun _ => rfl
  rwa [heq] at hsegment

/-- From a dict with the key, `getWhereClause` makes a clause with the condition as a
segment, or searches for the dict as text. -/
theorem segment_getWhereClause (py : PyRuntime) (integers decimals : List String)
    (username : String) (fields : List (String × PyValue)) (c : Clauses WhereSql SqlParam)
    (hmem : ("_submitted_by", .str username) ∈ fields)
    (h : getWhereClause py (.dict fields) integers decimals = .ok c) :
    Segment WhereSql.arity (submittedBy username) c ∨ Unadaptable c := by
  have htruthy : (PyValue.dict fields).truthy = true := by
    rcases fields with _ | ⟨field, fields⟩
    · simp at hmem
    · rfl
  simp only [getWhereClause, htruthy, PyValue.isDict, Bool.true_or, Bool.and_self,
    Bool.not_true, Bool.false_eq_true, if_false, parseQueryOrSearch] at h
  split at h
  · rename_i clauses hparse
    rw [pure_eq_ok] at h
    subst h
    exact Or.inl (segment_parseQuery py _ decimals username fields clauses hmem hparse)
  · right
    rw [searchAsText_eq_ok h]
    exact ⟨_, List.mem_cons_self, rfl⟩

/-- What `filterQuerysetXformMetaPermsSql` hands on for a confined user: a dict with the
key, or a list of two queries of which the first is one. -/
theorem filterQuerysetXformMetaPermsSql_confined (py : PyRuntime) (request : MetaPermsRequest)
    (query confined : PyValue) (hshared : request.sharedData = false)
    (hmeta : request.metaPermsEnabled = true) (hall : request.hasPerm .viewXformAll = false)
    (h : filterQuerysetXformMetaPermsSql py request query = .ok confined) :
    ∃ fields, ("_submitted_by", PyValue.str request.username) ∈ fields ∧
      (confined = .dict fields ∨ ∃ rest, confined = .list [.dict fields, rest]) := by
  have hconfine : ∀ query, confineQuery request.username query = confined →
      ∃ fields, ("_submitted_by", PyValue.str request.username) ∈ fields ∧
        (confined = .dict fields ∨ ∃ rest, confined = .list [.dict fields, rest]) := by
    intro query h
    subst h
    cases query with
    | dict items =>
        exact ⟨_, Dict.mem_insert items "_submitted_by" (.str request.username), Or.inl rfl⟩
    | _ => exact ⟨_, List.mem_cons_self, Or.inr ⟨_, rfl⟩⟩
  simp only [filterQuerysetXformMetaPermsSql, hall, hshared, hmeta, Bool.or_self,
    Bool.not_true, Bool.false_eq_true, if_false] at h
  split at h
  · split at h
    · split at h
      · exact hconfine _ (pure_eq_ok.mp h)
      · split at h
        · simp at h
        · exact hconfine _ (pure_eq_ok.mp h)
        · exact hconfine _ (pure_eq_ok.mp h)
        · split at h
          · exact hconfine _ (pure_eq_ok.mp h)
          · simp at h
    · exact hconfine _ (pure_eq_ok.mp h)
  · simp at h

/-- Every part of a list of queries gives at least one parameter for each placeholder, and
the confined query comes first. -/
theorem segment_queryClauses (py : PyRuntime) (knownIntegers : List String)
    (username : String) (fields : List (String × PyValue)) (confined : PyValue)
    (c : Clauses WhereSql SqlParam) (hmem : ("_submitted_by", .str username) ∈ fields)
    (hconfined : confined = .dict fields ∨ ∃ rest, confined = .list [.dict fields, rest])
    (h : queryClauses py knownIntegers confined = .ok c) :
    Segment WhereSql.arity (submittedBy username) c ∨ Unadaptable c := by
  rcases hconfined with rfl | ⟨rest, rfl⟩
  · exact segment_getWhereClause py knownIntegers [] username fields c hmem h
  · simp only [queryClauses, List.mapM_cons, List.mapM_nil, bind_eq_ok, pure_eq_ok] at h
    obtain ⟨_, ⟨first, hfirst, _, ⟨second, hsecond, _, rfl, rfl⟩, rfl⟩, rfl⟩ := h
    have hdeficit : NoDeficit WhereSql.arity (Clauses.concat [second]) :=
      (noDeficit_getWhereClause py rest knownIntegers [] second hsecond).append
        Clauses.noDeficit_empty
    rcases segment_getWhereClause py knownIntegers [] username fields first hmem hfirst with
      hsegment | ⟨param, hparam, hadapt⟩
    · exact Or.inl (hsegment.append_right hdeficit)
    · exact Or.inr ⟨param, List.mem_append_left _ hparam, hadapt⟩

/-! ### The whole clause -/

/-- The options add a parameter for each placeholder. -/
theorem noDeficit_optionClauses (xform : DataForm) (opts : DataOptions) :
    ∀ part ∈ optionClauses xform opts, NoDeficit WhereSql.arity part := by
  have hcompare : ∀ name op param, NoDeficit WhereSql.arity (compareColumn name op param) := by
    intro name op param
    simp [NoDeficit, compareColumn, WhereSql.arity, SqlAtom.arity, SqlLhs.arity]
  have hoption : ∀ (option : Option String) (f : String → Clauses WhereSql SqlParam),
      (∀ s, NoDeficit WhereSql.arity (f s)) →
      NoDeficit WhereSql.arity ((option.map f).getD {}) := by
    intro option f hf
    cases option with
    | none => exact Clauses.noDeficit_empty
    | some s => exact hf s
  intro part hpart
  simp only [optionClauses, List.mem_cons, List.not_mem_nil, or_false] at hpart
  rcases hpart with rfl | rfl | rfl | rfl | rfl
  · exact hoption _ _ fun s => hcompare _ _ _
  · exact hoption _ _ fun s => hcompare _ _ _
  · cases opts.isEncrypted with
    | none => simp [NoDeficit, WhereSql.arity, SqlAtom.arity]
    | some b => exact hcompare _ _ _
  · exact hoption _ _ fun s => hcompare _ _ _
  · rcases hids : xform.deletingSubmissionIds with _ | ⟨i, ids⟩ <;>
      simp [excludeDeletingSubmissionsClause, NoDeficit, WhereSql.arity, SqlAtom.arity]

/-- A clause with conditions and parameters stands in the text as it is. -/
theorem joinWhere_of_ne_nil (c : Clauses WhereSql SqlParam) (hconditions : c.conditions ≠ [])
    (hparams : c.params ≠ []) : joinWhere c = c := by
  rcases c with ⟨_ | ⟨condition, conditions⟩, _ | ⟨param, params⟩⟩
  · simp at hconditions
  · simp at hconditions
  · simp at hparams
  · rfl

/-- The clause of `buildSqlWhere` for a confined query: the condition on `_submitted_by` is
a segment, or the driver refuses the statement. -/
theorem segment_buildSqlWhere (py : PyRuntime) (xform : DataForm) (opts : DataOptions)
    (username : String) (fields : List (String × PyValue)) (confined : PyValue)
    (c : Clauses WhereSql SqlParam) (hmem : ("_submitted_by", .str username) ∈ fields)
    (hconfined : confined = .dict fields ∨ ∃ rest, confined = .list [.dict fields, rest])
    (h : buildSqlWhere py xform confined opts = .ok c) :
    Segment WhereSql.arity (submittedBy username) c ∨ Unadaptable c := by
  simp only [buildSqlWhere, bind_eq_ok, pure_eq_ok] at h
  obtain ⟨clauses, hclauses, rfl⟩ := h
  have hoptions := Clauses.noDeficit_concat _ (noDeficit_optionClauses xform opts)
  rcases segment_queryClauses py xform.integerFields username fields confined clauses hmem
      hconfined hclauses with hsegment | ⟨param, hparam, hadapt⟩
  · left
    have hjoin : joinWhere clauses = clauses := by
      obtain ⟨before, after, -, -, rfl⟩ := hsegment
      exact joinWhere_of_ne_nil _ (by simp [Clauses.append, submittedBy])
        (by simp [Clauses.append, submittedBy])
    simp only [hjoin, Clauses.concat, List.foldr_cons]
    refine Segment.append_left (Segment.append_right hsegment hoptions) ?_
    simp [NoDeficit, WhereSql.arity, SqlAtom.arity, SqlLhs.arity]
  · right
    refine ⟨param, ?_, hadapt⟩
    have hjoin : param ∈ (joinWhere clauses).params := by
      rcases clauses with ⟨_ | ⟨condition, conditions⟩, _ | ⟨p, params⟩⟩
      · simp at hparam
      · exact hparam
      · simp at hparam
      · exact hparam
    simp only [Clauses.concat, List.foldr_cons, Clauses.append, List.mem_append]
    exact Or.inr (Or.inl hjoin)

/-- For a user without `view_xform_all` on a form with meta permissions and without shared
data, and for every query: when the query is accepted, each row that the WHERE clause
selects has the user's name in `_submitted_by`. -/
theorem selects_confined (py : PyRuntime) (request : MetaPermsRequest)
    (hshared : request.sharedData = false) (hmeta : request.metaPermsEnabled = true)
    (hall : request.hasPerm .viewXformAll = false) (query confined : PyValue)
    (hfilter : filterQuerysetXformMetaPermsSql py request query = .ok confined)
    (xform : DataForm) (opts : DataOptions) (clauses : Clauses WhereSql SqlParam)
    (hbuild : buildSqlWhere py xform confined opts = .ok clauses) (others : AtomMeaning)
    (row : InstanceRow) (hselects : Selects others clauses row) :
    row.json "_submitted_by" = some request.username := by
  obtain ⟨fields, hmem, hconfined⟩ := filterQuerysetXformMetaPermsSql_confined py request query
    confined hshared hmeta hall hfilter
  obtain ⟨hadapt, hcount, -, hholds⟩ := hselects
  rcases segment_buildSqlWhere py xform opts request.username fields confined clauses hmem
      hconfined hbuild with hsegment | ⟨param, hparam, hnot⟩
  · have hpart : NoDeficit WhereSql.arity (submittedBy request.username) := by
      simp [NoDeficit, submittedBy, WhereSql.arity, SqlAtom.arity, SqlLhs.arity]
    exact (Clauses.HoldsAll.of_segment hsegment hpart hcount hholds).1
  · rw [hadapt param hparam] at hnot
    simp at hnot

/-- A library whose `json.loads` reads the text of an object with `age`. -/
def ageRuntime : PyRuntime where
  jsonLoads _ := .ok (.object [("age", .int 3)])
  str _ := "3"
  strptime _ _ := none

/-- Bob may see the own submissions. -/
def bobRequest : MetaPermsRequest where
  sharedData := false
  metaPermsEnabled := true
  hasPerm codename := codename = .viewXformData
  username := "bob"

/-- A submission of Bob. -/
def bobRow : InstanceRow where
  json key := if key = "age" then some "3" else if key = "_submitted_by" then some "bob" else none
  column _ := none

/-- The query for `age` selects a submission of Bob, and the name in it is Bob's. -/
theorem bobRow_confined : bobRow.json "_submitted_by" = some "bob" := by
  have hselects : Selects (fun _ _ _ => True)
      ⟨[.atom .xformIdIn, .atom (.isNull (.column "deleted_at")), .atom (.compare .json .eq),
          .atom (.compare .json .eq), .atom .notPendingDecryption],
        [.tuple [1], .str "age", .str "3", .str "_submitted_by", .str "bob"]⟩ bobRow := by
    refine ⟨by decide, by decide, by decide, ?_⟩
    simp [Clauses.HoldsAll, WhereSql.arity, SqlAtom.arity, SqlLhs.arity, WhereSql.holds,
      SqlAtom.holds, SqlParam.str, bobRow]
  exact selects_confined ageRuntime bobRequest rfl rfl rfl (.str "\x7b\"age\": 3\x7d")
    (.dict [("age", .int 3), ("_submitted_by", .str "bob")]) (by rfl) ⟨1, [], false, [], []⟩ {}
    _ (by rfl) _ bobRow hselects

end Onadata.Proofs
