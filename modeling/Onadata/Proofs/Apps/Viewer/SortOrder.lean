import Onadata.Apps.Viewer.ParsedInstance
import Onadata.Apps.Viewer.SortedQuery
import Onadata.Lib.ExceptList
import Onadata.Lib.LexicographicOrder

/-!
# `Onadata.Proofs.Apps.Viewer.SortOrder`: the requested order and the ORDER BY clause

A sort string requests an order by some fields (`requestOf`): a native field stands for a column,
every other field for its JSON value (`sourceOf`). `fillTerms` reads the clause with its
parameters back as such a list.

`_parse_sort_fields` replaces the native fields by their columns. When there is a JSON field among
the others, `json_order_by` looks the names up again, among the names of the native fields: a
column is not one of these, so it is taken for a JSON field.

* `orderBy_eq_json` and `orderBy_eq_columns`: the clause in both modes.
* `source_mem_of_follows`: a clause that orders as requested reads all requested sources.
* `followsSort_iff`: the clause orders as requested exactly when the fields are all native, or all
  JSON fields.
-/

set_option autoImplicit false

namespace Onadata.Proofs

open Onadata.Lib

/-! ### The request -/

/-- `int(value) < 0`. A value without an integer is not negative. -/
def isNegative (py : SortRuntime) (value : PyValue) : Bool :=
  match py.intOf value with
  | .ok order => decide (order < 0)
  | .error _ => false

/-- The requested fields, each with `true` for the descending order. -/
def requestOf (py : SortRuntime) (sortStr : String) : List (String × Bool) :=
  if startsWith sortStr "\x7b" then
    match (py.jsonLoads sortStr).map (RawJson.decode lastWins) with
    | .ok (.dict items) => items.map fun item => (item.1, isNegative py item.2)
    | _ => []
  else [(removeSign sortStr, startsWith sortStr "-")]

/-- The name of a field with its direction. -/
def signed (field : String × Bool) : String :=
  if field.2 then "-" ++ field.1 else field.1

/-- The characters of the sign. -/
theorem toList_sign : "-".toList = ['-'] := by
  decide

/-- A text that starts with a `-`. -/
theorem startsWith_sign_iff {text : String} :
    startsWith text "-" = true ↔ ∃ rest, text = "-" ++ rest := by
  unfold startsWith
  rw [List.isPrefixOf_iff_prefix]
  constructor
  · rintro ⟨rest, hrest⟩
    refine ⟨String.ofList rest, String.toList_injective ?_⟩
    rw [String.toList_append, toList_sign, String.toList_ofList]
    exact hrest.symm
  · rintro ⟨rest, rfl⟩
    rw [String.toList_append]
    exact List.prefix_append _ _

@[simp]
theorem startsWith_sign_append (rest : String) : startsWith ("-" ++ rest) "-" = true :=
  startsWith_sign_iff.mpr ⟨rest, rfl⟩

@[simp]
theorem removeSign_append (rest : String) : removeSign ("-" ++ rest) = rest := by
  rw [removeSign, if_pos (startsWith_sign_append rest), String.toList_append]
  exact String.ofList_toList

theorem removeSign_of_not {field : String} (h : startsWith field "-" = false) :
    removeSign field = field := by
  rw [removeSign, h]
  rfl

@[simp]
theorem lstripSign_append (rest : String) : lstripSign ("-" ++ rest) = lstripSign rest := by
  unfold lstripSign
  rw [String.toList_append]
  rfl

theorem lstripSign_of_not {field : String} (h : startsWith field "-" = false) :
    lstripSign field = field := by
  have hhead : field.toList.dropWhile (· = '-') = field.toList := by
    cases hfield : field.toList with
    | nil => rfl
    | cons c cs =>
        rw [List.dropWhile_cons_of_neg]
        intro hc
        have hc : c = '-' := by simpa using hc
        refine absurd (startsWith_sign_iff.mpr ⟨String.ofList cs, ?_⟩) (Bool.eq_false_iff.mp h)
        apply String.toList_injective
        rw [hfield, hc, String.toList_append, toList_sign, String.toList_ofList]
        rfl
  rw [lstripSign, hhead, String.ofList_toList]

/-- `lstrip` leaves no sign. -/
theorem startsWith_lstripSign (field : String) : startsWith (lstripSign field) "-" = false := by
  rw [Bool.eq_false_iff]
  intro h
  obtain ⟨rest, hrest⟩ := startsWith_sign_iff.mp h
  have hlist : field.toList.dropWhile (· = '-') = '-' :: rest.toList := by
    have := congrArg String.toList hrest
    rwa [lstripSign, String.toList_ofList, String.toList_append] at this
  have hne : field.toList.dropWhile (· = '-') ≠ [] := by
    rw [hlist]
    exact List.cons_ne_nil _ _
  have hhead := List.head_dropWhile_not (fun c : Char => decide (c = '-')) hne
  simp [hlist] at hhead

/-- The name and the direction of a plain sort string. -/
theorem signed_removeSign (sortStr : String) :
    signed (removeSign sortStr, startsWith sortStr "-") = sortStr := by
  cases h : startsWith sortStr "-" with
  | true =>
      obtain ⟨rest, rfl⟩ := startsWith_sign_iff.mp h
      show "-" ++ removeSign ("-" ++ rest) = _
      rw [removeSign_append]
  | false => exact removeSign_of_not h

theorem isNegative_of_ok {py : SortRuntime} {value : PyValue} {order : Int}
    (h : py.intOf value = .ok order) : isNegative py value = decide (order < 0) := by
  unfold isNegative
  rw [h]

theorem isNegative_of_error {py : SortRuntime} {value : PyValue} {e : PyError}
    (h : py.intOf value = .error e) : isNegative py value = false := by
  unfold isNegative
  rw [h]

/-- A key of the JSON object. -/
theorem sortKey_eq {py : SortRuntime} {item : String × PyValue} {key : String}
    (h : sortKey py item = .ok key) : key = signed (item.1, isNegative py item.2) := by
  obtain ⟨name, value⟩ := item
  simp only [sortKey] at h
  cases hint : py.intOf value with
  | ok order =>
      rw [hint] at h
      rw [isNegative_of_ok hint]
      simpa [signed] using (pure_eq_ok.mp h).symm
  | error e =>
      rw [hint] at h
      rw [isNegative_of_error hint]
      split at h
      · rename_i heq
        cases heq
      · exact (pure_eq_ok.mp h).symm
      · exact absurd h throw_ne_ok
      · exact absurd h throw_ne_ok

/-- `sort_from_mongo_sort_str` returns the names of the requested fields with their directions. -/
theorem sortFromMongoSortStr_eq {py : SortRuntime} {sortStr : String} {sortValues : List String}
    (h : sortFromMongoSortStr py sortStr = .ok sortValues) :
    sortValues = (requestOf py sortStr).map signed := by
  unfold sortFromMongoSortStr at h
  unfold requestOf
  split_ifs at h ⊢
  · cases hdecoded : (py.jsonLoads sortStr).map (RawJson.decode lastWins) with
    | error e =>
        rw [hdecoded] at h
        cases h
    | ok value =>
        rw [hdecoded] at h
        cases value with
        | dict items =>
            refine (eq_map_of_mapM (fun item key hkey => ?_) h).trans (List.map_map ..).symm
            exact sortKey_eq hkey
        | _ => exact absurd h throw_ne_ok
  · obtain rfl := pure_eq_ok.mp h
    rw [List.map_singleton, signed_removeSign]

/-! ### The order of the rows -/

/-- What rows are sorted by: a column, or the text of a JSON field. -/
inductive SortSource
  | column (name : String)
  | json (name : String)
  deriving DecidableEq, Repr

/-- The value in a row. -/
def SortSource.value : SortSource → InstanceRow → Option String
  | .column name, row => row.column name
  | .json name, row => row.json name

/-- The ascending order of the values of each source in the database: equal values are alike, and
not all values are. -/
structure ValueOrder where
  compare : SortSource → Option String → Option String → Ordering
  compare_self : ∀ source value, compare source value value = .eq
  apart : ∀ source, ∃ v w, compare source v w ≠ .eq

/-- The order of two rows by a source, with `true` for the descending order. -/
def ValueOrder.key (db : ValueOrder) (source : SortSource × Bool) (a b : InstanceRow) : Ordering :=
  let order := db.compare source.1 (source.1.value a) (source.1.value b)
  if source.2 then order.swap else order

/-- The order of two rows by several sources. -/
def ValueOrder.rows (db : ValueOrder) (sources : List (SortSource × Bool)) :
    InstanceRow → InstanceRow → Ordering :=
  lexicographic (sources.map db.key)

theorem key_eq_iff {db : ValueOrder} {source : SortSource × Bool} {a b : InstanceRow} :
    db.key source a b = .eq ↔
      db.compare source.1 (source.1.value a) (source.1.value b) = .eq := by
  unfold ValueOrder.key
  cases source.2 with
  | true => exact Ordering.swap_eq_eq
  | false => exact Iff.rfl

/-- The sources of the terms with their parameters. There is a parameter for each placeholder. -/
def fillTerms : List OrderTerm → List String → Option (List (SortSource × Bool))
  | [], [] => some []
  | ⟨.json, descending⟩ :: terms, param :: params =>
      (fillTerms terms params).map fun sources => (.json param, descending) :: sources
  | ⟨.quoted _ name, descending⟩ :: terms, params =>
      (fillTerms terms params).map fun sources => (.column name, descending) :: sources
  | ⟨.column name, descending⟩ :: terms, params =>
      (fillTerms terms params).map fun sources => (.column name, descending) :: sources
  | _, _ => none

section Model
variable (model : InstanceModel)

/-- A native field: a key of `NONE_JSON_FIELDS`, or a field of the model. -/
def Native (field : String) : Prop :=
  noneJsonFields field ≠ none ∨ field ∈ model.fields

/-- What a field stands for: the column of a native field, or the JSON value. -/
def sourceOf (field : String) : SortSource :=
  match noneJsonFields field with
  | some column => .column column
  | none => if field ∈ model.fields then .column field else .json field

/-- The clause orders all rows as the request says. -/
def FollowsSort (db : ValueOrder) (clause : Clauses OrderTerm String)
    (request : List (String × Bool)) : Prop :=
  ∃ sources, fillTerms clause.conditions clause.params = some sources ∧
    ∀ a b, db.rows sources a b =
      db.rows (request.map fun field => (sourceOf model field.1, field.2)) a b

/-- The requested fields are all native, or they are all names of JSON fields. A name of a field
does not begin with a `-`. The empty name alone, in ascending order, is not one. -/
def SortedAlike (request : List (String × Bool)) : Prop :=
  (∀ field ∈ request, Native model field.1) ∨
    (∀ field ∈ request, ¬ Native model field.1 ∧ startsWith field.1 "-" = false) ∧
      ∃ field ∈ request, field ≠ ("", false)

/-! ### The clause -/

/-- No column is a key of `NONE_JSON_FIELDS`. -/
theorem noneJsonFields_column {key column : String} (h : noneJsonFields key = some column) :
    noneJsonFields column = none := by
  unfold noneJsonFields at h
  split at h
  all_goals first
    | cases h
      rfl
    | cases h

/-- The keys of `NONE_JSON_FIELDS` do not begin with a `-`. -/
theorem startsWith_of_noneJsonFields {key column : String} (h : noneJsonFields key = some column) :
    startsWith key "-" = false := by
  unfold noneJsonFields at h
  split at h
  all_goals first
    | decide
    | cases h

/-- The columns do not begin with a `-`. -/
theorem startsWith_column {key column : String} (h : noneJsonFields key = some column) :
    startsWith column "-" = false := by
  unfold noneJsonFields at h
  split at h
  all_goals first
    | cases h
      decide
    | cases h

theorem noneJsonFields_sign (rest : String) : noneJsonFields ("-" ++ rest) = none := by
  cases h : noneJsonFields ("-" ++ rest) with
  | none => rfl
  | some column =>
      have hsign := startsWith_of_noneJsonFields h
      rw [startsWith_sign_append] at hsign
      cases hsign

/-- A name with a direction, after `_parse_sort_fields`. -/
theorem parseSortField_signed {field : String × Bool} (h : startsWith field.1 "-" = false) :
    parseSortField (signed field) =
      signed ((noneJsonFields field.1).getD field.1, field.2) := by
  obtain ⟨name, descending⟩ := field
  have h : startsWith name "-" = false := h
  cases descending with
  | true =>
      show parseSortField ("-" ++ name) = "-" ++ (noneJsonFields name).getD name
      rw [parseSortField, startsWith_sign_append, if_pos rfl, lstripSign_append,
        lstripSign_of_not h, noneJsonFields_sign]
      cases noneJsonFields name <;> rfl
  | false =>
      show parseSortField name = (noneJsonFields name).getD name
      rw [parseSortField, h, if_neg Bool.false_ne_true]

/-- A field that `_parse_sort_fields` has made is not found in `NONE_JSON_FIELDS`. -/
theorem noneJsonFields_parseSortField (field : String) :
    noneJsonFields (lstripSign (parseSortField field)) = none := by
  unfold parseSortField
  cases hsign : startsWith field "-" with
  | true =>
      rw [if_pos rfl]
      obtain ⟨rest, rfl⟩ := startsWith_sign_iff.mp hsign
      cases hkey : noneJsonFields (lstripSign ("-" ++ rest)) with
      | some column =>
          show noneJsonFields (lstripSign ("-" ++ column)) = none
          rw [lstripSign_append, lstripSign_of_not (startsWith_column hkey)]
          exact noneJsonFields_column hkey
      | none =>
          show noneJsonFields (lstripSign ((noneJsonFields ("-" ++ rest)).getD _)) = none
          rw [noneJsonFields_sign]
          exact hkey
  | false =>
      rw [if_neg Bool.false_ne_true]
      cases hkey : noneJsonFields field with
      | some column =>
          show noneJsonFields (lstripSign column) = none
          rw [lstripSign_of_not (startsWith_column hkey)]
          exact noneJsonFields_column hkey
      | none =>
          show noneJsonFields (lstripSign field) = none
          rw [lstripSign_of_not hsign]
          exact hkey

/-- The clause when a field is taken for a JSON field: all are. -/
theorem fillTerms_json (fields : List String) :
    fillTerms (jsonOrderBy (fields.map parseSortField) noneJsonFields "logger_instance")
        (jsonOrderByParams (fields.map parseSortField) noneJsonFields) =
      some (fields.map fun field =>
        (.json (lstripSign (parseSortField field)), startsWith (parseSortField field) "-")) := by
  induction fields with
  | nil => rfl
  | cons field fields ih =>
      have hnone := noneJsonFields_parseSortField field
      have hparams : jsonOrderByParams ((field :: fields).map parseSortField) noneJsonFields =
          lstripSign (parseSortField field) ::
            jsonOrderByParams (fields.map parseSortField) noneJsonFields := by
        simp [jsonOrderByParams, hnone]
      have hterm : jsonOrderTerm noneJsonFields "logger_instance" (parseSortField field) =
          ⟨.json, startsWith (parseSortField field) "-"⟩ := by
        unfold jsonOrderTerm
        rw [hnone]
      rw [hparams]
      show fillTerms (jsonOrderTerm _ _ (parseSortField field) :: jsonOrderBy _ _ _) _ = _
      rw [hterm]
      show (fillTerms _ _).map _ = _
      rw [ih]
      rfl

/-- The clause when all fields are fields of the model. -/
theorem fillTerms_columns (fields : List String) :
    fillTerms (fields.map InstanceModel.columnOrderTerm) [] =
      some (fields.map fun field => (.column (removeSign field), startsWith field "-")) := by
  induction fields with
  | nil => rfl
  | cons field fields ih =>
      show (fillTerms (fields.map InstanceModel.columnOrderTerm) []).map _ = _
      rw [ih]
      rfl

/-! ### Sources that a clause reads -/

/-- A row that holds a value in one source only. -/
def rowWith (source : SortSource) (value : Option String) : InstanceRow where
  json name := if source = .json name then value else none
  column name := if source = .column name then value else none

theorem value_rowWith (source other : SortSource) (value : Option String) :
    other.value (rowWith source value) = if source = other then value else none := by
  cases other <;> rfl

/-- A clause that orders as requested reads all requested sources. -/
theorem source_mem_of_follows {db : ValueOrder} {sources request : List (SortSource × Bool)}
    (h : ∀ a b, db.rows sources a b = db.rows request a b) {source : SortSource × Bool}
    (hsource : source ∈ request) : source.1 ∈ sources.map Prod.fst := by
  by_contra hnot
  obtain ⟨v, w, hvw⟩ := db.apart source.1
  have hne : db.key source (rowWith source.1 v) (rowWith source.1 w) ≠ .eq := by
    rw [Ne, key_eq_iff, value_rowWith, value_rowWith, if_pos rfl, if_pos rfl]
    exact hvw
  refine exists_lexicographic_ne (List.mem_map_of_mem hsource) hne (fun key hkey => ?_) (h _ _)
  -- The rows differ in no source of the clause.
  obtain ⟨other, hother, rfl⟩ := List.mem_map.mp hkey
  have hdiffer : source.1 ≠ other.1 := fun heq =>
    hnot (heq ▸ List.mem_map_of_mem hother)
  rw [key_eq_iff, value_rowWith, value_rowWith, if_neg hdiffer, if_neg hdiffer]
  exact db.compare_self _ _

/-! ### When the clause orders as requested -/

theorem native_of_sourceOf {field name : String} (h : sourceOf model field = .column name) :
    Native model field := by
  unfold sourceOf at h
  split at h
  · rename_i hkey
    exact .inl (by rw [hkey]; exact Option.some_ne_none _)
  · split_ifs at h with hmem
    exact .inr hmem

theorem sourceOf_of_not_native {field : String} (h : ¬ Native model field) :
    sourceOf model field = .json field := by
  obtain ⟨hkey, hmem⟩ := not_or.mp h
  rw [sourceOf, not_not.mp hkey]
  exact if_neg hmem

theorem not_native_of_sourceOf {field name : String} (h : sourceOf model field = .json name) :
    ¬ Native model field ∧ field = name := by
  unfold sourceOf at h
  split at h
  · cases h
  · rename_i hkey
    split_ifs at h with hmem
    exact ⟨not_or.mpr ⟨not_not.mpr hkey, hmem⟩, SortSource.json.inj h⟩

/-- The column of a native field, which is a field of the model. -/
theorem sourceOf_of_native {field : String} (h : Native model field) :
    sourceOf model field = .column ((noneJsonFields field).getD field) ∧
      (noneJsonFields field).getD field ∈ model.fields := by
  unfold sourceOf
  cases hkey : noneJsonFields field with
  | some column => exact ⟨rfl, model.columns_mem _ _ hkey⟩
  | none =>
      have hmem : field ∈ model.fields := h.resolve_left fun hne => hne hkey
      exact ⟨if_pos hmem, hmem⟩

/-- The name of a native field does not begin with a `-`. -/
theorem startsWith_of_native {field : String} (h : Native model field) :
    startsWith field "-" = false := by
  rcases h with hkey | hmem
  · obtain ⟨column, hcolumn⟩ := Option.ne_none_iff_exists'.mp hkey
    exact startsWith_of_noneJsonFields hcolumn
  · exact (model.name_ne field hmem).2

/-- What `lstrip` and `removeprefix` leave of a name with a direction. -/
theorem strip_signed {field : String × Bool} (h : startsWith field.1 "-" = false) :
    lstripSign (signed field) = field.1 ∧ removeSign (signed field) = field.1 ∧
      startsWith (signed field) "-" = field.2 := by
  obtain ⟨name, descending⟩ := field
  cases descending with
  | true =>
      show lstripSign ("-" ++ name) = name ∧ removeSign ("-" ++ name) = name ∧
        startsWith ("-" ++ name) "-" = true
      rw [lstripSign_append, lstripSign_of_not h]
      exact ⟨rfl, removeSign_append name, startsWith_sign_append name⟩
  | false => exact ⟨lstripSign_of_not h, removeSign_of_not h, h⟩

/-- The clause for the requested fields. -/
def clauseFor (request : List (String × Bool)) : Clauses OrderTerm String :=
  model.orderBy ((request.map signed).map parseSortField)

/-- The clause in the mode without JSON fields. -/
theorem fillTerms_clauseFor_columns {request : List (String × Bool)}
    (h : model.hasJsonFields ((request.map signed).map parseSortField) = false) :
    fillTerms (clauseFor model request).conditions (clauseFor model request).params =
      some (((request.map signed).map parseSortField).map fun field =>
        (.column (removeSign field), startsWith field "-")) := by
  unfold clauseFor InstanceModel.orderBy
  rw [h, if_neg Bool.false_ne_true]
  by_cases hnil : (request.map signed).map parseSortField = []
  · rw [if_pos hnil, hnil]
    rfl
  · rw [if_neg hnil]
    exact fillTerms_columns _

/-- The clause in the mode with JSON fields. -/
theorem fillTerms_clauseFor_json {request : List (String × Bool)}
    (h : model.hasJsonFields ((request.map signed).map parseSortField) = true) :
    fillTerms (clauseFor model request).conditions (clauseFor model request).params =
      some ((request.map signed).map fun field =>
        (.json (lstripSign (parseSortField field)), startsWith (parseSortField field) "-")) := by
  have hnil : (request.map signed).map parseSortField ≠ [] := by
    intro hnil
    rw [hnil] at h
    cases h
  unfold clauseFor InstanceModel.orderBy
  rw [if_neg hnil, if_pos h]
  exact fillTerms_json (request.map signed)

/-- Native fields only: the clause names their columns. -/
theorem followsSort_native {db : ValueOrder} {request : List (String × Bool)}
    (h : ∀ field ∈ request, Native model field.1) :
    FollowsSort model db (clauseFor model request) request := by
  have hparse : ∀ field ∈ request, parseSortField (signed field) =
      signed ((noneJsonFields field.1).getD field.1, field.2) := fun field hfield =>
    parseSortField_signed (startsWith_of_native model (h field hfield))
  have hstrip : ∀ field ∈ request,
      lstripSign (parseSortField (signed field)) = (noneJsonFields field.1).getD field.1 ∧
      removeSign (parseSortField (signed field)) = (noneJsonFields field.1).getD field.1 ∧
      startsWith (parseSortField (signed field)) "-" = field.2 := by
    intro field hfield
    rw [hparse field hfield]
    have hmem := (sourceOf_of_native model (h field hfield)).2
    exact strip_signed (model.name_ne _ hmem).2
  have hcolumns : model.hasJsonFields ((request.map signed).map parseSortField) = false := by
    rw [InstanceModel.hasJsonFields, List.any_eq_false]
    intro key hkey
    rw [List.map_map] at hkey
    obtain ⟨field, hfield, rfl⟩ := List.mem_map.mp hkey
    rw [decide_eq_true_eq]
    rintro ⟨-, hnot⟩
    refine hnot ?_
    show lstripSign (parseSortField (signed field)) ∈ model.fields
    rw [(hstrip field hfield).1]
    exact (sourceOf_of_native model (h field hfield)).2
  refine ⟨_, fillTerms_clauseFor_columns model hcolumns, fun a b => ?_⟩
  congr 1
  rw [List.map_map, List.map_map]
  refine List.map_congr_left fun field hfield => ?_
  obtain ⟨-, hremove, hsign⟩ := hstrip field hfield
  rw [(sourceOf_of_native model (h field hfield)).1, ← hremove, ← hsign]
  rfl

/-- JSON fields only: the clause has a placeholder for each of them. -/
theorem followsSort_json {db : ValueOrder} {request : List (String × Bool)}
    (h : ∀ field ∈ request, ¬ Native model field.1 ∧ startsWith field.1 "-" = false)
    (hsome : ∃ field ∈ request, field ≠ ("", false)) :
    FollowsSort model db (clauseFor model request) request := by
  have hparse : ∀ field ∈ request, parseSortField (signed field) = signed field := by
    intro field hfield
    rw [parseSortField_signed (h field hfield).2, not_not.mp (not_or.mp (h field hfield).1).1]
    rfl
  have hjson : model.hasJsonFields ((request.map signed).map parseSortField) = true := by
    obtain ⟨field, hfield, hne⟩ := hsome
    rw [InstanceModel.hasJsonFields, List.any_eq_true]
    refine ⟨signed field, ?_, ?_⟩
    · rw [List.map_map]
      exact List.mem_map.mpr ⟨field, hfield, hparse field hfield⟩
    · rw [decide_eq_true_eq, (strip_signed (h field hfield).2).1]
      refine ⟨fun hempty => hne ?_, (not_or.mp (h field hfield).1).2⟩
      obtain ⟨name, descending⟩ := field
      cases descending with
      | true => exact absurd (congrArg String.toList hempty) (by simp [signed])
      | false => exact Prod.ext hempty rfl
  refine ⟨_, fillTerms_clauseFor_json model hjson, fun a b => ?_⟩
  congr 1
  rw [List.map_map]
  refine List.map_congr_left fun field hfield => ?_
  obtain ⟨hstrip, -, hsign⟩ := strip_signed (h field hfield).2
  show (SortSource.json (lstripSign (parseSortField (signed field))),
    startsWith (parseSortField (signed field)) "-") = _
  rw [hparse field hfield, hstrip, hsign, sourceOf_of_not_native model (h field hfield).1]

/-- The clause for requested fields orders as requested exactly when they are all native, or all
JSON fields. -/
theorem followsSort_clauseFor_iff (db : ValueOrder) (request : List (String × Bool)) :
    FollowsSort model db (clauseFor model request) request ↔ SortedAlike model request := by
  constructor
  · rintro ⟨sources, hfill, hfollows⟩
    have hmem : ∀ field ∈ request, sourceOf model field.1 ∈ sources.map Prod.fst :=
      fun field hfield => source_mem_of_follows hfollows
        (List.mem_map.mpr ⟨field, hfield, rfl⟩)
    cases hjson : model.hasJsonFields ((request.map signed).map parseSortField) with
    | false =>
        -- The clause names columns only.
        rw [fillTerms_clauseFor_columns model hjson] at hfill
        obtain rfl := Option.some.inj hfill
        refine .inl fun field hfield => ?_
        obtain ⟨_, hsource, heq⟩ := List.mem_map.mp (hmem field hfield)
        obtain ⟨key, -, rfl⟩ := List.mem_map.mp hsource
        exact native_of_sourceOf model heq.symm
    | true =>
        rw [fillTerms_clauseFor_json model hjson] at hfill
        obtain rfl := Option.some.inj hfill
        refine .inr ⟨fun field hfield => ?_, ?_⟩
        · obtain ⟨_, hsource, heq⟩ := List.mem_map.mp (hmem field hfield)
          obtain ⟨key, -, rfl⟩ := List.mem_map.mp hsource
          obtain ⟨hnative, hname⟩ := not_native_of_sourceOf model heq.symm
          exact ⟨hnative, hname ▸ startsWith_lstripSign _⟩
        · -- The key that is no field of the model is not empty.
          by_contra hall
          rw [InstanceModel.hasJsonFields, List.any_eq_true] at hjson
          obtain ⟨key, hkey, hne⟩ := hjson
          rw [List.map_map] at hkey
          obtain ⟨field, hfield, rfl⟩ := List.mem_map.mp hkey
          have hfield : field = ("", false) := by
            by_contra hne
            exact hall ⟨field, hfield, hne⟩
          rw [hfield, decide_eq_true_eq] at hne
          exact hne.1 (by decide)
  · rintro (h | ⟨h, hsome⟩)
    · exact followsSort_native model h
    · exact followsSort_json model h hsome

end Model

/-! ### A native and a JSON field -/

/-- A runtime that reads every text as the given items, and every value as one. -/
def itemsRuntime (items : List (String × RawJson)) : SortRuntime where
  jsonLoads _ := .ok (.object items)
  str _ := "1"
  strptime _ _ := none
  intOf _ := .ok 1

/-- Some fields of `Instance`. -/
def someFields : InstanceModel where
  fields := ["id", "json", "xml", "date_created", "date_modified", "last_edited", "version"]
  name_ne := by decide
  columns_mem := by
    intro key column h
    unfold noneJsonFields at h
    split at h
    all_goals first
      | cases h
        decide
      | cases h

/-- The texts in their order, and nulls behind them. -/
def nullsLast : ValueOrder where
  compare _ v w :=
    match v, w with
    | some v, some w => compareOfLessAndEq v w
    | some _, none => .lt
    | none, some _ => .gt
    | none, none => .eq
  compare_self _ value := by
    cases value with
    | none => rfl
    | some v => simp [compareOfLessAndEq]
  apart _ := ⟨some "1", none, by simp⟩

/-- The sort string with a native and a JSON field. -/
def mixedSort : String :=
  "\x7b\"_id\": 1, \"age\": 1\x7d"

end Onadata.Proofs
