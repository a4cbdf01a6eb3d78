import Onadata.Apps.Api.Viewsets.OpenDataViewset
import Onadata.Lib.PyDict

/-!
# `Onadata.Proofs.Apps.Api.OpenDataSchema`: what an open-data schema depends on

`SchemaOwn` states what the schema of a form promises: it is the one of a first request, and the
column of a question has the type of the question.

`flattened_dict` keeps the names of all forms that were asked for before. `typedNames` lists the
names that a form puts in it, and `typeOf` is the type of a column from such a list: the first name
that the column has, or ends with, and the last type of that name. `schemaOwn_iff`: the schema is
that of the form if and only if the earlier names do not change `typeOf` for its columns, and the
first name of each question's column has the type of the question.
-/

set_option autoImplicit false

namespace Onadata

open Onadata.Lib

namespace OpenDataViewSet

/-! ### The names of a form -/

mutual

/-- The names that an element puts in `flattened_dict`, with their types, in order. -/
def elementNames : SurveyElement → List (String × String)
  | .question name type choices =>
      (name, getTableauType type) ::
        if type ∉ IGNORED_FIELD_TYPES then choices.map fun choice => (choice, "string") else []
  | .group name children => (name, getTableauType "group") :: typedNames children
  | .repeatSection name children => (name, getTableauType "repeat") :: typedNames children

/-- The names that elements put in `flattened_dict`, with their types, in order. -/
def typedNames : List SurveyElement → List (String × String)
  | [] => []
  | field :: rest => elementNames field ++ typedNames rest

end

mutual

theorem flattenColumn_eq (flattenedDict : FlattenedDict) (field : SurveyElement) :
    flattenColumn flattenedDict field = Dict.update flattenedDict (elementNames field) := by
  match field with
  | .question name type choices =>
      rw [flattenColumn, elementNames]
      show _ = Dict.update (Dict.insert flattenedDict name (getTableauType type)) _
      by_cases htype : type ∉ IGNORED_FIELD_TYPES
      · simp only [if_pos htype]
        unfold Dict.update
        rw [List.foldl_map]
      · simp only [if_neg htype]
        rfl
  | .group name children =>
      rw [flattenColumn, elementNames, flattenXformColumns_eq]
      rfl
  | .repeatSection name children =>
      rw [flattenColumn, elementNames, flattenXformColumns_eq]
      rfl

/-- A form updates `flattened_dict` with its names. -/
theorem flattenXformColumns_eq (flattenedDict : FlattenedDict) (fields : List SurveyElement) :
    flattenXformColumns flattenedDict fields =
      Dict.update flattenedDict (typedNames fields) := by
  match fields with
  | [] =>
      rw [flattenXformColumns, typedNames]
      rfl
  | field :: rest =>
      rw [flattenXformColumns, typedNames, Dict.update_append, flattenXformColumns_eq,
        flattenColumn_eq]

end

/-- `flattened_dict` after requests for some forms. -/
def served (settings : OpenDataSettings) (history : List XForm) : FlattenedDict :=
  history.foldl (fun flattenedDict form => (schema settings flattenedDict form).2) []

/-- The names of the forms that were asked for. -/
def earlierNames (history : List XForm) : List (String × String) :=
  history.flatMap fun form => typedNames form.children

theorem served_eq (settings : OpenDataSettings) (history : List XForm) :
    served settings history = Dict.update [] (earlierNames history) := by
  have hstep : (fun flattenedDict form => (schema settings flattenedDict form).2) =
      fun (flattenedDict : FlattenedDict) (form : XForm) =>
        Dict.update flattenedDict (typedNames form.children) := by
    funext flattenedDict form
    exact flattenXformColumns_eq flattenedDict form.children
  unfold served earlierNames
  rw [hstep, Dict.foldl_update]

/-! ### The type of a column -/

/-- The first name that a column has, or ends with. -/
def firstName (names : List (String × String)) (header : String) : Option String :=
  (Dict.keys names).find? (namesColumn header)

/-- The last type of a name. -/
def lastType (names : List (String × String)) (name : String) : Option String :=
  (names.reverse.find? fun item => item.1 = name).map Prod.snd

/-- The type of a column, from the names in order. -/
def typeOf (names : List (String × String)) (header : String) : String :=
  match firstName names header with
  | some name => (lastType names name).getD "string"
  | none => if header = "_id" then "int" else "string"

/-- The type of a column in a dict, by the key that names it. -/
theorem columnType_eq {flattenedDict : FlattenedDict} (hnodup : (Dict.keys flattenedDict).Nodup)
    (header : String) : columnType flattenedDict header =
      match (Dict.keys flattenedDict).find? (namesColumn header) with
      | some name => (Dict.get? flattenedDict name).getD "string"
      | none => if header = "_id" then "int" else "string" := by
  have hkeys : (Dict.keys flattenedDict).find? (namesColumn header) =
      (flattenedDict.find? fun item => namesColumn header item.1).map Prod.fst :=
    List.find?_map ..
  unfold columnType
  rw [hkeys]
  cases hfound : flattenedDict.find? fun item => namesColumn header item.1 with
  | none => rfl
  | some item =>
      have hget := Dict.get?_of_mem hnodup (List.mem_of_find?_eq_some hfound)
      simp only [Option.map_some, hget, Option.getD_some]

/-- The type of a column comes from the names in order. -/
theorem columnType_update (names : List (String × String)) (header : String) :
    columnType (Dict.update [] names) header = typeOf names header := by
  have hnil : (Dict.keys ([] : FlattenedDict)).Nodup := List.nodup_nil
  have hnodup := Dict.nodup_keys_update hnil names
  rw [columnType_eq hnodup, Dict.find?_keys_update]
  unfold typeOf firstName lastType
  simp only [Dict.keys_nil, List.find?_nil, Option.none_or, Dict.get?_update, Dict.get?,
    Option.or_none]

theorem firstName_append (names names' : List (String × String)) (header : String) :
    firstName (names ++ names') header = (firstName names header).or (firstName names' header) := by
  unfold firstName
  rw [Dict.keys_append, List.find?_append]

theorem lastType_append (names names' : List (String × String)) (name : String) :
    lastType (names ++ names') name = (lastType names' name).or (lastType names name) := by
  unfold lastType
  rw [List.reverse_append, List.find?_append]
  cases names'.reverse.find? fun item => item.1 = name <;> rfl

/-- A name that is first has a last type. -/
theorem lastType_of_firstName {names : List (String × String)} {header name : String}
    (h : firstName names header = some name) : ∃ type, lastType names name = some type := by
  obtain ⟨item, hitem, rfl⟩ := List.mem_map.mp (List.mem_of_find?_eq_some h)
  have hfound : (names.reverse.find? fun other => other.1 = item.1).isSome := by
    rw [List.find?_isSome]
    exact ⟨item, List.mem_reverse.mpr hitem, decide_eq_true rfl⟩
  obtain ⟨other, hother⟩ := Option.isSome_iff_exists.mp hfound
  refine ⟨other.2, ?_⟩
  unfold lastType
  rw [hother]
  rfl

/-- Earlier names leave the type of a column as it is where the first of them that the column has
or ends with has, in the end, that type. -/
theorem typeOf_append_iff (names own : List (String × String)) (header : String) :
    typeOf (names ++ own) header = typeOf own header ↔
      ∀ name, firstName names header = some name →
        lastType (names ++ own) name = some (typeOf own header) := by
  cases hfirst : firstName names header with
  | none =>
      refine iff_of_true ?_ fun name h => by cases h
      -- The first name is one of the form's own, and so is its last type.
      unfold typeOf
      rw [firstName_append, hfirst, Option.none_or]
      cases hown : firstName own header with
      | none => rfl
      | some name =>
          obtain ⟨type, htype⟩ := lastType_of_firstName hown
          simp only [lastType_append, htype, Option.some_or]
  | some name =>
      obtain ⟨type, htype⟩ : ∃ type, lastType (names ++ own) name = some type := by
        obtain ⟨type, htype⟩ := lastType_of_firstName hfirst
        rw [lastType_append, htype]
        cases lastType own name with
        | none => exact ⟨type, rfl⟩
        | some last => exact ⟨last, rfl⟩
      have htypeOf : typeOf (names ++ own) header = type := by
        unfold typeOf
        rw [firstName_append, hfirst, Option.some_or]
        simp only [htype, Option.getD_some]
      rw [htypeOf]
      refine ⟨fun h other hother => ?_, fun h => ?_⟩
      · rw [← Option.some_inj.mp hother, htype, h]
      · exact Option.some_inj.mp (htype.symm.trans (h name rfl))

/-! ### The schema of a form -/

section
variable (settings : OpenDataSettings)

mutual

/-- The columns of the questions in an element below `path`, with the types of the questions. -/
def elementColumns (path : List String) : SurveyElement → List (String × String)
  | .question name type choices =>
      (questionXpaths settings.bindType path name type choices).map fun xpath => (xpath, type)
  | .group name children => questionColumns (path ++ [name]) children
  | .repeatSection name children =>
      (List.range 4).flatMap fun i => questionColumns (path ++ [name ++ repeatIndex i]) children

/-- The columns of the questions in elements below `path`, with the types of the questions. -/
def questionColumns (path : List String) : List SurveyElement → List (String × String)
  | [] => []
  | child :: rest => elementColumns path child ++ questionColumns path rest

end

mutual

theorem keys_elementColumns (path : List String) (element : SurveyElement) :
    Dict.keys (elementColumns settings path element) =
      element.xpaths settings.bindType 4 path := by
  match element with
  | .question name type choices =>
      rw [elementColumns, SurveyElement.xpaths]
      unfold Dict.keys
      rw [List.map_map]
      exact List.map_id _
  | .group name children =>
      rw [elementColumns, SurveyElement.xpaths, keys_questionColumns]
  | .repeatSection name children =>
      rw [elementColumns, SurveyElement.xpaths]
      unfold Dict.keys
      rw [List.map_flatMap]
      congr 1
      funext i
      exact keys_questionColumns _ children

/-- The columns of the questions are the headers of the form before the metadata. -/
theorem keys_questionColumns (path : List String) (children : List SurveyElement) :
    Dict.keys (questionColumns settings path children) =
      childXpaths settings.bindType 4 path children := by
  match children with
  | [] =>
      rw [questionColumns, childXpaths]
      rfl
  | child :: rest =>
      rw [questionColumns, childXpaths, Dict.keys_append, keys_elementColumns,
        keys_questionColumns]

end

/-- The schema of a form after other requests is the one of a first request, and the column of a
question has the type of the question. -/
structure SchemaOwn (history : List XForm) (form : XForm) : Prop where
  same : ∀ column, column ∈ (schema settings (served settings history) form).1 ↔
    column ∈ (schema settings [] form).1
  types : ∀ question ∈ questionColumns settings [] form.children,
    ∀ column ∈ (schema settings (served settings history) form).1,
      column.id = withUnderscores settings question.1 →
        column.dataType = getTableauType question.2

/-- Where a column has or ends with an earlier name, the first one has, in the end, the type that
the form's own names give the column. -/
def EarlierHarmless (history : List XForm) (form : XForm) : Prop :=
  ∀ header ∈ columnIds settings form, ∀ name,
    firstName (earlierNames history) header = some name →
      lastType (earlierNames history ++ typedNames form.children) name =
        some (typeOf (typedNames form.children) header)

/-- The first of the form's own names that the column of a question has or ends with has, in the
end, the type of the question. -/
def OwnNamesFirst (form : XForm) : Prop :=
  ∀ question ∈ questionColumns settings [] form.children,
    withUnderscores settings question.1 ∈ columnIds settings form →
      typeOf (typedNames form.children) (withUnderscores settings question.1) =
        getTableauType question.2

/-- A column, from the names in order. -/
def columnOf (names : List (String × String)) (header : String) : OpenDataColumn :=
  { id := header, dataType := typeOf names header, «alias» := header }

/-- The columns of a schema, from all names in order. -/
theorem mem_schema (history : List XForm) (form : XForm) (column : OpenDataColumn) :
    column ∈ (schema settings (served settings history) form).1 ↔
      ∃ header ∈ columnIds settings form,
        columnOf (earlierNames history ++ typedNames form.children) header = column := by
  unfold schema getTableauColumnHeaders columnOf
  rw [List.mem_map]
  simp only [flattenXformColumns_eq, served_eq, ← Dict.update_append, columnType_update]

/-- The schema is the one of a first request where the earlier names are harmless. -/
theorem same_iff (history : List XForm) (form : XForm) :
    (∀ column, column ∈ (schema settings (served settings history) form).1 ↔
      column ∈ (schema settings [] form).1) ↔ EarlierHarmless settings history form := by
  have hfirst := mem_schema settings [] form
  have hheader : EarlierHarmless settings history form ↔ ∀ header ∈ columnIds settings form,
      typeOf (earlierNames history ++ typedNames form.children) header =
        typeOf (typedNames form.children) header := by
    unfold EarlierHarmless
    simp only [typeOf_append_iff]
  rw [hheader]
  refine ⟨fun h header hmem => ?_, fun h column => ?_⟩
  · obtain ⟨other, -, hother⟩ := (hfirst _).mp ((h _).mp
      ((mem_schema settings history form _).mpr ⟨header, hmem, rfl⟩))
    obtain ⟨rfl, htype, -⟩ := OpenDataColumn.mk.inj hother
    exact htype.symm
  · refine (mem_schema settings history form column).trans (Iff.trans ?_ (hfirst column).symm)
    refine exists_congr fun header => and_congr_right fun hmem => ?_
    unfold columnOf
    rw [h header hmem]
    rfl

/-- The schema depends on its form only, exactly where the earlier names are harmless and the form's
own names come first. -/
theorem schemaOwn_iff (history : List XForm) (form : XForm) :
    SchemaOwn settings history form ↔
      EarlierHarmless settings history form ∧ OwnNamesFirst settings form := by
  have htypes := mem_schema settings [] form
  refine ⟨fun h => ⟨(same_iff settings history form).mp h.same, fun question hquestion hmem => ?_⟩,
    fun ⟨hearlier, hown⟩ => ?_⟩
  · have hcolumn := (htypes _).mpr ⟨withUnderscores settings question.1, hmem, rfl⟩
    exact h.types question hquestion _ ((h.same _).mpr hcolumn) rfl
  · have hsame := (same_iff settings history form).mpr hearlier
    refine ⟨hsame, fun question hquestion column hcolumn hid => ?_⟩
    obtain ⟨header, hmem, rfl⟩ := (htypes column).mp ((hsame column).mp hcolumn)
    obtain rfl : header = withUnderscores settings question.1 := hid
    exact hown question hquestion hmem

end

/-! ### A name of another form -/

/-- `\w` on ASCII characters, and the types of pyxform. -/
def asciiSettings : OpenDataSettings where
  isWord := fun c => c.isAlphanum || c == '_'
  bindType := fun type => if type = MULTIPLE_SELECT_TYPE then "string" else type

/-- A form with a text question. -/
def textForm : XForm where
  children := [.question "child_years" "text" []]

/-- A form with an integer question in a group. -/
def yearsForm : XForm where
  children := [.group "child" [.question "years" "integer" []]]

/-- The schema of the second form after the first has a text column for its integer question. -/
theorem not_schemaOwn_after : ¬ ∀ settings history form, SchemaOwn settings history form := by
  intro h
  have hcolumn : OpenDataColumn.mk "child_years" "int" "child_years" ∈
      (schema asciiSettings [] yearsForm).1 := by decide +kernel
  have hafter := ((h asciiSettings [textForm] yearsForm).same _).mpr hcolumn
  revert hafter
  decide +kernel

end OpenDataViewSet

end Onadata
