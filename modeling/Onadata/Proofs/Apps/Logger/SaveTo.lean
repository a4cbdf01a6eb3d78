import Mathlib.Data.List.Nodup
import Onadata.Apps.Logger.Models.RegistrationForm
import Onadata.Lib.PyDict
import Onadata.Lib.SlashPath

/-!
# `Onadata.Proofs.Apps.Logger.SaveTo`: the fields that save a property of an entity

A container is a list of sibling fields. It declares the entity list that
`get_container_dataset` reads from it. `saveToFields` lists the fields of a form that save a
property, each with the entity list of the nearest container around it that declares one.

`SavesExactly` states what `get_save_to` promises: the properties of the fields whose nearest
declaring container is the one of the entity list, each with the path of its field from the root.
A field that saves a property is a leaf for `get_entity_property_fields`: a field inside it, with no
declaring container between the two, is `covered` and gives no property. `getSaveTo_exact` is the
promise for the other fields, in every form that declares the entity list at most once.

The search for the container and the collection of the fields stop at different fields.
`findInFields_some` connects them: where the search goes down, the fields outside the subtree that
it finds save no property of the entity list.
-/

set_option autoImplicit false

namespace Onadata.Proofs

open Onadata.Lib

namespace SaveTo

open FormField

/-- A field that saves a property. `container` is the entity list that the nearest declaring
container declares. `covered` is true when the field is inside another one that saves a property,
with no declaring container between them. -/
structure SaveToField where
  saveTo : String
  path : List String
  container : Option String
  covered : Bool
  deriving DecidableEq, Repr

mutual

/-- The fields that save a property in a field of a container. -/
def savedInField (container : Option String) (covered : Bool) (path : List String) :
    FormField → List SaveToField
  | mk name _ _ saveTo children =>
      (saveTo.toList.map fun saveTo => ⟨saveTo, path ++ [name], container, covered⟩) ++
        if getContainerDataset children = none then
          savedInFields container (covered || saveTo.isSome) (path ++ [name]) children
        else savedInFields (getContainerDataset children) false (path ++ [name]) children

/-- The fields that save a property in the fields of a container. -/
def savedInFields (container : Option String) (covered : Bool) (path : List String) :
    List FormField → List SaveToField
  | [] => []
  | field :: rest =>
      savedInField container covered path field ++ savedInFields container covered path rest

end

/-- The fields of a form that save a property. -/
def saveToFields (children : List FormField) : List SaveToField :=
  savedInFields (getContainerDataset children) false [] children

section
variable (dataset : String)

/-- One if the container declares the entity list. -/
def declares (formFields : List FormField) : Nat :=
  if getContainerDataset formFields = some dataset then 1 else 0

mutual

/-- How many containers below a field declare the entity list. -/
def declarationsBelow : FormField → Nat
  | mk _ _ _ _ children => declares dataset children + declarationsInside children

/-- How many containers below the fields declare the entity list. -/
def declarationsInside : List FormField → Nat
  | [] => 0
  | field :: rest => declarationsBelow field + declarationsInside rest

end

/-- How many containers of a form declare the entity list. -/
def declarations (children : List FormField) : Nat :=
  declares dataset children + declarationsInside dataset children

/-- The fields that `get_save_to` collects. -/
def collected (fields : List SaveToField) : List SaveToField :=
  fields.filter fun field => field.container = some dataset ∧ field.covered = false

/-- The item of a field in the result. -/
def saveToItem (field : SaveToField) : String × String :=
  (field.saveTo, joinPath field.path)

end

/-! ### Paths -/

/-- The text before the name of a child, below a path. -/
def childPrefix (path : List String) : String :=
  joinPath (path ++ [""])

theorem childPrefix_append_name (path : List String) (name : String) :
    childPrefix path ++ name = joinPath (path ++ [name]) := by
  unfold childPrefix
  rw [joinPath_append_text, String.empty_append]

theorem childPrefix_append_slash (path : List String) (name : String) :
    childPrefix path ++ name ++ "/" = childPrefix (path ++ [name]) := by
  have hslash : ∀ text : String, text ++ "/" = joinPath [text, ""] := by
    intro text
    rw [joinPath_cons text (by simp), joinPath_singleton, String.append_empty]
  rw [childPrefix_append_name, hslash]
  exact joinPath_joinPath_cons (by simp) (by simp)

/-! ### Fields outside the container -/

section
variable {dataset : String}

theorem collected_append (fields fields' : List SaveToField) :
    collected dataset (fields ++ fields') = collected dataset fields ++ collected dataset fields' :=
  List.filter_append ..

theorem getContainerDataset_ne {children : List FormField} (h : declares dataset children = 0) :
    getContainerDataset children ≠ some dataset := by
  intro heq
  rw [declares, if_pos heq] at h
  cases h

/-- What a field saves itself is of no interest outside the container. -/
theorem collected_own {container : Option String} {covered : Bool}
    (hout : container = some dataset → covered = true) (path : List String)
    (saveTo : Option String) :
    collected dataset (saveTo.toList.map fun saveTo =>
      (⟨saveTo, path, container, covered⟩ : SaveToField)) = [] := by
  refine List.filter_eq_nil_iff.mpr (fun entry hentry => ?_)
  obtain ⟨_, _, rfl⟩ := List.mem_map.mp hentry
  intro hcollected
  have hboth := of_decide_eq_true hcollected
  rw [hout hboth.1] at hboth
  exact Bool.noConfusion hboth.2

mutual

/-- A field below which no container declares the entity list saves no property of it, unless the
container around it declares it. -/
theorem collected_savedInField {field : FormField} {container : Option String} {covered : Bool}
    {path : List String} (hout : container = some dataset → covered = true)
    (h : declarationsBelow dataset field = 0) :
    collected dataset (savedInField container covered path field) = [] := by
  match field with
  | mk name parameters value saveTo children =>
      rw [declarationsBelow] at h
      rw [savedInField, collected_append, collected_own hout, List.nil_append]
      have hinside : declarationsInside dataset children = 0 := by omega
      split
      · refine collected_savedInFields (fun hcontainer => ?_) hinside
        rw [hout hcontainer, Bool.true_or]
      · refine collected_savedInFields (fun hcontainer => ?_) hinside
        exact absurd hcontainer (getContainerDataset_ne (by omega))

theorem collected_savedInFields {fields : List FormField} {container : Option String}
    {covered : Bool} {path : List String} (hout : container = some dataset → covered = true)
    (h : declarationsInside dataset fields = 0) :
    collected dataset (savedInFields container covered path fields) = [] := by
  match fields with
  | [] => rfl
  | field :: rest =>
      rw [declarationsInside] at h
      rw [savedInFields, collected_append, collected_savedInField hout (by omega),
        collected_savedInFields hout (by omega), List.nil_append]

end

/-! ### Fields of the container -/

mutual

/-- A turn of the loop adds the properties of a field of the container. -/
theorem addEntityProperty_eq {field : FormField} {path : List String}
    (result : List (String × String)) (h : declarationsBelow dataset field = 0) :
    addEntityProperty dataset (childPrefix path) result field =
      Dict.update result
        ((collected dataset (savedInField (some dataset) false path field)).map saveToItem) := by
  match field with
  | mk name parameters value (some saveTo) children =>
      rw [declarationsBelow] at h
      have hinside : declarationsInside dataset children = 0 := by omega
      -- what is inside the field is covered by it, or has another container
      have hrest : collected dataset (if getContainerDataset children = none then
          savedInFields (some dataset) true (path ++ [name]) children
          else savedInFields (getContainerDataset children) false (path ++ [name]) children) =
            [] := by
        split
        · exact collected_savedInFields (fun _ => rfl) hinside
        · refine collected_savedInFields (fun hcontainer => ?_) hinside
          exact absurd hcontainer (getContainerDataset_ne (by omega))
      rw [addEntityProperty, savedInField, collected_append]
      show _ = Dict.update result ((_ ++ collected dataset (if _ then _ else _)).map saveToItem)
      rw [Bool.false_or, Option.isSome_some, hrest, List.append_nil, childPrefix_append_name]
      simp [collected, saveToItem, Dict.update]
  | mk name parameters value none children =>
      rw [declarationsBelow] at h
      have hinside : declarationsInside dataset children = 0 := by omega
      have hne : getContainerDataset children ≠ some dataset := getContainerDataset_ne (by omega)
      rw [addEntityProperty, savedInField, Option.toList_none, List.map_nil, List.nil_append,
        Option.isSome_none, Bool.or_false]
      by_cases hdeclares : getContainerDataset children = none
      · rw [if_pos hdeclares, if_pos (Or.inl hdeclares), childPrefix_append_slash,
          getEntityPropertyFields_eq result hinside]
        cases children with
        | nil => rfl
        | cons _ _ => rfl
      · rw [if_neg hdeclares, if_neg (not_or.mpr ⟨hdeclares, hne⟩),
          collected_savedInFields (fun hcontainer => absurd hcontainer hne) hinside]
        exact ite_self result

theorem getEntityPropertyFields_eq {fields : List FormField} {path : List String}
    (result : List (String × String)) (h : declarationsInside dataset fields = 0) :
    getEntityPropertyFields dataset (childPrefix path) result fields =
      Dict.update result
        ((collected dataset (savedInFields (some dataset) false path fields)).map saveToItem) := by
  match fields with
  | [] => rfl
  | field :: rest =>
      rw [declarationsInside] at h
      rw [getEntityPropertyFields, addEntityProperty_eq result (by omega),
        getEntityPropertyFields_eq _ (by omega), savedInFields, collected_append, List.map_append,
        Dict.update_append]

end

/-! ### The search for the container -/

mutual

theorem declarationsBelow_of_findInChildren {field : FormField} {xpathPrefix : String}
    (h : findInChildren dataset xpathPrefix field = none) :
    declarationsBelow dataset field = 0 := by
  match field with
  | mk name parameters value saveTo [] => rfl
  | mk name parameters value saveTo (child :: children) =>
      rw [findInChildren] at h
      unfold declarationsBelow declares
      by_cases hdeclares : getContainerDataset (child :: children) = some dataset
      · rw [if_pos hdeclares] at h
        cases h
      · rw [if_neg hdeclares] at h ⊢
        rw [declarationsInside_of_findInFields h]

/-- A search that finds nothing has passed every container. -/
theorem declarationsInside_of_findInFields {fields : List FormField} {xpathPrefix : String}
    (h : findInFields dataset xpathPrefix fields = none) :
    declarationsInside dataset fields = 0 := by
  match fields with
  | [] => rfl
  | field :: rest =>
      rw [findInFields] at h
      rw [declarationsInside]
      cases hfield : findInChildren dataset xpathPrefix field with
      | some found =>
          rw [hfield] at h
          cases h
      | none =>
          rw [hfield] at h
          rw [declarationsBelow_of_findInChildren hfield, declarationsInside_of_findInFields h]

end

variable (dataset) in
/-- `found` is the container that declares the entity list, and all that `fields` has to collect
is in it. -/
def FoundAll (fields : List SaveToField) (found : List FormField × String) : Prop :=
  ∃ path, found.2 = childPrefix path ∧ declarationsInside dataset found.1 = 0 ∧
    collected dataset fields =
      collected dataset (savedInFields (some dataset) false path found.1)

mutual

theorem findInChildren_some {field : FormField} {container : Option String} {covered : Bool}
    {path : List String} {found : List FormField × String}
    (hout : container = some dataset → covered = true)
    (honce : declarationsBelow dataset field ≤ 1)
    (h : findInChildren dataset (childPrefix path) field = some found) :
    1 ≤ declarationsBelow dataset field ∧
      FoundAll dataset (savedInField container covered path field) found := by
  match field with
  | mk name parameters value saveTo [] => cases h
  | mk name parameters value saveTo (child :: children) =>
      rw [findInChildren, childPrefix_append_slash] at h
      rw [declarationsBelow] at honce ⊢
      unfold FoundAll
      rw [savedInField, collected_append, collected_own hout, List.nil_append]
      by_cases hdeclares : getContainerDataset (child :: children) = some dataset
      · -- the children are the container
        have hone : declares dataset (child :: children) = 1 := if_pos hdeclares
        rw [if_pos hdeclares] at h
        cases h
        rw [hdeclares, if_neg (by simp)]
        have hinside : declarationsInside dataset (child :: children) = 0 := by omega
        exact ⟨by omega, _, rfl, hinside, rfl⟩
      · have hzero : declares dataset (child :: children) = 0 := if_neg hdeclares
        rw [if_neg hdeclares] at h
        rw [hzero, Nat.zero_add] at honce ⊢
        split
        · refine findInFields_some (fun hcontainer => ?_) honce h
          rw [hout hcontainer, Bool.true_or]
        · exact findInFields_some (fun hcontainer => absurd hcontainer hdeclares) honce h

/-- A search among the fields outside the container finds the container, and nothing outside of it
saves a property of the entity list. -/
theorem findInFields_some {fields : List FormField} {container : Option String} {covered : Bool}
    {path : List String} {found : List FormField × String}
    (hout : container = some dataset → covered = true)
    (honce : declarationsInside dataset fields ≤ 1)
    (h : findInFields dataset (childPrefix path) fields = some found) :
    1 ≤ declarationsInside dataset fields ∧
      FoundAll dataset (savedInFields container covered path fields) found := by
  match fields with
  | [] => cases h
  | field :: rest =>
      rw [findInFields] at h
      rw [declarationsInside] at honce ⊢
      unfold FoundAll
      rw [savedInFields, collected_append]
      cases hfield : findInChildren dataset (childPrefix path) field with
      | some found' =>
          rw [hfield] at h
          cases h
          have ⟨hbelow, hfound⟩ := findInChildren_some hout (by omega) hfield
          rw [collected_savedInFields hout (by omega), List.append_nil]
          exact ⟨by omega, hfound⟩
      | none =>
          rw [hfield] at h
          have hbelow := declarationsBelow_of_findInChildren hfield
          have ⟨hinside, hfound⟩ := findInFields_some hout (by omega) h
          rw [collected_savedInField hout hbelow, List.nil_append]
          exact ⟨by omega, hfound⟩

end

/-- The result of `get_save_to`, from the search for the container. -/
theorem getSaveTo_of_container {form : FormRegistration} {version : Option String}
    {children : List FormField} {container : Option (List FormField × String)}
    (hchildren : form.jsonChildren version = .ok children)
    (hcontainer : findContainerFields form.entityList "" children = container) :
    form.getSaveTo version = .ok (container.elim [] fun container =>
      getEntityPropertyFields form.entityList container.2 [] container.1) := by
  unfold FormRegistration.getSaveTo
  rw [hchildren]
  dsimp only [bind, Except.bind]
  rw [hcontainer]
  cases container <;> rfl

/-- `find_container_fields` and `get_entity_property_fields`, one after the other. -/
theorem getSaveTo_eq {form : FormRegistration} {version : Option String}
    {children : List FormField} (hchildren : form.jsonChildren version = .ok children)
    (honce : declarations form.entityList children ≤ 1) :
    form.getSaveTo version = .ok (Dict.update []
      ((collected form.entityList (saveToFields children)).map saveToItem)) := by
  unfold declarations at honce
  unfold saveToFields
  by_cases hdeclares : getContainerDataset children = some form.entityList
  · have hone : declares form.entityList children = 1 := if_pos hdeclares
    rw [getSaveTo_of_container hchildren (if_pos hdeclares), hdeclares,
      ← getEntityPropertyFields_eq [] (by omega)]
    rfl
  · have hout : getContainerDataset children = some form.entityList → false = true :=
      fun hcontainer => absurd hcontainer hdeclares
    cases hfound : findInFields form.entityList "" children with
    | none =>
        rw [getSaveTo_of_container hchildren ((if_neg hdeclares).trans hfound),
          collected_savedInFields hout (declarationsInside_of_findInFields hfound)]
        rfl
    | some found =>
        have hfound : findInFields form.entityList (childPrefix []) children = some found := hfound
        have ⟨_, path, hpath, hinside, hcollected⟩ := findInFields_some hout (by omega) hfound
        rw [getSaveTo_of_container hchildren ((if_neg hdeclares).trans hfound), hcollected,
          ← getEntityPropertyFields_eq [] hinside, ← hpath]
        rfl

end

end SaveTo

open SaveTo FormField

/-- The properties that the container of the entity list saves are different. -/
def DistinctSaveTo (dataset : String) (children : List FormField) : Prop :=
  (((saveToFields children).filter fun field => field.container = some dataset).map
    SaveToField.saveTo).Nodup

instance (dataset : String) (children : List FormField) :
    Decidable (DistinctSaveTo dataset children) :=
  inferInstanceAs (Decidable (List.Nodup _))

/-- `get_save_to` maps the properties of the fields that `included` holds of, each to the full path
of its field. -/
def MapsExactly (form : FormRegistration) (version : Option String)
    (included : SaveToField → Prop) : Prop :=
  ∃ children result, form.jsonChildren version = .ok children ∧
    form.getSaveTo version = .ok result ∧ (Dict.keys result).Nodup ∧
    ∀ saveTo xpath, (saveTo, xpath) ∈ result ↔
      ∃ field ∈ saveToFields children, included field ∧ field.saveTo = saveTo ∧
        joinPath field.path = xpath

/-- In a form that declares the entity list at most once, with different properties, `get_save_to`
finds the fields whose nearest declaring container is the one of the entity list and that are not
inside another such field. -/
theorem getSaveTo_exact (form : FormRegistration) (version : Option String)
    (children : List FormField) (hchildren : form.jsonChildren version = .ok children)
    (honce : declarations form.entityList children ≤ 1)
    (hdistinct : DistinctSaveTo form.entityList children) :
    MapsExactly form version fun field =>
      field.container = some form.entityList ∧ field.covered = false := by
  have hkeys : (Dict.keys ((collected form.entityList (saveToFields children)).map
      saveToItem)).Nodup := by
    unfold Dict.keys
    rw [List.map_map]
    refine List.Nodup.sublist (List.Sublist.map SaveToField.saveTo ?_) hdistinct
    refine List.monotone_filter_right _ (fun field hfield => ?_)
    exact decide_eq_true (of_decide_eq_true hfield).1
  refine ⟨children, _, hchildren, getSaveTo_eq hchildren honce, ?_, ?_⟩
  · rw [Dict.update_nil_of_nodup hkeys]
    exact hkeys
  · intro saveTo xpath
    rw [Dict.update_nil_of_nodup hkeys, List.mem_map]
    constructor
    · intro ⟨field, hfield, hitem⟩
      have ⟨hmem, hcollected⟩ := List.mem_filter.mp hfield
      cases hitem
      exact ⟨field, hmem, of_decide_eq_true hcollected, rfl, rfl⟩
    · intro ⟨field, hmem, hcollected, hsaveTo, hxpath⟩
      refine ⟨field, List.mem_filter.mpr ⟨hmem, decide_eq_true hcollected⟩, ?_⟩
      show (field.saveTo, joinPath field.path) = (saveTo, xpath)
      rw [hsaveTo, hxpath]

/-! ### A tree with a trunk -/

/-- A question that saves a property. -/
def saving (name saveTo : String) (children : List FormField) : FormField :=
  .mk name [] none (some saveTo) children

/-- The `meta` field of a container that declares the trees. -/
def treesMeta : FormField :=
  .mk "meta" [] none none
    [.mk "entity" [("dataset", "trees")] none none [.mk "label" [] none none []]]

/-- A repeat of trees in a group, with a species in a group of its own. -/
def plotForm : FormRegistration where
  entityList := "trees"
  children :=
    [.mk "plot" [] none none
      [.mk "tree" [] none none
        [.mk "details" [] none none [saving "kind" "species" []], treesMeta]]]
  versions := []

theorem getSaveTo_exact_plot :
    MapsExactly plotForm none fun field =>
      field.container = some "trees" ∧ field.covered = false :=
  getSaveTo_exact plotForm none plotForm.children rfl (by decide) (by decide)

/-- A group that saves a property, with a question that saves another one. -/
def trunkForm : FormRegistration where
  entityList := "trees"
  children := [saving "trunk" "trunk" [saving "girth" "girth" []], treesMeta]
  versions := []

/-- A field that saves a property hides the ones inside it. -/
theorem not_mapsExactly_trunk :
    (∀ dataset, declarations dataset trunkForm.children ≤ 1 ∧
      DistinctSaveTo dataset trunkForm.children) ∧
    ¬ MapsExactly trunkForm none fun field => field.container = some trunkForm.entityList := by
  constructor
  · intro dataset
    constructor
    · have hroot : getContainerDataset trunkForm.children = some "trees" := rfl
      have hbelow : declarationsInside dataset trunkForm.children = 0 := by
        simp [trunkForm, treesMeta, saving, declarationsInside, declarationsBelow, declares,
          getContainerDataset, FormField.name]
      unfold declarations declares
      rw [hroot, hbelow]
      split <;> decide
    · have hnodup : ((saveToFields trunkForm.children).map SaveToField.saveTo).Nodup := by decide
      exact List.Nodup.sublist (List.Sublist.map _ List.filter_sublist) hnodup
  · intro ⟨children, result, hchildren, hresult, _, hmaps⟩
    cases hchildren
    cases hresult
    have hgirth := (hmaps "girth" "trunk/girth").mpr
      ⟨⟨"girth", ["trunk", "girth"], some "trees", true⟩, by decide, rfl, rfl, by decide⟩
    revert hgirth
    decide

end Onadata.Proofs
