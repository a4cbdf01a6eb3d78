import Onadata.Lib.ObjectsGet
import Onadata.Lib.PyValue

/-!
# `Onadata.Apps.Logger.Models.RegistrationForm`: the properties that a form saves

`RegistrationForm.get_save_to` of `apps/logger/models/registration_form.py`, over the JSON of the
form. The closures of the source are definitions with the names that they read as arguments:
`dataset` is the name of the entity list, and `result` is passed along.

Left out: the signal that creates the properties of the entity list.
-/

set_option autoImplicit false

namespace Onadata

open Onadata.Lib

/-- A field of a form's JSON. `saveTo` is `bind["entities:saveto"]`. A field without
`parameters` or `children` has the empty ones. -/
inductive FormField
  | mk (name : String) (parameters : List (String × String)) (value saveTo : Option String)
      (children : List FormField)

namespace FormField

def name : FormField → String
  | mk name _ _ _ _ => name

def value : FormField → Option String
  | mk _ _ value _ _ => value

def children : FormField → List FormField
  | mk _ _ _ _ children => children

/-- `get_entity_dataset`. -/
def getEntityDataset : FormField → Option String
  | mk _ parameters _ _ children =>
      if parameters ≠ [] then Dict.get? parameters "dataset"
      else (children.find? fun field => field.name = "dataset").bind value

/-- `get_container_dataset`: the first entity below a `meta` field decides, also when it has no
dataset. -/
def getContainerDataset (formFields : List FormField) : Option String :=
  let metaFields := (formFields.filter fun field => field.name = "meta").flatMap children
  (metaFields.find? fun metaField => metaField.name = "entity").bind getEntityDataset

section
variable (dataset : String)

mutual

/-- `find_container_fields` in the children of a field, if it has any. -/
def findInChildren (xpathPrefix : String) : FormField → Option (List FormField × String)
  | mk name _ _ _ children =>
      let childPrefix := xpathPrefix ++ name ++ "/"
      if children.isEmpty then none
      else if getContainerDataset children = some dataset then some (children, childPrefix)
      else findInFields childPrefix children

/-- The loop of `find_container_fields`. -/
def findInFields (xpathPrefix : String) : List FormField → Option (List FormField × String)
  | [] => none
  | field :: rest =>
      match findInChildren xpathPrefix field with
      | some found => some found
      | none => findInFields xpathPrefix rest

end

/-- `find_container_fields`. -/
def findContainerFields (xpathPrefix : String) (formFields : List FormField) :
    Option (List FormField × String) :=
  if getContainerDataset formFields = some dataset then some (formFields, xpathPrefix)
  else findInFields dataset xpathPrefix formFields

mutual

/-- A turn of the loop of `get_entity_property_fields`. -/
def addEntityProperty (xpathPrefix : String) (result : List (String × String)) :
    FormField → List (String × String)
  | mk name _ _ (some saveTo) _ => Dict.insert result saveTo (xpathPrefix ++ name)
  | mk name _ _ none children =>
      if children.isEmpty then result
      else if getContainerDataset children = none ∨ getContainerDataset children = some dataset then
        getEntityPropertyFields (xpathPrefix ++ name ++ "/") result children
      else result

/-- `get_entity_property_fields`. -/
def getEntityPropertyFields (xpathPrefix : String) (result : List (String × String)) :
    List FormField → List (String × String)
  | [] => result
  | field :: rest =>
      getEntityPropertyFields xpathPrefix (addEntityProperty xpathPrefix result field) rest

end

end

end FormField

/-- A registration form: the name of its entity list and the children in the JSON of its form,
now and in each `XFormVersion`. -/
structure FormRegistration where
  entityList : String
  children : List FormField
  versions : List (String × List FormField)

namespace FormRegistration

/-- `xform_json.get("children", [])`, for the version if it is given. -/
def jsonChildren (form : FormRegistration) (version : Option String) :
    Except GetError (List FormField) :=
  match version with
  | none | some "" => .ok form.children
  | some version =>
      (objectsGet form.versions fun xformVersion => xformVersion.1 = version).map Prod.snd

open FormField in
/-- `get_save_to`. -/
def getSaveTo (form : FormRegistration) (version : Option String) :
    Except GetError (List (String × String)) := do
  let children ← form.jsonChildren version
  match findContainerFields form.entityList "" children with
  | none => return []
  | some container =>
      return getEntityPropertyFields form.entityList container.2 [] container.1

end FormRegistration

end Onadata
