import Onadata.Lib.ExceptList
import Onadata.Lib.ObjectsGet
import Onadata.Lib.Table

/-!
# `Onadata.Apps.Viewer.Models.EntityLinks`: a form is linked to entity lists

The handlers `create_registration_form`, `create_follow_up_form` and `disable_registration_form`
of `apps/viewer/models/data_dictionary.py`, which run in this order when a form is published, on
the rows of `RegistrationForm` and `FollowUpForm` of the form. An entity list that is deleted is a
row as well, with another name as a rule.

Left out: the properties of an entity list, the media that link a form to a list, and the choices
of a question, which have neither type nor children.
-/

set_option autoImplicit false

namespace Onadata

open Onadata.Lib

/-- A node of the JSON of a form: a group, a repeat, a question, `meta`, an entity and what is in
it; or a question whose choices come from an itemset, which has no children. -/
inductive FormNode
  | node (name type : String) (parameters : List (String × String)) (value : Option String)
      (children : List FormNode)
  | fromItemset (name type itemset : String)

/-- `child.get("name")`. -/
def FormNode.name : FormNode → String
  | .node name _ _ _ _ => name
  | .fromItemset name _ _ => name

/-- `child.get("children", [])`. -/
def FormNode.children : FormNode → List FormNode
  | .node _ _ _ _ children => children
  | .fromItemset _ _ _ => []

/-- `child.get("value")`. -/
def FormNode.value : FormNode → Option String
  | .node _ _ _ value _ => value
  | .fromItemset _ _ _ => none

/-- The JSON of a form, as far as the handlers read it. -/
structure FormDefinition where
  entityFeatures : List String := []
  entityVersion : String := ""
  children : List FormNode

/-- A row of `EntityList`. -/
structure EntityList where
  name : String
  project : Nat
  deriving DecidableEq, Repr

/-- A form with the entity lists of all projects. A link of the form, under the primary key of the
list, is whether it is active. -/
structure FormLinks where
  project : Nat
  entityLists : Table EntityList := {}
  registrationForms : List (Nat × Bool) := []
  followUpForms : List (Nat × Bool) := []

/-- Why a publication fails. -/
inductive LinkError
  | integrityError
  | dataError
  | multipleObjectsReturned
  deriving DecidableEq, Repr

/-- `_has_entity_definition`. -/
def hasEntityDefinition (definition : FormDefinition) : Bool :=
  !definition.entityFeatures.isEmpty || definition.entityVersion ≠ ""

/-- `_get_entity_dataset`. -/
def getEntityDataset : FormNode → Option String
  | .fromItemset _ _ _ => none
  | .node _ _ parameters _ children =>
      if parameters ≠ [] then Dict.get? parameters "dataset"
      else (children.find? (·.name = "dataset")).bind FormNode.value

/-- The first node `entity` of a node `meta`. The loop over them returns at the first one. -/
def firstEntity (children : List FormNode) : Option FormNode :=
  ((children.filter (·.name = "meta")).flatMap FormNode.children).find? (·.name = "entity")

/-- The name of the dataset of an itemset: `itemset.split(".")[0]`. -/
def datasetName (itemset : String) : String :=
  String.ofList (itemset.toList.takeWhile (· ≠ '.'))

/-- `candidate_survey_types`. -/
def isCandidateSurveyType (type : String) : Bool :=
  type = "select one" || type = "select all that apply"

namespace FormLinks

/-- The entity list with the name in the project of the form. -/
def isNamed (db : FormLinks) (name : String) (item : Nat × EntityList) : Bool :=
  item.2.name = name && item.2.project = db.project

/-- The list has one of the names. -/
def nameIn (db : FormLinks) (names : List String) (pk : Nat) : Bool :=
  (db.entityLists.get? pk).any fun entityList => names.contains entityList.name

/-- `EntityList.objects.get_or_create(name=dataset, project=instance.project)`. -/
def getOrCreateEntityList (db : FormLinks) (name : String) : Except LinkError (FormLinks × Nat) :=
  match objectsGet db.entityLists.rows (db.isNamed name) with
  | .ok item => .ok (db, item.1)
  | .error .multipleObjectsReturned => .error .multipleObjectsReturned
  | .error .doesNotExist =>
      if 255 < name.length then .error .dataError
      else
        .ok ({ db with entityLists := db.entityLists.create { name := name, project := db.project } },
          db.entityLists.nextPk)

/-- The list of an entity is there and its link is active. A list has a name. -/
def registerDataset (s : FormLinks × List String) (dataset : Option String) :
    Except LinkError (FormLinks × List String) :=
  match dataset with
  | none => .error .integrityError
  | some name => do
      let (db, pk) ← s.1.getOrCreateEntityList name
      return ({ db with registrationForms := Dict.insert db.registrationForms pk true },
        s.2 ++ [name])

/-- The loop over `meta_list` in `_register`. -/
def registerMetas (children : List FormNode) (s : FormLinks × List String) :
    Except LinkError (FormLinks × List String) :=
  match firstEntity children with
  | none => .ok s
  | some entity => registerDataset s (getEntityDataset entity)

mutual

/-- `_register` of the children of a node. -/
def registerNode : FormNode → FormLinks × List String → Except LinkError (FormLinks × List String)
  | .node _ _ _ _ children, s => do registerMetas children (← registerNodes children s)
  | .fromItemset _ _ _, s => .ok s

/-- The first loop of `_register`. -/
def registerNodes : List FormNode → FormLinks × List String →
    Except LinkError (FormLinks × List String)
  | [], s => .ok s
  | child :: rest, s => do registerNodes rest (← registerNode child s)

end

/-- `_register`. -/
def register (children : List FormNode) (s : FormLinks × List String) :
    Except LinkError (FormLinks × List String) := do
  registerMetas children (← registerNodes children s)

/-- `create_registration_form`. -/
def createRegistrationForm (db : FormLinks) (definition : FormDefinition) :
    Except LinkError FormLinks :=
  if !hasEntityDefinition definition then .ok db
  else do
    let (db, datasets) ← register definition.children (db, [])
    return { db with
      registrationForms := db.registrationForms.map fun link =>
        (link.1, link.2 && db.nameIn datasets link.1) }

/-- The list of an itemset is linked, if it is there. -/
def linkItemset (s : FormLinks × List String) (name : String) :
    Except LinkError (FormLinks × List String) :=
  match objectsGet s.1.entityLists.rows (s.1.isNamed name) with
  | .ok item =>
      .ok ({ s.1 with followUpForms := Dict.insert s.1.followUpForms item.1 true }, s.2 ++ [name])
  | .error .doesNotExist => .ok s
  | .error .multipleObjectsReturned => .error .multipleObjectsReturned

mutual

/-- `link_dataset`, for one child. -/
def linkNode : FormNode → FormLinks × List String → Except LinkError (FormLinks × List String)
  | .fromItemset _ type itemset, s =>
      if isCandidateSurveyType type then linkItemset s (datasetName itemset) else .ok s
  | .node _ _ _ _ children, s => linkNodes children s

/-- `link_dataset`. -/
def linkNodes : List FormNode → FormLinks × List String →
    Except LinkError (FormLinks × List String)
  | [], s => .ok s
  | child :: rest, s => do linkNodes rest (← linkNode child s)

end

/-- `create_follow_up_form`. -/
def createFollowUpForm (db : FormLinks) (definition : FormDefinition) :
    Except LinkError FormLinks := do
  let (db, activeEntityDatasets) ← linkNodes definition.children (db, [])
  return { db with
    followUpForms := db.followUpForms.map fun link =>
      (link.1, link.2 && db.nameIn activeEntityDatasets link.1) }

/-- `disable_registration_form`. -/
def disableRegistrationForm (db : FormLinks) (definition : FormDefinition) : FormLinks :=
  if !hasEntityDefinition definition then
    { db with registrationForms := db.registrationForms.map fun link => (link.1, false) }
  else db

/-- The handlers that link a form when it is published. -/
def publish (db : FormLinks) (definition : FormDefinition) : Except LinkError FormLinks := do
  let db ← db.createRegistrationForm definition
  let db ← db.createFollowUpForm definition
  return db.disableRegistrationForm definition

end FormLinks

end Onadata
