import Onadata.Lib.PyValue
import Onadata.Libs.Utils.LoggerTools

/-!
# `Onadata.Libs.Utils.EntitiesUtils`: entities from submissions

`create_or_update_entity_from_instance` of `libs/utils/entities_utils.py`, the `post_save`
handler of `apps/logger/models/instance.py` that runs it on every save of a submission, and
the saves that `create_instance` makes through `save_submission`.

An entity is found by its list and its uuid. The uuids of the model are in canonical form:
an id that is not a UUID raises, and its submission is not accepted.
-/

set_option autoImplicit false

namespace Onadata

open Onadata.Lib

/-- An entity node of a submission. `groupData` is what `get_entity_group_data` and
`numeric_converter` give for its group. -/
structure EntityNode where
  id : String
  dataset : String
  create : String := ""
  update : String := ""
  groupData : List (String × PyValue) := []
  label : Option String := none
  deriving Repr

/-- A submission with entity nodes. `version` is the form version of the submission. -/
class EntityXml (Xml : Type) extends SubmissionXml Xml where
  entityNodes : Xml → List EntityNode
  version : Xml → String

/-- An active registration form of the form. `saveTo` is `get_save_to`. -/
structure RegistrationForm where
  entityList : Nat
  entityListName : String
  saveTo : String → List (String × String) := fun _ => []

/-- What the handler reads besides the submission. -/
structure EntityEnv where
  registrationForms : List RegistrationForm
  isReviewEnabled : Bool := false
  isReviewApproved : Nat → Bool := fun _ => false

/-- A row of `Entity`. -/
structure Entity where
  entityList : Nat
  uuid : String
  json : List (String × PyValue)
  deriving Repr

/-- `EntityHistory.MutationType`. -/
inductive MutationType
  | create
  | update
  deriving DecidableEq, Repr

/-- A row of `EntityHistory`. -/
structure EntityHistory where
  entityList : Nat
  uuid : String
  xformInstance : Nat
  formVersion : String
  json : List (String × PyValue)
  mutationType : MutationType
  deriving Repr

/-- The entities and their history. -/
structure EntityStore where
  entities : List Entity := []
  histories : List EntityHistory := []
  deriving Repr

/-- What the handler reads of a saved submission. -/
structure SavedInstance (Xml : Type) where
  pk : Nat
  xml : Xml
  deriving Repr

/-- `mutation_success_checks`. -/
def mutationSuccessChecks : List String := ["1", "true"]

/-- The key by which an entity is found. -/
def Entity.key (entity : Entity) : Nat × String :=
  (entity.entityList, entity.uuid)

variable {Xml : Type} [EntityXml Xml]

/-- `get_entity_json_from_instance`. -/
def getEntityJsonFromInstance (saved : SavedInstance Xml) (form : RegistrationForm)
    (node : EntityNode) : List (String × PyValue) :=
  let mappedProperties := form.saveTo (EntityXml.version saved.xml)
  let fieldAlias : List (String × String) :=
    mappedProperties.foldl (fun d item => Dict.insert d item.2 item.1) []
  let entityJson : List (String × PyValue) := node.groupData.foldl
    (fun json field =>
      match Dict.get? fieldAlias field.1 with
      | some property => Dict.insert json property field.2
      | none => json) []
  match node.label with
  | some label => Dict.insert entityJson "label" (.str label)
  | none => entityJson

/-- `_create_entity_from_instance`. -/
def createEntityFromInstance (store : EntityStore) (saved : SavedInstance Xml)
    (form : RegistrationForm) (node : EntityNode) : EntityStore :=
  let json := getEntityJsonFromInstance saved form node
  { entities := store.entities ++ [⟨form.entityList, node.id, json⟩]
    histories := store.histories ++
      [⟨form.entityList, node.id, saved.pk, EntityXml.version saved.xml, json, .create⟩] }

/-- `_update_entity_from_instance`. -/
def updateEntityFromInstance (store : EntityStore) (entity : Entity)
    (saved : SavedInstance Xml) (form : RegistrationForm) (node : EntityNode) : EntityStore :=
  let patch := getEntityJsonFromInstance saved form node
  let json := patch.foldl (fun json field => Dict.insert json field.1 field.2) entity.json
  { entities := store.entities.map fun e =>
      if e.key = entity.key then { e with json := json } else e
    histories := store.histories ++
      [⟨form.entityList, node.id, saved.pk, EntityXml.version saved.xml, json, .update⟩] }

/-- The registration form of an entity node, if it has an id and an active form. -/
def EntityEnv.formOf (env : EntityEnv) (node : EntityNode) : Option RegistrationForm :=
  if node.id = "" then none
  else env.registrationForms.find? fun form => form.entityListName = node.dataset

/-- One entity node in `create_or_update_entity_from_instance`. -/
def applyEntityNode (env : EntityEnv) (saved : SavedInstance Xml) (store : EntityStore)
    (node : EntityNode) : EntityStore :=
  match env.formOf node with
  | none => store
  | some form =>
      match store.entities.find? fun e => e.key = (form.entityList, node.id) with
      | none =>
          if node.create ∈ mutationSuccessChecks then
            createEntityFromInstance store saved form node
          else store
      | some entity =>
          if node.update ∈ mutationSuccessChecks then
            updateEntityFromInstance store entity saved form node
          else store

/-- `create_or_update_entity_from_instance`. -/
def createOrUpdateEntityFromInstance (env : EntityEnv) (saved : SavedInstance Xml)
    (store : EntityStore) : EntityStore :=
  if env.registrationForms = [] ∨ EntityXml.entityNodes saved.xml = [] then store
  else (EntityXml.entityNodes saved.xml).foldl (applyEntityNode env saved) store

/-- The handler `create_or_update_entity` of a save. `created` says that the save created the
row. -/
def createOrUpdateEntity (env : EntityEnv) (saved : SavedInstance Xml) (store : EntityStore)
    (created : Bool) : EntityStore :=
  let shouldCreateOrUpdate :=
    if !env.isReviewEnabled then true else !created && env.isReviewApproved saved.pk
  if shouldCreateOrUpdate then createOrUpdateEntityFromInstance env saved store else store

/-! ### The saves of a submission -/

/-- The saves of the instance that `create_instance` makes, each with its `created` flag.
`save_submission` saves for the attachments, for the date if it is overridden, and once
more; a duplicate is saved for the attachments and once more. -/
def savesOf (result : SubmissionResult) (overridesDate : Bool) : List Bool :=
  let rest := [false] ++ (if overridesDate then [false] else []) ++ [false]
  match result with
  | .created _ => true :: rest
  | .edited _ => false :: rest
  | .alreadyApplied _ => rest
  | .duplicate => [false, false]

/-- The submission that `create_instance` saves: the payload, or the instance that was there
before. -/
def savedInstance (store : FormStore Xml) (request : SubmissionRequest Xml)
    (result : SubmissionResult) : Option (SavedInstance Xml) :=
  let newUuid := getUuidFromXml request.xml
  let existing (i : Instance Xml) : SavedInstance Xml := ⟨i.pk, i.xml⟩
  match result with
  | .created pk | .edited pk => some ⟨pk, request.xml⟩
  | .alreadyApplied pk => (store.instanceByPk pk).map existing
  | .duplicate =>
      match store.findInstance newUuid with
      | some i => some (existing i)
      | none =>
          (store.findLiveHistory newUuid).bind fun h =>
            (store.instanceByPk h.xformInstance).map existing

/-- A submission, or a later save of an instance. -/
inductive SubmissionEvent (Xml : Type)
  | submit (request : SubmissionRequest Xml) (overridesDate : Bool)
  | save (pk : Nat)
  deriving Repr

/-- The submissions, the entities, and the submissions that were received in order. -/
structure EntityRun (Xml : Type) where
  submissions : FormStore Xml := {}
  entities : EntityStore := {}
  received : List (SavedInstance Xml) := []
  deriving Repr

/-- The payload of the request was received: it is a new submission or an edit. -/
def SubmissionResult.isReceived : SubmissionResult → Bool
  | .created _ | .edited _ => true
  | .alreadyApplied _ | .duplicate => false

/-- What an event saves: the submission, how often, and whether it is received by this
event. The submissions after the event come first. -/
def savesOfEvent (resolution : EditConflictResolution) (store : FormStore Xml)
    (event : SubmissionEvent Xml) :
    FormStore Xml × Option (SavedInstance Xml × List Bool × Bool) :=
  match event with
  | .submit request overridesDate =>
      match createInstance resolution store request with
      | .error _ => (store, none)
      | .ok (store', result) =>
          (store', (savedInstance store request result).map fun saved =>
            (saved, savesOf result overridesDate, result.isReceived))
  | .save pk =>
      (store, (store.instanceByPk pk).map fun i => (⟨i.pk, i.xml⟩, [false], false))

/-- One event of a run. -/
def EntityRun.step (resolution : EditConflictResolution) (env : EntityEnv)
    (run : EntityRun Xml) (event : SubmissionEvent Xml) : EntityRun Xml :=
  match savesOfEvent resolution run.submissions event with
  | (submissions, none) => { run with submissions := submissions }
  | (submissions, some (saved, saves, received)) =>
      { submissions := submissions
        entities := saves.foldl (createOrUpdateEntity env saved) run.entities
        received := if received then run.received ++ [saved] else run.received }

end Onadata
