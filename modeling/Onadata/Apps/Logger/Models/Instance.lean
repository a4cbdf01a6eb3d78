/-!
# `Onadata.Apps.Logger.Models.Instance`: the submissions of a form

The rows of `Instance` and `InstanceHistory` of one form. `FormStore.create` and
`FormStore.save` write an instance as `Instance.save` does: the uuid is filled in when it
is missing, and the database refuses a uuid that another instance of the form has
(`unique_together`).

`SubmissionXml` has the functions of `apps/logger/xform_instance_parser.py` that read the uuids of
a submission. The XML is any type with the texts that they read.

Left out: the columns that no modelled function reads, such as the media counts, the
status and the geometry.
-/

set_option autoImplicit false

namespace Onadata

/-- What the logger reads of a submission XML.

- `metaText xml name`: `get_meta_from_xml`, the stripped text of the element `name` of the
  meta group;
- `rootInstanceID`: the `instanceID` attribute of the root, or the empty string;
- `checksum`: the SHA-256 of the text. -/
class SubmissionXml (Xml : Type) where
  metaText : Xml → String → Option String
  rootInstanceID : Xml → String
  checksum : Xml → String

variable {Xml : Type} [SubmissionXml Xml]

/-- The group of the regular expression `uuid:(.*)`, matched at the start of the text. -/
def uuidOnly (text : String) : Option String :=
  match text.toList with
  | 'u' :: 'u' :: 'i' :: 'd' :: ':' :: rest => some (String.ofList (rest.takeWhile (· ≠ '\n')))
  | _ => none

/-- `get_uuid_from_xml`. -/
def getUuidFromXml (xml : Xml) : Option String :=
  match SubmissionXml.metaText xml "instanceID" with
  | some text =>
      if text ≠ "" then uuidOnly text else uuidOnly (SubmissionXml.rootInstanceID xml)
  | none => uuidOnly (SubmissionXml.rootInstanceID xml)

/-- `get_deprecated_uuid_from_xml`. -/
def getDeprecatedUuidFromXml (xml : Xml) : Option String :=
  (SubmissionXml.metaText xml "deprecatedID").bind uuidOnly

/-- The plainest submission: the two ids as they stand in the meta group. -/
structure MetaXml where
  instanceID : String
  deprecatedID : Option String := none
  deriving DecidableEq, Repr

instance : SubmissionXml MetaXml where
  metaText xml name := if name = "instanceID" then some xml.instanceID else xml.deprecatedID
  rootInstanceID _ := ""
  checksum xml := xml.instanceID

end Onadata

namespace Onadata

/-- A row of `Instance`. -/
structure Instance (Xml : Type) where
  pk : Nat
  uuid : String
  xml : Xml
  checksum : String
  deletedAt : Option Int := none
  deriving DecidableEq, Repr

/-- A row of `InstanceHistory`: what an instance was before an edit. -/
structure InstanceHistory (Xml : Type) where
  xformInstance : Nat
  uuid : String
  xml : Xml
  checksum : String
  deriving DecidableEq, Repr

/-- The submissions of one form. -/
structure FormStore (Xml : Type) where
  instances : List (Instance Xml) := []
  histories : List (InstanceHistory Xml) := []
  nextPk : Nat := 0
  deriving DecidableEq, Repr

/-- Why a submission is refused. -/
inductive SubmissionError
  | permissionDenied
  | instanceEditConflict
  | unsupportedResolution
  | integrityError
  deriving DecidableEq, Repr

variable {Xml : Type}

/-- `Instance._set_uuid`: the uuid of the row, of the XML or a generated one, whichever is
there first. -/
def setUuid [SubmissionXml Xml] (uuid : Option String) (xml : Xml) (generated : String) :
    String :=
  match uuid.filter (· ≠ ""), (getUuidFromXml xml).filter (· ≠ "") with
  | some u, _ => u
  | none, some u => u
  | none, none => generated

namespace FormStore

/-- `Instance.objects.filter(xform_id=xform.pk, uuid=uuid).first()`. -/
def findInstance (store : FormStore Xml) (uuid : Option String) : Option (Instance Xml) :=
  uuid.bind fun u => store.instances.find? fun i => i.uuid = u

/-- `Instance.objects.get(pk=pk)`. -/
def instanceByPk (store : FormStore Xml) (pk : Nat) : Option (Instance Xml) :=
  store.instances.find? fun i => i.pk = pk

/-- `InstanceHistory.objects.filter(xform_instance__xform_id=xform.pk, uuid=uuid).first()`. -/
def findHistory (store : FormStore Xml) (uuid : Option String) : Option (InstanceHistory Xml) :=
  uuid.bind fun u => store.histories.find? fun h => h.uuid = u

/-- The same for the histories of instances that are not deleted. -/
def findLiveHistory (store : FormStore Xml) (uuid : Option String) :
    Option (InstanceHistory Xml) :=
  uuid.bind fun u => store.histories.find? fun h =>
    h.uuid = u && (store.instanceByPk h.xformInstance).any fun i => i.deletedAt.isNone

/-- `Instance.objects.create(xml=xml, xform=xform, checksum=checksum)`. -/
def create [SubmissionXml Xml] (store : FormStore Xml) (xml : Xml) (generated : String) :
    Except SubmissionError (FormStore Xml × Instance Xml) :=
  let uuid := setUuid none xml generated
  if store.instances.any fun i => i.uuid = uuid then throw .integrityError
  else
    let created : Instance Xml :=
      { pk := store.nextPk, uuid := uuid, xml := xml, checksum := SubmissionXml.checksum xml }
    return ({ store with
        instances := store.instances ++ [created]
        nextPk := store.nextPk + 1 }, created)

/-- `instance.save()` for a row of the store. -/
def save (store : FormStore Xml) (saved : Instance Xml) :
    Except SubmissionError (FormStore Xml) :=
  if store.instances.any fun i => i.pk ≠ saved.pk && i.uuid = saved.uuid then
    throw .integrityError
  else
    return { store with
      instances := store.instances.map fun i => if i.pk = saved.pk then saved else i }

end FormStore

end Onadata
