import Onadata.Apps.Logger.Models.SoftDelete
import Onadata.Lib.BoundedSuffix
import Onadata.Lib.Table
import Onadata.Libs.Utils.ModelTools

/-!
# `Onadata.Apps.Logger.Models.EntityList`: entity lists and the number of their entities

`EntityList.soft_delete` and `EntityList.restore` of `apps/logger/models/entity_list.py`, with the
metadata that links follow-up forms to the list. Both operations are transactions.

What the operations on `Entity` of `apps/logger/models/entity.py` do to
`EntityList.num_entities`: a creation, `save`, `soft_delete` and `delete` with the signal
handlers, and the tasks with which these adjust the counter
(`libs/utils/entities_utils.py`).

Left out: the cached project, the unique constraint of live lists (a live list already meets it),
the saves of the linked forms, the data of an entity and its history, and the time of the last
update.
-/

set_option autoImplicit false

namespace Onadata

open Onadata.Lib

/-- The `max_length` of `EntityList.name`. -/
def MAX_NAME_LENGTH : Nat := 255

/-- A row of `EntityList`. -/
structure EntityListRecord where
  pk : Nat
  name : String
  deletedAt : Option DateTime := none
  deletedBy : Option String := none
  name_le : name.length ≤ MAX_NAME_LENGTH := by decide

/-- A row of `MetaData`, and whether the object that it belongs to is deleted. -/
structure FormLink where
  dataType : String
  dataValue : String
  deletedAt : Option DateTime := none
  ownerDeleted : Bool := false
  deriving DecidableEq, Repr

/-- An entity list with the rows of `MetaData`. -/
structure EntityListRows where
  entityList : EntityListRecord
  metadata : List FormLink := []

/-- The filter for the links to a list with the name. -/
def linksTo (pk : Nat) (name : String) (datum : FormLink) : Bool :=
  datum.dataType == "media" && datum.dataValue == "entity_list " ++ toString pk ++ " " ++ name

/-- The fields that `EntityList.soft_delete` sets. -/
def EntityListRecord.markDeleted (now : DateTime) (deletedBy : Option String) (entityList : EntityListRecord) :
    EntityListRecord where
  pk := entityList.pk
  name := appendWithin MAX_NAME_LENGTH (deletionSuffix now) entityList.name
  deletedAt := some now
  deletedBy := deletedBy
  name_le := (length_appendWithin_le _).mpr entityList.name_le

/-- The fields that `EntityList.restore` sets. -/
def EntityListRecord.markRestored (deletedAt : DateTime) (entityList : EntityListRecord) : EntityListRecord where
  pk := entityList.pk
  name := stripWithin MAX_NAME_LENGTH (deletionSuffix deletedAt) entityList.name
  deletedAt := none
  deletedBy := none
  name_le := Nat.le_trans (length_stripWithin_le _ _) entityList.name_le

@[simp] theorem EntityListRecord.markDeleted_name (now : DateTime) (deletedBy : Option String)
    (entityList : EntityListRecord) : (entityList.markDeleted now deletedBy).name =
      appendWithin MAX_NAME_LENGTH (deletionSuffix now) entityList.name := rfl

@[simp] theorem EntityListRecord.markRestored_name (deletedAt : DateTime)
    (entityList : EntityListRecord) : (entityList.markRestored deletedAt).name =
      stripWithin MAX_NAME_LENGTH (deletionSuffix deletedAt) entityList.name := rfl

namespace EntityListRows

/-- `EntityList.soft_delete`. `linksDeletedAt` is the time in the `soft_delete` of the metadata. -/
def softDelete (now linksDeletedAt : DateTime) (deletedBy : Option String) (rows : EntityListRows) :
    EntityListRows :=
  if rows.entityList.deletedAt.isSome then rows
  else
    { entityList := rows.entityList.markDeleted now deletedBy
      metadata := rows.metadata.map fun datum =>
        if linksTo rows.entityList.pk rows.entityList.name datum then
          { datum with deletedAt := some linksDeletedAt }
        else datum }

/-- `EntityList.restore`. Metadata of a deleted form stays deleted. -/
def restore (rows : EntityListRows) : EntityListRows :=
  match rows.entityList.deletedAt with
  | none => rows
  | some deletedAt =>
      let restored := rows.entityList.markRestored deletedAt
      { entityList := restored
        metadata := rows.metadata.map fun datum =>
          if linksTo restored.pk restored.name datum && !datum.ownerDeleted then
            { datum with deletedAt := none }
          else datum }

end EntityListRows

/-- A row of `Entity`. -/
structure EntityRow where
  entityList : Nat
  deletedAt : Option Int := none
  deriving DecidableEq, Repr

/-- The entities and the counter of `num_entities`. -/
structure EntityLists where
  entities : Table EntityRow := {}
  counter : CounterTasks

namespace EntityLists

/-- The entities of a list with `deleted_at` null. -/
def liveCount (s : EntityLists) (entityList : Nat) : Nat :=
  s.entities.count fun row => row.entityList = entityList && row.deletedAt.isNone

/-- `incr_entity_list_num_entities`. -/
def incrEntityListNumEntities (s : EntityLists) (row : EntityRow) (created : Bool) :
    EntityLists :=
  if created then { s with counter := s.counter.delay row.entityList 1 } else s

/-- `decr_entity_list_num_entities_on_hard_delete`. -/
def decrOnHardDelete (s : EntityLists) (row : EntityRow) : EntityLists :=
  { s with counter := s.counter.delay row.entityList (-1) }

/-- `decr_entity_list_num_entities_on_soft_delete`, before the row is written. -/
def decrOnSoftDelete (s : EntityLists) (pk : Nat) (row : EntityRow) : EntityLists :=
  if row.deletedAt = none then s
  else
    match s.entities.get? pk with
    | none => s
    | some oldInstance =>
        if oldInstance.deletedAt = none then
          { s with counter := s.counter.delay row.entityList (-1) }
        else s

/-- `Entity.save` of a new entity. -/
def create (s : EntityLists) (row : EntityRow) : EntityLists :=
  { s with entities := s.entities.create row }.incrEntityListNumEntities row true

/-- `Entity.save` of a stored entity. -/
def save (s : EntityLists) (pk : Nat) (row : EntityRow) : EntityLists :=
  let s := s.decrOnSoftDelete pk row
  { s with entities := s.entities.save pk row }.incrEntityListNumEntities row false

/-- `Entity.soft_delete`. -/
def softDelete (s : EntityLists) (pk : Nat) (row : EntityRow) (now : Int) : EntityLists :=
  if row.deletedAt = none then s.save pk { row with deletedAt := some now } else s

/-- `Entity.delete`. -/
def delete (s : EntityLists) (pk : Nat) (row : EntityRow) : EntityLists :=
  { s with entities := s.entities.delete pk }.decrOnHardDelete row

end EntityLists

/-- The operations on entities, and what a worker does. -/
inductive EntityOp
  | create (entityList : Nat)
  | update (pk : Nat)
  | softDelete (pk : Nat) (now : Int)
  | delete (pk : Nat)
  | worker (op : CounterTaskOp)
  deriving DecidableEq, Repr

/-- An operation on an entity that is there. An update leaves the list and the date of the
deletion as they are. -/
def EntityStep (s : EntityLists) : EntityOp → EntityLists → Prop
  | .create entityList, s' => s' = s.create { entityList := entityList }
  | .update pk, s' => ∃ row, s.entities.get? pk = some row ∧ s' = s.save pk row
  | .softDelete pk now, s' =>
      ∃ row, s.entities.get? pk = some row ∧ s' = s.softDelete pk row now
  | .delete pk, s' => ∃ row, s.entities.get? pk = some row ∧ s' = s.delete pk row
  | .worker op, s' => s.counter.Step op s'.counter ∧ s'.entities = s.entities

end Onadata
