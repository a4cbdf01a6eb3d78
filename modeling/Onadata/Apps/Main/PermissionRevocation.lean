import Onadata.Apps.Main.UserDeactivation
import Onadata.Lib.Table

/-!
# `Onadata.Apps.Main.PermissionRevocation`: the permissions that a deactivation revokes

`revoke_revocable_user_permissions` of `apps/main/models/user_deactivation.py`, with the rows
that it goes through, the snapshots that it stores and the rows that it deletes.

The rows of a query are those of the database when the query starts: PostgreSQL gives an
iterator a cursor. The second query of `get_revocable_user_permission_rows` starts when the
rows of the first one have been gone through.

The state row is a stored one. Texts and ids fit their columns. Left out: the `name` of a
content type, and the times at which a snapshot was created and changed.
-/

set_option autoImplicit false

namespace Onadata

open Onadata.Lib

/-- What the revocation reads of a project. `repr` is the text of the object. -/
structure RevocableProject where
  pk : Nat
  organizationId : Nat
  repr : String
  deriving DecidableEq, Repr

/-- What the revocation reads of a form. -/
structure RevocableForm where
  pk : Nat
  userId : Option Nat
  projectId : Nat
  projectOrganizationId : Nat
  repr : String
  deriving DecidableEq, Repr

/-- A row of `ProjectUserObjectPermission` or `XFormUserObjectPermission`. -/
structure UserObjectPermission (Object : Type) where
  userId : Nat
  codename : String
  name : String
  contentObject : Object
  deriving DecidableEq, Repr

/-- A row that `get_revocable_user_permission_rows` gives, with its primary key. -/
inductive PermissionRow
  | project (item : Nat × UserObjectPermission RevocableProject)
  | form (item : Nat × UserObjectPermission RevocableForm)
  deriving DecidableEq, Repr

namespace PermissionRow

/-- `_meta.label`. -/
def label : PermissionRow → String
  | .project _ => "logger.ProjectUserObjectPermission"
  | .form _ => "logger.XFormUserObjectPermission"

def pk : PermissionRow → Nat
  | .project item => item.1
  | .form item => item.1

/-- The row of the table of projects. -/
def project? : PermissionRow → Option (Nat × UserObjectPermission RevocableProject)
  | .project item => some item
  | .form _ => none

/-- The row of the table of forms. -/
def form? : PermissionRow → Option (Nat × UserObjectPermission RevocableForm)
  | .project _ => none
  | .form item => some item

end PermissionRow

/-- A row of `UserDeactivationPermissionSnapshot`. `contentType` is the model of the object. -/
structure PermissionSnapshot where
  stateId : Nat
  userId : Nat
  permissionStorageModel : String
  permissionRecordId : Nat
  permissionCodename : String
  permissionName : String
  contentType : String
  objectId : Nat
  objectRepr : String
  sourceOrganizationId : Option Nat
  sourceProjectId : Option Nat
  sourceFormId : Option Nat
  deactivationRunId : String
  removedAt : Int
  deriving DecidableEq, Repr

/-- The columns of `unique_user_deact_perm_snapshot`. -/
structure SnapshotKey where
  stateId : Nat
  permissionStorageModel : String
  permissionRecordId : Nat
  deactivationRunId : String
  deriving DecidableEq, Repr

def PermissionSnapshot.key (snapshot : PermissionSnapshot) : SnapshotKey :=
  ⟨snapshot.stateId, snapshot.permissionStorageModel, snapshot.permissionRecordId,
    snapshot.deactivationRunId⟩

/-- The table of snapshots, with its unique constraint. -/
structure SnapshotTable where
  rows : List PermissionSnapshot
  unique : (rows.map PermissionSnapshot.key).Nodup

namespace SnapshotTable

/-- An insertion that ignores a conflict. -/
def insertIgnoring (table : SnapshotTable) (snapshot : PermissionSnapshot) : SnapshotTable :=
  if h : snapshot.key ∈ table.rows.map PermissionSnapshot.key then table
  else
    { rows := table.rows ++ [snapshot]
      unique := by
        rw [List.map_append, List.nodup_append]
        refine ⟨table.unique, List.nodup_singleton _, ?_⟩
        rintro key hkey _ hnew rfl
        rw [List.map_singleton, List.mem_singleton] at hnew
        exact h (hnew ▸ hkey) }

/-- `bulk_create` with `ignore_conflicts`. -/
def bulkCreate (table : SnapshotTable) (snapshots : List PermissionSnapshot) : SnapshotTable :=
  snapshots.foldl insertIgnoring table

end SnapshotTable

/-- What protects an organization: its profile names the user who created it. -/
structure ProtectingProfile where
  userId : Nat
  creatorId : Option Nat
  createdById : Option Nat
  deriving DecidableEq, Repr

/-- A team, with its members. -/
structure ProtectingTeam where
  name : String
  organizationId : Nat
  memberIds : List Nat
  deriving DecidableEq, Repr

/-- The tables that the revocation reads and writes. -/
structure PermissionStore where
  profiles : List ProtectingProfile
  teams : List ProtectingTeam
  projectPermissions : Table (UserObjectPermission RevocableProject)
  formPermissions : Table (UserObjectPermission RevocableForm)
  snapshots : SnapshotTable

/-- What the revocation reads of a state row. `scheduledAt` is the text that `strftime` gives. -/
structure RevokedState where
  pk : Nat
  userId : Nat
  scheduledAt : Option String
  deriving DecidableEq, Repr

/-- `PERMISSION_SNAPSHOT_BATCH_SIZE`. -/
def permissionSnapshotBatchSize : Nat := 1000

/-- `get_permission_revocation_protected_organization_ids`. -/
def getProtectedOrganizationIds (store : PermissionStore) (userId : Nat) : List Nat :=
  (store.profiles.filter fun profile =>
      profile.creatorId = some userId ∨ profile.createdById = some userId).map (·.userId) ++
    (store.teams.filter fun team =>
      team.memberIds.contains userId && "#Owners".toList.isSuffixOf team.name.toList).map
        (·.organizationId)

/-- A row of the first query of `get_revocable_user_permission_rows`. -/
def isRevocableProjectRow (userId : Nat) (protectedIds : List Nat)
    (row : UserObjectPermission RevocableProject) : Bool :=
  row.userId = userId && row.contentObject.organizationId ≠ userId &&
    row.contentObject.organizationId ∉ protectedIds

/-- A row of the second query. -/
def isRevocableFormRow (userId : Nat) (protectedIds : List Nat)
    (row : UserObjectPermission RevocableForm) : Bool :=
  row.userId = userId && row.contentObject.projectOrganizationId ≠ userId &&
    row.contentObject.projectOrganizationId ∉ protectedIds &&
    !row.contentObject.userId.any fun ownerId => ownerId ∈ protectedIds

/-- The first query. -/
def revocableProjectRows (store : PermissionStore) (userId : Nat) (protectedIds : List Nat) :
    List PermissionRow :=
  (store.projectPermissions.rows.filter fun item =>
    isRevocableProjectRow userId protectedIds item.2).map .project

/-- The second query. -/
def revocableFormRows (store : PermissionStore) (userId : Nat) (protectedIds : List Nat) :
    List PermissionRow :=
  (store.formPermissions.rows.filter fun item =>
    isRevocableFormRow userId protectedIds item.2).map .form

/-- `get_revocable_user_permission_rows`, if nothing changes while its rows are gone through. -/
def getRevocableUserPermissionRows (store : PermissionStore) (userId : Nat) :
    List PermissionRow :=
  let protectedIds := getProtectedOrganizationIds store userId
  revocableProjectRows store userId protectedIds ++ revocableFormRows store userId protectedIds

/-- `get_deactivation_run_id`. -/
def getDeactivationRunId (state : RevokedState) : String :=
  let timestamp := state.scheduledAt.getD "unscheduled"
  String.ofList (("state-" ++ toString state.pk ++ "-" ++ timestamp).toList.take 64)

/-- `_build_permission_snapshot`. -/
def buildPermissionSnapshot (state : RevokedState) (row : PermissionRow) (removedAt : Int)
    (runId : String) : PermissionSnapshot :=
  match row with
  | .project (pk, permission) =>
      { stateId := state.pk
        userId := state.userId
        permissionStorageModel := row.label
        permissionRecordId := pk
        permissionCodename := permission.codename
        permissionName := permission.name
        contentType := "project"
        objectId := permission.contentObject.pk
        objectRepr := String.ofList (permission.contentObject.repr.toList.take 255)
        sourceOrganizationId := some permission.contentObject.organizationId
        sourceProjectId := some permission.contentObject.pk
        sourceFormId := none
        deactivationRunId := runId
        removedAt := removedAt }
  | .form (pk, permission) =>
      { stateId := state.pk
        userId := state.userId
        permissionStorageModel := row.label
        permissionRecordId := pk
        permissionCodename := permission.codename
        permissionName := permission.name
        contentType := "xform"
        objectId := permission.contentObject.pk
        objectRepr := String.ofList (permission.contentObject.repr.toList.take 255)
        sourceOrganizationId := some permission.contentObject.projectOrganizationId
        sourceProjectId := some permission.contentObject.projectId
        sourceFormId := some permission.contentObject.pk
        deactivationRunId := runId
        removedAt := removedAt }

/-- The `existing_keys` of `_snapshot_permission_batch`. -/
def existingSnapshotKeys (table : SnapshotTable) (state : RevokedState)
    (rows : List PermissionRow) (runId : String) : List (String × Nat) :=
  (table.rows.filter fun snapshot =>
      snapshot.stateId = state.pk && snapshot.deactivationRunId = runId &&
        snapshot.permissionStorageModel ∈ rows.map PermissionRow.label &&
        snapshot.permissionRecordId ∈ rows.map PermissionRow.pk).map
    fun snapshot => (snapshot.permissionStorageModel, snapshot.permissionRecordId)

/-- `_snapshot_permission_batch`: the table, and the number that it returns. -/
def snapshotPermissionBatch (table : SnapshotTable) (state : RevokedState)
    (rows : List PermissionRow) (removedAt : Int) (runId : String) : SnapshotTable × Nat :=
  let existingKeys := existingSnapshotKeys table state rows runId
  let snapshots := (rows.filter fun row => (row.label, row.pk) ∉ existingKeys).map fun row =>
    buildPermissionSnapshot state row removedAt runId
  (if snapshots ≠ [] then table.bulkCreate snapshots else table, snapshots.length)

/-- A row that `model.objects.filter(pk__in=ids, user=user)` finds. -/
def isNamedRow {Object : Type} (userId : Nat) (ids : List Nat)
    (item : Nat × UserObjectPermission Object) : Bool :=
  item.1 ∈ ids && item.2.userId = userId

/-- `model.objects.filter(pk__in=ids, user=user).delete()`. -/
def deleteRows {Object : Type} (table : Table (UserObjectPermission Object)) (userId : Nat)
    (ids : List Nat) : Table (UserObjectPermission Object) × Nat :=
  (table.keep fun item => !isNamedRow userId ids item,
    table.rows.countP (isNamedRow userId ids))

/-- `_delete_permission_batch`: the store, and the number that it returns. -/
def deletePermissionBatch (store : PermissionStore) (userId : Nat) (rows : List PermissionRow) :
    PermissionStore × Nat :=
  let projects := deleteRows store.projectPermissions userId
    ((rows.filterMap PermissionRow.project?).map Prod.fst)
  let forms := deleteRows store.formPermissions userId
    ((rows.filterMap PermissionRow.form?).map Prod.fst)
  ({ store with projectPermissions := projects.1, formPermissions := forms.1 },
    projects.2 + forms.2)

/-- The local variables of the loop. -/
structure RevocationRun where
  store : PermissionStore
  permissionBatch : List PermissionRow
  storedCount : Nat
  revokedCount : Nat

/-- The arguments that do not change in the loop. -/
structure RevocationCall where
  state : RevokedState
  when : Int
  runId : String
  deriving DecidableEq, Repr

/-- A batch is snapshotted and deleted. -/
def RevocationRun.finishBatch (run : RevocationRun) (call : RevocationCall) : RevocationRun :=
  let stored := snapshotPermissionBatch run.store.snapshots call.state run.permissionBatch
    call.when call.runId
  let deleted := deletePermissionBatch { run.store with snapshots := stored.1 } call.state.userId
    run.permissionBatch
  ⟨deleted.1, [], run.storedCount + stored.2, run.revokedCount + deleted.2⟩

/-- A round of the loop. -/
def RevocationRun.addRow (call : RevocationCall) (run : RevocationRun) (row : PermissionRow) :
    RevocationRun :=
  let run := { run with permissionBatch := run.permissionBatch ++ [row] }
  if permissionSnapshotBatchSize ≤ run.permissionBatch.length then run.finishBatch call else run

/-- The loop of `revoke_revocable_user_permissions`, with the queries of the generator. -/
def revokeRows (store : PermissionStore) (call : RevocationCall) : RevocationRun :=
  let protectedIds := getProtectedOrganizationIds store call.state.userId
  let run := (revocableProjectRows store call.state.userId protectedIds).foldl
    (RevocationRun.addRow call) ⟨store, [], 0, 0⟩
  let run := (revocableFormRows run.store call.state.userId protectedIds).foldl
    (RevocationRun.addRow call) run
  if run.permissionBatch ≠ [] then run.finishBatch call else run

/-- `revoke_revocable_user_permissions`: the store, and the two counts that it returns. -/
def revokeRevocableUserPermissions (policy : PermissionPolicy) (store : PermissionStore)
    (state : RevokedState) (when : Int) (runId : String) : PermissionStore × Nat × Nat :=
  if policy ≠ .revoke then (store, 0, 0)
  else
    let runId := if runId ≠ "" then runId else getDeactivationRunId state
    let run := revokeRows store ⟨state, when, runId⟩
    (run.store, run.storedCount, run.revokedCount)

end Onadata
