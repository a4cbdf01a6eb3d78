import Mathlib.Data.List.Basic
import Onadata.Lib.PyValue

/-!
# `Onadata.Libs.Permissions`: roles and object permissions

`libs/permissions.py` gives every role a list of permission codenames for each model
class. A role is not stored: `Role.add` writes one row per codename, and `getRole` reads a
role back from the codenames by trying the roles from the highest down.

`ObjectPermissions` holds the permission rows of one object: the rows of users and the
rows of teams (`XFormUserObjectPermission`, `XFormGroupObjectPermission` and their project
counterparts). The users of this model are active users, for whom guardian's `get_perms`
lists every row of the user, so that `removeObjPermissions` removes all of them.

The name, the gravatar and the metadata that `get_object_users_with_permissions` also
returns are left out: no caller modelled here reads them.
-/

set_option autoImplicit false

namespace Onadata

/-- The model classes that appear as keys of `class_to_permissions`. -/
inductive ObjClass
  | mergedXForm
  | organizationProfile
  | project
  | xform
  | dataDictionary
  | userProfile
  | entityList
  deriving DecidableEq, Repr

/-- The permission codenames. `can_add_project` and `can_add_xform` are codenames of both
the user profile and the organization profile. -/
inductive Codename
  | addUserprofile | changeUserprofile | deleteUserprofile
  | canAddProject | canAddXform | viewProfile
  | viewOrganizationprofile | addOrganizationprofile | changeOrganizationprofile
  | deleteOrganizationprofile | isOrgOwner
  | changeXform | addXform | deleteXform | viewXform | viewXformData | viewXformAll
  | reportXform | deleteSubmission | transferXform | moveXform | canExportXformData
  | viewMergedxform
  | addProject | viewProject | viewProjectData | viewProjectAll | changeProject
  | transferProject | deleteProject | addProjectXform | reportProjectXform
  | canExportProjectData | addProjectEntitylist
  | addDatadictionary | changeDatadictionary | deleteDatadictionary
  | addEntitylist | viewEntitylist | changeEntitylist | deleteEntitylist
  deriving DecidableEq, Repr

/-- The roles of `ROLES_ORDERED`. -/
inductive Role
  | readOnlyRoleNoDownload
  | readOnlyRole
  | dataEntryOnlyRole
  | dataEntryMinorRole
  | dataEntryRole
  | editorNoDownload
  | editorMinorRole
  | editorRole
  | managerRole
  | ownerRole
  deriving DecidableEq, Repr

namespace Role

open Codename

/-- `class_to_permissions` of each role. `none` stands for a missing key. -/
def classToPermissions : Role → ObjClass → Option (List Codename)
  | readOnlyRoleNoDownload, .mergedXForm => some [viewMergedxform]
  | readOnlyRoleNoDownload, .project => some [viewProject, viewProjectAll]
  | readOnlyRoleNoDownload, .xform => some [viewXform, viewXformAll, viewXformData]
  | readOnlyRole, .mergedXForm => some [viewMergedxform]
  | readOnlyRole, .organizationProfile => some [viewOrganizationprofile]
  | readOnlyRole, .project => some [canExportProjectData, viewProject, viewProjectAll]
  | readOnlyRole, .xform =>
      some [canExportXformData, viewXform, viewXformAll, viewXformData]
  | dataEntryOnlyRole, .mergedXForm => some [viewMergedxform]
  | dataEntryOnlyRole, .organizationProfile => some [viewOrganizationprofile]
  | dataEntryOnlyRole, .project =>
      some [reportProjectXform, canExportProjectData, viewProject, viewProjectAll,
        viewProjectData]
  | dataEntryOnlyRole, .xform => some [viewXform, reportXform]
  | dataEntryMinorRole, .mergedXForm => some [viewMergedxform]
  | dataEntryMinorRole, .organizationProfile => some [viewOrganizationprofile]
  | dataEntryMinorRole, .project =>
      some [reportProjectXform, canExportProjectData, viewProject, viewProjectData]
  | dataEntryMinorRole, .xform =>
      some [reportXform, canExportXformData, viewXform, viewXformData]
  | dataEntryRole, .mergedXForm => some [viewMergedxform]
  | dataEntryRole, .organizationProfile => some [viewOrganizationprofile]
  | dataEntryRole, .project =>
      some [reportProjectXform, canExportProjectData, viewProject, viewProjectAll,
        viewProjectData]
  | dataEntryRole, .xform =>
      some [reportXform, canExportXformData, viewXform, viewXformAll, viewXformData]
  | editorNoDownload, .mergedXForm => some [viewMergedxform]
  | editorNoDownload, .organizationProfile => some [viewOrganizationprofile]
  | editorNoDownload, .project =>
      some [reportProjectXform, changeProject, canExportProjectData, viewProject,
        viewProjectData]
  | editorNoDownload, .xform =>
      some [reportXform, changeXform, deleteSubmission, viewXform, viewXformData]
  | editorMinorRole, .mergedXForm => some [viewMergedxform]
  | editorMinorRole, .organizationProfile => some [viewOrganizationprofile]
  | editorMinorRole, .project =>
      some [reportProjectXform, changeProject, canExportProjectData, viewProject,
        viewProjectData]
  | editorMinorRole, .xform =>
      some [reportXform, changeXform, deleteSubmission, canExportXformData, viewXform,
        viewXformData]
  | editorRole, .mergedXForm => some [viewMergedxform]
  | editorRole, .organizationProfile => some [viewOrganizationprofile]
  | editorRole, .project =>
      some [reportProjectXform, changeProject, canExportProjectData, viewProject,
        viewProjectAll, viewProjectData]
  | editorRole, .xform =>
      some [reportXform, changeXform, deleteSubmission, canExportXformData, viewXform,
        viewXformAll, viewXformData]
  | managerRole, .mergedXForm => some [viewMergedxform]
  | managerRole, .organizationProfile =>
      some [canAddProject, canAddXform, viewOrganizationprofile]
  | managerRole, .project =>
      some [addProject, addProjectXform, reportProjectXform, changeProject,
        canExportProjectData, viewProject, viewProjectAll, viewProjectData,
        addProjectEntitylist]
  | managerRole, .userProfile => some [canAddProject, canAddXform, viewProfile]
  | managerRole, .xform =>
      some [reportXform, addXform, changeXform, deleteSubmission, deleteXform,
        canExportXformData, viewXform, viewXformAll, viewXformData]
  | managerRole, .entityList =>
      some [addEntitylist, viewEntitylist, changeEntitylist, deleteEntitylist]
  | ownerRole, .dataDictionary =>
      some [addDatadictionary, changeDatadictionary, deleteDatadictionary]
  | ownerRole, .mergedXForm => some [viewMergedxform]
  | ownerRole, .organizationProfile =>
      some [canAddProject, canAddXform, addOrganizationprofile,
        changeOrganizationprofile, deleteOrganizationprofile, viewOrganizationprofile,
        isOrgOwner]
  | ownerRole, .project =>
      some [addProject, addProjectXform, reportProjectXform, changeProject, deleteProject,
        canExportProjectData, transferProject, viewProject, viewProjectAll,
        viewProjectData, addProjectEntitylist]
  | ownerRole, .userProfile =>
      some [canAddProject, canAddXform, addUserprofile, changeUserprofile,
        deleteUserprofile, viewProfile]
  | ownerRole, .xform =>
      some [reportXform, addXform, changeXform, deleteSubmission, deleteXform,
        canExportXformData, viewXform, viewXformAll, viewXformData, moveXform,
        transferXform]
  | ownerRole, .entityList =>
      some [addEntitylist, viewEntitylist, changeEntitylist, deleteEntitylist]
  | _, _ => none

/-- `class_to_permissions.get(cls, [])`, the codenames `Role.add` assigns. -/
def permissions (role : Role) (cls : ObjClass) : List Codename :=
  (role.classToPermissions cls).getD []

/-- `Role.has_role`: the codenames of the role are a subset of `permissions`. A class that
the role has no key for gives `False`. -/
def hasRole (role : Role) (permissions : List Codename) (cls : ObjClass) : Bool :=
  match role.classToPermissions cls with
  | none => false
  | some permsForRole => permsForRole.all fun c => permissions.contains c

end Role

/-- `ROLES_ORDERED`, from the lowest role to the highest. -/
def rolesOrdered : List Role :=
  [.readOnlyRoleNoDownload, .readOnlyRole, .dataEntryOnlyRole, .dataEntryMinorRole,
    .dataEntryRole, .editorNoDownload, .editorMinorRole, .editorRole, .managerRole,
    .ownerRole]

/-- `get_role`: the first role, from the highest down, whose codenames are all held. -/
def getRole (permissions : List Codename) (cls : ObjClass) : Option Role :=
  rolesOrdered.reverse.find? fun role => role.hasRole permissions cls

section
variable {User Team : Type} [DecidableEq User] [DecidableEq Team]

/-- The permission rows of one object. -/
structure ObjectPermissions (User Team : Type) where
  userPerms : List (User × Codename)
  groupPerms : List (Team × Codename)
  deriving Repr

namespace ObjectPermissions

/-- `Role.remove_obj_permissions` for a user. -/
def removeUserPermissions (p : ObjectPermissions User Team) (user : User) :
    ObjectPermissions User Team :=
  { p with userPerms := p.userPerms.filter fun row => row.1 ≠ user }

/-- `Role.remove_obj_permissions` for a team. -/
def removeGroupPermissions (p : ObjectPermissions User Team) (team : Team) :
    ObjectPermissions User Team :=
  { p with groupPerms := p.groupPerms.filter fun row => row.1 ≠ team }

end ObjectPermissions

/-- `Role.add(user, obj)`: the rows of the user are replaced by those of the role. -/
def Role.add (role : Role) (cls : ObjClass) (user : User)
    (p : ObjectPermissions User Team) : ObjectPermissions User Team :=
  let cleared := p.removeUserPermissions user
  { cleared with
      userPerms := cleared.userPerms ++ (role.permissions cls).map fun c => (user, c) }

/-- `Role.add(team, obj)`, a team being a group. -/
def Role.addGroup (role : Role) (cls : ObjClass) (team : Team)
    (p : ObjectPermissions User Team) : ObjectPermissions User Team :=
  let cleared := p.removeGroupPermissions team
  { cleared with
      groupPerms := cleared.groupPerms ++ (role.permissions cls).map fun c => (team, c) }

/-- Add a codename to the set kept for `user` in a dict of sets, in insertion order. -/
def addUserPerm : List (User × List Codename) → User × Codename → List (User × List Codename)
  | [], (user, c) => [(user, [c])]
  | (u, cs) :: rest, (user, c) =>
      if u = user then (u, if cs.contains c then cs else cs ++ [c]) :: rest
      else (u, cs) :: addUserPerm rest (user, c)

/-- `_get_users_with_perms(obj, attach_perms=True, with_group_users)`: each user with the
codenames held directly and, with `withGroupUsers`, through the user's teams. -/
def getUsersWithPerms (p : ObjectPermissions User Team) (members : Team → List User)
    (withGroupUsers : Bool) : List (User × List Codename) :=
  let userPerms := p.userPerms.foldl addUserPerm []
  if withGroupUsers then
    (p.groupPerms.flatMap fun row => (members row.1).map fun user => (user, row.2)).foldl
      addUserPerm userPerms
  else userPerms

/-- `get_object_users_with_permissions`: each user with the role read back from the
codenames. -/
def getObjectUsersWithPermissions (p : ObjectPermissions User Team) (cls : ObjClass)
    (members : Team → List User) (withGroupUsers : Bool) : List (User × Option Role) :=
  (getUsersWithPerms p members withGroupUsers).map fun row => (row.1, getRole row.2 cls)

/-- What `set_project_perms_to_object` reads of a project: its permission rows, and the
teams of its organization that are named `<organization>#Owners`. -/
structure Project (User Team : Type) where
  perms : ObjectPermissions User Team
  ownersTeams : List Team
  deriving Repr

/-- An object permissions are set on: its class, `created_by` and permission rows. -/
structure PermissionObject (User Team : Type) where
  cls : ObjClass
  createdBy : Option User
  perms : ObjectPermissions User Team
  deriving Repr

/-- The first step of `set_project_perms_to_object`: `owners[0]` becomes owner. -/
def setOwnersTeamPerms (obj : PermissionObject User Team) :
    List Team → PermissionObject User Team
  | [] => obj
  | owners :: _ => { obj with perms := Role.ownerRole.addGroup obj.cls owners obj.perms }

/-- One iteration of the loop of `set_project_perms_to_object`. -/
def setUserPermsToObject (obj : PermissionObject User Team) (row : User × Option Role) :
    PermissionObject User Team :=
  if obj.cls = .xform ∧ obj.createdBy = some row.1 then
    { obj with perms := Role.ownerRole.add obj.cls row.1 obj.perms }
  else
    match row.2 with
    | none => obj
    | some role => { obj with perms := role.add obj.cls row.1 obj.perms }

/-- `set_project_perms_to_object(obj, project)`. -/
def setProjectPermsToObject (obj : PermissionObject User Team)
    (project : Project User Team) (members : Team → List User) :
    PermissionObject User Team :=
  (getObjectUsersWithPermissions project.perms .project members true).foldl
    setUserPermsToObject (setOwnersTeamPerms obj project.ownersTeams)

/-- The permission rows of a project on which users and teams hold roles. A user or a
team that is listed with several roles has the rows of all of them. -/
def projectPermissions (users : List (User × Role)) (teams : List (Team × Role)) :
    ObjectPermissions User Team where
  userPerms := users.flatMap fun row => (row.2.permissions .project).map fun c => (row.1, c)
  groupPerms := teams.flatMap fun row => (row.2.permissions .project).map fun c => (row.1, c)

/-- The roles of `user` on a project, held directly or through a team. -/
def rolesOnProject (users : List (User × Role)) (teams : List (Team × Role))
    (members : Team → List User) (user : User) : List Role :=
  (users.filter fun row => row.1 = user).map (·.2)
    ++ (teams.filter fun row => user ∈ members row.1).map (·.2)

end

/-! ### Data of a form with meta permissions -/

/-- What `filter_queryset_xform_meta_perms_sql` reads of a form and of the user. -/
structure MetaPermsRequest where
  sharedData : Bool
  metaPermsEnabled : Bool
  hasPerm : Codename → Bool
  username : String

open Onadata.Lib in
/-- `query.update({"_submitted_by": user.username})`, or the list of both queries when
`query` has no `update`. -/
def confineQuery (username : String) (query : PyValue) : PyValue :=
  match query with
  | .dict items => .dict (Dict.insert items "_submitted_by" (.str username))
  | query => .list [.dict [("_submitted_by", .str username)], query]

open Onadata.Lib in
/-- `filter_queryset_xform_meta_perms_sql`. -/
def filterQuerysetXformMetaPermsSql (py : PyRuntime) (request : MetaPermsRequest)
    (query : PyValue) : Except PyError PyValue :=
  if request.hasPerm .viewXformAll || request.sharedData || !request.metaPermsEnabled then
    return query
  else if request.hasPerm .viewXformData then
    match query with
    | .str s =>
        if s = "" then return confineQuery request.username (.dict [])
        else
          match (py.jsonLoads s).map (RawJson.decode lastWins) with
          | .ok (.list []) => throw .indexError
          | .ok (.list (first :: _)) => return confineQuery request.username first
          | .ok decoded => return confineQuery request.username decoded
          | .error error =>
              if error = .valueError ∨ error = .attributeError then
                return confineQuery request.username query
              else throw error
    | _ => return confineQuery request.username (.dict [])
  else throw (.other "NoRecordsPermission")

end Onadata
