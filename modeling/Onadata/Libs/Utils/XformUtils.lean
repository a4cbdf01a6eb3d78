import Onadata.Lib.PyDict
import Onadata.Libs.Permissions

/-!
# `Onadata.Libs.Utils.XformUtils`: the roles of a form's users

`update_role_by_meta_xform_perms` of `libs/utils/xform_utils.py`, with `get_xform_users`, and
`get_project_users` of `libs/utils/project_utils.py`. As in `Onadata.Libs.Permissions` the
users are active ones.

Left out: the caches, and the names and the metadata of the users.
-/

set_option autoImplicit false

namespace Onadata

open Onadata.Lib

/-- The value of a form's metadata `xform_meta_perms`: three names of roles with pipes between
them, which `MetaDataSerializer.validate` checks to be in `ROLES`. -/
structure MetaPerms where
  editor : Role
  dataentry : Role
  readonly : Role
  deriving DecidableEq, Repr

/-- `DEFAULT_XFORM_META_PERMS`, which `_create_meta_perms` gives to a new form. -/
def defaultXformMetaPerms : MetaPerms where
  editor := .editorRole
  dataentry := .dataEntryRole
  readonly := .readOnlyRole

/-- `editor_role`. -/
def editorRole : List Role :=
  [.editorNoDownload, .editorRole, .editorMinorRole]

/-- `dataentry_role`. -/
def dataentryRole : List Role :=
  [.dataEntryMinorRole, .dataEntryOnlyRole, .dataEntryRole]

/-- `readonly_role`. -/
def readonlyRole : List Role :=
  [.readOnlyRole, .readOnlyRoleNoDownload]

section
variable {User Team : Type} [DecidableEq User] [DecidableEq Team]

/-- The users of the teams, and for an organization its members: those of the team
`<organization>#members`. -/
structure Accounts (User Team : Type) where
  members : Team → List User
  getTeamMembers : User → Option (List User)

/-- A form: the metadata that the sharing reads, and the permission rows. `merged` are those of
the merged dataset that the form also is. `inProject`: the form is one of the project's. -/
structure SharedForm (User Team : Type) where
  pk : Nat
  inProject : Bool := true
  metaPerms : Option MetaPerms
  perms : ObjectPermissions User Team
  merged : Option (ObjectPermissions User Team) := none
  deriving Repr

/-- `get_perms(user, obj)`. -/
def getPerms (p : ObjectPermissions User Team) (members : Team → List User) (user : User) :
    List Codename :=
  (p.userPerms.filter fun row => row.1 = user).map (·.2) ++
    (p.groupPerms.filter fun row => user ∈ members row.1).map (·.2)

/-- `get_project_users`. -/
def getProjectUsers (p : ObjectPermissions User Team) : List (User × Option Role) :=
  (p.userPerms.foldl addUserPerm []).map fun row => (row.1, getRole row.2 .project)

/-- `org_members` of `get_xform_users`: of several organizations the last one counts. -/
def orgMembers (accounts : Accounts User Team) (users : List User) : List User :=
  (users.filterMap accounts.getTeamMembers).getLast?.getD []

/-- One round of the loop over `org_members`. -/
def addOrgMember (accounts : Accounts User Team) (p : ObjectPermissions User Team)
    (data : List (User × List Codename)) (user : User) : List (User × List Codename) :=
  if user ∈ Dict.keys data then data else data ++ [(user, getPerms p accounts.members user)]

/-- `get_xform_users`. -/
def getXformUsers (accounts : Accounts User Team) (p : ObjectPermissions User Team) :
    List (User × Option Role) :=
  let data := p.userPerms.foldl addUserPerm []
  let data := (orgMembers accounts (Dict.keys data)).foldl (addOrgMember accounts p) data
  data.map fun row => (row.1, getRole row.2 .xform)

/-- The role that the loop of `update_role_by_meta_xform_perms` adds. `projectRole` is the entry
of the user in `project_users`. After the first or the second test `role` is a class, which is
no key of the other dicts. -/
def metaRole (metaPerms : MetaPerms) (projectRole : Option (Option Role)) :
    Option Role → Option Role
  | none => none
  | some role =>
      if role ∈ editorRole then some metaPerms.editor
      else if role ∈ dataentryRole then some metaPerms.dataentry
      else if role ∈ readonlyRole then
        if projectRole = none ∨ projectRole = some (some .readOnlyRole) then
          some metaPerms.readonly
        else none
      else none

/-- One round of the loop of `update_role_by_meta_xform_perms`. -/
def updateXformUser (metaPerms : MetaPerms) (projectUsers : List (User × Option Role))
    (p : ObjectPermissions User Team) (row : User × Option Role) : ObjectPermissions User Team :=
  match metaRole metaPerms (Dict.get? projectUsers row.1) row.2 with
  | none => p
  | some role => role.add .xform row.1 p

/-- `update_role_by_meta_xform_perms`. Its callers give a user with a role, or neither. -/
def updateRoleByMetaXformPerms (accounts : Accounts User Team)
    (project : ObjectPermissions User Team) (form : SharedForm User Team)
    (userRole : Option (User × Role)) : SharedForm User Team :=
  match form.metaPerms with
  | none => form
  | some metaPerms =>
      let users := match userRole with
        | some (user, role) => [(user, some role)]
        | none => getXformUsers accounts form.perms
      { form with
          perms := users.foldl (updateXformUser metaPerms (getProjectUsers project)) form.perms }

end

end Onadata
