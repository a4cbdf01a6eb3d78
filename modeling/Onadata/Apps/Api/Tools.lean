import Onadata.Lib.PyText
import Onadata.Libs.Models.ShareProject

/-!
# `Onadata.Apps.Api.Tools`: the members of an organization

`add_user_to_organization` and `remove_user_from_organization` of `apps/api/tools.py` with
the functions on teams that they call, `get_role_in_org` of `libs/permissions.py`, and the
task `share_project_async`.

The users here are any users: guardian's `get_perms` gives an inactive user no codename and
a superuser every codename of the class. `objectPerms` follows it, and `removeObjPermissions`
removes what it lists.

An organization has its Owners team from the `post_save` of its profile on, and
`get_organization_members_team` creates the other team at its first use with the account of
the organization in it. The model has both teams from the start.

The requests about members are `OrganizationMemberSerializer` of
`libs/serializers/organization_member_serializer.py` and the action `members` of
`apps/api/viewsets/team_viewset.py`. A serializer is validated first and saved later, each in its
own queries, so that other requests can come between the two. `OrgState` keeps the validated
requests that are not saved yet, and the tasks that are started and have not run.

The text of a role that is not in `ROLES` and a username that no account has are refused by
`validate_role` and `validate_username` before anything else is looked at; the requests here
have neither. Left out: the mails, who may send the requests, and the caches
(`Onadata.Apps.Api.Viewsets.OrganizationProfileViewset` has the one of the organizations).
-/

set_option autoImplicit false

namespace Onadata

open Onadata.Lib

/-- The teams of the organization: `<organization>#Owners`, `<organization>#members`, and the
others. -/
inductive TeamKey
  | owners
  | members
  | other (pk : Nat)
  deriving DecidableEq, Repr

/-- A group that permission rows can name: a team of the organization or a group that is not
one of its teams. -/
inductive GroupKey
  | team (key : TeamKey)
  | elsewhere (pk : Nat)
  deriving DecidableEq, Repr

/-- The permission codenames of `Team`. -/
inductive TeamCodename
  | addTeam | changeTeam | deleteTeam | viewTeam
  deriving DecidableEq, Repr

/-- `get_perms_for_model(Team)`. -/
def permsForTeam : List TeamCodename :=
  [.addTeam, .changeTeam, .deleteTeam, .viewTeam]

/-- The codenames of `OrganizationProfile`. -/
def organizationProfilePerms : List Codename :=
  [.addOrganizationprofile, .changeOrganizationprofile, .deleteOrganizationprofile,
    .viewOrganizationprofile, .canAddProject, .canAddXform, .isOrgOwner]

/-- The codenames of `Project`. -/
def projectPerms : List Codename :=
  [.addProject, .changeProject, .deleteProject, .viewProject, .addProjectXform,
    .reportProjectXform, .transferProject, .canExportProjectData, .viewProjectAll,
    .viewProjectData, .addProjectEntitylist]

section
variable {User : Type} [DecidableEq User]

/-- A team: its full name, `user_set`, and the permission rows on it. -/
structure OrgTeam (User : Type) where
  name : String
  users : List User
  perms : List (User × TeamCodename)
  users_nodup : users.Nodup

namespace OrgTeam

/-- `team.name.find(Team.OWNER_TEAM_NAME) > 0`. -/
def namedOwners (team : OrgTeam User) : Bool :=
  !startsWith team.name "Owners" && decide ("Owners".toList <:+: team.name.toList)

/-- `user.groups.add(team)`. -/
def addUser (team : OrgTeam User) (user : User) : OrgTeam User :=
  { team with
      users := if user ∈ team.users then team.users else user :: team.users
      users_nodup := by
        split
        · exact team.users_nodup
        · exact List.nodup_cons.mpr ⟨‹_›, team.users_nodup⟩ }

/-- `user.groups.remove(team)`. -/
def removeUser (team : OrgTeam User) (user : User) : OrgTeam User :=
  { team with
      users := team.users.filter (· ≠ user)
      users_nodup := team.users_nodup.filter _ }

/-- `assign_perm` for each of `codenames`. -/
def assignPerms (team : OrgTeam User) (codenames : List TeamCodename) (user : User) :
    OrgTeam User :=
  { team with
      perms := team.perms ++
        (codenames.map fun c => (user, c)).filter fun row => row ∉ team.perms }

/-- `remove_perm` for each of `codenames`. -/
def removePerms (team : OrgTeam User) (codenames : List TeamCodename) (user : User) :
    OrgTeam User :=
  { team with
      perms := team.perms.filter fun row => row ∉ codenames.map fun c => (user, c) }

end OrgTeam

/-- What is known of the users, and the groups that are not teams of the organization. The
requests to the organization change none of it. `getTeamMembers` are the members of the other
organizations. -/
structure Directory (User : Type) where
  isActive : User → Bool
  isSuperuser : User → Bool
  isOrganization : User → Bool
  elsewhere : Nat → List User
  getTeamMembers : User → Option (List User)

/-- A project of the organization. -/
structure OrgProject (User : Type) where
  createdBy : Option User
  perms : ObjectPermissions User GroupKey
  dataviews : List SharedDataview
  entityLists : List (ObjectPermissions User GroupKey)

/-- A form, with the project it is in. `merged` are the rows of the merged dataset that the
form also is. -/
structure OrgForm (User : Type) where
  pk : Nat
  project : Nat
  metaPerms : Option MetaPerms
  perms : ObjectPermissions User GroupKey
  merged : Option (ObjectPermissions User GroupKey)

/-- An organization: the account `user`, the permission rows of its profile and of its
`userprofile_ptr`, its teams, the keys of `user.project_org` with the projects, and the forms
of these projects and of their dataviews. -/
structure Organization (User : Type) where
  user : User
  directory : Directory User
  perms : ObjectPermissions User GroupKey
  userProfile : ObjectPermissions User GroupKey
  teams : TeamKey → OrgTeam User
  projectOrg : List Nat
  project : Nat → OrgProject User
  forms : List (OrgForm User)

/-- A call `share_project_async.delay(project, user, role, remove)`. A role that is not in
`ROLES` is `none`. -/
structure ShareTask (User : Type) where
  project : Nat
  user : User
  role : Option Role
  remove : Bool
  deriving DecidableEq, Repr

namespace Organization

variable (org : Organization User)

/-! ### Roles -/

/-- `group.user_set`. -/
def groupUsers : GroupKey → List User
  | .team key => (org.teams key).users
  | .elsewhere pk => org.directory.elsewhere pk

/-- `get_perms(user, obj)` for any user. `all` are the codenames of the class of `obj`. -/
def objectPerms (all : List Codename) (p : ObjectPermissions User GroupKey) (user : User) :
    List Codename :=
  if org.directory.isActive user then
    if org.directory.isSuperuser user then all else getPerms p org.groupUsers user
  else []

/-- `get_role_in_org`. `none` stands for `MemberRole.name`, which is not in `ROLES`. -/
def getRoleInOrg (user : User) : Option Role :=
  let perms := org.objectPerms organizationProfilePerms org.perms user
  if .isOrgOwner ∈ perms then some .ownerRole else getRole perms .organizationProfile

/-- `_get_owners`. -/
def getOwners : List User :=
  (org.teams .owners).users.filter fun user =>
    decide (org.getRoleInOrg user = some .ownerRole) && decide (org.user ≠ user)

/-- `Role.remove_obj_permissions(user, obj)`. -/
def removeObjPermissions (user : User) (p : ObjectPermissions User GroupKey) :
    ObjectPermissions User GroupKey :=
  if org.directory.isActive user then p.removeUserPermissions user else p

/-- `Role.add(user, obj)`. -/
def addRole (role : Role) (cls : ObjClass) (user : User) (p : ObjectPermissions User GroupKey) :
    ObjectPermissions User GroupKey :=
  let cleared := org.removeObjPermissions user p
  { cleared with
      userPerms := cleared.userPerms ++
        ((role.permissions cls).map fun c => (user, c)).filter fun row =>
          row ∉ cleared.userPerms }

/-- `role_cls.add(user, organization)`. -/
def addProfileRole (role : Role) (user : User) : Organization User :=
  { org with perms := org.addRole role .organizationProfile user org.perms }

/-- `role_cls.add(user, organization.userprofile_ptr)`. -/
def addUserProfileRole (role : Role) (user : User) : Organization User :=
  { org with userProfile := org.addRole role .userProfile user org.userProfile }

/-- `org_role_cls.remove_obj_permissions(user, organization)`. -/
def removeProfilePerms (user : User) : Organization User :=
  { org with perms := org.removeObjPermissions user org.perms }

/-- `org_role_cls.remove_obj_permissions(user, organization.userprofile_ptr)`. -/
def removeUserProfilePerms (user : User) : Organization User :=
  { org with userProfile := org.removeObjPermissions user org.userProfile }

/-- `get_team_project_default_permissions`. -/
def getTeamProjectDefaultPermissions (team : TeamKey) (project : OrgProject User) :
    Option Role :=
  getRole ((project.perms.groupPerms.filter fun row => row.1 = .team team).map (·.2)) .project

/-! ### Teams -/

/-- The organization with one team changed. -/
def setTeam (key : TeamKey) (f : OrgTeam User → OrgTeam User) : Organization User :=
  { org with teams := fun k => if k = key then f (org.teams k) else org.teams k }

/-- `add_user_to_team`. The last lines are `_assign_organization_team_perms`. -/
def addUserToTeam (key : TeamKey) (user : User) : Organization User :=
  let added := org.setTeam key fun team => (team.addUser user).assignPerms [.viewTeam] user
  if (org.teams key).namedOwners then
    (added.setTeam .owners (·.assignPerms permsForTeam user)).setTeam .members
      (·.assignPerms permsForTeam user)
  else added

/-- `remove_user_from_team`. -/
def removeUserFromTeam (key : TeamKey) (user : User) : Organization User :=
  let removed := org.setTeam key fun team => (team.removeUser user).removePerms [.viewTeam] user
  if (org.teams key).namedOwners then
    (removed.setTeam .owners (·.removePerms permsForTeam user)).setTeam .members
      (·.removePerms permsForTeam user)
  else removed

/-! ### Members -/

/-- The first part of `add_user_to_organization`: the teams and the rows on the profile. -/
def addMember (user : User) (role : Option Role) : Organization User :=
  let org := org.addUserToTeam .members user
  match role with
  | none => org
  | some role =>
      let org := org.addProfileRole role user
      if role = .ownerRole then (org.addUserProfileRole role user).addUserToTeam .owners user
      else (org.removeUserFromTeam .owners user).removeUserProfilePerms user

/-- The role of the task that `add_user_to_organization` starts for a project. -/
def newMemberRole (user : User) (role : Option Role) (project : OrgProject User) : Option Role :=
  if role = some .ownerRole then role
  else if role = some .managerRole ∧ project.createdBy = some user then role
  else getTeamProjectDefaultPermissions .members project

/-- `add_user_to_organization`, with the tasks it starts. -/
def addUserToOrganization (user : User) (role : Option Role) :
    Organization User × List (ShareTask User) :=
  let org := org.addMember user role
  (org, org.projectOrg.map fun pk =>
    { project := pk, user := user, role := newMemberRole user role (org.project pk),
      remove := false })

/-- The first part of `remove_user_from_organization`: the teams and the rows on the
profile. -/
def removeMember (user : User) : Organization User :=
  let org := (org.removeUserFromTeam .members user).removeUserFromTeam .owners user
  match org.getRoleInOrg user with
  | none => org
  | some _ => (org.removeProfilePerms user).removeUserProfilePerms user

/-- `remove_user_from_organization`, with the tasks it starts. -/
def removeUserFromOrganization (user : User) : Organization User × List (ShareTask User) :=
  let org := org.removeMember user
  (org, org.projectOrg.map fun pk =>
    { project := pk, user := user,
      role := getRole (org.objectPerms projectPerms (org.project pk).perms user) .project,
      remove := true })

/-! ### The tasks -/

/-- The accounts that the sharing of a project reads. -/
def accounts : Accounts User GroupKey where
  members := org.groupUsers
  getTeamMembers user :=
    if user = org.user then some (org.teams .members).users
    else org.directory.getTeamMembers user

/-- The project `pk` with the forms, as `ShareProject` finds it. -/
def sharedProject (pk : Nat) : SharedProject User GroupKey where
  perms := (org.project pk).perms
  forms := org.forms.map fun form =>
    { pk := form.pk, inProject := form.project = pk, metaPerms := form.metaPerms,
      perms := form.perms, merged := form.merged }
  dataviews := (org.project pk).dataviews
  entityLists := (org.project pk).entityLists

/-- The rows of the project `pk` and of the forms are those of `shared`. -/
def withSharedProject (pk : Nat) (shared : SharedProject User GroupKey) : Organization User :=
  { org with
      project := fun k =>
        if k = pk then
          { org.project k with perms := shared.perms, entityLists := shared.entityLists }
        else org.project k
      forms := List.zipWith
        (fun form row => { form with perms := row.perms, merged := row.merged })
        org.forms shared.forms }

/-- `share_project_async`. -/
def shareProjectAsync (task : ShareTask User) : Organization User :=
  match task.role with
  | none => org
  | some role =>
      org.withSharedProject task.project
        ((org.sharedProject task.project).shareProject org.accounts task.user role task.remove)

/-- The tasks, one after another. -/
def runTasks (tasks : List (ShareTask User)) : Organization User :=
  tasks.foldl shareProjectAsync org

end Organization

end

variable {User : Type} [DecidableEq User]

/-- What `OrganizationMemberSerializer` is given. -/
structure MemberRequest (User : Type) where
  username : Option User
  role : Option Role
  remove : Bool
  deriving DecidableEq, Repr

/-- The errors of the validation. -/
inductive MemberError
  /-- `User is not active`. -/
  | notActive
  /-- `Cannot add org account ... as member.` -/
  | orgAccount
  /-- `Organization cannot be without an owner`. -/
  | withoutOwner
  deriving DecidableEq, Repr

namespace Organization

variable (org : Organization User)

/-- `OrganizationMemberSerializer.validate_username`. -/
def validateUsername (user : User) : Except MemberError Unit :=
  if ¬ org.directory.isActive user then .error .notActive
  else if org.directory.isOrganization user then .error .orgAccount
  else .ok ()

/-- `OrganizationMemberSerializer.validate`, after `validate_username`. -/
def validate (request : MemberRequest User) : Except MemberError Unit :=
  match request.username with
  | none => .ok ()
  | some user =>
      match org.validateUsername user with
      | .error error => .error error
      | .ok () =>
          -- check if roles are downgrading and the user is the last admin
          if (request.remove ∨ request.role ≠ some .ownerRole) ∧
              user ∈ org.getOwners ∧ org.getOwners.length ≤ 1 then
            .error .withoutOwner
          else .ok ()

/-- `OrganizationMemberSerializer.create`, with the tasks it starts. -/
def create (request : MemberRequest User) : Organization User × List (ShareTask User) :=
  match request.username with
  | none => (org, [])
  | some user =>
      if request.remove then org.removeUserFromOrganization user
      else org.addUserToOrganization user request.role

end Organization

/-- An organization with the requests that are validated and not saved, and the tasks that have
not run. -/
structure OrgState (User : Type) where
  org : Organization User
  validated : List (MemberRequest User)
  tasks : List (ShareTask User)

/-- What can happen next. `save` and `task` take the `i`-th request and task that wait. -/
inductive OrgAction (User : Type)
  | validate (request : MemberRequest User)
  | save (i : Nat)
  | task (i : Nat)
  | postTeamMember (team : TeamKey) (user : User)
  | deleteTeamMember (team : TeamKey) (user : User)
  deriving Repr

/-- The next state; `none` when no such request or task waits. -/
def OrgState.act (s : OrgState User) : OrgAction User → Option (OrgState User)
  | .validate request =>
      match s.org.validate request with
      | .error _ => some s
      | .ok () => some { s with validated := s.validated ++ [request] }
  | .save i =>
      match s.validated[i]? with
      | none => none
      | some request =>
          let saved := s.org.create request
          some { org := saved.1, validated := s.validated.eraseIdx i, tasks := s.tasks ++ saved.2 }
  | .task i =>
      match s.tasks[i]? with
      | none => none
      | some task =>
          some { s with org := s.org.shareProjectAsync task, tasks := s.tasks.eraseIdx i }
  | .postTeamMember team user => some { s with org := s.org.addUserToTeam team user }
  | .deleteTeamMember team user => some { s with org := s.org.removeUserFromTeam team user }

/-- The steps of the requests. -/
def OrgStep (s : OrgState User) (action : OrgAction User) (s' : OrgState User) : Prop :=
  s.act action = some s'

end Onadata
