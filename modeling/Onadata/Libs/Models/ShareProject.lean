import Onadata.Libs.Utils.XformUtils

/-!
# `Onadata.Libs.Models.ShareProject`: a project is shared

`ShareProject.save` of `libs/models/share_project.py`, `ShareTeamProject.save` of
`libs/models/share_team_project.py`, and `create_xform_meta_permissions` of
`libs/serializers/metadata_serializer.py`, which `_create_meta_perms` calls for a new form and
`MetaDataSerializer` for a change.

The role is one of `ROLES`, for another text both classes do nothing. Left out: the caches,
and the permissions that are propagated to KPI.
-/

set_option autoImplicit false

namespace Onadata

variable {User Team : Type} [DecidableEq User] [DecidableEq Team]

/-- A dataview of the project. -/
structure SharedDataview where
  xform : Nat
  matchesParent : Bool
  deriving Repr

/-- The rows that sharing a project reads and writes. `forms` holds the forms of the project and
those of its dataviews. -/
structure SharedProject (User Team : Type) where
  perms : ObjectPermissions User Team
  forms : List (SharedForm User Team)
  dataviews : List SharedDataview
  entityLists : List (ObjectPermissions User Team)
  deriving Repr

/-- The form `pk` with other permission rows. -/
def setFormPerms (update : ObjectPermissions User Team → ObjectPermissions User Team)
    (forms : List (SharedForm User Team)) (pk : Nat) : List (SharedForm User Team) :=
  forms.map fun form => if form.pk = pk then { form with perms := update form.perms } else form

/-- The loop over the dataviews: `update` is made to the form of each that is `taken`. -/
def setDataviewPerms (taken : SharedDataview → Bool)
    (update : ObjectPermissions User Team → ObjectPermissions User Team)
    (dataviews : List SharedDataview) (forms : List (SharedForm User Team)) :
    List (SharedForm User Team) :=
  dataviews.foldl (fun forms dataview =>
    if taken dataview then setFormPerms update forms dataview.xform else forms) forms

/-- One round of the loop of `ShareProject.save` over the forms. `project` are the rows of the
project. -/
def shareForm (accounts : Accounts User Team) (project : ObjectPermissions User Team)
    (user : User) (role : Role) (form : SharedForm User Team) : SharedForm User Team :=
  let shared :=
    if form.metaPerms.isSome = true ∧
        role ∉ [Role.readOnlyRoleNoDownload, Role.managerRole, Role.ownerRole] then
      updateRoleByMetaXformPerms accounts project form (some (user, role))
    else { form with perms := role.add .xform user form.perms }
  { shared with merged := shared.merged.map (role.add .mergedXForm user) }

/-- One round of the loop of `remove_xform_permissions`. -/
def removeFormUser (user : User) (form : SharedForm User Team) : SharedForm User Team :=
  { form with
      perms := form.perms.removeUserPermissions user
      merged := form.merged.map (·.removeUserPermissions user) }

/-- One round of the loop of `ShareTeamProject.save` over the forms. -/
def shareTeamForm (accounts : Accounts User Team) (project : ObjectPermissions User Team)
    (team : Team) (role : Role) (form : SharedForm User Team) : SharedForm User Team :=
  updateRoleByMetaXformPerms accounts project
    { form with perms := role.addGroup .xform team form.perms } none

/-- One round of the loop of `remove_team` over the forms. -/
def removeFormTeam (team : Team) (form : SharedForm User Team) : SharedForm User Team :=
  { form with perms := form.perms.removeGroupPermissions team }

namespace SharedProject

/-- The loop over `project.xform_set`. -/
def mapForms (s : SharedProject User Team) (f : SharedForm User Team → SharedForm User Team) :
    List (SharedForm User Team) :=
  s.forms.map fun form => if form.inProject then f form else form

/-- `ShareProject.save`. -/
def shareProject (accounts : Accounts User Team) (s : SharedProject User Team) (user : User)
    (role : Role) (remove : Bool) : SharedProject User Team :=
  if remove then
    { perms := s.perms.removeUserPermissions user
      forms := setDataviewPerms (fun _ => true) (·.removeUserPermissions user) s.dataviews
        (s.mapForms (removeFormUser user))
      dataviews := s.dataviews
      entityLists := s.entityLists.map (·.removeUserPermissions user) }
  else
    let perms := role.add .project user s.perms
    { perms := perms
      forms := setDataviewPerms (·.matchesParent) (role.add .xform user) s.dataviews
        (s.mapForms (shareForm accounts perms user role))
      dataviews := s.dataviews
      entityLists := s.entityLists.map (role.add .entityList user) }

/-- `ShareTeamProject.save`. -/
def shareTeamProject (accounts : Accounts User Team) (s : SharedProject User Team) (team : Team)
    (role : Role) (remove : Bool) : SharedProject User Team :=
  if remove then
    { s with
        perms := s.perms.removeGroupPermissions team
        forms := setDataviewPerms (fun _ => true) (·.removeGroupPermissions team) s.dataviews
          (s.mapForms (removeFormTeam team)) }
  else
    let perms := role.addGroup .project team s.perms
    { s with
        perms := perms
        forms := setDataviewPerms (·.matchesParent) (role.addGroup .xform team) s.dataviews
          (s.mapForms (shareTeamForm accounts perms team role)) }

/-- `create_xform_meta_permissions` for a form of the project. -/
def createXformMetaPermissions (accounts : Accounts User Team) (s : SharedProject User Team)
    (pk : Nat) (metaPerms : MetaPerms) : SharedProject User Team :=
  { s with
      forms := s.mapForms fun form =>
        if form.pk = pk then
          updateRoleByMetaXformPerms accounts s.perms
            { form with metaPerms := some metaPerms } none
        else form }

end SharedProject

/-- The calls that change the permissions of a project. -/
inductive ShareCall (User Team : Type)
  | shareProject (user : User) (role : Role) (remove : Bool)
  | shareTeamProject (team : Team) (role : Role) (remove : Bool)
  | createXformMetaPermissions (pk : Nat) (metaPerms : MetaPerms)
  deriving Repr

/-- The project after a call. -/
def SharedProject.call (accounts : Accounts User Team) (s : SharedProject User Team) :
    ShareCall User Team → SharedProject User Team
  | .shareProject user role remove => s.shareProject accounts user role remove
  | .shareTeamProject team role remove => s.shareTeamProject accounts team role remove
  | .createXformMetaPermissions pk metaPerms =>
      s.createXformMetaPermissions accounts pk metaPerms

end Onadata
