import Onadata.Libs.Utils.XformUtils
import Onadata.Proofs.Libs.ProjectRoles

/-!
# `Onadata.Proofs.Libs.Models.MetaRoles`: the pass over the users of a form

`update_role_by_meta_xform_perms` reads the role of each user back from the permissions on the
form and gives another one. The form permissions of a role are read back as that role, so the
pass takes a user with the rows of `role` to the rows of `metaRole` of it.
-/

set_option autoImplicit false

namespace Onadata.Proofs

open Onadata Onadata.Lib

/-! ### Reading a role back from form permissions -/

/-- `get_role` reads the set of the permissions only. -/
theorem getRole_congr {perms perms' : List Codename} {cls : ObjClass}
    (h : ∀ c, c ∈ perms ↔ c ∈ perms') : getRole perms cls = getRole perms' cls := by
  have hhas : ∀ role : Role, role.hasRole perms cls = role.hasRole perms' cls := by
    intro role
    unfold Role.hasRole
    cases role.classToPermissions cls with
    | none => rfl
    | some held =>
        show (held.all fun c => perms.contains c) = held.all fun c => perms'.contains c
        rw [Bool.eq_iff_iff, List.all_eq_true, List.all_eq_true]
        simp only [List.contains_iff_mem, h]
  unfold getRole
  simp only [hhas]

/-- The form permissions of a role are read back as the role. -/
theorem getRole_xform {perms : List Codename} {role : Role}
    (h : ∀ c, c ∈ perms ↔ c ∈ role.permissions .xform) : getRole perms .xform = some role := by
  rw [getRole_congr h]
  cases role <;> decide

/-- Of the project permissions of the roles, those of `ReadOnlyRole` are read back as it. -/
theorem getRole_project_readOnly {perms : List Codename} {role : Role}
    (h : ∀ c, c ∈ perms ↔ c ∈ role.permissions .project) :
    ∃ r, getRole perms .project = some r ∧ (r = .readOnlyRole ↔ role = .readOnlyRole) := by
  rw [getRole_congr h]
  cases role
  case readOnlyRole => exact ⟨.readOnlyRole, by decide, by decide⟩
  case readOnlyRoleNoDownload => exact ⟨.readOnlyRoleNoDownload, by decide, by decide⟩
  case dataEntryOnlyRole => exact ⟨.dataEntryRole, by decide, by decide⟩
  case dataEntryMinorRole => exact ⟨.dataEntryMinorRole, by decide, by decide⟩
  case dataEntryRole => exact ⟨.dataEntryRole, by decide, by decide⟩
  case editorNoDownload => exact ⟨.editorMinorRole, by decide, by decide⟩
  case editorMinorRole => exact ⟨.editorMinorRole, by decide, by decide⟩
  case editorRole => exact ⟨.editorRole, by decide, by decide⟩
  case managerRole => exact ⟨.managerRole, by decide, by decide⟩
  case ownerRole => exact ⟨.ownerRole, by decide, by decide⟩

/-- Each role has a permission on projects. -/
theorem exists_mem_permissions_project (role : Role) : ∃ c, c ∈ role.permissions .project :=
  ⟨.viewProject, by cases role <;> decide⟩

/-- Each role has a permission on forms. -/
theorem exists_mem_permissions_xform (role : Role) : ∃ c, c ∈ role.permissions .xform :=
  ⟨.viewXform, by cases role <;> decide⟩

section Rows
variable {User Team : Type}

/-- The rows of the user are those of the role. -/
def HoldsRole (cls : ObjClass) (p : ObjectPermissions User Team) (user : User) (role : Role) :
    Prop :=
  ∀ c, (user, c) ∈ p.userPerms ↔ c ∈ role.permissions cls

/-- The rows of the team are those of the role. -/
def TeamHoldsRole (cls : ObjClass) (p : ObjectPermissions User Team) (team : Team)
    (role : Role) : Prop :=
  ∀ c, (team, c) ∈ p.groupPerms ↔ c ∈ role.permissions cls

/-- The user has no rows. -/
def HoldsNothing (p : ObjectPermissions User Team) (user : User) : Prop :=
  ∀ c, (user, c) ∉ p.userPerms

variable [DecidableEq User] [DecidableEq Team]

omit [DecidableEq Team] in
/-- The entry of a user in the dict of the rows. -/
theorem mem_foldl_addUserPerm {rows : List (User × Codename)} {user : User}
    {cs : List Codename} (h : (user, cs) ∈ rows.foldl addUserPerm []) (c : Codename) :
    c ∈ cs ↔ (user, c) ∈ rows := by
  obtain ⟨hnodup, -, hheld⟩ := foldl_addUserPerm rows [] List.nodup_nil
  have hiff := hheld user c
  constructor
  · intro hc
    rcases hiff.mp ⟨cs, h, hc⟩ with ⟨cs', hmem, -⟩ | hrow
    · exact absurd hmem List.not_mem_nil
    · exact hrow
  · intro hrow
    obtain ⟨cs', hmem, hc⟩ := hiff.mpr (Or.inr hrow)
    have heq : (user, cs') = (user, cs) := List.inj_on_of_nodup_map hnodup hmem h rfl
    rw [Prod.mk.injEq] at heq
    exact heq.2 ▸ hc

omit [DecidableEq Team] in
/-- The users of the dict are those with rows. -/
theorem mem_keys_foldl_addUserPerm {rows : List (User × Codename)} {user : User} :
    user ∈ Dict.keys (rows.foldl addUserPerm []) ↔ ∃ c, (user, c) ∈ rows := by
  obtain ⟨-, hkeys, -⟩ := foldl_addUserPerm rows [] List.nodup_nil
  show user ∈ (rows.foldl addUserPerm []).map (·.1) ↔ _
  rw [hkeys]
  exact or_iff_right List.not_mem_nil

/-- `Role.add` gives the user the rows of the role. -/
theorem holdsRole_add (role : Role) (cls : ObjClass) (user : User)
    (p : ObjectPermissions User Team) : HoldsRole cls (role.add cls user p) user role := by
  intro c
  rw [mem_userPerms_add, if_pos rfl]

omit [DecidableEq User] in
/-- `Role.add` gives the team the rows of the role. -/
theorem teamHoldsRole_addGroup (role : Role) (cls : ObjClass) (team : Team)
    (p : ObjectPermissions User Team) :
    TeamHoldsRole cls (role.addGroup cls team p) team role := by
  intro c
  unfold Role.addGroup ObjectPermissions.removeGroupPermissions
  simp

/-! ### `get_project_users` -/

omit [DecidableEq Team] in
/-- The project role of a user with the rows of a role. -/
theorem get?_getProjectUsers {p : ObjectPermissions User Team} {user : User} {role : Role}
    (h : HoldsRole .project p user role) :
    ∃ r, Dict.get? (getProjectUsers p) user = some (some r) ∧
      (r = .readOnlyRole ↔ role = .readOnlyRole) := by
  obtain ⟨c, hc⟩ := exists_mem_permissions_project role
  have hkey := mem_keys_foldl_addUserPerm.mpr ⟨c, (h c).mpr hc⟩
  obtain ⟨⟨user', cs⟩, hmem, huser⟩ := List.mem_map.mp hkey
  obtain rfl : user' = user := huser
  obtain ⟨r, hr, hiff⟩ := getRole_project_readOnly fun c => (mem_foldl_addUserPerm hmem c).trans (h c)
  have hnodup : (Dict.keys (getProjectUsers p)).Nodup := by
    have := (foldl_addUserPerm p.userPerms [] List.nodup_nil).1
    unfold getProjectUsers Dict.keys
    rw [List.map_map]
    exact this
  refine ⟨r, ?_, hiff⟩
  have hget := Dict.get?_of_mem hnodup 
    (List.mem_map.mpr ⟨_, hmem, rfl⟩)
  rw [← hr]
  exact hget

/-! ### `get_xform_users` -/

section Users
variable {accounts : Accounts User Team} {p : ObjectPermissions User Team}

omit [DecidableEq Team]

/-- The loop over the members of an organization keeps the entries and adds those of members
without one. -/
theorem orgMembers_loop (users : List User) :
    ∀ data : List (User × List Codename), (Dict.keys data).Nodup →
      (Dict.keys (users.foldl (addOrgMember accounts p) data)).Nodup ∧
        ∀ row, row ∈ users.foldl (addOrgMember accounts p) data ↔ row ∈ data ∨
          row.1 ∈ users ∧ row.1 ∉ Dict.keys data ∧ row.2 = getPerms p accounts.members row.1 := by
  induction users with
  | nil =>
      intro data hdata
      refine ⟨hdata, fun row => ?_⟩
      simp
  | cons user users ih =>
      intro data hdata
      show (Dict.keys (users.foldl (addOrgMember accounts p)
        (addOrgMember accounts p data user))).Nodup ∧ _
      by_cases huser : user ∈ Dict.keys data
      · have hround : addOrgMember accounts p data user = data := if_pos huser
        obtain ⟨hnodup, hrows⟩ := ih data hdata
        rw [List.foldl_cons, hround]
        refine ⟨hnodup, fun row => ?_⟩
        rw [hrows, List.mem_cons]
        grind
      · have hround : addOrgMember accounts p data user =
            data ++ [(user, getPerms p accounts.members user)] := if_neg huser
        obtain ⟨hnodup, hrows⟩ := ih (data ++ [(user, getPerms p accounts.members user)]) (by
          rw [Dict.keys_append, List.nodup_append]
          exact ⟨hdata, List.nodup_singleton _, fun a ha b hb heq => huser (by
            obtain rfl := List.mem_singleton.mp hb
            exact heq ▸ ha)⟩)
        rw [List.foldl_cons, hround]
        refine ⟨hnodup, fun row => ?_⟩
        have hrow : row ∈ data ++ [(user, getPerms p accounts.members user)] ↔
            row ∈ data ∨ row.1 = user ∧ row.2 = getPerms p accounts.members user := by
          rw [List.mem_append, List.mem_singleton, Prod.ext_iff]
        have hkeys : row.1 ∈ Dict.keys (data ++ [(user, getPerms p accounts.members user)]) ↔
            row.1 ∈ Dict.keys data ∨ row.1 = user := by
          rw [Dict.keys_append, List.mem_append]
          exact or_congr_right List.mem_singleton
        rw [hrows, hrow, hkeys, List.mem_cons]
        grind

/-- The users of a form are listed once. -/
theorem nodup_getXformUsers : (Dict.keys (getXformUsers accounts p)).Nodup := by
  have hloop := (@orgMembers_loop _ _ _ accounts p
    (orgMembers accounts (Dict.keys (p.userPerms.foldl addUserPerm []))) _
    (foldl_addUserPerm p.userPerms [] List.nodup_nil).1).1
  unfold getXformUsers Dict.keys
  rw [List.map_map]
  exact hloop

/-- A user with the rows of a role is listed with that role. -/
theorem mem_getXformUsers {user : User} {role : Role} (h : HoldsRole .xform p user role) :
    (user, some role) ∈ getXformUsers accounts p := by
  obtain ⟨c, hc⟩ := exists_mem_permissions_xform role
  obtain ⟨⟨user', cs⟩, hmem, huser⟩ :=
    List.mem_map.mp (mem_keys_foldl_addUserPerm.mpr ⟨c, (h c).mpr hc⟩)
  obtain rfl : user' = user := huser
  have hrole : getRole cs .xform = some role :=
    getRole_xform fun c => (mem_foldl_addUserPerm hmem c).trans (h c)
  refine List.mem_map.mpr ⟨(user', cs), ?_, by rw [hrole]⟩
  exact ((orgMembers_loop _ _ (foldl_addUserPerm p.userPerms [] List.nodup_nil).1).2 _).mpr
    (Or.inl hmem)

/-- A listed user without rows is a member of an organization, with the role of the teams. -/
theorem role_of_mem_getXformUsers {user : User} {role : Option Role} (h : HoldsNothing p user)
    (hmem : (user, role) ∈ getXformUsers accounts p) :
    role = getRole (getPerms p accounts.members user) .xform := by
  obtain ⟨⟨user', cs⟩, hrow, heq⟩ := List.mem_map.mp hmem
  rw [Prod.mk.injEq] at heq
  obtain ⟨huser, hrole⟩ := heq
  obtain rfl : user' = user := huser
  rcases ((orgMembers_loop _ _ (foldl_addUserPerm p.userPerms [] List.nodup_nil).1).2 _).mp hrow
    with hdirect | ⟨-, -, hcs⟩
  · obtain ⟨c, hc⟩ := mem_keys_foldl_addUserPerm.mp (List.mem_map_of_mem hdirect)
    exact absurd hc (h c)
  · rw [← hrole, ← hcs]

end Users

/-! ### The rounds of the pass -/

section Rounds
variable {metaPerms : MetaPerms} {projectUsers : List (User × Option Role)}
  {p : ObjectPermissions User Team} {user : User}

omit [DecidableEq Team] in
/-- A round does not touch the rows of teams. -/
@[simp]
theorem groupPerms_updateXformUser (row : User × Option Role) :
    (updateXformUser metaPerms projectUsers p row).groupPerms = p.groupPerms := by
  unfold updateXformUser
  split
  · rfl
  · rfl

/-- A round does not touch the rows of other users. -/
theorem mem_updateXformUser_of_ne {row : User × Option Role} (h : user ≠ row.1) (c : Codename) :
    (user, c) ∈ (updateXformUser metaPerms projectUsers p row).userPerms ↔
      (user, c) ∈ p.userPerms := by
  unfold updateXformUser
  split
  · exact Iff.rfl
  · rw [mem_userPerms_add, if_neg h]

/-- What a round makes of the rows of the user depends on these rows only. -/
theorem mem_updateXformUser_congr {p' : ObjectPermissions User Team} {role : Option Role}
    (h : ∀ c, (user, c) ∈ p'.userPerms ↔ (user, c) ∈ p.userPerms) (c : Codename) :
    (user, c) ∈ (updateXformUser metaPerms projectUsers p' (user, role)).userPerms ↔
      (user, c) ∈ (updateXformUser metaPerms projectUsers p (user, role)).userPerms := by
  unfold updateXformUser
  split
  · exact h c
  · rw [mem_userPerms_add, mem_userPerms_add, if_pos rfl, if_pos rfl]

omit [DecidableEq Team] in
/-- The rounds do not touch the rows of teams. -/
theorem groupPerms_foldl_updateXformUser (rows : List (User × Option Role)) :
    (rows.foldl (updateXformUser metaPerms projectUsers) p).groupPerms = p.groupPerms := by
  induction rows generalizing p with
  | nil => rfl
  | cons row rows ih => rw [List.foldl_cons, ih, groupPerms_updateXformUser]

/-- The rounds do not touch the rows of a user who is not listed. -/
theorem mem_foldl_updateXformUser_of_not_mem {rows : List (User × Option Role)}
    (h : user ∉ Dict.keys rows) (c : Codename) :
    (user, c) ∈ (rows.foldl (updateXformUser metaPerms projectUsers) p).userPerms ↔
      (user, c) ∈ p.userPerms := by
  induction rows generalizing p with
  | nil => exact Iff.rfl
  | cons row rows ih =>
      rw [Dict.keys_cons, List.mem_cons, not_or] at h
      rw [List.foldl_cons, ih h.2, mem_updateXformUser_of_ne h.1]

/-- The rounds make of the rows of a listed user what the user's round makes of them. -/
theorem mem_foldl_updateXformUser_of_mem {rows : List (User × Option Role)} {role : Option Role}
    (hnodup : (Dict.keys rows).Nodup) (hmem : (user, role) ∈ rows) (c : Codename) :
    (user, c) ∈ (rows.foldl (updateXformUser metaPerms projectUsers) p).userPerms ↔
      (user, c) ∈ (updateXformUser metaPerms projectUsers p (user, role)).userPerms := by
  induction rows generalizing p with
  | nil => exact absurd hmem List.not_mem_nil
  | cons row rows ih =>
      rw [Dict.keys_cons, List.nodup_cons] at hnodup
      rw [List.foldl_cons]
      rcases List.mem_cons.mp hmem with hfirst | hrest
      · rw [← hfirst]
        refine mem_foldl_updateXformUser_of_not_mem ?_ c
        rw [← hfirst] at hnodup
        exact hnodup.1
      · have hne : user ≠ row.1 := fun heq =>
          hnodup.1 (heq ▸ List.mem_map_of_mem (f := Prod.fst) hrest)
        rw [ih hnodup.2 hrest]
        exact mem_updateXformUser_congr (mem_updateXformUser_of_ne hne) c

/-- The round of a user with the rows of a role. -/
theorem holdsRole_updateXformUser {held : Role} (h : HoldsRole .xform p user held) :
    HoldsRole .xform (updateXformUser metaPerms projectUsers p (user, some held)) user
      ((metaRole metaPerms (Dict.get? projectUsers user) (some held)).getD held) := by
  unfold updateXformUser
  cases hrole : metaRole metaPerms (Dict.get? projectUsers user) (some held) with
  | none => exact h
  | some role => exact holdsRole_add role .xform user p

end Rounds

/-! ### The pass -/

section Pass
variable {accounts : Accounts User Team} {project : ObjectPermissions User Team}
  {form : SharedForm User Team} {metaPerms : MetaPerms} {user : User}

omit [DecidableEq Team] in
/-- The pass over one user or all users changes only rows of users on the form. -/
theorem updateRoleByMetaXformPerms_frame (userRole : Option (User × Role)) :
    (updateRoleByMetaXformPerms accounts project form userRole).pk = form.pk ∧
      (updateRoleByMetaXformPerms accounts project form userRole).inProject = form.inProject ∧
      (updateRoleByMetaXformPerms accounts project form userRole).metaPerms = form.metaPerms ∧
      (updateRoleByMetaXformPerms accounts project form userRole).perms.groupPerms =
        form.perms.groupPerms := by
  unfold updateRoleByMetaXformPerms
  cases hmeta : form.metaPerms with
  | none => exact ⟨rfl, rfl, hmeta, rfl⟩
  | some metaPerms => exact ⟨rfl, rfl, rfl, groupPerms_foldl_updateXformUser _⟩

omit [DecidableEq Team] in
/-- A form without meta permissions stays as it is. -/
theorem updateRoleByMetaXformPerms_of_none (h : form.metaPerms = none)
    (userRole : Option (User × Role)) :
    updateRoleByMetaXformPerms accounts project form userRole = form := by
  unfold updateRoleByMetaXformPerms
  rw [h]

omit [DecidableEq Team] in
/-- The rows after the pass over one user. -/
theorem perms_update_one (h : form.metaPerms = some metaPerms) (role : Role) :
    (updateRoleByMetaXformPerms accounts project form (some (user, role))).perms =
      updateXformUser metaPerms (getProjectUsers project) form.perms (user, some role) := by
  unfold updateRoleByMetaXformPerms
  rw [h]
  rfl

omit [DecidableEq Team] in
/-- The rows after the pass over all users. -/
theorem perms_update_all (h : form.metaPerms = some metaPerms) :
    (updateRoleByMetaXformPerms accounts project form none).perms =
      (getXformUsers accounts form.perms).foldl
        (updateXformUser metaPerms (getProjectUsers project)) form.perms := by
  unfold updateRoleByMetaXformPerms
  rw [h]

/-- The pass over all users takes a user from one role to `metaRole` of it. -/
theorem holdsRole_pass {held : Role} (hmeta : form.metaPerms = some metaPerms)
    (h : HoldsRole .xform form.perms user held) :
    HoldsRole .xform (updateRoleByMetaXformPerms accounts project form none).perms user
      ((metaRole metaPerms (Dict.get? (getProjectUsers project) user) (some held)).getD held) := by
  intro c
  rw [perms_update_all hmeta,
    mem_foldl_updateXformUser_of_mem nodup_getXformUsers (mem_getXformUsers h)]
  exact holdsRole_updateXformUser h c

/-- The pass over all users gives a user without rows nothing, or `metaRole` of the role that
the user has through teams. -/
theorem holdsNothing_pass (hmeta : form.metaPerms = some metaPerms)
    (h : HoldsNothing form.perms user) :
    HoldsNothing (updateRoleByMetaXformPerms accounts project form none).perms user ∨
      ∃ role, metaRole metaPerms (Dict.get? (getProjectUsers project) user)
          (getRole (getPerms form.perms accounts.members user) .xform) = some role ∧
        HoldsRole .xform (updateRoleByMetaXformPerms accounts project form none).perms user
          role := by
  rw [perms_update_all hmeta]
  by_cases hkey : user ∈ Dict.keys (getXformUsers accounts form.perms)
  · obtain ⟨⟨user', role⟩, hmem, huser⟩ := List.mem_map.mp hkey
    obtain rfl : user' = user := huser
    have hrows := @mem_foldl_updateXformUser_of_mem _ _ _ _ metaPerms (getProjectUsers project)
      form.perms _ _ _ nodup_getXformUsers hmem
    have hrole := role_of_mem_getXformUsers h hmem
    cases hnew : metaRole metaPerms (Dict.get? (getProjectUsers project) user') role with
    | none =>
        left
        intro c hc
        have hsame := (hrows c).mp hc
        unfold updateXformUser at hsame
        rw [hnew] at hsame
        exact h c hsame
    | some new =>
        right
        refine ⟨new, hrole ▸ hnew, fun c => ?_⟩
        rw [hrows c]
        unfold updateXformUser
        rw [hnew]
        exact holdsRole_add new .xform user' form.perms c
  · left
    intro c hc
    exact h c ((mem_foldl_updateXformUser_of_not_mem hkey c).mp hc)

end Pass

end Rows

end Onadata.Proofs
