import Mathlib.Data.List.Nodup
import Mathlib.Tactic.Common
import Onadata.Libs.Permissions

/-!
# `Onadata.Proofs.Libs.ProjectRoles`: project roles on forms

`setProjectPermsToObject` unites the project permissions of each user, direct and through
teams, reads one role back from them (`getRole`) and adds that role on the form. The
module compares what a user then holds on the form with the form permissions of the roles
the user was given on the project.

* `getRole_of_hasRole`: `getRole` finds a role that is at least as high as every role the
  permissions include.
* `mem_getUsersWithPerms`: the dict of users lists each user once, with the union of the
  direct permissions and those of the teams.
* `holdsOn_setProjectPermsToObject`: what a user holds on the object after the call.
* `getRole_project_confined_iff`: `DataEntryOnlyRole` and `DataEntryRole` have the same
  project permissions, and so have `EditorNoDownload` and `EditorMinorRole`. The role read
  back is the higher one, and it grants more on a form. So the form permissions stay
  within those of the assigned roles exactly under `ConfinedRoles`.
-/

set_option autoImplicit false
set_option linter.unusedSectionVars false

namespace Onadata.Proofs

open Onadata

/-! ### Reading a role back -/

/-- The position of a role in `rolesOrdered`. -/
def roleRank (role : Role) : Nat := rolesOrdered.idxOf role

/-- `has_role` is the subset test when the role has a key for the class. -/
theorem hasRole_project_iff (role : Role) (perms : List Codename) :
    role.hasRole perms .project = true ↔ ∀ c ∈ role.permissions .project, c ∈ perms := by
  cases role <;> simp [Role.hasRole, Role.permissions, Role.classToPermissions]

/-- `find?` over a list that descends in `f` returns an element that is at least as high
as every element satisfying the test. -/
theorem find?_of_pairwise {α : Type} (f : α → Nat) (p : α → Bool) (l : List α)
    (hl : l.Pairwise fun a b => f b ≤ f a) (a : α) (ha : a ∈ l) (hp : p a = true) :
    ∃ b, l.find? p = some b ∧ p b = true ∧ f a ≤ f b := by
  induction l with
  | nil => exact absurd ha (by simp)
  | cons b rest ih =>
    cases hb : p b with
    | true =>
      refine ⟨b, by simp [hb], hb, ?_⟩
      rcases List.mem_cons.mp ha with rfl | ha
      · exact Nat.le_refl _
      · exact List.rel_of_pairwise_cons hl ha
    | false =>
      have hne : a ≠ b := by rintro rfl; simp [hp] at hb
      obtain ⟨r, hr, hpr, hle⟩ :=
        ih (List.Pairwise.of_cons hl) (List.mem_of_ne_of_mem hne ha)
      exact ⟨r, by simp [hb, hr], hpr, hle⟩

/-- `getRole` returns a role whose permissions are included, and it is at least as high as
every such role. -/
theorem getRole_of_hasRole (role : Role) (perms : List Codename) (cls : ObjClass)
    (h : role.hasRole perms cls = true) :
    ∃ r, getRole perms cls = some r ∧ r.hasRole perms cls = true
      ∧ roleRank role ≤ roleRank r := by
  refine find?_of_pairwise roleRank (fun r => r.hasRole perms cls) rolesOrdered.reverse
    (by decide) role ?_ h
  cases role <;> decide

/-! ### The dict of users and their permissions -/

section Dict
variable {User Team : Type} [DecidableEq User] [DecidableEq Team]

/-- The codename `c` is in the set kept for `user`. -/
def HeldIn (d : List (User × List Codename)) (user : User) (c : Codename) : Prop :=
  ∃ cs, (user, cs) ∈ d ∧ c ∈ cs

/-- `addUserPerm` keeps the users in the dict and adds the user of the row. -/
theorem mem_keys_addUserPerm (d : List (User × List Codename)) (row : User × Codename)
    (user : User) :
    user ∈ (addUserPerm d row).map (·.1) ↔ user ∈ d.map (·.1) ∨ user = row.1 := by
  induction d with
  | nil => simp [addUserPerm]
  | cons entry rest ih =>
    by_cases h : entry.1 = row.1
    · simp only [addUserPerm, h, if_true, List.map_cons, List.mem_cons]
      grind
    · simp only [addUserPerm, h, if_false, List.map_cons, List.mem_cons, ih]
      grind

/-- `addUserPerm` lists no user twice. -/
theorem nodup_keys_addUserPerm (d : List (User × List Codename)) (row : User × Codename)
    (h : (d.map (·.1)).Nodup) : ((addUserPerm d row).map (·.1)).Nodup := by
  induction d with
  | nil => simp [addUserPerm]
  | cons entry rest ih =>
    have hrest := List.nodup_cons.mp h
    by_cases he : entry.1 = row.1
    · simpa only [addUserPerm, he, if_true, List.map_cons] using h
    · simp only [addUserPerm, he, if_false, List.map_cons, List.nodup_cons]
      refine ⟨?_, ih hrest.2⟩
      rw [mem_keys_addUserPerm]
      rintro (hmem | heq)
      · exact hrest.1 hmem
      · exact he heq

/-- `addUserPerm` adds one codename for one user. -/
theorem heldIn_addUserPerm (d : List (User × List Codename)) (row : User × Codename)
    (user : User) (c : Codename) :
    HeldIn (addUserPerm d row) user c ↔ HeldIn d user c ∨ (user, c) = row := by
  induction d with
  | nil => simp [addUserPerm, HeldIn, Prod.ext_iff, and_assoc]
  | cons entry rest ih =>
    have hcons : ∀ (e : User × List Codename) (l : List (User × List Codename)),
        HeldIn (e :: l) user c ↔ (user = e.1 ∧ c ∈ e.2) ∨ HeldIn l user c := by
      intro e l
      simp only [HeldIn, List.mem_cons]
      constructor
      · rintro ⟨cs, rfl | hmem, hc⟩
        · exact Or.inl ⟨rfl, hc⟩
        · exact Or.inr ⟨cs, hmem, hc⟩
      · rintro (⟨rfl, hc⟩ | ⟨cs, hmem, hc⟩)
        · exact ⟨e.2, Or.inl rfl, hc⟩
        · exact ⟨cs, Or.inr hmem, hc⟩
    by_cases he : entry.1 = row.1
    · simp only [addUserPerm, he, if_true, hcons, Prod.ext_iff]
      split <;> grind
    · simp only [addUserPerm, he, if_false, hcons, ih]
      grind

/-- The fold of `addUserPerm` over permission rows: no user is listed twice, the users are
those of the start dict and of the rows, and so are the codenames of each user. -/
theorem foldl_addUserPerm (rows : List (User × Codename)) (d : List (User × List Codename))
    (h : (d.map (·.1)).Nodup) :
    ((rows.foldl addUserPerm d).map (·.1)).Nodup ∧
      (∀ user, user ∈ (rows.foldl addUserPerm d).map (·.1)
        ↔ user ∈ d.map (·.1) ∨ ∃ c, (user, c) ∈ rows) ∧
      ∀ user c, HeldIn (rows.foldl addUserPerm d) user c
        ↔ HeldIn d user c ∨ (user, c) ∈ rows := by
  induction rows generalizing d with
  | nil => simp [h]
  | cons row rest ih =>
    obtain ⟨hnodup, hkeys, hheld⟩ := ih (addUserPerm d row) (nodup_keys_addUserPerm d row h)
    refine ⟨hnodup, fun user => ?_, fun user c => ?_⟩
    · rw [List.foldl_cons, hkeys, mem_keys_addUserPerm]
      simp only [List.mem_cons, Prod.ext_iff]
      grind
    · rw [List.foldl_cons, hheld, heldIn_addUserPerm, List.mem_cons, or_assoc]

/-- `user` holds `c` through the rows of an object, directly or through a team. -/
def HoldsOn (p : ObjectPermissions User Team) (members : Team → List User) (user : User)
    (c : Codename) : Prop :=
  (user, c) ∈ p.userPerms ∨ ∃ team, user ∈ members team ∧ (team, c) ∈ p.groupPerms

/-- `getUsersWithPerms` with the team users lists each user at most once. -/
theorem nodup_keys_getUsersWithPerms (p : ObjectPermissions User Team)
    (members : Team → List User) :
    ((getUsersWithPerms p members true).map (·.1)).Nodup :=
  (foldl_addUserPerm _ _ (foldl_addUserPerm p.userPerms [] (by simp)).1).1

/-- `getUsersWithPerms` keeps for each user what the user holds directly or through a
team. -/
theorem heldIn_getUsersWithPerms (p : ObjectPermissions User Team)
    (members : Team → List User) (user : User) (c : Codename) :
    HeldIn (getUsersWithPerms p members true) user c ↔ HoldsOn p members user c := by
  have hdirect := foldl_addUserPerm p.userPerms [] (by simp)
  have hall := (foldl_addUserPerm
    (p.groupPerms.flatMap fun row => (members row.1).map fun user => (user, row.2))
    _ hdirect.1).2.2 user c
  simp only [getUsersWithPerms, if_true, hall, hdirect.2.2, HoldsOn]
  simp only [HeldIn, List.not_mem_nil, false_and, exists_false, false_or,
    List.mem_flatMap, List.mem_map, Prod.mk.injEq, Prod.exists]
  grind

/-- The users of the dict are those who hold a permission. -/
theorem mem_keys_getUsersWithPerms (p : ObjectPermissions User Team)
    (members : Team → List User) (user : User) :
    user ∈ (getUsersWithPerms p members true).map (·.1) ↔ ∃ c, HoldsOn p members user c := by
  have hdirect := foldl_addUserPerm p.userPerms [] (by simp)
  have hall := (foldl_addUserPerm
    (p.groupPerms.flatMap fun row => (members row.1).map fun user => (user, row.2))
    _ hdirect.1).2.1 user
  simp only [getUsersWithPerms, if_true, hall, hdirect.2.1, HoldsOn]
  simp only [List.map_nil, List.not_mem_nil, false_or, List.mem_flatMap, List.mem_map,
    Prod.mk.injEq, Prod.exists]
  grind

/-- The entry of a user in the dict is the set of all codenames the user holds. -/
theorem mem_getUsersWithPerms (p : ObjectPermissions User Team)
    (members : Team → List User) (user : User) (cs : List Codename)
    (h : (user, cs) ∈ getUsersWithPerms p members true) (c : Codename) :
    c ∈ cs ↔ HoldsOn p members user c := by
  rw [← heldIn_getUsersWithPerms]
  constructor
  · intro hc
    exact ⟨cs, h, hc⟩
  · rintro ⟨cs', hmem, hc⟩
    have heq : (user, cs') = (user, cs) :=
      List.inj_on_of_nodup_map (nodup_keys_getUsersWithPerms p members) hmem h rfl
    simp only [Prod.mk.injEq, true_and] at heq
    exact heq ▸ hc

end Dict

/-! ### The loop over the users -/

section Loop
variable {User Team : Type} [DecidableEq User] [DecidableEq Team]

/-- `Role.add` replaces the rows of one user. -/
theorem mem_userPerms_add (role : Role) (cls : ObjClass) (u user : User)
    (p : ObjectPermissions User Team) (c : Codename) :
    (user, c) ∈ (role.add cls u p).userPerms ↔
      if user = u then c ∈ role.permissions cls else (user, c) ∈ p.userPerms := by
  by_cases h : user = u
  · simp [Role.add, ObjectPermissions.removeUserPermissions, h]
  · simp [Role.add, ObjectPermissions.removeUserPermissions, h, Ne.symm h]

/-- `Role.addGroup` leaves the rows of the other teams as they are. -/
theorem mem_groupPerms_addGroup_of_ne (role : Role) (cls : ObjClass) (t team : Team)
    (p : ObjectPermissions User Team) (c : Codename) (h : team ≠ t) :
    (team, c) ∈ (role.addGroup cls t p).groupPerms ↔ (team, c) ∈ p.groupPerms := by
  simp [Role.addGroup, ObjectPermissions.removeGroupPermissions, h, Ne.symm h]

/-- Setting the rows of the Owners team changes nothing but the rows of that team. -/
@[simp] theorem userPerms_setOwnersTeamPerms (obj : PermissionObject User Team)
    (ownersTeams : List Team) :
    (setOwnersTeamPerms obj ownersTeams).perms.userPerms = obj.perms.userPerms := by
  cases ownersTeams <;> rfl

@[simp] theorem cls_setOwnersTeamPerms (obj : PermissionObject User Team)
    (ownersTeams : List Team) : (setOwnersTeamPerms obj ownersTeams).cls = obj.cls := by
  cases ownersTeams <;> rfl

@[simp] theorem createdBy_setOwnersTeamPerms (obj : PermissionObject User Team)
    (ownersTeams : List Team) :
    (setOwnersTeamPerms obj ownersTeams).createdBy = obj.createdBy := by
  cases ownersTeams <;> rfl

theorem mem_groupPerms_setOwnersTeamPerms (obj : PermissionObject User Team)
    (ownersTeams : List Team) (team : Team) (c : Codename)
    (h : ∀ t ∈ ownersTeams, team ≠ t) :
    (team, c) ∈ (setOwnersTeamPerms obj ownersTeams).perms.groupPerms
      ↔ (team, c) ∈ obj.perms.groupPerms := by
  cases ownersTeams with
  | nil => rfl
  | cons owners rest =>
    exact mem_groupPerms_addGroup_of_ne _ _ _ _ _ _ (h owners (by simp))

/-- One iteration of the loop changes no team row. -/
@[simp] theorem groupPerms_setUserPermsToObject (obj : PermissionObject User Team)
    (row : User × Option Role) :
    (setUserPermsToObject obj row).perms.groupPerms = obj.perms.groupPerms := by
  unfold setUserPermsToObject
  split
  · rfl
  · split <;> rfl

/-- One iteration of the loop changes neither the class nor the creator. -/
@[simp] theorem cls_setUserPermsToObject (obj : PermissionObject User Team)
    (row : User × Option Role) : (setUserPermsToObject obj row).cls = obj.cls := by
  unfold setUserPermsToObject
  split
  · rfl
  · split <;> rfl

@[simp] theorem createdBy_setUserPermsToObject (obj : PermissionObject User Team)
    (row : User × Option Role) :
    (setUserPermsToObject obj row).createdBy = obj.createdBy := by
  unfold setUserPermsToObject
  split
  · rfl
  · split <;> rfl

/-- The row of another user does not change the rows of `user`. -/
theorem mem_userPerms_setUserPermsToObject_of_ne (obj : PermissionObject User Team)
    (row : User × Option Role) (user : User) (c : Codename) (h : user ≠ row.1) :
    (user, c) ∈ (setUserPermsToObject obj row).perms.userPerms
      ↔ (user, c) ∈ obj.perms.userPerms := by
  unfold setUserPermsToObject
  split
  · simp [mem_userPerms_add, h]
  · split
    · rfl
    · simp [mem_userPerms_add, h]

/-- The loop never changes team rows. -/
theorem groupPerms_foldl_setUserPermsToObject (rows : List (User × Option Role))
    (obj : PermissionObject User Team) :
    (rows.foldl setUserPermsToObject obj).perms.groupPerms = obj.perms.groupPerms := by
  induction rows generalizing obj with
  | nil => rfl
  | cons row rest ih => rw [List.foldl_cons, ih, groupPerms_setUserPermsToObject]

/-- A user who is not in the loop keeps the rows from before. -/
theorem mem_userPerms_foldl_of_not_mem (rows : List (User × Option Role))
    (obj : PermissionObject User Team) (user : User) (c : Codename)
    (h : user ∉ rows.map (·.1)) :
    (user, c) ∈ (rows.foldl setUserPermsToObject obj).perms.userPerms
      ↔ (user, c) ∈ obj.perms.userPerms := by
  induction rows generalizing obj with
  | nil => rfl
  | cons row rest ih =>
    simp only [List.map_cons, List.mem_cons, not_or] at h
    rw [List.foldl_cons, ih _ h.2, mem_userPerms_setUserPermsToObject_of_ne _ _ _ _ h.1]

/-- A user who is in the loop with a role, and who did not create the object, ends with
the rows of that role: the rows are set once, because no user is in the loop twice. -/
theorem mem_userPerms_foldl_of_mem (rows : List (User × Option Role))
    (obj : PermissionObject User Team) (user : User) (role : Role) (c : Codename)
    (hnodup : (rows.map (·.1)).Nodup) (hmem : (user, some role) ∈ rows)
    (hcreator : obj.createdBy ≠ some user) :
    (user, c) ∈ (rows.foldl setUserPermsToObject obj).perms.userPerms
      ↔ c ∈ role.permissions obj.cls := by
  induction rows generalizing obj with
  | nil => exact absurd hmem (by simp)
  | cons row rest ih =>
    simp only [List.map_cons, List.nodup_cons] at hnodup
    rw [List.foldl_cons]
    rcases List.mem_cons.mp hmem with rfl | hrest
    · rw [mem_userPerms_foldl_of_not_mem _ _ _ _ hnodup.1]
      simp [setUserPermsToObject, hcreator, mem_userPerms_add]
    · rw [ih (setUserPermsToObject obj row) hnodup.2 hrest (by simpa using hcreator),
        cls_setUserPermsToObject]

end Loop

/-! ### What a user holds after the call -/

section Call
variable {User Team : Type} [DecidableEq User] [DecidableEq Team]

/-- Some role in `roles` has the permission `c` on objects of class `cls`. -/
def GrantedBy (roles : List Role) (cls : ObjClass) (c : Codename) : Prop :=
  ∃ role ∈ roles, c ∈ role.permissions cls

/-- The rows of `projectPermissions` are those of the roles held on the project. -/
theorem holdsOn_projectPermissions (users : List (User × Role))
    (teams : List (Team × Role)) (members : Team → List User) (user : User)
    (c : Codename) :
    HoldsOn (projectPermissions users teams) members user c
      ↔ GrantedBy (rolesOnProject users teams members user) .project c := by
  simp only [HoldsOn, GrantedBy, projectPermissions, rolesOnProject, List.mem_flatMap,
    List.mem_map, List.mem_append, List.mem_filter, decide_eq_true_eq, Prod.mk.injEq,
    Prod.exists]
  grind

/-- Every role has a permission on projects. -/
theorem viewProject_mem_permissions (role : Role) :
    Codename.viewProject ∈ role.permissions .project := by
  cases role <;> decide

/-- The form permissions that a user keeps from before the call: those of the user's
teams, and the user's own when the user has no role on the project. -/
def KeptOn (form : ObjectPermissions User Team) (roles : List Role)
    (members : Team → List User) (user : User) (c : Codename) : Prop :=
  (roles = [] ∧ (user, c) ∈ form.userPerms) ∨
    ∃ team, user ∈ members team ∧ (team, c) ∈ form.groupPerms

/-- After `setProjectPermsToObject`, a user who is neither the creator nor a member of an
Owners team holds what is kept from before and the permissions of the role read back from
the united project permissions. -/
theorem holdsOn_setProjectPermsToObject (obj : PermissionObject User Team)
    (users : List (User × Role)) (teams : List (Team × Role)) (ownersTeams : List Team)
    (members : Team → List User) (user : User) (hcreator : obj.createdBy ≠ some user)
    (howner : ∀ team ∈ ownersTeams, user ∉ members team) :
    ∃ perms : List Codename,
      (∀ c, c ∈ perms ↔ GrantedBy (rolesOnProject users teams members user) .project c) ∧
      ∀ c, HoldsOn (setProjectPermsToObject obj
          ⟨projectPermissions users teams, ownersTeams⟩ members).perms members user c ↔
        KeptOn obj.perms (rolesOnProject users teams members user) members user c ∨
          ∃ role, getRole perms .project = some role ∧ c ∈ role.permissions obj.cls := by
  have hteams : ∀ c, (∃ team, user ∈ members team ∧
      (team, c) ∈ (setOwnersTeamPerms obj ownersTeams).perms.groupPerms) ↔
      ∃ team, user ∈ members team ∧ (team, c) ∈ obj.perms.groupPerms := by
    intro c
    refine exists_congr fun team => and_congr_right fun hmem => ?_
    exact mem_groupPerms_setOwnersTeamPerms obj ownersTeams team c fun t ht heq =>
      howner t ht (heq ▸ hmem)
  have hkeys : (getObjectUsersWithPermissions (projectPermissions users teams) .project
      members true).map (·.1)
        = (getUsersWithPerms (projectPermissions users teams) members true).map (·.1) := by
    simp [getObjectUsersWithPermissions, Function.comp_def]
  by_cases hroles : rolesOnProject users teams members user = []
  · -- No role on the project: the user is not in the loop.
    refine ⟨[], fun c => by simp [GrantedBy, hroles], fun c => ?_⟩
    have hnot : user ∉ (getObjectUsersWithPermissions (projectPermissions users teams)
        .project members true).map (·.1) := by
      rw [hkeys, mem_keys_getUsersWithPerms]
      simp [holdsOn_projectPermissions, GrantedBy, hroles]
    simp only [setProjectPermsToObject, HoldsOn, groupPerms_foldl_setUserPermsToObject,
      mem_userPerms_foldl_of_not_mem _ _ _ _ hnot, hteams, userPerms_setOwnersTeamPerms,
      KeptOn, hroles, true_and]
    have hnone : getRole [] .project = none := by decide
    simp [hnone]
  · -- A role on the project: the loop sets the rows of the user once.
    obtain ⟨role₀, hrole₀⟩ := List.exists_mem_of_ne_nil _ hroles
    have hin : user ∈ (getUsersWithPerms (projectPermissions users teams) members
        true).map (·.1) := by
      rw [mem_keys_getUsersWithPerms]
      refine ⟨.viewProject, ?_⟩
      rw [holdsOn_projectPermissions]
      exact ⟨role₀, hrole₀, viewProject_mem_permissions role₀⟩
    obtain ⟨⟨u, cs⟩, hentry, rfl⟩ := List.mem_map.mp hin
    have hcs : ∀ c, c ∈ cs ↔ GrantedBy (rolesOnProject users teams members u) .project c := by
      intro c
      rw [mem_getUsersWithPerms _ _ _ _ hentry, holdsOn_projectPermissions]
    have hhas : role₀.hasRole cs .project = true := by
      rw [hasRole_project_iff]
      exact fun c hc => (hcs c).mpr ⟨role₀, hrole₀, hc⟩
    obtain ⟨role, hrole, -, -⟩ := getRole_of_hasRole role₀ cs .project hhas
    have hrow : (u, some role) ∈ getObjectUsersWithPermissions
        (projectPermissions users teams) .project members true :=
      List.mem_map.mpr ⟨(u, cs), hentry, by simp [hrole]⟩
    refine ⟨cs, hcs, fun c => ?_⟩
    simp only [setProjectPermsToObject, HoldsOn, groupPerms_foldl_setUserPermsToObject,
      mem_userPerms_foldl_of_mem _ _ _ _ _
        (hkeys ▸ nodup_keys_getUsersWithPerms _ members) hrow
        (createdBy_setOwnersTeamPerms obj ownersTeams ▸ hcreator),
      hteams, cls_setOwnersTeamPerms, KeptOn, hroles, false_and, false_or, hrole]
    simp [or_comm]

end Call

/-! ### The role read back, on forms -/

/-- The roles with fewer form permissions than another role with the same project
permissions come with a role that has the missing ones: all data for
`DataEntryOnlyRole`, and the export for `DataEntryOnlyRole` and `EditorNoDownload`. -/
def ConfinedRoles (roles : List Role) : Prop :=
  (.dataEntryOnlyRole ∈ roles → GrantedBy roles .xform .viewXformAll) ∧
    (.dataEntryOnlyRole ∈ roles ∨ .editorNoDownload ∈ roles →
      GrantedBy roles .xform .canExportXformData)

/-- The project permission that stands for a form permission when a role is read back. -/
def projectSource : Codename → Codename
  | .viewXformAll => .viewProjectAll
  | .canExportXformData => .canExportProjectData
  | .reportXform => .reportProjectXform
  | .changeXform | .deleteSubmission => .changeProject
  | .addXform | .deleteXform => .addProject
  | .moveXform | .transferXform => .deleteProject
  | _ => .viewProject

/-- Each form permission of a role has its project permission in the same role. -/
theorem projectSource_mem (role : Role) :
    ∀ c ∈ role.permissions .xform, projectSource c ∈ role.permissions .project := by
  cases role <;> decide

/-- The project permission of a form permission of `r` comes, in every role, with that
form permission, except for all data and own data in `DataEntryOnlyRole` and for the
export in `DataEntryOnlyRole` and `EditorNoDownload`. -/
theorem mem_xform_of_projectSource (r role : Role) :
    ∀ c ∈ r.permissions .xform, projectSource c ∈ role.permissions .project →
      c ∈ role.permissions .xform ∨
        (role = .dataEntryOnlyRole ∧ (c = .viewXformAll ∨ c = .viewXformData)) ∨
        ((role = .dataEntryOnlyRole ∨ role = .editorNoDownload) ∧
          c = .canExportXformData) := by
  cases r <;> cases role <;> decide

/-- A role that shows all data also shows the user's own. -/
theorem viewXformData_of_viewXformAll (role : Role)
    (h : Codename.viewXformAll ∈ role.permissions .xform) :
    Codename.viewXformData ∈ role.permissions .xform := by
  cases role <;> first | decide | (revert h; decide)

/-- Read back, `DataEntryOnlyRole` becomes a role with all data and the export: the
permissions include those of `DataEntryRole`, and an editor role is read back as
`EditorRole`, because they include `viewProjectAll` as well. -/
theorem dataEntryOnlyRole_readBack (perms : List Codename)
    (h : Role.dataEntryOnlyRole.hasRole perms .project = true) (role : Role)
    (hrole : getRole perms .project = some role) :
    Codename.viewXformAll ∈ role.permissions .xform ∧
      Codename.canExportXformData ∈ role.permissions .xform := by
  have hall := (hasRole_project_iff _ _).mp h
  have hsame : Role.dataEntryRole.hasRole perms .project = true :=
    (hasRole_project_iff _ _).mpr hall
  obtain ⟨r, hr, hhas, hle⟩ := getRole_of_hasRole _ _ _ hsame
  obtain rfl : r = role := Option.some.inj (hr.symm.trans hrole)
  have heditor : ∀ e ∈ [Role.editorNoDownload, Role.editorMinorRole], r ≠ e := by
    rintro e he rfl
    have hmem := (hasRole_project_iff _ _).mp hhas
    have hview : Codename.viewProjectAll ∈ perms := hall _ (by decide)
    have hfull : Role.editorRole.hasRole perms .project = true := by
      rw [hasRole_project_iff]
      intro c hc
      have hsplit : ∀ c ∈ Role.editorRole.permissions .project,
          c = .viewProjectAll ∨ c ∈ r.permissions .project := by
        revert he
        cases r <;> decide
      rcases hsplit c hc with rfl | hc
      · exact hview
      · exact hmem c hc
    obtain ⟨r', hr', -, hle'⟩ := getRole_of_hasRole _ _ _ hfull
    obtain rfl : r' = r := Option.some.inj (hr'.symm.trans hrole)
    revert he hle'
    cases r' <;> decide
  revert hle heditor
  cases r <;> decide

/-- Read back, `EditorNoDownload` becomes a role with the export: the permissions include
those of `EditorMinorRole`. -/
theorem editorNoDownload_readBack (perms : List Codename)
    (h : Role.editorNoDownload.hasRole perms .project = true) (role : Role)
    (hrole : getRole perms .project = some role) :
    Codename.canExportXformData ∈ role.permissions .xform := by
  have hsame : Role.editorMinorRole.hasRole perms .project = true :=
    (hasRole_project_iff _ _).mpr ((hasRole_project_iff _ _).mp h)
  obtain ⟨r, hr, -, hle⟩ := getRole_of_hasRole _ _ _ hsame
  obtain rfl : r = role := Option.some.inj (hr.symm.trans hrole)
  revert hle
  cases r <;> decide

/-- The role read back from the united project permissions of `roles` grants no more on a
form than `roles` do, exactly when `roles` are confined. -/
theorem getRole_project_confined_iff (roles : List Role) (perms : List Codename)
    (hperms : ∀ c, c ∈ perms ↔ GrantedBy roles .project c) :
    (∀ role, getRole perms .project = some role →
      ∀ c ∈ role.permissions .xform, GrantedBy roles .xform c) ↔ ConfinedRoles roles := by
  have hhas : ∀ r ∈ roles, r.hasRole perms .project = true := fun r hr =>
    (hasRole_project_iff _ _).mpr fun c hc => (hperms c).mpr ⟨r, hr, hc⟩
  constructor
  · intro h
    have hread : ∀ r ∈ roles, ∃ role, getRole perms .project = some role := fun r hr =>
      let ⟨role, hrole, _⟩ := getRole_of_hasRole r perms .project (hhas r hr)
      ⟨role, hrole⟩
    constructor
    · intro hmem
      obtain ⟨role, hrole⟩ := hread _ hmem
      exact h role hrole _ (dataEntryOnlyRole_readBack perms (hhas _ hmem) role hrole).1
    · rintro (hmem | hmem)
      · obtain ⟨role, hrole⟩ := hread _ hmem
        exact h role hrole _ (dataEntryOnlyRole_readBack perms (hhas _ hmem) role hrole).2
      · obtain ⟨role, hrole⟩ := hread _ hmem
        exact h role hrole _ (editorNoDownload_readBack perms (hhas _ hmem) role hrole)
  · rintro ⟨hall, hexport⟩ role hrole c hc
    have hrolePerms : role.hasRole perms .project = true :=
      List.find?_some (p := fun r : Role => r.hasRole perms .project) hrole
    -- Some assigned role has the project permission that stands for `c`.
    obtain ⟨r, hr, hsource⟩ := (hperms _).mp
      ((hasRole_project_iff _ _).mp hrolePerms _ (projectSource_mem role c hc))
    rcases mem_xform_of_projectSource role r c hc hsource with
      hgranted | ⟨rfl, rfl | rfl⟩ | ⟨rfl | rfl, rfl⟩
    · exact ⟨r, hr, hgranted⟩
    · exact hall hr
    · obtain ⟨r', hr', hview⟩ := hall hr
      exact ⟨r', hr', viewXformData_of_viewXformAll r' hview⟩
    · exact hexport (Or.inl hr)
    · exact hexport (Or.inr hr)

/-! ### Project roles on a form -/

section Confined
variable {User Team : Type} [DecidableEq User] [DecidableEq Team]

/-- After the call, `user` holds on the object no permission outside those of the roles
assigned to the user on the project. -/
def ConfinedAfterCall (obj : PermissionObject User Team) (users : List (User × Role))
    (teams : List (Team × Role)) (ownersTeams : List Team) (members : Team → List User)
    (user : User) : Prop :=
  ∀ c, HoldsOn (setProjectPermsToObject obj ⟨projectPermissions users teams, ownersTeams⟩
      members).perms members user c →
    GrantedBy (rolesOnProject users teams members user) obj.cls c

/-- What the form grants the user before the call, and the call keeps, is within the roles
of the user, and these roles are confined. -/
def ConfinedBeforeCall (form : ObjectPermissions User Team) (users : List (User × Role))
    (teams : List (Team × Role)) (members : Team → List User) (user : User) : Prop :=
  (∀ c, KeptOn form (rolesOnProject users teams members user) members user c →
    GrantedBy (rolesOnProject users teams members user) .xform c) ∧
  ConfinedRoles (rolesOnProject users teams members user)

/-- For one user who is neither the creator of the form nor a member of an Owners team,
the form permissions stay within the roles exactly under `ConfinedBeforeCall`. -/
theorem confinedAfterCall_iff (createdBy : Option User)
    (form : ObjectPermissions User Team) (users : List (User × Role))
    (teams : List (Team × Role)) (ownersTeams : List Team) (members : Team → List User)
    (user : User) (hcreator : createdBy ≠ some user)
    (howner : ∀ team ∈ ownersTeams, user ∉ members team) :
    ConfinedAfterCall ⟨.xform, createdBy, form⟩ users teams ownersTeams members user ↔
      ConfinedBeforeCall form users teams members user := by
  obtain ⟨perms, hperms, hholds⟩ := holdsOn_setProjectPermsToObject
    ⟨.xform, createdBy, form⟩ users teams ownersTeams members user hcreator howner
  rw [ConfinedBeforeCall, ← getRole_project_confined_iff _ perms hperms]
  simp only [ConfinedAfterCall, hholds]
  constructor
  · intro h
    exact ⟨fun c hc => h c (Or.inl hc), fun role hrole c hc => h c (Or.inr ⟨role, hrole, hc⟩)⟩
  · rintro ⟨hkept, hrole⟩ c (hc | ⟨role, hget, hc⟩)
    · exact hkept c hc
    · exact hrole role hget c hc

end Confined

end Onadata.Proofs
