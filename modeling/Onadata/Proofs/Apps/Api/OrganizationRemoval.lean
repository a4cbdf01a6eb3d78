import Onadata.Proofs.Apps.Api.Members
import Onadata.Proofs.Libs.ProjectRoles

/-!
# `Onadata.Proofs.Apps.Api.OrganizationRemoval`: what a removed member keeps

`remove_user_from_organization` is to "remove user from organization and all projects in the
organization". It takes the user out of the two teams and then reads a role back from the
codenames that are left, once for the profile and once for each project. Where it reads no
role, nothing is removed: `MemberRole.name` and `None` are not in `ROLES`. So a member who was
given one form of a project keeps it, as do the rows on the entity lists and the merged
datasets of a project on which the user has no role.

`removeUserFromOrganization_directFree_iff` states when nothing is left, for every order of the
tasks: on the profile and on each project a role is read back, or there is nothing to remove.
A form is also reached from another project, through a dataview.

`shareProjectAsync_remove` is the step lemma of a task, and `runTasks_cleared` follows from it
by induction on the tasks.
-/

set_option autoImplicit false

namespace Onadata

variable {User : Type} [DecidableEq User]

namespace Organization

variable {org : Organization User} {user : User}

/-! ### Roles that are read back -/

/-- A role on the profile is read back from `view_organizationprofile`, or from
`is_org_owner`. -/
theorem isSome_getRoleInOrg_iff (org : Organization User) (user : User) :
    (org.getRoleInOrg user).isSome = true ↔
      Codename.isOrgOwner ∈ org.objectPerms organizationProfilePerms org.perms user ∨
        Codename.viewOrganizationprofile ∈
          org.objectPerms organizationProfilePerms org.perms user := by
  unfold getRoleInOrg
  dsimp only
  generalize org.objectPerms organizationProfilePerms org.perms user = perms
  by_cases howner : Codename.isOrgOwner ∈ perms
  · simp [howner]
  · rw [if_neg howner]
    unfold getRole
    rw [List.find?_isSome]
    constructor
    · intro h
      obtain ⟨role, -, hrole⟩ := h
      -- each role with codenames on the profile holds `view_organizationprofile`
      cases role <;>
        simp [Role.hasRole, Role.classToPermissions] at hrole <;> exact Or.inr (by simp [hrole])
    · intro h
      have hview := h.resolve_left howner
      exact ⟨.readOnlyRole, by decide, by
        simpa [Role.hasRole, Role.classToPermissions] using hview⟩

/-- The codenames from which some role on a project is read back. -/
def ProjectRoleIn (perms : List Codename) : Prop :=
  .viewProject ∈ perms ∧
    (.viewProjectAll ∈ perms ∨
      .reportProjectXform ∈ perms ∧ .canExportProjectData ∈ perms ∧ .viewProjectData ∈ perms)

theorem isSome_getRole_project_iff (perms : List Codename) :
    (getRole perms .project).isSome = true ↔ ProjectRoleIn perms := by
  unfold getRole ProjectRoleIn
  rw [List.find?_isSome]
  constructor
  · intro h
    obtain ⟨role, -, hrole⟩ := h
    cases role <;> simp [Role.hasRole, Role.classToPermissions] at hrole <;> simp [hrole]
  · intro h
    cases h.2 with
    | inl hall =>
        exact ⟨.readOnlyRoleNoDownload, by decide, by
          simpa [Role.hasRole, Role.classToPermissions] using ⟨h.1, hall⟩⟩
    | inr hentry =>
        exact ⟨.dataEntryMinorRole, by decide, by
          simp [Role.hasRole, Role.classToPermissions, h.1, hentry]⟩

/-- The codenames that `get_perms` gives the user without the two teams of the members. -/
def remainingPerms (org : Organization User) (all : List Codename)
    (p : ObjectPermissions User GroupKey) (user : User) : List Codename :=
  if org.directory.isActive user then
    if org.directory.isSuperuser user then all
    else
      (p.userPerms.filter fun row => row.1 = user).map (·.2) ++
        (p.groupPerms.filter fun row =>
          row.1 ∉ [GroupKey.team .owners, GroupKey.team .members] ∧
            user ∈ org.groupUsers row.1).map (·.2)
  else []

theorem objectPerms_leftTeams (all : List Codename) (p : ObjectPermissions User GroupKey) :
    (org.leftTeams user).objectPerms all p user = org.remainingPerms all p user := by
  have hsame := sameRows_leftTeams org user
  have hin : ∀ key, user ∈ (org.leftTeams user).groupUsers key ↔
      key ∉ [GroupKey.team .owners, GroupKey.team .members] ∧ user ∈ org.groupUsers key := by
    intro key
    cases key with
    | team key =>
        show user ∈ ((org.leftTeams user).teams key).users ↔ _
        rw [mem_users_leftTeams]
        simp [groupUsers]
    | elsewhere pk =>
        show user ∈ (org.leftTeams user).directory.elsewhere pk ↔ _
        rw [hsame.directory]
        simp [groupUsers]
  unfold objectPerms remainingPerms getPerms
  rw [hsame.directory]
  simp only [hin]

/-! ### A task -/

omit [DecidableEq User] in
/-- The loop over the dataviews, for a change that is the same when it is made again. -/
theorem setDataviewPerms_eq_map {Team : Type} [DecidableEq Team]
    {update : ObjectPermissions User Team → ObjectPermissions User Team}
    (hidem : ∀ p, update (update p) = update p) (dataviews : List SharedDataview)
    (forms : List (SharedForm User Team)) :
    setDataviewPerms (fun _ => true) update dataviews forms =
      forms.map fun form =>
        if ∃ dataview ∈ dataviews, dataview.xform = form.pk then
          { form with perms := update form.perms }
        else form := by
  induction dataviews generalizing forms with
  | nil => simp [setDataviewPerms]
  | cons dataview rest ih =>
      have hstep : setDataviewPerms (fun _ => true) update (dataview :: rest) forms =
          setDataviewPerms (fun _ => true) update rest (setFormPerms update forms dataview.xform) :=
        rfl
      rw [hstep, ih]
      unfold setFormPerms
      rw [List.map_map]
      refine List.map_congr_left fun form _ => ?_
      dsimp only [Function.comp]
      -- the form of this dataview is changed here, and perhaps once more in the rest
      by_cases hpk : dataview.xform = form.pk
      · by_cases hrest : ∃ d ∈ rest, d.xform = form.pk <;> simp [hpk, hrest, hidem]
      · by_cases hrest : ∃ d ∈ rest, d.xform = form.pk <;> simp [hpk, hrest, Ne.symm hpk]

/-- The form after a task of a removal. -/
def clearForm (org : Organization User) (task : ShareTask User) (form : OrgForm User) :
    OrgForm User :=
  if task.role.isSome then
    { form with
        perms :=
          if form.project = task.project ∨
              ∃ dataview ∈ (org.project task.project).dataviews, dataview.xform = form.pk then
            form.perms.removeUserPermissions task.user
          else form.perms
        merged :=
          if form.project = task.project then form.merged.map (·.removeUserPermissions task.user)
          else form.merged }
  else form

/-- The project `pk` after a task of a removal. -/
def clearProject (org : Organization User) (task : ShareTask User) (pk : Nat) : OrgProject User :=
  if task.role.isSome ∧ pk = task.project then
    { org.project pk with
        perms := (org.project pk).perms.removeUserPermissions task.user
        entityLists := (org.project pk).entityLists.map (·.removeUserPermissions task.user) }
  else org.project pk

/-- A task of a removal takes the rows of the user from the project, its forms, merged
datasets and entity lists, and from the forms of its dataviews. -/
theorem shareProjectAsync_remove (org : Organization User) {task : ShareTask User}
    (hremove : task.remove = true) :
    org.shareProjectAsync task =
      { org with project := org.clearProject task, forms := org.forms.map (org.clearForm task) } := by
  obtain ⟨pk, user, role, remove⟩ := task
  subst hremove
  cases role with
  | none =>
      unfold shareProjectAsync clearProject clearForm
      simp
  | some role =>
      have hidem : ∀ p : ObjectPermissions User GroupKey,
          (p.removeUserPermissions user).removeUserPermissions user =
            p.removeUserPermissions user := by
        intro p
        simp [ObjectPermissions.removeUserPermissions]
      unfold shareProjectAsync withSharedProject SharedProject.shareProject
      simp only [if_true]
      congr 1
      · funext k
        unfold clearProject
        by_cases hk : k = pk
        · subst hk
          simp [sharedProject]
        · simp [hk]
      · rw [setDataviewPerms_eq_map hidem]
        unfold SharedProject.mapForms sharedProject
        rw [List.map_map, List.map_map, List.zipWith_map_right, List.zipWith_self]
        refine List.map_congr_left fun form _ => ?_
        unfold clearForm removeFormUser
        by_cases hproject : form.project = pk <;>
          by_cases hview : ∃ d ∈ (org.project pk).dataviews, d.xform = form.pk <;>
          simp [hproject, hview, hidem]

/-! ### All tasks -/

/-- A task of `tasks` with a role is about the project `pk`. -/
def Reached (tasks : List (ShareTask User)) (pk : Nat) : Prop :=
  ∃ task ∈ tasks, task.role.isSome = true ∧ task.project = pk

/-- A task of `tasks` with a role is about a project with a dataview of the form. -/
def ReachedByView (org : Organization User) (tasks : List (ShareTask User))
    (form : OrgForm User) : Prop :=
  ∃ pk, Reached tasks pk ∧ ∃ dataview ∈ (org.project pk).dataviews, dataview.xform = form.pk

/-- What the tasks of a removal leave: the rows of `user` are gone where a task has reached,
and are as before elsewhere. -/
structure Cleared (org : Organization User) (tasks : List (ShareTask User)) (user : User)
    (org' : Organization User) : Prop where
  perms : org'.perms = org.perms
  userProfile : org'.userProfile = org.userProfile
  projectOrg : org'.projectOrg = org.projectOrg
  dataviews : ∀ pk, (org'.project pk).dataviews = (org.project pk).dataviews
  projects : ∀ pk, NoRows (org'.project pk).perms user ↔
    NoRows (org.project pk).perms user ∨ Reached tasks pk
  entityLists : ∀ pk, (∀ p ∈ (org'.project pk).entityLists, NoRows p user) ↔
    (∀ p ∈ (org.project pk).entityLists, NoRows p user) ∨ Reached tasks pk
  forms : ∃ f : OrgForm User → OrgForm User, org'.forms = org.forms.map f ∧
    ∀ form, (f form).pk = form.pk ∧ (f form).project = form.project ∧
      (NoRows (f form).perms user ↔ NoRows form.perms user ∨
        Reached tasks form.project ∨ ReachedByView org tasks form) ∧
      ((∀ p ∈ (f form).merged, NoRows p user) ↔
        (∀ p ∈ form.merged, NoRows p user) ∨ Reached tasks form.project)

omit [DecidableEq User] in
theorem reached_singleton (task : ShareTask User) (pk : Nat) :
    Reached [task] pk ↔ task.role.isSome = true ∧ pk = task.project := by
  unfold Reached
  simp only [List.mem_singleton, exists_eq_left]
  rw [eq_comm (a := pk)]

omit [DecidableEq User] in
theorem reached_cons (task : ShareTask User) (tasks : List (ShareTask User)) (pk : Nat) :
    Reached (task :: tasks) pk ↔ Reached [task] pk ∨ Reached tasks pk := by
  unfold Reached
  simp only [List.mem_cons, exists_eq_or_imp, List.not_mem_nil, or_false, exists_eq_left]

omit [DecidableEq User] in
theorem reachedByView_cons (org : Organization User) (task : ShareTask User)
    (tasks : List (ShareTask User)) (form : OrgForm User) :
    ReachedByView org (task :: tasks) form ↔
      ReachedByView org [task] form ∨ ReachedByView org tasks form := by
  unfold ReachedByView
  simp only [reached_cons task tasks, or_and_right, exists_or]

omit [DecidableEq User] in
theorem reachedByView_singleton (org : Organization User) (task : ShareTask User)
    (form : OrgForm User) :
    ReachedByView org [task] form ↔ task.role.isSome = true ∧
      ∃ dataview ∈ (org.project task.project).dataviews, dataview.xform = form.pk := by
  unfold ReachedByView
  simp only [reached_singleton, and_assoc, exists_and_left, exists_eq_left]

omit [DecidableEq User] in
/-- The tasks after the first one. -/
theorem Cleared.cons {mid org' : Organization User} {task : ShareTask User}
    {tasks : List (ShareTask User)} (h : Cleared org [task] user mid)
    (h' : Cleared mid tasks user org') : Cleared org (task :: tasks) user org' where
  perms := h'.perms.trans h.perms
  userProfile := h'.userProfile.trans h.userProfile
  projectOrg := h'.projectOrg.trans h.projectOrg
  dataviews pk := (h'.dataviews pk).trans (h.dataviews pk)
  projects pk := by rw [h'.projects, h.projects, reached_cons task tasks, or_assoc]
  entityLists pk := by rw [h'.entityLists, h.entityLists, reached_cons task tasks, or_assoc]
  forms := by
    obtain ⟨f, hf, hform⟩ := h.forms
    obtain ⟨f', hf', hform'⟩ := h'.forms
    refine ⟨f' ∘ f, by rw [hf', hf, List.map_map], fun form => ?_⟩
    obtain ⟨hpk, hproject, hperms, hmerged⟩ := hform form
    obtain ⟨hpk', hproject', hperms', hmerged'⟩ := hform' (f form)
    have hview : ReachedByView mid tasks (f form) ↔ ReachedByView org tasks form := by
      unfold ReachedByView
      simp only [h.dataviews, hpk]
    refine ⟨hpk'.trans hpk, hproject'.trans hproject, ?_, ?_⟩
    · show NoRows (f' (f form)).perms user ↔ _
      rw [hperms', hperms, hview, hproject, reached_cons task tasks,
        reachedByView_cons org task tasks]
      grind
    · show (∀ p ∈ (f' (f form)).merged, NoRows p user) ↔ _
      rw [hmerged', hmerged, hproject, reached_cons task tasks, or_assoc]

/-- What one task of a removal leaves. -/
theorem shareProjectAsync_cleared (org : Organization User) {task : ShareTask User}
    (hremove : task.remove = true) :
    Cleared org [task] task.user (org.shareProjectAsync task) := by
  rw [shareProjectAsync_remove org hremove]
  refine ⟨rfl, rfl, rfl, fun pk => ?_, fun pk => ?_, fun pk => ?_,
    org.clearForm task, rfl, fun form => ?_⟩
  · show (org.clearProject task pk).dataviews = _
    unfold clearProject
    split <;> rfl
  · show NoRows (org.clearProject task pk).perms task.user ↔ _
    rw [reached_singleton]
    unfold clearProject
    by_cases hr : task.role.isSome = true ∧ pk = task.project
    · simp only [hr, and_self, if_true, or_true, iff_true]
      exact noRows_removeUserPermissions _ _
    · simp only [hr, if_false, or_false]
  · show (∀ p ∈ (org.clearProject task pk).entityLists, NoRows p task.user) ↔ _
    rw [reached_singleton]
    unfold clearProject
    by_cases hr : task.role.isSome = true ∧ pk = task.project
    · simp only [hr, and_self, if_true, or_true, iff_true, List.forall_mem_map]
      exact fun p _ => noRows_removeUserPermissions p _
    · simp only [hr, if_false, or_false]
  · rw [reached_singleton, reachedByView_singleton]
    unfold clearForm
    by_cases hr : task.role.isSome = true
    · simp only [hr, if_true, true_and]
      refine ⟨?_, ?_⟩
      · by_cases hto : form.project = task.project ∨
            ∃ dataview ∈ (org.project task.project).dataviews, dataview.xform = form.pk
        · rw [if_pos hto]
          exact iff_of_true (noRows_removeUserPermissions _ _) (Or.inr hto)
        · rw [if_neg hto]
          exact (or_iff_left hto).symm
      · by_cases hto : form.project = task.project
        · simp only [hto, if_true, or_true, iff_true]
          intro p hp
          obtain ⟨q, -, rfl⟩ := Option.map_eq_some_iff.mp hp
          exact noRows_removeUserPermissions q task.user
        · simp only [hto, if_false, or_false]
    · simp [hr]

/-- What all tasks of a removal leave, in whatever order they run. -/
theorem runTasks_cleared (tasks : List (ShareTask User)) (org : Organization User)
    (htasks : ∀ task ∈ tasks, task.remove = true ∧ task.user = user) :
    Cleared org tasks user (org.runTasks tasks) := by
  induction tasks generalizing org with
  | nil =>
      have hnone : ∀ pk, ¬ Reached ([] : List (ShareTask User)) pk := by
        intro pk h
        obtain ⟨task, htask, -⟩ := h
        exact List.not_mem_nil htask
      refine ⟨rfl, rfl, rfl, fun _ => rfl, fun pk => (or_iff_left (hnone pk)).symm,
        fun pk => (or_iff_left (hnone pk)).symm, id, (List.map_id _).symm, fun form => ?_⟩
      refine ⟨rfl, rfl, ?_, (or_iff_left (hnone _)).symm⟩
      simp [hnone, ReachedByView]
  | cons task rest ih =>
      have hfirst := htasks task List.mem_cons_self
      have hstep := shareProjectAsync_cleared org hfirst.1
      rw [hfirst.2] at hstep
      exact hstep.cons (ih _ fun t ht => htasks t (List.mem_cons_of_mem _ ht))

/-! ### The removal -/

/-- A role on the organization is read back without the two teams. -/
def RoleOnOrganization (org : Organization User) (user : User) : Prop :=
  let perms := org.remainingPerms organizationProfilePerms org.perms user
  .isOrgOwner ∈ perms ∨ .viewOrganizationprofile ∈ perms

/-- A role on the project `pk` is read back without the two teams. -/
def RoleOnProject (org : Organization User) (user : User) (pk : Nat) : Prop :=
  ProjectRoleIn (org.remainingPerms projectPerms (org.project pk).perms user)

/-- The user holds no direct permission on the profile, the user profile, the projects of the
organization, their forms, merged datasets and entity lists. -/
structure DirectFree (org : Organization User) (user : User) : Prop where
  profile : NoRows org.perms user
  userProfile : NoRows org.userProfile user
  projects : ∀ pk ∈ org.projectOrg, NoRows (org.project pk).perms user
  entityLists : ∀ pk ∈ org.projectOrg, ∀ p ∈ (org.project pk).entityLists, NoRows p user
  forms : ∀ form ∈ org.forms, form.project ∈ org.projectOrg → NoRows form.perms user
  merged : ∀ form ∈ org.forms, form.project ∈ org.projectOrg →
    ∀ p ∈ form.merged, NoRows p user

/-- The removal reaches all that the user holds: wherever he holds a permission of his own, a
role is read back. A form is reached from its project or from one with a dataview of it. -/
structure RemovalReaches (org : Organization User) (user : User) : Prop where
  profile : (NoRows org.perms user ∧ NoRows org.userProfile user) ∨ org.RoleOnOrganization user
  projects : ∀ pk ∈ org.projectOrg, NoRows (org.project pk).perms user ∨
    org.RoleOnProject user pk
  entityLists : ∀ pk ∈ org.projectOrg,
    (∀ p ∈ (org.project pk).entityLists, NoRows p user) ∨ org.RoleOnProject user pk
  forms : ∀ form ∈ org.forms, form.project ∈ org.projectOrg →
    NoRows form.perms user ∨ org.RoleOnProject user form.project ∨
      ∃ pk ∈ org.projectOrg, org.RoleOnProject user pk ∧
        ∃ dataview ∈ (org.project pk).dataviews, dataview.xform = form.pk
  merged : ∀ form ∈ org.forms, form.project ∈ org.projectOrg →
    (∀ p ∈ form.merged, NoRows p user) ∨ org.RoleOnProject user form.project

/-- The rows of a permission table after the first part of a removal. -/
theorem noRows_removed_iff (p : ObjectPermissions User GroupKey) :
    NoRows
        (if ((org.leftTeams user).getRoleInOrg user).isSome then org.removeObjPermissions user p
          else p) user ↔
      NoRows p user ∨ org.RoleOnOrganization user := by
  have hsame := sameRows_leftTeams org user
  have hrole : ((org.leftTeams user).getRoleInOrg user).isSome = true ↔
      org.RoleOnOrganization user := by
    rw [isSome_getRoleInOrg_iff, hsame.perms, objectPerms_leftTeams]
    rfl
  by_cases hfound : org.RoleOnOrganization user
  · rw [if_pos (hrole.mpr hfound)]
    have hactive : org.directory.isActive user = true := by
      -- an inactive user has no codename
      by_contra hinactive
      simp [RoleOnOrganization, remainingPerms, hinactive] at hfound
    unfold removeObjPermissions
    rw [if_pos hactive]
    exact iff_of_true (noRows_removeUserPermissions p user) (Or.inr hfound)
  · rw [if_neg fun h => hfound (hrole.mp h)]
    exact (or_iff_left hfound).symm

/-- The first part of a removal leaves the projects and the forms. -/
theorem removeMember_rest (org : Organization User) (user : User) :
    (org.removeMember user).projectOrg = org.projectOrg ∧
      (org.removeMember user).project = org.project ∧
      (org.removeMember user).forms = org.forms := by
  have hsame := sameRows_leftTeams org user
  rw [removeMember_eq]
  exact ⟨hsame.projectOrg, hsame.project, hsame.forms⟩

/-- The tasks that the removal starts reach the projects on which a role is read back. -/
theorem reached_removal_iff (pk : Nat) :
    Reached (org.removeUserFromOrganization user).2 pk ↔
      pk ∈ org.projectOrg ∧ org.RoleOnProject user pk := by
  obtain ⟨hprojectOrg, hproject, -⟩ := removeMember_rest org user
  have hperms : ∀ p, (org.removeMember user).objectPerms projectPerms p user =
      org.remainingPerms projectPerms p user := by
    intro p
    rw [removeMember_eq, ← objectPerms_leftTeams]
    rfl
  unfold Reached removeUserFromOrganization RoleOnProject
  simp only [List.mem_map, exists_exists_and_eq_and, hproject, hprojectOrg, hperms,
    isSome_getRole_project_iff]
  constructor
  · intro h
    obtain ⟨k, hk, hrole, heq⟩ := h
    exact heq ▸ ⟨hk, hrole⟩
  · exact fun h => ⟨pk, h.1, h.2, rfl⟩

/-- A member has no direct permission left, in whatever order the tasks run, exactly when the
removal reaches all that he holds. -/
theorem removeUserFromOrganization_directFree_iff (org : Organization User) (user : User)
    (tasks : List (ShareTask User))
    (htasks : tasks.Perm (org.removeUserFromOrganization user).2) :
    ((org.removeUserFromOrganization user).1.runTasks tasks).DirectFree user ↔
      org.RemovalReaches user := by
  obtain ⟨hprojectOrg, hproject, hforms⟩ := removeMember_rest org user
  have hremove : ∀ task ∈ tasks, task.remove = true ∧ task.user = user := by
    intro task htask
    obtain ⟨pk, -, rfl⟩ := List.mem_map.mp (htasks.mem_iff.mp htask)
    exact ⟨rfl, rfl⟩
  have hreached : ∀ pk, Reached tasks pk ↔ pk ∈ org.projectOrg ∧ org.RoleOnProject user pk := by
    intro pk
    rw [← reached_removal_iff]
    unfold Reached
    simp only [htasks.mem_iff]
  have hon : ∀ pk ∈ org.projectOrg, (Reached tasks pk ↔ org.RoleOnProject user pk) := by
    intro pk hpk
    rw [hreached]
    exact and_iff_right hpk
  have hview : ∀ form, ReachedByView (org.removeMember user) tasks form ↔
      ∃ pk ∈ org.projectOrg, org.RoleOnProject user pk ∧
        ∃ dataview ∈ (org.project pk).dataviews, dataview.xform = form.pk := by
    intro form
    unfold ReachedByView
    simp only [hproject, hreached, and_assoc]
  have hcleared : Cleared (org.removeMember user) tasks user
      ((org.removeUserFromOrganization user).1.runTasks tasks) := runTasks_cleared tasks _ hremove
  generalize (org.removeUserFromOrganization user).1.runTasks tasks = org' at hcleared ⊢
  have hperms : NoRows org'.perms user ↔ NoRows org.perms user ∨ org.RoleOnOrganization user := by
    rw [hcleared.perms, removeMember_eq]
    exact noRows_removed_iff org.perms
  have hprofile : NoRows org'.userProfile user ↔
      NoRows org.userProfile user ∨ org.RoleOnOrganization user := by
    rw [hcleared.userProfile, removeMember_eq]
    exact noRows_removed_iff org.userProfile
  have hkeys : org'.projectOrg = org.projectOrg := hcleared.projectOrg.trans hprojectOrg
  have hprojects := hcleared.projects
  have hentityLists := hcleared.entityLists
  obtain ⟨f, hmap, hform⟩ := hcleared.forms
  rw [hproject] at hprojects hentityLists
  rw [hforms] at hmap
  constructor
  · intro h
    refine ⟨?_, fun pk hpk => ?_, fun pk hpk => ?_, fun form hmem hin => ?_,
      fun form hmem hin => ?_⟩
    · exact and_or_right.mpr ⟨hperms.mp h.profile, hprofile.mp h.userProfile⟩
    · rw [← hon pk hpk, ← hprojects]
      exact h.projects pk (hkeys ▸ hpk)
    · rw [← hon pk hpk, ← hentityLists]
      exact h.entityLists pk (hkeys ▸ hpk)
    · obtain ⟨-, hsameProject, hrows, -⟩ := hform form
      rw [← hon _ hin, ← hview, ← hrows]
      exact h.forms (f form) (hmap ▸ List.mem_map_of_mem hmem)
        (by rw [hkeys, hsameProject]; exact hin)
    · obtain ⟨-, hsameProject, -, hrows⟩ := hform form
      rw [← hon _ hin, ← hrows]
      exact h.merged (f form) (hmap ▸ List.mem_map_of_mem hmem)
        (by rw [hkeys, hsameProject]; exact hin)
  · intro h
    refine ⟨?_, ?_, fun pk hpk => ?_, fun pk hpk => ?_, fun form hmem hin => ?_,
      fun form hmem hin => ?_⟩
    · exact hperms.mpr (h.profile.imp_left And.left)
    · exact hprofile.mpr (h.profile.imp_left And.right)
    · rw [hkeys] at hpk
      rw [hprojects, hon pk hpk]
      exact h.projects pk hpk
    · rw [hkeys] at hpk
      rw [hentityLists, hon pk hpk]
      exact h.entityLists pk hpk
    · rw [hmap] at hmem
      obtain ⟨before, hbefore, rfl⟩ := List.mem_map.mp hmem
      obtain ⟨-, hsameProject, hrows, -⟩ := hform before
      rw [hkeys, hsameProject] at hin
      rw [hrows, hon _ hin, hview]
      exact h.forms before hbefore hin
    · rw [hmap] at hmem
      obtain ⟨before, hbefore, rfl⟩ := List.mem_map.mp hmem
      obtain ⟨-, hsameProject, -, hrows⟩ := hform before
      rw [hkeys, hsameProject] at hin
      rw [hrows, hon _ hin]
      exact h.merged before hbefore hin

/-- Account 0 with the owner 1 and the member 7. The member was given the form 5 of project 3,
and has no permission on the project. -/
def formShared : Organization Nat where
  user := 0
  directory := ⟨fun _ => true, fun _ => false, fun user => user = 0, fun _ => [], fun _ => none⟩
  perms := ⟨organizationProfilePerms.map (1, ·), []⟩
  userProfile := ⟨(Role.ownerRole.permissions .userProfile).map (1, ·), []⟩
  teams
    | .owners => ⟨"school#Owners", [1], [], List.nodup_singleton 1⟩
    | .members => ⟨"school#members", [0, 1, 7], [], by decide⟩
    | .other _ => ⟨"school#other", [], [], List.nodup_nil⟩
  projectOrg := [3]
  project _ := ⟨some 1, ⟨(Role.ownerRole.permissions .project).map (1, ·), []⟩, [], []⟩
  forms := [⟨5, 3, none, ⟨(Role.readOnlyRole.permissions .xform).map (7, ·), []⟩, none⟩]

theorem removeUserFromOrganization_directFree_formShared :
    ((formShared.removeUserFromOrganization 1).1.runTasks
        (formShared.removeUserFromOrganization 1).2.reverse).DirectFree 1 ↔
      formShared.RemovalReaches 1 :=
  removeUserFromOrganization_directFree_iff formShared 1 _ (List.reverse_perm _)

/-- The member keeps the form. -/
theorem not_directFree_formShared :
    ¬ ∀ (org : Organization Nat) (user : Nat) (tasks : List (ShareTask Nat)),
        user ∈ (org.teams .members).users →
        tasks.Perm (org.removeUserFromOrganization user).2 →
        ((org.removeUserFromOrganization user).1.runTasks tasks).DirectFree user := by
  intro h
  have hfree := h formShared 7 _ (by decide) (List.Perm.refl _)
  have hforms : ((formShared.removeUserFromOrganization 7).1.runTasks
      (formShared.removeUserFromOrganization 7).2).forms = formShared.forms := rfl
  have hkept := hfree.forms
  rw [hforms] at hkept
  exact hkept _ List.mem_cons_self (List.mem_singleton_self 3) .viewXform (by decide)

end Organization

end Onadata
