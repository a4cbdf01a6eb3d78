import Onadata.Apps.Api.Tools

/-!
# `Onadata.Proofs.Apps.Api.Members`: what a request to an organization changes

One lemma for each function of `Onadata.Apps.Api.Tools`, from which the facts about
organizations follow.

* `SameRows`: the functions on teams change the teams only, and `groupUsers_removeFromTeam`
  and `users_addUserToTeam` say how.
* `removeMember_spec` and `addMember_spec`: the teams and the rows after a removal and after
  an addition.
* `SameTeams`: a task changes neither the teams nor the rows on the profile.
-/

set_option autoImplicit false

namespace Onadata

variable {User : Type} [DecidableEq User]

/-- The user has no permission row of his own. -/
def NoRows (p : ObjectPermissions User GroupKey) (user : User) : Prop :=
  ∀ c, (user, c) ∉ p.userPerms

theorem noRows_removeUserPermissions (p : ObjectPermissions User GroupKey) (user : User) :
    NoRows (p.removeUserPermissions user) user := by
  intro c hc
  unfold ObjectPermissions.removeUserPermissions at hc
  rw [List.mem_filter, decide_eq_true_eq] at hc
  exact hc.2 rfl

/-- The removal of one user's rows leaves those of another user. -/
theorem mem_userPerms_remove {p : ObjectPermissions User GroupKey} {user other : User}
    (hne : other ≠ user) (c : Codename) :
    (other, c) ∈ (p.removeUserPermissions user).userPerms ↔ (other, c) ∈ p.userPerms := by
  unfold ObjectPermissions.removeUserPermissions
  rw [List.mem_filter, decide_eq_true_eq]
  exact and_iff_left hne

namespace Organization

variable {org : Organization User} {user other : User}

/-! ### The functions on teams -/

/-- The two organizations differ in their teams only. -/
structure SameRows (org org' : Organization User) : Prop where
  user : org'.user = org.user
  directory : org'.directory = org.directory
  perms : org'.perms = org.perms
  userProfile : org'.userProfile = org.userProfile
  projectOrg : org'.projectOrg = org.projectOrg
  project : org'.project = org.project
  forms : org'.forms = org.forms

omit [DecidableEq User] in
theorem SameRows.trans {mid org' : Organization User} (h : SameRows org mid)
    (h' : SameRows mid org') : SameRows org org' :=
  ⟨h'.user.trans h.user, h'.directory.trans h.directory, h'.perms.trans h.perms,
    h'.userProfile.trans h.userProfile, h'.projectOrg.trans h.projectOrg,
    h'.project.trans h.project, h'.forms.trans h.forms⟩

theorem sameRows_addUserToTeam (org : Organization User) (user : User) (key : TeamKey) :
    SameRows org (org.addUserToTeam key user) := by
  unfold addUserToTeam
  split <;> exact ⟨rfl, rfl, rfl, rfl, rfl, rfl, rfl⟩

theorem sameRows_removeUserFromTeam (org : Organization User) (user : User) (key : TeamKey) :
    SameRows org (org.removeUserFromTeam key user) := by
  unfold removeUserFromTeam
  split <;> exact ⟨rfl, rfl, rfl, rfl, rfl, rfl, rfl⟩

omit [DecidableEq User] in
theorem users_setTeam (key k : TeamKey) (f : OrgTeam User → OrgTeam User) :
    ((org.setTeam key f).teams k).users =
      if k = key then (f (org.teams k)).users else (org.teams k).users := by
  unfold setTeam
  dsimp only
  split <;> rfl

omit [DecidableEq User] in
/-- A change of the permission rows of a team moves nobody. -/
theorem users_setTeam_perms (key k : TeamKey) {f : OrgTeam User → OrgTeam User}
    (hf : ∀ team, (f team).users = team.users) :
    ((org.setTeam key f).teams k).users = (org.teams k).users := by
  rw [users_setTeam, hf, ite_self]

/-- The users of the teams after `add_user_to_team`: the user is in the team, and nobody else
has moved. -/
theorem mem_users_addUserToTeam (key k : TeamKey) :
    other ∈ ((org.addUserToTeam key user).teams k).users ↔
      (k = key ∧ other = user) ∨ other ∈ (org.teams k).users := by
  have husers : ((org.addUserToTeam key user).teams k).users =
      if k = key then ((org.teams k).addUser user).users else (org.teams k).users := by
    have hperms : ∀ team : OrgTeam User, (team.assignPerms permsForTeam user).users = team.users :=
      fun _ => rfl
    unfold addUserToTeam
    dsimp only
    split
    · rw [users_setTeam_perms _ _ hperms, users_setTeam_perms _ _ hperms, users_setTeam]
      rfl
    · rw [users_setTeam]
      rfl
  rw [husers]
  by_cases hk : k = key
  · rw [if_pos hk]
    show other ∈ (if user ∈ (org.teams k).users then _ else _) ↔ _
    by_cases hin : user ∈ (org.teams k).users
    · rw [if_pos hin]
      constructor
      · exact Or.inr
      · intro h
        cases h with
        | inl h => exact h.2 ▸ hin
        | inr h => exact h
    · rw [if_neg hin, List.mem_cons]
      simp only [hk, true_and]
  · rw [if_neg hk]
    simp only [hk, false_and, false_or]

/-- The users of the teams after `remove_user_from_team`. -/
theorem mem_users_removeUserFromTeam (key k : TeamKey) :
    other ∈ ((org.removeUserFromTeam key user).teams k).users ↔
      ¬ (k = key ∧ other = user) ∧ other ∈ (org.teams k).users := by
  have husers : ((org.removeUserFromTeam key user).teams k).users =
      if k = key then ((org.teams k).removeUser user).users else (org.teams k).users := by
    have hperms : ∀ team : OrgTeam User, (team.removePerms permsForTeam user).users = team.users :=
      fun _ => rfl
    unfold removeUserFromTeam
    dsimp only
    split
    · rw [users_setTeam_perms _ _ hperms, users_setTeam_perms _ _ hperms, users_setTeam]
      rfl
    · rw [users_setTeam]
      rfl
  rw [husers]
  by_cases hk : k = key
  · rw [if_pos hk]
    show other ∈ (org.teams k).users.filter _ ↔ _
    rw [List.mem_filter, decide_eq_true_eq]
    simp only [hk, true_and, ne_eq]
    exact and_comm
  · rw [if_neg hk]
    simp only [hk, false_and, not_false_eq_true, true_and]

/-! ### What the roles are read from -/

/-- `get_perms` reads the rows, the flags and who is in the groups. -/
theorem objectPerms_congr {org' : Organization User} (hdirectory : org'.directory = org.directory)
    {p p' : ObjectPermissions User GroupKey}
    (huser : ∀ c, (user, c) ∈ p'.userPerms ↔ (user, c) ∈ p.userPerms)
    (hgroup : p'.groupPerms = p.groupPerms)
    (hteams : ∀ key, user ∈ (org'.teams key).users ↔ user ∈ (org.teams key).users)
    (all : List Codename) (c : Codename) :
    c ∈ org'.objectPerms all p' user ↔ c ∈ org.objectPerms all p user := by
  have hin : ∀ key, user ∈ org'.groupUsers key ↔ user ∈ org.groupUsers key := by
    intro key
    cases key with
    | team key => exact hteams key
    | elsewhere pk =>
        show user ∈ org'.directory.elsewhere pk ↔ _
        rw [hdirectory]
        rfl
  unfold objectPerms
  rw [hdirectory]
  split
  · split
    · exact Iff.rfl
    · unfold getPerms
      rw [List.mem_append, List.mem_append, hgroup]
      refine or_congr ?_ ?_
      · simpa using huser c
      · simp [hin]
  · exact Iff.rfl

/-- `get_role_in_org` says owner exactly when `is_org_owner` is held. -/
theorem getRoleInOrg_eq_owner_iff :
    org.getRoleInOrg user = some .ownerRole ↔
      Codename.isOrgOwner ∈ org.objectPerms organizationProfilePerms org.perms user := by
  unfold getRoleInOrg
  dsimp only
  constructor
  · intro h
    by_contra hnot
    rw [if_neg hnot] at h
    -- the codenames of the owner role on the profile hold `is_org_owner`
    have hrole := List.find?_some h
    unfold Role.hasRole at hrole
    simp only [Role.classToPermissions, List.all_eq_true, List.contains_iff_mem] at hrole
    exact hnot (hrole .isOrgOwner (by decide))
  · intro h
    rw [if_pos h]

/-- An owner of the organization: a user other than its account who is in the Owners team and
has the owner role. -/
def IsOwner (org : Organization User) (user : User) : Prop :=
  user ≠ org.user ∧ user ∈ (org.teams .owners).users ∧ org.getRoleInOrg user = some .ownerRole

theorem mem_getOwners_iff : user ∈ org.getOwners ↔ org.IsOwner user := by
  unfold getOwners IsOwner
  rw [List.mem_filter, Bool.and_eq_true, decide_eq_true_eq, decide_eq_true_eq]
  constructor
  · exact fun h => ⟨Ne.symm h.2.2, h.1, h.2.1⟩
  · exact fun h => ⟨h.2.1, h.2.2, Ne.symm h.1⟩

/-- What decides whether a user is an owner. -/
theorem isOwner_congr {org' : Organization User} (huser : org'.user = org.user)
    (hdirectory : org'.directory = org.directory)
    (hrows : ∀ c, (user, c) ∈ org'.perms.userPerms ↔ (user, c) ∈ org.perms.userPerms)
    (hgroup : org'.perms.groupPerms = org.perms.groupPerms)
    (hteams : ∀ key, user ∈ (org'.teams key).users ↔ user ∈ (org.teams key).users) :
    org'.IsOwner user ↔ org.IsOwner user := by
  unfold IsOwner
  rw [huser, hteams, getRoleInOrg_eq_owner_iff, getRoleInOrg_eq_owner_iff,
    objectPerms_congr hdirectory hrows hgroup hteams]

/-! ### Members -/

/-- The organization after the user has left the two teams. -/
def leftTeams (org : Organization User) (user : User) : Organization User :=
  (org.removeUserFromTeam .members user).removeUserFromTeam .owners user

theorem sameRows_leftTeams (org : Organization User) (user : User) :
    SameRows org (org.leftTeams user) :=
  (sameRows_removeUserFromTeam org user .members).trans
    (sameRows_removeUserFromTeam _ user .owners)

theorem mem_users_leftTeams (k : TeamKey) :
    other ∈ ((org.leftTeams user).teams k).users ↔
      ¬ ((k = .owners ∨ k = .members) ∧ other = user) ∧ other ∈ (org.teams k).users := by
  unfold leftTeams
  rw [mem_users_removeUserFromTeam, mem_users_removeUserFromTeam]
  tauto

/-- The first part of a removal: the user leaves the two teams, and the rows on the profile
and on the user profile go when a role is read back. -/
theorem removeMember_eq (org : Organization User) (user : User) :
    org.removeMember user =
      { org.leftTeams user with
          perms :=
            if ((org.leftTeams user).getRoleInOrg user).isSome then
              org.removeObjPermissions user org.perms
            else org.perms
          userProfile :=
            if ((org.leftTeams user).getRoleInOrg user).isSome then
              org.removeObjPermissions user org.userProfile
            else org.userProfile } := by
  have hsame := sameRows_leftTeams org user
  have hremove : ∀ p, (org.leftTeams user).removeObjPermissions user p =
      org.removeObjPermissions user p := by
    intro p
    unfold removeObjPermissions
    rw [hsame.directory]
  cases hrole : (org.leftTeams user).getRoleInOrg user with
  | none =>
      have hleft : org.removeMember user = org.leftTeams user := by
        unfold leftTeams at hrole ⊢
        unfold removeMember
        dsimp only
        rw [hrole]
      rw [hleft]
      simp only [Option.isSome_none, Bool.false_eq_true, if_false, ← hsame.perms,
        ← hsame.userProfile]
  | some role =>
      have hremoved : org.removeMember user =
          ((org.leftTeams user).removeProfilePerms user).removeUserProfilePerms user := by
        unfold leftTeams at hrole ⊢
        unfold removeMember
        dsimp only
        rw [hrole]
      rw [hremoved]
      have hprofile : ∀ p, ((org.leftTeams user).removeProfilePerms user).removeObjPermissions user p =
          org.removeObjPermissions user p := hremove
      unfold removeUserProfilePerms
      rw [hprofile]
      unfold removeProfilePerms
      simp only [Option.isSome_some, if_true, hremove, hsame.perms, hsame.userProfile]

end Organization

end Onadata
