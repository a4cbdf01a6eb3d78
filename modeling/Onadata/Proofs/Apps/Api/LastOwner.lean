import Onadata.Apps.Api.Tools
import Onadata.Lib.Run
import Onadata.Proofs.Apps.Api.Members

/-!
# `Onadata.Proofs.Apps.Api.LastOwner`: an organization and its last owner

"Organization cannot be without an owner", says the validation of a member request. It is the
only place that asks. `TeamViewSet.members` takes anybody out of the Owners team, and the
validation of one request is apart from its change: two owners can each validate the removal
of the other before either is made.

A step changes the standing of one user at most (`isOwner_addMember_of_ne` and its
neighbours), so an owner is left exactly when there was another one, or when the user stays an
owner. `OwnerKept` says so for each step in terms of the state before it, and
`hasOwner_run_iff` follows for all runs. `saveKept_of_validate`: a request that is saved
directly after its validation keeps an owner.
-/

set_option autoImplicit false

namespace Onadata

open Onadata.Lib

variable {User : Type} [DecidableEq User]

namespace Organization

variable {org : Organization User} {user other : User}

/-- The organization has an owner. -/
def HasOwner (org : Organization User) : Prop := ∃ user, org.IsOwner user

/-! ### The other users -/

theorem isOwner_addUserToTeam_of_ne (key : TeamKey) (hne : other ≠ user) :
    (org.addUserToTeam key user).IsOwner other ↔ org.IsOwner other := by
  have hsame := sameRows_addUserToTeam org user key
  refine isOwner_congr hsame.user hsame.directory (fun c => by rw [hsame.perms]) ?_ fun k => ?_
  · rw [hsame.perms]
  · rw [mem_users_addUserToTeam]
    simp only [hne, and_false, false_or]

theorem isOwner_removeUserFromTeam_of_ne (key : TeamKey) (hne : other ≠ user) :
    (org.removeUserFromTeam key user).IsOwner other ↔ org.IsOwner other := by
  have hsame := sameRows_removeUserFromTeam org user key
  refine isOwner_congr hsame.user hsame.directory (fun c => by rw [hsame.perms]) ?_ fun k => ?_
  · rw [hsame.perms]
  · rw [mem_users_removeUserFromTeam]
    simp only [hne, and_false, not_false_eq_true, true_and]

/-- The rows on the user profile do not count. -/
theorem isOwner_addUserProfileRole (role : Role) :
    (org.addUserProfileRole role user).IsOwner other ↔ org.IsOwner other :=
  isOwner_congr rfl rfl (fun _ => Iff.rfl) rfl fun _ => Iff.rfl

theorem isOwner_removeUserProfilePerms :
    (org.removeUserProfilePerms user).IsOwner other ↔ org.IsOwner other :=
  isOwner_congr rfl rfl (fun _ => Iff.rfl) rfl fun _ => Iff.rfl

theorem mem_removeObjPermissions_of_ne (p : ObjectPermissions User GroupKey) (hne : other ≠ user)
    (c : Codename) :
    (other, c) ∈ (org.removeObjPermissions user p).userPerms ↔ (other, c) ∈ p.userPerms := by
  unfold removeObjPermissions
  split
  · exact mem_userPerms_remove hne c
  · exact Iff.rfl

theorem groupPerms_removeObjPermissions (p : ObjectPermissions User GroupKey) :
    (org.removeObjPermissions user p).groupPerms = p.groupPerms := by
  unfold removeObjPermissions
  split <;> rfl

theorem isOwner_addProfileRole_of_ne (role : Role) (hne : other ≠ user) :
    (org.addProfileRole role user).IsOwner other ↔ org.IsOwner other := by
  refine isOwner_congr rfl rfl (fun c => ?_) (groupPerms_removeObjPermissions _) fun _ => Iff.rfl
  show (other, c) ∈ (org.removeObjPermissions user org.perms).userPerms ++ _ ↔ _
  rw [List.mem_append, mem_removeObjPermissions_of_ne _ hne]
  refine or_iff_left fun h => ?_
  obtain ⟨_, _, heq⟩ := List.mem_map.mp (List.mem_filter.mp h).1
  exact hne (congrArg Prod.fst heq).symm

theorem isOwner_removeProfilePerms_of_ne (hne : other ≠ user) :
    (org.removeProfilePerms user).IsOwner other ↔ org.IsOwner other :=
  isOwner_congr rfl rfl (mem_removeObjPermissions_of_ne org.perms hne)
    (groupPerms_removeObjPermissions _) fun _ => Iff.rfl

/-- An addition changes the standing of the added user only. -/
theorem isOwner_addMember_of_ne (role : Option Role) (hne : other ≠ user) :
    (org.addMember user role).IsOwner other ↔ org.IsOwner other := by
  unfold addMember
  cases role with
  | none => exact isOwner_addUserToTeam_of_ne .members hne
  | some role =>
      dsimp only
      split
      · rw [isOwner_addUserToTeam_of_ne _ hne, isOwner_addUserProfileRole,
          isOwner_addProfileRole_of_ne _ hne, isOwner_addUserToTeam_of_ne _ hne]
      · rw [isOwner_removeUserProfilePerms, isOwner_removeUserFromTeam_of_ne _ hne,
          isOwner_addProfileRole_of_ne _ hne, isOwner_addUserToTeam_of_ne _ hne]

/-- A removal changes the standing of the removed user only. -/
theorem isOwner_removeMember_of_ne (hne : other ≠ user) :
    (org.removeMember user).IsOwner other ↔ org.IsOwner other := by
  unfold removeMember
  dsimp only
  split
  · rw [isOwner_removeUserFromTeam_of_ne _ hne, isOwner_removeUserFromTeam_of_ne _ hne]
  · rw [isOwner_removeUserProfilePerms, isOwner_removeProfilePerms_of_ne hne,
      isOwner_removeUserFromTeam_of_ne _ hne, isOwner_removeUserFromTeam_of_ne _ hne]

/-- A task changes nobody's standing. -/
theorem isOwner_shareProjectAsync (task : ShareTask User) :
    (org.shareProjectAsync task).IsOwner other ↔ org.IsOwner other := by
  unfold shareProjectAsync
  split
  · exact Iff.rfl
  · exact isOwner_congr rfl rfl (fun _ => Iff.rfl) rfl fun _ => Iff.rfl

/-! ### The user -/

/-- `is_org_owner` is held in the organization: the user is active, and is a superuser, or has
the row, or is in a group other than those of `left` that has it. -/
def HoldsOwnership (org : Organization User) (left : List GroupKey) (user : User) : Prop :=
  org.directory.isActive user = true ∧
    (org.directory.isSuperuser user = true ∨ (user, .isOrgOwner) ∈ org.perms.userPerms ∨
      ∃ group, group ∉ left ∧ (group, .isOrgOwner) ∈ org.perms.groupPerms ∧
        user ∈ org.groupUsers group)

theorem isOwner_iff :
    org.IsOwner user ↔ user ≠ org.user ∧ user ∈ (org.teams .owners).users ∧
      org.HoldsOwnership [] user := by
  have hheld : Codename.isOrgOwner ∈ org.objectPerms organizationProfilePerms org.perms user ↔
      org.HoldsOwnership [] user := by
    unfold objectPerms HoldsOwnership
    by_cases hactive : org.directory.isActive user = true
    · rw [if_pos hactive]
      by_cases hsuper : org.directory.isSuperuser user = true
      · rw [if_pos hsuper]
        exact iff_of_true (by decide) ⟨hactive, Or.inl hsuper⟩
      · rw [if_neg hsuper]
        simp only [hactive, hsuper, true_and]
        unfold getPerms
        simp [List.mem_append]
    · simp [hactive]
  unfold IsOwner
  rw [getRoleInOrg_eq_owner_iff, hheld]

omit [DecidableEq User] in
/-- Ownership that the user has elsewhere as well. -/
theorem holdsOwnership_mono {org' : Organization User} {left left' : List GroupKey}
    (hdirectory : org'.directory = org.directory) (hperms : org'.perms = org.perms)
    (hgroups : ∀ group ∉ left, user ∈ org.groupUsers group →
      group ∉ left' ∧ user ∈ org'.groupUsers group)
    (h : org.HoldsOwnership left user) : org'.HoldsOwnership left' user := by
  unfold HoldsOwnership at h ⊢
  rw [hdirectory, hperms]
  refine ⟨h.1, h.2.imp_right fun h => h.imp_right fun h => ?_⟩
  obtain ⟨group, hleft, hrow, hin⟩ := h
  obtain ⟨hleft', hin'⟩ := hgroups group hleft hin
  exact ⟨group, hleft', hrow, hin'⟩

theorem mem_groupUsers_addUserToTeam (key : TeamKey) (group : GroupKey) :
    user ∈ (org.addUserToTeam key user).groupUsers group ↔
      group = .team key ∨ user ∈ org.groupUsers group := by
  have hsame := sameRows_addUserToTeam org user key
  cases group with
  | team k =>
      show user ∈ ((org.addUserToTeam key user).teams k).users ↔ _
      rw [mem_users_addUserToTeam]
      simp [groupUsers]
  | elsewhere pk =>
      show user ∈ (org.addUserToTeam key user).directory.elsewhere pk ↔ _
      rw [hsame.directory]
      simp [groupUsers]

theorem mem_groupUsers_removeUserFromTeam (key : TeamKey) (group : GroupKey) :
    user ∈ (org.removeUserFromTeam key user).groupUsers group ↔
      group ≠ .team key ∧ user ∈ org.groupUsers group := by
  have hsame := sameRows_removeUserFromTeam org user key
  cases group with
  | team k =>
      show user ∈ ((org.removeUserFromTeam key user).teams k).users ↔ _
      rw [mem_users_removeUserFromTeam]
      simp [groupUsers]
  | elsewhere pk =>
      show user ∈ (org.removeUserFromTeam key user).directory.elsewhere pk ↔ _
      rw [hsame.directory]
      simp [groupUsers]

/-- Nobody loses his standing by joining a team. -/
theorem isOwner_addUserToTeam (key : TeamKey) (h : org.IsOwner user) :
    (org.addUserToTeam key user).IsOwner user := by
  have hsame := sameRows_addUserToTeam org user key
  rw [isOwner_iff] at h ⊢
  refine ⟨hsame.user ▸ h.1, ?_, ?_⟩
  · rw [mem_users_addUserToTeam]
    exact Or.inr h.2.1
  · refine holdsOwnership_mono hsame.directory hsame.perms (fun group hleft hin => ?_) h.2.2
    rw [mem_groupUsers_addUserToTeam]
    exact ⟨hleft, Or.inr hin⟩

/-- Who leaves a team stays an owner when it is not the Owners team and he holds
`is_org_owner` in another way. -/
theorem isOwner_removeUserFromTeam_iff (key : TeamKey) :
    (org.removeUserFromTeam key user).IsOwner user ↔
      user ≠ org.user ∧ key ≠ .owners ∧ user ∈ (org.teams .owners).users ∧
        org.HoldsOwnership [.team key] user := by
  have hsame := sameRows_removeUserFromTeam org user key
  have hheld : (org.removeUserFromTeam key user).HoldsOwnership [] user ↔
      org.HoldsOwnership [.team key] user := by
    unfold HoldsOwnership
    rw [hsame.directory, hsame.perms]
    simp only [mem_groupUsers_removeUserFromTeam, List.mem_singleton, List.not_mem_nil,
      not_false_eq_true, true_and, and_left_comm]
  rw [isOwner_iff, hsame.user, mem_users_removeUserFromTeam, hheld]
  simp only [and_true, ne_comm (a := TeamKey.owners), and_assoc]

/-- An owner who is given the owner role stays an owner. -/
theorem isOwner_addProfileRole_owner (h : org.IsOwner user) :
    (org.addProfileRole .ownerRole user).IsOwner user := by
  rw [isOwner_iff] at h ⊢
  refine ⟨h.1, h.2.1, h.2.2.1, Or.inr (Or.inl ?_)⟩
  -- the row is there from before, or it is added
  show (user, Codename.isOrgOwner) ∈ (org.removeObjPermissions user org.perms).userPerms ++ _
  by_cases hrow : (user, Codename.isOrgOwner) ∈ (org.removeObjPermissions user org.perms).userPerms
  · exact List.mem_append_left _ hrow
  · refine List.mem_append_right _ (List.mem_filter.mpr ⟨?_, decide_eq_true hrow⟩)
    exact List.mem_map_of_mem (by decide)

/-- An owner who is added without a role, or as an owner, stays an owner. With another role
he does not. -/
theorem isOwner_addMember_iff (role : Option Role) (h : org.IsOwner user) :
    (org.addMember user role).IsOwner user ↔ role = none ∨ role = some .ownerRole := by
  have hmember := isOwner_addUserToTeam .members h
  cases role with
  | none => exact iff_of_true hmember (Or.inl rfl)
  | some role =>
      unfold addMember
      dsimp only
      generalize org.addUserToTeam .members user = mid at hmember
      by_cases howner : role = .ownerRole
      · subst howner
        rw [if_pos rfl]
        refine iff_of_true (isOwner_addUserToTeam .owners ?_) (Or.inr rfl)
        rw [isOwner_addUserProfileRole]
        exact isOwner_addProfileRole_owner hmember
      · rw [if_neg howner, isOwner_removeUserProfilePerms, isOwner_removeUserFromTeam_iff]
        simp [howner]

/-- Who is removed is no owner. -/
theorem not_isOwner_removeMember : ¬ (org.removeMember user).IsOwner user := by
  intro h
  have hin := h.2.1
  rw [removeMember_eq] at hin
  exact ((mem_users_leftTeams .owners).mp hin).1 ⟨Or.inl rfl, rfl⟩

/-! ### One step -/

/-- When the standing of the others is the same, an owner is left if there was another one, or
if the user is one now. -/
theorem hasOwner_iff_of_others {org' : Organization User}
    (hothers : ∀ other, other ≠ user → (org'.IsOwner other ↔ org.IsOwner other)) :
    org'.HasOwner ↔ (∃ other, other ≠ user ∧ org.IsOwner other) ∨ org'.IsOwner user := by
  unfold HasOwner
  constructor
  · intro h
    obtain ⟨owner, howner⟩ := h
    by_cases heq : owner = user
    · exact Or.inr (heq ▸ howner)
    · exact Or.inl ⟨owner, heq, (hothers owner heq).mp howner⟩
  · intro h
    cases h with
    | inl h =>
        obtain ⟨other, hne, howner⟩ := h
        exact ⟨other, (hothers other hne).mpr howner⟩
    | inr h => exact ⟨user, h⟩

/-- There is an owner other than the user. -/
def OtherOwner (org : Organization User) (user : User) : Prop :=
  ∃ other, other ≠ user ∧ org.IsOwner other

/-- Saving the request keeps an owner: a removal or another role than owner is for a user
besides whom there is an owner. -/
def SaveKept (org : Organization User) (request : MemberRequest User) : Prop :=
  ∀ user, request.username = some user →
    (request.remove = true ∨ (request.role ≠ none ∧ request.role ≠ some .ownerRole)) →
    org.OtherOwner user

/-- Taking the user out of the team keeps an owner: there is another one, or it is not the
Owners team and the user, an owner, holds `is_org_owner` in another way. -/
def DeleteKept (org : Organization User) (team : TeamKey) (user : User) : Prop :=
  org.OtherOwner user ∨
    user ≠ org.user ∧ team ≠ .owners ∧ user ∈ (org.teams .owners).users ∧
      org.HoldsOwnership [.team team] user

theorem otherOwner_of_not_isOwner (h : org.HasOwner) (hnot : ¬ org.IsOwner user) :
    org.OtherOwner user := by
  obtain ⟨owner, howner⟩ := h
  exact ⟨owner, fun heq => hnot (heq ▸ howner), howner⟩

theorem hasOwner_create_iff (h : org.HasOwner) (request : MemberRequest User) :
    (org.create request).1.HasOwner ↔ org.SaveKept request := by
  unfold create SaveKept
  cases husername : request.username with
  | none => simpa using h
  | some user =>
      simp only [Option.some.injEq, forall_eq']
      by_cases hremove : request.remove = true
      · -- a removal
        rw [if_pos hremove]
        show (org.removeMember user).HasOwner ↔ _
        rw [hasOwner_iff_of_others fun other hne => isOwner_removeMember_of_ne hne,
          or_iff_left not_isOwner_removeMember]
        simp only [hremove, true_or, forall_true_left]
        rfl
      · rw [if_neg hremove]
        show (org.addMember user request.role).HasOwner ↔ _
        rw [hasOwner_iff_of_others fun other hne => isOwner_addMember_of_ne request.role hne]
        by_cases howner : org.IsOwner user
        · rw [isOwner_addMember_iff request.role howner]
          simp only [hremove, Bool.false_eq_true, false_or]
          unfold OtherOwner
          rw [or_iff_not_imp_right, not_or]
        · have hother := otherOwner_of_not_isOwner h howner
          exact iff_of_true (Or.inl hother) fun _ => hother

theorem hasOwner_removeUserFromTeam_iff (team : TeamKey) :
    (org.removeUserFromTeam team user).HasOwner ↔ org.DeleteKept team user := by
  rw [hasOwner_iff_of_others fun other hne => isOwner_removeUserFromTeam_of_ne team hne,
    isOwner_removeUserFromTeam_iff]
  rfl

theorem hasOwner_addUserToTeam (h : org.HasOwner) (team : TeamKey) :
    (org.addUserToTeam team user).HasOwner := by
  obtain ⟨owner, howner⟩ := h
  by_cases heq : owner = user
  · subst heq
    exact ⟨owner, isOwner_addUserToTeam team howner⟩
  · exact ⟨owner, (isOwner_addUserToTeam_of_ne team heq).mpr howner⟩

/-- A request that passes the validation keeps an owner, when it is saved in the state in which
it was validated. -/
theorem saveKept_of_validate (h : org.HasOwner) {request : MemberRequest User}
    (hvalid : org.validate request = .ok ()) : org.SaveKept request := by
  intro user husername hchange
  unfold validate at hvalid
  rw [husername] at hvalid
  dsimp only at hvalid
  cases husername' : org.validateUsername user with
  | error error => simp [husername'] at hvalid
  | ok =>
      have hguarded : ¬ ((request.remove = true ∨ request.role ≠ some .ownerRole) ∧
          user ∈ org.getOwners ∧ org.getOwners.length ≤ 1) := by
        intro hguard
        simp [husername', hguard] at hvalid
      by_cases howner : user ∈ org.getOwners
      · have hmany : 1 < org.getOwners.length := by
          by_contra hfew
          exact hguarded ⟨hchange.imp_right And.right, howner, not_lt.mp hfew⟩
        -- of two different owners one is not the user
        have hnodup : org.getOwners.Nodup := (org.teams .owners).users_nodup.filter _
        obtain ⟨other, hother, hne⟩ : ∃ other ∈ org.getOwners, other ≠ user := by
          by_contra hall
          push Not at hall
          rw [List.eq_replicate_of_mem hall, List.nodup_replicate] at hnodup
          omega
        exact ⟨other, hne, mem_getOwners_iff.mp hother⟩
      · exact otherOwner_of_not_isOwner h fun hnot => howner (mem_getOwners_iff.mpr hnot)

end Organization

/-! ### Runs -/

/-- The condition on a step: what a saved request and a team deletion need. -/
def OwnerKept (s : OrgState User) : OrgAction User → Prop
  | .save i => ∀ request, s.validated[i]? = some request → s.org.SaveKept request
  | .deleteTeamMember team user => s.org.DeleteKept team user
  | .validate _ | .task _ | .postTeamMember _ _ => True

/-- After a step there is an owner exactly when the step meets the condition. -/
theorem hasOwner_step_iff {s s' : OrgState User} {action : OrgAction User}
    (hstep : OrgStep s action s') (howner : s.org.HasOwner) :
    s'.org.HasOwner ↔ OwnerKept s action := by
  unfold OrgStep OrgState.act at hstep
  cases action with
  | validate request =>
      dsimp only at hstep
      refine iff_of_true ?_ trivial
      cases hvalid : s.org.validate request with
      | error error =>
          rw [hvalid] at hstep
          exact Option.some.inj hstep ▸ howner
      | ok =>
          rw [hvalid] at hstep
          exact Option.some.inj hstep ▸ howner
  | save i =>
      dsimp only at hstep
      cases hrequest : s.validated[i]? with
      | none => simp [hrequest] at hstep
      | some request =>
          rw [hrequest] at hstep
          rw [← Option.some.inj hstep]
          unfold OwnerKept
          simp only [hrequest, Option.some.injEq, forall_eq']
          exact Organization.hasOwner_create_iff howner request
  | task i =>
      dsimp only at hstep
      refine iff_of_true ?_ trivial
      cases htask : s.tasks[i]? with
      | none => simp [htask] at hstep
      | some task =>
          rw [htask] at hstep
          rw [← Option.some.inj hstep]
          obtain ⟨owner, howner⟩ := howner
          exact ⟨owner, (Organization.isOwner_shareProjectAsync task).mpr howner⟩
  | postTeamMember team user =>
      refine iff_of_true ?_ trivial
      rw [← Option.some.inj hstep]
      exact Organization.hasOwner_addUserToTeam howner team
  | deleteTeamMember team user =>
      rw [← Option.some.inj hstep]
      exact Organization.hasOwner_removeUserFromTeam_iff team

/-- A run in which there is an owner after each step is a run whose steps all meet the
condition. -/
theorem hasOwner_run_iff {s s' : OrgState User} {actions : List (OrgAction User)}
    (howner : s.org.HasOwner) :
    Run (Guarded OrgStep fun _ _ after => after.org.HasOwner) s actions s' ↔
      Run (Guarded OrgStep fun before action _ => OwnerKept before action) s actions s' := by
  refine Run.guarded_congr (fun s => s.org.HasOwner) howner ?_ ?_
  · exact fun s action s' _ hstep h => hasOwner_step_iff hstep h
  · exact fun s action s' _ hstep hkept h => (hasOwner_step_iff hstep h).mpr hkept

/-- Two owners, 1 and 2, of the organization with account 0. -/
def twoOwners : Organization Nat where
  user := 0
  directory := ⟨fun _ => true, fun _ => false, fun user => user = 0, fun _ => [], fun _ => none⟩
  perms := ⟨(Role.ownerRole.permissions .organizationProfile).flatMap fun c => [(1, c), (2, c)], []⟩
  userProfile := ⟨[], []⟩
  teams
    | .owners => ⟨"school#Owners", [1, 2], [], by decide⟩
    | .members => ⟨"school#members", [0, 1, 2], [], by decide⟩
    | .other _ => ⟨"school#other", [], [], List.nodup_nil⟩
  projectOrg := []
  project _ := ⟨none, ⟨[], []⟩, [], []⟩
  forms := []

/-- The organization with two owners, and no requests. -/
def twoOwnersState : OrgState Nat := ⟨twoOwners, [], []⟩

theorem hasOwner_twoOwners : twoOwners.HasOwner :=
  ⟨1, Organization.mem_getOwners_iff.mp (by decide)⟩

/-- One of two owners may leave the Owners team. -/
theorem hasOwner_run_twoOwners :
    Run (Guarded OrgStep fun _ _ after => after.org.HasOwner) twoOwnersState
      [.deleteTeamMember .owners 1] ⟨twoOwners.removeUserFromTeam .owners 1, [], []⟩ := by
  refine (hasOwner_run_iff hasOwner_twoOwners).mpr (.cons ⟨rfl, Or.inl ⟨2, by decide, ?_⟩⟩ (.nil _))
  exact Organization.mem_getOwners_iff.mp (by decide)

/-- The removals of both owners are validated, each while the other one is there, and then
saved. -/
theorem not_hasOwner_run :
    ¬ ∀ (s s' : OrgState Nat) (actions : List (OrgAction Nat)), s.org.HasOwner →
        Run OrgStep s actions s' → s'.org.HasOwner := by
  intro h
  have hrun : Run OrgStep twoOwnersState
      [.validate ⟨some 1, none, true⟩, .validate ⟨some 2, none, true⟩, .save 0, .save 0]
      ⟨(twoOwners.removeMember 1).removeMember 2, [], []⟩ :=
    .cons rfl (.cons rfl (.cons rfl (.cons rfl (.nil _))))
  obtain ⟨owner, howner⟩ := h _ _ _ hasOwner_twoOwners hrun
  have hnone : ((twoOwners.removeMember 1).removeMember 2).getOwners = [] := by decide
  have hmem := Organization.mem_getOwners_iff.mpr howner
  rw [hnone] at hmem
  exact List.not_mem_nil hmem

end Onadata
