import Mathlib.Logic.Function.Iterate
import Onadata.Lib.Run
import Onadata.Libs.Models.ShareProject
import Onadata.Proofs.Libs.Models.MetaRoles

/-!
# `Onadata.Proofs.Libs.Models.ShareProject`: what sharing a project grants

One lemma for each call of `ShareCall` says where a form after the call comes from and what
became of its rows. `SharesBounded` is the invariant of the calls: the rows of a user on a form
are those of the role last shared, or of the role that the form's meta permissions give for it.
-/

set_option autoImplicit false

namespace Onadata.Proofs

open Onadata Onadata.Lib

/-! ### The role that the meta permissions give -/

/-- The kinds of the three roles are an editor's, a data-entry user's and a reader's. -/
def InOrder (metaPerms : MetaPerms) : Prop :=
  metaPerms.editor ∈ editorRole ∧ metaPerms.dataentry ∈ dataentryRole ∧
    metaPerms.readonly ∈ readonlyRole

/-- The permissions of a new form are in order. -/
theorem inOrder_default : InOrder defaultXformMetaPerms := by
  unfold InOrder
  decide

/-- The role that the meta permissions give for a shared one. -/
def roleFor (metaPerms : MetaPerms) (role : Role) : Role :=
  if role ∈ editorRole then metaPerms.editor
  else if role ∈ dataentryRole then metaPerms.dataentry
  else if role = .readOnlyRole then metaPerms.readonly
  else role

/-- The kinds of `roleFor`, for an editor or data-entry role. -/
def Limited (role : Role) : Prop :=
  role ∈ editorRole ∨ role ∈ dataentryRole

instance (role : Role) : Decidable (Limited role) :=
  inferInstanceAs (Decidable (_ ∨ _))

section MetaRole
variable {metaPerms : MetaPerms} {projectRole : Option (Option Role)} {role : Role}

theorem metaRole_editor (h : role ∈ editorRole) :
    metaRole metaPerms projectRole (some role) = some metaPerms.editor :=
  if_pos h

theorem metaRole_dataentry (h : role ∈ dataentryRole) :
    metaRole metaPerms projectRole (some role) = some metaPerms.dataentry := by
  have hnot : role ∉ editorRole := by
    revert h
    cases role <;> decide
  show (if role ∈ editorRole then _ else if role ∈ dataentryRole then _ else _) = _
  rw [if_neg hnot, if_pos h]

theorem metaRole_readonly (h : role ∈ readonlyRole)
    (hproject : projectRole = none ∨ projectRole = some (some .readOnlyRole)) :
    metaRole metaPerms projectRole (some role) = some metaPerms.readonly := by
  have hnot : role ∉ editorRole ∧ role ∉ dataentryRole := by
    revert h
    cases role <;> decide
  show (if role ∈ editorRole then _ else if role ∈ dataentryRole then _ else
    if role ∈ readonlyRole then _ else _) = _
  rw [if_neg hnot.1, if_neg hnot.2, if_pos h, if_pos hproject]

/-- Readers of a project with another project role, managers and owners keep their role. -/
theorem metaRole_kept (h : ¬ Limited role)
    (hproject : role ∈ readonlyRole →
      projectRole ≠ none ∧ projectRole ≠ some (some .readOnlyRole)) :
    metaRole metaPerms projectRole (some role) = none := by
  obtain ⟨heditor, hdataentry⟩ := not_or.mp h
  show (if role ∈ editorRole then _ else if role ∈ dataentryRole then _ else
    if role ∈ readonlyRole then _ else _) = _
  rw [if_neg heditor, if_neg hdataentry]
  by_cases hreadonly : role ∈ readonlyRole
  · rw [if_pos hreadonly, if_neg]
    exact not_or.mpr (hproject hreadonly)
  · rw [if_neg hreadonly]

end MetaRole

/-- The role that a share adds to a form with meta permissions. -/
theorem metaRole_shared {metaPerms : MetaPerms} {role r : Role}
    (hr : r = .readOnlyRole ↔ role = .readOnlyRole)
    (h : role ∉ [Role.readOnlyRoleNoDownload, Role.managerRole, Role.ownerRole]) :
    metaRole metaPerms (some (some r)) (some role) = some (roleFor metaPerms role) := by
  by_cases heditor : role ∈ editorRole
  · unfold roleFor
    rw [metaRole_editor heditor, if_pos heditor]
  by_cases hdataentry : role ∈ dataentryRole
  · unfold roleFor
    rw [metaRole_dataentry hdataentry, if_neg heditor, if_pos hdataentry]
  · have hreadonly : role = .readOnlyRole := by
      revert h heditor hdataentry
      cases role <;> decide
    unfold roleFor
    rw [metaRole_readonly (hreadonly ▸ by decide) (Or.inr (by rw [hr.mpr hreadonly])),
      if_neg heditor, if_neg hdataentry, if_pos hreadonly]

/-- A user with the project role `role` is given `roleFor` of it, when the form shows a role of
the same kind. -/
theorem metaRole_held {metaPerms metaPerms' : MetaPerms} {role held r : Role}
    (hr : r = .readOnlyRole ↔ role = .readOnlyRole)
    (hheld : held = role ∨ InOrder metaPerms ∧ held = roleFor metaPerms role) :
    (metaRole metaPerms' (some (some r)) (some held)).getD held = roleFor metaPerms' role := by
  have hsame : some (some r) = some (some Role.readOnlyRole) ↔ role = .readOnlyRole := by
    rw [Option.some_inj, Option.some_inj, hr]
  by_cases heditor : role ∈ editorRole
  · have hkind : held ∈ editorRole := by
      rcases hheld with rfl | ⟨⟨horder, -, -⟩, rfl⟩
      · exact heditor
      · unfold roleFor
        rw [if_pos heditor]
        exact horder
    unfold roleFor
    rw [metaRole_editor hkind, if_pos heditor]
    rfl
  by_cases hdataentry : role ∈ dataentryRole
  · have hkind : held ∈ dataentryRole := by
      rcases hheld with rfl | ⟨⟨-, horder, -⟩, rfl⟩
      · exact hdataentry
      · unfold roleFor
        rw [if_neg heditor, if_pos hdataentry]
        exact horder
    unfold roleFor
    rw [metaRole_dataentry hkind, if_neg heditor, if_pos hdataentry]
    rfl
  by_cases hreadonly : role = .readOnlyRole
  · have hkind : held ∈ readonlyRole := by
      rcases hheld with rfl | ⟨⟨-, -, horder⟩, rfl⟩
      · rw [hreadonly]
        decide
      · unfold roleFor
        rw [if_neg heditor, if_neg hdataentry, if_pos hreadonly]
        exact horder
    unfold roleFor
    rw [metaRole_readonly hkind (Or.inr (hsame.mpr hreadonly)), if_neg heditor, if_neg hdataentry,
      if_pos hreadonly]
    rfl
  · have hrole : ∀ metaPerms, roleFor metaPerms role = role := by
      intro metaPerms
      unfold roleFor
      rw [if_neg heditor, if_neg hdataentry, if_neg hreadonly]
    have hheld : held = role := by
      rcases hheld with heq | ⟨-, heq⟩
      · exact heq
      · rw [heq, hrole]
    rw [hrole, hheld, metaRole_kept (not_or.mpr ⟨heditor, hdataentry⟩)]
    · rfl
    · exact fun _ => ⟨(fun hnone => by cases hnone), fun hsome => hreadonly (hsame.mp hsome)⟩

/-! ### The forms after a call -/

section Forms
variable {User Team : Type} [DecidableEq User] [DecidableEq Team]

/-- Nothing of the form but its permission rows differs. -/
structure SameXform (form form' : SharedForm User Team) : Prop where
  pk : form'.pk = form.pk
  inProject : form'.inProject = form.inProject
  metaPerms : form'.metaPerms = form.metaPerms

omit [DecidableEq User] [DecidableEq Team]

/-- The loop over the dataviews makes the update to a form as often as a taken dataview is one
of it. -/
theorem mem_setDataviewPerms {taken : SharedDataview → Bool}
    {update : ObjectPermissions User Team → ObjectPermissions User Team}
    {dataviews : List SharedDataview} {form' : SharedForm User Team} :
    ∀ {forms : List (SharedForm User Team)},
      form' ∈ setDataviewPerms taken update dataviews forms →
      ∃ form ∈ forms, ∃ n, form' = { form with perms := update^[n] form.perms } ∧
        (n ≠ 0 → ∃ dataview ∈ dataviews, taken dataview = true ∧ dataview.xform = form.pk) := by
  induction dataviews with
  | nil =>
      intro forms h
      exact ⟨form', h, 0, rfl, fun hne => absurd rfl hne⟩
  | cons dataview dataviews ih =>
      intro forms h
      obtain ⟨form, hform, n, heq, htaken⟩ := ih h
      have hrest : n ≠ 0 → ∃ dv ∈ dataview :: dataviews, taken dv = true ∧ dv.xform = form.pk := by
        intro hn
        obtain ⟨dv, hdv, h⟩ := htaken hn
        exact ⟨dv, List.mem_cons_of_mem _ hdv, h⟩
      have hform : form ∈
          if taken dataview then setFormPerms update forms dataview.xform else forms := hform
      by_cases hfirst : taken dataview = true
      · rw [if_pos hfirst] at hform
        obtain ⟨before, hbefore, hset⟩ := List.mem_map.mp hform
        by_cases hpk : before.pk = dataview.xform
        · rw [if_pos hpk] at hset
          refine ⟨before, hbefore, n + 1, ?_, fun _ => ?_⟩
          · rw [heq, ← hset, Function.iterate_succ_apply]
          · exact ⟨dataview, List.mem_cons_self, hfirst, hpk.symm⟩
        · rw [if_neg hpk] at hset
          obtain rfl : before = form := hset
          exact ⟨before, hbefore, n, heq, hrest⟩
      · rw [if_neg hfirst] at hform
        exact ⟨form, hform, n, heq, hrest⟩

/-- What the update keeps, any number of updates keeps. -/
theorem iterate_keeps (update : ObjectPermissions User Team → ObjectPermissions User Team)
    (P : ObjectPermissions User Team → Prop) (hupdate : ∀ p, P p → P (update p)) (n : Nat)
    {p : ObjectPermissions User Team} (h : P p) : P (update^[n] p) := by
  induction n with
  | zero => exact h
  | succ n ih =>
      rw [Function.iterate_succ_apply']
      exact hupdate _ ih

/-- What the update brings about holds after one or more updates. -/
theorem iterate_brings (update : ObjectPermissions User Team → ObjectPermissions User Team)
    (P : ObjectPermissions User Team → Prop) (hupdate : ∀ p, P (update p)) {n : Nat} (hn : n ≠ 0)
    (p : ObjectPermissions User Team) : P (update^[n] p) := by
  obtain ⟨m, rfl⟩ := Nat.exists_eq_succ_of_ne_zero hn
  rw [Function.iterate_succ_apply']
  exact hupdate _

/-- A form of the loop over the project's forms. -/
theorem mem_mapForms {s : SharedProject User Team}
    {f : SharedForm User Team → SharedForm User Team} {form' : SharedForm User Team}
    (h : form' ∈ s.mapForms f) :
    ∃ form ∈ s.forms, form' = if form.inProject then f form else form := by
  obtain ⟨form, hform, heq⟩ := List.mem_map.mp h
  exact ⟨form, hform, heq.symm⟩

/-- A dataview of the project matches the form. -/
def Matched (s : SharedProject User Team) (pk : Nat) : Prop :=
  ∃ dataview ∈ s.dataviews, dataview.matchesParent = true ∧ dataview.xform = pk

instance (s : SharedProject User Team) (pk : Nat) : Decidable (Matched s pk) :=
  inferInstanceAs (Decidable (∃ dataview ∈ s.dataviews, _ ∧ _))

variable [DecidableEq User] [DecidableEq Team]
variable {accounts : Accounts User Team} {s : SharedProject User Team} {user : User}
  {team : Team} {role : Role} {form form' : SharedForm User Team}

/-- The round of `ShareProject.save` for a form: the user gets the role, or the one that the
meta permissions give for it. -/
theorem shareForm_spec {project : ObjectPermissions User Team}
    (hproject : HoldsRole .project project user role) :
    SameXform form (shareForm accounts project user role form) ∧
      (shareForm accounts project user role form).perms.groupPerms = form.perms.groupPerms ∧
      (∀ other, other ≠ user → ∀ c,
        (other, c) ∈ (shareForm accounts project user role form).perms.userPerms ↔
          (other, c) ∈ form.perms.userPerms) ∧
      ∃ held, HoldsRole .xform (shareForm accounts project user role form).perms user held ∧
        ((∃ metaPerms, form.metaPerms = some metaPerms ∧ held = roleFor metaPerms role) ∨
          held = role ∧ form.metaPerms = none) := by
  unfold shareForm
  by_cases hpass : form.metaPerms.isSome = true ∧
      role ∉ [Role.readOnlyRoleNoDownload, Role.managerRole, Role.ownerRole]
  · rw [if_pos hpass]
    obtain ⟨metaPerms, hmeta⟩ := Option.isSome_iff_exists.mp hpass.1
    obtain ⟨hpk, hin, hsame, hgroups⟩ :=
      @updateRoleByMetaXformPerms_frame _ _ _ accounts project form (some (user, role))
    obtain ⟨r, hr, hreadonly⟩ := get?_getProjectUsers hproject
    have hrole : metaRole metaPerms (Dict.get? (getProjectUsers project) user) (some role) =
        some (roleFor metaPerms role) := by
      rw [hr]
      exact metaRole_shared hreadonly hpass.2
    refine ⟨⟨hpk, hin, hsame⟩, hgroups, fun other hne c => ?_, roleFor metaPerms role, ?_, ?_⟩
    · show (other, c) ∈ (updateRoleByMetaXformPerms accounts project form _).perms.userPerms ↔ _
      rw [perms_update_one hmeta]
      exact mem_updateXformUser_of_ne hne c
    · show HoldsRole .xform (updateRoleByMetaXformPerms accounts project form _).perms user _
      rw [perms_update_one hmeta]
      unfold updateXformUser
      rw [hrole]
      exact holdsRole_add _ .xform user form.perms
    · exact Or.inl ⟨metaPerms, hmeta, rfl⟩
  · rw [if_neg hpass]
    refine ⟨⟨rfl, rfl, rfl⟩, rfl, fun other hne c => ?_, role, holdsRole_add role .xform user _,
      ?_⟩
    · show (other, c) ∈ (role.add .xform user form.perms).userPerms ↔ _
      rw [mem_userPerms_add, if_neg hne]
    · cases hmeta : form.metaPerms with
      | none => exact Or.inr ⟨rfl, rfl⟩
      | some metaPerms =>
          rw [hmeta] at hpass
          have hkept : role ∈ [Role.readOnlyRoleNoDownload, Role.managerRole, Role.ownerRole] :=
            Decidable.not_not.mp fun hnot => hpass ⟨rfl, hnot⟩
          refine Or.inl ⟨metaPerms, rfl, ?_⟩
          unfold roleFor
          rw [if_neg, if_neg, if_neg]
          all_goals
            revert hkept
            cases role <;> decide

/-- A form after a project is shared with a user. -/
theorem mem_forms_shareProject
    (h : form' ∈ (s.shareProject accounts user role false).forms) :
    ∃ form ∈ s.forms, SameXform form form' ∧ form'.perms.groupPerms = form.perms.groupPerms ∧
      (∀ other, other ≠ user → ∀ c,
        (other, c) ∈ form'.perms.userPerms ↔ (other, c) ∈ form.perms.userPerms) ∧
      (form.inProject = true → ∃ held, HoldsRole .xform form'.perms user held ∧
        ((∃ metaPerms, form.metaPerms = some metaPerms ∧ held = roleFor metaPerms role) ∨
          held = role ∧ (form.metaPerms = none ∨ Matched s form.pk))) := by
  obtain ⟨mid, hmid, n, rfl, hn⟩ := mem_setDataviewPerms h
  obtain ⟨form, hform, heq⟩ := mem_mapForms hmid
  have hgroups : ∀ p : ObjectPermissions User Team,
      ((role.add .xform user)^[n] p).groupPerms = p.groupPerms := fun p =>
    iterate_keeps (role.add .xform user)
      (fun q => q.groupPerms = p.groupPerms) (fun _ hq => hq) n rfl
  have hothers : ∀ (p : ObjectPermissions User Team) other, other ≠ user → ∀ c,
      (other, c) ∈ ((role.add .xform user)^[n] p).userPerms ↔ (other, c) ∈ p.userPerms :=
    fun p other hne => iterate_keeps (role.add .xform user)
      (fun q => ∀ c, (other, c) ∈ q.userPerms ↔ (other, c) ∈ p.userPerms)
      (fun q hq c => by rw [mem_userPerms_add, if_neg hne, hq]) n fun _ => Iff.rfl
  by_cases hin : form.inProject = true
  · rw [if_pos hin] at heq
    obtain ⟨hsame, hgroup, hother, held, hheld, hrole⟩ := @shareForm_spec _ _ _ _ accounts user
      role form _ (holdsRole_add role .project user s.perms)
    rw [← heq] at hsame hgroup hother hheld
    refine ⟨form, hform, ⟨hsame.pk, hsame.inProject, hsame.metaPerms⟩,
      (hgroups _).trans hgroup, fun other hne c => ?_, fun _ => ?_⟩
    · exact (hothers _ other hne c).trans (hother other hne c)
    · by_cases hzero : n = 0
      · subst hzero
        refine ⟨held, hheld, ?_⟩
        rcases hrole with hmeta | ⟨heq, hnone⟩
        · exact Or.inl hmeta
        · exact Or.inr ⟨heq, Or.inl hnone⟩
      · obtain ⟨dataview, hdataview, hmatches, hpk⟩ := hn hzero
        refine ⟨role, iterate_brings (role.add .xform user) (HoldsRole .xform · user role)
          (holdsRole_add role .xform user) hzero _, Or.inr ⟨rfl, ?_⟩⟩
        exact Or.inr ⟨dataview, hdataview, hmatches, hpk.trans hsame.pk⟩
  · rw [if_neg hin] at heq
    subst heq
    exact ⟨mid, hform, ⟨rfl, rfl, rfl⟩, hgroups _, hothers _, fun htrue => absurd htrue hin⟩

omit [DecidableEq Team] in
/-- A form after a user is removed from a project. -/
theorem mem_forms_removeUser (h : form' ∈ (s.shareProject accounts user role true).forms) :
    ∃ form ∈ s.forms, SameXform form form' ∧ form'.perms.groupPerms = form.perms.groupPerms ∧
      (∀ other, other ≠ user → ∀ c,
        (other, c) ∈ form'.perms.userPerms ↔ (other, c) ∈ form.perms.userPerms) := by
  obtain ⟨mid, hmid, n, rfl, -⟩ := mem_setDataviewPerms h
  obtain ⟨form, hform, heq⟩ := mem_mapForms hmid
  have hremoved : ∀ (p : ObjectPermissions User Team) other, other ≠ user → ∀ c,
      (other, c) ∈ (p.removeUserPermissions user).userPerms ↔ (other, c) ∈ p.userPerms := by
    intro p other hne c
    unfold ObjectPermissions.removeUserPermissions
    rw [List.mem_filter, decide_eq_true_eq]
    exact and_iff_left hne
  have hgroups : ((ObjectPermissions.removeUserPermissions · user)^[n] mid.perms).groupPerms =
      mid.perms.groupPerms :=
    iterate_keeps (·.removeUserPermissions user)
      (fun q => q.groupPerms = mid.perms.groupPerms) (fun _ hq => hq) n rfl
  have hothers : ∀ other, other ≠ user → ∀ c,
      (other, c) ∈ ((ObjectPermissions.removeUserPermissions · user)^[n] mid.perms).userPerms ↔
        (other, c) ∈ mid.perms.userPerms :=
    fun other hne => iterate_keeps (·.removeUserPermissions user)
      (fun q => ∀ c, (other, c) ∈ q.userPerms ↔ (other, c) ∈ mid.perms.userPerms)
      (fun q hq c => by rw [hremoved q other hne, hq]) n fun _ => Iff.rfl
  by_cases hin : form.inProject = true
  · rw [if_pos hin] at heq
    subst heq
    refine ⟨form, hform, ⟨rfl, rfl, rfl⟩, hgroups, fun other hne c => ?_⟩
    exact (hothers other hne c).trans (hremoved _ other hne c)
  · rw [if_neg hin] at heq
    subst heq
    exact ⟨mid, hform, ⟨rfl, rfl, rfl⟩, hgroups, hothers⟩

/-- A form after a project is shared with a team. -/
theorem mem_forms_shareTeamProject
    (h : form' ∈ (s.shareTeamProject accounts team role false).forms) :
    ∃ form ∈ s.forms, SameXform form form' ∧
      (∀ other, other ≠ team → ∀ c,
        (other, c) ∈ form'.perms.groupPerms ↔ (other, c) ∈ form.perms.groupPerms) ∧
      (form.inProject = true → TeamHoldsRole .xform form'.perms team role) ∧
      form'.perms.userPerms = (if form.inProject then
        shareTeamForm accounts (role.addGroup .project team s.perms) team role form
        else form).perms.userPerms := by
  obtain ⟨mid, hmid, n, rfl, -⟩ := mem_setDataviewPerms h
  obtain ⟨form, hform, heq⟩ := mem_mapForms hmid
  have husers : ((role.addGroup .xform team)^[n] mid.perms).userPerms = mid.perms.userPerms :=
    iterate_keeps (role.addGroup .xform team)
      (fun q => q.userPerms = mid.perms.userPerms) (fun _ hq => hq) n rfl
  have hothers : ∀ other, other ≠ team → ∀ c,
      (other, c) ∈ ((role.addGroup .xform team)^[n] mid.perms).groupPerms ↔
        (other, c) ∈ mid.perms.groupPerms :=
    fun other hne => iterate_keeps (role.addGroup .xform team)
      (fun q => ∀ c, (other, c) ∈ q.groupPerms ↔ (other, c) ∈ mid.perms.groupPerms)
      (fun q hq c => by rw [mem_groupPerms_addGroup_of_ne _ _ _ _ _ _ hne, hq]) n fun _ => Iff.rfl
  have hteam : TeamHoldsRole .xform mid.perms team role →
      TeamHoldsRole .xform ((role.addGroup .xform team)^[n] mid.perms) team role :=
    iterate_keeps (role.addGroup .xform team)
      (fun q => TeamHoldsRole .xform q team role)
      (fun q _ => teamHoldsRole_addGroup role .xform team q) n
  by_cases hin : form.inProject = true
  · rw [if_pos hin] at heq
    obtain ⟨hpk, hproject, hmeta, hgroups⟩ := @updateRoleByMetaXformPerms_frame _ _ _ accounts
      (role.addGroup .project team s.perms)
      { form with perms := role.addGroup .xform team form.perms } none
    have hrows : mid.perms.groupPerms = (role.addGroup .xform team form.perms).groupPerms := by
      rw [heq]
      exact hgroups
    refine ⟨form, hform, ?_, fun other hne c => ?_, fun _ => hteam fun c => ?_, ?_⟩
    · rw [heq]
      exact ⟨hpk, hproject, hmeta⟩
    · rw [hothers other hne, hrows]
      exact mem_groupPerms_addGroup_of_ne role .xform team other form.perms c hne
    · rw [hrows]
      exact teamHoldsRole_addGroup role .xform team form.perms c
    · rw [if_pos hin, ← heq]
      exact husers
  · rw [if_neg hin] at heq
    subst heq
    refine ⟨mid, hform, ⟨rfl, rfl, rfl⟩, hothers, fun htrue => absurd htrue hin, ?_⟩
    rw [if_neg hin]
    exact husers

/-- A form after a team is removed from a project. -/
theorem mem_forms_removeTeam (h : form' ∈ (s.shareTeamProject accounts team role true).forms) :
    ∃ form ∈ s.forms, SameXform form form' ∧ form'.perms.userPerms = form.perms.userPerms := by
  obtain ⟨mid, hmid, n, rfl, -⟩ := mem_setDataviewPerms h
  obtain ⟨form, hform, heq⟩ := mem_mapForms hmid
  have husers : ((ObjectPermissions.removeGroupPermissions · team)^[n] mid.perms).userPerms =
      mid.perms.userPerms :=
    iterate_keeps (·.removeGroupPermissions team)
      (fun q => q.userPerms = mid.perms.userPerms) (fun _ hq => hq) n rfl
  refine ⟨form, hform, ?_, husers.trans ?_⟩
  all_goals
    rw [heq]
    split
  · exact ⟨rfl, rfl, rfl⟩
  · exact ⟨rfl, rfl, rfl⟩
  · rfl
  · rfl

end Forms

/-! ### A run of calls -/

section Runs
variable {User Team : Type} [DecidableEq User]

/-- The role last shared with each user, none after a removal. -/
def noteShared (shared : User → Option Role) : ShareCall User Team → User → Option Role
  | .shareProject user role remove =>
      Function.update shared user (if remove then none else some role)
  | _ => shared

/-- The role last shared with each user in a run. -/
def lastShared (calls : List (ShareCall User Team)) : User → Option Role :=
  calls.foldl noteShared fun _ => none

variable [DecidableEq Team]

/-- The invariant of the calls: the rows of a user are those of the role last shared, or of
the role that the meta permissions of the form give for it. -/
structure SharesBounded (s : SharedProject User Team) (shared : User → Option Role) : Prop where
  project : ∀ user role, shared user = some role → HoldsRole .project s.perms user role
  forms : ∀ user role, shared user = some role → ∀ form ∈ s.forms, form.inProject = true →
    ∃ held, HoldsRole .xform form.perms user held ∧
      (held = role ∨ ∃ metaPerms, form.metaPerms = some metaPerms ∧ held = roleFor metaPerms role)
  inOrder : ∀ form ∈ s.forms, form.inProject = true → ∀ metaPerms,
    form.metaPerms = some metaPerms → InOrder metaPerms

section Steps
variable {accounts : Accounts User Team} {s : SharedProject User Team}
  {shared : User → Option Role}

/-- A pass over the users of a form keeps the bound, whatever order the old and the new meta
permissions are in. -/
theorem bounded_pass {project : ObjectPermissions User Team} {form : SharedForm User Team}
    {metaPerms metaPerms' : MetaPerms} {user : User} {role held : Role}
    (hproject : HoldsRole .project project user role)
    (hmeta : form.metaPerms = some metaPerms') (h : HoldsRole .xform form.perms user held)
    (hheld : held = role ∨ InOrder metaPerms ∧ held = roleFor metaPerms role) :
    HoldsRole .xform (updateRoleByMetaXformPerms accounts project form none).perms user
      (roleFor metaPerms' role) := by
  obtain ⟨r, hr, hreadonly⟩ := get?_getProjectUsers hproject
  have hpass := @holdsRole_pass _ _ _ _ accounts project form _ _ _ hmeta h
  rw [hr, metaRole_held hreadonly hheld] at hpass
  exact hpass

/-- A share keeps the bound. -/
theorem bounded_share (h : SharesBounded s shared) (user : User) (role : Role) :
    SharesBounded (s.shareProject accounts user role false)
      (Function.update shared user (some role)) := by
  refine ⟨fun other given hother => ?_, fun other given hother form' hform' hin => ?_, ?_⟩
  · by_cases heq : other = user
    · subst heq
      rw [Function.update_self] at hother
      obtain rfl := Option.some_inj.mp hother
      exact holdsRole_add role .project other s.perms
    · rw [Function.update_of_ne heq] at hother
      intro c
      show (other, c) ∈ (role.add .project user s.perms).userPerms ↔ _
      rw [mem_userPerms_add, if_neg heq]
      exact h.project other given hother c
  · obtain ⟨form, hform, hsame, -, hothers, hshared⟩ := mem_forms_shareProject hform'
    rw [hsame.inProject] at hin
    by_cases heq : other = user
    · subst heq
      rw [Function.update_self] at hother
      obtain rfl := Option.some_inj.mp hother
      obtain ⟨held, hheld, hrole⟩ := hshared hin
      refine ⟨held, hheld, ?_⟩
      rcases hrole with hmeta | ⟨heq, -⟩
      · rw [hsame.metaPerms]
        exact Or.inr hmeta
      · exact Or.inl heq
    · rw [Function.update_of_ne heq] at hother
      obtain ⟨held, hheld, hrole⟩ := h.forms other given hother form hform hin
      refine ⟨held, fun c => (hothers other heq c).trans (hheld c), ?_⟩
      rw [hsame.metaPerms]
      exact hrole
  · intro form' hform' hin
    obtain ⟨form, hform, hsame, -⟩ := mem_forms_shareProject hform'
    rw [hsame.metaPerms]
    exact h.inOrder form hform (hsame.inProject ▸ hin)

omit [DecidableEq Team] in
/-- A removal keeps the bound for the other users. -/
theorem bounded_remove (h : SharesBounded s shared) (user : User) (role : Role) :
    SharesBounded (s.shareProject accounts user role true)
      (Function.update shared user none) := by
  have hne : ∀ other given, Function.update shared user none other = some given →
      other ≠ user ∧ shared other = some given := by
    intro other given hother
    by_cases heq : other = user
    · rw [heq, Function.update_self] at hother
      cases hother
    · rw [Function.update_of_ne heq] at hother
      exact ⟨heq, hother⟩
  refine ⟨fun other given hother c => ?_, fun other given hother form' hform' hin => ?_, ?_⟩
  · obtain ⟨heq, hother⟩ := hne other given hother
    show (other, c) ∈ s.perms.userPerms.filter (fun row => row.1 ≠ user) ↔ _
    rw [List.mem_filter, decide_eq_true_eq]
    exact (and_iff_left heq).trans (h.project other given hother c)
  · obtain ⟨heq, hother⟩ := hne other given hother
    obtain ⟨form, hform, hsame, -, hothers⟩ := mem_forms_removeUser hform'
    obtain ⟨held, hheld, hrole⟩ :=
      h.forms other given hother form hform (hsame.inProject ▸ hin)
    refine ⟨held, fun c => (hothers other heq c).trans (hheld c), ?_⟩
    rw [hsame.metaPerms]
    exact hrole
  · intro form' hform' hin
    obtain ⟨form, hform, hsame, -⟩ := mem_forms_removeUser hform'
    rw [hsame.metaPerms]
    exact h.inOrder form hform (hsame.inProject ▸ hin)

/-- A share with a team keeps the bound. -/
theorem bounded_shareTeam (h : SharesBounded s shared) (team : Team) (role : Role) :
    SharesBounded (s.shareTeamProject accounts team role false) shared := by
  refine ⟨h.project, fun user given huser form' hform' hin => ?_, ?_⟩
  · obtain ⟨form, hform, hsame, -, -, hrows⟩ := mem_forms_shareTeamProject hform'
    rw [hsame.inProject] at hin
    rw [if_pos hin] at hrows
    obtain ⟨held, hheld, hrole⟩ := h.forms user given huser form hform hin
    unfold HoldsRole
    rw [hsame.metaPerms, hrows]
    cases hmeta : form.metaPerms with
    | none =>
        refine ⟨held, ?_, ?_⟩
        · unfold shareTeamForm
          rw [@updateRoleByMetaXformPerms_of_none _ _ _ accounts _
            { form with perms := role.addGroup .xform team form.perms } hmeta none]
          exact hheld
        · rw [hmeta] at hrole
          exact hrole
    | some metaPerms =>
        have horder := h.inOrder form hform hin metaPerms hmeta
        refine ⟨roleFor metaPerms given, ?_, Or.inr ⟨metaPerms, rfl, rfl⟩⟩
        refine @bounded_pass _ _ _ _ _ _
          { form with perms := role.addGroup .xform team form.perms } metaPerms metaPerms _ given
          held (h.project user given huser) hmeta hheld ?_
        rcases hrole with heq | ⟨metaPerms', hmeta', heq⟩
        · exact Or.inl heq
        · obtain rfl := Option.some_inj.mp (hmeta.symm.trans hmeta')
          exact Or.inr ⟨horder, heq⟩
  · intro form' hform' hin
    obtain ⟨form, hform, hsame, -⟩ := mem_forms_shareTeamProject hform'
    rw [hsame.metaPerms]
    exact h.inOrder form hform (hsame.inProject ▸ hin)

/-- A removal of a team keeps the bound. -/
theorem bounded_removeTeam (h : SharesBounded s shared) (team : Team) (role : Role) :
    SharesBounded (s.shareTeamProject accounts team role true) shared := by
  refine ⟨h.project, fun user given huser form' hform' hin => ?_, ?_⟩
  · obtain ⟨form, hform, hsame, hrows⟩ := mem_forms_removeTeam hform'
    unfold HoldsRole
    rw [hsame.metaPerms, hrows]
    exact h.forms user given huser form hform (hsame.inProject ▸ hin)
  · intro form' hform' hin
    obtain ⟨form, hform, hsame, -⟩ := mem_forms_removeTeam hform'
    rw [hsame.metaPerms]
    exact h.inOrder form hform (hsame.inProject ▸ hin)

/-- New meta permissions keep the bound, which is theirs afterwards. -/
theorem bounded_createMeta (h : SharesBounded s shared) (pk : Nat) {metaPerms : MetaPerms}
    (horder : InOrder metaPerms) :
    SharesBounded (s.createXformMetaPermissions accounts pk metaPerms) shared := by
  have hform' : ∀ form' ∈ (s.createXformMetaPermissions accounts pk metaPerms).forms,
      form' ∈ s.forms ∨ ∃ form ∈ s.forms, form.inProject = true ∧
        form' = updateRoleByMetaXformPerms accounts s.perms
          { form with metaPerms := some metaPerms } none := by
    intro form' hmem
    obtain ⟨form, hform, rfl⟩ := mem_mapForms hmem
    by_cases hin : form.inProject = true
    · rw [if_pos hin]
      split
      · exact Or.inr ⟨form, hform, hin, rfl⟩
      · exact Or.inl hform
    · rw [if_neg hin]
      exact Or.inl hform
  refine ⟨h.project, fun user given huser form' hmem hin => ?_, fun form' hmem hin => ?_⟩
  · rcases hform' form' hmem with hold | ⟨form, hform, hformIn, rfl⟩
    · exact h.forms user given huser form' hold hin
    · obtain ⟨held, hheld, hrole⟩ := h.forms user given huser form hform hformIn
      obtain ⟨-, -, hmeta, -⟩ := @updateRoleByMetaXformPerms_frame _ _ _ accounts s.perms
        { form with metaPerms := some metaPerms } none
      refine ⟨roleFor metaPerms given, ?_, Or.inr ⟨metaPerms, hmeta, rfl⟩⟩
      rcases hrole with heq | ⟨before, hbefore, heq⟩
      · exact @bounded_pass _ _ _ _ _ _ { form with metaPerms := some metaPerms } metaPerms
          metaPerms _ given held (h.project user given huser) rfl hheld (Or.inl heq)
      · exact @bounded_pass _ _ _ _ _ _ { form with metaPerms := some metaPerms } before
          metaPerms _ given held (h.project user given huser) rfl hheld
          (Or.inr ⟨h.inOrder form hform hformIn before hbefore, heq⟩)
  · rcases hform' form' hmem with hold | ⟨form, hform, hformIn, rfl⟩
    · exact h.inOrder form' hold hin
    · obtain ⟨-, -, hmeta, -⟩ := @updateRoleByMetaXformPerms_frame _ _ _ accounts s.perms
        { form with metaPerms := some metaPerms } none
      intro metaPerms' hsome
      rw [hmeta] at hsome
      exact Option.some_inj.mp hsome ▸ horder

/-- Each call keeps the bound. -/
theorem bounded_call (h : SharesBounded s shared) (call : ShareCall User Team)
    (horder : ∀ pk metaPerms, call = .createXformMetaPermissions pk metaPerms →
      InOrder metaPerms) :
    SharesBounded (s.call accounts call) (noteShared shared call) := by
  cases call with
  | shareProject user role remove =>
      cases remove with
      | false => exact bounded_share h user role
      | true => exact bounded_remove h user role
  | shareTeamProject team role remove =>
      cases remove with
      | false => exact bounded_shareTeam h team role
      | true => exact bounded_removeTeam h team role
  | createXformMetaPermissions pk metaPerms =>
      exact bounded_createMeta h pk (horder pk metaPerms rfl)

end Steps

/-- The calls of a run keep the bound. -/
theorem bounded_run (accounts : Accounts User Team) (calls : List (ShareCall User Team)) :
    ∀ {s : SharedProject User Team} {shared : User → Option Role}, SharesBounded s shared →
      (∀ pk metaPerms, .createXformMetaPermissions pk metaPerms ∈ calls → InOrder metaPerms) →
        SharesBounded (calls.foldl (SharedProject.call accounts) s)
          (calls.foldl noteShared shared) := by
  induction calls with
  | nil => exact fun h _ => h
  | cons call calls ih =>
      intro s shared h horder
      refine ih (bounded_call h call fun pk metaPerms hcall => ?_) fun pk metaPerms hmem => ?_
      · exact horder pk metaPerms (hcall ▸ List.mem_cons_self)
      · exact horder pk metaPerms (List.mem_cons_of_mem _ hmem)

/-- The role of the meta permissions for a role that is no editor's and no data-entry user's
grants no more than the role. -/
theorem mem_of_mem_roleFor {metaPerms : MetaPerms} {role : Role} (horder : InOrder metaPerms)
    (h : ¬ Limited role) {c : Codename} (hc : c ∈ (roleFor metaPerms role).permissions .xform) :
    c ∈ role.permissions .xform := by
  obtain ⟨heditor, hdataentry⟩ := not_or.mp h
  unfold roleFor at hc
  rw [if_neg heditor, if_neg hdataentry] at hc
  split at hc
  · rename_i hreadonly
    have hall : ∀ reader ∈ readonlyRole, ∀ c ∈ reader.permissions .xform,
        c ∈ Role.readOnlyRole.permissions .xform := by decide
    rw [hreadonly]
    exact hall _ horder.2.2 c hc
  · exact hc

/-- A new form in a project that nobody shares. -/
def newForm (metaPerms : MetaPerms) : SharedProject Nat Nat where
  perms := ⟨[], []⟩
  forms := [{ pk := 1, metaPerms := some metaPerms, perms := ⟨[], []⟩ }]
  dataviews := []
  entityLists := []

end Runs

end Onadata.Proofs
