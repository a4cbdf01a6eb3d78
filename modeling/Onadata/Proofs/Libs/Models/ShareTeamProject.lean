import Onadata.Proofs.Libs.Models.ShareProject

/-!
# `Onadata.Proofs.Libs.Models.ShareTeamProject`: meta permissions and teams

The users with one project role, that of an editor or of a data-entry user, hold on a form with
meta permissions no more than the role that these give for it, in every run of shares whose
steps meet `KeepsMeta`. `SharedEvenly` is the invariant: each team holds its project role on the
forms, and each user the role of the meta permissions.
-/

set_option autoImplicit false

namespace Onadata.Proofs

open Onadata Onadata.Lib

variable {User Team : Type}

/-- The project roles of the users and of the teams. -/
structure GivenRoles (User Team : Type) where
  users : User → Option Role
  teams : Team → Option Role

/-- `role` is the only role of the user on the project. -/
structure OnlyRole (given : GivenRoles User Team) (members : Team → List User) (user : User)
    (role : Role) : Prop where
  direct : ∀ r, given.users user = some r → r = role
  teams : ∀ team, user ∈ members team → ∀ r, given.teams team = some r → r = role
  held : given.users user = some role ∨ ∃ team, user ∈ members team ∧ given.teams team = some role

/-- What the claim says of a state. -/
def MetaBinds (accounts : Accounts User Team) (s : SharedProject User Team)
    (given : GivenRoles User Team) : Prop :=
  ∀ user role, OnlyRole given accounts.members user role → Limited role →
    ∀ form ∈ s.forms, form.inProject = true → ∀ metaPerms, form.metaPerms = some metaPerms →
      ∀ c, HoldsOn form.perms accounts.members user c → c ∈ (roleFor metaPerms role).permissions .xform

/-- The role grants no more on a form than the one that the meta permissions give for it. -/
def Within (metaPerms : MetaPerms) (role : Role) : Prop :=
  ∀ c ∈ role.permissions .xform, c ∈ (roleFor metaPerms role).permissions .xform

/-- A pass over the users of a form leaves the roles that the meta permissions give. -/
def SettledMeta (metaPerms : MetaPerms) : Prop :=
  ∀ role, Limited role → ∀ new, metaRole metaPerms none (some (roleFor metaPerms role)) = some new →
    new = roleFor metaPerms role

/-- The user has no rows, or those of `role`. -/
def HoldsAtMost (p : ObjectPermissions User Team) (user : User) (role : Role) : Prop :=
  HoldsNothing p user ∨ HoldsRole .xform p user role

/-- The condition on a call, in the state before it. A role that is shared with a user is within
the meta permissions of the forms with a matching dataview. For a team the meta permissions of
all forms leave the roles that they give, and if the role is an editor's or a data-entry user's
it is within them, and the members without a project role of their own hold nothing else. -/
def KeepsMeta (accounts : Accounts User Team) (s : SharedProject User Team) :
    ShareCall User Team → Prop
  | .shareProject _ role _ =>
      Limited role → ∀ form ∈ s.forms, form.inProject = true → ∀ metaPerms,
        form.metaPerms = some metaPerms → Matched s form.pk → Within metaPerms role
  | .shareTeamProject team role _ =>
      ∀ form ∈ s.forms, form.inProject = true → ∀ metaPerms, form.metaPerms = some metaPerms →
        SettledMeta metaPerms ∧ (Limited role → Within metaPerms role ∧
          ∀ user ∈ accounts.members team, HoldsNothing s.perms user →
            HoldsAtMost form.perms user (roleFor metaPerms role))
  | .createXformMetaPermissions _ _ => True

/-- The call shares the project. -/
def IsShare : ShareCall User Team → Prop
  | .shareProject _ _ remove => remove = false
  | .shareTeamProject _ _ remove => remove = false
  | .createXformMetaPermissions _ _ => False

/-- The invariant: the project roles are those given, the teams hold theirs on the forms, and
the users hold what the meta permissions give for theirs. -/
structure SharedEvenly (accounts : Accounts User Team) (s : SharedProject User Team)
    (given : GivenRoles User Team) : Prop where
  project : ∀ user role, given.users user = some role → HoldsRole .project s.perms user role
  others : ∀ user, given.users user = none → HoldsNothing s.perms user
  teams : ∀ form ∈ s.forms, form.inProject = true → ∀ team c,
    (team, c) ∈ form.perms.groupPerms ↔
      ∃ role, given.teams team = some role ∧ c ∈ role.permissions .xform
  within : ∀ form ∈ s.forms, form.inProject = true → ∀ metaPerms,
    form.metaPerms = some metaPerms → ∀ team role, given.teams team = some role →
      Limited role → Within metaPerms role
  users : ∀ form ∈ s.forms, form.inProject = true → ∀ metaPerms,
    form.metaPerms = some metaPerms → ∀ user role, given.users user = some role →
      Limited role → ∃ held, HoldsRole .xform form.perms user held ∧
        (held = roleFor metaPerms role ∨ held = role ∧ Within metaPerms role)
  members : ∀ form ∈ s.forms, form.inProject = true → ∀ metaPerms,
    form.metaPerms = some metaPerms → ∀ user role, OnlyRole given accounts.members user role →
      given.users user = none → Limited role →
        HoldsAtMost form.perms user (roleFor metaPerms role)

section Bound
variable {accounts : Accounts User Team} {s : SharedProject User Team}
  {given : GivenRoles User Team}

/-- The meta permissions bind in the states of the invariant. -/
theorem metaBinds_of_sharedEvenly (h : SharedEvenly accounts s given) :
    MetaBinds accounts s given := by
  intro user role honly hlimited form hform hin metaPerms hmeta c hc
  rcases hc with hdirect | ⟨team, hmember, hrow⟩
  · cases huser : given.users user with
    | none =>
        rcases h.members form hform hin metaPerms hmeta user role honly huser hlimited with
          hnothing | hheld
        · exact absurd hdirect (hnothing c)
        · exact (hheld c).mp hdirect
    | some r =>
        obtain rfl := honly.direct r huser
        obtain ⟨held, hheld, rfl | ⟨rfl, hwithin⟩⟩ :=
          h.users form hform hin metaPerms hmeta user r huser hlimited
        · exact (hheld c).mp hdirect
        · exact hwithin c ((hheld c).mp hdirect)
  · obtain ⟨r, hteam, hmem⟩ := (h.teams form hform hin team c).mp hrow
    obtain rfl := honly.teams team hmember r hteam
    exact h.within form hform hin metaPerms hmeta team r hteam hlimited c hmem

end Bound

/-- The role that the meta permissions give for a limited one. -/
theorem metaRole_limited {metaPerms : MetaPerms} {projectRole : Option (Option Role)}
    {role : Role} (h : Limited role) :
    metaRole metaPerms projectRole (some role) = some (roleFor metaPerms role) := by
  by_cases heditor : role ∈ editorRole
  · unfold roleFor
    rw [metaRole_editor heditor, if_pos heditor]
  · have hdataentry : role ∈ dataentryRole := h.resolve_left heditor
    unfold roleFor
    rw [metaRole_dataentry hdataentry, if_neg heditor, if_pos hdataentry]

/-- The project role counts only against a change. -/
theorem metaRole_eq_none_or {metaPerms : MetaPerms} {projectRole : Option (Option Role)}
    {held : Role} :
    metaRole metaPerms projectRole (some held) = none ∨
      metaRole metaPerms projectRole (some held) = metaRole metaPerms none (some held) := by
  by_cases hlimited : Limited held
  · right
    rw [metaRole_limited hlimited, metaRole_limited hlimited]
  by_cases hchanged : held ∈ readonlyRole →
      projectRole ≠ none ∧ projectRole ≠ some (some .readOnlyRole)
  · exact Or.inl (metaRole_kept hlimited hchanged)
  · obtain ⟨hreadonly, hproject⟩ := Classical.not_imp.mp hchanged
    have hproject : projectRole = none ∨ projectRole = some (some .readOnlyRole) := by
      by_contra hnot
      exact hproject (not_or.mp hnot)
    right
    rw [metaRole_readonly hreadonly hproject, metaRole_readonly hreadonly (Or.inl rfl)]

/-- With settled meta permissions a pass gives the role of the meta permissions, to those who
have it and to those who have the role itself. -/
theorem metaRole_settled {metaPerms : MetaPerms} {projectRole : Option (Option Role)}
    {role held : Role} (hsettled : SettledMeta metaPerms) (hlimited : Limited role)
    (hheld : held = roleFor metaPerms role ∨ held = role) :
    (metaRole metaPerms projectRole (some held)).getD held = roleFor metaPerms role := by
  rcases hheld with rfl | rfl
  · rcases @metaRole_eq_none_or metaPerms projectRole (roleFor metaPerms role) with hnone | hsame
    · rw [hnone]
      rfl
    · rw [hsame]
      cases hnew : metaRole metaPerms none (some (roleFor metaPerms role)) with
      | none => rfl
      | some new => exact hsettled role hlimited new hnew
  · rw [metaRole_limited hlimited]
    rfl

/-- Meta permissions in order are settled. -/
theorem settled_of_inOrder {metaPerms : MetaPerms} (h : InOrder metaPerms) :
    SettledMeta metaPerms := by
  obtain ⟨heditor, hdataentry, -⟩ := h
  intro role hlimited new hnew
  unfold roleFor at hnew ⊢
  by_cases hrole : role ∈ editorRole
  · rw [if_pos hrole, metaRole_editor heditor] at hnew
    rw [if_pos hrole]
    exact (Option.some_inj.mp hnew).symm
  · have hentry : role ∈ dataentryRole := hlimited.resolve_left hrole
    rw [if_neg hrole, if_pos hentry, metaRole_dataentry hdataentry] at hnew
    rw [if_neg hrole, if_pos hentry]
    exact (Option.some_inj.mp hnew).symm

variable [DecidableEq User]

/-- The role that a user without own rows has through teams that hold their project roles. -/
theorem getRole_of_onlyRole {p : ObjectPermissions User Team} {given : GivenRoles User Team}
    {members : Team → List User} {user : User} {role : Role}
    (honly : OnlyRole given members user role) (huser : given.users user = none)
    (hnothing : HoldsNothing p user)
    (hteams : ∀ team c, (team, c) ∈ p.groupPerms ↔
      ∃ r, given.teams team = some r ∧ c ∈ r.permissions .xform) :
    getRole (getPerms p members user) .xform = some role := by
  refine getRole_xform fun c => ?_
  have hmem : c ∈ getPerms p members user ↔
      ∃ team, user ∈ members team ∧ (team, c) ∈ p.groupPerms := by
    unfold getPerms
    rw [List.mem_append]
    simp only [List.mem_map, List.mem_filter, decide_eq_true_eq]
    constructor
    · rintro (⟨⟨user', c'⟩, ⟨hrow, rfl⟩, rfl⟩ | ⟨⟨team, c'⟩, ⟨hrow, hmember⟩, rfl⟩)
      · exact absurd hrow (hnothing _)
      · exact ⟨team, hmember, hrow⟩
    · intro ⟨team, hmember, hrow⟩
      exact Or.inr ⟨(team, c), ⟨hrow, hmember⟩, rfl⟩
  rw [hmem]
  constructor
  · intro ⟨team, hmember, hrow⟩
    obtain ⟨r, hr, hc⟩ := (hteams team c).mp hrow
    exact honly.teams team hmember r hr ▸ hc
  · intro hc
    rcases honly.held with hdirect | ⟨team, hmember, hr⟩
    · cases huser.symm.trans hdirect
    · exact ⟨team, hmember, (hteams team c).mpr ⟨role, hr, hc⟩⟩

variable [DecidableEq Team]

/-- The roles given after a share. -/
def noteGiven (given : GivenRoles User Team) : ShareCall User Team → GivenRoles User Team
  | .shareProject user role _ => { given with users := Function.update given.users user (some role) }
  | .shareTeamProject team role _ =>
      { given with teams := Function.update given.teams team (some role) }
  | .createXformMetaPermissions _ _ => given

/-- A call as a step. -/
def CallStep (accounts : Accounts User Team) (s : SharedProject User Team)
    (call : ShareCall User Team) (s' : SharedProject User Team) : Prop :=
  s' = s.call accounts call

section Steps
variable {accounts : Accounts User Team} {s : SharedProject User Team}
  {given : GivenRoles User Team}

/-- A share with a user keeps the invariant. -/
theorem evenly_shareProject (h : SharedEvenly accounts s given) (user : User) (role : Role)
    (hkeeps : KeepsMeta accounts s (.shareProject user role false)) :
    SharedEvenly accounts (s.shareProject accounts user role false)
      (noteGiven given (.shareProject user role false)) := by
  have hself : (noteGiven given (.shareProject user role false)).users user = some role :=
    Function.update_self ..
  have hne : ∀ other, other ≠ user →
      (noteGiven given (.shareProject user role false)).users other = given.users other :=
    fun other hother => Function.update_of_ne hother ..
  have hproject : ∀ other, other ≠ user → ∀ c,
      (other, c) ∈ (s.shareProject accounts user role false).perms.userPerms ↔
        (other, c) ∈ s.perms.userPerms := by
    intro other hother c
    show (other, c) ∈ (role.add .project user s.perms).userPerms ↔ _
    rw [mem_userPerms_add, if_neg hother]
  refine ⟨fun other r hr => ?_, fun other hr => ?_, ?_, ?_, ?_, ?_⟩
  · by_cases heq : other = user
    · subst heq
      obtain rfl := Option.some_inj.mp (hself.symm.trans hr)
      exact holdsRole_add role .project other s.perms
    · rw [hne other heq] at hr
      exact fun c => (hproject other heq c).trans (h.project other r hr c)
  · have heq : other ≠ user := by
      rintro rfl
      cases hself.symm.trans hr
    rw [hne other heq] at hr
    exact fun c hc => h.others other hr c ((hproject other heq c).mp hc)
  · intro form' hform' hin team c
    obtain ⟨form, hform, hsame, hgroups, -⟩ := mem_forms_shareProject hform'
    rw [hgroups]
    exact h.teams form hform (hsame.inProject ▸ hin) team c
  · intro form' hform' hin metaPerms hmeta
    obtain ⟨form, hform, hsame, -⟩ := mem_forms_shareProject hform'
    exact h.within form hform (hsame.inProject ▸ hin) metaPerms (hsame.metaPerms ▸ hmeta)
  · intro form' hform' hin metaPerms hmeta other r hr hlimited
    obtain ⟨form, hform, hsame, -, hothers, hshared⟩ := mem_forms_shareProject hform'
    rw [hsame.inProject] at hin
    rw [hsame.metaPerms] at hmeta
    by_cases heq : other = user
    · subst heq
      obtain rfl := Option.some_inj.mp (hself.symm.trans hr)
      obtain ⟨held, hheld, ⟨metaPerms', hmeta', heq⟩ | ⟨heq, hnone | hmatched⟩⟩ := hshared hin
      · obtain rfl := Option.some_inj.mp (hmeta.symm.trans hmeta')
        exact ⟨held, hheld, Or.inl heq⟩
      · cases hnone.symm.trans hmeta
      · exact ⟨held, hheld, Or.inr ⟨heq, hkeeps hlimited form hform hin metaPerms hmeta hmatched⟩⟩
    · rw [hne other heq] at hr
      obtain ⟨held, hheld, hrole⟩ :=
        h.users form hform hin metaPerms hmeta other r hr hlimited
      exact ⟨held, fun c => (hothers other heq c).trans (hheld c), hrole⟩
  · intro form' hform' hin metaPerms hmeta other r honly hr hlimited
    obtain ⟨form, hform, hsame, -, hothers, -⟩ := mem_forms_shareProject hform'
    have heq : other ≠ user := by
      rintro rfl
      cases hself.symm.trans hr
    rw [hne other heq] at hr
    have hbefore : OnlyRole given accounts.members other r := by
      refine ⟨fun r' hr' => ?_, honly.teams, ?_⟩
      · rw [hr] at hr'
        cases hr'
      · rcases honly.held with hdirect | hteam
        · rw [hne other heq, hr] at hdirect
          cases hdirect
        · exact Or.inr hteam
    rcases h.members form hform (hsame.inProject ▸ hin) metaPerms (hsame.metaPerms ▸ hmeta) other
      r hbefore hr hlimited with hnothing | hheld
    · exact Or.inl fun c hc => hnothing c ((hothers other heq c).mp hc)
    · exact Or.inr fun c => (hothers other heq c).trans (hheld c)

/-- A share with a team keeps the invariant. -/
theorem evenly_shareTeamProject (h : SharedEvenly accounts s given) (team : Team) (role : Role)
    (hkeeps : KeepsMeta accounts s (.shareTeamProject team role false)) :
    SharedEvenly accounts (s.shareTeamProject accounts team role false)
      (noteGiven given (.shareTeamProject team role false)) := by
  have hself : (noteGiven given (.shareTeamProject team role false)).teams team = some role :=
    Function.update_self ..
  have hne : ∀ other, other ≠ team →
      (noteGiven given (.shareTeamProject team role false)).teams other = given.teams other :=
    fun other hother => Function.update_of_ne hother ..
  have hteams : ∀ form' ∈ (s.shareTeamProject accounts team role false).forms,
      form'.inProject = true → ∀ other c, (other, c) ∈ form'.perms.groupPerms ↔
        ∃ r, (noteGiven given (.shareTeamProject team role false)).teams other = some r ∧
          c ∈ r.permissions .xform := by
    intro form' hform' hin other c
    obtain ⟨form, hform, hsame, hothers, hteam, -⟩ := mem_forms_shareTeamProject hform'
    rw [hsame.inProject] at hin
    by_cases heq : other = team
    · subst heq
      rw [hteam hin c, hself]
      exact ⟨fun hc => ⟨role, rfl, hc⟩, fun ⟨r, hr, hc⟩ => Option.some_inj.mp hr ▸ hc⟩
    · rw [hothers other heq, hne other heq]
      exact h.teams form hform hin other c
  refine ⟨h.project, h.others, hteams, ?_, ?_, ?_⟩
  · intro form' hform' hin metaPerms hmeta other r hr hlimited
    obtain ⟨form, hform, hsame, -⟩ := mem_forms_shareTeamProject hform'
    rw [hsame.inProject] at hin
    rw [hsame.metaPerms] at hmeta
    by_cases heq : other = team
    · subst heq
      obtain rfl := Option.some_inj.mp (hself.symm.trans hr)
      exact ((hkeeps form hform hin metaPerms hmeta).2 hlimited).1
    · rw [hne other heq] at hr
      exact h.within form hform hin metaPerms hmeta other r hr hlimited
  · intro form' hform' hin metaPerms hmeta user r hr hlimited
    obtain ⟨form, hform, hsame, -, -, hrows⟩ := mem_forms_shareTeamProject hform'
    rw [hsame.inProject] at hin
    rw [hsame.metaPerms] at hmeta
    rw [if_pos hin] at hrows
    obtain ⟨held, hheld, hrole⟩ := h.users form hform hin metaPerms hmeta user r hr hlimited
    refine ⟨roleFor metaPerms r, ?_, Or.inl rfl⟩
    have hpass := @holdsRole_pass _ _ _ _ accounts (role.addGroup .project team s.perms)
      { form with perms := role.addGroup .xform team form.perms } metaPerms user held hmeta hheld
    rw [metaRole_settled (hkeeps form hform hin metaPerms hmeta).1 hlimited
      (hrole.imp_right And.left)] at hpass
    intro c
    rw [hrows]
    exact hpass c
  · intro form' hform' hin' metaPerms hmeta user r honly hr hlimited
    obtain ⟨form, hform, hsame, hgroups, hgiven, hrows⟩ := mem_forms_shareTeamProject hform'
    have hin := hin'
    rw [hsame.inProject] at hin
    rw [hsame.metaPerms] at hmeta
    rw [if_pos hin] at hrows
    obtain ⟨hsettled, hlimit⟩ := hkeeps form hform hin metaPerms hmeta
    -- What the user holds before the pass.
    have hbefore : HoldsAtMost form.perms user (roleFor metaPerms r) := by
      by_cases hmember : user ∈ accounts.members team
      · obtain rfl := honly.teams team hmember role hself
        exact (hlimit hlimited).2 user hmember (h.others user hr)
      · refine h.members form hform hin metaPerms hmeta user r ⟨honly.direct, ?_, ?_⟩ hr hlimited
        · intro other hother r' hr'
          refine honly.teams other hother r' ?_
          rw [hne other fun heq => hmember (heq ▸ hother)]
          exact hr'
        · rcases honly.held with hdirect | ⟨other, hother, hr'⟩
          · exact Or.inl hdirect
          · rw [hne other fun heq => hmember (heq ▸ hother)] at hr'
            exact Or.inr ⟨other, hother, hr'⟩
    have hafter : HoldsAtMost (shareTeamForm accounts (role.addGroup .project team s.perms) team
        role form).perms user (roleFor metaPerms r) := by
      rcases hbefore with hnothing | hheld
      · rcases @holdsNothing_pass _ _ _ _ accounts (role.addGroup .project team s.perms)
          { form with perms := role.addGroup .xform team form.perms } metaPerms user hmeta hnothing
          with hstill | ⟨new, hnew, hheld⟩
        · exact Or.inl hstill
        · right
          have hread := @getRole_of_onlyRole _ _ _ (role.addGroup .xform team form.perms) _ _ _ _
            honly hr hnothing fun other c => by
            rw [← hteams _ hform' hin']
            by_cases heq : other = team
            · subst heq
              exact (teamHoldsRole_addGroup role .xform other form.perms c).trans
                (hgiven hin c).symm
            · exact (mem_groupPerms_addGroup_of_ne role .xform team other form.perms c heq).trans
                (hgroups other heq c).symm
          have hgive := (congrArg (metaRole metaPerms _) hread).symm.trans hnew
          rw [metaRole_limited hlimited] at hgive
          exact Option.some_inj.mp hgive ▸ hheld
      · right
        have hpass := @holdsRole_pass _ _ _ _ accounts (role.addGroup .project team s.perms)
          { form with perms := role.addGroup .xform team form.perms } metaPerms user _ hmeta hheld
        rw [metaRole_settled hsettled hlimited (Or.inl rfl)] at hpass
        exact hpass
    rcases hafter with hnothing | hheld
    · exact Or.inl fun c hc => hnothing c (hrows ▸ hc)
    · exact Or.inr fun c => by rw [hrows]; exact hheld c

/-- A share that meets the condition keeps the invariant. -/
theorem evenly_call (h : SharedEvenly accounts s given) {call : ShareCall User Team}
    (hshare : IsShare call) (hkeeps : KeepsMeta accounts s call) :
    SharedEvenly accounts (s.call accounts call) (noteGiven given call) := by
  cases call with
  | shareProject user role remove =>
      obtain rfl : remove = false := hshare
      exact evenly_shareProject h user role hkeeps
  | shareTeamProject team role remove =>
      obtain rfl : remove = false := hshare
      exact evenly_shareTeamProject h team role hkeeps
  | createXformMetaPermissions pk metaPerms => exact absurd hshare id

end Steps

/-- A project before the first share: the users and the teams with a role are its owners. -/
structure Unshared (s : SharedProject User Team) (given : GivenRoles User Team) : Prop where
  usersOwn : ∀ user role, given.users user = some role → role = .ownerRole
  teamsOwn : ∀ team role, given.teams team = some role → role = .ownerRole
  project : ∀ user role, given.users user = some role → HoldsRole .project s.perms user role
  others : ∀ user, given.users user = none → HoldsNothing s.perms user
  otherForms : ∀ form ∈ s.forms, form.inProject = true → ∀ user, given.users user = none →
    HoldsNothing form.perms user
  teams : ∀ form ∈ s.forms, form.inProject = true → ∀ team c,
    (team, c) ∈ form.perms.groupPerms ↔
      ∃ role, given.teams team = some role ∧ c ∈ role.permissions .xform

omit [DecidableEq User] [DecidableEq Team] in
/-- A project before the first share meets the invariant. -/
theorem sharedEvenly_of_unshared {accounts : Accounts User Team} {s : SharedProject User Team}
    {given : GivenRoles User Team} (h : Unshared s given) : SharedEvenly accounts s given := by
  have hnot : ¬ Limited .ownerRole := by decide
  refine ⟨h.project, h.others, h.teams, ?_, ?_, ?_⟩
  · intro form _ _ metaPerms _ team role hrole hlimited
    exact absurd (h.teamsOwn team role hrole ▸ hlimited) hnot
  · intro form _ _ metaPerms _ user role hrole hlimited
    exact absurd (h.usersOwn user role hrole ▸ hlimited) hnot
  · intro form hform hin metaPerms _ user role _ huser _
    exact Or.inl (h.otherForms form hform hin user huser)

/-- The team 0 with the user 1. -/
def oneTeam : Accounts Nat Nat where
  members team := if team = 0 then [1] else []
  getTeamMembers _ := none

/-- A new form whose meta permissions make of an editor one of the own data. -/
def minorForm : SharedProject Nat Nat :=
  newForm ⟨.editorMinorRole, .dataEntryRole, .readOnlyRole⟩

/-- Nobody has a role. -/
def noRoles : GivenRoles Nat Nat where
  users _ := none
  teams _ := none

theorem unshared_newForm (metaPerms : MetaPerms) : Unshared (newForm metaPerms) noRoles where
  usersOwn _ _ h := by cases h
  teamsOwn _ _ h := by cases h
  project _ _ h := by cases h
  others _ _ c h := by cases h
  otherForms form hform _ _ _ c h := by
    obtain rfl := List.mem_singleton.mp hform
    cases h
  teams form hform _ team c := by
    obtain rfl := List.mem_singleton.mp hform
    constructor
    · exact fun h => by cases h
    · exact fun ⟨_, h, _⟩ => by cases h

end Onadata.Proofs
