import Onadata.Apps.Api.Viewsets.OrganizationProfileViewset
import Onadata.Lib.Run

/-!
# `Onadata.Proofs.Apps.Api.OrganizationCache`: an organization from the cache

An organization is kept once for each role. An update writes the entry of the role of who made
it and leaves the others as they are. `invalidate_organization_cache` goes through the roles of
`ROLES_ORDERED` and the anonymous entry; the name `member`, which `get_role_in_org` gives to
who has no role, is in neither. What is shown also depends on `can_add_project`, which the key
does not name, and on the time, since a key of the organization can expire.

`cacheRight_run` states which requests keep the cache right (`RequestKept`). `cacheRight_step` is
its step lemma, and `retrievesRight_iff` says that a right cache is one from which each request
is answered with what it would be shown.
-/

set_option autoImplicit false

namespace Onadata

open Onadata.Lib

variable {User : Type} [DecidableEq User] {accounts : AccountData User}

/-- Each response that `retrieve` takes from the cache is what the organization looks like to
the requester at that time. -/
def RetrievesRight (accounts : AccountData User) (s : OrgStore User) : Prop :=
  ∀ name requester entry, (s.retrieve accounts name requester).1 = some (entry, true) →
    ∃ record, s.orgs name = some record ∧
      entry = record.view accounts s.now (record.seesOwnerFields accounts requester)

/-- Each entry that a requester can read is what he would be shown. -/
def CacheRight (accounts : AccountData User) (s : OrgStore User) : Prop :=
  ∀ name record, s.orgs name = some record → ∀ requester entry,
    s.cache name (record.cacheKey requester) = some entry →
      entry = record.view accounts s.now (record.seesOwnerFields accounts requester)

theorem retrievesRight_iff (s : OrgStore User) : RetrievesRight accounts s ↔ CacheRight accounts s := by
  constructor
  · intro h name record hrecord requester entry hentry
    have hcached : (s.retrieve accounts name requester).1 = some (entry, true) := by
      unfold OrgStore.retrieve
      rw [hrecord]
      dsimp only
      rw [hentry]
    obtain ⟨record', hrecord', heq⟩ := h name requester entry hcached
    rw [hrecord] at hrecord'
    rw [Option.some.inj hrecord']
    exact heq
  · intro h name requester entry hcached
    unfold OrgStore.retrieve at hcached
    cases hrecord : s.orgs name with
    | none => simp [hrecord] at hcached
    | some record =>
        refine ⟨record, rfl, h name record hrecord requester entry ?_⟩
        rw [hrecord] at hcached
        dsimp only at hcached
        cases hentry : s.cache name (record.cacheKey requester) with
        | none => simp [hentry] at hcached
        | some cached =>
            rw [hentry] at hcached
            exact congrArg some (Prod.mk.inj (Option.some.inj hcached)).1

namespace OrgStore

variable (s : OrgStore User)

omit [DecidableEq User] in
theorem setOrg_self {s : OrgStore User} {name : String} {record : OrgRecord User}
    (h : s.orgs name = some record) : s.setOrg name (some record) = s := by
  unfold setOrg
  congr
  funext n
  by_cases hn : n = name
  · rw [if_pos hn, hn, h]
  · rw [if_neg hn]

/-! ### The cache after a request -/

omit [DecidableEq User] in
theorem cache_setCache (name n : String) (key k : OrgCacheKey) (entry : Option (OrgView User)) :
    (s.setCache name key entry).cache n k = if n = name ∧ k = key then entry else s.cache n k :=
  rfl

omit [DecidableEq User] in
/-- The loop of `invalidate_organization_cache`. -/
theorem cache_foldl_setCache (roles : List Role) (s : OrgStore User) (name n : String)
    (k : OrgCacheKey) :
    (roles.foldl (fun s role => s.setCache name (.role role) none) s).cache n k =
      if n = name ∧ ∃ role ∈ roles, k = .role role then none else s.cache n k := by
  induction roles generalizing s with
  | nil => simp
  | cons role rest ih =>
      rw [List.foldl_cons, ih, cache_setCache]
      by_cases hn : n = name
      · by_cases hrole : k = .role role <;> simp [hn, hrole]
      · simp [hn]

omit [DecidableEq User] in
/-- The invalidation deletes the entries of the organization but the one of `member`. -/
theorem cache_invalidate (name n : String) (k : OrgCacheKey) :
    (s.invalidateOrganizationCache name).cache n k =
      if n = name ∧ k ≠ .member then none else s.cache n k := by
  have hall : ∀ role : Role, role ∈ rolesOrdered := by
    intro role
    cases role <;> decide
  unfold invalidateOrganizationCache
  rw [cache_setCache, cache_foldl_setCache]
  cases k with
  | anon => simp
  | member => simp
  | role role => simp [hall role]

omit [DecidableEq User] in
theorem rest_invalidate (name : String) :
    (s.invalidateOrganizationCache name).orgs = s.orgs ∧
      (s.invalidateOrganizationCache name).now = s.now := by
  have hfold : ∀ (roles : List Role) (s : OrgStore User),
      (roles.foldl (fun s role => s.setCache name (.role role) none) s).orgs = s.orgs ∧
        (roles.foldl (fun s role => s.setCache name (.role role) none) s).now = s.now := by
    intro roles
    induction roles with
    | nil => exact fun _ => ⟨rfl, rfl⟩
    | cons role rest ih => exact fun s => ih (s.setCache name (.role role) none)
  exact hfold rolesOrdered s

end OrgStore

/-! ### What keeps the cache right -/

/-- Who has the same key as the requester sees the same fields. -/
def SameFields (accounts : AccountData User) (record : OrgRecord User) (requester : Option User) :
    Prop :=
  ∀ other, record.cacheKey other = record.cacheKey requester →
    record.seesOwnerFields accounts other = record.seesOwnerFields accounts requester

/-- There is no entry for who has another key than the requester. -/
def OnlyEntry (s : OrgStore User) (name : String) (record : OrgRecord User)
    (requester : Option User) : Prop :=
  ∀ other, record.cacheKey other ≠ record.cacheKey requester →
    s.cache name (record.cacheKey other) = none

/-- Nothing changes for those with the key `member`: the list of users, who they are, and
whether they see the owner's fields. -/
structure SameForMembers (accounts : AccountData User) (record record' : OrgRecord User) :
    Prop where
  users : record'.getUsers accounts = record.getUsers accounts
  member : ∀ requester, record'.cacheKey requester = .member →
    record.cacheKey requester = .member ∧
      record'.seesOwnerFields accounts requester = record.seesOwnerFields accounts requester

/-- The condition on a request.

* `retrieve`, when it is not answered from the cache, and `update`: who has the key of the
  requester sees the same fields.
* `update` and `create`: there is no entry for another key. A new organization can have a name
  that was used before.
* `addUser` and `removeUser`: there is no entry for `member`, or nothing changes for those with
  this key.
* `wait`: no key of the organization expires that an entry shows. -/
def RequestKept (accounts : AccountData User) (s : OrgStore User) : OrgRequest User → Prop
  | .create name account creator data kmsKeys =>
      let record := OrgRecord.create accounts s.now name account creator data kmsKeys
      record.seesOwnerFields accounts (some creator) = true ∧
        SameFields accounts record (some creator) ∧ OnlyEntry s name record (some creator)
  | .retrieve name requester =>
      ∀ record, s.orgs name = some record → s.cache name (record.cacheKey requester) = none →
        SameFields accounts record requester
  | .update name requester _ =>
      ∀ record, s.orgs name = some record →
        SameFields accounts record requester ∧ OnlyEntry s name record requester
  | .destroy _ _ => True
  | .addUser name user role =>
      ∀ record, s.orgs name = some record → s.cache name .member = none ∨
        SameForMembers accounts record { record with org := record.org.addMember user role }
  | .removeUser name user =>
      ∀ record, s.orgs name = some record → s.cache name .member = none ∨
        SameForMembers accounts record { record with org := record.org.removeMember user }
  | .wait now =>
      ∀ name record, s.orgs name = some record → ∀ requester,
        s.cache name (record.cacheKey requester) ≠ none →
        record.seesOwnerFields accounts requester = true →
        ∀ item ∈ record.kmsKeys, item.2.disabledAt = none →
          item.2.isExpired now = item.2.isExpired s.now

/-- Only anonymous requests have the key `anon`. -/
theorem sameFields_anon (record : OrgRecord User) : SameFields accounts record none := by
  intro other hkey
  cases other with
  | none => rfl
  | some user =>
      unfold OrgRecord.cacheKey at hkey
      dsimp only at hkey
      split at hkey <;> cases hkey

section
variable {s : OrgStore User}

/-- A request that writes one entry and perhaps changes the row of the organization: the other
organizations are as before. -/
theorem cacheRight_write (h : CacheRight accounts s) (name : String) {record : OrgRecord User}
    {key : OrgCacheKey} {entry : OrgView User}
    (hwritten : ∀ other, record.cacheKey other = key →
      entry = record.view accounts s.now (record.seesOwnerFields accounts other))
    (hothers : ∀ other cached, record.cacheKey other ≠ key →
      s.cache name (record.cacheKey other) = some cached →
      cached = record.view accounts s.now (record.seesOwnerFields accounts other)) :
    CacheRight accounts ((s.setOrg name (some record)).setCache name key (some entry)) := by
  intro n r hr requester cached hcached
  rw [OrgStore.cache_setCache] at hcached
  by_cases hn : n = name
  · subst hn
    have hrecord : r = record := by
      have hset : (if n = n then some record else s.orgs n) = some r := hr
      rw [if_pos rfl] at hset
      exact (Option.some.inj hset).symm
    subst hrecord
    by_cases hkey : r.cacheKey requester = key
    · rw [if_pos ⟨rfl, hkey⟩] at hcached
      rw [← Option.some.inj hcached]
      exact hwritten requester hkey
    · rw [if_neg fun hboth => hkey hboth.2] at hcached
      exact hothers requester cached hkey hcached
  · have hset : (if n = name then some record else s.orgs n) = some r := hr
    rw [if_neg hn] at hset
    rw [if_neg fun hboth => hn hboth.1] at hcached
    exact h n r hset requester cached hcached

/-- A change of the members: only the entry of `member` is left. -/
theorem cacheRight_members (h : CacheRight accounts s) {name : String} {record : OrgRecord User}
    (hrecord : s.orgs name = some record) (org : Organization User)
    (hkept : s.cache name .member = none ∨
      SameForMembers accounts record { record with org := org }) :
    CacheRight accounts
      ((s.setOrg name (some { record with org := org })).invalidateOrganizationCache name) := by
  intro n r hr requester entry hentry
  rw [(OrgStore.rest_invalidate _ name).1] at hr
  rw [OrgStore.cache_invalidate] at hentry
  rw [(OrgStore.rest_invalidate _ name).2]
  have hset : (if n = name then some { record with org := org } else s.orgs n) = some r := hr
  by_cases hn : n = name
  · subst hn
    rw [if_pos rfl] at hset
    rw [← Option.some.inj hset] at hentry ⊢
    by_cases hmember : ({ record with org := org } : OrgRecord User).cacheKey requester = .member
    · rw [if_neg fun hboth => hboth.2 hmember, hmember] at hentry
      cases hkept with
      | inl hnone =>
          have hcached : s.cache n .member = some entry := hentry
          rw [hnone] at hcached
          cases hcached
      | inr hsame =>
          obtain ⟨hbefore, hsees⟩ := hsame.member requester hmember
          have hold := h n record hrecord requester entry (by rw [hbefore]; exact hentry)
          rw [hold, hsees]
          unfold OrgRecord.view
          rw [hsame.users]
          rfl
    · rw [if_pos ⟨rfl, hmember⟩] at hentry
      cases hentry
  · rw [if_neg hn] at hset
    rw [if_neg fun hboth => hn hboth.1] at hentry
    exact h n r hset requester entry hentry

/-- A request that meets the condition keeps the cache right. -/
theorem cacheRight_step {s' : OrgStore User} {request : OrgRequest User}
    (hstep : OrgCacheStep accounts s request s') (hkept : RequestKept accounts s request)
    (h : CacheRight accounts s) : CacheRight accounts s' := by
  unfold OrgCacheStep at hstep
  cases request with
  | create name account creator data kmsKeys =>
      unfold OrgStore.act at hstep
      cases hname : s.orgs name with
      | some record => simp [hname] at hstep
      | none =>
          simp only [hname] at hstep
          rw [← Option.some.inj hstep]
          obtain ⟨hsees, hsame, honly⟩ := hkept
          refine cacheRight_write h name (fun other hother => ?_) fun other cached hother hcached => ?_
          · rw [hsame other hother, hsees]
          · rw [honly other hother] at hcached
            cases hcached
  | retrieve name requester =>
      rw [← Option.some.inj hstep]
      unfold OrgStore.retrieve
      cases hrecord : s.orgs name with
      | none => exact h
      | some record =>
          dsimp only
          cases hentry : s.cache name (record.cacheKey requester) with
          | some entry => exact h
          | none =>
              have hsame := hkept record hrecord hentry
              dsimp only
              rw [← OrgStore.setOrg_self hrecord]
              refine cacheRight_write h name (fun other hother => ?_)
                fun other cached _ hcached => ?_
              · rw [hsame other hother]
                rfl
              · exact h name record hrecord other cached hcached
  | update name requester data =>
      unfold OrgStore.act at hstep
      cases hrecord : s.orgs name with
      | none => simp [hrecord] at hstep
      | some record =>
          simp only [hrecord] at hstep
          rw [← Option.some.inj hstep]
          obtain ⟨hsame, honly⟩ := hkept record hrecord
          refine cacheRight_write h name (fun other hother => ?_) fun other cached hother hcached => ?_
          · -- the update leaves the members and their permissions
            exact congrArg (fun sees => (record.update s.now _ data).view accounts s.now sees)
              (hsame other hother).symm
          · have hnone : s.cache name (record.cacheKey other) = none := honly other hother
            rw [show (record.update s.now _ data).cacheKey other = record.cacheKey other from rfl,
              hnone] at hcached
            cases hcached
  | destroy name requester =>
      unfold OrgStore.act at hstep
      cases hrecord : s.orgs name with
      | none => simp [hrecord] at hstep
      | some record =>
          simp only [hrecord] at hstep
          rw [← Option.some.inj hstep]
          intro n r hr other entry hentry
          have hset : (if n = name then none else s.orgs n) = some r := hr
          by_cases hn : n = name
          · simp [hn] at hset
          · rw [if_neg hn] at hset
            have hcached : s.cache n (r.cacheKey other) = some entry := by
              rw [← hentry]
              exact (if_neg fun hboth => hn hboth.1).symm
            exact h n r hset other entry hcached
  | addUser name user role =>
      unfold OrgStore.act at hstep
      cases hrecord : s.orgs name with
      | none => simp [hrecord] at hstep
      | some record =>
          simp only [hrecord] at hstep
          rw [← Option.some.inj hstep]
          exact cacheRight_members h hrecord _ (hkept record hrecord)
  | removeUser name user =>
      unfold OrgStore.act at hstep
      cases hrecord : s.orgs name with
      | none => simp [hrecord] at hstep
      | some record =>
          simp only [hrecord] at hstep
          rw [← Option.some.inj hstep]
          exact cacheRight_members h hrecord _ (hkept record hrecord)
  | wait now =>
      rw [← Option.some.inj hstep]
      intro name record hrecord requester entry hentry
      have hold := h name record hrecord requester entry hentry
      rw [hold]
      cases hsees : record.seesOwnerFields accounts requester with
      | false => rfl
      | true =>
          have hcached : s.cache name (record.cacheKey requester) = some entry := hentry
          have hkeys := hkept name record hrecord requester (by rw [hcached]; simp) hsees
          have hsame : record.getEncryptionKeys now = record.getEncryptionKeys s.now := by
            unfold OrgRecord.getEncryptionKeys
            refine List.map_congr_left fun item hitem => ?_
            rw [List.mem_filter, Option.isNone_iff_eq_none] at hitem
            rw [hkeys item hitem.1 hitem.2]
          unfold OrgRecord.view
          dsimp only
          rw [hsame]

/-- In a run whose requests all meet the condition, each response from the cache is what the
organization looks like to the requester at that time. -/
theorem cacheRight_run {s' : OrgStore User} {requests : List (OrgRequest User)}
    (hright : RetrievesRight accounts s)
    (hrun : Run (Guarded (OrgCacheStep accounts) fun s request _ => RequestKept accounts s request)
      s requests s') : RetrievesRight accounts s' := by
  rw [retrievesRight_iff] at hright ⊢
  exact hrun.invariant (CacheRight accounts)
    (fun _ _ _ _ hstep hs => cacheRight_step hstep.1 hstep.2 hs) hright

end

/-- Accounts 0 to 3, of which 0 is that of the organization. -/
def schoolAccounts : AccountData Nat where
  directory := ⟨fun _ => true, fun _ => false, fun user => user = 0, fun _ => [], fun _ => none⟩
  names _ := ("", "")
  gravatar _ := ""
  anonymousUser := none
  requireAuthentication := false

/-- The organization that user 1 has created. -/
def school : OrgRecord Nat :=
  OrgRecord.create schoolAccounts ⟨0, by decide⟩ "school" 0 1 {} []

/-- The organization, with an empty cache. -/
def schoolStore : OrgStore Nat where
  orgs name := if name = "school" then some school else none
  cache _ _ := none
  now := ⟨1, by decide⟩

theorem retrievesRight_school : RetrievesRight schoolAccounts schoolStore := by
  rw [retrievesRight_iff]
  intro name record hrecord requester entry hentry
  cases hentry

/-- An anonymous request keeps the cache right: nobody else has its key. -/
theorem cacheRight_run_school :
    RetrievesRight schoolAccounts (schoolStore.retrieve schoolAccounts "school" none).2 := by
  have hrun : Run (Guarded (OrgCacheStep schoolAccounts) fun s request _ =>
      RequestKept schoolAccounts s request) schoolStore [.retrieve "school" none]
      (schoolStore.retrieve schoolAccounts "school" none).2 :=
    .cons ⟨rfl, fun record _ _ => sameFields_anon record⟩ (.nil _)
  exact cacheRight_run retrievesRight_school hrun

/-- User 2, a member without a role, is shown the list of users from before user 3 was added. -/
theorem not_retrievesRight_run :
    ¬ ∀ (s s' : OrgStore Nat) (requests : List (OrgRequest Nat)),
        RetrievesRight schoolAccounts s → Run (OrgCacheStep schoolAccounts) s requests s' →
          RetrievesRight schoolAccounts s' := by
  intro h
  have hafter := h schoolStore _
    [.addUser "school" 2 none, .retrieve "school" (some 2), .addUser "school" 3 none]
    retrievesRight_school (.cons rfl (.cons rfl (.cons rfl (.nil _))))
  rw [retrievesRight_iff] at hafter
  have heq := hafter "school" _ rfl (some 2) _ rfl
  have hlength := congrArg (fun data => data.users.length) heq
  revert hlength
  decide

end Onadata
