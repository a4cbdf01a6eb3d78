import Onadata.Lib.FailureCounter
import Onadata.Libs.Authentication

/-!
# `Onadata.Proofs.Libs.FailedLogins`: how many failed logins are checked

Failed attempts are counted under the IP address and a name (`countedName`). For Basic this is the
username of the account that the identifier names. For Digest it is the first quoted text of the
header, as it is sent. `authenticate_eq` says what one request does: the cache has the counts
(`Counted`), and a request is refused when the name has reached the threshold. The first attempt
starts no lockout, so the threshold is two at least.

`limitsFailures_iff`: no more than the maximum of failed logins are checked exactly when there are
no more of them, or all are counted under one name and the maximum is two at least.
-/

set_option autoImplicit false

namespace Onadata

open Onadata.Lib

namespace LockoutSite
variable (site : LockoutSite)

/-- The name under which a failed attempt is counted, if it is. -/
def countedName (request : LoginRequest) : Option String :=
  let name :=
    if authorizationScheme request = some "digest" then
      match retrieveUserIdentification request with
      | .ok (_, username) => username
      | .error _ => none
    else site.lockoutIdentity request
  name.filter fun name => name ≠ ""

/-- The number of attempts under a name that start its lockout. -/
def threshold : Nat := max site.maxLoginAttempts 2

/-! ### The keys -/

/-- An address has a dot or a colon. -/
def IsAddress (ipAddress : String) : Prop :=
  ∃ c ∈ ipAddress.toList, c = '.' ∨ c = ':'

theorem IsAddress.ne_empty {ipAddress : String} (h : IsAddress ipAddress) : ipAddress ≠ "" := by
  rintro rfl
  obtain ⟨c, hc, -⟩ := h
  exact absurd hc List.not_mem_nil

variable {site}

/-- The keys of two names are different. -/
theorem name_eq_of_key {heading ipAddress name name' : String}
    (h : site.sha256 (heading ++ (ipAddress ++ "-" ++ name)) =
      site.sha256 (heading ++ (ipAddress ++ "-" ++ name'))) : name = name' := by
  have htext := site.sha256_injective h
  rw [← String.toList_inj] at htext ⊢
  simpa [String.toList_append] using htext

/-- A key of an address is not the key without an address and a name. -/
theorem key_ne_none {heading ipAddress name : String} (h : IsAddress ipAddress) :
    site.sha256 (heading ++ (ipAddress ++ "-" ++ name)) ≠
      site.sha256 (heading ++ ("None" ++ "-" ++ "None")) := by
  intro heq
  have htext : heading.toList ++ (ipAddress ++ "-" ++ name).toList =
      heading.toList ++ ("None" ++ "-" ++ "None").toList := by
    rw [← String.toList_append, ← String.toList_append, site.sha256_injective heq]
  have htail := List.append_cancel_left htext
  obtain ⟨c, hc, hmark⟩ := h
  have hmem : c ∈ ("None" ++ "-" ++ "None").toList := by
    rw [← htail, String.toList_append, String.toList_append]
    exact List.mem_append_left _ (List.mem_append_left _ hc)
  have hall : ("None" ++ "-" ++ "None").toList.all (fun c => c ≠ '.' && c ≠ ':') = true := by
    decide
  have hc' := List.all_eq_true.mp hall c hmem
  rcases hmark with rfl | rfl <;> exact absurd hc' (by decide)

/-- No key is both of attempts and of a lockout. -/
theorem attemptsKey_ne_lockoutKey (ipAddress username ipAddress' username' : Option String) :
    site.attemptsKey ipAddress username ≠ site.lockoutKey ipAddress' username' := by
  intro heq
  have htext := congrArg (fun text => (text.toList)[2]?) (site.sha256_injective heq)
  have hattempts : "login_attempts-".toList = ['l', 'o', 'g'] ++ "in_attempts-".toList := by decide
  have hlockout : "lockout_ip-".toList = ['l', 'o', 'c'] ++ "kout_ip-".toList := by decide
  simp only [String.toList_append, hattempts, hlockout, List.append_assoc] at htext
  revert htext
  show some 'g' ≠ some 'c'
  decide

/-! ### The cache -/

theorem getAttempts_set (cache : LoginCache) (key key' : String) (count : Nat) :
    (cache.set key (.attempts count)).getAttempts key' =
      if key' = key then some count else cache.getAttempts key' := by
  unfold LoginCache.getAttempts LoginCache.set
  by_cases hkey : key' = key
  · simp [hkey]
  · simp [hkey]

theorem getLockout_set_attempts {cache : LoginCache} {key key' : String} (h : key' ≠ key)
    (count : Nat) : (cache.set key (.attempts count)).getLockout key' = cache.getLockout key' := by
  unfold LoginCache.getLockout LoginCache.set
  simp [h]

theorem getLockout_set (cache : LoginCache) (key key' : String) (since : Int) :
    (cache.set key (.lockout since)).getLockout key' =
      if key' = key then some since else cache.getLockout key' := by
  unfold LoginCache.getLockout LoginCache.set
  by_cases hkey : key' = key
  · simp [hkey]
  · simp [hkey]

theorem getAttempts_set_lockout {cache : LoginCache} {key key' : String} (h : key' ≠ key)
    (since : Int) :
    (cache.set key (.lockout since)).getAttempts key' = cache.getAttempts key' := by
  unfold LoginCache.getAttempts LoginCache.set
  simp [h]

/-- The cache has these counts for the names, and lockouts for those that reach the threshold. -/
def Counted (site : LockoutSite) (ipAddress : String) (counts : String → Nat)
    (cache : LoginCache) : Prop :=
  ∀ name, name ≠ "" →
    (cache.getAttempts (site.attemptsKey (some ipAddress) (some name))).getD 0 = counts name ∧
      ((cache.getLockout (site.lockoutKey (some ipAddress) (some name))).isSome ↔
        site.threshold ≤ counts name)

/-- Nothing is counted in an empty cache. -/
theorem counted_empty (site : LockoutSite) (ipAddress : String) :
    site.Counted ipAddress (fun _ => 0) LoginCache.empty := by
  intro name _
  refine ⟨rfl, ?_⟩
  show false = true ↔ max site.maxLoginAttempts 2 ≤ 0
  have hpos : ¬max site.maxLoginAttempts 2 ≤ 0 := by omega
  simp [hpos]

variable {ipAddress name : String} {counts : String → Nat} {cache : LoginCache}

/-- A name with fewer attempts is not locked out. -/
theorem Counted.assert_ok (h : site.Counted ipAddress counts cache) (hne : name ≠ "")
    (hlow : ¬site.threshold ≤ counts name) (time : Int) :
    site.assertNotLockedOut cache time (some ipAddress) (some name) = .ok () := by
  have hnone : cache.getLockout (site.lockoutKey (some ipAddress) (some name)) = none := by
    rw [← Option.not_isSome_iff_eq_none, (h name hne).2]
    exact hlow
  unfold assertNotLockedOut
  rw [hnone]
  split <;> rfl

/-- A name that has reached the threshold is locked out. -/
theorem Counted.assert_error (h : site.Counted ipAddress counts cache)
    (haddress : IsAddress ipAddress) (hne : name ≠ "") (hreached : site.threshold ≤ counts name)
    (time : Int) :
    ∃ remainingMinutes, site.assertNotLockedOut cache time (some ipAddress) (some name) =
      .error (.lockedOut remainingMinutes) := by
  obtain ⟨since, hsince⟩ := Option.isSome_iff_exists.mp ((h name hne).2.mpr hreached)
  unfold assertNotLockedOut
  rw [hsince]
  exact ⟨_, if_pos ⟨haddress.ne_empty, hne⟩⟩

/-- `add_login_attempt` counts one attempt. -/
theorem getAttempts_addLoginAttempt (cache : LoginCache) (time : Int)
    (ipAddress username : Option String) {key : String}
    (hkey : key ≠ site.lockoutKey ipAddress username) :
    (site.addLoginAttempt cache time ipAddress username).1.getAttempts key =
      if key = site.attemptsKey ipAddress username then
        some ((cache.getAttempts (site.attemptsKey ipAddress username)).getD 0 + 1)
      else cache.getAttempts key := by
  unfold addLoginAttempt
  dsimp only
  generalize (cache.getAttempts (site.attemptsKey ipAddress username)).getD 0 = count
  by_cases hcount : count ≠ 0
  · rw [if_pos hcount]
    by_cases hmax : site.maxLoginAttempts ≤ count + 1
    · rw [if_pos hmax]
      dsimp only
      split
      · rw [getAttempts_set_lockout hkey, getAttempts_set]
      · rw [getAttempts_set]
    · rw [if_neg hmax, getAttempts_set]
  · have hzero : count = 0 := not_not.mp hcount
    rw [if_neg hcount, getAttempts_set, hzero]

/-- `add_login_attempt` starts a lockout when the maximum is reached, but not at the first
attempt. -/
theorem isSome_getLockout_addLoginAttempt (cache : LoginCache) (time : Int)
    (ipAddress username : Option String) {key : String}
    (hkey : key ≠ site.attemptsKey ipAddress username) :
    ((site.addLoginAttempt cache time ipAddress username).1.getLockout key).isSome ↔
      (cache.getLockout key).isSome ∨ (key = site.lockoutKey ipAddress username ∧
        (cache.getAttempts (site.attemptsKey ipAddress username)).getD 0 ≠ 0 ∧
          site.maxLoginAttempts ≤
            (cache.getAttempts (site.attemptsKey ipAddress username)).getD 0 + 1) := by
  unfold addLoginAttempt
  dsimp only
  generalize (cache.getAttempts (site.attemptsKey ipAddress username)).getD 0 = count
  by_cases hcount : count ≠ 0
  · rw [if_pos hcount]
    by_cases hmax : site.maxLoginAttempts ≤ count + 1
    · rw [if_pos hmax]
      dsimp only
      have hlockout := @getLockout_set_attempts cache _ _
        (@attemptsKey_ne_lockoutKey site ipAddress username ipAddress username).symm (count + 1)
      rw [hlockout]
      cases hfound : cache.getLockout (site.lockoutKey ipAddress username) with
      | none =>
          dsimp only
          rw [getLockout_set, getLockout_set_attempts hkey]
          by_cases heq : key = site.lockoutKey ipAddress username
          · simp [heq, hcount, hmax]
          · simp [heq]
      | some since =>
          dsimp only
          rw [getLockout_set_attempts hkey]
          by_cases heq : key = site.lockoutKey ipAddress username
          · simp [heq, hfound]
          · simp [heq]
    · rw [if_neg hmax, getLockout_set_attempts hkey]
      simp [hmax]
  · rw [if_neg hcount, getLockout_set_attempts hkey]
    simp [hcount]

/-- A failed attempt under a name is counted. -/
theorem Counted.addLoginAttempt (h : site.Counted ipAddress counts cache) (hne : name ≠ "")
    (hlow : ¬site.threshold ≤ counts name) (time : Int) :
    site.Counted ipAddress (countOne counts name)
      (site.addLoginAttempt cache time (some ipAddress) (some name)).1 := by
  intro name' hne'
  rw [getAttempts_addLoginAttempt _ _ _ _ (attemptsKey_ne_lockoutKey _ _ _ _),
    isSome_getLockout_addLoginAttempt _ _ _ _ (attemptsKey_ne_lockoutKey _ _ _ _).symm,
    (h name' hne').2, (h name hne).1]
  by_cases heq : name' = name
  · rw [heq, countOne_self, if_pos rfl]
    refine ⟨rfl, ?_⟩
    unfold threshold at hlow ⊢
    simp only [true_and]
    omega
  · have hattempts : site.attemptsKey (some ipAddress) (some name') ≠
        site.attemptsKey (some ipAddress) (some name) := fun hkey => heq (name_eq_of_key hkey)
    have hlockout : site.lockoutKey (some ipAddress) (some name') ≠
        site.lockoutKey (some ipAddress) (some name) := fun hkey => heq (name_eq_of_key hkey)
    rw [if_neg hattempts, countOne_of_ne heq, (h name' hne').1]
    exact ⟨rfl, by simp [hlockout]⟩

/-- An attempt without an address and a name is not counted under a name. -/
theorem Counted.addLoginAttempt_none (h : site.Counted ipAddress counts cache)
    (haddress : IsAddress ipAddress) (time : Int) :
    site.Counted ipAddress counts (site.addLoginAttempt cache time none none).1 := by
  intro name hne
  have hattempts : site.attemptsKey (some ipAddress) (some name) ≠ site.attemptsKey none none :=
    key_ne_none haddress
  have hlockout : site.lockoutKey (some ipAddress) (some name) ≠ site.lockoutKey none none :=
    key_ne_none haddress
  rw [getAttempts_addLoginAttempt _ _ _ _ (attemptsKey_ne_lockoutKey _ _ _ _),
    isSome_getLockout_addLoginAttempt _ _ _ _ (attemptsKey_ne_lockoutKey _ _ _ _).symm,
    if_neg hattempts, (h name hne).1, (h name hne).2]
  exact ⟨rfl, by simp [hlockout]⟩

/-- Without an address and a name, an attempt starts no lockout. -/
theorem addLoginAttempt_none_ok (cache : LoginCache) (time : Int) :
    ∃ attempts, (site.addLoginAttempt cache time none none).2 = .ok attempts := by
  unfold addLoginAttempt
  dsimp only
  split
  · split
    · exact ⟨_, rfl⟩
    · exact ⟨_, rfl⟩
  · exact ⟨_, rfl⟩

end LockoutSite

/-! ### A request -/

namespace LoginResult

/-- The credentials of the request are checked. -/
def wasChecked : LoginResult → Bool
  | .notHandled => false
  | .accepted => true
  | .failed checked _ => checked

/-- The request is refused for the lockout time, without a check. -/
def isRefused : LoginResult → Bool
  | .failed false (.lockedOut _) => true
  | _ => false

end LoginResult

/-- Failed logins to one account from one address: their identifiers name the account, their paths
are not excluded, and the check accepts none of them. -/
structure FailedLogins (site : LockoutSite) where
  account : LockoutUser
  ipAddress : String
  requests : List LoginRequest
  mem_users : account ∈ site.users
  isAddress : LockoutSite.IsAddress ipAddress
  scheme : ∀ request ∈ requests, authorizationScheme request = some "digest" ∨
    authorizationScheme request = some "basic"
  clientIp : ∀ request ∈ requests, getClientIp request = some ipAddress
  notExcluded : ∀ request ∈ requests, site.isLockoutExcludedPath request = false
  names : ∀ request ∈ requests, ∃ identifier, site.identifierOf request = some identifier ∧
    identifier ≠ "" ∧ site.names account identifier = true
  rejected : ∀ request ∈ requests, site.rejection request ≠ none

namespace LockoutSite
variable {site : LockoutSite} {ipAddress : String} {counts : String → Nat} {cache : LoginCache}
variable {request : LoginRequest}

/-- What the identity of a Digest request says about its name. -/
theorem countedName_digest (hscheme : authorizationScheme request = some "digest") :
    (∃ error, retrieveUserIdentification request = .error error ∧ error = .invalidUsername ∧
        site.countedName request = none) ∨
      (retrieveUserIdentification request = .ok (none, none) ∧ site.countedName request = none) ∨
      ∃ name, name ≠ "" ∧ site.countedName request = some name ∧
        retrieveUserIdentification request = .ok (getClientIp request, some name) := by
  unfold countedName
  rw [if_pos hscheme]
  unfold retrieveUserIdentification
  cases hquoted : (splitText "\"" request.authorization)[1]? with
  | none => exact Or.inr (Or.inl ⟨rfl, rfl⟩)
  | some quoted =>
      by_cases hempty : strip quoted = ""
      · refine Or.inl ⟨.invalidUsername, ?_, rfl, ?_⟩
        · exact if_pos hempty
        · simp [hempty]
      · refine Or.inr (Or.inr ⟨strip quoted, hempty, ?_, ?_⟩)
        · simp [hempty]
        · exact if_neg hempty

/-- What a failed request does, by the name under which it is counted: it is refused when the name
has reached the threshold, and counted otherwise. -/
inductive Handled (site : LockoutSite) (ipAddress : String) (counts : String → Nat) :
    Option String → LoginCache × LoginResult → Prop
  | uncounted {cache : LoginCache} {checked : Bool} {error : LoginError} :
      (LoginResult.failed checked error).isRefused = false → site.Counted ipAddress counts cache →
        Handled site ipAddress counts none (cache, .failed checked error)
  | refused {name : String} {cache : LoginCache} {remainingMinutes : Int} :
      site.threshold ≤ counts name → site.Counted ipAddress counts cache →
        Handled site ipAddress counts (some name) (cache, .failed false (.lockedOut remainingMinutes))
  | counted {name : String} {cache : LoginCache} {error : LoginError} :
      ¬site.threshold ≤ counts name → site.Counted ipAddress (countOne counts name) cache →
        Handled site ipAddress counts (some name) (cache, .failed true error)

/-- A failed Digest request. -/
theorem handled_digestAuthenticate (h : site.Counted ipAddress counts cache)
    (haddress : IsAddress ipAddress) (hscheme : authorizationScheme request = some "digest")
    (hip : getClientIp request = some ipAddress)
    (hpath : site.isLockoutExcludedPath request = false) {detail : String}
    (hrejected : site.rejection request = some detail) :
    site.Handled ipAddress counts (site.countedName request)
      (site.digestAuthenticate cache request) := by
  unfold digestAuthenticate
  rw [if_pos hscheme, hrejected]
  unfold loginAttempts checkLockout
  rw [if_neg (by simp [hpath])]
  rcases @countedName_digest site request hscheme with
    ⟨error, hretrieve, rfl, hname⟩ | ⟨hretrieve, hname⟩ | ⟨name, hne, hname, hretrieve⟩
  · rw [hretrieve, hname]
    exact .uncounted rfl h
  · -- without a quoted text, there is neither an address nor a name
    rw [hretrieve, hname]
    obtain ⟨attempts, hattempts⟩ := @addLoginAttempt_none_ok site cache request.time
    have hcounted := h.addLoginAttempt_none haddress request.time
    have hassert : site.assertNotLockedOut cache request.time none none = .ok () := rfl
    simp only [hassert, Except.map]
    cases hadd : site.addLoginAttempt cache request.time none none with
    | mk cache' outcome =>
        rw [hadd] at hattempts hcounted
        rw [show outcome = .ok attempts from hattempts]
        exact .uncounted rfl hcounted
  · rw [hretrieve, hname, hip]
    by_cases hreached : site.threshold ≤ counts name
    · obtain ⟨remainingMinutes, herror⟩ := h.assert_error haddress hne hreached request.time
      simp only [herror, Except.map]
      exact .refused hreached h
    · have hcounted := h.addLoginAttempt hne hreached request.time
      simp only [h.assert_ok hne hreached request.time, Except.map]
      cases hadd : site.addLoginAttempt cache request.time (some ipAddress) (some name) with
      | mk cache' outcome =>
          rw [hadd] at hcounted
          cases outcome with
          | error error => exact .counted hreached hcounted
          | ok attempts => exact .counted hreached hcounted

/-- A failed Basic request. -/
theorem handled_basicAuthenticate (h : site.Counted ipAddress counts cache)
    (haddress : IsAddress ipAddress) (hscheme : authorizationScheme request = some "basic")
    (hip : getClientIp request = some ipAddress)
    (hpath : site.isLockoutExcludedPath request = false) {detail : String}
    (hrejected : site.rejection request = some detail) :
    site.Handled ipAddress counts (site.countedName request)
      (site.basicAuthenticate cache request) := by
  have hdigest : authorizationScheme request ≠ some "digest" := by
    rw [hscheme]
    decide
  have hparent : site.parentAuthenticate request = .failed true (.credentials detail) := by
    unfold parentAuthenticate
    rw [hrejected]
  have hcountedName : site.countedName request =
      (site.lockoutIdentity request).filter fun name => name ≠ "" := by
    unfold countedName
    rw [if_neg hdigest]
  unfold basicAuthenticate
  rw [hcountedName, if_pos hscheme, if_neg (by simp [hpath])]
  dsimp only
  rw [hparent, hip]
  by_cases hname : (site.lockoutIdentity request).getD "" = ""
  · -- a request without an identity is checked and not counted
    have hnone : (site.lockoutIdentity request).filter (fun name => name ≠ "") = none := by
      cases hidentity : site.lockoutIdentity request with
      | none => rfl
      | some name =>
          rw [hidentity] at hname
          simpa using hname
    have hassert : site.assertNotLockedOut cache request.time (some ipAddress)
        (site.lockoutIdentity request) = .ok () := by
      unfold assertNotLockedOut
      rw [if_neg (by simp [hname])]
    rw [hnone, hassert]
    dsimp only
    rw [if_neg (by simp [hname])]
    exact .uncounted rfl h
  · obtain ⟨name, hidentity⟩ : ∃ name, site.lockoutIdentity request = some name := by
      cases hidentity : site.lockoutIdentity request with
      | none =>
          rw [hidentity] at hname
          exact absurd rfl hname
      | some name => exact ⟨name, rfl⟩
    rw [hidentity] at hname ⊢
    have hne : name ≠ "" := hname
    rw [Option.filter_some_pos (by simp [hne])]
    by_cases hreached : site.threshold ≤ counts name
    · obtain ⟨remainingMinutes, herror⟩ := h.assert_error haddress hne hreached request.time
      rw [herror]
      exact .refused hreached h
    · have hcounted := h.addLoginAttempt hne hreached request.time
      rw [h.assert_ok hne hreached request.time]
      dsimp only
      rw [if_pos hname]
      cases hadd : site.addLoginAttempt cache request.time (some ipAddress) (some name) with
      | mk cache' outcome =>
          rw [hadd] at hcounted
          cases outcome with
          | error error => exact .counted hreached hcounted
          | ok attempts => exact .counted hreached hcounted

/-- A failed request. -/
theorem handled_authenticate (h : site.Counted ipAddress counts cache)
    (haddress : IsAddress ipAddress)
    (hscheme : authorizationScheme request = some "digest" ∨
      authorizationScheme request = some "basic")
    (hip : getClientIp request = some ipAddress)
    (hpath : site.isLockoutExcludedPath request = false)
    (hrejected : site.rejection request ≠ none) :
    site.Handled ipAddress counts (site.countedName request)
      (site.authenticate cache request) := by
  obtain ⟨detail, hdetail⟩ := Option.ne_none_iff_exists'.mp hrejected
  unfold authenticate
  rcases hscheme with hscheme | hscheme
  · have hdigest := handled_digestAuthenticate h haddress hscheme hip hpath hdetail
    generalize site.digestAuthenticate cache request = outcome at hdigest ⊢
    generalize site.countedName request = name at hdigest ⊢
    cases hdigest with
    | uncounted hrefused hcounted => exact .uncounted hrefused hcounted
    | refused hreached hcounted => exact .refused hreached hcounted
    | counted hreached hcounted => exact .counted hreached hcounted
  · have hnot : site.digestAuthenticate cache request = (cache, .notHandled) := by
      unfold digestAuthenticate
      rw [hscheme]
      exact if_neg (by decide)
    rw [hnot]
    exact handled_basicAuthenticate h haddress hscheme hip hpath hdetail

/-! ### A run -/

/-- Which of the failed requests are refused. -/
theorem map_isRefused_results {requests : List LoginRequest} (haddress : IsAddress ipAddress)
    (hrequests : ∀ request ∈ requests, (authorizationScheme request = some "digest" ∨
        authorizationScheme request = some "basic") ∧ getClientIp request = some ipAddress ∧
      site.isLockoutExcludedPath request = false ∧ site.rejection request ≠ none)
    (h : site.Counted ipAddress counts cache) :
    (site.results cache requests).map LoginResult.isRefused =
      refusals site.threshold counts (requests.map site.countedName) := by
  induction requests generalizing counts cache with
  | nil => rfl
  | cons request requests ih =>
      rw [List.forall_mem_cons] at hrequests
      obtain ⟨⟨hscheme, hip, hpath, hrejected⟩, hrest⟩ := hrequests
      have hhandled := handled_authenticate h haddress hscheme hip hpath hrejected
      rw [results, List.map_cons, List.map_cons]
      generalize site.authenticate cache request = outcome at hhandled ⊢
      generalize site.countedName request = name at hhandled ⊢
      cases hhandled with
      | uncounted hrefused hcounted =>
          rw [refusals, ← ih hrest hcounted]
          exact congrArg (· :: _) hrefused
      | refused hreached hcounted =>
          rw [refusals, if_pos hreached, ← ih hrest hcounted]
          rfl
      | counted hreached hcounted =>
          rw [refusals, if_neg hreached, ← ih hrest hcounted]
          rfl

/-- At most the maximum of the requests are checked, and each further one is refused for the lockout
time. -/
def LimitsFailures (site : LockoutSite) (requests : List LoginRequest) : Prop :=
  (site.results LoginCache.empty requests).countP LoginResult.wasChecked ≤ site.maxLoginAttempts ∧
    ∀ result ∈ (site.results LoginCache.empty requests).drop site.maxLoginAttempts,
      ∃ remainingMinutes, result = .failed false (.lockedOut remainingMinutes)

theorem isRefused_iff {result : LoginResult} :
    result.isRefused = true ↔
      ∃ remainingMinutes, result = .failed false (.lockedOut remainingMinutes) := by
  constructor
  · intro hrefused
    unfold LoginResult.isRefused at hrefused
    split at hrefused
    · exact ⟨_, rfl⟩
    · cases hrefused
  · rintro ⟨remainingMinutes, rfl⟩
    rfl

/-- No more than the maximum of failed logins to an account are checked exactly when there are no
more of them, or the maximum is two at least and all are counted under one name. -/
theorem limitsFailures_iff (site : LockoutSite) (logins : FailedLogins site) :
    site.LimitsFailures logins.requests ↔
      logins.requests.length ≤ site.maxLoginAttempts ∨
        (2 ≤ site.maxLoginAttempts ∧
          ∃ name, ∀ request ∈ logins.requests, site.countedName request = some name) := by
  have hrefusals := map_isRefused_results logins.isAddress
    (fun request hmem => ⟨logins.scheme request hmem, logins.clientIp request hmem,
      logins.notExcluded request hmem, logins.rejected request hmem⟩)
    (counted_empty site logins.ipAddress)
  have hiff := refusals_drop_iff (show 0 < site.threshold by unfold threshold; omega)
    (show site.maxLoginAttempts ≤ site.threshold from Nat.le_max_left _ _)
    (logins.requests.map site.countedName)
  have hthreshold : site.threshold ≤ site.maxLoginAttempts ↔ 2 ≤ site.maxLoginAttempts := by
    unfold threshold
    omega
  rw [← hrefusals, ← List.map_drop, List.forall_mem_map, List.length_map, hthreshold] at hiff
  simp only [List.forall_mem_map] at hiff
  rw [← hiff]
  unfold LimitsFailures
  generalize site.results LoginCache.empty logins.requests = results
  constructor
  · rintro ⟨-, hrefused⟩ result hmem
    exact isRefused_iff.mpr (hrefused result hmem)
  · intro hrefused
    refine ⟨?_, fun result hmem => isRefused_iff.mp (hrefused result hmem)⟩
    -- the requests that are checked are among the first ones
    have hzero : (results.drop site.maxLoginAttempts).countP LoginResult.wasChecked = 0 := by
      rw [List.countP_eq_zero]
      intro result hmem
      obtain ⟨remainingMinutes, rfl⟩ := isRefused_iff.mp (hrefused result hmem)
      exact Bool.false_ne_true
    have hfirst := @List.countP_le_length _ LoginResult.wasChecked
      (results.take site.maxLoginAttempts)
    rw [← List.take_append_drop site.maxLoginAttempts results, List.countP_append, hzero]
    rw [List.length_take] at hfirst
    omega

end LockoutSite

/-! ### Three identifiers of an account -/

/-- The identifier of a Basic or Digest header. -/
def headerIdentifier (request : LoginRequest) : Option String :=
  if authorizationScheme request = some "digest" then
    (splitText "username=\"" request.authorization)[1]?.map (beforeFirst "\"")
  else
    (((authorizationWords request)[1]?.bind b64decode).bind decodeUtf8).map
      fun decoded => beforeFirst ":" (String.ofList decoded)

def bob : LockoutUser where
  username := "bob"
  email := "bob@example.com"

/-- A site with one account, and two attempts. -/
def bobSite : LockoutSite where
  users := [bob]
  maxLoginAttempts := 2
  upper text := String.ofList (text.toList.map Char.toUpper)
  sha256 text := text
  identifierOf := headerIdentifier
  rejection _ := some "Invalid username/password."
  sha256_injective _ _ h := h

/-- `bob` with Basic, and `BOB` and `bob@example.com` with Digest. -/
def bobLogins : FailedLogins bobSite where
  account := bob
  ipAddress := "192.0.2.1"
  requests := [
    { authorization := "Basic Ym9iOndyb25n", remoteAddr := some "192.0.2.1" },
    { authorization := "Digest username=\"BOB\"", remoteAddr := some "192.0.2.1" },
    { authorization := "Digest username=\"bob@example.com\"", remoteAddr := some "192.0.2.1" }]
  mem_users := List.mem_cons_self
  isAddress := ⟨'.', by decide, Or.inl rfl⟩
  scheme := by decide +kernel
  clientIp := by decide +kernel
  notExcluded := by decide +kernel
  names := by
    simp only [List.forall_mem_cons]
    exact ⟨⟨"bob", by decide +kernel⟩, ⟨"BOB", by decide +kernel⟩,
      ⟨"bob@example.com", by decide +kernel⟩, fun _ h => absurd h List.not_mem_nil⟩
  rejected := by decide +kernel

/-- The credentials of all three are checked: each identifier has a count of its own. -/
theorem not_limitsFailures_bob : ¬bobSite.LimitsFailures bobLogins.requests := by
  intro h
  have hchecked : (bobSite.results LoginCache.empty bobLogins.requests).countP
      LoginResult.wasChecked = 3 := by
    decide +kernel
  have hmax : bobSite.maxLoginAttempts = 2 := rfl
  have hle := h.1
  omega

end Onadata
