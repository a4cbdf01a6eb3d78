import Onadata.Lib.PercentEncoding
import Onadata.Lib.TextParts

/-!
# `Onadata.Libs.Authentication`: failed logins

The lockout of `libs/authentication.py`. `DigestAuthentication` and `LockoutBasicAuthentication`
refuse a request while its IP address and username are locked out. Otherwise the credentials are
checked, and a failed attempt is counted.

The check itself is that of `django_digest` and of the REST framework, and a parameter: the
identifier that it takes from the request, and whether it accepts the credentials. The cache fails
for no request, and no entry expires. A point in time is an `Int`, in microseconds. Left out are the
emails about a lockout and the time of the last login, which no lockout depends on.
-/

set_option autoImplicit false

namespace Onadata

open Onadata.Lib

/-- What the lockout reads of a user. -/
structure LockoutUser where
  username : String
  email : String
  deriving DecidableEq, Repr

/-- What the lockout reads of a request, and the time at which it is made. -/
structure LoginRequest where
  authorization : String
  path : String := "/"
  realIp : Option String := none
  remoteAddr : Option String
  time : Int := 0
  deriving DecidableEq, Repr

/-- The users, in the order of their primary keys, the settings, and what is outside the repository:
the upper case of the database, the hash function, and the check of the credentials. `rejection` is
its error text, or none for credentials that it accepts. -/
structure LockoutSite where
  users : List LockoutUser
  maxLoginAttempts : Nat := 10
  lockoutTime : Int := 1800
  lockoutExcludedPaths : List String := [
    "formList", "submission", "xformsManifest", "xformsMedia", "form.xml", "submissionList",
    "downloadSubmission", "upload", "formUpload"]
  upper : String → String
  sha256 : String → String
  identifierOf : LoginRequest → Option String
  rejection : LoginRequest → Option String
  sha256_injective : Function.Injective sha256

/-! ### Errors -/

/-- Why a login fails: the error of the check, or an error of the lockout. -/
inductive LoginError
  | credentials (detail : String)
  | wrongPassword (remainingAttempts lockoutMinutes : Int)
  | invalidUsername
  | lockedOut (remainingMinutes : Int)
  deriving DecidableEq, Repr

/-- The text of the error. -/
def LoginError.message : LoginError → String
  | .credentials detail => detail
  | .wrongPassword remainingAttempts lockoutMinutes =>
      s!"Invalid username/password. For security reasons, after {remainingAttempts} more failed " ++
        s!"login attempts you'll have to wait {lockoutMinutes} minutes before trying again."
  | .invalidUsername => "Invalid username"
  | .lockedOut remainingMinutes =>
      "Locked out. Too many wrong username/password attempts. " ++
        s!"Try again in {remainingMinutes} minutes."

/-- The outcome of a request. A failed one says whether its credentials were checked. -/
inductive LoginResult
  | notHandled
  | accepted
  | failed (checked : Bool) (error : LoginError)
  deriving DecidableEq, Repr

/-! ### The cache -/

/-- A value of the cache: a number of attempts, or the second in which a lockout started. -/
inductive LoginCacheValue
  | attempts (count : Nat)
  | lockout (since : Int)
  deriving DecidableEq, Repr

/-- The cache. -/
def LoginCache : Type := String → Option LoginCacheValue

namespace LoginCache

/-- No attempts and no lockouts. -/
def empty : LoginCache := fun _ => none

/-- `safe_cache_set`. -/
def set (cache : LoginCache) (key : String) (value : LoginCacheValue) : LoginCache :=
  fun key' => if key' = key then some value else cache key'

/-- The number of attempts under a key of attempts. -/
def getAttempts (cache : LoginCache) (key : String) : Option Nat :=
  match cache key with
  | some (.attempts count) => some count
  | _ => none

/-- The start of the lockout under a key of lockouts. -/
def getLockout (cache : LoginCache) (key : String) : Option Int :=
  match cache key with
  | some (.lockout since) => some since
  | _ => none

end LoginCache

/-! ### The header -/

/-- `get_authorization_header(request).split()`. -/
def authorizationWords (request : LoginRequest) : List String :=
  ((request.authorization.toList.splitOnP fun c =>
    c ∈ [' ', '\t', '\n', '\r', '\x0b', '\x0c']).filter (· ≠ [])).map String.ofList

/-- `auth[0].lower()`, if there is such a word. -/
def authorizationScheme (request : LoginRequest) : Option String :=
  (authorizationWords request).head?.map fun word =>
    String.ofList (word.toList.map Char.toLower)

/-- The value of a character of the Base64 alphabet. -/
def base64Value (c : Char) : Option Nat :=
  let code := c.toNat
  if 'A'.toNat ≤ code ∧ code ≤ 'Z'.toNat then some (code - 'A'.toNat)
  else if 'a'.toNat ≤ code ∧ code ≤ 'z'.toNat then some (code - 'a'.toNat + 26)
  else if '0'.toNat ≤ code ∧ code ≤ '9'.toNat then some (code - '0'.toNat + 52)
  else if c = '+' then some 62
  else if c = '/' then some 63
  else none

/-- `binascii.a2b_base64`. Other characters are skipped. `quad` is the place in a group of four
characters, `left` the bits that are left over, and `pads` the padding characters in a row. -/
def a2bBase64 (quad left pads : Nat) : List Char → Option (List UInt8)
  | [] => if quad = 0 then some [] else none
  | '=' :: cs =>
      if 2 ≤ quad ∧ 4 ≤ quad + (pads + 1) then some []
      else a2bBase64 quad left (if 2 ≤ quad then pads + 1 else pads) cs
  | c :: cs =>
      match base64Value c with
      | none => a2bBase64 quad left pads cs
      | some value =>
          match quad with
          | 0 => a2bBase64 1 value 0 cs
          | 1 => (a2bBase64 2 (value % 16) 0 cs).map (UInt8.ofNat (left * 4 + value / 16) :: ·)
          | 2 => (a2bBase64 3 (value % 4) 0 cs).map (UInt8.ofNat (left * 16 + value / 4) :: ·)
          | _ => (a2bBase64 0 0 0 cs).map (UInt8.ofNat (left * 64 + value) :: ·)

/-- `base64.b64decode`. -/
def b64decode (text : String) : Option (List UInt8) :=
  a2bBase64 0 0 0 text.toList

/-! ### The identity of a request -/

/-- `get_client_ip`. -/
def getClientIp (request : LoginRequest) : Option String :=
  match request.realIp with
  | none => request.remoteAddr
  | some realIp => if realIp = "" then request.remoteAddr else some (beforeFirst "," realIp)

/-- `retrieve_user_identification`. -/
def retrieveUserIdentification (request : LoginRequest) :
    Except LoginError (Option String × Option String) :=
  match (splitText "\"" request.authorization)[1]? with
  | none => .ok (none, none)
  | some quoted =>
      if strip quoted = "" then .error .invalidUsername
      else .ok (getClientIp request, some (strip quoted))

/-- `f"{value}"`. -/
def formatValue (value : Option String) : String :=
  value.getD "None"

/-- `round(seconds / 60)`: a half goes to the even number. -/
def roundMinutes (seconds : Int) : Int :=
  if seconds % 60 < 30 then seconds / 60
  else if 30 < seconds % 60 then seconds / 60 + 1
  else if seconds / 60 % 2 = 0 then seconds / 60
  else seconds / 60 + 1

namespace LockoutSite
variable (site : LockoutSite)

/-- A user whose username or email address is this one in letters of any case. -/
def names (user : LockoutUser) (identifier : String) : Bool :=
  site.upper user.username = site.upper identifier || site.upper user.email = site.upper identifier

/-- `get_lockout_username`. -/
def getLockoutUsername (username : String) : String :=
  match site.users.find? fun user => site.names user username with
  | some user => user.username
  | none => username

/-- The username of `LockoutBasicAuthentication._lockout_identity`. -/
def lockoutIdentity (request : LoginRequest) : Option String :=
  match authorizationWords request with
  | [_, encoded] =>
      match (b64decode encoded).bind decodeUtf8 with
      | none => none
      | some decoded =>
          let userid := beforeFirst ":" (String.ofList decoded)
          if userid = "" then none else some (site.getLockoutUsername userid)
  | _ => none

/-- `is_lockout_excluded_path`. -/
def isLockoutExcludedPath (request : LoginRequest) : Bool :=
  (splitText "/" request.path).any fun part => site.lockoutExcludedPaths.contains part

/-! ### The lockout -/

/-- The key of the attempts. -/
def attemptsKey (ipAddress username : Option String) : String :=
  site.sha256 ("login_attempts-" ++ (formatValue ipAddress ++ "-" ++ formatValue username))

/-- The key of the lockout. -/
def lockoutKey (ipAddress username : Option String) : String :=
  site.sha256 ("lockout_ip-" ++ (formatValue ipAddress ++ "-" ++ formatValue username))

/-- `assert_not_locked_out`. -/
def assertNotLockedOut (cache : LoginCache) (time : Int) (ipAddress username : Option String) :
    Except LoginError Unit :=
  if ipAddress.getD "" ≠ "" ∧ username.getD "" ≠ "" then
    match cache.getLockout (site.lockoutKey ipAddress username) with
    | none => .ok ()
    | some since =>
        let seconds := (time - since * 1000000) / 1000000 % 86400
        .error (.lockedOut (roundMinutes (site.lockoutTime - seconds)))
  else .ok ()

/-- `add_login_attempt`: the cache after it, and the number of attempts. -/
def addLoginAttempt (cache : LoginCache) (time : Int) (ipAddress username : Option String) :
    LoginCache × Except LoginError Nat :=
  let attemptsKey := site.attemptsKey ipAddress username
  let count := (cache.getAttempts attemptsKey).getD 0
  if count ≠ 0 then
    let attempts := count + 1
    let cache := cache.set attemptsKey (.attempts attempts)
    if site.maxLoginAttempts ≤ attempts then
      let lockoutKey := site.lockoutKey ipAddress username
      let cache :=
        match cache.getLockout lockoutKey with
        | none => cache.set lockoutKey (.lockout (time / 1000000))
        | some _ => cache
      (cache, (site.assertNotLockedOut cache time ipAddress username).map fun _ => attempts)
    else (cache, .ok attempts)
  else (cache.set attemptsKey (.attempts 1), .ok 1)

/-- `check_lockout`. -/
def checkLockout (cache : LoginCache) (request : LoginRequest) :
    Except LoginError (Option String × Option String) :=
  if site.isLockoutExcludedPath request then .ok (none, none)
  else
    match retrieveUserIdentification request with
    | .error error => .error error
    | .ok (ipAddress, username) =>
        (site.assertNotLockedOut cache request.time ipAddress username).map
          fun _ => (ipAddress, username)

/-- `login_attempts`. -/
def loginAttempts (cache : LoginCache) (request : LoginRequest) :
    LoginCache × Except LoginError Nat :=
  match site.checkLockout cache request with
  | .error error => (cache, .error error)
  | .ok (ipAddress, username) => site.addLoginAttempt cache request.time ipAddress username

/-! ### The authentication classes -/

/-- `DigestAuthentication.authenticate`. -/
def digestAuthenticate (cache : LoginCache) (request : LoginRequest) : LoginCache × LoginResult :=
  if authorizationScheme request = some "digest" then
    match site.checkLockout cache request with
    | .error error => (cache, .failed false error)
    | .ok _ =>
        match site.rejection request with
        | none => (cache, .accepted)
        | some _ =>
            match site.loginAttempts cache request with
            | (cache, .error error) => (cache, .failed true error)
            | (cache, .ok attempts) =>
                (cache, .failed true
                  (.wrongPassword (site.maxLoginAttempts - attempts) (site.lockoutTime / 60)))
  else (cache, .notHandled)

/-- `super().authenticate(request)` of `LockoutBasicAuthentication`. -/
def parentAuthenticate (request : LoginRequest) : LoginResult :=
  match site.rejection request with
  | none => .accepted
  | some detail => .failed true (.credentials detail)

/-- `LockoutBasicAuthentication.authenticate`. -/
def basicAuthenticate (cache : LoginCache) (request : LoginRequest) : LoginCache × LoginResult :=
  if authorizationScheme request = some "basic" then
    if site.isLockoutExcludedPath request then (cache, site.parentAuthenticate request)
    else
      let ipAddress := getClientIp request
      let username := site.lockoutIdentity request
      match site.assertNotLockedOut cache request.time ipAddress username with
      | .error error => (cache, .failed false error)
      | .ok _ =>
          match site.parentAuthenticate request with
          | .failed checked error =>
              if username.getD "" ≠ "" then
                match site.addLoginAttempt cache request.time ipAddress username with
                | (cache, .error lockout) => (cache, .failed checked lockout)
                | (cache, .ok _) => (cache, .failed checked error)
              else (cache, .failed checked error)
          | result => (cache, result)
  else (cache, .notHandled)

/-- A request goes to the class that handles its scheme. -/
def authenticate (cache : LoginCache) (request : LoginRequest) : LoginCache × LoginResult :=
  match site.digestAuthenticate cache request with
  | (cache, .notHandled) => site.basicAuthenticate cache request
  | outcome => outcome

/-- The results of requests, one after the other. -/
def results : LoginCache → List LoginRequest → List LoginResult
  | _, [] => []
  | cache, request :: requests =>
      let (cache, result) := site.authenticate cache request
      result :: results cache requests

end LockoutSite

end Onadata
