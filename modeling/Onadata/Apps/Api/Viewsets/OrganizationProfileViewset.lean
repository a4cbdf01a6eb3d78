import Onadata.Apps.Api.Tools
import Onadata.Apps.Logger.Models.Kms
import Onadata.Lib.PyValue
import Onadata.Lib.TextParts

/-!
# `Onadata.Apps.Api.Viewsets.OrganizationProfileViewset`: organizations and their cache

`create`, `retrieve`, `update` and `destroy` of `apps/api/viewsets/organization_profile_viewset.py`
with `OrganizationSerializer`, and the two functions on members, each with what it does to the
cache. The entries are kept by the name of the organization and the role of the requester.

The requests are those that the permission checks let through, one after another. The clock is
part of the state, since an encryption key is shown with whether it has expired. The account of
an organization is no member of another one. Left out: the messages to the audit log, and the
parts of an entry that depend on the name only.
-/

set_option autoImplicit false

namespace Onadata

open Onadata.Lib

variable {User : Type} [DecidableEq User]

/-- What is known of the accounts beside the directory: the names and the gravatar of a user,
guardian's account for anonymous users, and the setting `REQUIRE_AUTHENTICATION`. -/
structure AccountData (User : Type) where
  directory : Directory User
  names : User → String × String
  gravatar : User → String
  anonymousUser : Option User
  requireAuthentication : Bool

/-- The row of an `OrganizationProfile`. -/
structure OrganizationRow where
  name : String
  email : String
  city : String
  country : String
  homePage : String
  twitter : String
  description : String
  requireAuth : Bool
  address : String
  phonenumber : String
  numOfSubmissions : Nat
  metadata : PyValue
  dateModified : DateTime

/-- An organization: the members and projects, `creator`, the row, the names of its account, and
its keys. -/
structure OrgRecord (User : Type) where
  org : Organization User
  creator : User
  row : OrganizationRow
  accountNames : String × String
  kmsKeys : List (Nat × KMSKey)

/-- A user in the list of an organization. Without a role in `ROLES` the role is `member`. -/
structure OrgUserRow (User : Type) where
  user : User
  role : Option Role
  names : String × String
  gravatar : String

/-- What `KMSKeyInlineSerializer` gives. -/
structure KeyRow where
  id : Nat
  description : String
  isActive : Bool
  isExpired : Bool
  expiryDate : Option DateTime
  graceEndDate : Option DateTime
  isAutomatic : Bool

/-- The `owner_only_fields`. -/
structure OwnerFields where
  metadata : PyValue
  email : String
  encryptionKeys : List KeyRow

/-- What `OrganizationSerializer` gives. -/
structure OrgView (User : Type) where
  creator : User
  users : List (OrgUserRow User)
  name : String
  city : String
  country : String
  homePage : String
  twitter : String
  description : String
  requireAuth : Bool
  address : String
  phonenumber : String
  numOfSubmissions : Nat
  dateModified : DateTime
  ownerFields : Option OwnerFields

/-- The end of a cache key: `anon`, `member`, or the name of a role. -/
inductive OrgCacheKey
  | anon
  | member
  | role (role : Role)
  deriving DecidableEq, Repr

/-- The fields that an update sets. -/
structure OrgUpdate where
  name : Option String := none
  email : Option String := none
  city : Option String := none
  country : Option String := none
  homePage : Option String := none
  twitter : Option String := none
  description : Option String := none
  requireAuth : Option Bool := none
  address : Option String := none
  phonenumber : Option String := none
  numOfSubmissions : Option Nat := none
  metadata : Option PyValue := none

/-- What `create_organization_object` takes from the request. -/
structure OrgCreation where
  name : Option String := none
  email : String := ""
  city : String := ""
  country : String := ""
  homePage : String := ""
  twitter : String := ""

/-- `_get_first_last_names`. -/
def getFirstLastNames (name : String) : String × String :=
  ((words name).headD "", joinWords (words name).tail)

/-- `KMSKey.is_expired` at the time `now`. -/
def KMSKey.isExpired (key : KMSKey) (now : DateTime) : Bool :=
  match key.expiryDate with
  | none => false
  | some expiryDate => decide (expiryDate.microseconds < now.microseconds)

namespace OrgRecord

variable (accounts : AccountData User) (record : OrgRecord User)

/-- `get_org_profile_cache_key`, after the name. -/
def cacheKey (requester : Option User) : OrgCacheKey :=
  match requester with
  | none => .anon
  | some user =>
      match record.org.getRoleInOrg user with
      | none => .member
      | some role => .role role

/-- `is_owner` of the serializer: the requester holds `can_add_project`. -/
def seesOwnerFields (requester : Option User) : Bool :=
  match requester.or accounts.anonymousUser with
  | none => false
  | some user =>
      decide (.canAddProject ∈
        record.org.objectPerms organizationProfilePerms record.org.perms user)

/-- A row of `_create_user_list`. -/
def userRow (user : User) : OrgUserRow User where
  user := user
  role := record.org.getRoleInOrg user
  names := if user = record.org.user then record.accountNames else accounts.names user
  gravatar := accounts.gravatar user

/-- `get_users`. -/
def getUsers : List (OrgUserRow User) :=
  let active := fun key =>
    (record.org.teams key).users.filter fun user => record.org.directory.isActive user
  let owners := active .owners
  let members := (active .members).filter fun user => user ∉ owners
  (owners ++ members).map (record.userRow accounts)

/-- `get_encryption_keys`. -/
def getEncryptionKeys (now : DateTime) : List KeyRow :=
  (record.kmsKeys.filter fun item => item.2.disabledAt.isNone).map fun item =>
    { id := item.1, description := item.2.description, isActive := item.2.isActive,
      isExpired := item.2.isExpired now, expiryDate := item.2.expiryDate,
      graceEndDate := item.2.graceEndDate, isAutomatic := item.2.createdBy.isNone }

/-- `OrganizationSerializer(...).data`. -/
def view (now : DateTime) (sees : Bool) : OrgView User where
  creator := record.creator
  users := record.getUsers accounts
  name := record.row.name
  city := record.row.city
  country := record.row.country
  homePage := record.row.homePage
  twitter := record.row.twitter
  description := record.row.description
  requireAuth := record.row.requireAuth
  address := record.row.address
  phonenumber := record.row.phonenumber
  numOfSubmissions := record.row.numOfSubmissions
  dateModified := record.row.dateModified
  ownerFields :=
    if sees then
      some { metadata := record.row.metadata, email := record.row.email,
             encryptionKeys := record.getEncryptionKeys now }
    else none

/-- `OrganizationSerializer.update`. The owner's fields are only taken from who sees them. -/
def update (now : DateTime) (sees : Bool) (data : OrgUpdate) : OrgRecord User :=
  { record with
      row :=
        { name := data.name.getD record.row.name
          email := if sees then data.email.getD record.row.email else record.row.email
          city := data.city.getD record.row.city
          country := data.country.getD record.row.country
          homePage := data.homePage.getD record.row.homePage
          twitter := data.twitter.getD record.row.twitter
          description := data.description.getD record.row.description
          requireAuth := data.requireAuth.getD record.row.requireAuth
          address := data.address.getD record.row.address
          phonenumber := data.phonenumber.getD record.row.phonenumber
          numOfSubmissions := data.numOfSubmissions.getD record.row.numOfSubmissions
          metadata := if sees then data.metadata.getD record.row.metadata else record.row.metadata
          dateModified := now }
      accountNames := (data.name.map getFirstLastNames).getD record.accountNames }

/-- A new organization with the account `account`, as `OrganizationSerializer.create` and the
handlers of `post_save` leave it. -/
def create (now : DateTime) (name : String) (account creator : User) (data : OrgCreation)
    (kmsKeys : List (Nat × KMSKey)) : OrgRecord User where
  org :=
    { user := account
      directory := accounts.directory
      perms := ⟨organizationProfilePerms.flatMap fun c => [(account, c), (creator, c)], []⟩
      userProfile :=
        ⟨(Role.ownerRole.permissions .userProfile).flatMap fun c => [(account, c), (creator, c)],
          []⟩
      teams
        | .owners =>
            { name := name ++ "#Owners"
              users := [creator]
              perms := permsForTeam.flatMap fun c => [(account, c), (creator, c)]
              users_nodup := List.nodup_singleton creator }
        | .members =>
            { name := name ++ "#members"
              users := [account]
              perms := permsForTeam.flatMap fun c => [(account, c), (creator, c)]
              users_nodup := List.nodup_singleton account }
        | .other _ => { name := "", users := [], perms := [], users_nodup := List.nodup_nil }
      projectOrg := []
      project _ := { createdBy := none, perms := ⟨[], []⟩, dataviews := [], entityLists := [] }
      forms := [] }
  creator := creator
  row :=
    { name := data.name.getD name, email := data.email, city := data.city,
      country := data.country, homePage := data.homePage, twitter := data.twitter,
      description := "", requireAuth := accounts.requireAuthentication, address := "",
      phonenumber := "", numOfSubmissions := 0, metadata := .dict [], dateModified := now }
  accountNames := getFirstLastNames (data.name.getD name)
  kmsKeys := kmsKeys

end OrgRecord

/-- The organizations by name, the cache, and the clock. -/
structure OrgStore (User : Type) where
  orgs : String → Option (OrgRecord User)
  cache : String → OrgCacheKey → Option (OrgView User)
  now : DateTime

/-- What can happen next. -/
inductive OrgRequest (User : Type)
  | create (name : String) (account creator : User) (data : OrgCreation)
      (kmsKeys : List (Nat × KMSKey))
  | retrieve (name : String) (requester : Option User)
  | update (name : String) (requester : Option User) (data : OrgUpdate)
  | destroy (name : String) (requester : Option User)
  | addUser (name : String) (user : User) (role : Option Role)
  | removeUser (name : String) (user : User)
  | wait (now : DateTime)

namespace OrgStore

variable (accounts : AccountData User) (s : OrgStore User)

/-- The store with another record under a name. -/
def setOrg (name : String) (record : Option (OrgRecord User)) : OrgStore User :=
  { s with orgs := fun n => if n = name then record else s.orgs n }

/-- `safe_cache_set`, and `safe_cache_delete` with `none`. -/
def setCache (name : String) (key : OrgCacheKey) (entry : Option (OrgView User)) :
    OrgStore User :=
  { s with cache := fun n k => if n = name ∧ k = key then entry else s.cache n k }

/-- `invalidate_organization_cache`. -/
def invalidateOrganizationCache (name : String) : OrgStore User :=
  (rolesOrdered.foldl (fun s role => s.setCache name (.role role) none) s).setCache name .anon none

/-- `retrieve`: the response, with whether it is from the cache. -/
def retrieve (name : String) (requester : Option User) :
    Option (OrgView User × Bool) × OrgStore User :=
  match s.orgs name with
  | none => (none, s)
  | some record =>
      match s.cache name (record.cacheKey requester) with
      | some entry => (some (entry, true), s)
      | none =>
          let data := record.view accounts s.now (record.seesOwnerFields accounts requester)
          (some (data, false), s.setCache name (record.cacheKey requester) (some data))

/-- The state after a request; `none` when there is no such organization, or already one with
the name of a new one. -/
def act : OrgRequest User → Option (OrgStore User)
  | .create name account creator data kmsKeys =>
      match s.orgs name with
      | some _ => none
      | none =>
          let record := OrgRecord.create accounts s.now name account creator data kmsKeys
          -- the serializer has no instance when it is made, so that all fields are shown
          some ((s.setOrg name (some record)).setCache name (record.cacheKey (some creator))
            (some (record.view accounts s.now true)))
  | .retrieve name requester => some (s.retrieve accounts name requester).2
  | .update name requester data =>
      match s.orgs name with
      | none => none
      | some record =>
          let sees := record.seesOwnerFields accounts requester
          let record := record.update s.now sees data
          some ((s.setOrg name (some record)).setCache name (record.cacheKey requester)
            (some (record.view accounts s.now sees)))
  | .destroy name requester =>
      match s.orgs name with
      | none => none
      | some record =>
          some ((s.setCache name (record.cacheKey requester) none).setOrg name none)
  | .addUser name user role =>
      match s.orgs name with
      | none => none
      | some record =>
          some ((s.setOrg name (some { record with org := record.org.addMember user role }))
            |>.invalidateOrganizationCache name)
  | .removeUser name user =>
      match s.orgs name with
      | none => none
      | some record =>
          some ((s.setOrg name (some { record with org := record.org.removeMember user }))
            |>.invalidateOrganizationCache name)
  | .wait now => some { s with now := now }

end OrgStore

/-- The steps of the requests. -/
def OrgCacheStep (accounts : AccountData User) (s : OrgStore User) (request : OrgRequest User)
    (s' : OrgStore User) : Prop :=
  s.act accounts request = some s'

end Onadata
