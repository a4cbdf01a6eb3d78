import Onadata.Lib.PyText
import Onadata.Lib.ResponseCache
import Onadata.Libs.Utils.XformUtils

/-!
# `Onadata.Apps.Api.Viewsets.XformListViewset`: the OpenRosa form list

`XFormListViewSet.list` of `apps/api/viewsets/xform_list_viewset.py` for a form and for a
project, with `filter_queryset`, the filters of `libs/filters.py` that it runs, and the key of
`get_xform_list_cache_key` in `apps/api/tools.py`.

`FormListWorld` is what the requests read and do not change. The requesters are active users.
`reverse` is given by what it is called with. Left out: the lists of a username without a form,
which have no cache key, `HEAD`, the previews, and the headers.
-/

set_option autoImplicit false

namespace Onadata

open Onadata.Lib

variable {User Team : Type} [DecidableEq User] [DecidableEq Team]

/-- The codenames of `XForm`. -/
def xformPerms : List Codename :=
  [.addXform, .changeXform, .deleteXform, .viewXform, .viewXformAll, .viewXformData,
    .reportXform, .moveXform, .transferXform, .canExportXformData, .deleteSubmission]

/-- The codenames of `Project` that the roles are read from. -/
def listedProjectPerms : List Codename := Role.ownerRole.permissions .project

/-- A form as the list reads it. `hasMedia`: there is metadata of the type media for it. -/
structure ListedForm (User Team : Type) where
  pk : Nat
  idString : String
  title : String
  version : String
  hash : String
  description : String
  user : User
  project : Nat
  shared : Bool
  downloadable : Bool
  deleted : Bool
  isMergedDataset : Bool
  hasMedia : Bool
  perms : ObjectPermissions User Team

/-- A project as the list reads it. `organizationActive`: `organization.is_active`. -/
structure ListedProject (User Team : Type) where
  deleted : Bool
  organizationActive : Bool
  perms : ObjectPermissions User Team

/-- What the requests read: the forms in the order of the database, the projects, the accounts,
and the submissions with their forms. -/
structure FormListWorld (User Team : Type) where
  forms : List (ListedForm User Team)
  pks_nodup : (forms.map (·.pk)).Nodup
  project : Nat → Option (ListedProject User Team)
  members : Team → List User
  isSuperuser : User → Bool
  requireAuth : User → Bool
  username : User → String
  userByName : String → Option User
  instances : List (Nat × Nat)

/-- What the URL of a request names: a form, perhaps with a username or a submission, or a
project. -/
inductive FormListTarget
  | form (username : Option String) (pk : Nat) (submission : Option Nat)
  | project (pk : Nat)
  deriving DecidableEq, Repr

/-- A request. `user` is `none` for an anonymous one; `host` is what the absolute URLs start
with. -/
structure FormListRequest (User : Type) where
  host : String
  user : Option User
  target : FormListTarget
  formID : Option String
  deriving DecidableEq, Repr

/-- What a request can be refused with. -/
inductive FormListError
  | notAuthenticated
  | notFound
  deriving DecidableEq, Repr

/-- A URL as `reverse` is asked for it. -/
structure ListUrl where
  name : String
  host : String
  username : String
  pk : Nat
  deriving DecidableEq, Repr

/-- An entry of the list. -/
structure FormListRow where
  formID : String
  name : String
  version : String
  hash : String
  descriptionText : String
  downloadUrl : ListUrl
  manifestUrl : Option ListUrl
  deriving DecidableEq, Repr

/-- The key of an entry of the cache. Without a role it ends in `-anon`. -/
inductive FormListKey
  | form (pk : Nat) (role : Option Role)
  | project (pk : Nat) (role : Option Role)
  deriving DecidableEq, Repr

namespace FormListWorld

variable (world : FormListWorld User Team)

/-- `get_perms(user, obj)`. `all` are the codenames of the class of `obj`. -/
def permsOn (all : List Codename) (p : ObjectPermissions User Team) (user : User) :
    List Codename :=
  if world.isSuperuser user then all else getPerms p world.members user

/-- The role in `get_xform_list_cache_key`. -/
def roleKey (user : Option User) (all : List Codename) (p : ObjectPermissions User Team)
    (cls : ObjClass) : Option Role :=
  match user with
  | none => none
  | some user => getRole (world.permsOn all p user) cls

/-- `project__organization__is_active`. -/
def organizationActive (form : ListedForm User Team) : Bool :=
  match world.project form.project with
  | none => false
  | some project => project.organizationActive

/-- The filter of the class's `queryset`. -/
def isListable (form : ListedForm User Team) : Bool :=
  form.downloadable && !form.deleted && !form.isMergedDataset && world.organizationActive form

/-- `get_queryset()`. -/
def getQueryset : List (ListedForm User Team) := world.forms.filter world.isListable

/-- The user holds `report_xform`. -/
def reports (user : User) (form : ListedForm User Team) : Bool :=
  decide (.reportXform ∈ world.permsOn xformPerms form.perms user)

/-- The filter with a profile. -/
def ofProfile (request : FormListRequest User) (owner : User)
    (queryset : List (ListedForm User Team)) :
    Except FormListError (List (ListedForm User Team)) :=
  if world.requireAuth owner ∧ request.user = none then .error .notAuthenticated
  else .ok (queryset.filter fun form => decide (form.user = owner) && form.downloadable)

/-- The first part of `filter_queryset`. -/
def filterByUrl (request : FormListRequest User) (queryset : List (ListedForm User Team)) :
    Except FormListError (List (ListedForm User Team)) :=
  match request.target with
  | .form (some name) _ _ =>
      match world.userByName name with
      | none => .error .notFound
      | some owner => world.ofProfile request owner queryset
  | .form none pk _ =>
      let queryset := queryset.filter (·.pk = pk)
      match queryset.head? with
      | none => .ok queryset
      | some first => world.ofProfile request first.user queryset
  | .project pk =>
      let queryset := queryset.filter (·.project = pk)
      match queryset.head? with
      | none => .ok queryset
      | some first => world.ofProfile request first.user queryset

/-- `XFormListObjectPermissionFilter`. -/
def filterByPermission (request : FormListRequest User) (queryset : List (ListedForm User Team)) :
    Except FormListError (List (ListedForm User Team)) :=
  match request.user, request.target with
  | none, _ => .ok queryset
  | some user, .form _ pk _ =>
      match queryset.find? (·.pk = pk) with
      | none => .error .notFound
      | some form =>
          -- a public form is returned whoever asks
          if form.shared then .ok (queryset.filter (·.pk = pk))
          else .ok (queryset.filter (world.reports user))
  | some user, .project _ => .ok (queryset.filter (world.reports user))

/-- `XFormListXFormPKFilter`. -/
def filterByPk (request : FormListRequest User) (queryset : List (ListedForm User Team)) :
    Except FormListError (List (ListedForm User Team)) :=
  match request.target with
  | .form _ pk _ =>
      let queryset := queryset.filter (·.pk = pk)
      if queryset.isEmpty then .error .notFound else .ok queryset
  | .project _ => .ok queryset

/-- The `formID` of the request allows the form. -/
def allowsFormID (request : FormListRequest User) (form : ListedForm User Team) : Bool :=
  match request.formID with
  | none => true
  | some text => decide (strip text = "") || decide (form.idString = strip text)

/-- `filter_queryset`. -/
def filterQueryset (request : FormListRequest User) :
    Except FormListError (List (ListedForm User Team)) := do
  let queryset ← world.filterByUrl request world.getQueryset
  let queryset ← world.filterByPermission request queryset
  let queryset ← filterByPk request queryset
  return (queryset.filter (allowsFormID request)).filter world.isListable

/-- `XFormListSerializer`. -/
def serialize (host : String) (form : ListedForm User Team) : FormListRow where
  formID := form.idString
  name := form.title
  version := form.version
  hash := form.hash
  descriptionText := form.description
  downloadUrl := ⟨"download_xform", host, world.username form.user, form.pk⟩
  manifestUrl :=
    if form.hasMedia then some ⟨"manifest-url", host, world.username form.user, form.pk⟩ else none

/-- `_validate_submission_belongs_to_xform`. -/
def validateSubmission (request : FormListRequest User) : Except FormListError Unit :=
  match request.target with
  | .form _ pk (some submission) =>
      if (submission, pk) ∈ world.instances ∧
          ∃ form ∈ world.forms, form.pk = pk ∧ form.deleted = false ∧
            world.organizationActive form = true then
        .ok ()
      else .error .notFound
  | _ => .ok ()

/-- `_get_xform_list_cache_key`. -/
def getCacheKey (request : FormListRequest User) : Except FormListError (Option FormListKey) :=
  match request.target with
  | .form _ pk _ =>
      match world.forms.find? (·.pk = pk) with
      | none => .error .notFound
      | some form =>
          if form.deleted = false ∧ world.organizationActive form = true then
            .ok (some (.form pk (world.roleKey request.user xformPerms form.perms .xform)))
          else .error .notFound
  | .project pk =>
      match world.project pk with
      | none => .ok none
      | some project =>
          if project.deleted = false ∧ project.organizationActive = true then
            .ok (some (.project pk
              (world.roleKey request.user listedProjectPerms project.perms .project)))
          else .ok none

/-- The part of `list` after the cache is asked. -/
def compute (request : FormListRequest User) : Except FormListError (List FormListRow) :=
  (world.filterQueryset request).map (·.map (world.serialize request.host))

/-- `list`, and the cache after it. -/
def list (cache : FormListKey → Option (List FormListRow)) (request : FormListRequest User) :
    Except FormListError (List FormListRow) × (FormListKey → Option (List FormListRow)) :=
  match world.validateSubmission request with
  | .error error => (.error error, cache)
  | .ok () =>
      match world.getCacheKey request with
      | .error error => (.error error, cache)
      | .ok none => (world.compute request, cache)
      | .ok (some key) =>
          match cache key with
          | some rows => (.ok rows, cache)
          | none =>
              match world.compute request with
              | .ok rows => (.ok rows, keep cache key rows)
              | .error error => (.error error, cache)

/-- `list` without the cache. -/
def listUncached (request : FormListRequest User) : Except FormListError (List FormListRow) := do
  world.validateSubmission request
  let _ ← world.getCacheKey request
  world.compute request

end FormListWorld

end Onadata
