import Onadata.Libs.Permissions

/-!
# `Onadata.Libs.Filters`: which attachments a user is shown

`AttachmentFilter` and the mixin `XFormPermissionFilterMixin` of `libs/filters.py`,
`exclude_items_from_queryset_using_xform_meta_perms` of `libs/permissions.py`,
`has_permission` and `has_attachment_permission` of `libs/utils/user_auth.py`, and
`Attachment.get_xform`.

The forms that guardian lists for a user, the filter of a dataview and the order of a Python
set are parameters. A parameter of a request that is empty is absent. `xform` can also be in
the data of the request, when it is not in the URL.
-/

set_option autoImplicit false

namespace Onadata

/-- What the filters read of a form. `metaPerms` says whether it has metadata of the type
`xform_meta_perms`. -/
structure FilterForm (User : Type) where
  uuid : String
  user : User
  sharedData : Bool
  metaPerms : Bool
  deleted : Bool
  organizationActive : Bool
  deriving DecidableEq, Repr

/-- A submission and its form. -/
structure FilterInstance where
  pk : Nat
  xform : Nat
  deriving DecidableEq, Repr

/-- An attachment. `xform` is the denormalised column, and `user` is who submitted it. -/
structure FilterAttachment (User : Type) where
  pk : Nat
  inst : FilterInstance
  xform : Option Nat
  user : Option User
  deriving DecidableEq, Repr

/-- A dataview: its form, and what its filters keep. -/
structure FilterDataview (User : Type) where
  xform : Nat
  keeps : FilterAttachment User → Bool

/-- The tables, by primary key. -/
structure AttachmentTables (User : Type) where
  xforms : Nat → Option (FilterForm User)
  dataviews : Nat → Option (FilterDataview User)
  mergedXForms : Nat → Option (List Nat)
  instances : Nat → Option FilterInstance
  attachments : Nat → Option (FilterAttachment User)

/-- A parameter that is to be a number. -/
inductive PkParam
  | pk (n : Nat)
  | text (value : String)
  deriving DecidableEq, Repr

/-- What is read of a request and of the view. `user` is `none` for an anonymous one, `canView`
are the forms that guardian lists for the user, `viewPk` and `viewFormid` are the keyword
arguments of the view. -/
structure AttachmentRequest (User : Type) where
  user : Option User
  hasPerm : Codename → Nat → Bool
  canView : Nat → Bool
  publicLink : Option String := none
  xform : Option PkParam := none
  dataview : Option PkParam := none
  mergedXform : Option PkParam := none
  filename : Bool := false
  instanceId : Option PkParam := none
  viewPk : Option Nat := none
  viewFormid : Option Nat := none

/-- Why no attachments are returned. -/
inductive FilterError
  | parseError (message : String)
  | http404
  | doesNotExist
  | typeError
  deriving DecidableEq, Repr

/-- The order in which the members of a set are listed. -/
structure SetOrder where
  order : List Nat → List Nat
  mem_order : ∀ items n, n ∈ order items ↔ n ∈ items

/-- `int_or_parse_error`. -/
def intOrParseError (message : String) : PkParam → Except FilterError Nat
  | .pk n => .ok n
  | .text _ => .error (.parseError message)

/-- `get_object_or_404`. -/
def getObjectOr404 {α : Type} : Option α → Except FilterError α
  | some object => .ok object
  | none => .error .http404

variable {User : Type} [DecidableEq User]

namespace FilterForm

/-- `deleted_at__isnull=True, project__organization__is_active=True`. -/
def live (form : FilterForm User) : Bool :=
  !form.deleted && form.organizationActive

end FilterForm

/-- `exclude_items_from_queryset_using_xform_meta_perms` for the form `pk`. -/
def excludeItemsFromQuerysetUsingXformMetaPerms (request : AttachmentRequest User) (pk : Nat)
    (form : FilterForm User) (queryset : List (FilterAttachment User)) :
    Except FilterError (List (FilterAttachment User)) :=
  if request.hasPerm .viewXformAll pk || form.sharedData || !form.metaPerms then .ok queryset
  else if request.hasPerm .viewXformData pk then
    match request.user with
    -- an anonymous user is no value for a foreign key
    | none => .error .typeError
    | some user => .ok (queryset.filter fun a => !(a.user ≠ some user && a.xform = some pk))
  else .ok []

namespace AttachmentTables

variable (db : AttachmentTables User)

/-- `attachment.get_xform()`, with its key. -/
def getXForm (attachment : FilterAttachment User) : Option (Nat × FilterForm User) :=
  let pk := attachment.xform.getD attachment.inst.xform
  (db.xforms pk).map (pk, ·)

/-! ### The forms of a request -/

/-- What `_xform_filter` finds: `self.xform`, `xform_qs`, `public_forms` and the keyword
arguments of the dataview. -/
structure RequestedForms (User : Type) where
  selfXform : Option Nat
  xformQs : List Nat
  publicForms : List Nat
  keeps : FilterAttachment User → Bool

/-- The first half of `_xform_filter`: which forms are asked for. -/
def requestedForms (request : AttachmentRequest User) (queryset : List (FilterAttachment User)) :
    Except FilterError (RequestedForms User) :=
  match request.dataview, request.mergedXform, request.xform with
  | some dataview, _, _ => do
      let pk ← intOrParseError
        "Invalid value for dataview ID. It must be a positive integer." dataview
      let view ← getObjectOr404 (db.dataviews pk)
      return ⟨none, [view.xform], [], view.keeps⟩
  | none, some merged, _ => do
      let pk ← intOrParseError
        "Invalid value for Merged Dataset ID. It must be a positive integer." merged
      let xforms ← getObjectOr404 (db.mergedXForms pk)
      return ⟨none, xforms, [], fun _ => true⟩
  | none, none, some xform => do
      let pk ← intOrParseError
        "Invalid value for formid. It must be a positive integer." xform
      let _ ← getObjectOr404 ((db.xforms pk).filter (·.organizationActive))
      return ⟨some pk, [pk], [pk], fun _ => true⟩
  | none, none, none =>
      if request.filename then do
        let attachment ← getObjectOr404 (request.viewPk.bind db.attachments)
        let pk := attachment.xform.getD attachment.inst.xform
        return ⟨some pk, [pk], [pk], fun _ => true⟩
      else
        match request.viewPk, request.viewFormid with
        | some pk, _ =>
            let attachments := queryset.filter (·.pk = pk)
            return ⟨none, attachments.filterMap (·.xform), [], fun _ => true⟩
        | none, some formid => return ⟨none, [formid], [], fun _ => true⟩
        | none, none => return ⟨none, [], [], fun _ => true⟩

/-- The second half of `_xform_filter`: `pk` is one of the forms that the user may see. -/
def xformFilter (request : AttachmentRequest User) (forms : RequestedForms User) (pk : Nat) :
    Bool :=
  match db.xforms pk with
  | none => false
  | some form =>
      if request.user.isNone then forms.xformQs.contains pk && form.live && form.sharedData
      else
        (forms.xformQs.contains pk && form.live && request.canView pk) ||
          (forms.publicForms.contains pk && form.sharedData && form.live)

/-- `_xform_filter_queryset` with the keyword `xform`. -/
def xformFilterQueryset (request : AttachmentRequest User) (forms : RequestedForms User)
    (queryset : List (FilterAttachment User)) : List (FilterAttachment User) :=
  queryset.filter fun a => (a.xform.any (db.xformFilter request forms)) && forms.keeps a

/-- The form whose meta permissions are applied: `self.xform`, or the first of the forms of the
attachments. -/
def appliedForm (set : SetOrder) (forms : RequestedForms User)
    (queryset : List (FilterAttachment User)) : Option Nat :=
  match forms.selfXform with
  | some pk => some pk
  | none => ((set.order (queryset.filterMap (·.xform))).filter (· ≠ 0)).head?

/-- The filter by `instance`. -/
def filterInstance (request : AttachmentRequest User) (queryset : List (FilterAttachment User)) :
    Except FilterError (List (FilterAttachment User)) :=
  match request.instanceId with
  | none => .ok queryset
  | some param => do
      let pk ← intOrParseError
        "Invalid value for instance_id. It must be a positive integer." param
      let found ← getObjectOr404 ((db.instances pk).filter fun i =>
        (db.xforms i.xform).any FilterForm.live)
      return queryset.filter (·.inst.pk = found.pk)

/-- The filter by the meta permissions of the applied form. -/
def filterMetaPerms (request : AttachmentRequest User) (set : SetOrder)
    (forms : RequestedForms User) (queryset : List (FilterAttachment User)) :
    Except FilterError (List (FilterAttachment User)) :=
  match appliedForm set forms queryset with
  | none => .ok queryset
  | some pk =>
      match (db.xforms pk).filter fun form => forms.selfXform.isSome || form.live with
      | none => .error .doesNotExist
      | some form => excludeItemsFromQuerysetUsingXformMetaPerms request pk form queryset

/-- `AttachmentFilter.filter_queryset`. -/
def filterQueryset (request : AttachmentRequest User) (set : SetOrder)
    (queryset : List (FilterAttachment User)) : Except FilterError (List (FilterAttachment User)) := do
  let forms ← db.requestedForms request queryset
  let queryset ← db.filterMetaPerms request set forms
    (db.xformFilterQueryset request forms queryset)
  db.filterInstance request queryset

/-! ### The media views -/

/-- `has_permission`. -/
def hasPermission (request : AttachmentRequest User) (pk : Nat) (form : FilterForm User) : Bool :=
  form.sharedData || request.publicLink = some form.uuid || request.user = some form.user ||
    request.hasPerm .viewXform pk || request.hasPerm .changeXform pk

/-- `has_attachment_permission`. -/
def hasAttachmentPermission (request : AttachmentRequest User) (attachment : FilterAttachment User) :
    Bool :=
  match db.getXForm attachment with
  | none => false
  | some (pk, form) =>
      if !hasPermission request pk form then false
      else if form.sharedData || request.publicLink = some form.uuid then true
      else if request.user.isNone then false
      else
        match excludeItemsFromQuerysetUsingXformMetaPerms request pk form [attachment] with
        | .ok permitted => !permitted.isEmpty
        | .error _ => false

end AttachmentTables

end Onadata
