import Onadata.Lib.ExceptList
import Onadata.Libs.Filters

/-!
# `Onadata.Proofs.Libs.AttachmentConfinement`: the attachments of other users

On a form with meta permissions, a user without `view_xform_all` is to see the own attachments
only. `AttachmentFilter` applies the meta permissions of one form: of a merged dataset "only the
first form" of its attachments. `has_attachment_permission`, which "mirrors what
`AttachmentFilter` enforces", compares the denormalised column `xform`, which "is null on rows
created before it was added".

`attachments_confined_iff` says for each of the two when it shows nothing of the others.
`filterRight_of_one_form` is the usual case: the request reaches the attachments of one form.
-/

set_option autoImplicit false

namespace Onadata

open Onadata.Lib

variable {User : Type} [DecidableEq User]

/-- The form `pk` has meta permissions that bind the user of the request. -/
def MetaPermsBind (request : AttachmentRequest User) (pk : Nat) (form : FilterForm User) : Prop :=
  form.metaPerms = true ∧ form.sharedData = false ∧ request.hasPerm .viewXformAll pk = false

/-- `exclude_items_from_queryset_using_xform_meta_perms` for the form `pk` leaves out the
attachment. -/
def HidesFrom (request : AttachmentRequest User) (pk : Nat) (form : FilterForm User)
    (a : FilterAttachment User) : Prop :=
  MetaPermsBind request pk form ∧
    (request.hasPerm .viewXformData pk = false ∨ (a.user ≠ request.user ∧ a.xform = some pk))

/-- What the filter of a form leaves. -/
theorem mem_excludeItems_iff {request : AttachmentRequest User} {pk : Nat}
    {form : FilterForm User} {queryset shown : List (FilterAttachment User)}
    (h : excludeItemsFromQuerysetUsingXformMetaPerms request pk form queryset = .ok shown)
    (a : FilterAttachment User) : a ∈ shown ↔ a ∈ queryset ∧ ¬ HidesFrom request pk form a := by
  unfold excludeItemsFromQuerysetUsingXformMetaPerms at h
  split at h
  · rename_i hopen
    cases h
    have hbind : ¬ MetaPermsBind request pk form := by
      intro hbind
      obtain ⟨hmeta, hshared, hall⟩ := hbind
      simp [hmeta, hshared, hall] at hopen
    exact ⟨fun ha => ⟨ha, fun hhides => hbind hhides.1⟩, And.left⟩
  · rename_i hclosed
    have hbind : MetaPermsBind request pk form := by
      simp only [Bool.or_eq_true, Bool.not_eq_true', not_or, Bool.not_eq_true,
        Bool.not_eq_false] at hclosed
      exact ⟨hclosed.2, hclosed.1.2, hclosed.1.1⟩
    split at h
    · rename_i hdata
      split at h
      · cases h
      · rename_i user huser
        cases h
        unfold HidesFrom
        rw [huser, List.mem_filter]
        simp only [hbind, hdata, true_and]
        grind
    · rename_i hdata
      cases h
      have hhides : HidesFrom request pk form a :=
        ⟨hbind, Or.inl (Bool.not_eq_true _ ▸ hdata)⟩
      exact ⟨fun ha => absurd ha List.not_mem_nil, fun ha => absurd hhides ha.2⟩

/-- Only an anonymous user makes the filter of a form fail, and only when it binds. -/
theorem excludeItems_error {request : AttachmentRequest User} {pk : Nat}
    {form : FilterForm User} {queryset : List (FilterAttachment User)} {error : FilterError}
    (h : excludeItemsFromQuerysetUsingXformMetaPerms request pk form queryset = .error error) :
    request.user = none ∧ form.sharedData = false := by
  unfold excludeItemsFromQuerysetUsingXformMetaPerms at h
  split at h
  · cases h
  · rename_i hclosed
    split at h
    · split at h
      · rename_i huser
        refine ⟨huser, ?_⟩
        simp only [Bool.or_eq_true, not_or, Bool.not_eq_true] at hclosed
        exact hclosed.1.2
      · cases h
    · cases h

namespace AttachmentTables

variable (db : AttachmentTables User)

/-- The attachment is of a submission to a form whose meta permissions bind the user, and is not
an own attachment that the user may see. -/
def ToHide (request : AttachmentRequest User) (a : FilterAttachment User) : Prop :=
  ∃ form, db.xforms a.inst.xform = some form ∧ MetaPermsBind request a.inst.xform form ∧
    ¬ (request.user.isSome = true ∧ a.user = request.user ∧
      request.hasPerm .viewXformData a.inst.xform = true)

/-- `AttachmentFilter` returns no attachment that is to be hidden. -/
def FilterRight (request : AttachmentRequest User) (set : SetOrder)
    (queryset : List (FilterAttachment User)) : Prop :=
  ∀ shown, db.filterQueryset request set queryset = .ok shown →
    ∀ a ∈ shown, ¬ db.ToHide request a

/-- `has_attachment_permission` lets nobody through to an attachment that is to be hidden, who
comes without the public link of its form. -/
def GateRight (request : AttachmentRequest User) (a : FilterAttachment User) : Prop :=
  (∀ pk form, db.getXForm a = some (pk, form) → request.publicLink ≠ some form.uuid) →
    db.hasAttachmentPermission request a = true → ¬ db.ToHide request a

/-- The one form whose meta permissions are applied to the attachments hides this one: it is
stored as an attachment of this form, or the user may see no data of this form at all. -/
def AppliedHides (request : AttachmentRequest User) (set : SetOrder)
    (forms : RequestedForms User) (queryset : List (FilterAttachment User)) (a : FilterAttachment User) :
    Prop :=
  ∃ pk form, appliedForm set forms queryset = some pk ∧ db.xforms pk = some form ∧
    HidesFrom request pk form a

/-- What the request reaches and is to be hidden is hidden by the applied form. -/
def AppliedFormHides (request : AttachmentRequest User) (set : SetOrder)
    (queryset : List (FilterAttachment User)) : Prop :=
  ∀ forms reached, db.requestedForms request queryset = .ok forms →
    db.filterInstance request (db.xformFilterQueryset request forms queryset) = .ok reached →
      ∀ a ∈ reached, db.ToHide request a →
        db.AppliedHides request set forms (db.xformFilterQueryset request forms queryset) a

/-- The gate is closed before the meta permissions, or the form of the attachment hides it: the
form is stored with the attachment, or the user may see no data of the form at all. -/
def GateHides (request : AttachmentRequest User) (a : FilterAttachment User) : Prop :=
  ∀ pk form, db.getXForm a = some (pk, form) → request.publicLink ≠ some form.uuid →
    db.ToHide request a →
      hasPermission request pk form = false ∨
        (form.sharedData = false ∧ (request.user = none ∨ HidesFrom request pk form a))

variable {db} {request : AttachmentRequest User} {set : SetOrder}
  {queryset : List (FilterAttachment User)}

/-! ### The filter -/

omit [DecidableEq User] in
/-- The filter by `instance` keeps the same attachments of every list. -/
theorem filterInstance_eq {shown : List (FilterAttachment User)}
    (h : db.filterInstance request queryset = .ok shown) :
    ∃ keep : FilterAttachment User → Bool, ∀ other : List (FilterAttachment User),
      db.filterInstance request other = .ok (other.filter keep) := by
  unfold filterInstance at h ⊢
  split at h
  · exact ⟨fun _ => true, fun other => by rw [List.filter_true]⟩
  · rename_i param hparam
    simp only [bind_eq_ok] at h
    obtain ⟨pk, hpk, found, hfound, -⟩ := h
    refine ⟨fun a => a.inst.pk = found.pk, fun other => ?_⟩
    simp only [hpk, hfound, bind, Except.bind, pure, Except.pure]

omit [DecidableEq User] in
/-- A form that an attachment is listed for is there, and is live. -/
theorem live_of_xformFilter {forms : RequestedForms User} {pk : Nat}
    (h : db.xformFilter request forms pk = true) :
    ∃ form, db.xforms pk = some form ∧ form.live = true ∧
      (request.user = none → form.sharedData = true) := by
  unfold xformFilter at h
  split at h
  · cases h
  · rename_i form hform
    refine ⟨form, hform, ?_, ?_⟩
    · split at h
      · grind
      · grind
    · intro hanonymous
      rw [hanonymous] at h
      grind

omit [DecidableEq User] in
/-- Where the request names a form, it asks for no other. -/
theorem eq_of_selfXform {forms : RequestedForms User} {pk k : Nat}
    (h : db.requestedForms request queryset = .ok forms) (hself : forms.selfXform = some pk)
    (hfilter : db.xformFilter request forms k = true) : k = pk := by
  have honly : forms.xformQs = [pk] ∧ forms.publicForms = [pk] := by
    unfold requestedForms at h
    split at h
    · simp only [bind_eq_ok, pure_eq_ok] at h
      obtain ⟨_, -, _, -, rfl⟩ := h
      cases hself
    · simp only [bind_eq_ok, pure_eq_ok] at h
      obtain ⟨_, -, _, -, rfl⟩ := h
      cases hself
    · simp only [bind_eq_ok, pure_eq_ok] at h
      obtain ⟨_, -, _, -, rfl⟩ := h
      cases hself
      exact ⟨rfl, rfl⟩
    · split at h
      · simp only [bind_eq_ok, pure_eq_ok] at h
        obtain ⟨_, -, rfl⟩ := h
        cases hself
        exact ⟨rfl, rfl⟩
      · split at h
        · cases h
          cases hself
        · cases h
          cases hself
        · cases h
          cases hself
  unfold xformFilter at hfilter
  rw [honly.1, honly.2] at hfilter
  split at hfilter
  · cases hfilter
  · split at hfilter
    · simp at hfilter
      exact hfilter.1.1
    · simp at hfilter
      grind

omit [DecidableEq User] in
/-- What passes the filter of the forms. -/
theorem mem_xformFilterQueryset_iff {forms : RequestedForms User} (a : FilterAttachment User) :
    a ∈ db.xformFilterQueryset request forms queryset ↔
      a ∈ queryset ∧ (∃ pk, a.xform = some pk ∧ db.xformFilter request forms pk = true) ∧
        forms.keeps a = true := by
  unfold xformFilterQueryset
  rw [List.mem_filter, Bool.and_eq_true, Option.any_eq_true]

omit [DecidableEq User] in
/-- The form whose meta permissions are applied is one that the request reaches, when there is an
attachment at all. -/
theorem xformFilter_appliedForm {forms : RequestedForms User} {pk : Nat} {a : FilterAttachment User}
    (hforms : db.requestedForms request queryset = .ok forms)
    (ha : a ∈ db.xformFilterQueryset request forms queryset)
    (hpk : appliedForm set forms (db.xformFilterQueryset request forms queryset) = some pk) :
    db.xformFilter request forms pk = true := by
  unfold appliedForm at hpk
  split at hpk
  · rename_i k hself
    cases hpk
    obtain ⟨-, ⟨j, -, hj⟩, -⟩ := (mem_xformFilterQueryset_iff a).mp ha
    rw [← eq_of_selfXform hforms hself hj]
    exact hj
  · have hmem := List.mem_of_head? hpk
    rw [List.mem_filter, set.mem_order, List.mem_filterMap] at hmem
    obtain ⟨⟨b, hb, hbpk⟩, -⟩ := hmem
    obtain ⟨-, ⟨j, hj, hfilter⟩, -⟩ := (mem_xformFilterQueryset_iff b).mp hb
    rw [hbpk] at hj
    cases hj
    exact hfilter

/-- What the filter by the meta permissions leaves. -/
theorem mem_filterMetaPerms_iff {forms : RequestedForms User} {shown : List (FilterAttachment User)}
    (h : db.filterMetaPerms request set forms queryset = .ok shown) (a : FilterAttachment User) :
    a ∈ shown ↔ a ∈ queryset ∧ ¬ db.AppliedHides request set forms queryset a := by
  unfold filterMetaPerms at h
  unfold AppliedHides
  split at h
  · rename_i hnone
    cases h
    rw [hnone]
    simp
  · rename_i pk hpk
    split at h
    · cases h
    · rename_i form hform
      have hxform : db.xforms pk = some form := (Option.filter_eq_some_iff.mp hform).1
      rw [mem_excludeItems_iff h a, hpk]
      simp [hxform]

/-- Where an attachment is reached, the filter by the meta permissions does not fail. -/
theorem exists_filterMetaPerms {forms : RequestedForms User} {a : FilterAttachment User}
    (hforms : db.requestedForms request queryset = .ok forms)
    (ha : a ∈ db.xformFilterQueryset request forms queryset) :
    ∃ shown, db.filterMetaPerms request set forms
      (db.xformFilterQueryset request forms queryset) = .ok shown := by
  unfold filterMetaPerms
  split
  · exact ⟨_, rfl⟩
  · rename_i pk hpk
    obtain ⟨form, hform, hlive, hshared⟩ :=
      live_of_xformFilter (xformFilter_appliedForm hforms ha hpk)
    rw [hform, Option.filter_some]
    simp only [hlive, Bool.or_true, if_true]
    cases hexclude : excludeItemsFromQuerysetUsingXformMetaPerms request pk form
        (db.xformFilterQueryset request forms queryset) with
    | ok shown => exact ⟨shown, rfl⟩
    | error error =>
        obtain ⟨hanonymous, hnot⟩ := excludeItems_error hexclude
        rw [hshared hanonymous] at hnot
        cases hnot

/-- The filter is right if and only if the applied form hides all that is to be hidden. -/
theorem filterRight_iff :
    db.FilterRight request set queryset ↔ db.AppliedFormHides request set queryset := by
  constructor
  · intro hright forms reached hforms hreached a ha hhide
    obtain ⟨keep, hkeep⟩ := filterInstance_eq hreached
    rw [hkeep] at hreached
    cases hreached
    obtain ⟨ha, hkept⟩ := List.mem_filter.mp ha
    have hleft : ∃ left, db.filterMetaPerms request set forms
        (db.xformFilterQueryset request forms queryset) = .ok left :=
      exists_filterMetaPerms hforms ha
    obtain ⟨left, hleft⟩ := hleft
    by_contra hnot
    have hmem : a ∈ left := (mem_filterMetaPerms_iff hleft a).mpr ⟨ha, hnot⟩
    have hshown : db.filterQueryset request set queryset = .ok (left.filter keep) := by
      unfold filterQueryset
      simp only [hforms, hleft, hkeep, bind, Except.bind]
    exact hright _ hshown a (List.mem_filter.mpr ⟨hmem, hkept⟩) hhide
  · intro hhides shown hshown a ha hhide
    unfold filterQueryset at hshown
    simp only [bind_eq_ok] at hshown
    obtain ⟨forms, hforms, left, hleft, hshown⟩ := hshown
    obtain ⟨keep, hkeep⟩ := filterInstance_eq hshown
    rw [hkeep] at hshown
    cases hshown
    obtain ⟨hmem, hkept⟩ := List.mem_filter.mp ha
    obtain ⟨hreached, hnot⟩ := (mem_filterMetaPerms_iff hleft a).mp hmem
    exact hnot (hhides forms _ hforms (hkeep _) a (List.mem_filter.mpr ⟨hreached, hkept⟩) hhide)

/-! ### The gate -/

/-- When the gate is open. -/
theorem hasAttachmentPermission_iff {pk : Nat} {form : FilterForm User} {a : FilterAttachment User}
    (hform : db.getXForm a = some (pk, form)) (hlink : request.publicLink ≠ some form.uuid) :
    db.hasAttachmentPermission request a = true ↔
      hasPermission request pk form = true ∧
        (form.sharedData = true ∨
          (request.user ≠ none ∧ ¬ HidesFrom request pk form a)) := by
  unfold hasAttachmentPermission
  rw [hform]
  dsimp only
  cases hperm : hasPermission request pk form with
  | false => simp
  | true =>
      cases hshared : form.sharedData with
      | true => simp
      | false =>
          cases huser : request.user with
          | none => simp [hlink]
          | some user =>
              cases hexclude :
                  excludeItemsFromQuerysetUsingXformMetaPerms request pk form [a] with
              | error error =>
                  have hnone := (excludeItems_error hexclude).1
                  rw [huser] at hnone
                  cases hnone
              | ok permitted =>
                  have hmem := mem_excludeItems_iff hexclude a
                  have hopen : (!permitted.isEmpty) = true ↔ a ∈ permitted := by
                    rw [Bool.not_eq_true', List.isEmpty_eq_false_iff_exists_mem]
                    constructor
                    · intro hexists
                      obtain ⟨b, hb⟩ := hexists
                      have hsame := ((mem_excludeItems_iff hexclude b).mp hb).1
                      rwa [List.mem_singleton.mp hsame] at hb
                    · exact fun ha => ⟨a, ha⟩
                  simp [hlink, hopen, hmem]

/-- The gate is right if and only if it is closed before the meta permissions, or these hide the
attachment. -/
theorem gateRight_iff (a : FilterAttachment User) :
    db.GateRight request a ↔ db.GateHides request a := by
  unfold GateRight GateHides
  cases hform : db.getXForm a with
  | none =>
      have hclosed : db.hasAttachmentPermission request a = false := by
        unfold hasAttachmentPermission
        rw [hform]
      simp [hclosed]
  | some found =>
      obtain ⟨pk, form⟩ := found
      constructor
      · intro hright pk' form' heq hlink hhide
        cases heq
        by_contra hnot
        have hopen := (hasAttachmentPermission_iff hform hlink).mpr (by grind)
        exact hright (fun pk' form' heq => by cases heq; exact hlink) hopen hhide
      · intro hhides hlink hopen hhide
        have hnolink := hlink pk form rfl
        obtain ⟨hperm, hrest⟩ := (hasAttachmentPermission_iff hform hnolink).mp hopen
        cases hhides pk form rfl hnolink hhide with
        | inl hclosed =>
            rw [hperm] at hclosed
            cases hclosed
        | inr hhidden =>
            obtain ⟨hshared, hhidden⟩ := hhidden
            cases hrest with
            | inl hopen' =>
                rw [hshared] at hopen'
                cases hopen'
            | inr hopen' =>
                cases hhidden with
                | inl hanonymous => exact hopen'.1 hanonymous
                | inr hhidden => exact hopen'.2 hhidden

/-! ### Both -/

/-- When neither of the two shows an attachment that is to be hidden. -/
theorem attachments_confined_iff (db : AttachmentTables User) (request : AttachmentRequest User)
    (set : SetOrder) (queryset : List (FilterAttachment User)) (a : FilterAttachment User) :
    (db.FilterRight request set queryset ↔ db.AppliedFormHides request set queryset) ∧
      (db.GateRight request a ↔ db.GateHides request a) :=
  ⟨filterRight_iff, gateRight_iff a⟩

/-! ### One form, with the column -/

/-- When the request reaches the attachments of one form, and each is stored with its form, the
filter is right. -/
theorem filterRight_of_one_form
    (hstored : ∀ a ∈ queryset, ∀ pk, a.xform = some pk → pk = a.inst.xform ∧ pk ≠ 0)
    (hone : ∀ forms, db.requestedForms request queryset = .ok forms →
      ∀ a ∈ db.xformFilterQueryset request forms queryset,
        ∀ b ∈ db.xformFilterQueryset request forms queryset, a.xform = b.xform) :
    db.FilterRight request set queryset := by
  rw [filterRight_iff]
  intro forms reached hforms hreached a ha hhide
  obtain ⟨keep, hkeep⟩ := filterInstance_eq hreached
  rw [hkeep] at hreached
  cases hreached
  have hmem := (List.mem_filter.mp ha).1
  obtain ⟨hqueryset, ⟨pk, hpk, hfilter⟩, -⟩ := (mem_xformFilterQueryset_iff a).mp hmem
  obtain ⟨heq, hpos⟩ := hstored a hqueryset pk hpk
  obtain ⟨form, hform, hbind, hnot⟩ := hhide
  rw [← heq] at hform hbind hnot
  refine ⟨pk, form, ?_, hform, hbind, ?_⟩
  · -- the applied form is the only one there is
    unfold appliedForm
    split
    · rename_i k hself
      rw [eq_of_selfXform hforms hself hfilter]
    · have hall : ∀ k ∈ (set.order ((db.xformFilterQueryset request forms queryset).filterMap
          (·.xform))).filter (· ≠ 0), k = pk := by
        intro k hk
        rw [List.mem_filter, set.mem_order, List.mem_filterMap] at hk
        obtain ⟨⟨b, hb, hbk⟩, -⟩ := hk
        rw [hone forms hforms b hb a hmem, hpk] at hbk
        exact (Option.some.inj hbk).symm
      have hin : pk ∈ (set.order ((db.xformFilterQueryset request forms queryset).filterMap
          (·.xform))).filter (· ≠ 0) := by
        rw [List.mem_filter, set.mem_order, List.mem_filterMap]
        exact ⟨⟨a, hmem, hpk⟩, by simpa using hpos⟩
      obtain ⟨k, rest, hlist⟩ := List.exists_cons_of_ne_nil (List.ne_nil_of_mem hin)
      rw [hlist, List.head?_cons, hall k (hlist ▸ List.mem_cons_self)]
  · by_cases hdata : request.hasPerm .viewXformData pk = true
    · refine Or.inr ⟨fun hown => hnot ⟨?_, hown, hdata⟩, hpk⟩
      -- an anonymous user only reaches shared forms
      cases huser : request.user with
      | some user => rfl
      | none =>
          obtain ⟨form', hform', -, hshared⟩ := live_of_xformFilter hfilter
          rw [hform] at hform'
          cases hform'
          have hclosed := hbind.2.1
          rw [hshared huser] at hclosed
          cases hclosed
    · exact Or.inl (Bool.not_eq_true _ ▸ hdata)

/-- The gate is right for an attachment that is stored with its form. -/
theorem gateRight_of_stored {a : FilterAttachment User} (hstored : a.xform = some a.inst.xform) :
    db.GateRight request a := by
  rw [gateRight_iff]
  intro pk form hform hlink hhide
  obtain ⟨form', hform', hbind, hnot⟩ := hhide
  have hsame : pk = a.inst.xform ∧ form = form' := by
    unfold getXForm at hform
    rw [hstored] at hform
    simp only [Option.getD_some, hform', Option.map_some, Option.some.injEq, Prod.mk.injEq]
      at hform
    exact ⟨hform.1.symm, hform.2.symm⟩
  obtain ⟨rfl, rfl⟩ := hsame
  refine Or.inr ⟨hbind.2.1, ?_⟩
  cases huser : request.user with
  | none => exact Or.inl rfl
  | some user =>
      refine Or.inr ⟨hbind, ?_⟩
      by_cases hdata : request.hasPerm .viewXformData a.inst.xform = true
      · refine Or.inr ⟨fun hown => hnot ⟨?_, hown, hdata⟩, hstored⟩
        rw [huser]
        rfl
      · exact Or.inl (Bool.not_eq_true _ ▸ hdata)

/-- Forms 1 and 2 have meta permissions and are in the merged dataset 9. -/
def mergedForms : AttachmentTables Nat where
  xforms pk := if pk = 1 ∨ pk = 2 then some ⟨"form", 0, false, true, false, true⟩ else none
  dataviews _ := none
  mergedXForms pk := if pk = 9 then some [1, 2] else none
  instances _ := none
  attachments _ := none

/-- A user who may see the own data of both forms asks for the merged dataset. -/
def mergedRequest : AttachmentRequest Nat where
  user := some 7
  hasPerm codename _ := codename = .viewXform || codename = .viewXformData
  canView _ := true
  mergedXform := some (.pk 9)

/-- The attachment of user 3 to form 2 is returned after the own one to form 1. An attachment of
user 3 that has no stored form passes the gate. -/
theorem not_attachments_confined :
    ¬ (∀ (db : AttachmentTables Nat) (request : AttachmentRequest Nat) (set : SetOrder)
        (queryset : List (FilterAttachment Nat)), db.FilterRight request set queryset) ∧
      ¬ ∀ (db : AttachmentTables Nat) (request : AttachmentRequest Nat) (a : FilterAttachment Nat),
        db.GateRight request a := by
  have hhide : ∀ a : FilterAttachment Nat, (a.inst.xform = 1 ∨ a.inst.xform = 2) →
      a.user ≠ some 7 → mergedForms.ToHide mergedRequest a := by
    intro a hform huser
    refine ⟨⟨"form", 0, false, true, false, true⟩, if_pos hform, ⟨rfl, rfl, rfl⟩, ?_⟩
    exact fun hown => huser hown.2.1
  constructor
  · intro h
    have hshown := h mergedForms mergedRequest ⟨id, fun _ _ => Iff.rfl⟩
      [⟨1, ⟨11, 1⟩, some 1, some 7⟩, ⟨2, ⟨12, 2⟩, some 2, some 3⟩] _ rfl
      ⟨2, ⟨12, 2⟩, some 2, some 3⟩ (by decide)
    exact hshown (hhide _ (Or.inr rfl) (by decide))
  · intro h
    have hgate := h mergedForms mergedRequest ⟨3, ⟨11, 1⟩, none, some 3⟩
      (fun _ _ _ => nofun) (by decide)
    exact hgate (hhide _ (Or.inl rfl) (by decide))

end AttachmentTables

end Onadata
