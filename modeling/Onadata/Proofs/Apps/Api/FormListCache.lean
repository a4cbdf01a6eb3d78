import Onadata.Apps.Api.Viewsets.XformListViewset
import Mathlib.Data.List.Nodup

/-!
# `Onadata.Proofs.Apps.Api.FormListCache`: the form list from the cache

The list of a form or a project is kept under the role of the requester on it. The list itself
depends on more: on `report_xform` for each form, on `formID`, on the host of the request, and
on whether the requester may see anything at all. A user without a role shares the entry of the
anonymous users.

`listUncached_eq` says what a request gets without the cache, in terms of the forms it is
offered, may list and asks for. `formList_transparent_iff` states when the cache is transparent:
two requests that share an entry, the first of which is served, are both served and list the
same forms for the same host.
-/

set_option autoImplicit false

namespace Onadata

open Onadata.Lib

variable {User Team : Type} [DecidableEq User]

namespace FormListWorld

variable (world : FormListWorld User Team)

/-! ### What a request lists -/

/-- The forms from which the profile of a project's list is taken. -/
def projectForms (pk : Nat) : List (ListedForm User Team) :=
  world.getQueryset.filter (·.project = pk)

/-- The URL leads to the form: it is the form named, with its owner, or a form of the project
with the owner of the first one. -/
def offered (request : FormListRequest User) (form : ListedForm User Team) : Bool :=
  world.isListable form &&
    match request.target with
    | .form none pk _ => decide (form.pk = pk)
    | .form (some name) pk _ =>
        decide (form.pk = pk) && decide (world.userByName name = some form.user)
    | .project pk =>
        decide (form.project = pk) &&
          (world.projectForms pk).head?.all fun first => decide (form.user = first.user)

/-- The requester may list the form: an anonymous one, any user for a public form that he asks
for, and a user with `report_xform`. -/
def mayList (request : FormListRequest User) (form : ListedForm User Team) : Bool :=
  match request.user, request.target with
  | none, _ => true
  | some user, .form _ _ _ => form.shared || world.reports user form
  | some user, .project _ => world.reports user form

/-- The form is in the list. -/
def listed (request : FormListRequest User) (form : ListedForm User Team) : Bool :=
  world.offered request form && world.mayList request form && allowsFormID request form

/-- The profile asks for authentication, and the request has none. -/
def locked (request : FormListRequest User) (owner : User) : Bool :=
  world.requireAuth owner && decide (request.user = none)

/-- The request is not refused: the submission is one of the form, the requester may list the
form, and the profile does not ask for authentication. -/
def Served (request : FormListRequest User) : Prop :=
  world.validateSubmission request = .ok () ∧
    match request.target with
    | .form _ _ _ =>
        ∃ form ∈ world.forms, world.offered request form = true ∧
          world.mayList request form = true ∧ world.locked request form.user = false
    | .project pk =>
        ∀ first, (world.projectForms pk).head? = some first →
          world.locked request first.user = false

variable {world} {request : FormListRequest User}

theorem ofProfile_eq (owner : User) (queryset : List (ListedForm User Team)) :
    world.ofProfile request owner queryset =
      if world.locked request owner = true then .error .notAuthenticated
      else .ok (queryset.filter fun form => decide (form.user = owner) && form.downloadable) := by
  unfold ofProfile locked
  simp only [Bool.and_eq_true, decide_eq_true_eq]

omit [DecidableEq User] in
/-- The key of a form is its own. -/
theorem form_eq_of_pk {form form' : ListedForm User Team} (hform : form ∈ world.forms)
    (hform' : form' ∈ world.forms) (hpk : form.pk = form'.pk) : form = form' :=
  List.inj_on_of_nodup_map world.pks_nodup hform hform' hpk

/-- The first part of `filter_queryset` for a form: it is refused only to who may not see the
profile, and what is left of the form are the forms that are offered. -/
theorem filterByUrl_form {name : Option String} {pk : Nat} {submission : Option Nat}
    (htarget : request.target = .form name pk submission) :
    (∃ error, world.filterByUrl request world.getQueryset = .error error ∧
        ∀ form ∈ world.forms, world.offered request form = true →
          world.locked request form.user = true) ∨
      ∃ queryset, world.filterByUrl request world.getQueryset = .ok queryset ∧
        queryset.filter (·.pk = pk) = world.forms.filter (world.offered request) ∧
        (∀ form ∈ queryset, form ∈ world.forms) ∧
        ∀ form ∈ world.forms, world.offered request form = true →
          world.locked request form.user = false := by
  have hsub : ∀ form ∈ world.getQueryset, form ∈ world.forms := fun form h =>
    (List.mem_filter.mp h).1
  unfold filterByUrl
  rw [htarget]
  cases name with
  | some name =>
      dsimp only
      cases howner : world.userByName name with
      | none =>
          refine Or.inl ⟨_, rfl, fun form _ h => ?_⟩
          simp [offered, htarget, howner] at h
      | some owner =>
          dsimp only
          rw [ofProfile_eq]
          have hof : ∀ form, world.offered request form = true → form.user = owner := by
            intro form h
            simp only [offered, htarget, howner, Bool.and_eq_true, decide_eq_true_eq,
              Option.some.injEq] at h
            exact h.2.2.symm
          cases hlocked : world.locked request owner with
          | true => exact Or.inl ⟨_, if_pos rfl, fun form _ h => hof form h ▸ hlocked⟩
          | false =>
              refine Or.inr ⟨_, if_neg Bool.false_ne_true, ?_, ?_, fun form _ h => hof form h ▸ hlocked⟩
              · unfold getQueryset
                rw [List.filter_filter, List.filter_filter]
                refine List.filter_congr fun form _ => ?_
                simp only [offered, htarget, howner, isListable]
                grind
              · exact fun form h => hsub form (List.mem_filter.mp h).1
  | none =>
      dsimp only
      have hoffered : world.getQueryset.filter (·.pk = pk) =
          world.forms.filter (world.offered request) := by
        unfold getQueryset
        rw [List.filter_filter]
        refine List.filter_congr fun form _ => ?_
        simp only [offered, htarget]
        exact Bool.and_comm _ _
      cases hqueryset : world.getQueryset.filter (·.pk = pk) with
      | nil =>
          rw [hqueryset] at hoffered
          refine Or.inr ⟨[], rfl, hoffered, (fun _ h => nomatch h), fun form hform h => ?_⟩
          exact absurd (hoffered ▸ List.mem_filter.mpr ⟨hform, h⟩) List.not_mem_nil
      | cons first rest =>
          dsimp only [List.head?_cons]
          rw [ofProfile_eq]
          have hmem : ∀ form ∈ first :: rest, form ∈ world.forms ∧ form.pk = pk ∧
              form.downloadable = true := by
            intro form h
            rw [← hqueryset, List.mem_filter, getQueryset, List.mem_filter, decide_eq_true_eq] at h
            have hlistable := h.1.2
            simp only [isListable, Bool.and_eq_true] at hlistable
            exact ⟨h.1.1, h.2, hlistable.1.1.1⟩
          -- all of them are the form with this key
          have hfirst : ∀ form ∈ world.forms, world.offered request form = true → form = first := by
            intro form hform h
            have hin : form ∈ first :: rest := by
              rw [← hqueryset, hoffered]
              exact List.mem_filter.mpr ⟨hform, h⟩
            have hown := hmem first List.mem_cons_self
            exact form_eq_of_pk hform hown.1 ((hmem form hin).2.1.trans hown.2.1.symm)
          cases hlocked : world.locked request first.user with
          | true => exact Or.inl ⟨_, if_pos rfl, fun form hform h => hfirst form hform h ▸ hlocked⟩
          | false =>
              refine Or.inr ⟨_, if_neg Bool.false_ne_true, ?_, fun form h => ?_,
                fun form hform h => hfirst form hform h ▸ hlocked⟩
              · rw [← hoffered, hqueryset, List.filter_filter]
                refine List.filter_eq_self.mpr fun form h => ?_
                have hown := hmem first List.mem_cons_self
                have heq := form_eq_of_pk (hmem form h).1 hown.1
                  ((hmem form h).2.1.trans hown.2.1.symm)
                rw [heq]
                simp only [hown.2.1, hown.2.2, decide_true, Bool.and_self]
              · exact (hmem form (List.mem_filter.mp h).1).1

/-- The first part of `filter_queryset` for a project. -/
theorem filterByUrl_project {pk : Nat} (htarget : request.target = .project pk) :
    (∃ error, world.filterByUrl request world.getQueryset = .error error ∧
        ∃ first, (world.projectForms pk).head? = some first ∧
          world.locked request first.user = true) ∨
      (world.filterByUrl request world.getQueryset =
          .ok (world.forms.filter (world.offered request)) ∧
        ∀ first, (world.projectForms pk).head? = some first →
          world.locked request first.user = false) := by
  have hforms : ∀ first, (world.projectForms pk).head? = some first →
      (world.projectForms pk).filter
          (fun form => decide (form.user = first.user) && form.downloadable) =
        world.forms.filter (world.offered request) := by
    intro first hhead
    unfold offered
    rw [htarget]
    simp only [hhead, Option.all_some]
    unfold projectForms getQueryset
    rw [List.filter_filter, List.filter_filter]
    refine List.filter_congr fun form _ => ?_
    unfold isListable
    grind
  unfold filterByUrl
  rw [htarget]
  dsimp only
  have hdef : world.getQueryset.filter (·.project = pk) = world.projectForms pk := rfl
  rw [hdef]
  cases hhead : (world.projectForms pk).head? with
  | none =>
      refine Or.inr ⟨?_, fun _ h => nomatch h⟩
      have hnil := List.head?_eq_none_iff.mp hhead
      dsimp only
      rw [hnil]
      refine congrArg Except.ok (Eq.symm (List.filter_eq_nil_iff.mpr fun form hform h => ?_))
      have hin : form ∈ world.projectForms pk := by
        unfold offered at h
        rw [htarget, Bool.and_eq_true, Bool.and_eq_true, decide_eq_true_eq] at h
        exact List.mem_filter.mpr ⟨List.mem_filter.mpr ⟨hform, h.1⟩, decide_eq_true h.2.1⟩
      exact List.not_mem_nil (hnil ▸ hin)
  | some first =>
      dsimp only
      rw [ofProfile_eq, hforms first hhead]
      cases hlocked : world.locked request first.user with
      | true => exact Or.inl ⟨_, if_pos rfl, first, rfl, hlocked⟩
      | false =>
          refine Or.inr ⟨if_neg Bool.false_ne_true, fun first' h => ?_⟩
          rw [← Option.some.inj h]
          exact hlocked

/-- The permission filter and the filter by key for a form: what is left are the forms with the
key that the requester may list, and none is an error. -/
theorem filterByPermission_form {name : Option String} {pk : Nat} {submission : Option Nat}
    (htarget : request.target = .form name pk submission) {queryset : List (ListedForm User Team)}
    (hqueryset : ∀ form ∈ queryset, form ∈ world.forms) :
    (world.filterByPermission request queryset).bind (filterByPk request) =
      if ((queryset.filter (·.pk = pk)).filter (world.mayList request)).isEmpty = true then
        .error .notFound
      else .ok ((queryset.filter (·.pk = pk)).filter (world.mayList request)) := by
  unfold filterByPermission filterByPk mayList
  rw [htarget]
  cases huser : request.user with
  | none => simp [Except.bind]
  | some user =>
      dsimp only
      cases hfind : queryset.find? (·.pk = pk) with
      | none =>
          have hnone : queryset.filter (·.pk = pk) = [] := by
            rw [List.filter_eq_nil_iff]
            exact fun form hform => List.find?_eq_none.mp hfind form hform
          rw [hnone]
          rfl
      | some form =>
          have hform := List.mem_of_find?_eq_some hfind
          have hpk : form.pk = pk := by simpa using List.find?_some hfind
          -- the form that was found is the only one with the key
          have hsame : ∀ form' ∈ queryset.filter (·.pk = pk), form' = form := by
            intro form' h
            rw [List.mem_filter, decide_eq_true_eq] at h
            exact form_eq_of_pk (hqueryset form' h.1) (hqueryset form hform) (h.2.trans hpk.symm)
          dsimp only
          by_cases hshared : form.shared = true
          · rw [if_pos hshared]
            have hall : (queryset.filter (·.pk = pk)).filter
                (fun form => form.shared || world.reports user form) =
                queryset.filter (·.pk = pk) := by
              refine List.filter_eq_self.mpr fun form' h => ?_
              rw [hsame form' h, hshared, Bool.true_or]
            rw [hall]
            simp [Except.bind]
          · rw [if_neg hshared]
            have hreports : (queryset.filter (·.pk = pk)).filter
                (fun form => form.shared || world.reports user form) =
                (queryset.filter (world.reports user)).filter (·.pk = pk) := by
              rw [List.filter_comm _ (world.reports user)]
              refine List.filter_congr fun form' h => ?_
              rw [hsame form' h, Bool.eq_false_iff.mpr hshared, Bool.false_or]
            rw [hreports]
            rfl

theorem filterQueryset_of_url {queryset : List (ListedForm User Team)}
    (hurl : world.filterByUrl request world.getQueryset = .ok queryset) :
    world.filterQueryset request =
      ((world.filterByPermission request queryset).bind (filterByPk request)).map fun left =>
        (left.filter (allowsFormID request)).filter world.isListable := by
  unfold filterQueryset
  rw [hurl]
  show (world.filterByPermission request queryset).bind _ = _
  cases world.filterByPermission request queryset with
  | error error => rfl
  | ok left =>
      show (filterByPk request left).bind _ = (filterByPk request left).map _
      cases filterByPk request left <;> rfl

/-- The last filters leave the listed forms. -/
theorem filter_listed (request : FormListRequest User) :
    ((((world.forms.filter (world.offered request)).filter (world.mayList request)).filter
        (allowsFormID request)).filter world.isListable) =
      world.forms.filter (world.listed request) := by
  rw [List.filter_filter, List.filter_filter, List.filter_filter]
  refine List.filter_congr fun form _ => ?_
  have hlistable : world.offered request form = true → world.isListable form = true := by
    intro h
    unfold offered at h
    exact (Bool.and_eq_true_iff.mp h).1
  unfold listed
  cases hoffered : world.offered request form with
  | false => simp
  | true =>
      rw [hlistable hoffered, Bool.true_and, Bool.true_and, Bool.and_true]
      exact Bool.and_comm _ _

/-- A form that is offered has a key. -/
theorem getCacheKey_of_offered {name : Option String} {pk : Nat} {submission : Option Nat}
    (htarget : request.target = .form name pk submission) {form : ListedForm User Team}
    (hform : form ∈ world.forms) (hoffered : world.offered request form = true) :
    world.getCacheKey request =
      .ok (some (.form pk (world.roleKey request.user xformPerms form.perms .xform))) := by
  have hlistable : form.deleted = false ∧ world.organizationActive form = true := by
    unfold offered isListable at hoffered
    simp only [Bool.and_eq_true, Bool.not_eq_true'] at hoffered
    exact ⟨hoffered.1.1.1.2, hoffered.1.2⟩
  have hpk : form.pk = pk := by
    unfold offered at hoffered
    rw [htarget] at hoffered
    cases name <;> simp at hoffered <;> simp [hoffered]
  unfold getCacheKey
  rw [htarget]
  dsimp only
  cases hfind : world.forms.find? (·.pk = pk) with
  | none =>
      have hnot := List.find?_eq_none.mp hfind form hform
      simp [hpk] at hnot
  | some found =>
      have hsame : found = form := by
        refine form_eq_of_pk (List.mem_of_find?_eq_some hfind) hform ?_
        rw [hpk]
        simpa using List.find?_some hfind
      subst hsame
      dsimp only
      rw [if_pos hlistable]

/-- What a request gets without the cache: its forms when it is served, and an error
otherwise. -/
theorem listUncached_eq (world : FormListWorld User Team) (request : FormListRequest User) :
    (world.Served request → world.listUncached request =
        .ok ((world.forms.filter (world.listed request)).map (world.serialize request.host))) ∧
      (¬ world.Served request → ∃ error, world.listUncached request = .error error) := by
  rw [← filter_listed]
  unfold Served listUncached
  cases hvalid : world.validateSubmission request with
  | error error => exact ⟨(fun h => nomatch h.1), fun _ => ⟨error, rfl⟩⟩
  | ok =>
      simp only [true_and]
      cases htarget : request.target with
      | form name pk submission =>
          dsimp only
          cases hkey : world.getCacheKey request with
          | error error =>
              refine ⟨fun h => ?_, fun _ => ⟨error, rfl⟩⟩
              obtain ⟨form, hform, hoffered, -⟩ := h
              rw [getCacheKey_of_offered htarget hform hoffered] at hkey
              cases hkey
          | ok key =>
              show (_ → world.compute request = _) ∧ (_ → ∃ error, world.compute request = _)
              unfold compute
              cases filterByUrl_form htarget with
              | inl h =>
                  obtain ⟨error, herror, hlocked⟩ := h
                  refine ⟨fun h => ?_, fun _ => ⟨error, by unfold filterQueryset; rw [herror]; rfl⟩⟩
                  obtain ⟨form, hform, hoffered, -, hfree⟩ := h
                  rw [hlocked form hform hoffered] at hfree
                  cases hfree
              | inr h =>
                  obtain ⟨queryset, hurl, hoffered, hsub, hfree⟩ := h
                  rw [filterQueryset_of_url hurl, filterByPermission_form htarget hsub, hoffered]
                  cases hleft : (world.forms.filter (world.offered request)).filter
                      (world.mayList request) with
                  | nil =>
                      refine ⟨fun h => ?_, fun _ => ⟨.notFound, rfl⟩⟩
                      obtain ⟨form, hform, hoffered, hmay, -⟩ := h
                      have hin : form ∈ (world.forms.filter (world.offered request)).filter
                          (world.mayList request) :=
                        List.mem_filter.mpr ⟨List.mem_filter.mpr ⟨hform, hoffered⟩, hmay⟩
                      exact absurd (hleft ▸ hin) List.not_mem_nil
                  | cons form rest =>
                      refine ⟨fun _ => rfl, fun h => absurd ?_ h⟩
                      have hin : form ∈ (world.forms.filter (world.offered request)).filter
                          (world.mayList request) := hleft ▸ List.mem_cons_self
                      rw [List.mem_filter, List.mem_filter] at hin
                      exact ⟨form, hin.1.1, hin.1.2, hin.2, hfree form hin.1.1 hin.1.2⟩
      | project pk =>
          dsimp only
          have hkey : ∃ key, world.getCacheKey request = .ok key := by
            unfold getCacheKey
            rw [htarget]
            dsimp only
            split
            · exact ⟨_, rfl⟩
            · split <;> exact ⟨_, rfl⟩
          obtain ⟨key, hkey⟩ := hkey
          rw [hkey]
          show (_ → world.compute request = _) ∧ (_ → ∃ error, world.compute request = _)
          unfold compute
          cases filterByUrl_project htarget with
          | inl h =>
              obtain ⟨error, herror, first, hhead, hlocked⟩ := h
              refine ⟨fun h => ?_, fun _ => ⟨error, by unfold filterQueryset; rw [herror]; rfl⟩⟩
              rw [h first hhead] at hlocked
              cases hlocked
          | inr h =>
              refine ⟨fun _ => ?_, fun hnot => absurd h.2 hnot⟩
              rw [filterQueryset_of_url h.1]
              unfold filterByPermission filterByPk mayList
              rw [htarget]
              cases request.user with
              | none =>
                  dsimp only
                  rw [List.filter_true]
                  rfl
              | some user => rfl

/-! ### The cache -/

/-- The key under which the answer to a request is kept; `none` when it is refused before the
cache is asked, or when the project has no key. -/
def keyOf (world : FormListWorld User Team) (request : FormListRequest User) :
    Option FormListKey :=
  match world.validateSubmission request, world.getCacheKey request with
  | .ok (), .ok key => key
  | _, _ => none

/-- `list` answers from the cache under the key of the request. -/
theorem list_eq_answer (cache : FormListKey → Option (List FormListRow))
    (request : FormListRequest User) :
    world.list cache request = answer world.keyOf world.listUncached cache request := by
  unfold list answer keyOf listUncached
  cases world.validateSubmission request with
  | error error => rfl
  | ok valid =>
      cases valid
      cases world.getCacheKey request with
      | error error => rfl
      | ok key =>
          cases key with
          | none => rfl
          | some key =>
              dsimp only [bind, Except.bind]
              cases cache key with
              | some rows => rfl
              | none => cases world.compute request <;> rfl

/-- Each response of the run is the list without the cache. -/
def TransparentRun (world : FormListWorld User Team) :
    (FormListKey → Option (List FormListRow)) →
      List (CacheEvent (FormListRequest User) FormListKey) → Prop
  | _, [] => True
  | cache, .request request :: rest =>
      (world.list cache request).1 = world.listUncached request ∧
        TransparentRun world (world.list cache request).2 rest
  | cache, .expire key :: rest => TransparentRun world (drop cache key) rest

theorem transparentRun_iff (events : List (CacheEvent (FormListRequest User) FormListKey))
    (cache : FormListKey → Option (List FormListRow)) :
    world.TransparentRun cache events ↔
      Transparent world.keyOf world.listUncached cache events := by
  induction events generalizing cache with
  | nil => exact Iff.rfl
  | cons event rest ih =>
      cases event with
      | request request =>
          unfold TransparentRun Transparent
          rw [list_eq_answer, ih]
      | expire key =>
          unfold TransparentRun Transparent
          exact ih (drop cache key)

/-- The two requests list the same forms, and for the same host when there are any. -/
def SameList (world : FormListWorld User Team) (request request' : FormListRequest User) : Prop :=
  (∀ form ∈ world.forms, world.listed request form = world.listed request' form) ∧
    (request.host = request'.host ∨ ∀ form ∈ world.forms, world.listed request form = false)

/-- The rows are the same exactly when the forms and the host are. -/
theorem rows_eq_iff (request request' : FormListRequest User) :
    (world.forms.filter (world.listed request')).map (world.serialize request'.host) =
        (world.forms.filter (world.listed request)).map (world.serialize request.host) ↔
      world.SameList request request' := by
  unfold SameList
  constructor
  · intro h
    have hpks : (world.forms.filter (world.listed request')).map (·.pk) =
        (world.forms.filter (world.listed request)).map (·.pk) := by
      have hurls := congrArg (List.map fun row => row.downloadUrl.pk) h
      rw [List.map_map, List.map_map] at hurls
      exact hurls
    have hmem : ∀ form ∈ world.forms, (form ∈ world.forms.filter (world.listed request') ↔
        form ∈ world.forms.filter (world.listed request)) := by
      -- a form is found again by its key
      have hfind : ∀ p q : ListedForm User Team → Bool,
          (world.forms.filter p).map (·.pk) = (world.forms.filter q).map (·.pk) →
          ∀ form ∈ world.forms.filter p, form ∈ world.forms.filter q := by
        intro p q heq form hform
        have hpk : form.pk ∈ (world.forms.filter q).map (·.pk) := heq ▸ List.mem_map_of_mem hform
        obtain ⟨form', hform', hsame⟩ := List.mem_map.mp hpk
        exact form_eq_of_pk (List.mem_filter.mp hform').1 (List.mem_filter.mp hform).1 hsame ▸ hform'
      exact fun form _ => ⟨hfind _ _ hpks form, hfind _ _ hpks.symm form⟩
    refine ⟨fun form hform => ?_, ?_⟩
    · have hiff := hmem form hform
      rw [List.mem_filter, List.mem_filter] at hiff
      simp only [hform, true_and] at hiff
      exact Bool.eq_iff_iff.mpr hiff.symm
    · cases hleft : world.forms.filter (world.listed request) with
      | nil =>
          refine Or.inr fun form hform => ?_
          exact Bool.eq_false_iff.mpr (List.filter_eq_nil_iff.mp hleft form hform)
      | cons form rest =>
          refine Or.inl ?_
          rw [hleft] at h
          cases hright : world.forms.filter (world.listed request') with
          | nil => simp [hright] at h
          | cons form' rest' =>
              rw [hright, List.map_cons, List.map_cons] at h
              have hrow := (List.cons.inj h).1
              exact (congrArg (fun row => row.downloadUrl.host) hrow).symm
  · intro h
    have hforms : world.forms.filter (world.listed request') =
        world.forms.filter (world.listed request) :=
      List.filter_congr fun form hform => (h.1 form hform).symm
    rw [hforms]
    cases h.2 with
    | inl hhost => rw [hhost]
    | inr hnone =>
        have hnil : world.forms.filter (world.listed request) = [] :=
          List.filter_eq_nil_iff.mpr fun form hform => Bool.eq_false_iff.mp (hnone form hform)
        rw [hnil]
        rfl

/-- The cache is transparent in a run exactly when any two requests that share an entry, the
first of which is served, are both served and list the same. -/
theorem formList_transparent_iff (world : FormListWorld User Team)
    (events : List (CacheEvent (FormListRequest User) FormListKey)) :
    world.TransparentRun (fun _ => none) events ↔
      ∀ request request', Shares world.keyOf request request' events → world.Served request →
        world.Served request' ∧ world.SameList request request' := by
  rw [transparentRun_iff, transparent_iff]
  refine forall_congr' fun request => forall_congr' fun request' => imp_congr_right fun _ => ?_
  have hfirst := listUncached_eq world request
  have hsecond := listUncached_eq world request'
  constructor
  · intro h hserved
    have hvalue := h _ (hfirst.1 hserved)
    have hserved' : world.Served request' := by
      by_contra hnot
      obtain ⟨error, herror⟩ := hsecond.2 hnot
      rw [herror] at hvalue
      cases hvalue
    rw [hsecond.1 hserved'] at hvalue
    exact ⟨hserved', (rows_eq_iff request request').mp (Except.ok.inj hvalue)⟩
  · intro h rows hrows
    have hserved : world.Served request := by
      by_contra hnot
      obtain ⟨error, herror⟩ := hfirst.2 hnot
      rw [herror] at hrows
      cases hrows
    obtain ⟨hserved', hsame⟩ := h hserved
    rw [hsecond.1 hserved', (rows_eq_iff request request').mpr hsame, ← hfirst.1 hserved, hrows]

/-- Two forms of project 3. The users 1 and 2 enter data in the project; the form 11 is only
shared with user 1. -/
def twoForms : FormListWorld Nat Nat where
  forms :=
    [⟨10, "births", "Births", "1", "md5:a", "", 0, 3, false, true, false, false, false,
        ⟨(Role.dataEntryRole.permissions .xform).flatMap fun c => [(1, c), (2, c)], []⟩⟩,
      ⟨11, "wells", "Wells", "1", "md5:b", "", 0, 3, false, true, false, false, false,
        ⟨(Role.dataEntryRole.permissions .xform).map (1, ·), []⟩⟩]
  pks_nodup := by decide
  project pk :=
    if pk = 3 then
      some ⟨false, true,
        ⟨(Role.dataEntryRole.permissions .project).flatMap fun c => [(1, c), (2, c)], []⟩⟩
    else none
  members _ := []
  isSuperuser _ := false
  requireAuth _ := false
  username _ := "clinic"
  userByName _ := none
  instances := []

/-- User 2 is answered with the list of user 1, which has the form 11. -/
theorem not_formList_transparent :
    ¬ ∀ (world : FormListWorld Nat Nat)
        (events : List (CacheEvent (FormListRequest Nat) FormListKey)),
        world.TransparentRun (fun _ => none) events := by
  intro h
  have hrun := h twoForms
    [.request ⟨"https://clinic", some 1, .project 3, none⟩,
      .request ⟨"https://clinic", some 2, .project 3, none⟩]
  have hsecond := hrun.2.1
  revert hsecond
  decide

end FormListWorld

end Onadata
