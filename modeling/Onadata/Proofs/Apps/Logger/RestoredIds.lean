import Onadata.Apps.Logger.Models.SoftDelete
import Onadata.Lib.BoundedSuffix
import Onadata.Lib.ExceptList

/-!
# `Onadata.Proofs.Apps.Logger.RestoredIds`: which ids a restore gives back

A soft deletion appends a suffix to the ids of a form if there is room for it, and a restore
removes it.

* `withoutSuffix_withSuffix_iff`: an id comes back unless it has no room for the suffix and
  ends with it, or has the maximum length and ends with a start of it.
* `formRound_same_iff`: the same for a form, with the checks of the two saves.
-/

set_option autoImplicit false

namespace Onadata.Proofs

open Onadata.Lib

/-! ### Suffixes -/

theorem length_deletionSuffix (when : DateTime) : (deletionSuffix when).length =
    12 + (toString (when.microseconds / 1000000)).length := by
  show ("-deleted-at-" ++ toString (when.microseconds / 1000000)).length = _
  rw [String.length_append, show "-deleted-at-".length = 12 from rfl]

/-- A suffix has at most 24 characters. -/
theorem length_deletionSuffix_le (when : DateTime) : (deletionSuffix when).length ≤ 24 := by
  have hdigits : (toString (when.microseconds / 1000000)).length ≤ 12 := by
    rw [show toString (when.microseconds / 1000000) = Nat.repr _ from rfl,
      Nat.length_repr_le_iff (by decide)]
    have := when.bounded
    omega
  rw [length_deletionSuffix]
  omega

/-- A suffix is not empty. -/
theorem length_deletionSuffix_pos (when : DateTime) : 12 ≤ (deletionSuffix when).length := by
  rw [length_deletionSuffix]
  omega

/-- A value that a restore gives back: it leaves room for the suffix, or it does not end with
the suffix and, at the maximum length, not with a start of it either. -/
def Returns (suffix value : String) : Prop :=
  value.length + suffix.length ≤ MAX_ID_LENGTH ∨
    (endsWith value suffix = false ∧
      (value.length = MAX_ID_LENGTH →
        ∀ n, 0 < n → n < suffix.length → endsWith value (takeStart suffix n) = false))

theorem withSuffix_eq (suffix value : String) :
    XFormRecord.withSuffix suffix value = appendWithin MAX_ID_LENGTH suffix value := by
  rw [XFormRecord.withSuffix, appendWithin]

theorem withoutSuffix_eq (suffix value : String) :
    XFormRecord.withoutSuffix suffix value = stripWithin MAX_ID_LENGTH suffix value := by
  unfold XFormRecord.withoutSuffix stripWithin
  rfl

/-- The id that a soft deletion writes comes back exactly when `Returns` says so. -/
theorem withoutSuffix_withSuffix_iff {suffix : String} (hne : 0 < suffix.length)
    (value : String) :
    XFormRecord.withoutSuffix suffix (XFormRecord.withSuffix suffix value) = value ↔
      Returns suffix value := by
  rw [withoutSuffix_eq, withSuffix_eq]
  exact stripWithin_appendWithin_iff hne value

/-- The renamed id is too long exactly when the id is. -/
theorem length_withSuffix_le {suffix value : String} :
    (XFormRecord.withSuffix suffix value).length ≤ MAX_ID_LENGTH ↔
      value.length ≤ MAX_ID_LENGTH := by
  rw [withSuffix_eq]
  exact length_appendWithin_le suffix

/-- Neither a renamed id nor a restored one without room is empty. -/
theorem withSuffix_ne_empty (when : DateTime) (value : String) :
    XFormRecord.withSuffix (deletionSuffix when) value ≠ "" := by
  intro heq
  have hlength := congrArg String.length heq
  have := length_deletionSuffix_le when
  have := length_deletionSuffix_pos when
  rw [XFormRecord.withSuffix, show "".length = 0 from rfl] at hlength
  split at hlength
  · rw [String.length_append] at hlength
    omega
  · rw [MAX_ID_LENGTH] at *
    omega

/-- A restored id is empty only when the id of before was. -/
theorem withoutSuffix_withSuffix_eq_empty {when : DateTime} {value : String}
    (h : XFormRecord.withoutSuffix (deletionSuffix when)
      (XFormRecord.withSuffix (deletionSuffix when) value) = "") : value = "" := by
  have hshort := length_deletionSuffix_le when
  by_cases hroom : value.length + (deletionSuffix when).length ≤ MAX_ID_LENGTH
  · have := (withoutSuffix_withSuffix_iff
      (show 0 < (deletionSuffix when).length from
        Nat.lt_of_lt_of_le (by decide) (length_deletionSuffix_pos when)) value).mpr (Or.inl hroom)
    rw [← this, h]
  · -- at most 24 of more than 76 characters are cut off
    rw [XFormRecord.withSuffix, if_neg hroom, XFormRecord.withoutSuffix] at h
    rw [MAX_ID_LENGTH] at hroom
    have hcut : ∀ n ≤ 24, dropEnd value n ≠ "" := by
      intro n hn heq
      have := congrArg String.length heq
      rw [length_dropEnd, show "".length = 0 from rfl] at this
      omega
    split at h
    · exact absurd h (hcut _ hshort)
    · split at h
      · split at h
        · rename_i n hfind
          have hmem := List.mem_of_find?_eq_some hfind
          rw [List.mem_reverse, List.mem_range'_1] at hmem
          exact absurd h (hcut n (by omega))
        · exact h
      · exact h

/-- A renamed slug is a slug. -/
theorem isSlug_withSuffix {cfg : SaveSettings} (when : DateTime) {value : String}
    (h : cfg.isSlug value = true) :
    cfg.isSlug (XFormRecord.withSuffix (deletionSuffix when) value) = true := by
  rw [XFormRecord.withSuffix]
  split
  · have hmarker : "-deleted-at-".toList.all (fun c => c.isAlphanum || c == '-') = true := by
      decide
    have hdigits : ∀ c ∈ (toString (when.microseconds / 1000000)).toList,
        c.isAlphanum = true := by
      intro c hc
      rw [show toString (when.microseconds / 1000000) = Nat.repr _ from rfl,
        Nat.toList_repr] at hc
      have := Nat.isDigit_of_mem_toDigits (by decide) (by decide) hc
      simp [Char.isAlphanum, this]
    simp only [SaveSettings.isSlug, Bool.and_eq_true, Bool.not_eq_true', List.all_eq_true,
      deletionSuffix, String.toList_append, List.mem_append] at h ⊢
    refine ⟨?_, ?_⟩
    · cases hlist : value.toList with
      | nil => simp [hlist] at h
      | cons c cs => rfl
    · rintro c (hc | hc | hc)
      · exact h.2 c hc
      · rcases Bool.or_eq_true _ _ ▸ List.all_eq_true.mp hmarker c hc with hword | hhyphen
        · simp [cfg.isWord_alphanum c hword]
        · simp [hhyphen]
      · simp [cfg.isWord_alphanum c (hdigits c hc)]
  · exact h

/-! ### Saves of the form -/

@[simp] theorem require_eq_ok {condition : Prop} [Decidable condition] {error : SaveError}
    {u : Unit} : require condition error = .ok u ↔ condition := by
  rw [require]
  split
  · simp [*]
  · simp [*]

/-- The checks of every save that both the id and the SMS id pass. -/
structure Storable (cfg : SaveSettings) (version : Option String)
    (idString smsIdString : String) : Prop where
  slug : cfg.strict = true → cfg.isSlug idString = true
  length : idString.length ≤ MAX_ID_LENGTH ∧ smsIdString.length ≤ MAX_ID_LENGTH
  version : version.any containsXmlInvalidChar = false

/-- A deleted form with an SMS id is saved as it is. -/
theorem save_deleted_eq_ok {cfg : SaveSettings} {withTitle : Bool} {form saved : XFormRecord}
    (hdeleted : form.deletedAt ≠ none) (hsms : form.smsIdString ≠ "") :
    form.save cfg withTitle = .ok saved ↔
      (withTitle = true → form.titleError = none) ∧
        Storable cfg form.version form.idString form.smsIdString ∧ saved = form := by
  rw [XFormRecord.save, if_neg hdeleted]
  simp only [bind_eq_ok, require_eq_ok, exists_const, Except.ok.injEq, exists_eq_left', true_or,
    or_true, true_and, if_neg hsms, pure_eq_ok]
  constructor
  · rintro ⟨htitle, hslug, hlength, hversion, rfl⟩
    exact ⟨htitle, ⟨hslug, hlength, hversion⟩, rfl⟩
  · rintro ⟨htitle, hstorable, rfl⟩
    exact ⟨htitle, hstorable.slug, hstorable.length, hstorable.version, rfl⟩

/-- The SMS id that a save fills in. -/
def filledSmsIdString (smsKeyword : Option String) (idString smsIdString : String) : String :=
  if smsIdString = "" then smsKeyword.getD idString else smsIdString

/-- A live form is saved with the id in its XML. -/
theorem save_live_eq_ok {cfg : SaveSettings} {withTitle : Bool} {form saved : XFormRecord}
    (hlive : form.deletedAt = none) :
    form.save cfg withTitle = .ok saved ↔
      ∃ idString, form.xmlIdStrings = [idString] ∧
        (withTitle = true → form.titleError = none) ∧
        (form.idString = "" ∨ form.idString = idString ∨ form.numOfSubmissions = 0) ∧
        Storable cfg form.version idString (filledSmsIdString form.smsKeyword idString form.smsIdString) ∧
        saved = { form with
          idString := idString
          smsIdString := filledSmsIdString form.smsKeyword idString form.smsIdString } := by
  have hxml : ∀ idString, form.setIdString = .ok idString ↔ form.xmlIdStrings = [idString] := by
    intro idString
    rw [XFormRecord.setIdString]
    split
    · rename_i id heq
      simp [heq]
    · rename_i hother
      simpa using hother idString
  rw [XFormRecord.save, if_pos hlive]
  simp only [bind_eq_ok, require_eq_ok, exists_const, pure_eq_ok, hxml]
  constructor
  · rintro ⟨htitle, idString, hid, hsame, hslug, hlength, hversion, rfl⟩
    exact ⟨idString, hid, htitle, hsame, ⟨hslug, hlength, hversion⟩, rfl⟩
  · rintro ⟨idString, hid, htitle, hsame, hstorable, rfl⟩
    exact ⟨htitle, idString, hid, hsame, hstorable.slug, hstorable.length, hstorable.version,
      rfl⟩

/-! ### The form itself -/

/-- The fields of a form that a restore is to give back. -/
structure SameForm (form restored : XFormRecord) : Prop where
  idString : restored.idString = form.idString
  smsIdString : restored.smsIdString = form.smsIdString
  deleted : restored.deletedAt.isSome = form.deletedAt.isSome

/-- The form after a soft deletion and a restore of its own row. -/
def FormRound (cfg : SaveSettings) (when : DateTime) (user : Option String)
    (form restored : XFormRecord) : Prop :=
  ∃ deleted, (form.markDeleted when user).save cfg false = .ok deleted ∧
    (deleted.markRestored when).save cfg false = .ok restored

/-- A form that comes back: it is as its last save left it, and the suffix does not get lost
in its ids. Without submissions the restore takes the id from the XML. -/
structure FormReturns (cfg : SaveSettings) (when : DateTime) (form : XFormRecord) : Prop where
  xmlId : form.xmlIdStrings = [form.idString]
  storable : Storable cfg form.version form.idString form.smsIdString
  id : form.numOfSubmissions = 0 ∨ Returns (deletionSuffix when) form.idString
  smsId : Returns (deletionSuffix when) form.smsIdString
  filled : form.smsIdString = "" → form.smsKeyword.getD form.idString = ""

section
variable (form : XFormRecord) (when : DateTime) (user : Option String)

/-- The form with the fields of a soft deletion and then of a restore. -/
def marked : XFormRecord :=
  (form.markDeleted when user).markRestored when

/-- The id of a marked form. -/
def markedId (value : String) : String :=
  XFormRecord.withoutSuffix (deletionSuffix when)
    (XFormRecord.withSuffix (deletionSuffix when) value)

@[simp] theorem marked_deletedAt : (marked form when user).deletedAt = none := rfl

@[simp] theorem marked_idString :
    (marked form when user).idString = markedId when form.idString := rfl

@[simp] theorem marked_smsIdString :
    (marked form when user).smsIdString = markedId when form.smsIdString := rfl

@[simp] theorem marked_xmlIdStrings :
    (marked form when user).xmlIdStrings = form.xmlIdStrings := rfl

@[simp] theorem marked_numOfSubmissions :
    (marked form when user).numOfSubmissions = form.numOfSubmissions := rfl

@[simp] theorem marked_version : (marked form when user).version = form.version := rfl

@[simp] theorem marked_smsKeyword : (marked form when user).smsKeyword = form.smsKeyword := rfl

end

/-- The round of a form, without the saves. -/
theorem formRound_iff_storable {cfg : SaveSettings} {when : DateTime} {user : Option String}
    {form restored : XFormRecord} :
    FormRound cfg when user form restored ↔
      Storable cfg form.version (XFormRecord.withSuffix (deletionSuffix when) form.idString)
          (XFormRecord.withSuffix (deletionSuffix when) form.smsIdString) ∧
        (marked form when user).save cfg false = .ok restored := by
  have hsms : (form.markDeleted when user).smsIdString ≠ "" := withSuffix_ne_empty when _
  have hdeleted : (form.markDeleted when user).deletedAt ≠ none := by
    simp [XFormRecord.markDeleted]
  simp only [FormRound, save_deleted_eq_ok hdeleted hsms, Bool.false_eq_true, false_implies,
    true_and]
  constructor
  · rintro ⟨_, ⟨hstorable, rfl⟩, hrestored⟩
    exact ⟨hstorable, hrestored⟩
  · rintro ⟨hstorable, hrestored⟩
    exact ⟨_, ⟨hstorable, rfl⟩, hrestored⟩

/-- The SMS id comes back when its suffix does not get lost and a save does not fill it in. -/
theorem filledSmsIdString_eq_iff {when : DateTime} {form : XFormRecord} :
    filledSmsIdString form.smsKeyword form.idString (markedId when form.smsIdString) =
        form.smsIdString ↔
      Returns (deletionSuffix when) form.smsIdString ∧
        (form.smsIdString = "" → form.smsKeyword.getD form.idString = "") := by
  have hpos : 0 < (deletionSuffix when).length :=
    Nat.lt_of_lt_of_le (by decide) (length_deletionSuffix_pos when)
  rw [← withoutSuffix_withSuffix_iff hpos form.smsIdString, filledSmsIdString, markedId]
  by_cases hback : XFormRecord.withoutSuffix (deletionSuffix when)
      (XFormRecord.withSuffix (deletionSuffix when) form.smsIdString) = form.smsIdString
  · rw [hback]
    by_cases hempty : form.smsIdString = ""
    · simp [hempty]
    · simp [hempty]
  · have hne : XFormRecord.withoutSuffix (deletionSuffix when)
        (XFormRecord.withSuffix (deletionSuffix when) form.smsIdString) ≠ "" := fun heq =>
      hback (heq.trans (withoutSuffix_withSuffix_eq_empty heq).symm)
    simp [hne, hback]

/-- A live form comes back from its round exactly when `FormReturns` holds. -/
theorem formRound_same_iff {cfg : SaveSettings} {when : DateTime} {user : Option String}
    {form : XFormRecord} (hlive : form.deletedAt = none) :
    (∃ restored, FormRound cfg when user form restored ∧ SameForm form restored) ↔
      FormReturns cfg when form := by
  have hpos : 0 < (deletionSuffix when).length :=
    Nat.lt_of_lt_of_le (by decide) (length_deletionSuffix_pos when)
  simp only [formRound_iff_storable, save_live_eq_ok (marked_deletedAt form when user),
    marked_idString, marked_smsIdString, marked_xmlIdStrings, marked_numOfSubmissions,
    marked_version, marked_smsKeyword, Bool.false_eq_true, false_implies, true_and]
  constructor
  · rintro ⟨_, ⟨hdeleted, idString, hxml, hid, hstorable, rfl⟩, hsame⟩
    obtain rfl : idString = form.idString := hsame.idString
    have hsms := filledSmsIdString_eq_iff.mp hsame.smsIdString
    refine ⟨hxml, ⟨hstorable.slug, ⟨hstorable.length.1, ?_⟩, hdeleted.version⟩, ?_, hsms.1,
      hsms.2⟩
    · exact length_withSuffix_le.mp hdeleted.length.2
    · rcases hid with hempty | hback | hnone
      · -- an empty id is the id of before
        have hback := hempty.trans (withoutSuffix_withSuffix_eq_empty hempty).symm
        exact Or.inr ((withoutSuffix_withSuffix_iff hpos _).mp hback)
      · exact Or.inr ((withoutSuffix_withSuffix_iff hpos _).mp hback)
      · exact Or.inl hnone
  · intro h
    have hsms := filledSmsIdString_eq_iff.mpr ⟨h.smsId, h.filled⟩
    have hdeleted : Storable cfg form.version
        (XFormRecord.withSuffix (deletionSuffix when) form.idString)
        (XFormRecord.withSuffix (deletionSuffix when) form.smsIdString) :=
      ⟨fun hstrict => isSlug_withSuffix when (h.storable.slug hstrict),
        ⟨length_withSuffix_le.mpr h.storable.length.1,
          length_withSuffix_le.mpr h.storable.length.2⟩, h.storable.version⟩
    refine ⟨_, ⟨hdeleted, form.idString, h.xmlId, ?_, ?_, rfl⟩, ⟨rfl, hsms, ?_⟩⟩
    · rcases h.id with hnone | hback
      · exact Or.inr (Or.inr hnone)
      · exact Or.inr (Or.inl ((withoutSuffix_withSuffix_iff hpos _).mpr hback))
    · rw [hsms]
      exact h.storable
    · simp [hlive]

end Onadata.Proofs
