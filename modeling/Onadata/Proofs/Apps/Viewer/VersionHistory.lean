import Onadata.Apps.Viewer.Models.DataDictionary
import Onadata.Lib.PyText
import Onadata.Lib.Run
import Onadata.Proofs.Libs.Kms.RotationFrame

/-!
# `Onadata.Proofs.Apps.Viewer.VersionHistory`: the definitions of all versions are kept

`XFormVersion` is to store "the various versions of an XForm". A row for a form and a version is
made once; the error of a second one is caught and passed over, so that a version that is given
out again keeps the definition of its first time.

`get_unique_version` gives an unused version (`getUniqueVersion_notMem`), to a form that replaces
another one with a version of its own. A replacement by an XML without a version is not given one,
and the operations on managed keys take the minute. `historyKept_iff`: a step keeps the current
definition of every form if and only if each of these versions is one that the form has not had, or
has had for the same definition. `completeHistory_run` is about the runs where all are new.
-/

set_option autoImplicit false

namespace Onadata

open Onadata.Lib Onadata.Proofs

/-- An operation on the definition of a form, with its times and what the service does. With
`receive`, the number of submissions of a form is another one. -/
inductive DefinitionAction (Xls : Type)
  | publishXls (publication : Publication) (xls : Xls) (target : FormOwner ⊕ Nat)
  | publishXml (publication : Publication) (xml fileName : String) (target : FormOwner ⊕ Nat)
  | encrypt (now : DateTime) (pk : Nat) (encryptedBy : Option String) (overrideEncryption : Bool)
  | rotate (settings : KmsSettings) (client : KmsClient) (clock : RotationClock) (pk : Nat)
      (rotatedBy rotationReason : Option String)
  | disable (now : DateTime) (pk : Nat) (disabledBy : Option String)
  | receive (pk : Nat) (numOfSubmissions : Nat)

variable {Xls Survey : Type} (cfg : SaveSettings) (lib : PublishLibrary Xls Survey)

/-- An operation that returns. -/
def DefinitionStep (db : KmsDatabase Xls) :
    DefinitionAction Xls → KmsDatabase Xls → Prop
  | .publishXls publication xls target, db' =>
      publishXlsForm cfg lib publication db xls target = .ok db'
  | .publishXml publication xml fileName target, db' =>
      publishXmlForm cfg lib publication db xml fileName target = .ok db'
  | .encrypt now pk encryptedBy overrideEncryption, db' =>
      encryptXform cfg lib.toFormLibrary now db pk encryptedBy overrideEncryption = .ok db'
  | .rotate settings client clock pk rotatedBy rotationReason, db' =>
      ∃ newKey, rotateKey cfg lib.toFormLibrary settings client clock db pk rotatedBy
        rotationReason = .ok (db', newKey)
  | .disable now pk disabledBy, db' =>
      disableXformEncryption cfg lib.toFormLibrary now db pk disabledBy = .ok db'
  | .receive pk numOfSubmissions, db' =>
      ∃ form, db.xforms.get? pk = some form ∧
        db' = { db with
          xforms := db.xforms.save pk { form with numOfSubmissions := numOfSubmissions } }

/-! ### What is kept -/

/-- The current definition of the form is kept under its current version. -/
def KeptForm (db : KmsDatabase Xls) (pk : Nat) : Prop :=
  ∀ form, db.xforms.get? pk = some form →
    ∃ row ∈ db.versions, row.xform = pk ∧ row.version = form.version ∧ row.xml = form.xml

/-- The current definition of every form is kept. -/
def CompleteHistory (db : KmsDatabase Xls) : Prop :=
  ∀ pk, KeptForm db pk

/-- What the table guarantees: a version of a form has one row, and each row is of a form. -/
structure VersionRows (db : KmsDatabase Xls) : Prop where
  unique : ∀ row ∈ db.versions, ∀ other ∈ db.versions,
    row.xform = other.xform → row.version = other.version → row = other
  referenced : ∀ row ∈ db.versions, row.xform < db.xforms.nextPk

/-- The step gives the form a version without asking whether the form has had it: the minute of an
operation on managed keys, and the missing version of an XML that replaces a form without an
XLSForm. -/
def GivesUnasked (db : KmsDatabase Xls) (action : DefinitionAction Xls) (pk : Nat)
    (version : String) : Prop :=
  match action with
  | .publishXls _ _ _ => False
  | .publishXml _ xml _ target =>
      target = .inr pk ∧ version = "" ∧
        (∃ form, db.xforms.get? pk = some form ∧ form.xls = none) ∧
        ∃ survey, lib.surveyFromXml xml = .ok survey ∧
          lib.versionInXml xml (lib.surveyIdString survey) = ""
  | .encrypt now formPk _ overrideEncryption =>
      pk = formPk ∧ version = versionAt now ∧ ∃ form, db.xforms.get? pk = some form ∧
        (form.encrypted = false ∨ overrideEncryption = true)
  | .rotate _ _ clock key _ _ =>
      pk ∈ Dict.keys (db.formsOfKey key) ∧ version = versionAt (clock.encrypted pk)
  | .disable now formPk _ =>
      pk = formPk ∧ version = versionAt now ∧
        ∃ form, db.xforms.get? pk = some form ∧ form.encrypted = true
  | .receive _ _ => False

/-- Each version that is given unasked is one that the form has not had. -/
def VersionsUnused (db : KmsDatabase Xls) (action : DefinitionAction Xls) (_ : KmsDatabase Xls) :
    Prop :=
  ∀ pk version, GivesUnasked lib db action pk version → version ∉ db.versionsOf pk

/-- The version is unused for the form, or is used for the definition that it has after the
step. -/
def UnusedFor (db : KmsDatabase Xls) (pk : Nat) (version : String) (db' : KmsDatabase Xls) :
    Prop :=
  ∀ row ∈ db.versions, row.xform = pk → row.version = some version →
    ∀ form, db'.xforms.get? pk = some form → row.xml = form.xml

variable {cfg} {lib}

/-- The version that is found is unused. -/
theorem getUniqueVersion_notMem (existing : List String) (version : String) :
    getUniqueVersion existing version ∉ existing := by
  unfold getUniqueVersion
  split
  · assumption
  · refine unusedName_notMem existing ?_ 2
    intro m n heq
    exact append_toString_injective (version ++ "-") m n heq

/-- The versions of a form are those of its rows. -/
theorem mem_versionsOf_iff {db : KmsDatabase Xls} {pk : Nat} {version : String} :
    version ∈ db.versionsOf pk ↔
      ∃ row ∈ db.versions, row.xform = pk ∧ row.version = some version := by
  unfold KmsDatabase.versionsOf
  rw [List.mem_filterMap]
  constructor
  · intro h
    obtain ⟨row, hrow, hversion⟩ := h
    obtain ⟨hmem, hpk⟩ := List.mem_filter.mp hrow
    exact ⟨row, hmem, of_decide_eq_true hpk, hversion⟩
  · intro h
    obtain ⟨row, hmem, hpk, hversion⟩ := h
    exact ⟨row, List.mem_filter.mpr ⟨hmem, decide_eq_true hpk⟩, hversion⟩

/-- What is kept of a form: its version and its XML. -/
def definition (form : EncryptedForm Xls) : Option String × String :=
  (form.version, form.xml)

/-- The form has the same definition, and the same rows. -/
structure SameDefinition (db : KmsDatabase Xls) (pk : Nat) (db' : KmsDatabase Xls) : Prop where
  form : (db'.xforms.get? pk).map definition = (db.xforms.get? pk).map definition
  rows : ∀ row : XFormVersion Xls, row.xform = pk → (row ∈ db'.versions ↔ row ∈ db.versions)

namespace SameDefinition

variable {db mid db' : KmsDatabase Xls} {pk : Nat}

theorem refl (db : KmsDatabase Xls) (pk : Nat) : SameDefinition db pk db :=
  ⟨rfl, fun _ _ => Iff.rfl⟩

theorem trans (h : SameDefinition db pk mid) (h' : SameDefinition mid pk db') : SameDefinition db pk db' where
  form := h'.form.trans h.form
  rows row hrow := (h'.rows row hrow).trans (h.rows row hrow)

/-- The form after the step has the definition of one before it. -/
theorem exists_form (h : SameDefinition db pk db') {form' : EncryptedForm Xls}
    (hform' : db'.xforms.get? pk = some form') :
    ∃ form, db.xforms.get? pk = some form ∧ form.version = form'.version ∧
      form.xml = form'.xml := by
  have hsame := h.form
  rw [hform', Option.map_some] at hsame
  obtain ⟨form, hform, heq⟩ := Option.map_eq_some_iff.mp hsame.symm
  exact ⟨form, hform, congrArg Prod.fst heq, congrArg Prod.snd heq⟩

theorem symm (h : SameDefinition db pk db') : SameDefinition db' pk db :=
  ⟨h.form.symm, fun row hrow => (h.rows row hrow).symm⟩

/-- It stays kept. -/
theorem keptForm (h : SameDefinition db pk db') (hkept : KeptForm db pk) : KeptForm db' pk := by
  intro form' hform'
  obtain ⟨form, hform, hversion, hxml⟩ := h.exists_form hform'
  obtain ⟨row, hrow, hpk, hrowversion, hrowxml⟩ := hkept form hform
  exact ⟨row, (h.rows row hpk).mpr hrow, hpk, hrowversion.trans hversion, hrowxml.trans hxml⟩

/-- The versions that are unused before are. -/
theorem unusedFor_left (h : SameDefinition db pk mid) {version : String} :
    UnusedFor mid pk version db' ↔ UnusedFor db pk version db' := by
  constructor
  · intro hunused row hrow hpk
    exact hunused row ((h.rows row hpk).mpr hrow) hpk
  · intro hunused row hrow hpk
    exact hunused row ((h.rows row hpk).mp hrow) hpk

/-- A version that is used for the definition is used for the same one. -/
theorem unusedFor_right (h : SameDefinition mid pk db') {version : String}
    (hunused : UnusedFor db pk version mid) : UnusedFor db pk version db' := by
  intro row hrow hpk hversion form' hform'
  obtain ⟨form, hform, -, hxml⟩ := h.exists_form hform'
  exact (hunused row hrow hpk hversion form hform).trans hxml

end SameDefinition

/-! ### A form with another definition -/

/-- The rows after a row was made, or not, where a form and a version have one already. -/
theorem mem_createXFormVersion_iff {db : KmsDatabase Xls} {new row : XFormVersion Xls} :
    row ∈ (db.createXFormVersion new).versions ↔
      row ∈ db.versions ∨ (row = new ∧ new.version ≠ none ∧
        ∀ old ∈ db.versions, old.xform = new.xform → old.version ≠ new.version) := by
  unfold KmsDatabase.createXFormVersion
  split
  · rename_i hclash
    constructor
    · exact Or.inl
    · intro h
      cases h with
      | inl h => exact h
      | inr h =>
          obtain ⟨-, hversion, hfree⟩ := h
          cases hclash with
          | inl hnone => exact absurd hnone hversion
          | inr hany =>
              obtain ⟨old, hold, hsame⟩ := List.any_eq_true.mp hany
              rw [Bool.and_eq_true, decide_eq_true_eq, decide_eq_true_eq] at hsame
              exact absurd hsame.2 (hfree old hold hsame.1)
  · rename_i hclash
    rw [not_or] at hclash
    rw [List.mem_append, List.mem_singleton]
    have hfree : ∀ old ∈ db.versions, old.xform = new.xform → old.version ≠ new.version := by
      intro old hold hpk hversion
      refine hclash.2 (List.any_eq_true.mpr ⟨old, hold, ?_⟩)
      rw [hpk, hversion]
      simp
    exact ⟨fun h => h.imp id fun heq => ⟨heq, hclash.1, hfree⟩, fun h => h.imp id And.left⟩

/-- The versions that are kept stay in their place. -/
theorem prefix_createXFormVersion (db : KmsDatabase Xls) (new : XFormVersion Xls) :
    db.versions <+: (db.createXFormVersion new).versions := by
  unfold KmsDatabase.createXFormVersion
  split
  · exact List.prefix_refl _
  · exact List.prefix_append _ _

/-- A form has another definition and there is a row for it, where its version had none. -/
structure Redefined (db : KmsDatabase Xls) (pk : Nat) (form : EncryptedForm Xls)
    (db' : KmsDatabase Xls) : Prop where
  forms : ∀ k, db'.xforms.get? k = if k = pk then some form else db.xforms.get? k
  nextPk : db.xforms.nextPk ≤ db'.xforms.nextPk
  pk_lt : pk < db'.xforms.nextPk
  rows : ∃ new : XFormVersion Xls, new.xform = pk ∧ new.version = form.version ∧
    new.xml = form.xml ∧ ∀ row, row ∈ db'.versions ↔
      row ∈ db.versions ∨ (row = new ∧ form.version ≠ none ∧
        ∀ old ∈ db.versions, old.xform = pk → old.version ≠ form.version)
  kept : db.versions <+: db'.versions

namespace Redefined

variable {db db' : KmsDatabase Xls} {pk : Nat} {form : EncryptedForm Xls} {version : String}

/-- The definition is kept if and only if its version was unused, or used for it. -/
theorem keptForm_iff (h : Redefined db pk form db') (hrows : VersionRows db)
    (hversion : form.version = some version) :
    KeptForm db' pk ↔ UnusedFor db pk version db' := by
  obtain ⟨new, hpk, hnew, hxml, hmem⟩ := h.rows
  have hget : db'.xforms.get? pk = some form := by
    rw [h.forms, if_pos rfl]
  constructor
  · intro hkept old hold holdpk holdversion form' hform'
    rw [hget] at hform'
    cases hform'
    obtain ⟨row, hrow, hrowpk, hrowversion, hrowxml⟩ := hkept form hget
    cases (hmem row).mp hrow with
    | inl hbefore =>
        have hsame : old = row := hrows.unique old hold row hbefore
          (holdpk.trans hrowpk.symm) (by rw [holdversion, hrowversion, hversion])
        rw [hsame]
        exact hrowxml
    | inr hnewrow =>
        exact absurd (holdversion.trans hversion.symm) (hnewrow.2.2 old hold holdpk)
  · intro hunused form' hform'
    rw [hget] at hform'
    cases hform'
    by_cases hclash : ∃ old ∈ db.versions, old.xform = pk ∧ old.version = form.version
    · obtain ⟨old, hold, holdpk, holdversion⟩ := hclash
      refine ⟨old, (hmem old).mpr (Or.inl hold), holdpk, holdversion, ?_⟩
      exact hunused old hold holdpk (holdversion.trans hversion) form hget
    · refine ⟨new, (hmem new).mpr (Or.inr ⟨rfl, ?_, ?_⟩), hpk, hnew, hxml⟩
      · rw [hversion]
        exact Option.some_ne_none version
      · exact fun old hold holdpk holdversion => hclash ⟨old, hold, holdpk, holdversion⟩

/-- The other forms stay as they are. -/
theorem sameDefinition (h : Redefined db pk form db') {k : Nat} (hne : k ≠ pk) : SameDefinition db k db' := by
  obtain ⟨new, hpk, -, -, hmem⟩ := h.rows
  constructor
  · rw [h.forms, if_neg hne]
  · intro row hrow
    rw [hmem]
    constructor
    · intro hafter
      cases hafter with
      | inl hbefore => exact hbefore
      | inr hnew =>
          rw [hnew.1, hpk] at hrow
          exact absurd hrow.symm hne
    · exact Or.inl

/-- The table still has one row for a version of a form. -/
theorem versionRows (h : Redefined db pk form db') (hrows : VersionRows db) :
    VersionRows db' := by
  obtain ⟨new, hpk, hversion, -, hmem⟩ := h.rows
  constructor
  · intro row hrow other hother hform hsame
    cases (hmem row).mp hrow with
    | inl hbefore =>
        cases (hmem other).mp hother with
        | inl hbefore' => exact hrows.unique row hbefore other hbefore' hform hsame
        | inr hnew =>
            obtain ⟨rfl, -, hfree⟩ := hnew
            exact absurd (hsame.trans hversion) (hfree row hbefore (hform.trans hpk))
    | inr hnew =>
        obtain ⟨rfl, -, hfree⟩ := hnew
        cases (hmem other).mp hother with
        | inl hbefore' =>
            exact absurd (hsame.symm.trans hversion) (hfree other hbefore' (hform.symm.trans hpk))
        | inr hnew' => exact hnew'.1.symm
  · intro row hrow
    cases (hmem row).mp hrow with
    | inl hbefore => exact Nat.lt_of_lt_of_le (hrows.referenced row hbefore) h.nextPk
    | inr hnew =>
        rw [hnew.1, hpk]
        exact h.pk_lt

end Redefined

/-- A row is made for a form that has another definition. -/
theorem redefined_createXFormVersion {db saved : KmsDatabase Xls} {pk : Nat}
    {form : EncryptedForm Xls} {new : XFormVersion Xls}
    (hforms : ∀ k, saved.xforms.get? k = if k = pk then some form else db.xforms.get? k)
    (hnextPk : db.xforms.nextPk ≤ saved.xforms.nextPk) (hversions : saved.versions = db.versions)
    (hpk : new.xform = pk) (hversion : new.version = form.version) (hxml : new.xml = form.xml) :
    Redefined db pk form (saved.createXFormVersion new) := by
  have hxforms : (saved.createXFormVersion new).xforms = saved.xforms :=
    (createXFormVersion_rows saved new).2.1
  constructor
  · rw [hxforms]
    exact hforms
  · rw [hxforms]
    exact hnextPk
  · rw [hxforms]
    have hget : saved.xforms.get? pk = some form := by rw [hforms, if_pos rfl]
    exact saved.xforms.pk_lt pk (List.mem_map_of_mem (Table.get?_eq_some.mp hget))
  · refine ⟨new, hpk, hversion, hxml, fun row => ?_⟩
    rw [mem_createXFormVersion_iff, hversions, hpk, hversion]
  · rw [← hversions]
    exact prefix_createXFormVersion saved new

/-- Forms have other definitions, each with its version. -/
structure Redefines (db : KmsDatabase Xls) (changes : List (Nat × String))
    (db' : KmsDatabase Xls) : Prop where
  others : ∀ pk, pk ∉ Dict.keys changes → SameDefinition db pk db'
  each : ∀ change ∈ changes, KeptForm db' change.1 ↔ UnusedFor db change.1 change.2 db'
  rows : VersionRows db'
  kept : db.versions <+: db'.versions

namespace Redefines

variable {db mid db' : KmsDatabase Xls} {changes : List (Nat × String)}

/-- No form has another definition. -/
theorem nil (hrows : VersionRows db) (hsame : ∀ pk, SameDefinition db pk db')
    (hversions : db'.versions = db.versions) (hnextPk : db'.xforms.nextPk = db.xforms.nextPk) :
    Redefines db [] db' where
  others pk _ := hsame pk
  each change hchange := absurd hchange List.not_mem_nil
  rows := by
    constructor
    · rw [hversions]
      exact hrows.unique
    · rw [hversions, hnextPk]
      exact hrows.referenced
  kept := hversions ▸ List.prefix_refl _

/-- One form, and then others. -/
theorem cons {pk : Nat} {form : EncryptedForm Xls} {version : String}
    (hfirst : Redefined db pk form mid) (hrows : VersionRows db)
    (hversion : form.version = some version) (hpk : pk ∉ Dict.keys changes)
    (hrest : Redefines mid changes db') : Redefines db ((pk, version) :: changes) db' where
  others k hk := by
    rw [Dict.keys_cons, List.mem_cons, not_or] at hk
    exact (hfirst.sameDefinition hk.1).trans (hrest.others k hk.2)
  each change hchange := by
    cases List.mem_cons.mp hchange with
    | inl heq =>
        rw [heq]
        show KeptForm db' pk ↔ UnusedFor db pk version db'
        have hsame : SameDefinition mid pk db' := hrest.others pk hpk
        constructor
        · intro hkept
          exact hsame.unusedFor_right ((hfirst.keptForm_iff hrows hversion).mp
            (hsame.symm.keptForm hkept))
        · intro hunused
          exact hsame.keptForm ((hfirst.keptForm_iff hrows hversion).mpr
            (hsame.symm.unusedFor_right hunused))
    | inr hmem =>
        have hne : change.1 ≠ pk := fun heq => hpk (heq ▸ List.mem_map_of_mem hmem)
        rw [hrest.each change hmem]
        exact (hfirst.sameDefinition hne).unusedFor_left
  rows := hrest.rows
  kept := hfirst.kept.trans hrest.kept

/-- One form. -/
theorem single {pk : Nat} {form : EncryptedForm Xls} {version : String}
    (h : Redefined db pk form db') (hrows : VersionRows db)
    (hversion : form.version = some version) : Redefines db [(pk, version)] db' :=
  cons h hrows hversion List.not_mem_nil
    (nil (h.versionRows hrows) (SameDefinition.refl db') rfl rfl)

/-- Where the definitions of all forms were kept, they are if and only if each version was unused,
or used for the same definition. -/
theorem completeHistory_iff (h : Redefines db changes db') (hcomplete : CompleteHistory db) :
    CompleteHistory db' ↔ ∀ change ∈ changes, UnusedFor db change.1 change.2 db' := by
  constructor
  · intro hall change hchange
    exact (h.each change hchange).mp (hall change.1)
  · intro hall pk
    by_cases hpk : pk ∈ Dict.keys changes
    · obtain ⟨change, hchange, rfl⟩ := List.mem_map.mp hpk
      exact (h.each change hchange).mpr (hall change hchange)
    · exact (h.others pk hpk).keptForm (hcomplete pk)

end Redefines

/-- A version without a row is unused. -/
theorem unusedFor_of_notMem {db db' : KmsDatabase Xls} {pk : Nat} {version : String}
    (h : version ∉ db.versionsOf pk) : UnusedFor db pk version db' :=
  fun row hrow hpk hsame => absurd (mem_versionsOf_iff.mpr ⟨row, hrow, hpk, hsame⟩) h

/-- A form that is new has no versions. -/
theorem unusedFor_nextPk {db db' : KmsDatabase Xls} (hrows : VersionRows db)
    {version : String} : UnusedFor db db.xforms.nextPk version db' := by
  intro row hrow hpk
  exact absurd (hpk ▸ hrows.referenced row hrow) (Nat.lt_irrefl _)

/-! ### Publications -/

/-- The survey of a form leaves its version and its XLSForm. -/
theorem getSurvey_keeps {form form' : EncryptedForm Xls} {survey : Survey}
    {lib : FormLibrary Xls Survey} (h : form.getSurvey lib = .ok (survey, form')) :
    form'.version = form.version ∧ form'.xls = form.xls := by
  have hagain : ∀ {result}, EncryptedForm.getSurvey.readAgain lib form = .ok result →
      result.2.version = form.version ∧ result.2.xls = form.xls := by
    intro result hresult
    unfold EncryptedForm.getSurvey.readAgain at hresult
    obtain ⟨⟨survey, workbookJson⟩, -, hresult⟩ := bind_eq_ok.mp hresult
    dsimp only at hresult
    split at hresult
    · obtain rfl := pure_eq_ok.mp hresult
      exact ⟨rfl, rfl⟩
    · split at hresult
      · obtain rfl := pure_eq_ok.mp hresult
        exact ⟨rfl, rfl⟩
      · obtain rfl := pure_eq_ok.mp hresult
        exact ⟨rfl, rfl⟩
  unfold EncryptedForm.getSurvey at h
  split at h
  · split at h
    · exact hagain h
    · cases h
  · split at h
    · exact hagain h
    · cases h
  · obtain ⟨built, -, h⟩ := bind_eq_ok.mp h
    have heq := pure_eq_ok.mp h
    rw [Prod.mk.injEq] at heq
    rw [← heq.2]
    exact ⟨rfl, rfl⟩

/-- The uuid in the XML leaves the version and the XLSForm. -/
theorem withUuid_keeps {publication : Publication} {fileName : String}
    {form form' : EncryptedForm Xls}
    (h : form.withUuid lib publication fileName = .ok form') :
    form'.version = form.version ∧ form'.xls = form.xls := by
  unfold EncryptedForm.withUuid at h
  obtain ⟨xml, -, h⟩ := bind_eq_ok.mp h
  obtain rfl := pure_eq_ok.mp h
  exact ⟨rfl, rfl⟩

/-- A form that is read off its XLSForm has a version, which is unused where it replaces
another one. -/
theorem readXlsform_version {publication : Publication} {existing : List String}
    {form form' : EncryptedForm Xls} {xls : Xls} {stored : Option Survey}
    (h : form.readXlsform lib publication existing xls stored = .ok form') :
    ∃ version, form'.version = some version ∧ (stored.isSome = true → version ∉ existing) := by
  unfold EncryptedForm.readXlsform at h
  obtain ⟨⟨survey, workbookJson⟩, -, h⟩ := bind_eq_ok.mp h
  obtain ⟨⟨aligned, alignedJson⟩, -, h⟩ := bind_eq_ok.mp h
  refine ⟨_, (withUuid_keeps h).1, fun hstored => ?_⟩
  rw [if_pos hstored]
  exact getUniqueVersion_notMem existing _

/-- The form of an XLSForm is saved with a version, which is unused where it replaces another
one. -/
theorem saveDataDictionary_xls {publication : Publication} {existing : Option (List String)}
    {form form' : EncryptedForm Xls} {xls : Xls} (hxls : form.xls = some xls)
    (h : form.saveDataDictionary cfg lib publication existing = .ok form') :
    ∃ version, form'.version = some version ∧
      ∀ versions, existing = some versions → version ∉ versions := by
  unfold EncryptedForm.saveDataDictionary at h
  rw [hxls] at h
  cases existing with
  | none =>
      obtain ⟨read, hread, h⟩ := bind_eq_ok.mp h
      obtain ⟨⟨survey, surveyed⟩, hsurvey, h⟩ := bind_eq_ok.mp h
      obtain ⟨version, hversion, -⟩ := readXlsform_version hread
      refine ⟨version, ?_, fun versions hsome => by cases hsome⟩
      rw [(save_sameKeyFields h).version, (getSurvey_keeps hsurvey).1, hversion]
  | some versions =>
      obtain ⟨⟨stored, surveyed⟩, -, h⟩ := bind_eq_ok.mp h
      obtain ⟨read, hread, h⟩ := bind_eq_ok.mp h
      obtain ⟨version, hversion, hnew⟩ := readXlsform_version hread
      refine ⟨version, ?_, fun versions' hsome => ?_⟩
      · rw [(save_sameKeyFields h).version, hversion]
      · rw [← Option.some_inj.mp hsome]
        exact hnew rfl

/-- A form without an XLSForm is saved with its version. -/
theorem saveDataDictionary_xml {publication : Publication} {existing : Option (List String)}
    {form form' : EncryptedForm Xls} (hxls : form.xls = none)
    (h : form.saveDataDictionary cfg lib publication existing = .ok form') :
    form'.version = form.version := by
  unfold EncryptedForm.saveDataDictionary at h
  rw [hxls] at h
  obtain ⟨⟨survey, surveyed⟩, hsurvey, h⟩ := bind_eq_ok.mp h
  rw [(save_sameKeyFields h).version, (getSurvey_keeps hsurvey).1]

/-- A live form is there. -/
theorem getLiveForm_eq_ok {db : KmsDatabase Xls} {pk : Nat} {form : EncryptedForm Xls}
    (h : db.getLiveForm pk = .ok form) : db.xforms.get? pk = some form := by
  unfold KmsDatabase.getLiveForm at h
  split at h
  · cases h
  · rename_i stored hstored
    split at h
    · rw [hstored, Except.ok.inj h]
    · cases h

/-- A stored form that is saved has another definition. -/
theorem redefined_republish {db db' : KmsDatabase Xls} {pk : Nat} {old form : EncryptedForm Xls}
    {user : String} (hold : db.xforms.get? pk = some old)
    (h : db.republish pk form user = .ok db') : Redefined db pk form db' := by
  unfold KmsDatabase.republish KmsDatabase.createVersionOf at h
  obtain ⟨-, -, h⟩ := bind_eq_ok.mp h
  obtain rfl := pure_eq_ok.mp h
  exact redefined_createXFormVersion (Table.get?_save _ hold form) (Nat.le_refl _) rfl rfl rfl rfl

/-- A new form has a definition. -/
theorem redefined_publishNew {db db' : KmsDatabase Xls} {form : EncryptedForm Xls}
    {user : String} (h : db.publishNew form user = .ok db') :
    Redefined db db.xforms.nextPk form db' := by
  unfold KmsDatabase.publishNew KmsDatabase.createVersionOf at h
  obtain ⟨-, -, h⟩ := bind_eq_ok.mp h
  obtain rfl := pure_eq_ok.mp h
  exact redefined_createXFormVersion (Table.get?_create _ form) (Nat.le_succ _) rfl rfl rfl rfl

/-- What a step does to the definitions. Only a version that is given unasked can be one that the
form had before with another definition. -/
def StepChanges (lib : PublishLibrary Xls Survey) (db : KmsDatabase Xls)
    (action : DefinitionAction Xls) (db' : KmsDatabase Xls) : Prop :=
  ∃ changes, Redefines db changes db' ∧
    ((∀ change ∈ changes, UnusedFor db change.1 change.2 db') ↔
      ∀ pk version, GivesUnasked lib db action pk version → UnusedFor db pk version db')

namespace StepChanges

variable {db db' : KmsDatabase Xls} {action : DefinitionAction Xls} {pk : Nat}
  {form : EncryptedForm Xls} {version : String}

/-- One form has another definition, with a version that it has not had. -/
theorem of_unused (h : Redefined db pk form db') (hrows : VersionRows db)
    (hversion : form.version = some version) (hunused : UnusedFor db pk version db')
    (hasked : ∀ pk version, ¬ GivesUnasked lib db action pk version) :
    StepChanges lib db action db' := by
  refine ⟨[(pk, version)], .single h hrows hversion, ?_⟩
  rw [List.forall_mem_singleton]
  exact iff_of_true hunused fun k given hgiven => absurd hgiven (hasked k given)

/-- One form has another definition, with a version that is given unasked. -/
theorem of_unasked (h : Redefined db pk form db') (hrows : VersionRows db)
    (hversion : form.version = some version)
    (hgiven : ∀ k given, GivesUnasked lib db action k given ↔ k = pk ∧ given = version) :
    StepChanges lib db action db' := by
  refine ⟨[(pk, version)], .single h hrows hversion, ?_⟩
  rw [List.forall_mem_singleton]
  constructor
  · intro hunused k given hk
    rw [((hgiven k given).mp hk).1, ((hgiven k given).mp hk).2]
    exact hunused
  · intro hall
    exact hall pk version ((hgiven pk version).mpr ⟨rfl, rfl⟩)

/-- No form has another definition. -/
theorem of_same (hrows : VersionRows db)
    (hasked : ∀ pk version, ¬ GivesUnasked lib db action pk version) :
    StepChanges lib db action db := by
  refine ⟨[], .nil hrows (SameDefinition.refl db) rfl rfl, iff_of_true ?_ ?_⟩
  · exact fun _ hchange => absurd hchange List.not_mem_nil
  · exact fun k given hgiven => absurd hgiven (hasked k given)

end StepChanges

/-- A form is published from an XLSForm. -/
theorem stepChanges_publishXls {db db' : KmsDatabase Xls} {publication : Publication} {xls : Xls}
    {target : FormOwner ⊕ Nat} (hrows : VersionRows db)
    (h : publishXlsForm cfg lib publication db xls target = .ok db') :
    StepChanges lib db (.publishXls publication xls target) db' := by
  unfold publishXlsForm at h
  cases target with
  | inl owner =>
      obtain ⟨saved, hsaved, h⟩ := bind_eq_ok.mp h
      obtain ⟨version, hversion, -⟩ := saveDataDictionary_xls rfl hsaved
      exact .of_unused (redefined_publishNew h) hrows hversion (unusedFor_nextPk hrows)
        fun _ _ => id
  | inr pk =>
      obtain ⟨form, hform, h⟩ := bind_eq_ok.mp h
      obtain ⟨saved, hsaved, h⟩ := bind_eq_ok.mp h
      obtain ⟨version, hversion, hnew⟩ := saveDataDictionary_xls rfl hsaved
      exact .of_unused (redefined_republish (getLiveForm_eq_ok hform) h) hrows hversion
        (unusedFor_of_notMem (hnew _ rfl)) fun _ _ => id

/-- A form is published from an XML. One that replaces a form without an XLSForm has the version
of the XML, or an unused one, but for a missing one. -/
theorem stepChanges_publishXml {db db' : KmsDatabase Xls} {publication : Publication}
    {xml fileName : String} {target : FormOwner ⊕ Nat} (hrows : VersionRows db)
    (h : publishXmlForm cfg lib publication db xml fileName target = .ok db') :
    StepChanges lib db (.publishXml publication xml fileName target) db' := by
  unfold publishXmlForm at h
  obtain ⟨survey, hsurvey, h⟩ := bind_eq_ok.mp h
  cases target with
  | inl owner =>
      obtain ⟨identified, hidentified, h⟩ := bind_eq_ok.mp h
      obtain ⟨saved, hsaved, h⟩ := bind_eq_ok.mp h
      have hkeeps := withUuid_keeps hidentified
      have hversion := saveDataDictionary_xml hkeeps.2 hsaved
      rw [hkeeps.1] at hversion
      refine .of_unused (redefined_publishNew h) hrows hversion (unusedFor_nextPk hrows) ?_
      intro pk version hgiven
      cases hgiven.1
  | inr pk =>
      obtain ⟨form, hform, h⟩ := bind_eq_ok.mp h
      obtain ⟨identified, hidentified, h⟩ := bind_eq_ok.mp h
      obtain ⟨saved, hsaved, h⟩ := bind_eq_ok.mp h
      have hget := getLiveForm_eq_ok hform
      have hkeeps := withUuid_keeps hidentified
      have hredefined := redefined_republish hget h
      cases hxls : form.xls with
      | some xls =>
          -- The XLSForm of the form is read, and not the XML.
          obtain ⟨version, hversion, hnew⟩ := saveDataDictionary_xls (hkeeps.2.trans hxls) hsaved
          refine .of_unused hredefined hrows hversion (unusedFor_of_notMem (hnew _ rfl)) ?_
          intro k given hgiven
          obtain ⟨htarget, -, ⟨form', hget', hnone⟩, -⟩ := hgiven
          cases htarget
          rw [hget] at hget'
          cases hget'
          rw [hxls] at hnone
          cases hnone
      | none =>
          have hversion := saveDataDictionary_xml (hkeeps.2.trans hxls) hsaved
          rw [hkeeps.1] at hversion
          unfold replacementVersion at hversion
          by_cases hmissing : lib.versionInXml xml (lib.surveyIdString survey) = ""
          · rw [if_pos hmissing, hmissing] at hversion
            refine .of_unasked hredefined hrows hversion fun k given => ?_
            constructor
            · intro hgiven
              cases hgiven.1
              exact ⟨rfl, hgiven.2.1⟩
            · intro heq
              obtain ⟨rfl, rfl⟩ := heq
              exact ⟨rfl, rfl, ⟨form, hget, hxls⟩, survey, hsurvey, hmissing⟩
          · rw [if_neg hmissing] at hversion
            refine .of_unused hredefined hrows hversion
              (unusedFor_of_notMem (getUniqueVersion_notMem _ _)) fun k given hgiven => ?_
            obtain ⟨-, -, -, survey', hsurvey', hmissing'⟩ := hgiven
            rw [hsurvey] at hsurvey'
            cases hsurvey'
            exact hmissing hmissing'

/-! ### Managed keys -/

/-- `_encrypt_xform` gives the form the minute as its version. -/
theorem redefined_encryptXformWith {lib : FormLibrary Xls Survey} {now : DateTime}
    {db db' : KmsDatabase Xls} {pk : Nat} {xform : EncryptedForm Xls} {kmsKey : Nat × KMSKey}
    {encryptedBy : Option String} (hget : db.xforms.get? pk = some xform)
    (h : encryptXformWith cfg lib now db pk xform kmsKey encryptedBy = .ok db') :
    ∃ form, Redefined db pk form db' ∧ form.version = some (versionAt now) := by
  unfold encryptXformWith at h
  obtain ⟨⟨survey, workbookJson⟩, -, h⟩ := bind_eq_ok.mp h
  obtain ⟨saved, hsaved, h⟩ := bind_eq_ok.mp h
  obtain ⟨linked, hlinked, h⟩ := bind_eq_ok.mp h
  obtain rfl := pure_eq_ok.mp h
  unfold KmsDatabase.createXFormKey at hlinked
  obtain ⟨-, -, hlinked⟩ := bind_eq_ok.mp hlinked
  obtain rfl := pure_eq_ok.mp hlinked
  refine ⟨saved, ?_, (save_sameKeyFields hsaved).version⟩
  exact redefined_createXFormVersion (Table.get?_save _ hget saved) (Nat.le_refl _) rfl rfl rfl rfl

/-- A form is encrypted, or is encrypted already. -/
theorem stepChanges_encrypt {db db' : KmsDatabase Xls} {now : DateTime} {pk : Nat}
    {encryptedBy : Option String} {overrideEncryption : Bool} (hrows : VersionRows db)
    (h : encryptXform cfg lib.toFormLibrary now db pk encryptedBy overrideEncryption = .ok db') :
    StepChanges lib db (.encrypt now pk encryptedBy overrideEncryption) db' := by
  obtain ⟨xform, hget, hcases⟩ := encryptXform_cases h
  cases hcases with
  | inl hleft =>
      obtain ⟨hencrypted, hoverrides, rfl⟩ := hleft
      refine .of_same hrows fun k given hgiven => ?_
      obtain ⟨rfl, -, form, hform, hnot⟩ := hgiven
      rw [hget] at hform
      cases hform
      rw [hencrypted, hoverrides] at hnot
      exact absurd hnot (by decide)
  | inr hencrypts =>
      obtain ⟨hencrypted, kmsKey, -, hwith⟩ := hencrypts
      obtain ⟨form, hredefined, hversion⟩ := redefined_encryptXformWith hget hwith
      refine .of_unasked hredefined hrows hversion fun k given => ?_
      constructor
      · exact fun hgiven => ⟨hgiven.1, hgiven.2.1⟩
      · intro heq
        obtain ⟨rfl, rfl⟩ := heq
        exact ⟨rfl, rfl, xform, hget, hencrypted⟩

/-- The encryption of a form is disabled, or the form is not encrypted. -/
theorem stepChanges_disable {db db' : KmsDatabase Xls} {now : DateTime} {pk : Nat}
    {disabledBy : Option String} (hrows : VersionRows db)
    (h : disableXformEncryption cfg lib.toFormLibrary now db pk disabledBy = .ok db') :
    StepChanges lib db (.disable now pk disabledBy) db' := by
  obtain ⟨xform, hget, hcases⟩ := disableXformEncryption_cases h
  cases hcases with
  | inl hleft =>
      obtain ⟨hencrypted, rfl⟩ := hleft
      refine .of_same hrows fun k given hgiven => ?_
      obtain ⟨rfl, -, form, hform, hnot⟩ := hgiven
      rw [hget] at hform
      cases hform
      exact absurd (hencrypted.symm.trans hnot) (by decide)
  | inr hdisables =>
      obtain ⟨hencrypted, saved, hversion, -, rfl⟩ := hdisables
      refine .of_unasked (redefined_createXFormVersion (Table.get?_save _ hget saved)
        (Nat.le_refl _) rfl rfl rfl rfl) hrows hversion fun k given => ?_
      constructor
      · exact fun hgiven => ⟨hgiven.1, hgiven.2.1⟩
      · intro heq
        obtain ⟨rfl, rfl⟩ := heq
        exact ⟨rfl, rfl, xform, hget, hencrypted⟩

/-- The forms of a key are encrypted one after the other, each once. -/
theorem redefines_rotateForms {lib : FormLibrary Xls Survey} {encrypted : Nat → DateTime}
    {kmsKey : Nat × KMSKey} {encryptedBy : Option String}
    {items : List (Nat × EncryptedForm Xls)} (hnodup : (Dict.keys items).Nodup) :
    ∀ {db db' : KmsDatabase Xls}, VersionRows db →
      (∀ item ∈ items, db.xforms.get? item.1 = some item.2) →
      items.foldlM (fun db item =>
        encryptXformWith cfg lib (encrypted item.1) db item.1 item.2 kmsKey encryptedBy) db =
          .ok db' →
      Redefines db (items.map fun item => (item.1, versionAt (encrypted item.1))) db' := by
  induction items with
  | nil =>
      intro db db' hrows _ h
      obtain rfl := pure_eq_ok.mp h
      exact .nil hrows (SameDefinition.refl db) rfl rfl
  | cons first items ih =>
      intro db db' hrows hitems h
      rw [Dict.keys_cons, List.nodup_cons] at hnodup
      rw [List.forall_mem_cons] at hitems
      rw [List.foldlM_cons] at h
      obtain ⟨mid, hfirst, h⟩ := bind_eq_ok.mp h
      obtain ⟨form, hredefined, hversion⟩ := redefined_encryptXformWith hitems.1 hfirst
      have hothers : ∀ item ∈ items, mid.xforms.get? item.1 = some item.2 := by
        intro item hitem
        have hne : item.1 ≠ first.1 := fun heq => hnodup.1 (heq ▸ List.mem_map_of_mem hitem)
        rw [hredefined.forms, if_neg hne]
        exact hitems.2 item hitem
      refine .cons hredefined hrows hversion ?_
        (ih hnodup.2 (hredefined.versionRows hrows) hothers h)
      unfold Dict.keys
      rw [List.map_map]
      exact hnodup.1

/-- Only the forms and the versions matter. -/
theorem Redefines.congr {db db' start finish : KmsDatabase Xls} {changes : List (Nat × String)}
    (h : Redefines start changes finish) (hforms : start.xforms = db.xforms)
    (hversions : start.versions = db.versions) (hforms' : finish.xforms = db'.xforms)
    (hversions' : finish.versions = db'.versions) : Redefines db changes db' where
  others pk hpk := by
    constructor
    · rw [← hforms, ← hforms']
      exact (h.others pk hpk).form
    · rw [← hversions, ← hversions']
      exact (h.others pk hpk).rows
  each change hchange := by
    have hiff := h.each change hchange
    unfold KeptForm UnusedFor at hiff ⊢
    rw [← hversions, ← hforms', ← hversions']
    exact hiff
  rows := by
    constructor
    · rw [← hversions']
      exact h.rows.unique
    · rw [← hforms', ← hversions']
      exact h.rows.referenced
  kept := by
    rw [← hversions, ← hversions']
    exact h.kept

/-- A key is rotated: each of its forms has the minute of its turn as its version. -/
theorem stepChanges_rotate {db db' : KmsDatabase Xls} {settings : KmsSettings}
    {client : KmsClient} {clock : RotationClock} {pk : Nat}
    {rotatedBy rotationReason : Option String} {newKey : Nat × KMSKey} (hrows : VersionRows db)
    (h : rotateKey cfg lib.toFormLibrary settings client clock db pk rotatedBy rotationReason =
      .ok (db', newKey)) :
    StepChanges lib db (.rotate settings client clock pk rotatedBy rotationReason) db' := by
  obtain ⟨kmsKey, rotated, created, encrypted, -, hcreated, hforms, rfl, -⟩ := rotateKey_cases h
  have hdb := (createKey_spec hcreated).1
  have hxforms : created.xforms = db.xforms := by rw [hdb]
  have hversions : created.versions = db.versions := by rw [hdb]
  have hnodup : (Dict.keys (db.formsOfKey pk)).Nodup :=
    db.xforms.nodup.sublist (List.filter_sublist.map _)
  have hitems : ∀ item ∈ db.formsOfKey pk, created.xforms.get? item.1 = some item.2 := by
    intro item hitem
    rw [hxforms]
    exact Table.get?_eq_some.mpr (List.mem_filter.mp hitem).1
  have hcreatedRows : VersionRows created := by
    constructor
    · rw [hversions]
      exact hrows.unique
    · rw [hversions, hxforms]
      exact hrows.referenced
  refine ⟨_, (redefines_rotateForms hnodup hcreatedRows hitems hforms).congr hxforms hversions
    rfl rfl, ?_⟩
  rw [List.forall_mem_map]
  constructor
  · intro hall k given hgiven
    obtain ⟨hk, rfl⟩ := hgiven
    obtain ⟨item, hitem, rfl⟩ := List.mem_map.mp hk
    exact hall item hitem
  · intro hall item hitem
    exact hall item.1 _ ⟨List.mem_map_of_mem hitem, rfl⟩

/-- A submission is received. -/
theorem stepChanges_receive {db : KmsDatabase Xls} {pk numOfSubmissions : Nat}
    {form : EncryptedForm Xls} (hrows : VersionRows db) (hform : db.xforms.get? pk = some form) :
    StepChanges lib db (.receive pk numOfSubmissions)
      { db with
        xforms := db.xforms.save pk { form with numOfSubmissions := numOfSubmissions } } := by
  refine ⟨[], .nil hrows (fun k => ⟨?_, fun _ _ => Iff.rfl⟩) rfl rfl, ?_⟩
  · show ((db.xforms.save pk { form with numOfSubmissions := numOfSubmissions }).get? k).map
      definition = (db.xforms.get? k).map definition
    rw [Table.get?_save _ hform]
    by_cases heq : k = pk
    · rw [if_pos heq, heq, hform]
      rfl
    · rw [if_neg heq]
  · refine iff_of_true (fun _ hchange => absurd hchange List.not_mem_nil) ?_
    exact fun _ _ hgiven => hgiven.elim

/-- What each operation does to the definitions. -/
theorem stepChanges_of_step {db db' : KmsDatabase Xls} {action : DefinitionAction Xls}
    (hrows : VersionRows db) (h : DefinitionStep cfg lib db action db') :
    StepChanges lib db action db' := by
  cases action with
  | publishXls publication xls target => exact stepChanges_publishXls hrows h
  | publishXml publication xml fileName target => exact stepChanges_publishXml hrows h
  | encrypt now pk encryptedBy overrides => exact stepChanges_encrypt hrows h
  | rotate settings client clock pk rotatedBy rotationReason =>
      obtain ⟨newKey, h⟩ := h
      exact stepChanges_rotate hrows h
  | disable now pk disabledBy => exact stepChanges_disable hrows h
  | receive pk numOfSubmissions =>
      obtain ⟨form, hform, rfl⟩ := h
      exact stepChanges_receive hrows hform

/-! ### A run -/

/-- After the step, the current definition of every form is kept, and so are the rows that were
there. -/
def HistoryKept (db : KmsDatabase Xls) (_ : DefinitionAction Xls) (db' : KmsDatabase Xls) :
    Prop :=
  CompleteHistory db' ∧ db.versions <+: db'.versions

/-- The definitions are kept by a step if and only if each version that it gives unasked is one that
the form has not had, or has had for the same definition. -/
theorem historyKept_iff {db db' : KmsDatabase Xls} {action : DefinitionAction Xls}
    (hrows : VersionRows db) (hcomplete : CompleteHistory db)
    (h : DefinitionStep cfg lib db action db') :
    HistoryKept db action db' ↔
      ∀ pk version, GivesUnasked lib db action pk version → UnusedFor db pk version db' := by
  obtain ⟨changes, hchanges, hguard⟩ := stepChanges_of_step hrows h
  unfold HistoryKept
  rw [and_iff_left hchanges.kept, hchanges.completeHistory_iff hcomplete]
  exact hguard

/-- In a run whose steps each give a form only versions that it has not had, or look for one, the
current definitions of all forms are kept after every step, and the rows that were there are as
they were. -/
theorem completeHistory_run {db db' : KmsDatabase Xls} {actions : List (DefinitionAction Xls)}
    (hrows : VersionRows db) (hcomplete : CompleteHistory db)
    (hrun : Run (Guarded (DefinitionStep cfg lib) (VersionsUnused lib)) db actions db') :
    Run (Guarded (DefinitionStep cfg lib) HistoryKept) db actions db' := by
  have hkept : ∀ db action db', DefinitionStep cfg lib db action db' →
      VersionRows db ∧ CompleteHistory db → VersionsUnused lib db action db' →
        HistoryKept db action db' := by
    intro db action db' hstep hinv hunused
    refine (historyKept_iff hinv.1 hinv.2 hstep).mpr fun pk version hgiven => ?_
    exact unusedFor_of_notMem (hunused pk version hgiven)
  refine Run.guarded_mono (fun db => VersionRows db ∧ CompleteHistory db) ⟨hrows, hcomplete⟩
    (fun db action db' _ => hkept db action db') ?_ hrun
  intro db action db' _ hstep hunused hinv
  obtain ⟨changes, hchanges, -⟩ := stepChanges_of_step hinv.1 hstep
  exact ⟨hchanges.rows, (hkept db action db' hstep hinv hunused).1⟩

/-! ### An XML without a version -/

/-- The forms are looked through for their rows. -/
def historyIsComplete (db : KmsDatabase Xls) : Bool :=
  db.xforms.rows.all fun item =>
    db.versions.any fun row =>
      row.xform = item.1 && row.version = item.2.version && row.xml = item.2.xml

/-- A history that is complete is found to be. -/
theorem historyIsComplete_of_complete {db : KmsDatabase Xls} (h : CompleteHistory db) :
    historyIsComplete db = true := by
  unfold historyIsComplete
  rw [List.all_eq_true]
  intro item hitem
  obtain ⟨row, hrow, hpk, hversion, hxml⟩ := h item.1 item.2 (Table.get?_eq_some.mpr hitem)
  rw [List.any_eq_true]
  exact ⟨row, hrow, by simp [hpk, hversion, hxml]⟩

/-- A database without forms. -/
structure NoForms (db : KmsDatabase Xls) : Prop where
  xforms : db.xforms.rows = []
  versions : db.versions = []

theorem NoForms.versionRows {db : KmsDatabase Xls} (h : NoForms db) : VersionRows db := by
  constructor
  · rw [h.versions]
    exact fun row hrow => absurd hrow List.not_mem_nil
  · rw [h.versions]
    exact fun row hrow => absurd hrow List.not_mem_nil

theorem NoForms.completeHistory {db : KmsDatabase Xls} (h : NoForms db) : CompleteHistory db := by
  intro pk form hform
  rw [Table.get?_eq_some, h.xforms] at hform
  exact absurd hform List.not_mem_nil

/-- The library on XML files. A survey has the version that the XML has as an attribute. -/
def xmlLibrary : PublishLibrary Unit SmallSurvey where
  toFormLibrary := smallLibrary
  processXlsform := fun _ _ => .error (.pyxformError "No worksheet")
  rootTag := fun _ => "data"
  surveyVersion := fun survey => survey.version
  surveyIdString := fun _ => "visits"
  surveyName := fun _ => "data"
  surveyTitle := fun _ => "Visits"
  setSurveyIdString := fun survey _ => survey
  setSurveyName := fun survey _ => survey
  fileName := fun _ => "visits.xls"
  surveyFromXml := fun _ => .ok {}
  surveyJson := fun _ => [("name", .str "data"), ("id_string", .str "visits")]
  versionInXml := fun xml _ => if xml = smallLibrary.toXml { version := "1" } then "1" else ""
  setVersionInXml := fun xml _ _ => xml
  setUuidInXml := fun _ _ xml => .ok xml

/-- A publication in the minute. -/
def publicationAt (now : DateTime) : Publication where
  now := now
  uuid := "b3f8f1a2"
  uniqueIdString := id
  publisher := "amina"

/-- The organization and its key, without a form. -/
def formlessDatabase : KmsDatabase Unit :=
  { smallDatabase with xforms := smallDatabase.xforms.delete 0 }

theorem noForms_formlessDatabase : NoForms formlessDatabase :=
  ⟨rfl, rfl⟩

/-- An XML without a version, with a question. -/
def versionlessXml (question : String) : String :=
  "<h:html><h:head><h:title>Visits</h:title><model><instance><data id=\"visits\"><" ++ question ++
    "/></data></instance></model></h:head></h:html>"

/-- A form is published, and replaced. -/
def publishTwice (first second : String) : Except KmsError (KmsDatabase Unit) := do
  let db ← publishXmlForm smallSettings xmlLibrary (publicationAt firstMinute) formlessDatabase
    first "visits.xml" (.inl (.organization 7))
  publishXmlForm smallSettings xmlLibrary (publicationAt firstMinute) db second "visits.xml"
    (.inr 1)

/-- The definition of the replacement is not kept: there is a row for the missing version. -/
theorem not_completeHistory_run :
    ¬ ∀ (Xls Survey : Type) (cfg : SaveSettings) (lib : PublishLibrary Xls Survey)
      (db db' : KmsDatabase Xls) (actions : List (DefinitionAction Xls)), VersionRows db →
      CompleteHistory db → Run (DefinitionStep cfg lib) db actions db' → CompleteHistory db' := by
  intro h
  have hincomplete : (publishTwice (versionlessXml "age") (versionlessXml "weight")).map
      historyIsComplete = .ok false := by
    decide +kernel
  obtain ⟨db', hrun, hfalse⟩ := map_eq_ok.mp hincomplete
  obtain ⟨db, hfirst, hsecond⟩ := bind_eq_ok.mp hrun
  have hcomplete : CompleteHistory db' := h _ _ _ _ _ _
    [.publishXml _ _ _ (.inl (.organization 7)), .publishXml _ _ _ (.inr 1)]
    noForms_formlessDatabase.versionRows noForms_formlessDatabase.completeHistory
    (.cons hfirst (.cons hsecond (.nil _)))
  rw [historyIsComplete_of_complete hcomplete] at hfalse
  exact absurd hfalse (by decide)

/-- A form with a version is published, and encrypted in the first minute. -/
def publishAndEncrypt : Except KmsError (KmsDatabase Unit × KmsDatabase Unit) := do
  let db ← publishXmlForm smallSettings xmlLibrary (publicationAt firstMinute) formlessDatabase
    (smallLibrary.toXml { version := "1" }) "visits.xml" (.inl (.organization 7))
  let encrypted ← encryptXform smallSettings smallLibrary firstMinute db 1 none false
  return (db, encrypted)

/-- Both definitions are kept. -/
theorem completeHistory_run_encrypted :
    ∃ db', Run (Guarded (DefinitionStep smallSettings xmlLibrary) HistoryKept) formlessDatabase
      [.publishXml (publicationAt firstMinute) (smallLibrary.toXml { version := "1" })
        "visits.xml" (.inl (.organization 7)), .encrypt firstMinute 1 none false] db' := by
  have hversions : publishAndEncrypt.map (fun dbs => dbs.1.versionsOf 1) = .ok ["1"] := by
    decide +kernel
  obtain ⟨⟨db, encrypted⟩, hrun, hold⟩ := map_eq_ok.mp hversions
  obtain ⟨mid, hpublish, hrun⟩ := bind_eq_ok.mp hrun
  obtain ⟨encrypted', hencrypt, hrun⟩ := bind_eq_ok.mp hrun
  have heq := pure_eq_ok.mp hrun
  rw [Prod.mk.injEq] at heq
  obtain ⟨rfl, rfl⟩ := heq
  refine ⟨encrypted', completeHistory_run noForms_formlessDatabase.versionRows
    noForms_formlessDatabase.completeHistory (.cons ⟨hpublish, ?_⟩
      (.cons ⟨hencrypt, ?_⟩ (.nil _)))⟩
  · intro pk version hgiven
    cases hgiven.1
  · intro pk version hgiven
    obtain ⟨rfl, rfl, -⟩ := hgiven
    rw [hold]
    decide +kernel

end Onadata
