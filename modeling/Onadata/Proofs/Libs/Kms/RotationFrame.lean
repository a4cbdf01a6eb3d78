import Onadata.Proofs.Libs.Kms.Operations

/-!
# `Onadata.Proofs.Libs.Kms.RotationFrame`: the forms that a rotation touches

`rotate_key` encrypts all the forms that a link has ever tied to the key, and a link is never
deleted. `rotateKey_touches_iff` states when it touches no form but those that are on the key:
when the current version of each of these forms is still mapped to it.
-/

set_option autoImplicit false

namespace Onadata.Proofs

open Onadata Onadata.Lib

section
variable {Xls Survey : Type}

/-- The current version of the form is mapped to the key. -/
def OnKey (db : KmsDatabase Xls) (kmsKey pk : Nat) (xform : EncryptedForm Xls) : Prop :=
  db.hasKey pk xform.version (some kmsKey) = true

/-- The form is encrypted as it was. -/
structure SameEncryption (xform xform' : EncryptedForm Xls) : Prop where
  encrypted : xform'.encrypted = xform.encrypted
  isManaged : xform'.isManaged = xform.isManaged
  publicKey : xform'.publicKey = xform.publicKey
  json : xform'.json = xform.json
  xml : xform'.xml = xform.xml
  version : xform'.version = xform.version

/-- The forms that are not on the key are encrypted as they were. -/
def OthersKept (db : KmsDatabase Xls) (kmsKey : Nat) (db' : KmsDatabase Xls) : Prop :=
  ∀ pk xform, db.xforms.get? pk = some xform → ¬ OnKey db kmsKey pk xform →
    ∃ xform', db'.xforms.get? pk = some xform' ∧ SameEncryption xform xform'

/-- The live managed forms that were on the key are on the new one. -/
def LiveFormsMoved (db : KmsDatabase Xls) (kmsKey newKey : Nat) (db' : KmsDatabase Xls) : Prop :=
  ∀ pk xform, db.xforms.get? pk = some xform → xform.deletedAt = none →
    xform.isManaged = true → OnKey db kmsKey pk xform →
      ∃ xform', db'.xforms.get? pk = some xform' ∧ OnKey db' newKey pk xform'

/-- The service makes no public key that a form has already. -/
def FreshKeys (client : KmsClient) (db : KmsDatabase Xls) : Prop :=
  ∀ keyId publicKey, client.getPublicKey keyId = .ok publicKey →
    ∀ pk xform, db.xforms.get? pk = some xform →
      xform.publicKey ≠ some (cleanPublicKey publicKey)

/-- A form on a key has a link to it. -/
theorem mem_formsOfKey_of_onKey {db : KmsDatabase Xls} {kmsKey pk : Nat}
    {xform : EncryptedForm Xls} (hget : db.xforms.get? pk = some xform)
    (h : OnKey db kmsKey pk xform) : (pk, xform) ∈ db.formsOfKey kmsKey := by
  unfold OnKey KmsDatabase.hasKey at h
  obtain ⟨link, hlink, hmatch⟩ := List.any_eq_true.mp h
  refine List.mem_filter.mpr ⟨Table.get?_eq_some.mp hget, List.any_eq_true.mpr ⟨link, hlink, ?_⟩⟩
  simp only [Option.all_some, Bool.and_eq_true, decide_eq_true_eq] at hmatch ⊢
  exact ⟨hmatch.2, hmatch.1.1⟩

variable {client : KmsClient} {encrypted : Nat → DateTime} {db db' : KmsDatabase Xls} {pk : Nat}
  {newKey : Nat × KMSKey} {rotatedBy : Option String}

/-- A form that is encrypted with the new key is on it. -/
theorem onKey_of_rotated (h : RotatedKey client encrypted db pk newKey rotatedBy db')
    {item : Nat × EncryptedForm Xls} (hitem : item ∈ db.formsOfKey pk) :
    ∃ xform', db'.xforms.get? item.1 = some xform' ∧ OnKey db' newKey.1 item.1 xform' := by
  obtain ⟨xform', hget, hkeyed, -⟩ := h.forms.forms item hitem
  refine ⟨xform', hget, ?_⟩
  unfold OnKey KmsDatabase.hasKey
  rw [h.forms.xformKeys, hkeyed.version]
  refine List.any_eq_true.mpr ⟨_, List.mem_append_right _ (List.mem_map_of_mem hitem), ?_⟩
  simp

/-- The live forms are moved by every rotation. -/
theorem liveFormsMoved_of_rotated (h : RotatedKey client encrypted db pk newKey rotatedBy db') :
    LiveFormsMoved db pk newKey.1 db' := by
  intro form xform hget _ _ honKey
  exact onKey_of_rotated h (mem_formsOfKey_of_onKey hget honKey)

/-- The forms that are not on the key are kept when all the forms with a link to it are on it. -/
theorem othersKept_iff (hfresh : FreshKeys client db)
    (h : RotatedKey client encrypted db pk newKey rotatedBy db') :
    OthersKept db pk db' ↔ ∀ item ∈ db.formsOfKey pk, OnKey db pk item.1 item.2 := by
  constructor
  · intro hkept item hitem
    by_contra hnot
    have hget : db.xforms.get? item.1 = some item.2 :=
      Table.get?_eq_some.mpr (List.mem_filter.mp hitem).1
    obtain ⟨xform', hget', hsame⟩ := hkept item.1 item.2 hget hnot
    obtain ⟨xform'', hget'', hkeyed, -⟩ := h.forms.forms item hitem
    obtain rfl := Option.some_inj.mp (hget'.symm.trans hget'')
    -- The form has the new public key, which it had not before.
    obtain ⟨keyId, publicKey, hpublicKey, hnew⟩ := h.publicKey
    refine hfresh keyId publicKey hpublicKey item.1 item.2 hget ?_
    rw [← hsame.publicKey, hkeyed.publicKey, hnew]
  · intro hall form xform hget hnot
    have hother : form ∉ Dict.keys (db.formsOfKey pk) := by
      intro hmem
      obtain ⟨item, hitem, rfl⟩ := List.mem_map.mp hmem
      have hget' : db.xforms.get? item.1 = some item.2 :=
        Table.get?_eq_some.mpr (List.mem_filter.mp hitem).1
      obtain rfl := Option.some_inj.mp (hget.symm.trans hget')
      exact hnot (hall item hitem)
    refine ⟨xform, ?_, rfl, rfl, rfl, rfl, rfl, rfl⟩
    rw [h.forms.others form hother]
    exact hget

variable {cfg : SaveSettings} {lib : FormLibrary Xls Survey} {settings : KmsSettings}
  {clock : RotationClock} {rotationReason : Option String}

/-- A rotation touches only the forms on the key, and moves the live ones to the new key, exactly
when each form that was ever encrypted with the key is still on it. -/
theorem rotateKey_touches_iff (hfresh : FreshKeys client db)
    (h : rotateKey cfg lib settings client clock db pk rotatedBy rotationReason =
      .ok (db', newKey)) :
    OthersKept db pk db' ∧ LiveFormsMoved db pk newKey.1 db' ↔
      ∀ item ∈ db.formsOfKey pk, OnKey db pk item.1 item.2 := by
  have hrotated := rotateKey_spec h
  rw [and_iff_left (liveFormsMoved_of_rotated hrotated)]
  exact othersKept_iff hfresh hrotated

end

/-! ### A form whose encryption is disabled -/

/-- A survey of pyxform, as far as the operations set it. -/
structure SmallSurvey where
  publicKey : Option String := none
  version : String := ""

/-- The library on a form without an XLSForm. -/
def smallLibrary : FormLibrary Unit SmallSurvey where
  workbookToJson := fun _ _ => .error "No worksheet"
  createSurvey := fun _ => .ok {}
  createTupleSurvey := fun _ => .ok {}
  setPublicKey := fun survey publicKey => { survey with publicKey := publicKey }
  setVersion := fun survey version => { survey with version := version }
  toXml := fun survey => "<h:html><h:head><h:title>Visits</h:title><model><instance>" ++
    "<data id=\"visits\" version=\"" ++ survey.version ++ "\"/></instance></model></h:head></h:html>"
  hasPublicKey := fun survey => survey.publicKey.isSome
  smsKeyword := fun _ => none
  idStrings := fun _ => ["visits"]
  titles := fun _ => ["Visits"]
  setTitle := fun xml _ => xml
  hasUrl := fun _ => false
  md5 := fun _ => "d41d8cd98f00b204e9800998ecf8427e"

/-- The settings of a save that checks no slug. -/
def smallSettings : SaveSettings where
  strict := false
  isWord := Char.isAlphanum
  isWord_alphanum := fun _ h => h

/-- The service gives the second key. -/
def smallClient : KmsClient where
  provider := some .aws
  createKey := fun _ => .ok "key-2"
  getPublicKey := fun _ => .ok "MIIBIjANBgkq2"
  createAlias := fun _ _ => .ok ()

/-- A form of an organization, and the key of the organization. -/
def smallDatabase : KmsDatabase Unit where
  organizations := [(7, "ministry")]
  xforms := ({} : Table (EncryptedForm Unit)).create {
    idString := "visits", smsIdString := "visits", title := "Visits"
    json := [("name", .str "visits"), ("id_string", .str "visits")]
    xml := smallLibrary.toXml {}, version := some "1", owner := .organization 7 }
  kmsKeys := ({} : Table KMSKey).create {
    keyId := "key-1", description := "Key-2024-01-01", publicKey := "MIIBIjANBgkq1"
    provider := .aws, expiryDate := some { microseconds := 1893456000000000 }, objectId := 7 }

/-- Midnight of 2024-02-01, some minutes later. -/
def laterMinute (minutes : Nat) (h : minutes < 60 := by decide) : DateTime where
  microseconds := 1706745600000000 + minutes * 60000000
  bounded := by omega

/-- The minute of the first operation. -/
def firstMinute : DateTime := laterMinute 0

/-- The form is encrypted, and its encryption is disabled a minute later. -/
def disabledRun : Except KmsError (KmsDatabase Unit) := do
  let db ← encryptXform smallSettings smallLibrary firstMinute smallDatabase 0 none false
  disableXformEncryption smallSettings smallLibrary (laterMinute 1) db 0 none

/-- The next minute in all of `rotate_key`. -/
def smallClock : RotationClock :=
  ⟨laterMinute 2, fun _ => laterMinute 2, laterMinute 2, laterMinute 2⟩

/-- What tells the key of a form, and whether the form is on the first key. -/
structure FormSummary where
  pk : Nat
  publicKey : Option String
  isManaged : Bool
  onFirstKey : Bool
  deriving DecidableEq

/-- The summary of a row. -/
def formSummary (db : KmsDatabase Unit) (item : Nat × EncryptedForm Unit) : FormSummary where
  pk := item.1
  publicKey := item.2.publicKey
  isManaged := item.2.isManaged
  onFirstKey := db.hasKey item.1 item.2.version (some 0)

/-- A run and the rotation of the first key behind it. -/
def summaryOfRotation (first : Except KmsError (KmsDatabase Unit)) :
    Except KmsError (List FormSummary × List FormSummary) := do
  let db ← first
  let rotated ← rotateKey smallSettings smallLibrary {} smallClient smallClock db 0 none none
  return (db.xforms.rows.map (formSummary db), rotated.1.xforms.rows.map (formSummary rotated.1))

/-- The databases before and after the rotation, when there is one form. -/
theorem exists_of_summary {first : Except KmsError (KmsDatabase Unit)}
    {summary summary' : FormSummary}
    (h : summaryOfRotation first = .ok ([summary], [summary'])) :
    ∃ db item db' newKey item', first = .ok db ∧
      rotateKey smallSettings smallLibrary {} smallClient smallClock db 0 none none =
        .ok (db', newKey) ∧
      db.xforms.rows = [item] ∧ db'.xforms.rows = [item'] ∧
      formSummary db item = summary ∧ formSummary db' item' = summary' := by
  unfold summaryOfRotation at h
  obtain ⟨db, hfirst, h⟩ := bind_eq_ok.mp h
  obtain ⟨⟨db', newKey⟩, hrotate, h⟩ := bind_eq_ok.mp h
  have heq := pure_eq_ok.mp h
  rw [Prod.mk.injEq] at heq
  obtain ⟨item, hrows, hsummary⟩ := List.map_eq_singleton_iff.mp heq.1
  obtain ⟨item', hrows', hsummary'⟩ := List.map_eq_singleton_iff.mp heq.2
  exact ⟨db, item, db', newKey, item', hfirst, hrotate, hrows, hrows', hsummary, hsummary'⟩

/-- A form is found when it is the only one. -/
theorem get?_of_rows {db : KmsDatabase Unit} {item : Nat × EncryptedForm Unit}
    (h : db.xforms.rows = [item]) : db.xforms.get? item.1 = some item.2 := by
  rw [Table.get?_eq_some, h]
  exact List.mem_singleton_self _

/-- The service makes a key that the only form has not. -/
theorem freshKeys_of_rows {db : KmsDatabase Unit} {item : Nat × EncryptedForm Unit}
    (h : db.xforms.rows = [item]) (hne : item.2.publicKey ≠ some "MIIBIjANBgkq2") :
    FreshKeys smallClient db := by
  intro keyId publicKey hpublicKey pk other hother
  rw [Table.get?_eq_some, h, List.mem_singleton] at hother
  obtain rfl := Except.ok.inj hpublicKey
  rw [← hother] at hne
  exact hne

/-- A rotation encrypts a form whose encryption was disabled. -/
theorem not_rotateKey_touches_disabled :
    ¬ ∀ (Xls Survey : Type) (cfg : SaveSettings) (lib : FormLibrary Xls Survey)
      (settings : KmsSettings) (client : KmsClient) (clock : RotationClock)
      (db db' : KmsDatabase Xls) (pk : Nat) (newKey : Nat × KMSKey)
      (rotatedBy rotationReason : Option String), FreshKeys client db →
      rotateKey cfg lib settings client clock db pk rotatedBy rotationReason =
        .ok (db', newKey) →
      OthersKept db pk db' ∧ LiveFormsMoved db pk newKey.1 db' := by
  intro h
  have hsummary : summaryOfRotation disabledRun =
      .ok ([⟨0, none, false, false⟩], [⟨0, some "MIIBIjANBgkq2", true, false⟩]) := by
    decide +kernel
  obtain ⟨db, item, db', newKey, item', -, hrotate, hrows, hrows', hitem, hitem'⟩ :=
    exists_of_summary hsummary
  have hpublicKey : item.2.publicKey = none := congrArg FormSummary.publicKey hitem
  have hfresh : FreshKeys smallClient db := by
    refine freshKeys_of_rows hrows ?_
    rw [hpublicKey]
    exact (Option.some_ne_none _).symm
  have honKey : ¬ OnKey db 0 item.1 item.2 := by
    intro honKey
    exact absurd (honKey.symm.trans (congrArg FormSummary.onFirstKey hitem)) (by decide)
  obtain ⟨hkept, -⟩ := h _ _ _ _ _ _ _ _ _ _ _ _ _ hfresh hrotate
  obtain ⟨xform', hget', hsame⟩ := hkept item.1 item.2 (get?_of_rows hrows) honKey
  have hpk : item.1 = item'.1 :=
    (congrArg FormSummary.pk hitem).trans (congrArg FormSummary.pk hitem').symm
  rw [hpk] at hget'
  obtain rfl := Option.some_inj.mp ((get?_of_rows hrows').symm.trans hget')
  have hmanaged : item.2.isManaged = false := congrArg FormSummary.isManaged hitem
  have hmanaged' : item'.2.isManaged = true := congrArg FormSummary.isManaged hitem'
  exact absurd (hmanaged'.symm.trans (hsame.isManaged.trans hmanaged)) (by decide)

/-- The form as it is encrypted. -/
def encryptedRun : Except KmsError (KmsDatabase Unit) :=
  encryptXform smallSettings smallLibrary firstMinute smallDatabase 0 none false

/-- A rotation while the form is on the key. -/
theorem rotateKey_touches_encrypted :
    ∃ db db' newKey, encryptedRun = .ok db ∧
      rotateKey smallSettings smallLibrary {} smallClient smallClock db 0 none none =
        .ok (db', newKey) ∧
      OthersKept db 0 db' ∧ LiveFormsMoved db 0 newKey.1 db' := by
  have hsummary : summaryOfRotation encryptedRun =
      .ok ([⟨0, some "MIIBIjANBgkq1", true, true⟩], [⟨0, some "MIIBIjANBgkq2", true, false⟩]) := by
    decide +kernel
  obtain ⟨db, item, db', newKey, item', hrun, hrotate, hrows, -, hitem, -⟩ :=
    exists_of_summary hsummary
  have hpublicKey : item.2.publicKey = some "MIIBIjANBgkq1" :=
    congrArg FormSummary.publicKey hitem
  refine ⟨db, db', newKey, hrun, hrotate, (rotateKey_touches_iff ?_ hrotate).mpr ?_⟩
  · refine freshKeys_of_rows hrows ?_
    rw [hpublicKey]
    decide
  · intro other hother
    have hmem : other ∈ db.xforms.rows := (List.mem_filter.mp hother).1
    rw [hrows, List.mem_singleton] at hmem
    rw [hmem]
    exact congrArg FormSummary.onFirstKey hitem

end Onadata.Proofs
