import Onadata.Lib.ExceptList
import Onadata.Libs.Kms.Tools

/-!
# `Onadata.Proofs.Libs.Kms.Operations`: what the operations on managed keys do

One lemma for each operation: what a call that returns leaves of the forms, the keys and the
links. `rotateKey_spec` has the loop over the forms of the key (`rotateForms_spec`): each of them
is encrypted with the new key at the minute of its turn, and the others stay as they are.
-/

set_option autoImplicit false

namespace Onadata.Proofs

open Onadata Onadata.Lib

section
variable {Xls Survey : Type} {cfg : SaveSettings} {lib : FormLibrary Xls Survey}

/-! ### A form -/

/-- The fields that tell the key of a form are the same. -/
structure SameKeyFields (xform xform' : EncryptedForm Xls) : Prop where
  version : xform'.version = xform.version
  publicKey : xform'.publicKey = xform.publicKey
  isManaged : xform'.isManaged = xform.isManaged
  deletedAt : xform'.deletedAt = xform.deletedAt

theorem SameKeyFields.refl (xform : EncryptedForm Xls) : SameKeyFields xform xform :=
  ⟨rfl, rfl, rfl, rfl⟩

theorem SameKeyFields.trans {xform mid xform' : EncryptedForm Xls}
    (h : SameKeyFields xform mid) (h' : SameKeyFields mid xform') :
    SameKeyFields xform xform' :=
  ⟨h'.version.trans h.version, h'.publicKey.trans h.publicKey, h'.isManaged.trans h.isManaged,
    h'.deletedAt.trans h.deletedAt⟩

/-- The title of a form does not tell its key. -/
theorem setTitle_sameKeyFields {xform xform' : EncryptedForm Xls}
    (h : xform.setTitle lib = .ok xform') : SameKeyFields xform xform' := by
  unfold EncryptedForm.setTitle at h
  split at h
  · dsimp only at h
    obtain ⟨-, -, h⟩ := bind_eq_ok.mp h
    obtain ⟨-, -, h⟩ := bind_eq_ok.mp h
    obtain rfl := pure_eq_ok.mp h
    split <;> exact ⟨rfl, rfl, rfl, rfl⟩
  · cases h

/-- Whether the survey has a public key does not tell the key of a form. -/
theorem setEncryptedField_sameKeyFields (survey : Survey) (xform : EncryptedForm Xls) :
    SameKeyFields xform (xform.setEncryptedField lib survey) := by
  unfold EncryptedForm.setEncryptedField
  split <;> exact ⟨rfl, rfl, rfl, rfl⟩

/-- The public key is put into the XML. -/
theorem setPublicKeyField_sameKeyFields {survey : Survey} {xform xform' : EncryptedForm Xls}
    (h : xform.setPublicKeyField lib survey = .ok xform') : SameKeyFields xform xform' := by
  unfold EncryptedForm.setPublicKeyField at h
  split at h
  · cases h
    exact .refl _
  · rename_i publicKey _
    split at h
    · cases h
      exact .refl _
    · obtain ⟨⟨survey', workbookJson⟩, -, h⟩ := bind_eq_ok.mp h
      obtain rfl := pure_eq_ok.mp h
      have hfields := @setEncryptedField_sameKeyFields Xls Survey lib
        (lib.setPublicKey survey' (some publicKey)) { xform with
          json := Dict.insert workbookJson "public_key" (.str publicKey)
          xml := lib.toXml (lib.setPublicKey survey' (some publicKey)) }
      exact ⟨hfields.version, hfields.publicKey, hfields.isManaged, hfields.deletedAt⟩

/-- A save does not change the key of a form. -/
theorem save_sameKeyFields {survey : Survey} {xform xform' : EncryptedForm Xls}
    (h : xform.save cfg lib survey = .ok xform') : SameKeyFields xform xform' := by
  unfold EncryptedForm.save at h
  obtain ⟨titled, htitle, h⟩ := bind_eq_ok.mp h
  have hfields := @setEncryptedField_sameKeyFields Xls Survey lib survey titled
  dsimp only at h
  split at h
  all_goals
    obtain ⟨idString, -, h⟩ := bind_eq_ok.mp h
    obtain ⟨-, -, h⟩ := bind_eq_ok.mp h
    obtain ⟨-, -, h⟩ := bind_eq_ok.mp h
    obtain ⟨keyed, hkeyed, h⟩ := bind_eq_ok.mp h
    obtain ⟨-, -, h⟩ := bind_eq_ok.mp h
    obtain ⟨-, -, h⟩ := bind_eq_ok.mp h
    obtain rfl := pure_eq_ok.mp h
    have hids := setPublicKeyField_sameKeyFields hkeyed
    have hkeys : SameKeyFields (titled.setEncryptedField lib survey) keyed :=
      ⟨hids.version, hids.publicKey, hids.isManaged, hids.deletedAt⟩
    exact (setTitle_sameKeyFields htitle).trans (hfields.trans hkeys)

/-- The operations on the other rows leave the forms and the keys. -/
theorem createXFormVersion_rows (db : KmsDatabase Xls) (row : XFormVersion Xls) :
    (db.createXFormVersion row).organizations = db.organizations ∧
      (db.createXFormVersion row).xforms = db.xforms ∧
      (db.createXFormVersion row).kmsKeys = db.kmsKeys ∧
      (db.createXFormVersion row).xformKeys = db.xformKeys := by
  unfold KmsDatabase.createXFormVersion
  split <;> exact ⟨rfl, rfl, rfl, rfl⟩

/-- The form has the key and the version. -/
structure KeyedForm (xform : EncryptedForm Xls) (version publicKey : String) : Prop where
  version : xform.version = some version
  publicKey : xform.publicKey = some publicKey
  isManaged : xform.isManaged = true

/-- What `_encrypt_xform` leaves: the form is managed with the key and the version, and there is
a link for them, which is new. -/
structure EncryptedWith (now : DateTime) (db : KmsDatabase Xls) (pk : Nat)
    (xform : EncryptedForm Xls) (kmsKey : Nat × KMSKey) (encryptedBy : Option String)
    (db' : KmsDatabase Xls) : Prop where
  form : ∃ xform', db'.xforms = db.xforms.save pk xform' ∧
    KeyedForm xform' (versionAt now) kmsKey.2.publicKey ∧ xform'.deletedAt = xform.deletedAt
  xformKeys : db'.xformKeys = db.xformKeys ++
    [⟨pk, kmsKey.1, versionAt now, encryptedBy⟩]
  kmsKeys : db'.kmsKeys = db.kmsKeys
  organizations : db'.organizations = db.organizations

/-- `_encrypt_xform`. -/
theorem encryptXformWith_spec {now : DateTime} {db db' : KmsDatabase Xls} {pk : Nat}
    {xform : EncryptedForm Xls} {kmsKey : Nat × KMSKey} {encryptedBy : Option String}
    (h : encryptXformWith cfg lib now db pk xform kmsKey encryptedBy = .ok db') :
    EncryptedWith now db pk xform kmsKey encryptedBy db' := by
  unfold encryptXformWith at h
  obtain ⟨⟨survey, workbookJson⟩, -, h⟩ := bind_eq_ok.mp h
  obtain ⟨saved, hsaved, h⟩ := bind_eq_ok.mp h
  obtain ⟨linked, hlinked, h⟩ := bind_eq_ok.mp h
  obtain rfl := pure_eq_ok.mp h
  unfold KmsDatabase.createXFormKey at hlinked
  obtain ⟨-, -, hlinked⟩ := bind_eq_ok.mp hlinked
  obtain rfl := pure_eq_ok.mp hlinked
  obtain ⟨horganizations, hxforms, hkmsKeys, hxformKeys⟩ := createXFormVersion_rows
    { db with
      xforms := db.xforms.save pk saved
      xformKeys := db.xformKeys ++ [⟨pk, kmsKey.1, versionAt now, encryptedBy⟩] }
    ⟨pk, saved.xls, saved.json, saved.version, encryptedBy, saved.xml⟩
  have hfields := save_sameKeyFields hsaved
  exact {
    form := ⟨saved, hxforms, ⟨hfields.version, hfields.publicKey, hfields.isManaged⟩,
      hfields.deletedAt⟩
    xformKeys := hxformKeys
    kmsKeys := hkmsKeys
    organizations := horganizations }

/-- `encrypt_xform` leaves an encrypted form, unless that is overridden, and encrypts others with
a key of the database. -/
theorem encryptXform_cases {now : DateTime} {db db' : KmsDatabase Xls} {pk : Nat}
    {encryptedBy : Option String} {overrideEncryption : Bool}
    (h : encryptXform cfg lib now db pk encryptedBy overrideEncryption = .ok db') :
    ∃ xform, db.xforms.get? pk = some xform ∧
      ((xform.encrypted = true ∧ overrideEncryption = false ∧ db' = db) ∨
        ((xform.encrypted = false ∨ overrideEncryption = true) ∧
          ∃ kmsKey, db.kmsKeys.get? kmsKey.1 = some kmsKey.2 ∧
            encryptXformWith cfg lib now db pk xform kmsKey encryptedBy = .ok db')) := by
  unfold encryptXform at h
  cases hget : db.xforms.get? pk with
  | none =>
      rw [hget] at h
      cases h
  | some xform =>
      rw [hget] at h
      dsimp only at h
      refine ⟨xform, rfl, ?_⟩
      split at h
      · rename_i hleft
        obtain rfl := pure_eq_ok.mp h
        exact Or.inl ⟨hleft.1, by simpa using hleft.2, rfl⟩
      · rename_i hleft
        obtain ⟨-, -, h⟩ := bind_eq_ok.mp h
        have hencrypted : xform.encrypted = false ∨ overrideEncryption = true := by
          cases hxform : xform.encrypted with
          | false => exact Or.inl rfl
          | true => exact Or.inr (by simpa [hxform] using hleft)
        split at h
        · cases h
        · cases h
        · rename_i org _
          cases hactive : db.activeKey org with
          | none =>
              rw [hactive] at h
              cases h
          | some kmsKey =>
              rw [hactive] at h
              have hmem : kmsKey ∈ db.kmsKeys.rows := List.mem_of_find?_eq_some hactive
              exact Or.inr ⟨hencrypted, kmsKey, Table.get?_eq_some.mpr hmem, h⟩

/-- What `encrypt_xform` leaves. -/
theorem encryptXform_spec {now : DateTime} {db db' : KmsDatabase Xls} {pk : Nat}
    {encryptedBy : Option String} {overrideEncryption : Bool}
    (h : encryptXform cfg lib now db pk encryptedBy overrideEncryption = .ok db') :
    ∃ xform, db.xforms.get? pk = some xform ∧
      ((xform.encrypted = true ∧ overrideEncryption = false ∧ db' = db) ∨
        ((xform.encrypted = false ∨ overrideEncryption = true) ∧
          ∃ kmsKey, db.kmsKeys.get? kmsKey.1 = some kmsKey.2 ∧
            EncryptedWith now db pk xform kmsKey encryptedBy db')) := by
  obtain ⟨xform, hget, hcases⟩ := encryptXform_cases h
  refine ⟨xform, hget, hcases.imp id fun hencrypts => ?_⟩
  obtain ⟨hencrypted, kmsKey, hkmsKey, hwith⟩ := hencrypts
  exact ⟨hencrypted, kmsKey, hkmsKey, encryptXformWith_spec hwith⟩

/-- `disable_xform_encryption` leaves a form that is not encrypted. Another one has the minute as
its version and is unmanaged, and a row is made for the version. -/
theorem disableXformEncryption_cases {now : DateTime} {db db' : KmsDatabase Xls} {pk : Nat}
    {disabledBy : Option String}
    (h : disableXformEncryption cfg lib now db pk disabledBy = .ok db') :
    ∃ xform, db.xforms.get? pk = some xform ∧
      ((xform.encrypted = false ∧ db' = db) ∨
        (xform.encrypted = true ∧ ∃ saved : EncryptedForm Xls,
          saved.version = some (versionAt now) ∧ saved.isManaged = false ∧
            db' = { db with xforms := db.xforms.save pk saved }.createXFormVersion {
              xform := pk
              xls := saved.xls
              json := saved.json
              version := saved.version
              createdBy := disabledBy
              xml := saved.xml })) := by
  unfold disableXformEncryption at h
  cases hget : db.xforms.get? pk with
  | none =>
      rw [hget] at h
      cases h
  | some xform =>
      rw [hget] at h
      dsimp only at h
      refine ⟨xform, rfl, ?_⟩
      cases hencrypted : xform.encrypted with
      | false =>
          rw [hencrypted] at h
          exact Or.inl ⟨rfl, (pure_eq_ok.mp h).symm⟩
      | true =>
          rw [hencrypted] at h
          obtain ⟨-, -, h⟩ := bind_eq_ok.mp h
          obtain ⟨-, -, h⟩ := bind_eq_ok.mp h
          obtain ⟨⟨survey, workbookJson⟩, -, h⟩ := bind_eq_ok.mp h
          obtain ⟨saved, hsaved, h⟩ := bind_eq_ok.mp h
          have hfields := save_sameKeyFields hsaved
          exact Or.inr ⟨rfl, saved, hfields.version, hfields.isManaged, (pure_eq_ok.mp h).symm⟩

/-- What `disable_xform_encryption` leaves. -/
theorem disableXformEncryption_spec {now : DateTime} {db db' : KmsDatabase Xls} {pk : Nat}
    {disabledBy : Option String}
    (h : disableXformEncryption cfg lib now db pk disabledBy = .ok db') :
    db' = db ∨ ∃ xform xform', db.xforms.get? pk = some xform ∧ xform'.isManaged = false ∧
      db'.xforms = db.xforms.save pk xform' ∧ db'.xformKeys = db.xformKeys ∧
      db'.kmsKeys = db.kmsKeys := by
  obtain ⟨xform, hget, hcases⟩ := disableXformEncryption_cases h
  cases hcases with
  | inl hsame => exact Or.inl hsame.2
  | inr hdisabled =>
      obtain ⟨-, saved, -, hunmanaged, rfl⟩ := hdisabled
      obtain ⟨-, hxforms, hkmsKeys, hxformKeys⟩ := createXFormVersion_rows
        { db with xforms := db.xforms.save pk saved }
        ⟨pk, saved.xls, saved.json, saved.version, disabledBy, saved.xml⟩
      exact Or.inr ⟨xform, saved, hget, hunmanaged, hxforms, hxformKeys, hkmsKeys⟩

/-! ### A key -/

/-- `create_key` adds a key with the public key of the service. -/
theorem createKey_spec {settings : KmsSettings} {client : KmsClient} {now : DateTime}
    {db db' : KmsDatabase Xls} {org : Nat} {createdBy : Option String} {newKey : Nat × KMSKey}
    (h : createKey settings client now db org createdBy = .ok (db', newKey)) :
    db' = { db with kmsKeys := db.kmsKeys.create newKey.2 } ∧ newKey.1 = db.kmsKeys.nextPk ∧
      ∃ keyId publicKey, client.getPublicKey keyId = .ok publicKey ∧
        newKey.2.publicKey = cleanPublicKey publicKey := by
  unfold createKey at h
  obtain ⟨username, -, h⟩ := bind_eq_ok.mp h
  obtain ⟨keyId, -, h⟩ := bind_eq_ok.mp h
  obtain ⟨publicKey, hpublicKey, h⟩ := bind_eq_ok.mp h
  have hget : client.getPublicKey keyId = .ok publicKey := by
    cases hresult : client.getPublicKey keyId with
    | error message =>
        rw [hresult] at hpublicKey
        cases hpublicKey
    | ok found =>
        rw [hresult] at hpublicKey
        exact congrArg _ (Except.ok.inj hpublicKey)
  dsimp only at h
  obtain ⟨-, -, h⟩ := bind_eq_ok.mp h
  obtain ⟨expiryDate, -, h⟩ := bind_eq_ok.mp h
  obtain ⟨provider, -, h⟩ := bind_eq_ok.mp h
  obtain ⟨-, -, h⟩ := bind_eq_ok.mp h
  have heq := pure_eq_ok.mp h
  rw [Prod.mk.injEq] at heq
  obtain ⟨rfl, rfl⟩ := heq
  refine ⟨rfl, rfl, keyId, publicKey, hget, ?_⟩
  dsimp only

/-! ### The forms of a key -/

/-- What the loop over forms leaves: each of them is managed with the key and the version of its
minute, and has a link for them; the others stay as they are. -/
structure RotatedForms (encrypted : Nat → DateTime) (db : KmsDatabase Xls)
    (items : List (Nat × EncryptedForm Xls)) (kmsKey : Nat × KMSKey) (encryptedBy : Option String)
    (db' : KmsDatabase Xls) : Prop where
  others : ∀ pk, pk ∉ Dict.keys items → db'.xforms.get? pk = db.xforms.get? pk
  forms : ∀ item ∈ items, ∃ xform', db'.xforms.get? item.1 = some xform' ∧
    KeyedForm xform' (versionAt (encrypted item.1)) kmsKey.2.publicKey ∧
    xform'.deletedAt = item.2.deletedAt
  xformKeys : db'.xformKeys = db.xformKeys ++ items.map fun item =>
    ⟨item.1, kmsKey.1, versionAt (encrypted item.1), encryptedBy⟩

/-- The loop over forms that are there. -/
theorem rotateForms_spec {encrypted : Nat → DateTime} {kmsKey : Nat × KMSKey}
    {encryptedBy : Option String} {items : List (Nat × EncryptedForm Xls)}
    (hnodup : (Dict.keys items).Nodup) :
    ∀ {db db' : KmsDatabase Xls}, (∀ item ∈ items, db.xforms.get? item.1 = some item.2) →
      items.foldlM (fun db item =>
        encryptXformWith cfg lib (encrypted item.1) db item.1 item.2 kmsKey encryptedBy) db =
          .ok db' → RotatedForms encrypted db items kmsKey encryptedBy db' ∧
            db'.kmsKeys = db.kmsKeys := by
  induction items with
  | nil =>
      intro db db' _ h
      obtain rfl := pure_eq_ok.mp h
      refine ⟨{
        others := fun pk _ => rfl
        forms := fun item h => absurd h List.not_mem_nil
        xformKeys := (List.append_nil _).symm }, rfl⟩
  | cons first items ih =>
      intro db db' hitems h
      rw [Dict.keys_cons, List.nodup_cons] at hnodup
      rw [List.forall_mem_cons] at hitems
      rw [List.foldlM_cons] at h
      obtain ⟨mid, hfirst, h⟩ := bind_eq_ok.mp h
      have hmid := encryptXformWith_spec hfirst
      obtain ⟨saved, hxforms, hkeyed, hdeleted⟩ := hmid.form
      have hget : ∀ pk, mid.xforms.get? pk =
          if pk = first.1 then some saved else db.xforms.get? pk := by
        rw [hxforms]
        exact Table.get?_save _ hitems.1 saved
      obtain ⟨hrest, hkmsKeys⟩ := ih hnodup.2 (fun item hitem => by
        have hne : item.1 ≠ first.1 := fun heq => hnodup.1 (heq ▸ List.mem_map_of_mem hitem)
        rw [hget, if_neg hne]
        exact hitems.2 item hitem) h
      refine ⟨{
        others := fun pk hpk => ?_
        forms := fun item hitem => ?_
        xformKeys := ?_ }, hkmsKeys.trans hmid.kmsKeys⟩
      · rw [Dict.keys_cons, List.mem_cons, not_or] at hpk
        rw [hrest.others pk hpk.2, hget, if_neg hpk.1]
      · rcases List.mem_cons.mp hitem with rfl | hitem
        · refine ⟨saved, ?_, hkeyed, hdeleted⟩
          rw [hrest.others _ hnodup.1, hget, if_pos rfl]
        · exact hrest.forms item hitem
      · rw [hrest.xformKeys, hmid.xformKeys, List.append_assoc]
        rfl

/-- What `rotate_key` leaves, with the forms that a link has ever tied to the key. -/
structure RotatedKey (client : KmsClient) (encrypted : Nat → DateTime) (db : KmsDatabase Xls)
    (pk : Nat) (newKey : Nat × KMSKey) (rotatedBy : Option String) (db' : KmsDatabase Xls) :
    Prop where
  forms : RotatedForms encrypted db (db.formsOfKey pk) newKey rotatedBy db'
  created : db'.kmsKeys.get? newKey.1 = some newKey.2
  oldKeys : ∀ old kmsKey, db.kmsKeys.get? old = some kmsKey →
    ∃ kmsKey', db'.kmsKeys.get? old = some kmsKey' ∧ kmsKey'.publicKey = kmsKey.publicKey
  publicKey : ∃ keyId publicKey, client.getPublicKey keyId = .ok publicKey ∧
    newKey.2.publicKey = cleanPublicKey publicKey

/-- A rotation creates a key, encrypts the forms of the old one, and saves the old one with other
dates. -/
theorem rotateKey_cases {settings : KmsSettings} {client : KmsClient} {clock : RotationClock}
    {db db' : KmsDatabase Xls} {pk : Nat} {rotatedBy rotationReason : Option String}
    {newKey : Nat × KMSKey}
    (h : rotateKey cfg lib settings client clock db pk rotatedBy rotationReason =
      .ok (db', newKey)) :
    ∃ kmsKey rotated created encrypted, db.kmsKeys.get? pk = some kmsKey ∧
      createKey settings client clock.created db kmsKey.objectId rotatedBy =
        .ok (created, newKey) ∧
      (db.formsOfKey pk).foldlM (fun db item =>
        encryptXformWith cfg lib (clock.encrypted item.1) db item.1 item.2 newKey rotatedBy)
          created = .ok encrypted ∧
      db' = { encrypted with kmsKeys := encrypted.kmsKeys.save pk rotated } ∧
      rotated.publicKey = kmsKey.publicKey := by
  unfold rotateKey at h
  cases hget : db.kmsKeys.get? pk with
  | none =>
      rw [hget] at h
      cases h
  | some kmsKey =>
      rw [hget] at h
      dsimp only at h
      obtain ⟨-, -, h⟩ := bind_eq_ok.mp h
      obtain ⟨-, -, h⟩ := bind_eq_ok.mp h
      obtain ⟨⟨created, newKey'⟩, hcreated, h⟩ := bind_eq_ok.mp h
      obtain ⟨encrypted, hforms, h⟩ := bind_eq_ok.mp h
      obtain ⟨expiryDate, -, h⟩ := bind_eq_ok.mp h
      obtain ⟨graceEndDate, -, h⟩ := bind_eq_ok.mp h
      have heq := pure_eq_ok.mp h
      rw [Prod.mk.injEq] at heq
      obtain ⟨rfl, rfl⟩ := heq
      have hsame : created.formsOfKey pk = db.formsOfKey pk := by
        rw [(createKey_spec hcreated).1]
        rfl
      rw [hsame] at hforms
      exact ⟨kmsKey, _, created, encrypted, rfl, hcreated, hforms, rfl, rfl⟩

/-- What `rotate_key` leaves. -/
theorem rotateKey_spec {settings : KmsSettings} {client : KmsClient} {clock : RotationClock}
    {db db' : KmsDatabase Xls} {pk : Nat} {rotatedBy rotationReason : Option String}
    {newKey : Nat × KMSKey}
    (h : rotateKey cfg lib settings client clock db pk rotatedBy rotationReason =
      .ok (db', newKey)) :
    RotatedKey client clock.encrypted db pk newKey rotatedBy db' := by
  obtain ⟨kmsKey, rotated, created, encrypted, hget, hcreated, hforms, rfl, hrotatedKey⟩ :=
    rotateKey_cases h
  obtain ⟨hdb, hpk, hpublicKey⟩ := createKey_spec hcreated
  have hxforms : created.xforms = db.xforms := by rw [hdb]
  have hxformKeys : created.xformKeys = db.xformKeys := by rw [hdb]
  have hkmsKeys : created.kmsKeys = db.kmsKeys.create newKey.2 := by rw [hdb]
  have hitems : ∀ item ∈ db.formsOfKey pk, created.xforms.get? item.1 = some item.2 := by
    intro item hitem
    rw [hxforms]
    exact Table.get?_eq_some.mpr (List.mem_filter.mp hitem).1
  have hnodup : (Dict.keys (db.formsOfKey pk)).Nodup :=
    db.xforms.nodup.sublist (List.filter_sublist.map _)
  obtain ⟨hrotated, hkeys⟩ := rotateForms_spec hnodup hitems hforms
  have hmem : pk ∈ Dict.keys db.kmsKeys.rows :=
    List.mem_map_of_mem (Table.get?_eq_some.mp hget)
  have hne : newKey.1 ≠ pk := fun heq =>
    Nat.lt_irrefl _ (heq ▸ hpk ▸ db.kmsKeys.pk_lt pk hmem)
  -- The new key is there beside the old ones, and the old key is saved with other dates.
  have hold : encrypted.kmsKeys.get? pk = some kmsKey := by
    rw [hkeys, hkmsKeys, Table.get?_create, if_neg (hpk ▸ hne.symm)]
    exact hget
  exact {
    forms := {
      others := fun other hother => by rw [hrotated.others other hother, hxforms]
      forms := hrotated.forms
      xformKeys := by rw [hrotated.xformKeys, hxformKeys] }
    created := by
      rw [Table.get?_save _ hold, if_neg hne, hkeys, hkmsKeys, Table.get?_create, if_pos hpk]
    oldKeys := fun old oldKey hold' => by
      rw [Table.get?_save _ hold]
      by_cases heq : old = pk
      · subst heq
        rw [if_pos rfl]
        obtain rfl := Option.some_inj.mp (hget.symm.trans hold')
        exact ⟨rotated, rfl, hrotatedKey⟩
      · have hlt : old ≠ db.kmsKeys.nextPk := fun heq => Nat.lt_irrefl _
          (heq ▸ db.kmsKeys.pk_lt old (List.mem_map_of_mem (Table.get?_eq_some.mp hold')))
        rw [if_neg heq, hkeys, hkmsKeys, Table.get?_create, if_neg hlt]
        exact ⟨oldKey, hold', rfl⟩
    publicKey := hpublicKey }

end

end Onadata.Proofs
