import Onadata.Lib.Run
import Onadata.Proofs.Libs.Kms.RotationFrame

/-!
# `Onadata.Proofs.Libs.Kms.VersionKeys`: the key of a version

`decrypt_instance` looks up the key of a submission by the form and its version. A version is the
minute of an encryption, and nothing keeps two encryptions of a form in one minute from different
keys apart. `version_identifies_key` states that each version has one key, the one that was
published in it, in the runs whose encryptions each find the minute unused for the form.
-/

set_option autoImplicit false

namespace Onadata.Proofs

open Onadata Onadata.Lib

/-- An operation, with its times and what the service does. -/
inductive KmsAction
  | encrypt (now : DateTime) (pk : Nat) (encryptedBy : Option String) (overrideEncryption : Bool)
  | rotate (settings : KmsSettings) (client : KmsClient) (clock : RotationClock) (pk : Nat)
      (rotatedBy rotationReason : Option String)
  | disable (now : DateTime) (pk : Nat) (disabledBy : Option String)

section
variable {Xls Survey : Type} (cfg : SaveSettings) (lib : FormLibrary Xls Survey)

/-- An operation that returns. One that raises leaves the database. -/
def KmsStep (db : KmsDatabase Xls) : KmsAction → KmsDatabase Xls → Prop
  | .encrypt now pk encryptedBy overrideEncryption, db' =>
      encryptXform cfg lib now db pk encryptedBy overrideEncryption = .ok db'
  | .rotate settings client clock pk rotatedBy rotationReason, db' =>
      ∃ newKey, rotateKey cfg lib settings client clock db pk rotatedBy rotationReason =
        .ok (db', newKey)
  | .disable now pk disabledBy, db' =>
      disableXformEncryption cfg lib now db pk disabledBy = .ok db'

variable {cfg} {lib}

/-- No link of the form has the version of the time. -/
def UnusedAt (db : KmsDatabase Xls) (now : DateTime) (pk : Nat) : Prop :=
  ∀ link ∈ db.xformKeys, link.xform = pk → link.version ≠ versionAt now

/-- Each form that the operation encrypts is encrypted in a minute that is unused for it. -/
def NewVersions (db : KmsDatabase Xls) (action : KmsAction) (_ : KmsDatabase Xls) : Prop :=
  match action with
  | .encrypt now pk _ overrideEncryption =>
      ∀ xform, db.xforms.get? pk = some xform →
        xform.encrypted = false ∨ overrideEncryption = true → UnusedAt db now pk
  | .rotate _ _ clock pk _ _ =>
      ∀ item ∈ db.formsOfKey pk, UnusedAt db (clock.encrypted item.1) item.1
  | .disable _ _ _ => True

/-- A link ties the version of the form to a key with the public key. -/
def LinkedTo (db : KmsDatabase Xls) (pk : Nat) (version publicKey : String) : Prop :=
  ∃ link ∈ db.xformKeys, link.xform = pk ∧ link.version = version ∧
    ∃ kmsKey, db.kmsKeys.get? link.kmsKey = some kmsKey ∧ kmsKey.publicKey = publicKey

/-- The form is published with the version and the public key. -/
def Published (db : KmsDatabase Xls) (pk : Nat) (version publicKey : String) : Prop :=
  ∃ xform, db.xforms.get? pk = some xform ∧ KeyedForm xform version publicKey

/-- The look-up of a version finds the key with the public key. -/
def FindsKey (db : KmsDatabase Xls) (pk : Nat) (version publicKey : String) : Prop :=
  ∃ link kmsKey, db.getXFormKey pk (some version) = .ok link ∧
    db.kmsKeys.get? link.kmsKey = some kmsKey ∧ kmsKey.publicKey = publicKey

/-- The form and the version of a link. -/
def linkVersion (link : XFormKey) : Nat × String :=
  (link.xform, link.version)

/-- Each version of a form has one link, and each managed form has one for its version. -/
structure VersionsLinked (db : KmsDatabase Xls) : Prop where
  unique : (db.xformKeys.map linkVersion).Nodup
  managed : ∀ pk xform, db.xforms.get? pk = some xform → xform.isManaged = true →
    ∃ version publicKey, KeyedForm xform version publicKey ∧ LinkedTo db pk version publicKey

/-- No form is managed yet, and none has a link. -/
structure Unkeyed (db : KmsDatabase Xls) : Prop where
  xformKeys : db.xformKeys = []
  unmanaged : ∀ pk xform, db.xforms.get? pk = some xform → xform.isManaged = false

theorem Unkeyed.versionsLinked {db : KmsDatabase Xls} (h : Unkeyed db) : VersionsLinked db where
  unique := by
    rw [h.xformKeys]
    exact List.nodup_nil
  managed := fun pk xform hget hmanaged =>
    absurd (hmanaged.symm.trans (h.unmanaged pk xform hget)) (by decide)

/-- The links and the public keys of one database are in another one. -/
structure KeepsLinks (db db' : KmsDatabase Xls) : Prop where
  xformKeys : ∀ link ∈ db.xformKeys, link ∈ db'.xformKeys
  kmsKeys : ∀ pk kmsKey, db.kmsKeys.get? pk = some kmsKey →
    ∃ kmsKey', db'.kmsKeys.get? pk = some kmsKey' ∧ kmsKey'.publicKey = kmsKey.publicKey

/-- A link stays. -/
theorem LinkedTo.mono {db db' : KmsDatabase Xls} (hkeeps : KeepsLinks db db') {pk : Nat}
    {version publicKey : String} (h : LinkedTo db pk version publicKey) :
    LinkedTo db' pk version publicKey := by
  obtain ⟨link, hlink, hpk, hversion, kmsKey, hget, hpublicKey⟩ := h
  obtain ⟨kmsKey', hget', hsame⟩ := hkeeps.kmsKeys _ kmsKey hget
  exact ⟨link, hkeeps.xformKeys link hlink, hpk, hversion, kmsKey', hget', hsame.trans hpublicKey⟩

/-- What one operation can do to the forms and the links. -/
inductive KmsChange (db : KmsDatabase Xls) (action : KmsAction) (db' : KmsDatabase Xls) : Prop
  | same (h : db' = db)
  | encrypted {now : DateTime} {pk : Nat} {encryptedBy : Option String} {overrides : Bool}
      {xform : EncryptedForm Xls} {kmsKey : Nat × KMSKey}
      (haction : action = .encrypt now pk encryptedBy overrides)
      (hget : db.xforms.get? pk = some xform)
      (hencrypted : xform.encrypted = false ∨ overrides = true)
      (hkmsKey : db.kmsKeys.get? kmsKey.1 = some kmsKey.2)
      (h : EncryptedWith now db pk xform kmsKey encryptedBy db')
  | rotated {settings : KmsSettings} {client : KmsClient} {clock : RotationClock} {pk : Nat}
      {rotatedBy rotationReason : Option String} {newKey : Nat × KMSKey}
      (haction : action = .rotate settings client clock pk rotatedBy rotationReason)
      (h : RotatedKey client clock.encrypted db pk newKey rotatedBy db')
  | disabled {pk : Nat} {xform xform' : EncryptedForm Xls}
      (hget : db.xforms.get? pk = some xform) (hunmanaged : xform'.isManaged = false)
      (hxforms : db'.xforms = db.xforms.save pk xform')
      (hxformKeys : db'.xformKeys = db.xformKeys) (hkmsKeys : db'.kmsKeys = db.kmsKeys)

/-- The change of an operation. -/
theorem kmsChange_of_step {db db' : KmsDatabase Xls} {action : KmsAction}
    (h : KmsStep cfg lib db action db') : KmsChange db action db' := by
  cases action with
  | encrypt now pk encryptedBy overrides =>
      obtain ⟨xform, hget, ⟨-, -, hsame⟩ | ⟨hencrypted, kmsKey, hkmsKey, hwith⟩⟩ :=
        encryptXform_spec h
      · exact .same hsame
      · exact .encrypted rfl hget hencrypted hkmsKey hwith
  | rotate settings client clock pk rotatedBy rotationReason =>
      obtain ⟨newKey, h⟩ := h
      exact .rotated rfl (rotateKey_spec h)
  | disable now pk disabledBy =>
      rcases disableXformEncryption_spec h with
        hsame | ⟨xform, xform', hget, hunmanaged, hxforms, hxformKeys, hkmsKeys⟩
      · exact .same hsame
      · exact .disabled hget hunmanaged hxforms hxformKeys hkmsKeys

/-- An operation deletes no link and changes no public key. -/
theorem keepsLinks_of_change {db db' : KmsDatabase Xls} {action : KmsAction}
    (h : KmsChange db action db') : KeepsLinks db db' := by
  cases h with
  | same h =>
      subst h
      exact ⟨fun _ h => h, fun _ kmsKey hget => ⟨kmsKey, hget, rfl⟩⟩
  | encrypted _ _ _ _ h =>
      refine ⟨fun link hlink => ?_, fun pk kmsKey hget => ⟨kmsKey, ?_, rfl⟩⟩
      · rw [h.xformKeys]
        exact List.mem_append_left _ hlink
      · rw [h.kmsKeys]
        exact hget
  | rotated _ h =>
      refine ⟨fun link hlink => ?_, h.oldKeys⟩
      rw [h.forms.xformKeys]
      exact List.mem_append_left _ hlink
  | disabled _ _ _ hxformKeys hkmsKeys =>
      refine ⟨fun link hlink => hxformKeys ▸ hlink, fun pk kmsKey hget => ⟨kmsKey, ?_, rfl⟩⟩
      rw [hkmsKeys]
      exact hget

/-- A link that no other one of the form has the version of is found. -/
theorem LinkedTo.findsKey {db : KmsDatabase Xls} (hunique : (db.xformKeys.map linkVersion).Nodup)
    {pk : Nat} {version publicKey : String} (h : LinkedTo db pk version publicKey) :
    FindsKey db pk version publicKey := by
  obtain ⟨link, hlink, hpk, hversion, kmsKey, hget, hpublicKey⟩ := h
  refine ⟨link, kmsKey, ?_, hget, hpublicKey⟩
  unfold KmsDatabase.getXFormKey
  refine objectsGet_eq_ok_of_nodup hunique (fun row row' hrow hrow' => ?_) hlink ?_
  · simp only [Bool.and_eq_true, decide_eq_true_eq, Option.some_inj] at hrow hrow'
    unfold linkVersion
    rw [hrow.1, hrow.2, hrow'.1, hrow'.2]
  · simp [hpk, hversion]

/-- The links of an encryption in an unused minute are those before and another one. -/
theorem nodup_append_link {db : KmsDatabase Xls} (hunique : (db.xformKeys.map linkVersion).Nodup)
    {links : List XFormKey} (hlinks : (links.map linkVersion).Nodup)
    (hunused : ∀ link ∈ links, ∀ old ∈ db.xformKeys, old.xform = link.xform →
      old.version ≠ link.version) :
    ((db.xformKeys ++ links).map linkVersion).Nodup := by
  rw [List.map_append, List.nodup_append]
  refine ⟨hunique, hlinks, fun version hmem version' hmem' heq => ?_⟩
  obtain ⟨old, hold, rfl⟩ := List.mem_map.mp hmem
  obtain ⟨link, hlink, rfl⟩ := List.mem_map.mp hmem'
  unfold linkVersion at heq
  rw [Prod.mk.injEq] at heq
  exact hunused link hlink old hold heq.1 heq.2

/-- An operation whose encryptions find their minutes unused keeps one link for each version. -/
theorem VersionsLinked.change {db db' : KmsDatabase Xls} {action : KmsAction}
    (hlinked : VersionsLinked db) (h : KmsChange db action db')
    (hnew : NewVersions db action db') : VersionsLinked db' := by
  have hkeeps := keepsLinks_of_change h
  cases h with
  | same h =>
      subst h
      exact hlinked
  | @encrypted now pk encryptedBy overrides xform kmsKey haction hget hencrypted hkmsKey h =>
      subst haction
      have hunused : UnusedAt db now pk := hnew xform hget hencrypted
      obtain ⟨xform', hxforms, hkeyed, -⟩ := h.form
      refine ⟨?_, fun pk' form hget' hmanaged => ?_⟩
      · rw [h.xformKeys]
        refine nodup_append_link hlinked.unique (List.nodup_singleton _) fun link hlink => ?_
        rw [List.mem_singleton.mp hlink]
        exact hunused
      · rw [hxforms, Table.get?_save _ hget] at hget'
        by_cases hpk : pk' = pk
        · rw [if_pos hpk] at hget'
          obtain rfl := Option.some_inj.mp hget'
          refine ⟨_, _, hkeyed, ⟨pk, kmsKey.1, versionAt now, encryptedBy⟩, ?_, hpk.symm, rfl,
            kmsKey.2, ?_, rfl⟩
          · rw [h.xformKeys]
            exact List.mem_append_right _ (List.mem_singleton_self _)
          · rw [h.kmsKeys]
            exact hkmsKey
        · rw [if_neg hpk] at hget'
          obtain ⟨version, publicKey, hkeyed', hlink⟩ := hlinked.managed pk' form hget' hmanaged
          exact ⟨version, publicKey, hkeyed', hlink.mono hkeeps⟩
  | @rotated settings client clock pk rotatedBy rotationReason newKey haction h =>
      subst haction
      refine ⟨?_, fun pk' form hget' hmanaged => ?_⟩
      · rw [h.forms.xformKeys]
        refine nodup_append_link hlinked.unique ?_ fun link hlink => ?_
        · -- The forms are different.
          rw [List.map_map]
          have hnodup : ((db.formsOfKey pk).map (·.1)).Nodup :=
            db.xforms.nodup.sublist (List.filter_sublist.map _)
          refine List.Nodup.of_map Prod.fst ?_
          rw [List.map_map]
          exact hnodup
        · obtain ⟨item, hitem, rfl⟩ := List.mem_map.mp hlink
          exact hnew item hitem
      · by_cases hpk : pk' ∈ Dict.keys (db.formsOfKey pk)
        · obtain ⟨item, hitem, rfl⟩ := List.mem_map.mp hpk
          obtain ⟨xform', hget'', hkeyed, -⟩ := h.forms.forms item hitem
          obtain rfl := Option.some_inj.mp (hget'.symm.trans hget'')
          refine ⟨_, _, hkeyed, ⟨item.1, newKey.1, versionAt (clock.encrypted item.1), rotatedBy⟩,
            ?_, rfl, rfl, newKey.2, h.created, rfl⟩
          rw [h.forms.xformKeys]
          exact List.mem_append_right _ (List.mem_map_of_mem hitem)
        · rw [h.forms.others pk' hpk] at hget'
          obtain ⟨version, publicKey, hkeyed, hlink⟩ := hlinked.managed pk' form hget' hmanaged
          exact ⟨version, publicKey, hkeyed, hlink.mono hkeeps⟩
  | @disabled pk xform xform' hget hunmanaged hxforms hxformKeys hkmsKeys =>
      refine ⟨?_, fun pk' form hget' hmanaged => ?_⟩
      · rw [hxformKeys]
        exact hlinked.unique
      · rw [hxforms, Table.get?_save _ hget] at hget'
        by_cases hpk : pk' = pk
        · rw [if_pos hpk] at hget'
          obtain rfl := Option.some_inj.mp hget'
          exact absurd (hmanaged.symm.trans hunmanaged) (by decide)
        · rw [if_neg hpk] at hget'
          obtain ⟨version, publicKey, hkeyed, hlink⟩ := hlinked.managed pk' form hget' hmanaged
          exact ⟨version, publicKey, hkeyed, hlink.mono hkeeps⟩

/-- An encryption in a minute that is used for the form leaves two links of one version. -/
theorem multiple_of_used {db db' : KmsDatabase Xls} {links : List XFormKey}
    (hlinks : db'.xformKeys = db.xformKeys ++ links) {link old : XFormKey} (hlink : link ∈ links)
    (hold : old ∈ db.xformKeys) (hpk : old.xform = link.xform)
    (hversion : old.version = link.version) :
    db'.getXFormKey link.xform (some link.version) = .error .multipleObjectsReturned := by
  obtain ⟨before, between, hbefore⟩ := List.append_of_mem hold
  obtain ⟨between', after, hafter⟩ := List.append_of_mem hlink
  refine @objectsGet_eq_multiple _ _ _ before (between ++ between') after old link ?_ ?_ ?_
  · rw [hlinks, hbefore, hafter]
    simp
  · simp [hpk, hversion]
  · simp

/-- After an operation with an encryption in a used minute, some look-up finds several rows. -/
theorem multiple_of_not_newVersions {db db' : KmsDatabase Xls} {action : KmsAction}
    (h : KmsStep cfg lib db action db') (hnot : ¬ NewVersions db action db') :
    ∃ pk version, db'.getXFormKey pk version = .error .multipleObjectsReturned := by
  cases action with
  | encrypt now pk encryptedBy overrides =>
      unfold NewVersions UnusedAt at hnot
      push Not at hnot
      obtain ⟨xform, hget, hencrypted, old, hold, hpk, hversion⟩ := hnot
      obtain ⟨xform', hget', ⟨hencrypted', hoverrides, -⟩ | ⟨-, kmsKey, -, hwith⟩⟩ :=
        encryptXform_spec h
      · obtain rfl := Option.some_inj.mp (hget.symm.trans hget')
        rw [hencrypted', hoverrides] at hencrypted
        exact absurd hencrypted (by decide)
      · exact ⟨_, _, multiple_of_used hwith.xformKeys (List.mem_singleton_self _) hold hpk hversion⟩
  | rotate settings client clock pk rotatedBy rotationReason =>
      unfold NewVersions UnusedAt at hnot
      push Not at hnot
      obtain ⟨item, hitem, old, hold, hpk, hversion⟩ := hnot
      obtain ⟨newKey, h⟩ := h
      exact ⟨_, _, multiple_of_used (rotateKey_spec h).forms.xformKeys
        (List.mem_map_of_mem hitem) hold hpk hversion⟩
  | disable now pk disabledBy => exact absurd trivial hnot

variable (cfg) (lib)

/-- An operation whose encryptions find their minutes unused. -/
abbrev NewVersionStep : KmsDatabase Xls → KmsAction → KmsDatabase Xls → Prop :=
  Guarded (KmsStep cfg lib) NewVersions

variable {cfg} {lib}

/-- One link for each version, along a run. -/
theorem VersionsLinked.run {db db' : KmsDatabase Xls} {actions : List KmsAction}
    (h : VersionsLinked db) (hrun : Run (NewVersionStep cfg lib) db actions db') :
    VersionsLinked db' :=
  hrun.invariant VersionsLinked
    (fun _ _ _ _ hstep hlinked => hlinked.change (kmsChange_of_step hstep.1) hstep.2) h

/-- A link stays along a run. -/
theorem LinkedTo.run {db db' : KmsDatabase Xls} {actions : List KmsAction} {pk : Nat}
    {version publicKey : String} (h : LinkedTo db pk version publicKey)
    (hrun : Run (NewVersionStep cfg lib) db actions db') : LinkedTo db' pk version publicKey :=
  hrun.invariant (LinkedTo · pk version publicKey)
    (fun _ _ _ _ hstep hlinked =>
      hlinked.mono (keepsLinks_of_change (kmsChange_of_step hstep.1))) h

/-- Each version of a form has at most one key, its look-up never finds several rows, and it finds
the key whose public key was published in the version. -/
theorem version_identifies_key {db mid db' : KmsDatabase Xls} {actions actions' : List KmsAction}
    (hstart : Unkeyed db) (hrun : Run (NewVersionStep cfg lib) db actions mid)
    (hrest : Run (NewVersionStep cfg lib) mid actions' db') :
    (∀ link ∈ db'.xformKeys, ∀ other ∈ db'.xformKeys, link.xform = other.xform →
      link.version = other.version → link.kmsKey = other.kmsKey) ∧
      (∀ pk version, db'.getXFormKey pk version ≠ .error .multipleObjectsReturned) ∧
      ∀ pk version publicKey, Published mid pk version publicKey →
        FindsKey db' pk version publicKey := by
  have hmid := hstart.versionsLinked.run hrun
  have hlinked := hmid.run hrest
  refine ⟨fun link hlink other hother hpk hversion => ?_, fun pk version => ?_, ?_⟩
  · have heq : linkVersion link = linkVersion other := by
      unfold linkVersion
      rw [hpk, hversion]
    rw [List.inj_on_of_nodup_map hlinked.unique hlink hother heq]
  · refine objectsGet_ne_multiple hlinked.unique fun row row' hrow hrow' => ?_
    simp only [Bool.and_eq_true, decide_eq_true_eq] at hrow hrow'
    unfold linkVersion
    rw [hrow.1, hrow'.1, Option.some_inj.mp (hrow.2.trans hrow'.2.symm)]
  · rintro pk version publicKey ⟨xform, hget, hkeyed⟩
    obtain ⟨version', publicKey', hkeyed', hlink⟩ := hmid.managed pk xform hget hkeyed.isManaged
    obtain rfl := Option.some_inj.mp (hkeyed.version.symm.trans hkeyed'.version)
    obtain rfl := Option.some_inj.mp (hkeyed.publicKey.symm.trans hkeyed'.publicKey)
    exact (hlink.run hrest).findsKey hlinked.unique

end

/-! ### Two encryptions in one minute -/

/-- The first minute in all of `rotate_key`. -/
def sameMinute : RotationClock :=
  ⟨firstMinute, fun _ => firstMinute, firstMinute, firstMinute⟩

/-- The form is encrypted, and the key is rotated. -/
def rotatedRun (clock : RotationClock) : Except KmsError (KmsDatabase Unit × Nat × KMSKey) := do
  let db ← encryptedRun
  rotateKey smallSettings smallLibrary {} smallClient clock db 0 none none

/-- The form of the organization is not managed yet. -/
theorem unkeyed_smallDatabase : Unkeyed smallDatabase := by
  refine ⟨rfl, fun pk xform hget => ?_⟩
  rw [Table.get?_eq_some] at hget
  have hall : ∀ item ∈ smallDatabase.xforms.rows, item.2.isManaged = false := by decide
  exact hall _ hget

/-- The version of the minute has two keys. -/
theorem not_version_identifies_key_sameMinute :
    ¬ ∀ (Xls Survey : Type) (cfg : SaveSettings) (lib : FormLibrary Xls Survey)
      (db db' : KmsDatabase Xls) (actions : List KmsAction), Unkeyed db →
      Run (KmsStep cfg lib) db actions db' →
      ∀ pk version, db'.getXFormKey pk version ≠ .error .multipleObjectsReturned := by
  intro h
  have hmany : (rotatedRun sameMinute).map (fun rotated =>
      rotated.1.getXFormKey 0 (some "202402010000")) = .ok (.error .multipleObjectsReturned) := by
    decide +kernel
  obtain ⟨⟨db', newKey⟩, hrun, hmultiple⟩ := map_eq_ok.mp hmany
  obtain ⟨db, hencrypt, hrotate⟩ := bind_eq_ok.mp hrun
  exact h _ _ _ _ _ _ [.encrypt firstMinute 0 none false, .rotate _ _ _ 0 none none]
    unkeyed_smallDatabase (.cons hencrypt (.cons ⟨newKey, hrotate⟩ (.nil _))) _ _ hmultiple

/-- The key is rotated two minutes later: the version of the first minute has the first key. -/
theorem version_identifies_key_smallClock :
    ∃ db' newKey, rotatedRun smallClock = .ok (db', newKey) ∧
      (∀ pk version, db'.getXFormKey pk version ≠ .error .multipleObjectsReturned) ∧
      FindsKey db' 0 (versionAt firstMinute) "MIIBIjANBgkq1" := by
  have hok : (rotatedRun smallClock).map (fun _ => ()) = .ok () := by decide +kernel
  obtain ⟨⟨db', newKey⟩, hrun, -⟩ := map_eq_ok.mp hok
  obtain ⟨mid, hencrypt, hrotate⟩ := bind_eq_ok.mp hrun
  have hunused : UnusedAt smallDatabase firstMinute 0 :=
    fun link hlink => absurd hlink List.not_mem_nil
  have hfirst : Run (NewVersionStep smallSettings smallLibrary) smallDatabase
      [.encrypt firstMinute 0 none false] mid :=
    .cons ⟨hencrypt, fun _ _ _ => hunused⟩ (.nil _)
  obtain ⟨xform, hget, ⟨hencrypted, -, -⟩ | ⟨-, kmsKey, hkmsKey, hwith⟩⟩ :=
    encryptXform_spec hencrypt
  · have hall : ∀ item ∈ smallDatabase.xforms.rows, item.2.encrypted = false := by decide
    exact absurd (hencrypted.symm.trans (hall _ (Table.get?_eq_some.mp hget))) (by decide)
  · have hsecond : Run (NewVersionStep smallSettings smallLibrary) mid
        [.rotate {} smallClient smallClock 0 none none] db' := by
      refine .cons ⟨⟨newKey, hrotate⟩, fun item _ link hlink _ => ?_⟩ (.nil _)
      rw [hwith.xformKeys] at hlink
      obtain rfl := List.mem_singleton.mp hlink
      show versionAt firstMinute ≠ versionAt (smallClock.encrypted 0)
      decide +kernel
    obtain ⟨xform', hxforms, hkeyed, -⟩ := hwith.form
    have hpublished : Published mid 0 (versionAt firstMinute) kmsKey.2.publicKey := by
      refine ⟨xform', ?_, hkeyed⟩
      rw [hxforms, Table.get?_save _ hget, if_pos rfl]
    obtain ⟨-, hone, hfinds⟩ :=
      version_identifies_key unkeyed_smallDatabase hfirst hsecond
    have hpublicKey : kmsKey.2.publicKey = "MIIBIjANBgkq1" := by
      have hall : ∀ item ∈ smallDatabase.kmsKeys.rows, item.2.publicKey = "MIIBIjANBgkq1" := by
        decide
      exact hall kmsKey (Table.get?_eq_some.mp hkmsKey)
    exact ⟨db', newKey, hrun, hone, hpublicKey ▸ hfinds _ _ _ hpublished⟩

end Onadata.Proofs
