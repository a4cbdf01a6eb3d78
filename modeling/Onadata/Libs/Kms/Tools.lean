import Onadata.Apps.Logger.Models.Kms
import Onadata.Lib.CivilDate
import Onadata.Lib.TextParts

/-!
# `Onadata.Libs.Kms.Tools`: forms are encrypted with managed keys

`create_key`, `rotate_key`, `encrypt_xform`, `_encrypt_xform` and `disable_xform_encryption` of
`libs/kms/tools.py`, and the look-up of the key in `decrypt_instance`. Each is a transaction, so
that an error leaves all rows as they were.

`KmsClient` is the service that makes keys. What becomes of the keys there is left out, and so
are the caches, the e-mails and the log.
-/

set_option autoImplicit false

namespace Onadata

open Onadata.Lib

/-! ### Times -/

/-- A time after another one. It is at most in the year 9999. -/
def DateTime.add (when : DateTime) (microseconds : Nat) : Except KmsError DateTime :=
  if h : when.microseconds + microseconds < 253402300800000000 then
    .ok { microseconds := when.microseconds + microseconds, bounded := h }
  else .error (.pythonError (.other "OverflowError"))

/-- `min(when, other)`. -/
def DateTime.min (when other : DateTime) : DateTime :=
  if other.microseconds < when.microseconds then other else when

/-- The whole minutes of a time since the epoch. -/
def DateTime.minutes (when : DateTime) : Nat :=
  when.microseconds / 60000000

/-- `when.strftime("%Y-%m-%d")`. -/
def dateText (when : DateTime) : String :=
  let date := civilDate (when.minutes / 1440)
  String.ofList (decimalDigits 4 date.year ++ ['-'] ++ decimalDigits 2 date.month ++ ['-'] ++
    decimalDigits 2 date.day)

/-- `when.strftime("%Y%m%d%H%M")`: the version of a form. -/
def versionAt (when : DateTime) : String :=
  let date := civilDate (when.minutes / 1440)
  String.ofList (decimalDigits 4 date.year ++ decimalDigits 2 date.month ++
    decimalDigits 2 date.day ++ decimalDigits 2 (when.minutes / 60 % 24) ++
    decimalDigits 2 (when.minutes % 60))

/-! ### Keys -/

/-- What `kms_client.create_alias` raises. -/
inductive AliasError
  | aliasAlreadyExists
  | createAliasError (message : String)
  deriving DecidableEq, Repr

/-- The key management service. `provider` is none for a client of another class. -/
structure KmsClient where
  provider : Option KMSProvider
  createKey : String → Except String String
  getPublicKey : String → Except String String
  createAlias : String → String → Except AliasError Unit

/-- The settings. Durations are in microseconds. -/
structure KmsSettings where
  deploymentName : String := "Ona"
  rotationDuration : Option Nat := none
  gracePeriodDuration : Nat := 2592000000000

/-- `clean_public_key`. -/
def cleanPublicKey (value : String) : String :=
  let header := "-----BEGIN PUBLIC KEY-----"
  let footer := "-----END PUBLIC KEY-----"
  let value := strip value
  if startsWith value header ∧ endsWith value footer then
    strip (removeText " " (removeText footer (removeText header value)))
  else value

section
variable {Xls Survey : Type}

/-- `org.user.username`. An organization that is not there has no user. -/
def organizationUsername (db : KmsDatabase Xls) (org : Nat) : Except KmsError String :=
  match Dict.get? db.organizations org with
  | some username => .ok username
  | none => .error (.pythonError .attributeError)

/-- The alias of a key is made, or is there already. -/
def suppressAlreadyExists (result : Except AliasError Unit) : Except KmsError Unit :=
  match result with
  | .error (.createAliasError message) => .error (.clientError message)
  | .error .aliasAlreadyExists => .ok ()
  | .ok () => .ok ()

/-- The expiry date of a key that is created. A duration of zero is none. -/
def newExpiryDate (settings : KmsSettings) (now : DateTime) : Except KmsError (Option DateTime) :=
  match settings.rotationDuration with
  | none => .ok none
  | some duration => if duration = 0 then .ok none else some <$> now.add duration

/-- The provider of a key, without which no row is made. -/
def requiredProvider (client : KmsClient) : Except KmsError KMSProvider :=
  match client.provider with
  | none => .error (.integrityError "provider")
  | some provider => .ok provider

/-- `create_key`: the new key with its primary key. -/
def createKey (settings : KmsSettings) (client : KmsClient) (now : DateTime)
    (db : KmsDatabase Xls) (org : Nat) (createdBy : Option String) :
    Except KmsError (KmsDatabase Xls × Nat × KMSKey) := do
  let username ← organizationUsername db org
  let description := "Key-" ++ dateText now
  let duplicates := db.kmsKeys.count fun key =>
    key.objectId = org && startsWith key.description description
  let description := if duplicates = 0 then description
    else description ++ "-v" ++ toString (duplicates + 1)
  let kmsDescription := description ++
    if createdBy = none then " via automatic rotation" else " via manual rotation"
  let keyId ← (client.createKey kmsDescription).mapError .clientError
  let publicKey ← (client.getPublicKey keyId).mapError .clientError
  let aliasName := "alias/" ++ settings.deploymentName ++ "/" ++ username ++ "/" ++ description
  suppressAlreadyExists (client.createAlias aliasName keyId)
  let expiryDate ← newExpiryDate settings now
  let provider ← requiredProvider client
  ensure (db.kmsKeys.count (fun key => key.keyId = keyId && key.provider = provider) = 0)
    (.integrityError "key_id, provider")
  let key := {
    keyId := keyId
    description := description
    publicKey := cleanPublicKey publicKey
    provider := provider
    expiryDate := expiryDate
    isActive := true
    objectId := org
    createdBy := createdBy }
  return ({ db with kmsKeys := db.kmsKeys.create key }, db.kmsKeys.nextPk, key)

/-! ### Forms -/

variable (cfg : SaveSettings) (lib : FormLibrary Xls Survey)

/-- `_encrypt_xform`. -/
def encryptXformWith (now : DateTime) (db : KmsDatabase Xls) (pk : Nat)
    (xform : EncryptedForm Xls) (kmsKey : Nat × KMSKey) (encryptedBy : Option String) :
    Except KmsError (KmsDatabase Xls) := do
  let version := versionAt now
  let (survey, workbookJson) ← xform.getSurveyAndJsonFromXlsform lib none
  let survey := lib.setVersion (lib.setPublicKey survey (some kmsKey.2.publicKey)) version
  let workbookJson := Dict.insert workbookJson "public_key" (.str kmsKey.2.publicKey)
  let workbookJson := Dict.insert workbookJson "version" (.str version)
  let xform := { xform with
    json := workbookJson
    xml := lib.toXml survey
    version := some version
    publicKey := some kmsKey.2.publicKey
    encrypted := true
    isManaged := true }
  let xform := { xform with hash := some (xform.getHash lib) }
  let xform ← xform.save cfg lib survey
  let db := { db with xforms := db.xforms.save pk xform }
  let db ← db.createXFormKey {
    xform := pk, kmsKey := kmsKey.1, version := version, encryptedBy := encryptedBy }
  return db.createXFormVersion {
    xform := pk
    xls := xform.xls
    json := xform.json
    version := xform.version
    createdBy := encryptedBy
    xml := xform.xml }

/-- `encrypt_xform`. -/
def encryptXform (now : DateTime) (db : KmsDatabase Xls) (pk : Nat)
    (encryptedBy : Option String) (overrideEncryption : Bool) :
    Except KmsError (KmsDatabase Xls) :=
  match db.xforms.get? pk with
  | none => .error (.doesNotExist "XForm")
  | some xform =>
      if xform.encrypted ∧ !overrideEncryption then return db
      else do
        ensure (xform.numOfSubmissions = 0)
          (.encryptionError "XForm already has submissions.")
        match xform.owner with
        | .withoutProfile => throw (.doesNotExist "UserProfile")
        | .person => throw (.encryptionError "XForm owner is not an organization user.")
        | .organization org =>
            match db.activeKey org with
            | none =>
                throw (.encryptionError "No encryption key found for the organization.")
            | some kmsKey => encryptXformWith cfg lib now db pk xform kmsKey encryptedBy

/-- `disable_xform_encryption`. -/
def disableXformEncryption (now : DateTime) (db : KmsDatabase Xls) (pk : Nat)
    (disabledBy : Option String) : Except KmsError (KmsDatabase Xls) :=
  match db.xforms.get? pk with
  | none => .error (.doesNotExist "XForm")
  | some xform =>
      if !xform.encrypted then return db
      else do
        ensure (xform.numOfSubmissions = 0)
          (.encryptionError "XForm already has submissions.")
        ensure (db.hasKey pk xform.version none = true)
          (.encryptionError "XForm encryption is not via managed keys.")
        let newVersion := versionAt now
        let (survey, workbookJson) ← xform.getSurveyAndJsonFromXlsform lib none
        let survey := lib.setVersion (lib.setPublicKey survey none) newVersion
        let workbookJson := workbookJson.filter fun item => item.1 ≠ "public_key"
        let workbookJson := Dict.insert workbookJson "version" (.str newVersion)
        let xform := { xform with
          json := workbookJson
          xml := lib.toXml survey
          version := some newVersion
          publicKey := none
          encrypted := false
          isManaged := false }
        let xform := { xform with hash := some (xform.getHash lib) }
        let xform ← xform.save cfg lib survey
        let db := { db with xforms := db.xforms.save pk xform }
        return db.createXFormVersion {
          xform := pk
          xls := xform.xls
          json := xform.json
          version := xform.version
          createdBy := disabledBy
          xml := xform.xml }

/-- What `timezone.now()` is in `rotate_key`: when the key is created, for each form, and when
the old key expires and is rotated. -/
structure RotationClock where
  created : DateTime
  encrypted : Nat → DateTime
  expired : DateTime
  rotated : DateTime

/-- The expiry date of a key that is rotated at a time. The minimum of no date and a time is none. -/
def forcedExpiryDate (kmsKey : KMSKey) (now : DateTime) : Except KmsError DateTime :=
  match kmsKey.expiryDate with
  | none => .error (.pythonError .typeError)
  | some expiryDate => .ok (expiryDate.min now)

/-- `rotate_key`. -/
def rotateKey (settings : KmsSettings) (client : KmsClient) (clock : RotationClock)
    (db : KmsDatabase Xls) (pk : Nat) (rotatedBy rotationReason : Option String) :
    Except KmsError (KmsDatabase Xls × Nat × KMSKey) :=
  match db.kmsKeys.get? pk with
  | none => .error (.doesNotExist "KMSKey")
  | some kmsKey => do
      ensure (kmsKey.disabledAt = none) (.encryptionError "Key is disabled.")
      ensure (kmsKey.rotatedAt = none) (.encryptionError "Key already rotated.")
      let (db, newKey) ← createKey settings client clock.created db kmsKey.objectId rotatedBy
      let db ← (db.formsOfKey pk).foldlM (fun db item =>
        encryptXformWith cfg lib (clock.encrypted item.1) db item.1 item.2 newKey rotatedBy) db
      let expiryDate ← forcedExpiryDate kmsKey clock.expired
      let graceEndDate ← expiryDate.add settings.gracePeriodDuration
      let rotated := { kmsKey with
        expiryDate := some expiryDate
        graceEndDate := some graceEndDate
        rotatedAt := some clock.rotated
        rotatedBy := rotatedBy
        rotationReason := rotationReason
        isActive := false }
      return ({ db with kmsKeys := db.kmsKeys.save pk rotated }, newKey)

end

end Onadata
