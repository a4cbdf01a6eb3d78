import Onadata.Lib.Transaction
import Onadata.Libs.Kms.Tools

/-!
# `Onadata.Libs.Kms.KeyService`: the rows of the keys and the keys of the service

`create_key`, `disable_key` and `rotate_key` of `libs/kms/tools.py` with what they leave in the
service. An error takes the rows back to what they were; what the service has done stays.

A call of the service that fails changes nothing there. Its client raises `GetPublicKeyException`
for a public key, and `AliasAlreadyExistsException` or `CreateAliasException` for an alias. Left
out: the caches, the e-mails, the log, and the user who disables a key. An object is as its row is.
-/

set_option autoImplicit false

namespace Onadata.KeyService

open Onadata.Lib
open Onadata.Lib.DbAction

/-- The keys of the service, and whether each is enabled. -/
abbrev ServiceKeys := List (String × Bool)

/-- The rows, with the keys of the service as the memory. -/
abbrev KeySession (Xls : Type) := Session (KmsDatabase Xls) ServiceKeys

/-- A computation on the rows and the service. -/
abbrev KeyAction (Xls A : Type) := DbAction KmsError (KmsDatabase Xls) ServiceKeys A

/-- The client, with the call that disables a key. -/
structure ServiceClient extends KmsClient where
  disableKey : String → Except String Unit

/-- What surrounds a call of an operation. `refusal` is the constraint for which the database
refuses its rows. -/
structure KeyCall where
  settings : KmsSettings := {}
  client : ServiceClient
  refusal : Option String := none

section
variable {Xls Survey : Type}

/-! ### The service -/

/-- `kms_client.create_key(description=description)`. -/
def createServiceKey (client : ServiceClient) (description : String) : KeyAction Xls String := do
  let keyId ← attempt ((client.createKey description).mapError .clientError)
  let keys ← getMemory
  setMemory (Dict.insert keys keyId true)
  return keyId

/-- `kms_client.disable_key(key_id)`. -/
def disableServiceKey (client : ServiceClient) (keyId : String) : KeyAction Xls Unit := do
  attempt ((client.disableKey keyId).mapError .clientError)
  let keys ← getMemory
  setMemory (Dict.insert keys keyId false)

/-! ### The operations -/

/-- `transaction.atomic`. -/
def committed {A : Type} (refusal : Option String) (action : KeyAction Xls A) : KeyAction Xls A :=
  atomic (fun _ => refusal.map .integrityError) action

/-- The description of a new key, which tells it from the keys of the day. -/
def keyDescription (db : KmsDatabase Xls) (now : DateTime) (org : Nat) : String :=
  let description := "Key-" ++ dateText now
  let duplicates := db.kmsKeys.count fun key =>
    key.objectId = org && startsWith key.description description
  if duplicates = 0 then description else description ++ "-v" ++ toString (duplicates + 1)

/-- The description that the service is given. -/
def kmsDescription (description : String) (createdBy : Option String) : String :=
  description ++ if createdBy = none then " via automatic rotation" else " via manual rotation"

/-- `alias_name`. -/
def keyAlias (call : KeyCall) (username description : String) : String :=
  "alias/" ++ call.settings.deploymentName ++ "/" ++ username ++ "/" ++ description

/-- The public key of a key, which gets an alias. -/
def publicKeyWithAlias (client : ServiceClient) (aliasName keyId : String) :
    Except KmsError String := do
  let publicKey ← (client.getPublicKey keyId).mapError .clientError
  suppressAlreadyExists (client.createAlias aliasName keyId)
  return publicKey

/-- The row of a new key, which is unique for the service. -/
def newKmsKey (call : KeyCall) (now : DateTime) (db : KmsDatabase Xls) (org : Nat)
    (createdBy : Option String) (description keyId publicKey : String) :
    Except KmsError KMSKey := do
  let expiryDate ← newExpiryDate call.settings now
  let provider ← requiredProvider call.client.toKmsClient
  ensure (db.kmsKeys.count (fun key => key.keyId = keyId && key.provider = provider) = 0)
    (.integrityError "key_id, provider")
  return {
    keyId := keyId
    description := description
    publicKey := cleanPublicKey publicKey
    provider := provider
    expiryDate := expiryDate
    isActive := true
    objectId := org
    createdBy := createdBy }

/-- `create_key`. -/
def createKey (call : KeyCall) (now : DateTime) (org : Nat) (createdBy : Option String) :
    KeyAction Xls (Nat × KMSKey) :=
  committed call.refusal do
    let db ← getDb
    let username ← attempt (organizationUsername db org)
    let description := keyDescription db now org
    let keyId ← createServiceKey call.client (kmsDescription description createdBy)
    let aliasName := keyAlias call username description
    let publicKey ← tryCatch (attempt (publicKeyWithAlias call.client aliasName keyId)) fun error => do
      -- No key stays enabled that has no organization.
      disableServiceKey call.client keyId
      raise error
    let key ← attempt (newKmsKey call now db org createdBy description keyId publicKey)
    write (fun _ => none) fun db => { db with kmsKeys := db.kmsKeys.create key }
    return (db.kmsKeys.nextPk, key)

/-- `disable_key`. -/
def disableKey (call : KeyCall) (now : DateTime) (pk : Nat) : KeyAction Xls Unit :=
  committed call.refusal do
    let db ← getDb
    match db.kmsKeys.get? pk with
    | none => raise (.doesNotExist "KMSKey")
    | some kmsKey =>
        if kmsKey.disabledAt ≠ none then return ()
        else
          disableServiceKey call.client kmsKey.keyId
          let disabled := { kmsKey with disabledAt := some now, isActive := false }
          write (fun _ => none) fun db => { db with kmsKeys := db.kmsKeys.save pk disabled }

variable (cfg : SaveSettings) (lib : FormLibrary Xls Survey)

/-- `rotate_key`. The key is created in a transaction within the one of the rotation. -/
def rotateKey (call : KeyCall) (clock : RotationClock) (pk : Nat)
    (rotatedBy rotationReason : Option String) : KeyAction Xls (Nat × KMSKey) :=
  committed call.refusal do
    let db ← getDb
    match db.kmsKeys.get? pk with
    | none => raise (.doesNotExist "KMSKey")
    | some kmsKey =>
        attempt (ensure (kmsKey.disabledAt = none) (.encryptionError "Key is disabled."))
        attempt (ensure (kmsKey.rotatedAt = none) (.encryptionError "Key already rotated."))
        let newKey ← createKey { call with refusal := none } clock.created kmsKey.objectId rotatedBy
        let db ← getDb
        let db ← attempt ((db.formsOfKey pk).foldlM (fun db item => encryptXformWith cfg lib
          (clock.encrypted item.1) db item.1 item.2 newKey rotatedBy) db)
        let expiryDate ← attempt (forcedExpiryDate kmsKey clock.expired)
        let graceEndDate ← attempt (expiryDate.add call.settings.gracePeriodDuration)
        let rotated := { kmsKey with
          expiryDate := some expiryDate
          graceEndDate := some graceEndDate
          rotatedAt := some clock.rotated
          rotatedBy := rotatedBy
          rotationReason := rotationReason
          isActive := false }
        write (fun _ => none) fun _ => { db with kmsKeys := db.kmsKeys.save pk rotated }
        return newKey

end

end Onadata.KeyService
