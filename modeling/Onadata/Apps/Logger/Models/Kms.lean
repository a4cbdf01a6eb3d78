import Onadata.Apps.Logger.Models.EncryptedForm
import Onadata.Lib.ObjectsGet
import Onadata.Lib.Table

/-!
# `Onadata.Apps.Logger.Models.Kms`: managed keys and the forms that are encrypted with them

The rows of `KMSKey` and `XFormKey` of `apps/logger/models/kms.py`, of `XFormVersion` of
`apps/logger/models/xform_version.py`, and the database with them and the forms. A row of
`XFormKey` links a version of a form to a key; no row is ever deleted.

Left out: the dates on which rows are created and modified.
-/

set_option autoImplicit false

namespace Onadata

open Onadata.Lib

/-- `KMSKey.KMSProvider`. -/
inductive KMSProvider
  | aws
  | api
  deriving DecidableEq, Repr

/-- A row of `KMSKey`. The object of a key is an organization, whose primary key is
`objectId`. -/
structure KMSKey where
  keyId : String
  description : String
  publicKey : String
  provider : KMSProvider
  expiryDate : Option DateTime := none
  graceEndDate : Option DateTime := none
  disabledAt : Option DateTime := none
  rotatedAt : Option DateTime := none
  rotatedBy : Option String := none
  rotationReason : Option String := none
  isActive : Bool := true
  objectId : Nat
  createdBy : Option String := none
  deriving DecidableEq, Repr

/-- A row of `XFormKey`. -/
structure XFormKey where
  xform : Nat
  kmsKey : Nat
  version : String
  encryptedBy : Option String := none
  deriving DecidableEq, Repr

/-- A row of `XFormVersion`. -/
structure XFormVersion (Xls : Type) where
  xform : Nat
  xls : Option Xls
  json : FormJson
  version : Option String
  createdBy : Option String := none
  xml : String

/-- The rows that key management reads and writes. `organizations` are the usernames of the
organizations. -/
structure KmsDatabase (Xls : Type) where
  organizations : List (Nat × String) := []
  xforms : Table (EncryptedForm Xls) := {}
  kmsKeys : Table KMSKey := {}
  xformKeys : List XFormKey := []
  versions : List (XFormVersion Xls) := []

namespace KmsDatabase

variable {Xls : Type}

/-- `xform.kms_keys.filter(version=version).exists()`, for one key or for any. A form without a
version has no keys. -/
def hasKey (db : KmsDatabase Xls) (xform : Nat) (version : Option String)
    (kmsKey : Option Nat) : Bool :=
  db.xformKeys.any fun link =>
    link.xform = xform && some link.version = version && kmsKey.all (link.kmsKey = ·)

/-- `xform.kms_keys.create(version=version, kms_key=kms_key, encrypted_by=encrypted_by)`. The
form, the key and the version are unique together. -/
def createXFormKey (db : KmsDatabase Xls) (link : XFormKey) :
    Except KmsError (KmsDatabase Xls) := do
  ensure (db.hasKey link.xform (some link.version) (some link.kmsKey) = false)
    (.integrityError "xform_id, kms_key_id, version")
  return { db with xformKeys := db.xformKeys ++ [link] }

/-- `create_xform_version`. The form and the version are unique together, and the error of a
second row is caught. A row without a version is refused as well. -/
def createXFormVersion (db : KmsDatabase Xls) (row : XFormVersion Xls) : KmsDatabase Xls :=
  if row.version = none ∨
      (db.versions.any fun old => old.xform = row.xform && old.version = row.version) then db
  else { db with versions := db.versions ++ [row] }

/-- `XForm.objects.filter(pk__in=kms_key.xforms.values_list("xform_id"))`. The default manager
has the deleted forms too. -/
def formsOfKey (db : KmsDatabase Xls) (kmsKey : Nat) : List (Nat × EncryptedForm Xls) :=
  db.xforms.rows.filter fun item =>
    db.xformKeys.any fun link => link.kmsKey = kmsKey && link.xform = item.1

/-- `KMSKey.objects.filter(object_id=org.pk, is_active=True).first()`. -/
def activeKey (db : KmsDatabase Xls) (organization : Nat) : Option (Nat × KMSKey) :=
  db.kmsKeys.rows.find? fun item => item.2.objectId = organization && item.2.isActive

/-- `XFormKey.objects.get(version=version, xform=xform)`. -/
def getXFormKey (db : KmsDatabase Xls) (xform : Nat) (version : Option String) :
    Except GetError XFormKey :=
  objectsGet db.xformKeys fun link => link.xform = xform && some link.version = version

end KmsDatabase

end Onadata
