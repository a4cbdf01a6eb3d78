import Onadata.Lib.Table
import Onadata.Libs.Utils.ModelTools

/-!
# `Onadata.Apps.Logger.Models.DecryptedCount`: the number of decrypted submissions

What the operations on the encrypted submissions of one managed form do to
`XForm.num_of_decrypted_submissions`: `Instance.save`, `set_deleted` and `delete` with the
signal handlers of `apps/logger/models/instance.py`, `_edit_instance` of
`libs/utils/logger_tools.py`, and `decrypt_instance` of `libs/kms/tools.py` when it succeeds.

A submission that `decrypt_instance` refuses keeps its row but for the recorded error. A
decrypted XML is not marked as encrypted.

Left out: the files, the permissions, and the columns that no modelled function reads.
-/

set_option autoImplicit false

namespace Onadata

open Onadata.Lib (Table)

/-- A row of `Instance`. `xmlEncrypted` is `check_encrypted()`, the attribute of the XML, and
`submissionHistory` the number of rows of `submission_history`. -/
structure EncryptedRow where
  xmlEncrypted : Bool
  isEncrypted : Bool := false
  submissionHistory : Nat := 0
  deletedAt : Option Int := none
  deriving DecidableEq, Repr

/-- `_set_encryption_status`. -/
def EncryptedRow.setEncryptionStatus (row : EncryptedRow) : EncryptedRow :=
  { row with isEncrypted := row.xmlEncrypted }

/-- A managed form with its submissions and the counter of `num_of_decrypted_submissions`. -/
structure DecryptedForm where
  pk : Nat
  instances : Table EncryptedRow := {}
  counter : CounterTasks

namespace DecryptedForm

/-- `live_num_of_decrypted_submissions`. -/
def liveNumOfDecryptedSubmissions (s : DecryptedForm) : Int :=
  s.counter.liveNumber s.pk

/-- The count of `update_num_of_decrypted_submissions`. -/
def recount (s : DecryptedForm) : Nat :=
  s.instances.count fun row => row.deletedAt.isNone && !row.isEncrypted

/-- `_decr_xform_num_of_decrypted_submissions`. -/
def decrXFormNumOfDecryptedSubmissions (s : DecryptedForm) : DecryptedForm :=
  { s with counter := s.counter.delay s.pk (-1) }

/-- `decr_xform_num_of_decrypted_submissions_on_soft_delete`, before the row is written. -/
def decrDecryptedOnSoftDelete (s : DecryptedForm) (pk : Nat) (row : EncryptedRow) :
    DecryptedForm :=
  if row.deletedAt = none then s
  else
    match s.instances.get? pk with
    | none => s
    | some oldInstance =>
        if oldInstance.deletedAt = none then s.decrXFormNumOfDecryptedSubmissions else s

/-- `Instance.save` of a new submission. -/
def create (s : DecryptedForm) (row : EncryptedRow) : DecryptedForm :=
  { s with instances := s.instances.create row.setEncryptionStatus }

/-- `Instance.save` of a stored submission. -/
def save (s : DecryptedForm) (pk : Nat) (row : EncryptedRow) : DecryptedForm :=
  let row := row.setEncryptionStatus
  let s := s.decrDecryptedOnSoftDelete pk row
  { s with instances := s.instances.save pk row }

/-- `_edit_instance` with an encrypted XML. -/
def editInstance (s : DecryptedForm) (pk : Nat) (row : EncryptedRow) : DecryptedForm :=
  s.save pk { row with submissionHistory := row.submissionHistory + 1, xmlEncrypted := true }

/-- `decrypt_instance`, when it succeeds: the history tells if the submission was edited. -/
def decryptInstance (s : DecryptedForm) (pk : Nat) (row : EncryptedRow) : DecryptedForm :=
  let isEdit := row.submissionHistory ≠ 0
  let s := s.save pk
    { row with submissionHistory := row.submissionHistory + 1, xmlEncrypted := false }
  if isEdit then s else { s with counter := s.counter.delay s.pk 1 }

/-- `Instance.set_deleted`. -/
def setDeleted (s : DecryptedForm) (pk : Nat) (row : EncryptedRow) (deletedAt : Int) :
    DecryptedForm :=
  s.save pk { row with deletedAt := some deletedAt }

/-- `Instance.delete`, with `decr_xform_num_of_decrypted_submissions_on_hard_delete`. -/
def delete (s : DecryptedForm) (pk : Nat) : DecryptedForm :=
  { s with instances := s.instances.delete pk }.decrXFormNumOfDecryptedSubmissions

end DecryptedForm

/-- The operations on the submissions, and what a worker does. -/
inductive DecryptedOp
  | create
  | edit (pk : Nat)
  | decrypt (pk : Nat)
  | setDeleted (pk : Nat) (deletedAt : Int)
  | delete (pk : Nat)
  | worker (op : CounterTaskOp)
  deriving DecidableEq, Repr

/-- An operation on a submission that is there. `decrypt_instance` refuses a submission whose
XML is not encrypted. -/
def DecryptedStep (s : DecryptedForm) : DecryptedOp → DecryptedForm → Prop
  | .create, s' => s' = s.create { xmlEncrypted := true }
  | .edit pk, s' => ∃ row, s.instances.get? pk = some row ∧ s' = s.editInstance pk row
  | .decrypt pk, s' =>
      ∃ row, s.instances.get? pk = some row ∧
        s' = if row.xmlEncrypted then s.decryptInstance pk row else s
  | .setDeleted pk deletedAt, s' =>
      ∃ row, s.instances.get? pk = some row ∧ s' = s.setDeleted pk row deletedAt
  | .delete pk, s' => ∃ row, s.instances.get? pk = some row ∧ s' = s.delete pk
  | .worker op, s' =>
      s.counter.Step op s'.counter ∧ s'.pk = s.pk ∧ s'.instances = s.instances

end Onadata
