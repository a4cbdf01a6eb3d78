import Onadata.Lib.ExceptList
import Onadata.Libs.Kms.DecryptInstance

/-!
# `Onadata.Proofs.Libs.Kms.DecryptAtomic`: a submission is decrypted as a whole or not at all

`saveInstance_eq_ok` and `saveMediaFile_eq_ok` state what a round of the loop over the decrypted
files writes. `Saved` is the invariant of the loop: the attachments are the old ones and one for
each media file, the submission has the XML of the last file with its name, and the history is as
it was. `saved_forM` carries it through the loop, in whatever order the files come.

A failure inside the transaction brings the rows back, wherever it comes from. What is written
outside of it is the error alone (`unchanged_saveDecryptionError`).
-/

set_option autoImplicit false

namespace Onadata

open Onadata.Lib
open Onadata.Lib.DbAction

/-- The rows and the instance object. -/
abbrev DecryptSession : Type := Session DecryptDatabase DecryptMemory

variable {services : DecryptServices} {s s' : DecryptSession}

/-! ### A round of the loop -/

theorem setRow_eq_ok {f : ManagedSubmission → ManagedSubmission} {u : Unit} :
    setRow f s = .ok u s' ↔
      { s with memory := { s.memory with
        object := { s.memory.object with row := f s.memory.object.row } } } = s' := by
  simp [setRow]

theorem getObject_eq_ok {object : InstanceObject} :
    getObject s = .ok object s' ↔ s.memory.object = object ∧ s = s' := by
  show EStateM.Result.ok s.memory.object s = .ok object s' ↔ _
  simp

@[simp]
theorem withEncryptionStatus_xml (managed : Bool) (row : ManagedSubmission) :
    (withEncryptionStatus services managed row).xml = row.xml := by
  unfold withEncryptionStatus
  split
  · split <;> rfl
  · rfl

@[simp]
theorem withEncryptionStatus_checksum (managed : Bool) (row : ManagedSubmission) :
    (withEncryptionStatus services managed row).checksum = row.checksum := by
  unfold withEncryptionStatus
  split
  · split <;> rfl
  · rfl

/-- `save_full_json` writes the JSON of the instance. -/
theorem saveFullJson_eq_ok {u : Unit} (h : saveFullJson services s = .ok u s') :
    ∃ json, s' = { s with db := { s.db with
      submissions := s.db.submissions.modify (fun item => item.1 = s.memory.object.pk)
        fun row => { row with json := json } } } := by
  unfold saveFullJson at h
  simp only [seq_eq_ok, getObject_eq_ok, getDb_eq_ok, attempt_eq_ok, write_eq_ok] at h
  obtain ⟨_, _, ⟨rfl, rfl⟩, _, _, ⟨rfl, rfl⟩, _, _, ⟨-, rfl⟩, -, rfl⟩ := h
  exact ⟨_, rfl⟩

/-- `instance.save` writes the row of the instance, with the XML and the checksum of the object. -/
theorem saveInstance_eq_ok {u : Unit} (h : saveInstance services s = .ok u s') :
    ∃ row json, row.xml = s.memory.object.row.xml ∧
      row.checksum = s.memory.object.row.checksum ∧
      s'.db = { s.db with
        submissions := (s.db.submissions.save s.memory.object.pk row).modify
          (fun item => item.1 = s.memory.object.pk) fun row => { row with json := json } } ∧
      s'.memory.decryptedAttachmentIds = s.memory.decryptedAttachmentIds ∧
      s'.memory.object.pk = s.memory.object.pk := by
  unfold saveInstance setParser at h
  simp only [seq_eq_ok, getObject_eq_ok, getDb_eq_ok, getMemory_eq_ok, setMemory_eq_ok,
    setRow_eq_ok, attempt_eq_ok, write_eq_ok, return_eq_ok] at h
  obtain ⟨_, _, ⟨rfl, rfl⟩, _, _, rfl, parsed, _, hparser, h⟩ := h
  obtain ⟨_, _, ⟨rfl, rfl⟩, _, _, ⟨-, rfl⟩, _, _, rfl, rfl, rfl⟩ := hparser
  obtain ⟨_, _, ⟨rfl, rfl⟩, form, _, ⟨-, rfl⟩, _, _, rfl, _, _, ⟨-, rfl⟩, h⟩ := h
  obtain ⟨_, _, rfl, _, _, rfl, _, _, rfl, _, _, ⟨rfl, rfl⟩, _, _, ⟨-, rfl⟩, h⟩ := h
  obtain ⟨_, _, hjson, _, _, ⟨rfl, rfl⟩, -, rfl⟩ := h
  obtain ⟨json, rfl⟩ := saveFullJson_eq_ok hjson
  refine ⟨_, json, ?_, ?_, rfl, rfl, rfl⟩
  · exact withEncryptionStatus_xml _ _
  · exact withEncryptionStatus_checksum _ _

/-- The decrypted submission is written with its checksum. -/
theorem saveDecryptedXml_eq_ok {content : ByteArray} {u : Unit}
    (h : saveDecryptedXml services content s = .ok u s') :
    ∃ row json, decodeXml content = .ok row.xml ∧
      row.checksum = some (services.sha256 content) ∧
      s'.db = { s.db with
        submissions := (s.db.submissions.save s.memory.object.pk row).modify
          (fun item => item.1 = s.memory.object.pk) fun row => { row with json := json } } ∧
      s'.memory.decryptedAttachmentIds = s.memory.decryptedAttachmentIds ∧
      s'.memory.object.pk = s.memory.object.pk := by
  unfold saveDecryptedXml at h
  simp only [seq_eq_ok, attempt_eq_ok, setRow_eq_ok] at h
  obtain ⟨xml, _, ⟨hxml, rfl⟩, _, _, rfl, hsave⟩ := h
  obtain ⟨row, json, hrow, hchecksum, hs'⟩ := saveInstance_eq_ok hsave
  exact ⟨row, json, hrow ▸ hxml, hchecksum, hs'⟩

/-- A media file is written as a new attachment, whose key is remembered. -/
theorem saveMediaFile_eq_ok {originalName : String} {content : ByteArray} {u : Unit}
    (h : saveMediaFile services originalName content s = .ok u s') :
    ∃ storedName,
      s'.db = { s.db with
        attachments := s.db.attachments.create
          (mediaAttachment services s.memory.object originalName content storedName) } ∧
      s'.memory = { s.memory with
        decryptedAttachmentIds :=
          s.memory.decryptedAttachmentIds ++ [s.db.attachments.nextPk] } := by
  unfold saveMediaFile at h
  simp only [seq_eq_ok, getObject_eq_ok, getDb_eq_ok, getMemory_eq_ok, setMemory_eq_ok,
    attempt_eq_ok, write_eq_ok] at h
  obtain ⟨_, _, ⟨rfl, rfl⟩, _, _, ⟨-, rfl⟩, _, _, ⟨rfl, rfl⟩, storedName, _, ⟨-, rfl⟩, h⟩ := h
  obtain ⟨_, _, ⟨-, rfl⟩, _, _, ⟨rfl, rfl⟩, rfl⟩ := h
  exact ⟨storedName, rfl, rfl⟩

/-! ### The loop -/

/-- The decrypted files that hold the submission. -/
def submissionFiles (files : List (String × ByteArray)) : List (String × ByteArray) :=
  files.filter fun file => isSubmissionXml file.1

/-- The decrypted media files. -/
def mediaFiles (files : List (String × ByteArray)) : List (String × ByteArray) :=
  files.filter fun file => !isSubmissionXml file.1

/-- The row of the instance has the decrypted XML and its checksum. -/
def HasDecryptedXml (services : DecryptServices) (db : DecryptDatabase) (pk : Nat)
    (content : ByteArray) : Prop :=
  ∃ row, db.submissions.get? pk = some row ∧ decodeXml content = .ok row.xml ∧
    row.checksum = some (services.sha256 content)

/-- The name and the content of an attachment are those of a file. -/
def namedFile (item : Nat × SubmissionAttachment) : Option String × ByteArray :=
  (item.2.name, item.2.mediaFile.content)

/-- What the loop has written after some of the files. `added` are the new attachments. -/
structure Saved (services : DecryptServices) (s : DecryptSession)
    (files : List (String × ByteArray)) (s' : DecryptSession) : Prop where
  pk : s'.memory.object.pk = s.memory.object.pk
  histories : s'.db.histories = s.db.histories
  attachments : ∃ added, s'.db.attachments.rows = s.db.attachments.rows ++ added ∧
    s'.memory.decryptedAttachmentIds = added.map Prod.fst ∧
    added.map namedFile = (mediaFiles files).map (fun file => (some file.1, file.2)) ∧
    ∀ item ∈ added, item.2.«instance» = s.memory.object.pk ∧ item.2.deletedAt = none
  present : ∃ row, s'.db.submissions.get? s.memory.object.pk = some row
  xml : ∀ file, (submissionFiles files).getLast? = some file →
    HasDecryptedXml services s'.db s.memory.object.pk file.2

/-- Nothing is written before the first file. -/
theorem saved_nil (hrow : s.db.submissions.get? s.memory.object.pk = some s.memory.object.row)
    (hids : s.memory.decryptedAttachmentIds = []) : Saved services s [] s where
  pk := rfl
  histories := rfl
  attachments := ⟨[], (List.append_nil _).symm, hids, rfl, fun _ h => absurd h List.not_mem_nil⟩
  present := ⟨_, hrow⟩
  xml := fun _ h => by cases h

/-- The row that a save writes, with its JSON. -/
theorem get?_save_modify {t : Table ManagedSubmission} {pk : Nat} {old : ManagedSubmission}
    (hold : t.get? pk = some old) (row : ManagedSubmission) (json : List (String × PyValue)) :
    ((t.save pk row).modify (fun item => item.1 = pk) fun row =>
      { row with json := json }).get? pk = some { row with json := json } := by
  rw [Table.get?_modify, Table.get?_save t hold, if_pos rfl]
  simp

/-- The submission keeps what the loop has written before. -/
theorem Saved.saveDecryptedXml {done : List (String × ByteArray)} {file : String × ByteArray}
    {mid : DecryptSession} {u : Unit} (hdone : Saved services s done mid)
    (hfile : isSubmissionXml file.1 = true)
    (h : saveDecryptedXml services file.2 mid = .ok u s') :
    Saved services s (done ++ [file]) s' := by
  obtain ⟨row, json, hxml, hchecksum, hdb, hids, hpk⟩ := saveDecryptedXml_eq_ok h
  obtain ⟨old, hold⟩ := hdone.present
  have hget : s'.db.submissions.get? s.memory.object.pk = some { row with json := json } := by
    rw [hdb, hdone.pk]
    exact get?_save_modify hold row json
  have hmedia : mediaFiles (done ++ [file]) = mediaFiles done := by
    unfold mediaFiles
    rw [List.filter_append, List.filter_singleton, hfile]
    exact List.append_nil _
  refine ⟨hpk.trans hdone.pk, ?_, ?_, ⟨_, hget⟩, fun last hlast => ?_⟩
  · rw [hdb]
    exact hdone.histories
  · rw [hdb, hids, hmedia]
    exact hdone.attachments
  · have hsubmission : submissionFiles (done ++ [file]) = submissionFiles done ++ [file] := by
      unfold submissionFiles
      rw [List.filter_append, List.filter_singleton, hfile]
      rfl
    rw [hsubmission, List.getLast?_append, List.getLast?_singleton] at hlast
    obtain rfl : file = last := Option.some_inj.mp hlast
    exact ⟨_, hget, hxml, hchecksum⟩

/-- The attachments keep what the loop has written before. -/
theorem Saved.saveMediaFile {done : List (String × ByteArray)} {file : String × ByteArray}
    {mid : DecryptSession} {u : Unit} (hdone : Saved services s done mid)
    (hfile : ¬ isSubmissionXml file.1 = true)
    (h : saveMediaFile services file.1 file.2 mid = .ok u s') :
    Saved services s (done ++ [file]) s' := by
  obtain ⟨storedName, hdb, hmemory⟩ := saveMediaFile_eq_ok h
  have hfile : isSubmissionXml file.1 = false := Bool.not_eq_true _ ▸ hfile
  have hsubmission : submissionFiles (done ++ [file]) = submissionFiles done := by
    unfold submissionFiles
    rw [List.filter_append, List.filter_singleton, hfile]
    exact List.append_nil _
  refine ⟨?_, ?_, ?_, ?_, ?_⟩
  · rw [hmemory]
    exact hdone.pk
  · rw [hdb]
    exact hdone.histories
  · obtain ⟨added, hrows, hids, hnames, hadded⟩ := hdone.attachments
    have hmedia : mediaFiles (done ++ [file]) = mediaFiles done ++ [file] := by
      unfold mediaFiles
      rw [List.filter_append, List.filter_singleton, hfile]
      rfl
    refine ⟨added ++ [(mid.db.attachments.nextPk,
      mediaAttachment services mid.memory.object file.1 file.2 storedName)], ?_, ?_, ?_, ?_⟩
    · rw [hdb, ← List.append_assoc, ← hrows]
      rfl
    · rw [hmemory, List.map_append, ← hids]
      rfl
    · rw [hmedia, List.map_append, List.map_append, hnames]
      rfl
    · intro item hitem
      rcases List.mem_append.mp hitem with hitem | hitem
      · exact hadded item hitem
      · rw [List.mem_singleton.mp hitem]
        exact ⟨hdone.pk, rfl⟩
  · rw [hdb]
    exact hdone.present
  · rw [hsubmission, hdb]
    exact hdone.xml

/-- The loop writes the decrypted files, in whatever order they come. -/
theorem saved_forM {files : List (String × ByteArray)} {u : PUnit}
    (hrow : s.db.submissions.get? s.memory.object.pk = some s.memory.object.row)
    (hids : s.memory.decryptedAttachmentIds = [])
    (h : files.forM (saveDecryptedFile services) s = .ok u s') : Saved services s files s' := by
  show Saved services s ([] ++ files) s'
  refine forM_rule (Saved services s) ?_ (saved_nil hrow hids) h
  intro done file mid mid' hdone hfile
  unfold saveDecryptedFile at hfile
  split at hfile
  · rename_i hname
    exact hdone.saveDecryptedXml hname hfile
  · rename_i hname
    exact hdone.saveMediaFile hname hfile

/-! ### The results -/

/-- A row without what a recorded error changes. -/
def withoutError (row : ManagedSubmission) : ManagedSubmission :=
  { row with json := [], decryptionStatus := .failed }

/-- The submissions are as they were, apart from a recorded error and the status, and the
attachments and the history are as they were. -/
structure Unchanged (db db' : DecryptDatabase) : Prop where
  attachments : db'.attachments = db.attachments
  histories : db'.histories = db.histories
  submissions : ∀ pk, (db'.submissions.get? pk).map withoutError =
    (db.submissions.get? pk).map withoutError

/-- The submission has been replaced with the decrypted files. -/
structure Decrypted (services : DecryptServices) (s : DecryptSession)
    (files : List (String × ByteArray)) (db' : DecryptDatabase) : Prop where
  xml : ∃ file, (submissionFiles files).getLast? = some file ∧
    HasDecryptedXml services db' s.memory.object.pk file.2
  histories : db'.histories.rows =
    s.db.histories.rows ++ [(s.db.histories.nextPk, encryptedHistory s.memory.object)]
  attachments : (liveAttachments db' s.memory.object.pk).map namedFile =
    (mediaFiles files).map fun file => (some file.1, file.2)

theorem Unchanged.refl (db : DecryptDatabase) : Unchanged db db where
  attachments := rfl
  histories := rfl
  submissions := fun _ => rfl

/-- To record an error changes nothing else. -/
theorem unchanged_saveDecryptionError (code : DecryptionFailureCode) (s : DecryptSession) :
    Unchanged s.db (finalState (saveDecryptionError services code s)).db := by
  show Unchanged s.db
    (finalState (write services.refuses (withDecryptionError s.memory.object code) s)).db
  rcases finalState_write services.refuses (withDecryptionError s.memory.object code) s with h | h
  · rw [h]
    exact .refl _
  · rw [h]
    refine ⟨rfl, rfl, fun pk => ?_⟩
    show ((s.db.submissions.modify _ _).get? pk).map withoutError = _
    rw [Table.get?_modify, Option.map_map]
    congr 1
    funext row
    show withoutError (if _ then _ else row) = withoutError row
    split <;> rfl

/-- A failure after a computation leaves its state. -/
theorem finalState_bind_raise {A : Type} (action : DecryptAction Unit) (failure : DecryptFailure)
    (s : DecryptSession) :
    finalState ((action >>= fun _ => (raise failure : DecryptAction A)) s) =
      finalState (action s) := by
  show finalState (EStateM.bind action _ s) = _
  unfold EStateM.bind
  cases action s <;> rfl

theorem unchanged_failWith (code : DecryptionFailureCode) (failure : String → DecryptFailure)
    (s : DecryptSession) :
    Unchanged s.db (finalState (failWith services code failure s)).db := by
  unfold failWith
  rw [finalState_bind_raise]
  exact unchanged_saveDecryptionError code s

/-- A recorded error leaves the decrypted submission as it is. -/
theorem Decrypted.unchanged {files : List (String × ByteArray)} {db db' : DecryptDatabase}
    (h : Decrypted services s files db) (hunchanged : Unchanged db db') :
    Decrypted services s files db' := by
  obtain ⟨file, hfile, row, hrow, hxml, hchecksum⟩ := h.xml
  have hsubmission := hunchanged.submissions s.memory.object.pk
  rw [hrow] at hsubmission
  obtain ⟨row', hrow', heq⟩ := Option.map_eq_some_iff.mp hsubmission
  have hxml' : (withoutError row').xml = (withoutError row).xml :=
    congrArg ManagedSubmission.xml heq
  have hchecksum' : (withoutError row').checksum = (withoutError row).checksum :=
    congrArg ManagedSubmission.checksum heq
  refine ⟨⟨file, hfile, row', hrow', ?_, hchecksum'.trans hchecksum⟩, ?_, ?_⟩
  · exact hxml.trans (congrArg Except.ok hxml'.symm)
  · rw [hunchanged.histories]
    exact h.histories
  · unfold liveAttachments
    rw [hunchanged.attachments]
    exact h.attachments

/-- After the old attachments are deleted, the new ones are the live ones. -/
theorem liveAttachments_softDelete {db : DecryptDatabase} {pk : Nat}
    {old added : List (Nat × SubmissionAttachment)} (hrows : db.attachments.rows = old ++ added)
    (hadded : ∀ item ∈ added, item.2.«instance» = pk ∧ item.2.deletedAt = none) :
    liveAttachments (softDeleteEncrypted services pk (added.map Prod.fst) db) pk = added := by
  have hnodup := db.attachments.nodup
  rw [hrows, Dict.keys_append, List.nodup_append] at hnodup
  unfold liveAttachments softDeleteEncrypted Table.modify
  show ((db.attachments.rows.map _).filter _) = added
  rw [hrows, List.map_append, List.filter_append]
  have hold : (old.map fun item : Nat × SubmissionAttachment => (item.1,
      if item.2.«instance» = pk && item.2.deletedAt = none &&
        !(added.map Prod.fst).contains item.1 then
        { item.2 with deletedAt := some (services.now db) } else item.2)).filter
      (fun item => item.2.«instance» = pk && item.2.deletedAt = none) = [] := by
    rw [List.filter_eq_nil_iff]
    intro item hitem
    obtain ⟨row, hrow, rfl⟩ := List.mem_map.mp hitem
    have hkey : (added.map Prod.fst).contains row.1 = false := by
      rw [List.contains_eq_mem, decide_eq_false_iff_not]
      intro hmem
      exact hnodup.2.2 row.1 (List.mem_map_of_mem hrow) row.1 hmem rfl
    rw [hkey]
    by_cases hlive : row.2.«instance» = pk ∧ row.2.deletedAt = none
    · simp [hlive.1, hlive.2]
    · simp only [Bool.not_false, Bool.and_true]
      rw [if_neg (by simpa using hlive)]
      simpa using hlive
  have hnew : (added.map fun item : Nat × SubmissionAttachment => (item.1,
      if item.2.«instance» = pk && item.2.deletedAt = none &&
        !(added.map Prod.fst).contains item.1 then
        { item.2 with deletedAt := some (services.now db) } else item.2)) = added := by
    refine (List.map_congr_left fun item hitem => ?_).trans (List.map_id added)
    have hkey : (added.map Prod.fst).contains item.1 = true := by
      rw [List.contains_eq_mem, decide_eq_true_eq]
      exact List.mem_map_of_mem hitem
    rw [hkey]
    simp
  rw [hold, hnew, List.nil_append, List.filter_eq_self]
  intro item hitem
  simp [hadded item hitem]

/-- A transaction that is committed has replaced the submission. -/
theorem decrypted_of_replaceSubmission {decryptedFiles : DecryptedFiles} {u : Unit}
    (hrow : s.db.submissions.get? s.memory.object.pk = some s.memory.object.row)
    (hids : s.memory.decryptedAttachmentIds = [])
    (hsubmission : decryptedFiles.failure = none →
      ∃ file ∈ decryptedFiles.files, isSubmissionXml file.1 = true)
    (h : replaceSubmission services (encryptedHistory s.memory.object) decryptedFiles s =
      .ok u s') :
    decryptedFiles.failure = none ∧ Decrypted services s decryptedFiles.files s'.db := by
  unfold replaceSubmission at h
  obtain ⟨h, -⟩ := atomic_eq_ok.mp h
  simp only [seq_eq_ok, attempt_eq_ok, write_eq_ok, getMemory_eq_ok] at h
  obtain ⟨_, mid, hfiles, _, _, ⟨hfailure, rfl⟩, _, _, ⟨-, rfl⟩, _, _, ⟨rfl, rfl⟩, -, rfl⟩ := h
  have hsaved := saved_forM hrow hids hfiles
  have hnone : decryptedFiles.failure = none := by
    split at hfailure
    · assumption
    · cases hfailure
  obtain ⟨added, hrows, hkeys, hnames, hadded⟩ := hsaved.attachments
  obtain ⟨file, hfile, hname⟩ := hsubmission hnone
  have hmem : file ∈ submissionFiles decryptedFiles.files := List.mem_filter.mpr ⟨hfile, hname⟩
  refine ⟨hnone, ?_, ?_, ?_⟩
  · have hlast := List.getLast?_eq_some_getLast (List.ne_nil_of_mem hmem)
    exact ⟨_, hlast, hsaved.xml _ hlast⟩
  · show mid.db.histories.rows ++ [(mid.db.histories.nextPk, _)] = _
    rw [hsaved.histories]
  · show (liveAttachments (softDeleteEncrypted services mid.memory.object.pk
      mid.memory.decryptedAttachmentIds _) _).map namedFile = _
    rw [hsaved.pk, hkeys, liveAttachments_softDelete (by exact hrows) hadded]
    exact hnames

/-- What is done about a failure of the transaction changes no more than the recorded error. -/
theorem unchanged_recordInvalidSubmission (failure : DecryptFailure) (s : DecryptSession) :
    Unchanged s.db (finalState (recordInvalidSubmission services failure s)).db := by
  cases failure with
  | invalidSubmissionException message =>
      show Unchanged s.db (finalState ((saveDecryptionError services .invalidSubmission >>=
        fun _ => raise (.decryptionError message)) s)).db
      rw [finalState_bind_raise]
      exact unchanged_saveDecryptionError .invalidSubmission s
  | decryptionError message => exact .refl _
  | notAllMediaReceivedError message => exact .refl _
  | other name => exact .refl _

/-- The last part of the decryption replaces the submission, or leaves it as it was. -/
theorem replaceWithDecrypted_result {decryptedFiles : DecryptedFiles} {isEdit : Bool}
    (hrow : s.db.submissions.get? s.memory.object.pk = some s.memory.object.row)
    (hids : s.memory.decryptedAttachmentIds = [])
    (hsubmission : decryptedFiles.failure = none →
      ∃ file ∈ decryptedFiles.files, isSubmissionXml file.1 = true) :
    let result := finalState (replaceWithDecrypted services isEdit
      (encryptedHistory s.memory.object) decryptedFiles s)
    (decryptedFiles.failure = none ∧ Decrypted services s decryptedFiles.files result.db) ∨
      Unchanged s.db result.db := by
  unfold replaceWithDecrypted
  refine finalState_tryCatch (P := fun result => (decryptedFiles.failure = none ∧
    Decrypted services s decryptedFiles.files result.db) ∨ Unchanged s.db result.db) ?_ ?_
  · intro _ mid hmid
    obtain ⟨_, committed, hcommitted, htask⟩ := seq_eq_ok.mp hmid
    obtain ⟨-, rfl⟩ := attempt_eq_ok.mp htask
    exact .inl (decrypted_of_replaceSubmission hrow hids hsubmission hcommitted)
  · intro failure mid hmid
    have hhandler := @unchanged_recordInvalidSubmission services failure mid
    rcases seq_eq_error.mp hmid with hfailed | ⟨_, committed, hcommitted, htask⟩
    · -- The transaction brought the rows back.
      rw [db_of_atomic_eq_error hfailed] at hhandler
      exact .inr hhandler
    · -- The task was not sent, after the commit.
      obtain ⟨-, rfl⟩ := attempt_eq_error.mp htask
      obtain ⟨hnone, hdecrypted⟩ :=
        decrypted_of_replaceSubmission hrow hids hsubmission hcommitted
      exact .inl ⟨hnone, hdecrypted.unchanged hhandler⟩

/-- What `decrypt_submission` promises: an iterator that ends without an error has given the
submission. -/
def YieldsSubmission (services : DecryptServices) : Prop :=
  ∀ keyId xml encFiles decryptedFiles,
    services.decryptSubmission keyId xml encFiles = .ok decryptedFiles →
      decryptedFiles.failure = none →
        ∃ file ∈ decryptedFiles.files, isSubmissionXml file.1 = true

/-- The rows have the decrypted XML, one more history row with the encrypted one and the decrypted
media as live attachments, or they are as they were, apart from a recorded error. -/
def DecryptedOrUnchanged (services : DecryptServices) (s : DecryptSession)
    (db' : DecryptDatabase) : Prop :=
  (∃ kmsKey decryptedFiles, decryptFiles services s.db s.memory.object kmsKey =
      .ok decryptedFiles ∧ decryptedFiles.failure = none ∧
      Decrypted services s decryptedFiles.files db') ∨
    Unchanged s.db db'

section
variable (hyields : YieldsSubmission services)
  (hrow : s.db.submissions.get? s.memory.object.pk = some s.memory.object.row)
  (hids : s.memory.decryptedAttachmentIds = [])
include hyields hrow hids

theorem decryptWithKey_result (xformKey : XFormKey) :
    DecryptedOrUnchanged services s
      (finalState (decryptWithKey services s.db s.memory.object xformKey s)).db := by
  unfold decryptWithKey
  cases s.db.kmsKeys.get? xformKey.kmsKey with
  | none => exact .inr (.refl _)
  | some kmsKey =>
      by_cases hdisabled : kmsKey.disabledAt ≠ none
      · simp only [if_pos hdisabled]
        exact .inr (unchanged_failWith _ _ s)
      by_cases hmedia : s.memory.object.row.mediaAllReceived ≠ some true
      · simp only [if_neg hdisabled, if_pos hmedia]
        exact .inr (unchanged_failWith _ _ s)
      simp only [if_neg hdisabled, if_neg hmedia]
      refine finalState_attempt_bind (P := fun result => DecryptedOrUnchanged services s result.db)
        (fun _ _ => .inr (.refl _)) fun decryptedFiles hfiles => ?_
      obtain ⟨encFiles, hcall⟩ : ∃ encFiles, services.decryptSubmission kmsKey.keyId
          s.memory.object.row.xml.toUTF8 encFiles = .ok decryptedFiles := by
        simp only [decryptFiles, bind_eq_ok] at hfiles
        obtain ⟨_, _, encFiles, _, hcall⟩ := hfiles
        exact ⟨encFiles, hcall⟩
      rcases replaceWithDecrypted_result hrow hids (hyields _ _ _ _ hcall) with hdone | hsame
      · exact .inl ⟨kmsKey, decryptedFiles, hfiles, hdone⟩
      · exact .inr hsame

theorem decryptManaged_result (form : ManagedForm) :
    DecryptedOrUnchanged services s
      (finalState (decryptManaged services s.db s.memory.object form s)).db := by
  unfold decryptManaged
  by_cases hmanaged : (!isWasManaged s.db s.memory.object.row.xform form) = true
  · simp only [if_pos hmanaged]
    exact .inr (.refl _)
  simp only [if_neg hmanaged]
  cases objectsGet s.db.xformKeys fun link => link.xform = s.memory.object.row.xform &&
      some link.version = s.memory.object.row.version with
  | error failure =>
      cases failure with
      | doesNotExist => exact .inr (unchanged_failWith _ _ s)
      | multipleObjectsReturned => exact .inr (.refl _)
  | ok xformKey => exact decryptWithKey_result hyields hrow hids xformKey

end

/-! ### A submission with a photo -/

def photoFiles : DecryptedFiles where
  files := [("sunset.png", "photo".toUTF8), ("submission.xml", "<data/>".toUTF8)]

/-- Services of which none fails. -/
def photoServices : DecryptServices where
  encryptedAttribute := fun xml => if xml = "<data encrypted=\"yes\"/>" then some "yes" else none
  getKmsClient := .ok ()
  decryptSubmission := fun _ _ _ => .ok photoFiles
  openFile := fun file => .ok file.content
  storeFile := fun _ name _ => .ok ("ona/attachments/1_nature/" ++ name)
  guessType := fun name => if name = "sunset.png" then some "image/png" else none
  sha256 := fun content => if content.data = "<data/>".toUTF8.data
    then "03ee9d54665eba6fffaf320018f2543f589ed601bf03b3088ee1e0e3f5a2e2f8" else ""
  parse := fun _ _ => .ok { version := none, geom := fun _ => none }
  uuid := fun _ => "0001"
  fullJson := fun _ _ => .ok []
  postSave := fun _ => .ok ()
  now := fun _ => { microseconds := 1720000000000005 }
  refuses := fun _ => none
  refusesCommit := fun _ => none
  incrTask := .ok ()

def photoSubmission : ManagedSubmission where
  xform := 0
  xml := "<data encrypted=\"yes\"/>"
  uuid := "0001"
  version := some "1"
  checksum := some "5f55d227b6015af27ad93f9f427cd5c46535feae153505ac03e7577f7dcaf45e"
  dateCreated := { microseconds := 1720000000000001 }
  dateModified := { microseconds := 1720000000000001 }
  isEncrypted := true
  decryptionStatus := .pending

def photoSession : DecryptSession where
  db := {
    xforms := (Table.empty : Table ManagedForm).create { isManaged := true, version := some "1" }
    kmsKeys := (Table.empty : Table KMSKey).create
      { keyId := "k", description := "Key", publicKey := "p", provider := .aws, objectId := 0 }
    xformKeys := [{ xform := 0, kmsKey := 0, version := "1" }]
    submissions := (Table.empty : Table ManagedSubmission).create photoSubmission
    attachments := (Table.empty : Table SubmissionAttachment).create {
      xform := some 0
      «instance» := 0
      mediaFile := { name := "ona/attachments/1_nature/sunset.png.enc", content := "x".toUTF8 }
      mimetype := "application/octet-stream"
      extension := "enc"
      fileSize := 1
      name := some "sunset.png.enc"
      user := none } }
  memory := { object := { pk := 0, row := photoSubmission } }

theorem photoServices_yields : YieldsSubmission photoServices := by
  intro keyId xml encFiles decryptedFiles hcall _
  obtain rfl : photoFiles = decryptedFiles := Except.ok.inj hcall
  exact ⟨("submission.xml", "<data/>".toUTF8), by simp [photoFiles], by decide +kernel⟩

-- The photo is the live attachment of the submission.
example : ((liveAttachments (finalState (decryptInstance photoServices photoSession)).db 0).map
    fun item => item.2.name) = [some "sunset.png"] := by decide +kernel

end Onadata
