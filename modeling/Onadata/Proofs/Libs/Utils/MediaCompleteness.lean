import Mathlib.Data.List.Perm.Basic
import Onadata.Lib.ExceptList
import Onadata.Lib.Run
import Onadata.Libs.Utils.MediaTracking

/-!
# `Onadata.Proofs.Libs.Utils.MediaCompleteness`: when all media are received

`media_all_received` compares the number of expected names with the number of different
expected names among the attachments, the soft-deleted ones included.

* `attachmentsCount_eq_iff`: the two are equal when each expected name is the name of some
  attachment.
* `mediaTracked_apply_iff`: after an operation the flag says whether all media are there,
  unless a soft-deleted attachment stands for a missing one.
* `mediaTracked_run`: the same for runs of operations.
-/

set_option autoImplicit false

namespace Onadata.Proofs

open Onadata.Lib

/-- There is an attachment with the name. -/
def HasRow (attachments : List Attachment) (name : String) : Prop :=
  ∃ attachment ∈ attachments, attachment.name = some name

/-- There is an attachment with the name that is not deleted. -/
def HasLiveRow (attachments : List Attachment) (name : String) : Prop :=
  ∃ attachment ∈ attachments, attachment.name = some name ∧ attachment.deletedAt = none

/-- The flag says that each expected name has a live attachment, and each live attachment an
expected name. -/
def MediaTracked (form : MediaForm) (s : MediaInstance) : Prop :=
  ∃ expected, form.getExpectedMedia s.xml.data = .ok expected ∧
    (s.mediaAllReceived = true ↔
      (∀ name ∈ expected, HasLiveRow s.attachments name) ∧
        ∀ attachment ∈ s.attachments, attachment.deletedAt = none →
          ∃ name ∈ expected, attachment.name = some name)

/-! ### The two counts -/

/-- The expected names are different. -/
theorem nodup_getExpectedMedia {form : MediaForm} {data : List (String × PyValue)}
    {expected : List String} (h : form.getExpectedMedia data = .ok expected) :
    expected.Nodup := by
  simp only [MediaForm.getExpectedMedia, bind_eq_ok, pure_eq_ok] at h
  obtain ⟨_, -, names, -, rfl⟩ := h
  exact names.nodup_dedup

/-- All of different names are among other names when as many of the latter are. -/
theorem length_dedup_filter_eq_iff {names expected : List String} (hnodup : expected.Nodup) :
    ((names.filter (· ∈ expected)).dedup).length = expected.length ↔
      ∀ name ∈ expected, name ∈ names := by
  have hnodup' := (names.filter (· ∈ expected)).nodup_dedup
  have hsub : (names.filter (· ∈ expected)).dedup ⊆ expected := by
    intro name hmem
    simpa using (List.mem_filter.mp (List.mem_dedup.mp hmem)).2
  constructor
  · intro hlength name hmem
    have hperm := (List.subperm_of_subset hnodup' hsub).perm_of_length_le (Nat.le_of_eq hlength.symm)
    exact (List.mem_filter.mp (List.mem_dedup.mp (hperm.mem_iff.mpr hmem))).1
  · intro hall
    have hback : expected ⊆ (names.filter (· ∈ expected)).dedup := by
      intro name hmem
      rw [List.mem_dedup, List.mem_filter]
      exact ⟨hall name hmem, by simpa using hmem⟩
    exact Nat.le_antisymm (List.subperm_of_subset hnodup' hsub).length_le
      (List.subperm_of_subset hnodup hback).length_le

/-- As many different expected names are found as there are when each of them is found. -/
theorem attachmentsCount_eq_iff {expected : List String} (hnodup : expected.Nodup)
    (attachments : List Attachment) :
    attachmentsCount expected attachments = expected.length ↔
      ∀ name ∈ expected, HasRow attachments name := by
  rw [attachmentsCount, length_dedup_filter_eq_iff hnodup]
  refine forall₂_congr fun name _ => ?_
  rw [List.mem_filterMap]
  exact Iff.rfl

/-! ### The saved files -/

/-- The row of a saved file is there, and no other row is new. -/
theorem mem_saveAttachment {form : MediaForm} {s : MediaInstance}
    {attachments attachments' : List Attachment} {file : MediaFile}
    (h : saveAttachment form s attachments file = .ok attachments') (row : Attachment) :
    row ∈ attachments' ↔ row ∈ attachments ∨ row = file.attachment form s.user := by
  rw [saveAttachment] at h
  split at h
  · cases h
  · rw [bind_eq_ok] at h
    obtain ⟨_, -, h⟩ := h
    dsimp only at h
    split at h
    · rename_i hmem
      obtain rfl := Except.ok.inj h
      exact (or_iff_left_of_imp fun heq => heq ▸ hmem).symm
    · split at h
      · cases h
      · obtain rfl := Except.ok.inj h
        rw [List.mem_append, List.mem_singleton]

/-- The rows after all files are saved. -/
theorem mem_saveAttachments_loop {form : MediaForm} {s : MediaInstance} {files : List MediaFile}
    {attachments attachments' : List Attachment}
    (h : files.foldlM (saveAttachment form s) attachments = .ok attachments')
    (row : Attachment) :
    row ∈ attachments' ↔
      row ∈ attachments ∨ ∃ file ∈ files, row = file.attachment form s.user := by
  induction files generalizing attachments with
  | nil =>
      obtain rfl := pure_eq_ok.mp h
      simp
  | cons file rest ih =>
      rw [List.foldlM_cons, bind_eq_ok] at h
      obtain ⟨mid, hfile, hrest⟩ := h
      rw [ih hrest, mem_saveAttachment hfile, List.exists_mem_cons_iff, or_assoc]

/-- A name of the files. -/
def Sent (files : List MediaFile) (name : String) : Prop :=
  ∃ file ∈ files, file.filename = name

/-- A saved file gives its name a row. -/
theorem hasRow_saveAttachments_loop {form : MediaForm} {s : MediaInstance}
    {files : List MediaFile} {attachments attachments' : List Attachment}
    (h : files.foldlM (saveAttachment form s) attachments = .ok attachments') (name : String) :
    HasRow attachments' name ↔ HasRow attachments name ∨ Sent files name := by
  constructor
  · rintro ⟨row, hmem, hname⟩
    rcases (mem_saveAttachments_loop h row).mp hmem with hold | ⟨file, hfile, rfl⟩
    · exact Or.inl ⟨row, hold, hname⟩
    · exact Or.inr ⟨file, hfile, Option.some.inj hname⟩
  · rintro (⟨row, hmem, hname⟩ | ⟨file, hfile, rfl⟩)
    · exact ⟨row, (mem_saveAttachments_loop h row).mpr (Or.inl hmem), hname⟩
    · exact ⟨_, (mem_saveAttachments_loop h _).mpr (Or.inr ⟨file, hfile, rfl⟩), rfl⟩

/-- A saved file gives its name a live row. -/
theorem hasLiveRow_saveAttachments_loop {form : MediaForm} {s : MediaInstance}
    {files : List MediaFile} {attachments attachments' : List Attachment}
    (h : files.foldlM (saveAttachment form s) attachments = .ok attachments') (name : String) :
    HasLiveRow attachments' name ↔ HasLiveRow attachments name ∨ Sent files name := by
  constructor
  · rintro ⟨row, hmem, hname, hlive⟩
    rcases (mem_saveAttachments_loop h row).mp hmem with hold | ⟨file, hfile, rfl⟩
    · exact Or.inl ⟨row, hold, hname, hlive⟩
    · exact Or.inr ⟨file, hfile, Option.some.inj hname⟩
  · rintro (⟨row, hmem, hname, hlive⟩ | ⟨file, hfile, rfl⟩)
    · exact ⟨row, (mem_saveAttachments_loop h row).mpr (Or.inl hmem), hname, hlive⟩
    · exact ⟨_, (mem_saveAttachments_loop h _).mpr (Or.inr ⟨file, hfile, rfl⟩), rfl, rfl⟩

/-! ### The soft deletion of what is not expected -/

/-- The names of the rows stay. -/
theorem hasRow_softDeleteAttachments (now : Int) (expected : List String)
    (attachments : List Attachment) (name : String) :
    HasRow (softDeleteAttachments now expected attachments) name ↔ HasRow attachments name := by
  simp only [HasRow, softDeleteAttachments, List.mem_map, exists_exists_and_eq_and]
  refine exists_congr fun row => and_congr_right fun _ => ?_
  split <;> exact Iff.rfl

/-- A row with an expected name stays live. -/
theorem hasLiveRow_softDeleteAttachments (now : Int) {expected : List String}
    (attachments : List Attachment) {name : String} (hname : name ∈ expected) :
    HasLiveRow (softDeleteAttachments now expected attachments) name ↔
      HasLiveRow attachments name := by
  simp only [HasLiveRow, softDeleteAttachments, List.mem_map, exists_exists_and_eq_and]
  refine exists_congr fun row => and_congr_right fun _ => ?_
  split
  · exact Iff.rfl
  · rename_i hnot
    constructor
    · rintro ⟨-, hlive⟩
      cases hlive
    · rintro ⟨heq, -⟩
      exact absurd (by simp [heq, hname]) hnot

/-- Afterwards the live rows have expected names. -/
theorem expected_of_live_softDeleteAttachments {now : Int} {expected : List String}
    {attachments : List Attachment} {row : Attachment}
    (hmem : row ∈ softDeleteAttachments now expected attachments) (hlive : row.deletedAt = none) :
    ∃ name ∈ expected, row.name = some name := by
  obtain ⟨before, -, rfl⟩ := List.mem_map.mp hmem
  split at hlive
  · rename_i hany
    rw [if_pos hany]
    obtain ⟨name, hname, hexpected⟩ := (Option.any_eq_true _ _).mp hany
    exact ⟨name, by simpa using hexpected, hname⟩
  · cases hlive

/-! ### The operations -/

/-- No soft-deleted attachment stands for a missing one: each expected name with a row has a
live row or is sent, or else some expected name has neither a row nor is sent. -/
def NoStaleRow (form : MediaForm) (s : MediaInstance) (files : List MediaFile) : Prop :=
  ∀ expected, form.getExpectedMedia s.xml.data = .ok expected →
    (∃ name ∈ expected, ¬ HasRow s.attachments name ∧ ¬ Sent files name) ∨
      ∀ name ∈ expected, HasRow s.attachments name →
        HasLiveRow s.attachments name ∨ Sent files name

/-- After files are saved, the flag is right exactly when no soft-deleted attachment stands for
a missing one. -/
theorem mediaTracked_saveAttachments_iff {form : MediaForm} {now : Int} {s s' : MediaInstance}
    {files : List MediaFile} (h : saveAttachments form now s files = .ok s') :
    MediaTracked form s' ↔ NoStaleRow form s files := by
  simp only [saveAttachments, bind_eq_ok, pure_eq_ok] at h
  obtain ⟨attachments, hloop, expected, hmedia, rfl⟩ := h
  have hexpected : form.getExpectedMedia s.xml.data = .ok expected := by
    cases heq : form.getExpectedMedia s.xml.data with
    | error e => simp [heq, Except.mapError] at hmedia
    | ok names => simpa [heq, Except.mapError] using hmedia
  have hflag : (∀ name ∈ expected,
      HasRow (softDeleteAttachments now expected attachments) name) ↔
        ∀ name ∈ expected, HasRow s.attachments name ∨ Sent files name :=
    forall₂_congr fun name _ => (hasRow_softDeleteAttachments now expected attachments name).trans
      (hasRow_saveAttachments_loop hloop name)
  have hlive : (∀ name ∈ expected,
      HasLiveRow (softDeleteAttachments now expected attachments) name) ↔
        ∀ name ∈ expected, HasLiveRow s.attachments name ∨ Sent files name :=
    forall₂_congr fun name hname => (hasLiveRow_softDeleteAttachments now attachments hname).trans
      (hasLiveRow_saveAttachments_loop hloop name)
  have hall : ∀ row ∈ softDeleteAttachments now expected attachments, row.deletedAt = none →
      ∃ name ∈ expected, row.name = some name :=
    fun row => expected_of_live_softDeleteAttachments
  -- live rows are rows, so that only one direction of the flag can fail
  have hrow : ∀ name, HasLiveRow s.attachments name → HasRow s.attachments name := by
    rintro name ⟨row, hmem, hname, -⟩
    exact ⟨row, hmem, hname⟩
  have htracked : MediaTracked form (updateAttachmentTracking expected
      { s with attachments := softDeleteAttachments now expected attachments }) ↔
        ((∀ name ∈ expected, HasRow s.attachments name ∨ Sent files name) →
          ∀ name ∈ expected, HasLiveRow s.attachments name ∨ Sent files name) := by
    simp only [MediaTracked, updateAttachmentTracking, hexpected, Except.ok.injEq,
      exists_eq_left', beq_iff_eq,
      attachmentsCount_eq_iff (nodup_getExpectedMedia hexpected), hflag, hlive]
    constructor
    · exact fun h hrows => (h.mp hrows).1
    · exact fun h => ⟨fun hrows => ⟨h hrows, hall⟩,
        fun hlives name hname => (hlives.1 name hname).imp_left (hrow name)⟩
  rw [htracked, NoStaleRow]
  constructor
  · intro h names hnames
    obtain rfl := Except.ok.inj (hexpected.symm.trans hnames)
    by_cases hmissing : ∃ name ∈ expected, ¬ HasRow s.attachments name ∧ ¬ Sent files name
    · exact Or.inl hmissing
    · refine Or.inr fun name hname _ => h (fun name hname => ?_) name hname
      by_contra hneither
      exact hmissing ⟨name, hname, not_or.mp hneither⟩
  · intro h hrows name hname
    rcases h expected hexpected with ⟨missing, hmem, hneither⟩ | hlives
    · exact absurd (hrows missing hmem) (not_or.mpr hneither)
    · exact (hrows name hname).elim (hlives name hname) Or.inr

/-- The files of an operation. -/
def opFiles : MediaOp → List MediaFile
  | .batch files => files
  | .resend files => files
  | .edit _ files => files

/-- The submission as an operation finds it when it saves its files: an edit has set the new
XML and has deleted all attachments. -/
def beforeFiles (now : Int) (s : MediaInstance) : MediaOp → MediaInstance
  | .batch _ => s
  | .resend _ => s
  | .edit xml _ =>
      if s.xml.uuid = xml.uuid then s
      else
        { s with
            xml := xml
            mediaAllReceived := false
            attachments := s.attachments.map fun attachment =>
              if attachment.deletedAt.isNone then { attachment with deletedAt := some now }
              else attachment }

/-- Every operation ends with `save_attachments`. -/
theorem apply_eq_saveAttachments (form : MediaForm) (now : Int) (s : MediaInstance)
    (op : MediaOp) :
    op.apply form now s = saveAttachments form now (beforeFiles now s op) (opFiles op) := by
  cases op with
  | batch files => rfl
  | resend files => rfl
  | edit xml files =>
      rw [MediaOp.apply, MediaInstance.editInstance, beforeFiles]
      split <;> rfl

/-- After an operation, the flag is right exactly when no soft-deleted attachment stands for a
missing one. -/
theorem mediaTracked_apply_iff {form : MediaForm} {now : Int} {s s' : MediaInstance}
    {op : MediaOp} (h : op.apply form now s = .ok s') :
    MediaTracked form s' ↔ NoStaleRow form (beforeFiles now s op) (opFiles op) := by
  rw [apply_eq_saveAttachments] at h
  exact mediaTracked_saveAttachments_iff h

/-- An operation on a submission at some time. -/
def MediaStep (form : MediaForm) (s : MediaInstance) (label : MediaOp × Int)
    (s' : MediaInstance) : Prop :=
  label.1.apply form label.2 s = .ok s'

/-- The condition of an operation in the state before it. -/
def MeetsNoStaleRow (form : MediaForm) (s : MediaInstance) (label : MediaOp × Int)
    (_ : MediaInstance) : Prop :=
  NoStaleRow form (beforeFiles label.2 s label.1) (opFiles label.1)

/-- In a run in which no soft-deleted attachment ever stands for a missing one, the flag is
right after each operation, whatever the submission was before. -/
theorem mediaTracked_run {form : MediaForm} {s s' : MediaInstance}
    {labels : List (MediaOp × Int)} (hne : labels ≠ [])
    (hrun : Run (Guarded (MediaStep form) (MeetsNoStaleRow form)) s labels s') :
    MediaTracked form s' := by
  cases hrun with
  | nil => exact absurd rfl hne
  | cons hfirst hrest =>
      refine hrest.invariant (MediaTracked form) ?_ ((mediaTracked_apply_iff hfirst.1).mpr
        hfirst.2)
      intro _ _ _ _ hstep _
      exact (mediaTracked_apply_iff hstep.1).mpr hstep.2

/-! ### An edit without its file -/

/-- A form with managed keys. -/
def managedForm : MediaForm := { pk := 1, encrypted := true, isWasManaged := true }

/-- An encrypted submission names the file with its content, always the same one. -/
def encryptedXml (uuid : String) : SubmittedXml :=
  ⟨uuid, [("encryptedXmlFile", .str "submission.xml.enc")]⟩

/-- The file with the content. -/
def encryptedFile : MediaFile := ⟨"submission.xml.enc", "application/octet-stream"⟩

/-- The row of the file. -/
def encryptedRow (deletedAt : Option Int) : Attachment :=
  ⟨some "submission.xml.enc", "application/octet-stream", "enc", none, some 1, deletedAt⟩

/-- The submission after it was created, and after its file and its edits came in. -/
def encryptedSubmission (uuid : String) (attachments : List Attachment) : MediaInstance :=
  { xml := encryptedXml uuid
    attachments := attachments
    totalMedia := 1
    mediaCount := 1
    mediaAllReceived := true }

/-- The expected media of the submission. -/
theorem getExpectedMedia_encryptedXml (uuid : String) :
    managedForm.getExpectedMedia (encryptedXml uuid).data = .ok ["submission.xml.enc"] :=
  rfl

/-- The file comes in. -/
theorem batch_encryptedFile :
    MediaStep managedForm { xml := encryptedXml "a" } (.batch [encryptedFile], 10)
      (encryptedSubmission "a" [encryptedRow none]) :=
  rfl

/-- An edit sends its file. -/
theorem edit_encryptedFile :
    MediaStep managedForm (encryptedSubmission "a" [encryptedRow none])
      (.edit (encryptedXml "b") [encryptedFile], 20)
      (encryptedSubmission "b" [encryptedRow (some 20), encryptedRow none]) :=
  rfl

/-- An edit does not send its file. -/
theorem edit_without_encryptedFile :
    MediaStep managedForm (encryptedSubmission "a" [encryptedRow none])
      (.edit (encryptedXml "b") [], 20) (encryptedSubmission "b" [encryptedRow (some 20)]) :=
  rfl

/-- With its file, an edit leaves the flag right. -/
theorem mediaTracked_encrypted :
    MediaTracked managedForm (encryptedSubmission "b" [encryptedRow (some 20), encryptedRow none]) := by
  have hsent : Sent [encryptedFile] "submission.xml.enc" :=
    ⟨encryptedFile, List.mem_cons_self, rfl⟩
  refine mediaTracked_run (List.cons_ne_nil _ _)
    (.cons ⟨batch_encryptedFile, ?_⟩ (.cons ⟨edit_encryptedFile, ?_⟩ (.nil _)))
  · intro expected hexpected
    obtain rfl := Except.ok.inj ((getExpectedMedia_encryptedXml "a").symm.trans hexpected)
    right
    intro name hname _
    obtain rfl := List.mem_singleton.mp hname
    exact Or.inr hsent
  · intro expected hexpected
    obtain rfl := Except.ok.inj ((getExpectedMedia_encryptedXml "b").symm.trans hexpected)
    right
    intro name hname _
    obtain rfl := List.mem_singleton.mp hname
    exact Or.inr hsent

/-- Without its file, an edit leaves the flag set while the only attachment is deleted. -/
theorem not_mediaTracked_encrypted :
    ¬ ∀ (form : MediaForm) (s s' : MediaInstance) (labels : List (MediaOp × Int)),
      labels ≠ [] → Run (MediaStep form) s labels s' → MediaTracked form s' := by
  intro hall
  obtain ⟨expected, hexpected, hflag⟩ := hall managedForm _ _ _ (List.cons_ne_nil _ _)
    (.cons batch_encryptedFile (.cons edit_without_encryptedFile (.nil _)))
  obtain rfl := Except.ok.inj ((getExpectedMedia_encryptedXml "b").symm.trans hexpected)
  obtain ⟨row, hrow, -, hlive⟩ := (hflag.mp rfl).1 _ List.mem_cons_self
  obtain rfl := List.mem_singleton.mp hrow
  cases hlive

end Onadata.Proofs
