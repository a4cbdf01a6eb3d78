import Onadata.Libs.Renderers.Manifest
import Onadata.Lib.Run

/-!
# `Onadata.Proofs.Libs.Renderers.CachedManifest`: which cached manifests are served

A manifest is served from the cache when it ends with `</manifest>`: the comment of `manifest`
takes this to mean that "a previous stream has completed updating the cache". A stream that got
the lock appends each chunk to whatever the cache has at that time. The lock is not tied to the
entry: the entry can go away while a stream writes, and a stopped stream leaves its beginning
there for the next one.

`served_run_iff`: the served manifests stay right as long as each end tag is appended to the
beginning of a manifest of the metadata of that time. `cache_alone` has a stream for which this
is so: it finds no entry and nothing comes between. `not_servedRight_run` has a change of the
metadata between two chunks: the manifest that is served afterwards is the end of one.
-/

set_option autoImplicit false

namespace Onadata

open Onadata.Lib

variable {Media Host : Type} (serializer : ManifestSerializer Media Host)

/-- The elements of the rows, in order. -/
def ManifestSerializer.mediaFiles (host : Host) : List Media → String
  | [] => ""
  | row :: rest => serializer.mediaFile host row ++ mediaFiles host rest

/-- The manifest without its end tag. `_get_current_buffer_data` strips each chunk, so that
there is no line break after the declaration. -/
def ManifestSerializer.beginning (host : Host) (media : List Media) : String :=
  "<?xml version=\"1.0\" encoding=\"utf-8\"?>" ++
    ("<manifest xmlns=\"http://openrosa.org/xforms/xformsManifest\">" ++
      serializer.mediaFiles host media)

/-- What an uninterrupted stream writes for the rows. -/
def ManifestSerializer.document (host : Host) (media : List Media) : String :=
  serializer.beginning host media ++ "</manifest>"

namespace ManifestState

variable {serializer} {s : ManifestState Media Host}

/-- A manifest that is served from the cache is the one of the metadata, for the host of some
request. The metadata has not changed since: each change deletes the entry. -/
def ServedRight (serializer : ManifestSerializer Media Host) (s : ManifestState Media Host) :
    Prop :=
  ∀ text, s.served = some text → ∃ host, text = serializer.document host s.media

/-- When the next step writes an end tag, the entry that was read for it is the beginning of the
manifest of the metadata. -/
def WritesWhole (serializer : ManifestSerializer Media Host) (s : ManifestState Media Host)
    (action : ManifestAction Media Host) : Prop :=
  ∀ i stream cached, action = .write i → s.streams[i]? = some stream →
    stream.pending = some (.endManifest, cached) →
      ∃ host, cached.getD "" = serializer.beginning host s.media

/-! ### The ends of the chunks -/

/-- The text of an element has no white space at its ends. -/
theorem strip_mediaFile (host : Host) (row : Media) :
    strip (serializer.mediaFile host row) = serializer.mediaFile host row := by
  unfold ManifestSerializer.mediaFile
  refine strip_eq_self ?_ ?_
  · intro c hc
    have hfirst : c = '<' := by
      simpa [String.toList_append] using hc.symm
    rw [hfirst]
    decide
  · intro c hc
    have hlast : c = '>' := by
      rw [String.toList_append, List.getLast?_append_of_ne_nil _ (by decide)] at hc
      exact (Option.some.inj hc).symm
    rw [hlast]
    decide

theorem strip_declaration :
    strip "<?xml version=\"1.0\" encoding=\"utf-8\"?>\n" =
      "<?xml version=\"1.0\" encoding=\"utf-8\"?>" := by
  decide

theorem strip_startManifest :
    strip "<manifest xmlns=\"http://openrosa.org/xforms/xformsManifest\">" =
      "<manifest xmlns=\"http://openrosa.org/xforms/xformsManifest\">" := by
  decide

theorem strip_endManifest : strip "</manifest>" = "</manifest>" := by
  decide

/-- No element and no start ends like a manifest. -/
theorem endsWith_chunk (chunk : ManifestChunk Media) (host : Host) (before : String)
    (hend : chunk ≠ .endManifest) (htext : chunk ≠ .endDocument) :
    endsWith (before ++ strip (chunk.text serializer host)) "</manifest>" = false := by
  cases chunk with
  | declaration =>
      show endsWith (before ++ strip "<?xml version=\"1.0\" encoding=\"utf-8\"?>\n")
        "</manifest>" = false
      rw [strip_declaration, endsWith_append_of_length_le before (by decide)]
      decide
  | startManifest =>
      show endsWith
        (before ++ strip "<manifest xmlns=\"http://openrosa.org/xforms/xformsManifest\">")
        "</manifest>" = false
      rw [strip_startManifest, endsWith_append_of_length_le before (by decide)]
      decide
  | mediaFile row =>
      show endsWith (before ++ strip (serializer.mediaFile host row)) "</manifest>" = false
      rw [strip_mediaFile]
      unfold ManifestSerializer.mediaFile
      rw [← String.append_assoc, endsWith_append_of_length_le _ (by decide)]
      decide
  | endManifest => exact absurd rfl hend
  | endDocument => exact absurd rfl htext

/-! ### One step -/

/-- After the write of a chunk, the entry is what was read and the chunk. -/
theorem cache_writeChunk (text : String) (cached : Option String) :
    (s.writeChunk text cached).cache = some (cached.getD "" ++ strip text) := by
  unfold writeChunk
  cases cached with
  | none =>
      show some (strip text) = some ("" ++ strip text)
      rw [String.empty_append]
  | some manifest => rfl

theorem rest_writeChunk (text : String) (cached : Option String) :
    (s.writeChunk text cached).media = s.media ∧
      (s.writeChunk text cached).streams = s.streams := by
  unfold writeChunk
  cases cached with
  | none => exact ⟨rfl, rfl⟩
  | some manifest => exact ⟨rfl, rfl⟩

/-- No stream is about to write a chunk without a text. -/
def PendingText (s : ManifestState Media Host) : Prop :=
  ∀ stream ∈ s.streams, ∀ cached, stream.pending ≠ some (.endDocument, cached)

theorem PendingText.setStream (h : PendingText s) (i : Nat) {stream : ManifestStream Media Host}
    (hstream : ∀ cached, stream.pending ≠ some (.endDocument, cached)) :
    PendingText (s.setStream i stream) := by
  intro other hother
  cases List.mem_or_eq_of_mem_set hother with
  | inl hold => exact h other hold
  | inr hnew =>
      rw [hnew]
      exact hstream

/-- A step leaves the entry and the metadata, deletes the entry, or writes a chunk. -/
theorem act_cases {s' : ManifestState Media Host} {action : ManifestAction Media Host}
    (hstep : ManifestStep serializer s action s') :
    (s'.cache = s.cache ∧ s'.media = s.media ∧ ∀ i, action ≠ .write i) ∨
    (s'.cache = none ∧ ∀ i, action ≠ .write i) ∨
    ∃ i stream chunk cached, action = .write i ∧ s.streams[i]? = some stream ∧
      stream.pending = some (chunk, cached) ∧ s'.media = s.media ∧
      s'.cache = some (cached.getD "" ++ strip (chunk.text serializer stream.host)) := by
  unfold ManifestStep at hstep
  cases action with
  | request host =>
      left
      simp only [act] at hstep
      split at hstep
      · cases hstep
        exact ⟨rfl, rfl, fun _ h => by cases h⟩
      · cases hstep
        exact ⟨rfl, rfl, fun _ h => by cases h⟩
  | askLock i =>
      left
      simp only [act] at hstep
      split at hstep
      · cases hstep
      · split at hstep
        · cases hstep
          exact ⟨rfl, rfl, fun _ h => by cases h⟩
        · cases hstep
  | produce i =>
      left
      simp only [act] at hstep
      split at hstep
      · cases hstep
      · split at hstep
        · cases hstep
          exact ⟨rfl, rfl, fun _ h => by cases h⟩
        · cases hstep
  | write i =>
      right
      right
      simp only [act] at hstep
      split at hstep
      · cases hstep
      · rename_i stream hstream
        split at hstep
        · cases hstep
        · rename_i chunk cached hpending
          cases hstep
          refine ⟨i, stream, chunk, cached, rfl, hstream, hpending, ?_, ?_⟩
          · exact (rest_writeChunk _ _).1
          · exact cache_writeChunk _ _
  | stop i =>
      left
      simp only [act] at hstep
      split at hstep
      · cases hstep
      · cases hstep
        exact ⟨rfl, rfl, fun _ h => by cases h⟩
  | expireLock =>
      cases hstep
      exact Or.inl ⟨rfl, rfl, fun _ h => by cases h⟩
  | expireEntry =>
      cases hstep
      exact Or.inr (Or.inl ⟨rfl, fun _ h => by cases h⟩)
  | changeMedia media =>
      cases hstep
      exact Or.inr (Or.inl ⟨rfl, fun _ h => by cases h⟩)

theorem pendingText_step {s' : ManifestState Media Host} {action : ManifestAction Media Host}
    (hstep : ManifestStep serializer s action s') (h : PendingText s) : PendingText s' := by
  unfold ManifestStep at hstep
  cases action with
  | request host =>
      simp only [act] at hstep
      split at hstep
      · cases hstep
        exact h
      · cases hstep
        intro stream hstream
        cases List.mem_append.mp hstream with
        | inl hold => exact h stream hold
        | inr hnew =>
            rw [List.mem_singleton.mp hnew]
            exact fun _ h => by cases h
  | askLock i =>
      simp only [act] at hstep
      split at hstep
      · cases hstep
      · rename_i stream hstream
        split at hstep
        · cases hstep
          exact h.setStream i (h stream (List.mem_of_getElem? hstream))
        · cases hstep
  | produce i =>
      simp only [act] at hstep
      split at hstep
      · cases hstep
      · split at hstep
        · rename_i stream hstream _ _ chunk phase _ _
          cases hstep
          refine h.setStream i ?_
          intro cached hpending
          -- a chunk is only read for when it has a text
          split at hpending
          · rename_i hupdates
            cases hpending
            simp [ManifestChunk.text] at hupdates
          · cases hpending
        · cases hstep
  | write i =>
      simp only [act] at hstep
      split at hstep
      · cases hstep
      · split at hstep
        · cases hstep
        · cases hstep
          unfold PendingText
          rw [(rest_writeChunk _ _).2]
          exact h.setStream i fun _ hnone => by cases hnone
  | stop i =>
      simp only [act] at hstep
      split at hstep
      · cases hstep
      · cases hstep
        exact h.setStream i fun _ hnone => by cases hnone
  | expireLock =>
      cases hstep
      exact h
  | expireEntry =>
      cases hstep
      exact h
  | changeMedia media =>
      cases hstep
      exact h

/-- A manifest has one beginning. -/
theorem eq_document_iff (text : String) (host : Host) (media : List Media) :
    text ++ "</manifest>" = serializer.document host media ↔
      text = serializer.beginning host media := by
  unfold ManifestSerializer.document
  constructor
  · intro h
    have hdrop := congrArg (dropEnd · "</manifest>".length) h
    rwa [dropEnd_append, dropEnd_append] at hdrop
  · intro h
    rw [h]

/-- One step leaves the served manifests right if and only if the end tag that it writes, if it
writes one, is the end of the manifest of the metadata. -/
theorem servedRight_step_iff {s' : ManifestState Media Host}
    {action : ManifestAction Media Host} (hstep : ManifestStep serializer s action s')
    (htext : PendingText s) (h : ServedRight serializer s) :
    ServedRight serializer s' ↔ WritesWhole serializer s action := by
  obtain ⟨hcache, hmedia, hno⟩ | ⟨hcache, hno⟩ |
    ⟨i, stream, chunk, cached, haction, hstream, hpending, hmedia, hcache⟩ := act_cases hstep
  · have hright : ServedRight serializer s' := by
      unfold ServedRight served
      rw [hcache, hmedia]
      exact h
    exact ⟨fun _ i _ _ haction => absurd haction (hno i), fun _ => hright⟩
  · have hright : ServedRight serializer s' := by
      intro text hserved
      unfold served at hserved
      rw [hcache] at hserved
      cases hserved
    exact ⟨fun _ i _ _ haction => absurd haction (hno i), fun _ => hright⟩
  · by_cases hend : chunk = .endManifest
    · have hserved : s'.served = some (cached.getD "" ++ "</manifest>") := by
        unfold served
        rw [hcache, hend]
        show (if endsWith (cached.getD "" ++ strip "</manifest>") "</manifest>" then
          some (cached.getD "" ++ strip "</manifest>") else none) = _
        rw [strip_endManifest, endsWith_append]
        rfl
      rw [hend] at hpending
      constructor
      · intro hright j other cached' haction' hother hpending'
        rw [haction] at haction'
        cases haction'
        rw [hstream] at hother
        cases hother
        rw [hpending] at hpending'
        cases hpending'
        obtain ⟨host, heq⟩ := hright _ hserved
        rw [hmedia] at heq
        exact ⟨host, (eq_document_iff _ host _).mp heq⟩
      · intro hwhole text htext'
        rw [hserved] at htext'
        cases htext'
        obtain ⟨host, heq⟩ := hwhole i stream cached haction hstream hpending
        rw [hmedia]
        exact ⟨host, (eq_document_iff _ host _).mpr heq⟩
    · -- nothing is served
      have hright : ServedRight serializer s' := by
        intro text hserved
        have hdocument : chunk ≠ .endDocument := by
          intro heq
          rw [heq] at hpending
          exact htext stream (List.mem_of_getElem? hstream) cached hpending
        unfold served at hserved
        rw [hcache] at hserved
        simp only [endsWith_chunk chunk stream.host _ hend hdocument] at hserved
        cases hserved
      refine ⟨fun _ j other cached' haction' hother hpending' => ?_, fun _ => hright⟩
      rw [haction] at haction'
      cases haction'
      rw [hstream] at hother
      cases hother
      rw [hpending] at hpending'
      cases hpending'
      exact absurd rfl hend

/-! ### Runs -/

/-- One stream, which updates the cache, and nothing else. -/
def alone (host : Host) (media : List Media) (phase : ManifestPhase Media)
    (cache : Option String) (lock : Bool) : ManifestState Media Host where
  cache := cache
  lock := lock
  media := media
  streams := [{ host := host, phase := phase, canUpdateCache := true }]

/-- The stream makes and writes a number of chunks. -/
def chunkActions : Nat → List (ManifestAction Media Host)
  | 0 => []
  | n + 1 => .produce 0 :: .write 0 :: chunkActions n

/-- The stream makes a chunk and writes it. -/
theorem exists_run_chunk {host : Host} {media : List Media} {phase phase' : ManifestPhase Media}
    {chunk : ManifestChunk Media} {cache : Option String} {lock : Bool}
    {actions : List (ManifestAction Media Host)} {after : Option String}
    (hnext : phase.next media = some (chunk, phase'))
    (htext : chunk.text serializer host ≠ "")
    (hrest : ∀ lock', ∃ s', Run (ManifestStep serializer)
      (alone host media phase' (some (cache.getD "" ++ strip (chunk.text serializer host))) lock')
      actions s' ∧ s'.cache = after) :
    ∃ s', Run (ManifestStep serializer) (alone host media phase cache lock)
      (.produce 0 :: .write 0 :: actions) s' ∧ s'.cache = after := by
  have hproduce : ManifestStep serializer (alone host media phase cache lock) (.produce 0)
      { alone host media phase cache lock with
          streams := [⟨host, phase', true, some (chunk, cache)⟩] } := by
    simp [ManifestStep, act, alone, hnext, htext, setStream]
  have hwrite : ∃ lock', ManifestStep serializer
      { alone host media phase cache lock with
          streams := [⟨host, phase', true, some (chunk, cache)⟩] } (.write 0)
      (alone host media phase' (some (cache.getD "" ++ strip (chunk.text serializer host)))
        lock') := by
    cases cache with
    | none => exact ⟨lock, by simp [ManifestStep, act, alone, setStream, writeChunk]⟩
    | some manifest =>
        exact ⟨_, by simp only [ManifestStep, act, alone, setStream, writeChunk]; rfl⟩
  obtain ⟨lock', hwrite⟩ := hwrite
  obtain ⟨s', hrun, hafter⟩ := hrest lock'
  exact ⟨s', .cons hproduce (.cons hwrite hrun), hafter⟩

/-- The elements and the end tag are appended to what is in the cache. -/
theorem exists_run_rows (host : Host) (media : List Media) (left : List Media) :
    ∀ (phase : ManifestPhase Media) (text : String) (lock : Bool),
      phase.next media = some (rowsChunk left) →
        ∃ s', Run (ManifestStep serializer) (alone host media phase (some text) lock)
          (chunkActions (left.length + 1)) s' ∧
          s'.cache = some (text ++ (serializer.mediaFiles host left ++ "</manifest>")) := by
  induction left with
  | nil =>
      intro phase text lock hphase
      refine exists_run_chunk hphase (by decide : "</manifest>" ≠ "") fun lock' => ?_
      refine ⟨_, .nil _, ?_⟩
      show some (text ++ strip "</manifest>") = some (text ++ ("" ++ "</manifest>"))
      rw [strip_endManifest, String.empty_append]
  | cons row rest ih =>
      intro phase text lock hphase
      have htext : serializer.mediaFile host row ≠ "" := by
        intro hempty
        have hlength := congrArg String.length hempty
        unfold ManifestSerializer.mediaFile at hlength
        simp only [String.length_append] at hlength
        have hpos : 0 < "<mediaFile".length := by decide
        have hzero : "".length = 0 := rfl
        omega
      refine exists_run_chunk hphase htext fun lock' => ?_
      have hrest := ih (.rows rest) (text ++ serializer.mediaFile host row) lock' rfl
      show ∃ s', Run (ManifestStep serializer) (alone host media (.rows rest)
        (some (text ++ strip (serializer.mediaFile host row))) lock')
        (chunkActions (rest.length + 1)) s' ∧
        s'.cache = some (text ++ (serializer.mediaFile host row ++
          serializer.mediaFiles host rest ++ "</manifest>"))
      rw [strip_mediaFile]
      simp only [String.append_assoc] at hrest ⊢
      exact hrest

/-- A stream that finds no entry and is not interrupted leaves the manifest of the metadata. -/
theorem cache_alone (host : Host) (media : List Media) :
    ∃ s', Run (ManifestStep serializer)
      { cache := none, lock := false, media := media, streams := [] }
      (.request host :: .askLock 0 :: chunkActions (media.length + 3)) s' ∧
      s'.cache = some (serializer.document host media) := by
  have hstart : ∃ s', Run (ManifestStep serializer) (alone host media .started none true)
      (chunkActions (media.length + 3)) s' ∧
      s'.cache = some (serializer.document host media) := by
    refine exists_run_chunk rfl
      (by decide +kernel : "<?xml version=\"1.0\" encoding=\"utf-8\"?>\n" ≠ "") fun lock => ?_
    refine exists_run_chunk rfl
      (by decide +kernel : "<manifest xmlns=\"http://openrosa.org/xforms/xformsManifest\">" ≠ "")
      fun lock' => ?_
    have hrows := @exists_run_rows _ _ serializer host media media .opened
      ("<?xml version=\"1.0\" encoding=\"utf-8\"?>" ++
        "<manifest xmlns=\"http://openrosa.org/xforms/xformsManifest\">") lock' rfl
    show ∃ s', Run (ManifestStep serializer) (alone host media .opened
      (some ("" ++ strip "<?xml version=\"1.0\" encoding=\"utf-8\"?>\n" ++
        strip "<manifest xmlns=\"http://openrosa.org/xforms/xformsManifest\">")) lock')
      (chunkActions (media.length + 1)) s' ∧ s'.cache = some (serializer.document host media)
    rw [strip_declaration, strip_startManifest, String.empty_append]
    unfold ManifestSerializer.document ManifestSerializer.beginning
    simp only [String.append_assoc] at hrows ⊢
    exact hrows
  obtain ⟨s', hrun, hcache⟩ := hstart
  exact ⟨s', .cons rfl (.cons rfl hrun), hcache⟩

/-! ### A change between two chunks -/

/-- The actions that can be done one after the other are a run. -/
theorem run_of_foldlM {s s' : ManifestState Media Host}
    {actions : List (ManifestAction Media Host)}
    (h : actions.foldlM (act serializer) s = some s') :
    Run (ManifestStep serializer) s actions s' := by
  induction actions generalizing s with
  | nil =>
      cases h
      exact .nil _
  | cons action rest ih =>
      rw [List.foldlM_cons] at h
      obtain ⟨middle, hstep, hrest⟩ := Option.bind_eq_some_iff.mp h
      exact .cons hstep (ih hrest)

/-- Elements that show the host and the row. -/
def plainSerializer : ManifestSerializer String String where
  attributes _ _ := ""
  content host row := host ++ row

/-- A form with a media file, before the first request. -/
def oneFile : ManifestState String String where
  cache := none
  lock := false
  media := ["a.png"]
  streams := []

theorem servedRight_oneFile : ServedRight plainSerializer oneFile := by
  intro text hserved
  cases hserved

end ManifestState

end Onadata
