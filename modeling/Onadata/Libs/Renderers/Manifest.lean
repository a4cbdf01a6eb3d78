import Onadata.Lib.PyText

/-!
# `Onadata.Libs.Renderers.Manifest`: the manifest of a form is streamed

`XFormManifestRenderer` and `StreamRendererMixin` of `libs/renderers/renderers.py`, with the
action `manifest` of `apps/api/viewsets/xform_list_viewset.py` that serves the cached manifest
and `clear_cached_metadata_instance_object` of `apps/main/models/meta_data.py`.

A stream makes one chunk after another. One that got the lock reads the cached text after each
chunk and then writes it back with the chunk; the model has the two as steps of their own, so
that anything can come between them. The rows of the metadata are read when the first element
is asked for.

What the serializer gives for a row, as XML, is a parameter. It depends on the row and on the
host of the request. Left out: that a linked dataset's hash can change without its metadata.
-/

set_option autoImplicit false

namespace Onadata

open Onadata.Lib

variable {Media Host : Type}

/-- The XML of a row: the attributes of its element and what is in it. -/
structure ManifestSerializer (Media Host : Type) where
  attributes : Host → Media → String
  content : Host → Media → String

/-- What a stream makes. -/
inductive ManifestChunk (Media : Type)
  | declaration
  | startManifest
  | mediaFile (row : Media)
  | endManifest
  | endDocument
  deriving DecidableEq, Repr

/-- The element of a row. -/
def ManifestSerializer.mediaFile (serializer : ManifestSerializer Media Host) (host : Host)
    (row : Media) : String :=
  "<mediaFile" ++ serializer.attributes host row ++ ">" ++ serializer.content host row ++
    "</mediaFile>"

/-- The text of a chunk. -/
def ManifestChunk.text (serializer : ManifestSerializer Media Host) (host : Host) :
    ManifestChunk Media → String
  | .declaration => "<?xml version=\"1.0\" encoding=\"utf-8\"?>\n"
  | .startManifest => "<manifest xmlns=\"http://openrosa.org/xforms/xformsManifest\">"
  | .mediaFile row => serializer.mediaFile host row
  | .endManifest => "</manifest>"
  | .endDocument => ""

/-- Where a stream is: before `stream_data`, at one of the places where it can stop, or at its
end. `rows` are the rows that it has not shown yet. -/
inductive ManifestPhase (Media : Type)
  | requested
  | started
  | declared
  | opened
  | rows (left : List Media)
  | ended
  | finished
  deriving DecidableEq, Repr

/-- A stream. `pending` is a chunk with the cached text that was read for it and is not written
back yet. -/
structure ManifestStream (Media Host : Type) where
  host : Host
  phase : ManifestPhase Media := .requested
  canUpdateCache : Bool := false
  pending : Option (ManifestChunk Media × Option String) := none

/-- The next chunk of the loop. -/
def rowsChunk : List Media → ManifestChunk Media × ManifestPhase Media
  | [] => (.endManifest, .ended)
  | row :: rest => (.mediaFile row, .rows rest)

/-- `next` on a stream: the chunk and where the stream is then. -/
def ManifestPhase.next (media : List Media) :
    ManifestPhase Media → Option (ManifestChunk Media × ManifestPhase Media)
  | .requested => none
  | .started => some (.declaration, .declared)
  | .declared => some (.startManifest, .opened)
  | .opened => some (rowsChunk media)
  | .rows left => some (rowsChunk left)
  | .ended => some (.endDocument, .finished)
  | .finished => none

/-- The cache entry and the lock of a form, its metadata of the type media, and the streams. -/
structure ManifestState (Media Host : Type) where
  cache : Option String
  lock : Bool
  media : List Media
  streams : List (ManifestStream Media Host)

/-- What can happen next: a request comes, the `i`-th stream asks for the lock, makes a chunk,
writes it to the cache or is stopped, the lock or the entry expires, the metadata changes. -/
inductive ManifestAction (Media Host : Type)
  | request (host : Host)
  | askLock (i : Nat)
  | produce (i : Nat)
  | write (i : Nat)
  | stop (i : Nat)
  | expireLock
  | expireEntry
  | changeMedia (media : List Media)
  deriving Repr

namespace ManifestState

variable (serializer : ManifestSerializer Media Host) (s : ManifestState Media Host)

/-- The cached manifest that `manifest` serves. -/
def served : Option String :=
  match s.cache with
  | none => none
  | some text => if endsWith text "</manifest>" then some text else none

/-- The state with another `i`-th stream. -/
def setStream (i : Nat) (stream : ManifestStream Media Host) : ManifestState Media Host :=
  { s with streams := s.streams.set i stream }

/-- The second half of `_get_current_buffer_data`: `cached` is what was read. -/
def writeChunk (text : String) (cached : Option String) : ManifestState Media Host :=
  match cached with
  | some manifest =>
      { s with
          cache := some (manifest ++ strip text)
          lock := if endsWith (strip text) "</manifest>" then false else s.lock }
  | none => { s with cache := some (strip text) }

/-- The state after an action; `none` when no stream can do it. -/
def act : ManifestAction Media Host → Option (ManifestState Media Host)
  | .request host =>
      match s.served with
      | some _ => some s
      | none => some { s with streams := s.streams ++ [{ host := host }] }
  | .askLock i =>
      match s.streams[i]? with
      | none => none
      | some stream =>
          if stream.phase matches .requested then
            some { s.setStream i { stream with phase := .started, canUpdateCache := !s.lock } with
                    lock := true }
          else none
  | .produce i =>
      match s.streams[i]? with
      | none => none
      | some stream =>
          match stream.pending, stream.phase.next s.media with
          | none, some (chunk, phase) =>
              -- the last chunk has no text
              let updates := stream.canUpdateCache && chunk.text serializer stream.host != ""
              some (s.setStream i
                { stream with
                    phase := phase
                    pending := if updates then some (chunk, s.cache) else none })
          | _, _ => none
  | .write i =>
      match s.streams[i]? with
      | none => none
      | some stream =>
          match stream.pending with
          | none => none
          | some (chunk, cached) =>
              some ((s.setStream i { stream with pending := none }).writeChunk
                (chunk.text serializer stream.host) cached)
  | .stop i =>
      match s.streams[i]? with
      | none => none
      | some stream => some (s.setStream i { stream with phase := .finished, pending := none })
  | .expireLock => some { s with lock := false }
  | .expireEntry => some { s with cache := none }
  | .changeMedia media => some { s with media := media, cache := none }

end ManifestState

/-- The steps of the requests for a manifest. -/
def ManifestStep (serializer : ManifestSerializer Media Host) (s : ManifestState Media Host)
    (action : ManifestAction Media Host) (s' : ManifestState Media Host) : Prop :=
  s.act serializer action = some s'

end Onadata
