import Onadata.Apps.Viewer.Models.Export
import Onadata.Lib.Run

/-!
# `Onadata.Apps.Viewer.ExportTasks`: requests, workers and deletions of exports

The exports of a form with their files, and the threads that work on them: `create_async_export`
and the tasks that it starts, `delete_export`, `mark_expired_pending_exports_as_failed` and
`delete_expired_failed_exports` of `apps/viewer/tasks.py`, the end of the `generate_…_export`
functions of `libs/utils/export_tools.py`, and `Export.save`, `_delete_oldest_export` and
`export_delete_callback` of `apps/viewer/models/export.py`.

A statement of the database and an operation of the storage are one step each, and an object in
memory is what was read. A row is saved by an update, and by an insertion when it is not there any
more. A deletion is a transaction: other threads see its rows until it ends, and wait when they
write them. `used` are the paths of all files that were ever stored.

A step can fail where it has a `fail`, for any reason. A task runs once. Left out: the options and
the task id of an export, the rows of its file, and exports with a start or an end, which are not
saved.
-/

set_option autoImplicit false

namespace Onadata

open Onadata.Lib

/-- The path of a file: `filedir` and `filename`. -/
structure ExportPath where
  filedir : String
  filename : String
  deriving DecidableEq, Repr

/-- A row of `Export`. The insertion of a row sets `createdOn`. -/
structure ExportRow where
  exportType : ExportType
  createdOn : Nat := 0
  internalStatus : ExportStatus := .pending
  file : Option ExportPath := none
  deriving DecidableEq, Repr

/-- Who saves a new row: a request, or a worker whose row was deleted. The worker has the object
that it read first. -/
inductive ExportCreator
  | request
  | worker (pk : Nat) (row : ExportRow)
  deriving DecidableEq, Repr

/-- A thread, and what it does next.

- `creating`, `trimming`, `inserting`: `Export.save` of a new row counts the rows, reads the oldest
  one, and inserts the row;
- `starting`, `linking`: `create_async_export` starts the task, and saves its id;
- `fetching`, `generating`, `stored`, `saving`: a task reads its export, stores the file, reads the
  export again, and saves it;
- `failing`: an export is saved as failed;
- `selecting`, `deleting`, `removing`: `delete_export` reads the export; a transaction deletes rows,
  and removes their files. Behind it, a new row may be waiting. -/
inductive ExportThread
  | creating (new : ExportRow) (creator : ExportCreator)
  | trimming (new : ExportRow) (creator : ExportCreator)
  | inserting (new : ExportRow) (creator : ExportCreator)
  | starting (pk : Nat) (row : ExportRow)
  | linking (pk : Nat) (row : ExportRow)
  | fetching (pk : Nat)
  | generating (pk : Nat) (row : ExportRow)
  | stored (pk : Nat) (row : ExportRow) (path : ExportPath)
  | saving (pk : Nat) (row found : ExportRow) (path : ExportPath)
  | failing (pk : Nat) (row : ExportRow)
  | selecting (pk : Nat)
  | deleting (items : List (Nat × ExportRow)) (next : Option (ExportRow × ExportCreator))
  | removing (pks : List Nat) (items : List (Nat × ExportRow))
      (next : Option (ExportRow × ExportCreator))
  | done
  deriving DecidableEq, Repr

/-- How a thread goes on. -/
inductive ThreadChoice
  | go
  | store (path : ExportPath)
  | fail
  deriving DecidableEq, Repr

/-- A step: a request or a task comes in, or a thread goes on. -/
inductive ExportEvent
  | createAsyncExport (exportType : ExportType)
  | deleteExport (pk : Nat)
  | markExpired (threshold : Nat)
  | deleteExpired (threshold : Nat)
  | advance (i now : Nat) (choice : ThreadChoice)
  deriving DecidableEq, Repr

/-- The exports of a form, the storage and the threads. `locked` are the rows that a transaction
deletes. -/
structure ExportSystem where
  rows : List (Nat × ExportRow) := []
  nextPk : Nat := 0
  locked : List Nat := []
  files : List ExportPath := []
  used : List ExportPath := []
  threads : List ExportThread := []
  deriving DecidableEq, Repr

namespace ExportSystem

variable (s : ExportSystem)

/-- The row with a primary key. -/
def get? (pk : Nat) : Option ExportRow :=
  Dict.get? s.rows pk

/-- The thread goes on with `thread`. -/
def continueWith (i : Nat) (thread : ExportThread) : ExportSystem :=
  { s with threads := s.threads.set i thread }

/-- A new thread. -/
def spawn (thread : ExportThread) : ExportSystem :=
  { s with threads := s.threads ++ [thread] }

/-- A row is updated, or inserted when it is not there. -/
def write (pk : Nat) (row : ExportRow) : ExportSystem :=
  { s with rows := Dict.insert s.rows pk row }

/-- Another row has the file name. -/
def filenameTaken (pk : Nat) (path : ExportPath) : Bool :=
  s.rows.any fun item => item.1 ≠ pk && item.2.file.any (·.filename = path.filename)

/-- The rows that a condition on the status and the age selects. -/
def expiredRows (status : ExportStatus) (threshold : Nat) : List (Nat × ExportRow) :=
  s.rows.filter fun item => item.2.internalStatus = status && item.2.createdOn < threshold

/-- What comes behind a deletion. -/
def afterDeletion : Option (ExportRow × ExportCreator) → ExportThread
  | some (new, creator) => .inserting new creator
  | none => .done

/-- An exception in `Export.save` of a new row. -/
def creatorFails : ExportCreator → ExportThread
  | .request => .done
  | .worker pk row => .failing pk row

/-- `Export.save` of an export that is there. -/
def saveStatus (row : ExportRow) (status : ExportStatus) : ExportRow :=
  { row with internalStatus := if row.file.isSome then .successful else status }

/-- `mark_expired_pending_exports_as_failed`, for a row. -/
def markExpired (threshold : Nat) (row : ExportRow) : ExportRow :=
  if row.internalStatus = .pending ∧ row.createdOn < threshold then
    { row with internalStatus := .failed }
  else row

/-- `Export.save` of a new row counts the rows of the type. -/
def countExports (new : ExportRow) (creator : ExportCreator) : ExportThread :=
  if MAX_EXPORTS ≤ s.rows.countP (fun item => item.2.exportType = new.exportType) then
    .trimming new creator
  else .inserting new creator

/-- `_delete_oldest_export` reads the oldest row of the type. -/
def readOldestExport (new : ExportRow) (creator : ExportCreator) : ExportThread :=
  match (s.rows.filter fun item => item.2.exportType = new.exportType).argmin
      fun item => item.2.createdOn with
  | some oldest => .deleting [oldest] (some (new, creator))
  | none => creatorFails creator

/-- A new row is inserted. -/
def insertRow (i now : Nat) (new : ExportRow) (creator : ExportCreator) : Option ExportSystem :=
  if new.file.any (s.filenameTaken s.nextPk) then none
  else
    let new := { new with createdOn := now }
    let thread := match creator with
      | .request => .starting s.nextPk new
      | .worker _ _ => .done
    some { (s.write s.nextPk new).continueWith i thread with nextPk := s.nextPk + 1 }

/-- `_get_export_object` in a task. -/
def fetchExport (pk : Nat) : ExportThread :=
  match s.get? pk with
  | some row => .generating pk row
  | none => .done

/-- `get_or_create_export`. -/
def getOrCreateExport (pk : Nat) (row : ExportRow) (path : ExportPath) : ExportThread :=
  match s.get? pk with
  | some found => .saving pk row found path
  | none => .creating {
      exportType := row.exportType
      internalStatus := .successful
      file := some path } (.worker pk row)

/-- `delete_export` reads the export. -/
def selectExport (pk : Nat) : ExportThread :=
  match s.get? pk with
  | some row => .deleting [(pk, row)] none
  | none => .done

/-- The primary keys of rows that are there. -/
def presentPks (items : List (Nat × ExportRow)) : List Nat :=
  (Dict.keys items).filter fun pk => (s.get? pk).isSome

/-- A thread goes on. -/
def advance (i now : Nat) : ExportThread → ThreadChoice → Option ExportSystem
  | .creating new creator, .go => some (s.continueWith i (s.countExports new creator))
  | .trimming new creator, .go => some (s.continueWith i (s.readOldestExport new creator))
  | .inserting new creator, .go => s.insertRow i now new creator
  | .creating _ creator, .fail | .trimming _ creator, .fail | .inserting _ creator, .fail =>
      some (s.continueWith i (creatorFails creator))
  | .starting pk row, .go => some ((s.continueWith i (.linking pk row)).spawn (.fetching pk))
  | .starting pk row, .fail => some (s.continueWith i (.failing pk row))
  | .linking pk row, .go =>
      if pk ∈ s.locked then none else some ((s.write pk row).continueWith i .done)
  | .fetching pk, .go => some (s.continueWith i (s.fetchExport pk))
  | .generating pk row, .store path =>
      if path ∈ s.files then none
      else some { s.continueWith i (.stored pk row path) with
        files := path :: s.files
        used := path :: s.used }
  | .generating pk row, .fail => some (s.continueWith i (.failing pk row))
  | .stored pk row path, .go => some (s.continueWith i (s.getOrCreateExport pk row path))
  | .stored pk row _, .fail => some (s.continueWith i (.failing pk row))
  | .saving pk _ found path, .go =>
      if pk ∈ s.locked ∨ s.filenameTaken pk path = true then none
      else some ((s.write pk { found with
        internalStatus := .successful
        file := some path }).continueWith i .done)
  | .saving pk row _ _, .fail => some (s.continueWith i (.failing pk row))
  | .failing pk row, .go =>
      if pk ∈ s.locked then none
      else some ((s.write pk (saveStatus row .failed)).continueWith i .done)
  | .selecting pk, .go => some (s.continueWith i (s.selectExport pk))
  | .deleting items next, .go =>
      if (s.presentPks items).any (· ∈ s.locked) then none
      else some { s.continueWith i (.removing (s.presentPks items) items next) with
        locked := s.locked ++ s.presentPks items }
  | .removing pks (item :: items) next, .go =>
      some { s.continueWith i (.removing pks items next) with
        files := s.files.filter fun path => item.2.file ≠ some path }
  | .removing pks [] next, .go =>
      some { s.continueWith i (afterDeletion next) with
        rows := s.rows.filter fun item => item.1 ∉ pks
        locked := s.locked.filter (· ∉ pks) }
  | _, _ => none

/-- A step. It is none when it is not possible. -/
def step : ExportEvent → Option ExportSystem
  | .createAsyncExport exportType =>
      some (s.spawn (.creating { exportType := exportType } .request))
  | .deleteExport pk => some (s.spawn (.selecting pk))
  | .markExpired threshold =>
      some { s with rows := s.rows.map fun item => (item.1, markExpired threshold item.2) }
  | .deleteExpired threshold =>
      some (s.spawn (.deleting (s.expiredRows .failed threshold) none))
  | .advance i now choice => s.threads[i]?.bind fun thread => s.advance i now thread choice

/-- The steps as a transition system. -/
def Step (s : ExportSystem) (event : ExportEvent) (s' : ExportSystem) : Prop :=
  s.step event = some s'

/-- No file is stored under a path that was used before. -/
def NewPath (s : ExportSystem) (event : ExportEvent) (_ : ExportSystem) : Prop :=
  ∀ i now path, event = .advance i now (.store path) → path ∉ s.used

end ExportSystem

end Onadata
