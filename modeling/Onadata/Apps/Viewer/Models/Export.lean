import Mathlib.Data.List.MinMax
import Onadata.Lib.ExceptList
import Onadata.Lib.PyValue
import Onadata.Lib.Table

/-!
# `Onadata.Apps.Viewer.Models.Export`: the exports of a form

The rows of `Export` of `apps/viewer/models/export.py` for one form, with the look-up of an export
by its options, `Export.save` and `exports_outdated`. A file is the list of its rows here: what
becomes of them in a format is left out, and so are the names of the files.

Times are in microseconds.
-/

set_option autoImplicit false

namespace Onadata

open Onadata.Lib

/-- `Export.EXPORT_TYPES`. -/
inductive ExportType
  | xlsx
  | csv
  | zip
  | kml
  | csvZip
  | savZip
  | sav
  | external
  | osm
  | gsheets
  | geojson
  deriving DecidableEq, Repr

/-- `internal_status`. -/
inductive ExportStatus
  | pending
  | successful
  | failed
  deriving DecidableEq, Repr

/-- The options of an export. -/
abbrev ExportOptions := List (String × PyValue)

/-- `EXPORT_OPTION_FIELDS`. -/
def EXPORT_OPTION_FIELDS : List String :=
  ["binary_select_multiples", "dataview_pk", "title", "fields", "geo_field", "simple_style",
    "group_delimiter", "include_images", "include_labels", "include_labels_only", "include_hxl",
    "language", "query", "remove_group_name", "show_choice_labels", "include_reviews",
    "split_select_multiples", "value_select_multiples", "win_excel_utf8", "repeat_index_tags"]

/-- `EXPORT_QUERY_KEY`. -/
def EXPORT_QUERY_KEY : String := "query"

/-- `MAX_EXPORTS`. -/
def MAX_EXPORTS : Nat := 10

/-- A row of `Export`. `file` is the file with its `filename`. -/
structure Export (Row : Type) where
  exportType : ExportType
  options : ExportOptions
  createdOn : Nat
  timeOfLastSubmission : Option Nat := none
  internalStatus : ExportStatus := .pending
  file : Option (List Row) := none
  errorMessage : Option String := none

/-- `options.get(field)`. -/
def getOption (options : ExportOptions) (field : String) : PyValue :=
  (Dict.get? options field).getD .none

/-- `list(value)`, for the tags of repeats. A tuple is a list here. -/
def listOf : PyValue → Except PyError PyValue
  | .list items => .ok (.list items)
  | .str text => .ok (.list (text.toList.map fun c => .str c.toString))
  | .dict items => .ok (.list (items.map fun item => .str item.1))
  | _ => .error .typeError

/-- The look-up of one field. -/
def optionLookup (options : ExportOptions) (field : String) :
    Except PyError (Option (String × PyValue)) :=
  match Dict.get? options field with
  | none => .ok none
  | some value => do
      let value ← if field = "repeat_index_tags" then listOf value else .ok value
      return some (field, value)

/-- `get_export_options_query_kwargs`: the look-ups of the options that are given. -/
def getExportOptionsQueryKwargs (options : ExportOptions) :
    Except PyError (List (String × PyValue)) := do
  return (← EXPORT_OPTION_FIELDS.mapM (optionLookup options)).filterMap id

namespace Export

variable {Row : Type}

/-- The export has the type, and the options that are looked up. -/
def matchesKwargs (exportType : ExportType) (kwargs : List (String × PyValue))
    (row : Export Row) : Bool :=
  row.exportType = exportType && kwargs.all fun item =>
    match Dict.get? row.options item.1 with
    | some stored => jsonEq item.2 stored
    | none => false

/-- `options__has_key=EXPORT_QUERY_KEY`. -/
def hasQuery (row : Export Row) : Bool :=
  (Dict.get? row.options EXPORT_QUERY_KEY).isSome

/-- `internal_status__in=[Export.SUCCESSFUL, Export.PENDING]`. -/
def notFailed (row : Export Row) : Bool :=
  row.internalStatus = .successful || row.internalStatus = .pending

end Export

section
variable {Row : Type}

/-- `Export.objects.filter(xform=xform, export_type=export_type, **kwargs)`. -/
def exportsWith (exports : Table (Export Row)) (exportType : ExportType)
    (kwargs : List (String × PyValue)) : List (Nat × Export Row) :=
  exports.rows.filter fun item => item.2.matchesKwargs exportType kwargs

/-- `latest("created_on")`. -/
def latestExport (exports : List (Nat × Export Row)) : Option (Nat × Export Row) :=
  exports.argmax fun item => item.2.createdOn

/-- `_delete_oldest_export`. -/
def deleteOldestExport (exports : Table (Export Row)) (exportType : ExportType) :
    Table (Export Row) :=
  match (exports.rows.filter fun item => item.2.exportType = exportType).argmin
      fun item => item.2.createdOn with
  | some oldest => exports.delete oldest.1
  | none => exports

/-- `Export.save` of a new export. `lastModified` is `time_of_last_submission_update()` of the
form. -/
def saveNewExport (exports : Table (Export Row)) (lastModified : Option Nat)
    (new : Export Row) : Table (Export Row) :=
  let exports :=
    if MAX_EXPORTS ≤ exports.count (fun row => row.exportType = new.exportType) then
      deleteOldestExport exports new.exportType
    else exports
  exports.create { new with
    timeOfLastSubmission := lastModified
    internalStatus := if new.file.isSome then .successful else new.internalStatus }

/-- `exports_outdated`. -/
def exportsOutdated (exports : Table (Export Row)) (lastModified : Option Nat)
    (exportType : ExportType) (options : ExportOptions) : Except PyError Bool := do
  let kwargs ← getExportOptionsQueryKwargs options
  match latestExport ((exportsWith exports exportType kwargs).filter (·.2.notFailed)) with
  | none => return true
  | some latest =>
      match latest.2.timeOfLastSubmission, lastModified with
      | some exported, some modified => return decide (exported < modified)
      | _, _ => return true

end

end Onadata
