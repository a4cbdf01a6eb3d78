import Onadata.Apps.Viewer.Models.Export

/-!
# `Onadata.Libs.Utils.ExportTools`: an export is made, or one is used again

`generate_export`, `should_create_new_export` and `newest_export_for` of
`libs/utils/export_tools.py`, and what a request to delete submissions does to their times
(`Instance.save`, `set_deleted`, `delete_xform_submissions` of `libs/utils/logger_tools.py`, the
overwriting import of `libs/utils/csv_import.py` and `delete_inactive_submissions`).

`generate_export` reads the rows and later makes the row of the export: these are two steps here.
Exports with a start or an end are not stored. The JSON of a submission is stored when the
submission is: the asynchronous processing is left out, and so are the submissions that wait for a
deletion in the background.
-/

set_option autoImplicit false

namespace Onadata

open Onadata.Lib

/-- A submission of the form, as far as exports depend on it. -/
structure ExportSubmission (Data : Type) where
  data : Data
  dateModified : Nat
  deletedAt : Option Nat := none

/-- What the database returns for a query, for a submission that is not deleted.

- `inForm query`: `query_data` of the form;
- `inView pk query`: `query_data` of the data view with this primary key. -/
structure RowSource (Data : Type) where
  inForm : PyValue → Data → Bool
  inView : PyValue → PyValue → Data → Bool

/-- The options of the server for exports. -/
structure ExportSettings where
  alwaysCreateNewExport : Bool := false

section
variable {Data Row : Type}

/-! ### Submissions -/

/-- `time_of_last_submission_update`: deleted submissions count. -/
def timeOfLastSubmissionUpdate (submissions : Table (ExportSubmission Data)) : Option Nat :=
  (submissions.rows.map fun item => item.2.dateModified).max?

/-- A new submission is saved. -/
def saveNewInstance (now : Nat) (data : Data) (submissions : Table (ExportSubmission Data)) :
    Table (ExportSubmission Data) :=
  submissions.create { data := data, dateModified := now }

/-- A submission that is there is saved with other data. -/
def saveEditedInstance (now pk : Nat) (data : Data) (submissions : Table (ExportSubmission Data)) :
    Table (ExportSubmission Data) :=
  submissions.modify (fun item => item.1 = pk)
    fun row => { row with data := data, dateModified := now }

/-- `set_deleted`. -/
def setDeleted (now pk deletedAt : Nat) (submissions : Table (ExportSubmission Data)) :
    Table (ExportSubmission Data) :=
  submissions.modify (fun item => item.1 = pk)
    fun row => { row with deletedAt := some deletedAt, dateModified := now }

/-- The live submissions with these ids. No ids are all. -/
def instanceQs (instanceIds : Option (List Nat)) (item : Nat × ExportSubmission Data) : Bool :=
  item.2.deletedAt.isNone &&
    match instanceIds with
    | none | some [] => true
    | some ids => ids.contains item.1

/-- `delete_xform_submissions`. -/
def deleteXformSubmissions (now : Nat) (instanceIds : Option (List Nat)) (softDelete : Bool)
    (submissions : Table (ExportSubmission Data)) : Table (ExportSubmission Data) :=
  if softDelete then
    submissions.modify (instanceQs instanceIds)
      fun row => { row with deletedAt := some now, dateModified := now }
  else submissions.keep fun item => !instanceQs instanceIds item

/-- The deletion of an import that overwrites. It has no time of modification. -/
def overwriteSubmissions (now : Nat) (submissions : Table (ExportSubmission Data)) :
    Table (ExportSubmission Data) :=
  submissions.modify (fun item => item.2.deletedAt.isNone)
    fun row => { row with deletedAt := some now }

/-- `delete_inactive_submissions`, for the submissions that were deleted until a time. -/
def deleteInactiveSubmissions (threshold : Nat) (submissions : Table (ExportSubmission Data)) :
    Table (ExportSubmission Data) :=
  submissions.keep fun item => !item.2.deletedAt.any (· ≤ threshold)

/-! ### Exports -/

/-- The row is one for the options. -/
def RowSource.selects (source : RowSource Data) (options : ExportOptions) (data : Data) : Bool :=
  let dataviewPk := getOption options "dataview_pk"
  let filterQuery := getOption options "query"
  if dataviewPk.truthy then source.inView dataviewPk filterQuery data
  else source.inForm filterQuery data

/-- The rows that `generate_export` reads, without their order. -/
def readRows (source : RowSource Data) (options : ExportOptions)
    (submissions : Table (ExportSubmission Data)) : List (Nat × Data) :=
  (submissions.rows.filter fun item =>
    item.2.deletedAt.isNone && source.selects options item.2.data).map
      fun item => (item.1, item.2.data)

/-- `get_export_options`. -/
def getExportOptions (options : ExportOptions) : ExportOptions :=
  options.filter fun item => EXPORT_OPTION_FIELDS.contains item.1

/-- The options that `generate_export` stores: `win_excel_utf8` is for CSV files only. -/
def storedOptions (exportType : ExportType) (options : ExportOptions) : ExportOptions :=
  getExportOptions (if exportType = .csv then options
    else options.filter fun item => item.1 ≠ "win_excel_utf8")

/-- The types in the `export_type_func_map` of `generate_export`. -/
def ExportType.isTabular : ExportType → Bool
  | .xlsx | .csv | .csvZip | .savZip | .gsheets => true
  | _ => false

/-- The end of `generate_export`: the row of the export, with the rows of the file or the message
of an `SPSSIOError`. -/
def finishExport (now : Nat) (exportType : ExportType) (options : ExportOptions)
    (file : Except String (List Row)) : Export Row :=
  match file with
  | .ok rows => {
      exportType := exportType
      options := storedOptions exportType options
      createdOn := now
      internalStatus := .successful
      file := some rows }
  | .error message => {
      exportType := exportType
      options := storedOptions exportType options
      createdOn := now
      internalStatus := .failed
      errorMessage := some message }

/-- `options.get(EXPORT_QUERY_KEY) is None`. -/
def hasNoFilter (options : ExportOptions) : Bool :=
  match getOption options EXPORT_QUERY_KEY with
  | .none => true
  | _ => false

/-- `should_create_new_export` for a form. `requestKeys` are the keys of the query of the request,
if one is given. -/
def shouldCreateNewExport (settings : ExportSettings) (exports : Table (Export Row))
    (lastModified : Option Nat) (exportType : ExportType) (options : ExportOptions)
    (requestKeys : Option (List String)) : Except PyError Bool :=
  let splitSelectMultiples := (Dict.get? options "split_select_multiples").getD (.bool true)
  if settings.alwaysCreateNewExport then .ok true
  else if (requestKeys.any fun keys => ["start", "end", "data_id"].any keys.contains) ∨
      !splitSelectMultiples.truthy then .ok true
  else do
    let kwargs ← getExportOptionsQueryKwargs options
    let found := exportsWith exports exportType kwargs
    let found := if hasNoFilter options then found.filter (!·.2.hasQuery) else found
    if found.isEmpty then return true
    else exportsOutdated exports lastModified exportType options

end

end Onadata
