import Onadata.Apps.Logger.Models.XForm
import Onadata.Lib.PyText

/-!
# `Onadata.Apps.Api.Viewsets.OpenDataViewset`: the schema of a form for Tableau

`schema` of `apps/api/viewsets/open_data_viewset.py`. `flattened_dict` is an attribute of the class,
so that the names of one form are still in it when the next form is asked for. It is a parameter
and a result here.

Left out: what the response names the connection and the table, and the data of a form.
-/

set_option autoImplicit false

namespace Onadata

open Onadata.Lib

/-- `METADATA_FIELDS`. -/
def METADATA_FIELDS : List String :=
  ["_review_comment", "_review_status", "_status", "_edited", "_version", "_duration", "_notes",
    "_uuid", "_tags", "_bamboo_dataset_id", "_attachments", "_geolocation", "_media_count",
    "_total_media", "_submitted_by", "_media_all_received", "_xform_id_string",
    "_submission_time", "_xform_id", "_date_modified", "_last_edited_by"]

/-- `remove_metadata_fields` on a list: `data.remove(field)` takes the first one away. -/
def removeMetadataFields (data : List String) : List String :=
  METADATA_FIELDS.foldl (fun data field => data.erase field) data

/-- `IGNORED_FIELD_TYPES`. -/
def IGNORED_FIELD_TYPES : List String := ["select one", "select multiple"]

/-- `get_tableau_type`. -/
def getTableauType (xformType : String) : String :=
  match xformType with
  | "integer" => "int"
  | "decimal" => "float"
  | "dateTime" => "datetime"
  | _ => "string"

/-- The characters that `\w` matches, and the types that question types are bound to. -/
structure OpenDataSettings where
  isWord : Char → Bool
  bindType : String → String

/-- A column of the schema. -/
structure OpenDataColumn where
  id : String
  dataType : String
  «alias» : String
  deriving DecidableEq, Repr

/-- `flattened_dict`. -/
abbrev FlattenedDict := List (String × String)

namespace OpenDataViewSet

/-- `re.sub(r"\W", r"_", header)`. -/
def withUnderscores (settings : OpenDataSettings) (header : String) : String :=
  String.ofList (header.toList.map fun c => if settings.isWord c then c else '_')

/-- `replace_special_characters_with_underscores`. -/
def replaceSpecialCharactersWithUnderscores (settings : OpenDataSettings)
    (data : List String) : List String :=
  data.map (withUnderscores settings)

mutual

/-- One round of `flatten_xform_columns`. The choices of a question are its children. They have no
type. -/
def flattenColumn (flattenedDict : FlattenedDict) : SurveyElement → FlattenedDict
  | .question name type choices =>
      let flattenedDict := Dict.insert flattenedDict name (getTableauType type)
      if type ∉ IGNORED_FIELD_TYPES then
        choices.foldl (fun flattenedDict choice => Dict.insert flattenedDict choice "string")
          flattenedDict
      else flattenedDict
  | .group name children =>
      flattenXformColumns (Dict.insert flattenedDict name (getTableauType "group")) children
  | .repeatSection name children =>
      flattenXformColumns (Dict.insert flattenedDict name (getTableauType "repeat")) children

/-- `flatten_xform_columns`. -/
def flattenXformColumns (flattenedDict : FlattenedDict) : List SurveyElement → FlattenedDict
  | [] => flattenedDict
  | field :: rest => flattenXformColumns (flattenColumn flattenedDict field) rest

end

/-- `header == quest_name or header.endswith(f"_{quest_name}")`. -/
def namesColumn (header questName : String) : Bool :=
  header == questName || endsWith header ("_" ++ questName)

/-- The type of a column. -/
def columnType (flattenedDict : FlattenedDict) (header : String) : String :=
  match flattenedDict.find? fun item => namesColumn header item.1 with
  | some item => item.2
  | none => if header = "_id" then "int" else "string"

/-- `set(remove_metadata_fields(self.xform_headers))`. -/
def columnIds (settings : OpenDataSettings) (form : XForm) : List String :=
  (removeMetadataFields (replaceSpecialCharactersWithUnderscores settings
    (form.getHeaders settings.bindType))).eraseDups

/-- `get_tableau_column_headers`. -/
def getTableauColumnHeaders (settings : OpenDataSettings) (flattenedDict : FlattenedDict)
    (form : XForm) : List OpenDataColumn :=
  (columnIds settings form).map fun header =>
    { id := header, dataType := columnType flattenedDict header, «alias» := header }

/-- `schema`: the column headers, and `flattened_dict` after the request. -/
def schema (settings : OpenDataSettings) (flattenedDict : FlattenedDict) (form : XForm) :
    List OpenDataColumn × FlattenedDict :=
  let flattenedDict := flattenXformColumns flattenedDict form.children
  (getTableauColumnHeaders settings flattenedDict form, flattenedDict)

end OpenDataViewSet

end Onadata
