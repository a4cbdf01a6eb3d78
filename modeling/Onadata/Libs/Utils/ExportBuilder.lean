import Onadata.Lib.PyDict

/-!
# `Onadata.Libs.Utils.ExportBuilder`: the tables of a joined export

`dict_to_joined_export` and `decode_mongo_encoded_section_names` of
`libs/utils/export_builder.py`, and the loop of `ExportBuilder.to_zipped_csv` that runs them
over the records.

Left out: what `pre_process_row` and the CSV writer do to the rows.
-/

set_option autoImplicit false

namespace Onadata

open Onadata.Lib

/-- The columns of a row. -/
abbrev Cells := List (String × PyValue)

/-- A value of the output: the row of the dict itself, or the rows of a repeat. -/
inductive Section
  | row (cells : Cells)
  | rows (items : List Cells)
  deriving Repr

/-- The result of `dict_to_joined_export`. -/
abbrev JoinedOutput := List (String × Section)

/-- The arguments that stay the same during an export: the media xpaths, and the address that
`current_site_url` puts before a path. -/
structure JoinedExport where
  mediaXpaths : List String := []
  siteUrl : String := ""
  deriving Repr

/-! ### A cell -/

/-- `TAGS`, `NOTES` and `ATTACHMENTS`: lists that are no repeats. -/
def isMetadataList (key : String) : Bool :=
  key = "_notes" || key = "_attachments" || key = "_tags"

/-- `separator.join(items)`, for texts. -/
def joinTexts (separator : String) (items : List PyValue) : Except PyError PyValue := do
  let texts ← items.mapM fun item =>
    match item with
    | .str text => Except.ok text
    | _ => .error .typeError
  return .str (separator.intercalate texts)

/-- `v if isinstance(v, str) else v["note"]`. -/
def noteText : PyValue → Except PyError PyValue
  | .str text => .ok (.str text)
  | .dict items =>
      match Dict.get? items "note" with
      | some note => .ok note
      | none => .error .keyError
  | _ => .error .typeError

/-- The items of a list of dicts. -/
def dictItems : PyValue → Except PyError (List Cells)
  | .list items => items.mapM fun item =>
      match item with
      | .dict cells => Except.ok cells
      | _ => .error .attributeError
  | _ => .error .typeError

/-- `a.get("name") == value`, for texts. -/
def hasName (value : PyValue) (attachment : Cells) : Bool :=
  match (Dict.get? attachment "name").getD .none, value with
  | .str name, .str text => name = text
  | .none, .none => true
  | _, _ => false

/-- The text of the download url. -/
def downloadUrl (attachment : Cells) : String :=
  match Dict.get? attachment "download_url" with
  | some (.str path) => path
  | _ => ""

/-- `get_value_or_attachment_uri`, with the attachments of the record for a row that has
none. -/
def JoinedExport.getValueOrAttachmentUri (env : JoinedExport) (key : String) (value : PyValue)
    (row : Cells) (attachmentList : Option PyValue) : Except PyError PyValue :=
  if key ∈ env.mediaXpaths then
    match (Dict.get? row "_attachments").or (attachmentList.filter PyValue.truthy) with
    | none => .ok value
    | some attachments => do
        match (← dictItems attachments).filter (hasName value) with
        | [] => .ok value
        | attachment :: _ => .ok (.str (env.siteUrl ++ downloadUrl attachment))
  else .ok value

/-- `output[name][key]`. `row` is the record, and `data` the dict with the key. -/
def JoinedExport.exportCell (env : JoinedExport) (row data : Cells) (key : String)
    (val : PyValue) : Except PyError PyValue :=
  if key = "_tags" then
    match val with
    | .list items => joinTexts "," items
    | _ => .error .typeError
  else if key = "_notes" then
    match val with
    | .list items => do joinTexts "\r\n" (← items.mapM noteText)
    | _ => .error .typeError
  else env.getValueOrAttachmentUri key val data (Dict.get? row "_attachments")

/-! ### The output of a dict -/

/-- `output[name][key] = cell`. -/
def setCell (output : JoinedOutput) (name key : String) (cell : PyValue) :
    Except PyError JoinedOutput :=
  match Dict.get? output name with
  | none => .ok (Dict.insert output name (.row [(key, cell)]))
  | some (.row cells) => .ok (Dict.insert output name (.row (Dict.insert cells key cell)))
  | some (.rows _) => .error .typeError

/-- `output[key].extend(rows)`, for a new key too. -/
def extendSection (output : JoinedOutput) (key : String) (rows : List Cells) :
    Except PyError JoinedOutput :=
  match Dict.get? output key with
  | none => .ok (Dict.insert output key (.rows rows))
  | some (.rows old) => .ok (Dict.insert output key (.rows (old ++ rows)))
  | some (.row _) => .error .attributeError

/-- The loop over the output of a repeat item: its rows go to the output, and its own row to
the item. -/
def liftOutput (output : JoinedOutput) (item : Cells) :
    JoinedOutput → Except PyError (JoinedOutput × Cells)
  | [] => .ok (output, item)
  | (outKey, .rows rows) :: rest => do
      liftOutput (← extendSection output outKey rows) item rest
  | (_, .row cells) :: rest => liftOutput output (Dict.update item cells) rest

mutual

/-- `dict_to_joined_export`, with the indices that it leaves. -/
def JoinedExport.dictToJoinedExport (env : JoinedExport) (row : Cells) (data : PyValue)
    (index : Nat) (indices : List (String × Nat)) (name : String) :
    Except PyError (JoinedOutput × List (String × Nat)) :=
  match data with
  | .dict items => env.joinItems row items index name [] indices items
  | _ => .ok ([], indices)

/-- The loop over the items of a dict. -/
def JoinedExport.joinItems (env : JoinedExport) (row data : Cells) (index : Nat)
    (name : String) (output : JoinedOutput) (indices : List (String × Nat)) :
    Cells → Except PyError (JoinedOutput × List (String × Nat))
  | [] => .ok (output, indices)
  | (key, .list children) :: rest =>
      if isMetadataList key then do
        let cell ← env.exportCell row data key (.list children)
        env.joinItems row data index name (← setCell output name key cell) indices rest
      else do
        let (output, indices) ←
          env.joinChildren row key index name (Dict.insert output key (.rows [])) indices children
        env.joinItems row data index name output indices rest
  | (key, val) :: rest => do
      let cell ← env.exportCell row data key val
      env.joinItems row data index name (← setCell output name key cell) indices rest

/-- The loop over the items of a repeat. -/
def JoinedExport.joinChildren (env : JoinedExport) (row : Cells) (key : String) (index : Nat)
    (name : String) (output : JoinedOutput) (indices : List (String × Nat)) :
    List PyValue → Except PyError (JoinedOutput × List (String × Nat))
  | [] => .ok (output, indices)
  | child :: rest => do
      let childIndex := (Dict.get? indices key).getD 0 + 1
      let (newOutput, indices) ←
        env.dictToJoinedExport row child childIndex (Dict.insert indices key childIndex) key
      let (output, item) ← liftOutput output
        [("_index", .int childIndex), ("_parent_index", .int index),
          ("_parent_table_name", .str name)] newOutput
      let output ← extendSection output key [item]
      env.joinChildren row key index name output indices rest

end

/-! ### The decoded names -/

/-- `re_b64dot.sub(".", text)`: each `Lg==` becomes a dot. -/
def decodeDots : List Char → List Char
  | 'L' :: 'g' :: '=' :: '=' :: rest => '.' :: decodeDots rest
  | c :: rest => c :: decodeDots rest
  | [] => []

/-- `_decode_from_mongo`: a leading `JA==` becomes a dollar sign, and each `Lg==` a dot. -/
def decodeFromMongo (key : String) : String :=
  match key.toList with
  | 'J' :: 'A' :: '=' :: '=' :: rest => String.ofList (decodeDots ('$' :: rest))
  | cs => String.ofList (decodeDots cs)

mutual

/-- A value in `decode_mongo_encoded_section_names`. -/
def decodeValue : PyValue → PyValue
  | .dict items => .dict (decodeItems [] items)
  | .list items => .list (decodeList items)
  | value => value

/-- The loop of `decode_mongo_encoded_section_names`. -/
def decodeItems (results : Cells) : Cells → Cells
  | [] => results
  | (key, value) :: rest =>
      decodeItems (Dict.insert results (decodeFromMongo key) (decodeValue value)) rest

/-- The values of a list: only the dicts in it are decoded. -/
def decodeList : List PyValue → List PyValue
  | [] => []
  | .dict items :: rest => .dict (decodeItems [] items) :: decodeList rest
  | value :: rest => value :: decodeList rest

end

/-- `decode_mongo_encoded_section_names` of a section. -/
def decodeSection : Section → Section
  | .row cells => .row (decodeItems [] cells)
  | .rows items => .rows (items.map (decodeItems []))

/-- `decode_mongo_encoded_section_names` of an output. -/
def decodeMongoEncodedSectionNames (output : JoinedOutput) : JoinedOutput :=
  output.foldl (fun results item =>
    Dict.insert results (decodeFromMongo item.1) (decodeSection item.2)) []

/-! ### The records -/

/-- The row of the record gets its index and no parent: `output[survey_name][INDEX] = index`,
and the same for the parent index. -/
def attachMeta (output : JoinedOutput) (surveyName : String) (index : Nat) :
    Except PyError JoinedOutput :=
  match Dict.get? output surveyName with
  | none => .ok (Dict.insert output surveyName
      (.row [("_index", .int index), ("_parent_index", .int (-1))]))
  | some (.row cells) => .ok (Dict.insert output surveyName
      (.row (Dict.insert (Dict.insert cells "_index" (.int index)) "_parent_index" (.int (-1)))))
  | some (.rows _) => .error .typeError

/-- The loop of `to_zipped_csv` over the records, from a record number on. -/
def JoinedExport.exportRecords (env : JoinedExport) (surveyName : String) (index : Nat)
    (indices : List (String × Nat)) : List Cells → Except PyError (List JoinedOutput)
  | [] => .ok []
  | record :: rest => do
      let (joinedExport, indices) ←
        env.dictToJoinedExport record (.dict record) index indices surveyName
      let output ← attachMeta (decodeMongoEncodedSectionNames joinedExport) surveyName index
      return output :: (← env.exportRecords surveyName (index + 1) indices rest)

/-- `ExportBuilder.to_zipped_csv`: the output of each record. -/
def JoinedExport.toZippedCsv (env : JoinedExport) (surveyName : String) (data : List Cells) :
    Except PyError (List JoinedOutput) :=
  env.exportRecords surveyName 1 [] data

/-- The rows that are written for a section. -/
def Section.written : Section → List Cells
  | .row cells => [cells]
  | .rows items => items

/-- The rows of the table of a section. -/
def tableRows (outputs : List JoinedOutput) (sectionName : String) : List Cells :=
  outputs.flatMap fun output => ((Dict.get? output sectionName).map Section.written).getD []

end Onadata
