import Onadata.Apps.Logger.Models.XForm

/-!
# `Onadata.Libs.Utils.CsvBuilder`: the columns of a record

`CSVDataFrameBuilder._reindex` of `libs/utils/csv_builder.py`, which turns the lists of a
record into columns with indices, and the row that `_format_for_dataframe` makes with it.

Left out: `ordered_columns`, which `_reindex` writes and never reads for its result, and the
labels and media links in the place of values.
-/

set_option autoImplicit false

namespace Onadata

open Onadata.Lib

/-- `ATTACHMENTS`. -/
def ATTACHMENTS : String := "_attachments"

/-- `NOTES`. -/
def NOTES : String := "_notes"

/-- `DEFAULT_NA_REP`. -/
def DEFAULT_NA_REP : String := "n/a"

/-- `DEFAULT_INDEX_TAGS`. -/
def DEFAULT_INDEX_TAGS : String × String := ("[", "]")

/-- The keys that an element has in `get_ordered_repeat_value`. -/
def elementKeys (splitSelectMultiples : Bool) (element : PlacedElement) : List String :=
  match element.2 with
  | .question _ type choices =>
      if questionTypesToExclude type then []
      else if splitSelectMultiples ∧ choices ≠ [] ∧ type = MULTIPLE_SELECT_TYPE then
        choices.map fun choice => joinPath (element.1 ++ [choice])
      else [element.xpath]
  | _ => [element.xpath]

/-- `get_ordered_repeat_value`: the values of an item in the order of the form. -/
def getOrderedRepeatValue (form : XForm) (splitSelectMultiples : Bool) (xpath : String)
    (repeatValue : List (String × PyValue)) : List (String × PyValue) :=
  let keys := (form.getChildElements xpath).flatMap (elementKeys splitSelectMultiples)
  keys.foldl (fun item key =>
    Dict.insert item key ((Dict.get? repeatValue key).getD (.str DEFAULT_NA_REP))) []

/-- The xpath of a key with the indices of the list items that it is in. -/
def indexedKey (parentPrefix : Option (List String)) (key : String) : String :=
  match parentPrefix with
  | some names => joinPath (names ++ (splitPath key).drop names.length)
  | none => key

/-- `xpaths` of `_reindex`: the names of the column of `nestedKey` in an item of `key`. -/
def columnNames (indexTags : String × String) (parentPrefix : Option (List String))
    (key : String) (index : Nat) (nestedKey : String) : List String :=
  let indexed := indexedKey parentPrefix key
  splitPath (joinPath ((indexed ++ indexTags.1 ++ toString index ++ indexTags.2) ::
    (splitPath nestedKey).drop (splitPath indexed).length))

/-- What `_reindex` goes through for a list item: its values in the order of the form.
A repeat of the data that is no repeat of the form keeps its own keys. -/
def reindexedItem (form : XForm) (splitSelectMultiples : Bool) (key : String)
    (item : List (String × PyValue)) : List (String × PyValue) :=
  let ordered := getOrderedRepeatValue form splitSelectMultiples key item
  match Dict.get? ordered key with
  | some (.str value) => if value = DEFAULT_NA_REP then item else ordered
  | _ => ordered

/-- `_reindex`. `fuel` bounds how deep lists are nested in the value. -/
def reindexWithin (form : XForm) (splitSelectMultiples : Bool) (indexTags : String × String) :
    Nat → String → PyValue → Option (List String) → List (String × PyValue)
  | fuel + 1, key, .list items, parentPrefix =>
      if items ≠ [] ∧ key ∉ [ATTACHMENTS, NOTES] then
        (items.zipIdx 1).foldl (fun record indexedItem =>
          match indexedItem.1 with
          | .dict item =>
              (reindexedItem form splitSelectMultiples key item).foldl (fun record nested =>
                let xpaths := columnNames indexTags parentPrefix key indexedItem.2 nested.1
                if nested.2.isList then
                  Dict.update record (reindexWithin form splitSelectMultiples indexTags fuel
                    nested.1 nested.2 (some xpaths.dropLast))
                else Dict.insert record (joinPath xpaths) nested.2) record
          | _ => Dict.insert record key (.list items)) []
      else if key = NOTES then [(key, .str "")] else [(key, .list items)]
  -- Do not include notes.
  | _, key, value, _ => if key = NOTES then [(key, .str "")] else [(key, value)]

/-- `_reindex`, with enough fuel for the value. -/
def reindex (form : XForm) (splitSelectMultiples : Bool) (indexTags : String × String)
    (key : String) (value : PyValue) : List (String × PyValue) :=
  reindexWithin form splitSelectMultiples indexTags value.depth key value none

/-- `flat_dict` of `_format_for_dataframe`: the record with each of its keys reindexed. -/
def flatDict (form : XForm) (splitSelectMultiples : Bool) (indexTags : String × String)
    (record : List (String × PyValue)) : List (String × PyValue) :=
  record.foldl (fun flat item =>
    Dict.update flat (reindex form splitSelectMultiples indexTags item.1 item.2)) []

end Onadata
