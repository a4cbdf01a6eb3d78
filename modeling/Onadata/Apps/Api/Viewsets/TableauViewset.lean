import Onadata.Apps.Api.Viewsets.OpenDataViewset
import Onadata.Lib.Pairing
import Onadata.Lib.PyValue
import Onadata.Lib.TextParts

/-!
# `Onadata.Apps.Api.Viewsets.TableauViewset`: submissions for Tableau

`process_tableau_data` of `apps/api/viewsets/v2/tableau_viewset.py`, and `pairing` of
`libs/renderers/renderers.py`. The rows of a submission are the submission itself and one for each
item of its repeats. The items of a repeat become a list under the name of the repeat, and those of
an inner repeat are lifted out of the items around them.

Left out: the filters and the pages of the request, and the metadata fields that the serializer
removes.
-/

set_option autoImplicit false

namespace Onadata

open Onadata.Lib

/-- A form. `listNames` are the lists of the choices of its questions, by their xpaths. -/
structure TableauForm extends XForm where
  listNames : List (String × String) := []

/-- `DEFAULT_TABLE_NAME`. -/
def DEFAULT_TABLE_NAME : String := "data"

/-- `GPS_PARTS`. -/
def GPS_PARTS : List String := ["latitude", "longitude", "altitude", "precision"]

/-- `element.get("type")`. -/
def SurveyElement.type : SurveyElement → String
  | .question _ type _ => type
  | .group _ _ => "group"
  | .repeatSection _ _ => "repeat"

/-- The names of the choices of a question. -/
def SurveyElement.choiceNames : SurveyElement → List String
  | .question _ _ choices => choices
  | _ => []

/-- `f"{element.get('list_name')}"`. -/
def TableauForm.listName (form : TableauForm) (path : List String) : String :=
  (Dict.get? form.listNames (joinPath path)).getD "None"

/-! ### The rows -/

/-- A row of a table. -/
abbrev TableauRow := List (String × PyValue)

/-- `int(pairing(val1, val2))`. The product is even and not negative, so that the quotient is the
double nearest to a natural number; the sum is one again. -/
def pairing (val1 : Int) (val2 : Nat) : Except PyError Nat :=
  let product := ((val1 + val2) * (val1 + val2 + 1)).toNat
  match (do
    let quotient ← roundDouble (product / 2)
    let addend ← roundDouble val2
    roundDouble (quotient + addend)) with
  | some code => .ok code
  | none => .error (.other "OverflowError")

/-- The id of an item of a repeat. -/
def itemId (parentId : PyValue) (idx : Nat) : Except PyError PyValue :=
  match parentId with
  | .int parentId => do return .int (← pairing parentId idx)
  | _ => .error .typeError

/-- The names of the groups above an element, `"_".join(prefix_parts)`. -/
def TableauForm.groupPrefix (form : TableauForm) (path : List String) : String :=
  "_".intercalate (path.dropLast.filter fun name =>
    (form.getSurveyElement name).any fun element => element.2.type = "group")

/-- A name with the prefix, if there is one. -/
def withPrefix (groups name : String) : String :=
  if groups = "" then name else groups ++ "_" ++ name

/-- `value.split(" ")`. -/
def splitAnswer : PyValue → Except PyError (List String)
  | .str text => .ok (splitText " " text)
  | _ => .error .attributeError

/-- `unpack_select_multiple_data`. -/
def unpackSelectMultipleData (pickedChoices : List String) (listName : String)
    (choiceNames : List String) (groups : String) : List (String × PyValue) :=
  Dict.update [] (choiceNames.map fun choice =>
    (withPrefix groups (listName ++ "_" ++ choice),
      .str (if choice ∈ pickedChoices then "TRUE" else "FALSE")))

/-- `unpack_gps_data`. -/
def unpackGpsData (valueParts : List String) (qstnName groups : String) :
    List (String × PyValue) :=
  let gpsXpathParts := GPS_PARTS.map fun part =>
    withPrefix groups ("_" ++ qstnName ++ "_" ++ part)
  if valueParts.length = 4 then gpsXpathParts.zip (valueParts.map .str) else []

/-- What an answer to a question that is no repeat puts in its row. -/
def answerColumns (form : TableauForm) (element : PlacedElement) (value : PyValue) :
    Except PyError (List (String × PyValue)) :=
  let groups := form.groupPrefix element.1
  if element.2.type = MULTIPLE_SELECT_TYPE then do
    return unpackSelectMultipleData (← splitAnswer value) (form.listName element.1)
      element.2.choiceNames groups
  else if element.2.type = "geopoint" then do
    return unpackGpsData (← splitAnswer value) element.2.name groups
  else return [(withPrefix groups element.2.name, value)]

/-- `flat_dict[key].extend(items)` of a `defaultdict(list)`. -/
def extendList (flat : TableauRow) (key : String) (items : List PyValue) :
    Except PyError TableauRow :=
  match Dict.get? flat key with
  | none => .ok (Dict.insert flat key (.list items))
  | some (.list old) => .ok (Dict.insert flat key (.list (old ++ items)))
  | some _ => .error .attributeError

/-- The lists of a row of a repeat go to the row around it. -/
def liftLists (flat : TableauRow) : TableauRow → Except PyError TableauRow
  | [] => .ok flat
  | (key, .list items) :: rest => do liftLists (← extendList flat key items) rest
  | _ :: rest => liftLists flat rest

/-- A row without its lists. -/
def withoutLists (row : TableauRow) : TableauRow :=
  row.filter fun cell => !cell.2.isList

/-- `unpack_repeat_data`: the row around the repeat, with the lists of the rows of the repeat. -/
def unpackRepeatData (repeatData : List TableauRow) (flat : TableauRow) :
    Except PyError TableauRow :=
  repeatData.foldlM liftLists flat

/-- What a row starts with: the id that it has, or the one that its parent and its position give. -/
def startRow (parentTable parentId : PyValue) (idx : Nat) (row : List (String × PyValue)) :
    Except PyError (PyValue × TableauRow) :=
  let rowId := (Dict.get? row "_id").getD .none
  if !rowId.truthy && parentId.truthy then do
    let rowId ← itemId parentId idx
    return (rowId, [("__parent_id", parentId), ("__parent_table", parentTable), ("_id", rowId)])
  else return (rowId, [("_id", rowId)])

/-- What a key of a row puts in it, with the element that the key names. `repeatData` are the rows of
a repeat with a name. -/
def addField (form : TableauForm) (element : Option PlacedElement) (value : PyValue)
    (flat : TableauRow) (repeatData : String → Except PyError (List TableauRow)) :
    Except PyError TableauRow :=
  match element with
  | none => .ok flat
  | some element =>
      if element.2.type = "repeat" then do
        let rows ← repeatData element.2.name
        let flat ← unpackRepeatData rows flat
        return Dict.insert flat element.2.name
          (.list (rows.map fun row => .dict (withoutLists row)))
      else do
        return Dict.update flat (← answerColumns form element value)

section
variable (form : TableauForm)

mutual

/-- `process_tableau_data` on the rows from position `idx` on. -/
def processItems (parentTable parentId : PyValue) (currentTable : String)
    (items : List PyValue) (idx : Nat) : Except PyError (List TableauRow) :=
  match items with
  | [] => .ok []
  | row :: rest => do
      let flat ← processRow parentTable parentId currentTable idx row
      return flat :: (← processItems parentTable parentId currentTable rest (idx + 1))
termination_by structural items

/-- `process_tableau_data` on one row. -/
def processRow (parentTable parentId : PyValue) (currentTable : String) (idx : Nat)
    (row : PyValue) : Except PyError TableauRow :=
  match row with
  | .dict row => do
      let start ← startRow parentTable parentId idx row
      processFields currentTable start.1 row start.2
  | _ => .error .attributeError
termination_by structural row

/-- The loop over the keys of a row. -/
def processFields (currentTable : String) (rowId : PyValue) (row : List (String × PyValue))
    (flat : TableauRow) : Except PyError TableauRow :=
  match row with
  | [] => .ok flat
  | (key, value) :: rest => do
      let flat ← addField form (form.getElement key) value flat
        fun name => processRepeat currentTable rowId name value
      processFields currentTable rowId rest flat
termination_by structural row

/-- `process_tableau_data` on the value of a repeat. -/
def processRepeat (currentTable : String) (rowId : PyValue) (name : String) (value : PyValue) :
    Except PyError (List TableauRow) :=
  match value with
  | .list items => processItems (.str currentTable) rowId name items 1
  | value => if value.truthy then .error .typeError else .ok []
termination_by structural value

end

/-- `process_tableau_data`. -/
def processTableauData (data : List PyValue) : Except PyError (List TableauRow) :=
  processItems form .none .none DEFAULT_TABLE_NAME data 1

end

end Onadata
