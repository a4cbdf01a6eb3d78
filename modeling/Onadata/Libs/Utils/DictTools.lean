import Onadata.Lib.PyDict
import Onadata.Lib.SlashPath

/-!
# `Onadata.Libs.Utils.DictTools`: from the columns of a row to nested dicts

`list_to_dict`, `merge_list_of_dicts`, `remove_indices_from_dict`, `csv_dict_to_nested_dict`,
`dict_lists2strings` and `dict_paths2dict` of `libs/utils/dict_tools.py`.
-/

set_option autoImplicit false

namespace Onadata

open Onadata.Lib

/-- `key.find("[")`. -/
def findBracket (key : String) : Int :=
  match key.toList.findIdx? (· = '[') with
  | some i => i
  | none => -1

/-- `list_to_dict`. It goes through the keys from the last to the first. -/
def listToDict (items : List String) (value : PyValue) : PyValue :=
  items.foldr (fun key value =>
    .dict [(key, if findBracket key > 0 then .list [value] else value)]) value

/-! ### Merging -/

/-- The rows that a list value is merged from: `result[key] + value if key in result else
value`. When `result` is a list, no key is in it. -/
def rowsToMerge (result : PyValue) (key : String) (items : List PyValue) :
    Except PyError (List PyValue) :=
  match result with
  | .dict d =>
      match Dict.get? d key with
      | none => .ok items
      | some (.list old) => .ok (old ++ items)
      | some _ => .error .typeError
  | _ => .ok items

/-- `result[key] = value`. -/
def setItem (result : PyValue) (key : String) (value : PyValue) : Except PyError PyValue :=
  match result with
  | .dict d => .ok (.dict (Dict.insert d key value))
  | _ => .error .typeError

/-- `result[key]` becomes what it is merged with the dict `value` to. A text that
`overrideKeys` names gives way to the dict. -/
def mergeValues (overrideKeys : List String) (merge : List PyValue → Except PyError PyValue)
    (key : String) (old value : PyValue) : Except PyError PyValue :=
  match merge [old, value] with
  | .error .attributeError =>
      if old.isStr ∧ key ∈ overrideKeys then merge [.dict [], value]
      else .error .attributeError
  | merged => merged

/-- One key and value of a row in `merge_list_of_dicts`. `merge` is the function itself, for
the dicts inside. -/
def mergeItem (overrideKeys : List String) (merge : List PyValue → Except PyError PyValue)
    (row : PyValue) (result : PyValue) (item : String × PyValue) : Except PyError PyValue :=
  match item.2 with
  | .list items => do
      let merged ← merge (← rowsToMerge result item.1 items)
      setItem result item.1 (if merged.isList then merged else .list [merged])
  | value =>
      match result with
      | .dict d =>
          match Dict.get? d item.1 with
          | none => setItem result item.1 value
          | some old =>
              if value.isDict then do
                setItem result item.1 (← mergeValues overrideKeys merge item.1 old value)
              -- Two scalars for one key: the result becomes a list.
              else .ok (.list [result, row])
      | _ => setItem result item.1 value

/-- One row in `merge_list_of_dicts`. -/
def mergeRow (overrideKeys : List String) (merge : List PyValue → Except PyError PyValue)
    (result : PyValue) (row : PyValue) : Except PyError PyValue :=
  match row with
  | .dict items => items.foldlM (mergeItem overrideKeys merge row) result
  | _ => .error .attributeError

/-- `merge_list_of_dicts`. `fuel` bounds the recursion. -/
def mergeWithin (overrideKeys : List String) :
    Nat → List PyValue → Except PyError PyValue
  | 0, _ => .error .recursionError
  | fuel + 1, rows =>
      rows.foldlM (mergeRow overrideKeys (mergeWithin overrideKeys fuel)) (.dict [])

/-- `merge_list_of_dicts`, with fuel for each level of the rows. -/
def mergeListOfDicts (listOfDicts : List PyValue) (overrideKeys : List String) :
    Except PyError PyValue :=
  mergeWithin overrideKeys (PyValue.depth (.list listOfDicts)) listOfDicts

/-! ### Removing indices -/

/-- `key[:bracket_index] if bracket_index > -1 else key`. -/
def withoutIndex (key : String) : String :=
  if findBracket key > -1 then String.ofList (key.toList.take (findBracket key).toNat) else key

/-- `value.extend(other)`. A dict gives its keys, a text its characters. -/
def extend (value other : PyValue) : Except PyError PyValue :=
  match value with
  | .list items =>
      match other with
      | .list others => .ok (.list (items ++ others))
      | .dict others => .ok (.list (items ++ others.map fun item => .str item.1))
      | .str text => .ok (.list (items ++ text.toList.map fun c => .str (String.singleton c)))
      | _ => .error .typeError
  | _ => .error .attributeError

mutual

/-- A value in the loop of `remove_indices_from_dict`. -/
def removeIndicesFromValue : PyValue → Except PyError PyValue
  | .dict items => do return .dict (← removeIndicesFromItems [] items)
  | .list rows => do return .list (← removeIndicesFromRows rows)
  | value => .ok value

/-- The loop of `remove_indices_from_dict`. -/
def removeIndicesFromItems (result : List (String × PyValue)) :
    List (String × PyValue) → Except PyError (List (String × PyValue))
  | [] => .ok result
  | (key, value) :: rest => do
      let value ← removeIndicesFromValue value
      match Dict.get? result (withoutIndex key) with
      | none => removeIndicesFromItems (Dict.insert result (withoutIndex key) value) rest
      | some old =>
          removeIndicesFromItems (Dict.insert result (withoutIndex key) (← extend old value)) rest

/-- The rows of a list value. -/
def removeIndicesFromRows : List PyValue → Except PyError (List PyValue)
  | [] => .ok []
  | .dict items :: rest => do
      let row := PyValue.dict (← removeIndicesFromItems [] items)
      return row :: (← removeIndicesFromRows rest)
  | row :: rest => do return row :: (← removeIndicesFromRows rest)

end

/-- `remove_indices_from_dict`. -/
def removeIndicesFromDict (obj : PyValue) : Except PyError PyValue :=
  match obj with
  | .dict items => do return .dict (← removeIndicesFromItems [] items)
  | _ => .error .valueError

/-! ### The nested dict of a row -/

/-- The dict of one column. -/
def columnToDict (key : String) (value : PyValue) : PyValue :=
  let splitKeys := splitPath key
  if splitKeys.length = 1 then .dict [(key, value)] else listToDict splitKeys value

/-- `csv_dict_to_nested_dict`. -/
def csvDictToNestedDict (csvDict : List (String × PyValue)) (selectMultiples : List String) :
    Except PyError PyValue := do
  let results := csvDict.map fun item => columnToDict item.1 item.2
  let mergedDict ← mergeListOfDicts results selectMultiples
  removeIndicesFromDict mergedDict

/-! ### The answers of a JSON submission -/

/-- The text of a value that is one. -/
def PyValue.text? : PyValue → Option String
  | .str s => some s
  | _ => none

mutual

/-- A value in the loop of `dict_lists2strings`. A list of texts is joined. -/
def listToString : PyValue → PyValue
  | .list items =>
      match items.mapM PyValue.text? with
      | some texts => .str (" ".intercalate texts)
      | none => .list items
  | .dict items => .dict (dictLists2strings items)
  | value => value

/-- `dict_lists2strings`. -/
def dictLists2strings : List (String × PyValue) → List (String × PyValue)
  | [] => []
  | (key, value) :: rest => (key, listToString value) :: dictLists2strings rest

end

/-- `key.find("/")`. -/
def findSlash (key : String) : Int :=
  match key.toList.findIdx? (· = '/') with
  | some i => i
  | none => -1

/-- `{part: value}` for one part after the other. -/
def wrapParts (parts : List String) (value : PyValue) : PyValue :=
  parts.foldl (fun value part => .dict [(part, value)]) value

/-- A key in the loop of `dict_paths2dict`, with its value. -/
def pathToDict (key : String) (value : PyValue) : String × PyValue :=
  if findSlash key > 0 then
    match splitPath key with
    | first :: second :: rest => (first, wrapParts (second :: rest) value)
    | _ => (key, value)
  else (key, value)

/-- `dict_paths2dict`. -/
def dictPaths2dict (adict : List (String × PyValue)) : List (String × PyValue) :=
  adict.foldl (fun result item =>
    let item := pathToDict item.1 item.2
    Dict.insert result item.1 item.2) []

end Onadata
