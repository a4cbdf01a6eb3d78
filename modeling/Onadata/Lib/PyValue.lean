/-!
# `Onadata.Lib.PyValue`: Python values that come from JSON

The values that `json.loads` builds, the exceptions of the built-in operations on them and
the dict operations. A dict is the list of its items in insertion order.

`jsonEq` is the equality of PostgreSQL's `jsonb`: the order of the keys of an object does not
matter, and a whole number is the float of its value.
-/

set_option autoImplicit false

namespace Onadata.Lib

/-- The exceptions that the modelled code catches or lets through. -/
inductive PyError
  | valueError
  | attributeError
  | typeError
  | indexError
  | keyError
  | recursionError
  | other (name : String)
  deriving DecidableEq, Repr

/-- A value of `json.loads`. A float is kept as its `repr`. -/
inductive PyValue
  | none
  | bool (b : Bool)
  | int (n : Int)
  | float (repr : String)
  | str (s : String)
  | list (items : List PyValue)
  | dict (items : List (String × PyValue))
  deriving Repr

namespace PyValue

/-- `bool(value)`. -/
def truthy : PyValue → Bool
  | .none => false
  | .bool b => b
  | .int n => n ≠ 0
  | .float repr => repr ≠ "0.0" && repr ≠ "-0.0"
  | .str s => s ≠ ""
  | .list items => !items.isEmpty
  | .dict items => !items.isEmpty

/-- `isinstance(value, str)`. -/
def isStr : PyValue → Bool
  | .str _ => true
  | _ => false

/-- `isinstance(value, dict)`. -/
def isDict : PyValue → Bool
  | .dict _ => true
  | _ => false

/-- `isinstance(value, list)`. -/
def isList : PyValue → Bool
  | .list _ => true
  | _ => false

mutual

/-- How deep lists and dicts are nested in the value. -/
def depth : PyValue → Nat
  | .list items => depthOfItems items + 1
  | .dict items => depthOfDict items + 1
  | _ => 0

/-- The depth of the items of a list. -/
def depthOfItems : List PyValue → Nat
  | [] => 0
  | item :: rest => max item.depth (depthOfItems rest)

/-- The depth of the values of a dict. -/
def depthOfDict : List (String × PyValue) → Nat
  | [] => 0
  | (_, value) :: rest => max value.depth (depthOfDict rest)

end

/-- An item of a list is not as deep as the list. -/
theorem depth_le_of_mem {items : List PyValue} {item : PyValue} (h : item ∈ items) :
    item.depth ≤ depthOfItems items := by
  induction items with
  | nil => simp at h
  | cons first rest ih =>
      rw [depthOfItems]
      rcases List.mem_cons.mp h with rfl | h
      · exact Nat.le_max_left _ _
      · exact Nat.le_trans (ih h) (Nat.le_max_right _ _)

/-- A value of a dict is not as deep as the dict. -/
theorem depth_le_of_mem_dict {items : List (String × PyValue)} {item : String × PyValue}
    (h : item ∈ items) : item.2.depth ≤ depthOfDict items := by
  induction items with
  | nil => simp at h
  | cons first rest ih =>
      rw [depthOfDict]
      rcases List.mem_cons.mp h with rfl | h
      · exact Nat.le_max_left _ _
      · exact Nat.le_trans (ih h) (Nat.le_max_right _ _)

end PyValue

/-! ### Dicts -/

namespace Dict

variable {Key Value : Type} [DecidableEq Key]

/-- `d[key] = value`: a new key goes to the end. -/
def insert (d : List (Key × Value)) (key : Key) (value : Value) : List (Key × Value) :=
  match d with
  | [] => [(key, value)]
  | item :: rest => if item.1 = key then (key, value) :: rest else item :: insert rest key value

/-- `d.get(key)`. -/
def get? (d : List (Key × Value)) (key : Key) : Option Value :=
  match d with
  | [] => none
  | item :: rest => if item.1 = key then some item.2 else get? rest key

/-- `d` after `d.update(items)`. -/
def update (d items : List (Key × Value)) : List (Key × Value) :=
  items.foldl (fun d item => insert d item.1 item.2) d

/-- `d` after `d.pop(key)`. -/
def erase (d : List (Key × Value)) (key : Key) : List (Key × Value) :=
  d.filter fun item => item.1 ≠ key

theorem insert_nil (key : Key) (value : Value) : insert [] key value = [(key, value)] := rfl

theorem insert_cons (item : Key × Value) (rest : List (Key × Value)) (key : Key) (value : Value) :
    insert (item :: rest) key value =
      if item.1 = key then (key, value) :: rest else item :: insert rest key value := rfl

theorem get?_nil (key : Key) : get? ([] : List (Key × Value)) key = none := rfl

theorem get?_cons (item : Key × Value) (rest : List (Key × Value)) (key : Key) :
    get? (item :: rest) key = if item.1 = key then some item.2 else get? rest key := rfl

/-- An inserted item is in the dict. -/
theorem mem_insert (d : List (Key × Value)) (key : Key) (value : Value) :
    (key, value) ∈ insert d key value := by
  induction d with
  | nil => simp [insert_nil]
  | cons item rest ih =>
      by_cases h : item.1 = key
      · simp [insert_cons, h]
      · simp [insert_cons, h, ih]

end Dict

/-! ### `json.loads` -/

/-- A parsed JSON text, before the objects become dicts. -/
inductive RawJson
  | none
  | bool (b : Bool)
  | int (n : Int)
  | float (repr : String)
  | str (s : String)
  | array (items : List RawJson)
  | object (pairs : List (String × RawJson))
  deriving Repr

mutual

/-- The value of a JSON text. `hook` makes the items of a dict from the pairs of an
object; the inner objects are made first. -/
def RawJson.decode (hook : List (String × PyValue) → List (String × PyValue)) :
    RawJson → PyValue
  | .none => .none
  | .bool b => .bool b
  | .int n => .int n
  | .float repr => .float repr
  | .str s => .str s
  | .array items => .list (decodeItems hook items)
  | .object pairs => .dict (hook (decodePairs hook pairs))

/-- `RawJson.decode` on the items of an array. -/
def RawJson.decodeItems (hook : List (String × PyValue) → List (String × PyValue)) :
    List RawJson → List PyValue
  | [] => []
  | item :: rest => RawJson.decode hook item :: RawJson.decodeItems hook rest

/-- `RawJson.decode` on the pairs of an object. -/
def RawJson.decodePairs (hook : List (String × PyValue) → List (String × PyValue)) :
    List (String × RawJson) → List (String × PyValue)
  | [] => []
  | (key, value) :: rest =>
      (key, RawJson.decode hook value) :: RawJson.decodePairs hook rest

end

/-- The default hook: the last value of a key wins. -/
def lastWins (pairs : List (String × PyValue)) : List (String × PyValue) :=
  pairs.foldl (fun d pair => Dict.insert d pair.1 pair.2) []

/-- The functions of the Python library that the modelled code calls.

- `jsonLoads`: the JSON text of `json.loads`, or the exception it raises;
- `str`: `str(value)` of a value that is not a string;
- `strptime`: `str(datetime.datetime.strptime(text, format))` for the first of the given
  formats that matches. -/
structure PyRuntime where
  jsonLoads : String → Except PyError RawJson
  str : PyValue → String
  strptime : List String → String → Option String

/-- `str(value)`. -/
def PyRuntime.text (py : PyRuntime) : PyValue → String
  | .str s => s
  | value => py.str value

mutual

/-- The values are equal as JSON. The keys of a dict are different. -/
def jsonEq : PyValue → PyValue → Bool
  | .none, .none => true
  | .bool a, .bool b => a = b
  | .int a, .int b => a = b
  | .float a, .float b => a = b
  | .int a, .float b => b = toString a ++ ".0"
  | .float a, .int b => a = toString b ++ ".0"
  | .str a, .str b => a = b
  | .list xs, .list ys => jsonEqItems xs ys
  | .dict xs, .dict ys => xs.length = ys.length && jsonEqDict xs ys
  | _, _ => false

/-- The items of two lists are equal. -/
def jsonEqItems : List PyValue → List PyValue → Bool
  | [], [] => true
  | x :: xs, y :: ys => jsonEq x y && jsonEqItems xs ys
  | _, _ => false

/-- Each item of the first dict is in the second one. -/
def jsonEqDict : List (String × PyValue) → List (String × PyValue) → Bool
  | [], _ => true
  | (key, value) :: rest, other =>
      (match Dict.get? other key with
        | some found => jsonEq value found
        | none => false) && jsonEqDict rest other

end

end Onadata.Lib
