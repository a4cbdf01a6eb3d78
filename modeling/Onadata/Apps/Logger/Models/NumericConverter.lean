import Onadata.Lib.PyValue

/-!
# `Onadata.Apps.Logger.Models.NumericConverter`: numbers in the JSON of a submission

`numeric_checker` and `InstanceBaseClass.numeric_converter` of `apps/logger/models/instance.py`.

Python reads numbers from texts by `PyNumbers`. The converter changes the dicts and lists of its
argument while it goes through them. Each key and each item is assigned to only at its own turn,
but for a text in a list, which is assigned to the key of the list.
-/

set_option autoImplicit false

namespace Onadata

open Onadata.Lib

/-- `int(text)`, and `repr(float(text))`. -/
structure PyNumbers where
  intOf : String → Option Int
  floatOf : String → Option String

/-- `numeric_checker`. -/
def numericChecker (py : PyNumbers) (stringValue : String) : PyValue :=
  match py.intOf stringValue with
  | some n => .int n
  | none =>
      match py.floatOf stringValue with
      | some repr => if repr = "nan" then .int 0 else .float repr
      | none => .str stringValue

section
variable (py : PyNumbers) (numericFields : List String)

mutual

/-- `numeric_converter`: the loop over the items of a dict. -/
def numericConverter : List (String × PyValue) → List (String × PyValue)
  | [] => []
  | (key, value) :: rest => (key, convertValue key value) :: numericConverter rest

/-- The value of a key after its round of the loop. -/
def convertValue (key : String) : PyValue → PyValue
  | .str s => if key ∈ numericFields then numericChecker py s else .str s
  | .dict items => .dict (numericConverter items)
  | .list items =>
      let (items, assigned) := convertElements key items
      assigned.getD (.list items)
  | value => value

/-- The loop over a list: the list, and what was assigned to its key last. -/
def convertElements (key : String) : List PyValue → List PyValue × Option PyValue
  | [] => ([], none)
  | .str s :: rest =>
      let (items, assigned) := convertElements key rest
      (.str s :: items,
        if key ∈ numericFields then assigned.or (some (numericChecker py s)) else assigned)
  | .dict d :: rest =>
      let (items, assigned) := convertElements key rest
      (.dict (numericConverter d) :: items, assigned)
  | v :: rest =>
      let (items, assigned) := convertElements key rest
      (v :: items, assigned)

end

end

end Onadata
