import Onadata.Lib.TextParts
import Onadata.Lib.UnusedName

/-!
# `Onadata.Apps.Logger.Models.IdStrings`: id_strings that are new in an account

`get_unique_id_string` of `apps/logger/models/xform.py`. It calls itself until the id_string is in
no live form of the account. The interpreter allows only so many nested calls.

What Python and the database know of characters is a parameter: the classes of regular expressions
and the upper case of a text, by which `iexact` compares.
-/

set_option autoImplicit false

namespace Onadata

open Onadata.Lib

/-- The classes `\w` and `\d`, and `UPPER` of the database. -/
structure IdStringRules where
  isWord : Char → Bool
  isDecimal : Char → Bool
  upper : String → String
  isWord_underscore : isWord '_' = true
  isWord_of_isDecimal : ∀ c, isDecimal c = true → isWord c = true
  isDecimal_digit : ∀ c : Char, c.isDigit = true → isDecimal c = true
  not_isDecimal_underscore : isDecimal '_' = false
  upper_append : ∀ text text', upper (text ++ text') = upper text ++ upper text'
  upper_underscore : upper "_" = "_"
  upper_number : ∀ n : Nat, upper (toString n) = toString n

section
variable (rules : IdStringRules)

/-- `re.match(r"\w+_\d+$", text)`, where `$` also matches before a newline at the end. -/
def endsWithNumber (text : String) : Bool :=
  let chars := if text.toList.getLast? = some '\n' then text.toList.dropLast else text.toList
  (List.range chars.length).any fun k =>
    0 < k && (chars.take k).all rules.isWord && chars[k]? == some '_' &&
      k + 1 < chars.length && (chars.drop (k + 1)).all rules.isDecimal

/-- `"_".join(text.split("_")[:-1])`. -/
def withoutLastPart (text : String) : String :=
  "_".intercalate (splitText "_" text).dropLast

/-- `_id_string_already_exists_in_account`. `account` are the id_strings of the live forms. -/
def idStringAlreadyExistsInAccount (account : List String) (idString : String) : Bool :=
  rules.upper idString ∈ account.map rules.upper

/-- The arguments of the next call. -/
def nextIdString (call : String × Nat) : String × Nat :=
  let (idString, count) := call
  let idString :=
    if count ≠ 0 ∧ endsWithNumber rules idString then withoutLastPart idString else idString
  (idString ++ "_" ++ toString (count + 1), count + 1)

/-- `get_unique_id_string(id_string)`, or none when it needs more than `frames` nested calls and
raises `RecursionError`. -/
def getUniqueIdString (account : List String) (frames : Nat) (idString : String) : Option String :=
  (searchUnused (fun call => idStringAlreadyExistsInAccount rules account call.1)
    (nextIdString rules) frames (idString, 0)).map Prod.fst

end

end Onadata
