import Onadata.Lib.PyText
import Onadata.Lib.UnusedName

/-!
# `Onadata.Libs.Utils.ExportNames`: the sheet, variable and file names of an export

Of `libs/utils/export_builder.py`: `ExportBuilder.get_valid_sheet_name`, whose loop cuts the name
of the last round and appends a counter until the name is new, and `_get_var_name` and
`_check_sav_column` with the loop of `ExportBuilder.to_zipped_sav` that calls them for one title
after the other.

Of `libs/utils/export_tools.py`: `increment_index_in_filename`, and the loop of `generate_export`
that calls it until `is_filename_unique`.

The part of a random UUID that is a suffix is an argument. A cleaned title is ASCII, so that
`str.lower` changes only the letters from A to Z.
-/

set_option autoImplicit false

namespace Onadata

open Onadata.Lib

/-- `ExportBuilder.XLS_SHEET_NAME_MAX_CHARS`. -/
def XLS_SHEET_NAME_MAX_CHARS : Nat := 31

/-- The name that a round of the loop generates, and the next counter. -/
def nextSheetName (round : String × Nat) : String × Nat :=
  let (generatedName, i) := round
  let digitLength := (toString i).length
  let allowedNameLen : Int := (XLS_SHEET_NAME_MAX_CHARS : Int) - digitLength
  let generatedName :=
    if allowedNameLen < generatedName.length then takeUntil generatedName allowedNameLen
    else generatedName
  (generatedName ++ toString i, i + 1)

/-- `get_valid_sheet_name`, for less than `rounds` rounds of its loop. -/
def getValidSheetName (rounds : Nat) (desiredName : String) (existingNames : List String) :
    Option String :=
  let newSheetName := takeStart desiredName XLS_SHEET_NAME_MAX_CHARS
  (searchUnused (fun round => round.1 ∈ existingNames) nextSheetName rounds (newSheetName, 1)).map
    Prod.fst

/-- `str(uuid.uuid4()).split("-")[1]`: four hexadecimal digits. -/
structure UuidPart where
  text : String
  length_eq : text.length = 4 := by decide
  hex : ∀ c ∈ text.toList, c.isDigit = true ∨ ('a' ≤ c ∧ c ≤ 'f') := by decide

/-- The characters of the class `0-9A-Za-z._$#@`. -/
def isSpssChar (c : Char) : Bool :=
  c.isAlphanum || c == '.' || c == '_' || c == '$' || c == '#' || c == '@'

/-- `text.lower()` of an ASCII text. -/
def lower (text : String) : List Char :=
  text.toList.map Char.toLower

/-- The title with dots for the slashes, without braces, and with an underscore for each invalid
character. -/
def cleanTitle (title : String) : String :=
  let dotted := title.toList.map fun c => if c = '/' then '.' else c
  let unbraced := (dotted.filter fun c => c != '\x7b').filter fun c => c != '\x7d'
  String.ofList (unbraced.map fun c => if isSpssChar c then c else '_')

/-- The column without the characters after the first 64. -/
def truncateColumn (column : String) : String :=
  if column.length > 64 then dropEnd column (column.length - 64) else column

/-- `_check_sav_column`. -/
def checkSavColumn (part : UuidPart) (column : String) (columns : List String) : String :=
  let column := truncateColumn column
  if lower column ∈ columns.map lower then
    let column := if column.length > 59 then dropEnd column 5 else column
    column ++ "@" ++ part.text
  else column

/-- The variable name of `_get_var_name`. -/
def varNameOf (part : UuidPart) (title : String) (varNames : List String) : String :=
  let varName := checkSavColumn part (cleanTitle title) varNames
  if startsWith varName "_" then "@" ++ varName else varName

/-- `_get_var_name`. -/
def getVarName (part : UuidPart) (title : String) (varNames : List String) :
    String × List String :=
  let varName := varNameOf part title varNames
  (varName, varNames ++ [varName])

/-- The names after one call of `_get_var_name` for each title. -/
def getVarNames (titles : List (String × UuidPart)) : List String :=
  titles.foldl (fun varNames title => (getVarName title.2 title.1 varNames).2) []

/-! ### File names -/

/-- The decimal digits of `\d` and of `int`. Those of ASCII have their values, and a dash is
none. -/
structure DecimalDigits where
  value : Char → Option Nat
  value_of_isDigit : ∀ c, c.isDigit = true → value c = some (c.toNat - '0'.toNat)
  value_dash : value '-' = none
  value_dot : value '.' = none

section Filenames
variable (decimal : DecimalDigits)

/-- `\d`. -/
def isDecimal (c : Char) : Bool :=
  (decimal.value c).isSome

/-- `int(digits)`. -/
def intOfDigits (digits : List Char) : Nat :=
  digits.foldl (fun n c => 10 * n + (decimal.value c).getD 0) 0

/-- `(\d+)(\..+)` at the start of a text: the groups. -/
def matchDigitsExt (text : List Char) : Option (List Char × List Char) :=
  match text.dropWhile (isDecimal decimal) with
  | '.' :: c :: rest =>
      if text.takeWhile (isDecimal decimal) ≠ [] ∧ c ≠ '\n' then
        some (text.takeWhile (isDecimal decimal), '.' :: (c :: rest).takeWhile (· ≠ '\n'))
      else none
  | _ => none

/-- `(.+?)\-(\d+)(\..+)`, when the first group has `before` already. -/
def matchIndex (before : List Char) : List Char → Option (List Char × List Char × List Char)
  | [] => none
  | c :: rest =>
      match if before ≠ [] ∧ c = '-' then matchDigitsExt decimal rest else none with
      | some (digits, ext) => some (before, digits, ext)
      | none => if c = '\n' then none else matchIndex (before ++ [c]) rest

/-- The start of the extension: the last dot, if a character other than a dot stands before it and
behind the last slash. -/
def extensionStart (chars : List Char) : Nat :=
  let base := chars.reverse.takeWhile (· ≠ '/')
  let ext := base.takeWhile (· ≠ '.')
  if (base.drop (ext.length + 1)).any (· ≠ '.') then chars.length - (ext.length + 1)
  else chars.length

/-- `increment_index_in_filename`. -/
def incrementIndexInFilename (filename : String) : String :=
  match matchIndex decimal [] filename.toList with
  | some (basename, digits, ext) =>
      String.ofList (basename ++ '-' :: (toString (intOfDigits decimal digits + 1)).toList ++ ext)
  | none =>
      let start := extensionStart filename.toList
      String.ofList (filename.toList.take start ++ '-' :: (toString 1).toList ++
        filename.toList.drop start)

/-- `while not is_filename_unique(xform, filename)`, for less than `rounds` rounds. -/
def uniqueFilename (rounds : Nat) (used : List String) (filename : String) : Option String :=
  searchUnused (· ∈ used) (incrementIndexInFilename decimal) rounds filename

end Filenames

end Onadata
