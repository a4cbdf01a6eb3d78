import Mathlib.Data.List.Basic

/-!
# `Onadata.Lib.CsvReader`: Python's CSV reader

`csv.reader` with the dialect `excel`, over the lines of an `io.StringIO`. The dialect has no
escape character and is not strict, so the states for escaped characters are never reached.

The reader goes through a line one character at a time, and then sees the end of the line. A
quoted field can go on in the next line. `csvRows` is the reader run to its end, or to its first
error. `csvRowsFrom_of_some`, `csvRowsFrom_of_none` and `csvRowsFrom_of_error` say that
`reader.__next__` takes the next row of it.
-/

set_option autoImplicit false

namespace Onadata.Lib

/-- `csv.Error`. -/
inductive CsvError
  | newLineInUnquotedField
  | fieldLargerThanLimit
deriving DecidableEq

/-- The states of the reader. -/
inductive CsvState
  | startRecord
  | startField
  | inField
  | inQuotedField
  | quoteInQuotedField
  | eatCrnl
deriving DecidableEq

/-- A reader: its state, the field it reads, and the fields of the row before it. -/
structure CsvReader where
  state : CsvState := .startRecord
  field : List Char := []
  fields : List String := []
deriving DecidableEq

/-- `csv.field_size_limit()`. -/
def FIELD_LIMIT : Nat := 131072

namespace CsvReader

/-- `parse_save_field`, and the state after it. -/
def saveField (reader : CsvReader) (state : CsvState) : CsvReader :=
  ⟨state, [], reader.fields ++ [String.ofList reader.field]⟩

/-- `parse_add_char`, and the state after it. -/
def addChar (reader : CsvReader) (c : Char) (state : CsvState) : Except CsvError CsvReader :=
  if reader.field.length ≥ FIELD_LIMIT then .error .fieldLargerThanLimit
  else .ok { reader with field := reader.field ++ [c], state := state }

/-- The state `START_FIELD`. `none` is the end of the line. -/
def startField (reader : CsvReader) : Option Char → Except CsvError CsvReader
  | none => .ok (reader.saveField .startRecord)
  | some c =>
      if c = '\n' ∨ c = '\r' then .ok (reader.saveField .eatCrnl)
      else if c = '"' then .ok { reader with state := .inQuotedField }
      else if c = ',' then .ok (reader.saveField .startField)
      else reader.addChar c .inField

/-- `parse_process_char`. `none` is the end of the line. -/
def processChar (reader : CsvReader) (c : Option Char) : Except CsvError CsvReader :=
  match reader.state with
  | .startRecord =>
      match c with
      | none => .ok reader
      | some c =>
          if c = '\n' ∨ c = '\r' then .ok { reader with state := .eatCrnl }
          else { reader with state := .startField }.startField (some c)
  | .startField => reader.startField c
  | .inField =>
      match c with
      | none => .ok (reader.saveField .startRecord)
      | some c =>
          if c = '\n' ∨ c = '\r' then .ok (reader.saveField .eatCrnl)
          else if c = ',' then .ok (reader.saveField .startField)
          else reader.addChar c .inField
  | .inQuotedField =>
      match c with
      | none => .ok reader
      | some c =>
          if c = '"' then .ok { reader with state := .quoteInQuotedField }
          else reader.addChar c .inQuotedField
  | .quoteInQuotedField =>
      match c with
      | none => .ok (reader.saveField .startRecord)
      | some c =>
          if c = '"' then reader.addChar c .inQuotedField
          else if c = ',' then .ok (reader.saveField .startField)
          else if c = '\n' ∨ c = '\r' then .ok (reader.saveField .eatCrnl)
          else reader.addChar c .inField
  | .eatCrnl =>
      match c with
      | none => .ok { reader with state := .startRecord }
      | some c =>
          if c = '\n' ∨ c = '\r' then .ok reader else .error .newLineInUnquotedField

/-- A line and its end. -/
def processLine (reader : CsvReader) (line : List Char) : Except CsvError CsvReader :=
  (line.map some ++ [none]).foldlM processChar reader

/-- `reader.__next__()`, from a reader in the middle of it: the row and the lines after it, or
nothing at the end. -/
def readRecord (reader : CsvReader) :
    List (List Char) → Except CsvError (Option (List String × List (List Char)))
  | [] =>
      if reader.field ≠ [] ∨ reader.state = .inQuotedField then
        .ok (some ((reader.saveField .startRecord).fields, []))
      else .ok none
  | line :: lines =>
      match reader.processLine line with
      | .error error => .error error
      | .ok reader =>
          if reader.state = .startRecord then .ok (some (reader.fields, lines))
          else readRecord reader lines

/-- `reader.__next__()`. -/
def next (lines : List (List Char)) :
    Except CsvError (Option (List String × List (List Char))) :=
  readRecord {} lines

end CsvReader

/-- The lines of `io.StringIO(text)`, with their ends. -/
def stringIOLines : List Char → List (List Char)
  | [] => []
  | '\n' :: text => ['\n'] :: stringIOLines text
  | c :: text =>
      match stringIOLines text with
      | [] => [[c]]
      | line :: lines => (c :: line) :: lines

/-! ### All rows -/

/-- The rows up to the end or the first error, and the error. -/
def csvRowsFrom (reader : CsvReader) :
    List (List Char) → List (List String) × Option CsvError
  | [] =>
      if reader.field ≠ [] ∨ reader.state = .inQuotedField then
        ([(reader.saveField .startRecord).fields], none)
      else ([], none)
  | line :: lines =>
      match reader.processLine line with
      | .error error => ([], some error)
      | .ok reader =>
          if reader.state = .startRecord then
            (reader.fields :: (csvRowsFrom {} lines).1, (csvRowsFrom {} lines).2)
          else csvRowsFrom reader lines

/-- The rows of a text up to the end or the first error, and the error. -/
def csvRows (text : List Char) : List (List String) × Option CsvError :=
  csvRowsFrom {} (stringIOLines text)

namespace CsvReader

/-- The end of the lines. -/
@[simp]
theorem csvRowsFrom_nil : csvRowsFrom {} [] = ([], none) := rfl

/-- An error of `__next__` is the first error. -/
theorem csvRowsFrom_of_error {reader : CsvReader} {lines : List (List Char)} {error : CsvError}
    (h : reader.readRecord lines = .error error) : csvRowsFrom reader lines = ([], some error) := by
  induction lines generalizing reader with
  | nil =>
      rw [readRecord] at h
      split at h <;> cases h
  | cons line lines ih =>
      rw [readRecord] at h
      rw [csvRowsFrom]
      cases hline : reader.processLine line with
      | error error' =>
          rw [hline] at h
          cases h
          rfl
      | ok reader' =>
          simp only [hline] at h ⊢
          split at h
          · cases h
          · rename_i hstate
            rw [if_neg hstate]
            exact ih h

/-- At the end there are no more rows. -/
theorem csvRowsFrom_of_none {reader : CsvReader} {lines : List (List Char)}
    (h : reader.readRecord lines = .ok none) : csvRowsFrom reader lines = ([], none) := by
  induction lines generalizing reader with
  | nil =>
      rw [readRecord] at h
      rw [csvRowsFrom]
      split at h
      · cases h
      · rename_i hstate
        rw [if_neg hstate]
  | cons line lines ih =>
      rw [readRecord] at h
      rw [csvRowsFrom]
      cases hline : reader.processLine line with
      | error error' =>
          rw [hline] at h
          cases h
      | ok reader' =>
          simp only [hline] at h ⊢
          split at h
          · cases h
          · rename_i hstate
            rw [if_neg hstate]
            exact ih h

/-- A row of `__next__` is the next row. -/
theorem csvRowsFrom_of_some {reader : CsvReader} {lines rest : List (List Char)}
    {row : List String} (h : reader.readRecord lines = .ok (some (row, rest))) :
    csvRowsFrom reader lines = (row :: (csvRowsFrom {} rest).1, (csvRowsFrom {} rest).2) := by
  induction lines generalizing reader with
  | nil =>
      rw [readRecord] at h
      rw [csvRowsFrom]
      split at h
      · rename_i hstate
        cases h
        rw [if_pos hstate, csvRowsFrom_nil]
      · cases h
  | cons line lines ih =>
      rw [readRecord] at h
      rw [csvRowsFrom]
      cases hline : reader.processLine line with
      | error error' =>
          rw [hline] at h
          cases h
      | ok reader' =>
          simp only [hline] at h ⊢
          split at h
          · rename_i hstate
            cases h
            rw [if_pos hstate]
          · rename_i hstate
            rw [if_neg hstate]
            exact ih h

end CsvReader

end Onadata.Lib
