import Onadata.Lib.CsvReader
import Onadata.Lib.Utf8Decoder

/-!
# `Onadata.Libs.Utils.UploadValidation`: CSV uploads

`_validate_csv_stream` and `_assert_csv_has_rows` of `libs/utils/upload_validation.py`.

The file is read in chunks of bytes. Each read but the last returns at least one byte
(`FileReads`). Where the file stands before and after the validation is left out.
-/

set_option autoImplicit false

namespace Onadata

open Onadata.Lib

/-- `UploadValidationError`, with what its message names. -/
inductive UploadValidationError
  | nulBytes
  | tooLarge (maxBytes : Nat)
  | notUtf8
  | notParsed
  | noRows
  | empty
deriving DecidableEq

/-- The message of the error. -/
def UploadValidationError.message : UploadValidationError → String
  | .nulBytes => "CSV files must not contain NUL bytes."
  | .tooLarge maxBytes => s!"File exceeds the maximum upload size of {maxBytes} bytes."
  | .notUtf8 => "CSV files must be UTF-8 encoded."
  | .notParsed => "CSV file content could not be parsed."
  | .noRows => "CSV files must contain at least one row."
  | .empty => "CSV files must not be empty."

def CSV_HEAD_SAMPLE_CHARS : Nat := 1048576

def CSV_STRUCTURE_SAMPLE_ROWS : Nat := 10

/-! ### The rows of the sample -/

/-- The loop of `_assert_csv_has_rows`, from an index on. -/
def countSampleRows (index rowCount : Nat) (lines : List (List Char)) : Except CsvError Nat :=
  match CsvReader.next lines with
  | .error error => .error error
  | .ok none => .ok rowCount
  | .ok (some (_, lines)) =>
      if _h : index ≥ CSV_STRUCTURE_SAMPLE_ROWS then .ok (index + 1)
      else countSampleRows (index + 1) (index + 1) lines
termination_by CSV_STRUCTURE_SAMPLE_ROWS - index
decreasing_by omega

/-- `_assert_csv_has_rows`. -/
def assertCsvHasRows (sampleText : List Char) : Except UploadValidationError Unit :=
  match countSampleRows 0 0 (stringIOLines sampleText) with
  | .error _ => .error .notParsed
  | .ok rowCount => if rowCount = 0 then .error .noRows else .ok ()

/-! ### The stream -/

/-- The state of `_validate_csv_stream`. -/
structure CsvStream where
  decoder : SigDecoder := {}
  head : List Char := []
  headLen : Nat := 0
  decodedAny : Bool := false
  totalBytes : Nat := 0

namespace CsvStream

/-- `accumulate(text)`. -/
def accumulate (stream : CsvStream) (text : List Char) : CsvStream :=
  if text = [] then stream
  else
    let stream := { stream with decodedAny := true }
    if stream.headLen < CSV_HEAD_SAMPLE_CHARS then
      { stream with
        head := stream.head ++ text.take (CSV_HEAD_SAMPLE_CHARS - stream.headLen)
        headLen := stream.headLen + text.length }
    else stream

/-- `accumulate(decode(chunk, final))`. -/
def decode (stream : CsvStream) (chunk : List UInt8) (final : Bool) :
    Except UploadValidationError CsvStream :=
  match stream.decoder.decode chunk final with
  | none => .error .notUtf8
  | some (text, decoder) => .ok ({ stream with decoder := decoder }.accumulate text)

/-- A round of the loop, with a chunk. -/
def readChunk (maxBytes : Nat) (stream : CsvStream) (chunk : List UInt8) :
    Except UploadValidationError CsvStream :=
  if 0 ∈ chunk then .error .nulBytes
  else
    let stream := { stream with totalBytes := stream.totalBytes + chunk.length }
    if stream.totalBytes > maxBytes then .error (.tooLarge maxBytes)
    else stream.decode chunk false

/-- The loop. It ends with the first read that returns no bytes. -/
def readChunks (maxBytes : Nat) (stream : CsvStream) :
    List (List UInt8) → Except UploadValidationError CsvStream
  | [] => .ok stream
  | chunk :: chunks =>
      if chunk = [] then .ok stream
      else
        match stream.readChunk maxBytes chunk with
        | .error error => .error error
        | .ok stream => readChunks maxBytes stream chunks

end CsvStream

/-- `_validate_csv_stream`, with what the read calls return. -/
def validateCsvStream (reads : List (List UInt8)) (maxBytes : Nat) :
    Except UploadValidationError Unit := do
  let stream ← CsvStream.readChunks maxBytes {} reads
  let stream ← stream.decode [] true
  assertCsvHasRows stream.head
  if !stream.decodedAny then throw .empty

/-- A way to read a file in chunks. -/
structure FileReads (data : List UInt8) where
  chunks : List (List UInt8)
  nonempty : [] ∉ chunks
  complete : chunks.flatten = data

end Onadata
