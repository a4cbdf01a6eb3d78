import Onadata.Lib.PercentEncoding
import Onadata.Lib.PyDict
import Onadata.Lib.PyText

/-!
# `Onadata.Libs.Utils.ContentDisposition`: `Content-Disposition` headers

The reader of `Content-Disposition` headers in `libs/utils/content_disposition.py`, and
`generate_content_disposition_header` of `libs/utils/logger_tools.py`, which writes them.

The scanner goes through the header from left to right. An index into the header is the list of
the characters that are left. `unquote` is only called on tokens, which are ASCII.
-/

set_option autoImplicit false

namespace Onadata

open Onadata.Lib

/-- `ContentDispositionError`, with what its message names. -/
inductive ContentDispositionError
  | missingType
  | expectedSemicolon (index : Nat)
  | invalidName (index : Nat)
  | expectedEquals
  | invalidValue
  | malformedExtended
  | unsupportedCharset (charset : String)
  | invalidEncoding
  | duplicateParameter (name : String)
deriving DecidableEq

/-- The message of the error. -/
def ContentDispositionError.message : ContentDispositionError → String
  | .missingType => "missing disposition-type"
  | .expectedSemicolon index => s!"expected ';' at position {index}"
  | .invalidName index => s!"invalid parameter name at {index}"
  | .expectedEquals => "expected '=' after parameter name"
  | .invalidValue => "invalid parameter value"
  | .malformedExtended => "malformed extended value"
  | .unsupportedCharset charset => s!"unsupported charset: {charset}"
  | .invalidEncoding => "invalid encoding in extended value"
  | .duplicateParameter name => s!"duplicate parameter: {name}"

/-- A parameter, as the scanner finds it. -/
structure HeaderParam where
  name : String
  value : String
  isQuoted : Bool
deriving DecidableEq

/-- `secure_filename`. -/
def secureFilename (filename : String) : String :=
  String.ofList ((filename.toList.map fun c => if c = '\\' then '_' else c).map
    fun c => if c = '/' then '_' else c)

/-! ### The scanner -/

/-- A character of the class of `_TOKEN_RE`. -/
def isTokenChar (c : Char) : Bool :=
  c.isAlphanum || "!#$%&'*+.^_`|~-".toList.contains c

/-- `_TOKEN_RE.match(header, index)`: the token, and what is left after it. -/
def matchToken (rest : List Char) : Option (List Char × List Char) :=
  if rest.takeWhile isTokenChar = [] then none
  else some (rest.takeWhile isTokenChar, rest.dropWhile isTokenChar)

/-- A blank of `skip_whitespace`. -/
def isBlank (c : Char) : Bool :=
  c == ' ' || c == '\t'

/-- `skip_whitespace`. -/
def skipWhitespace (rest : List Char) : List Char :=
  rest.dropWhile isBlank

/-- `_read_quoted_value`: the value, and what is left after the closing quote. -/
def readQuotedValue : List Char → List Char × List Char
  | [] => ([], [])
  | '\\' :: c :: rest => (c :: (readQuotedValue rest).1, (readQuotedValue rest).2)
  | '"' :: rest => ([], rest)
  | c :: rest => (c :: (readQuotedValue rest).1, (readQuotedValue rest).2)

/-- The value of a parameter, after the blanks that follow its `=`. -/
def readValue (name rest : List Char) :
    Except ContentDispositionError (HeaderParam × List Char) :=
  let name := String.ofList (name.map Char.toLower)
  match rest with
  | '"' :: rest =>
      let (value, rest) := readQuotedValue rest
      .ok (⟨name, String.ofList value, true⟩, rest)
  | rest =>
      match matchToken rest with
      | none => .error .invalidValue
      | some (value, rest) => .ok (⟨name, String.ofList value, false⟩, rest)

/-- A parameter, from its name on. -/
def readNamed (length : Nat) (rest : List Char) :
    Except ContentDispositionError (HeaderParam × List Char) :=
  match matchToken rest with
  | none => .error (.invalidName (length - rest.length))
  | some (name, rest) =>
      match skipWhitespace rest with
      | '=' :: rest => readValue name (skipWhitespace rest)
      | _ => .error .expectedEquals

/-- A round of the loop: the parameter and what is left, or nothing when the loop ends. -/
def readParam (length : Nat) (rest : List Char) :
    Except ContentDispositionError (Option (HeaderParam × List Char)) :=
  match skipWhitespace rest with
  | [] => .ok none
  | c :: rest =>
      if c ≠ ';' then .error (.expectedSemicolon (length - (c :: rest).length))
      else
        match skipWhitespace rest with
        | [] => .ok none
        | c :: rest => (readNamed length (c :: rest)).map some

theorem length_dropWhile_le (p : Char → Bool) (rest : List Char) :
    (rest.dropWhile p).length ≤ rest.length :=
  (List.dropWhile_sublist p).length_le

theorem length_matchToken {rest rest' token : List Char}
    (h : matchToken rest = some (token, rest')) : rest'.length < rest.length := by
  unfold matchToken at h
  split at h
  · cases h
  · rename_i hne
    simp only [Option.some.injEq, Prod.mk.injEq] at h
    have hlength := congrArg List.length (@List.takeWhile_append_dropWhile _ isTokenChar rest)
    have hpos := List.length_pos_iff.mpr hne
    rw [List.length_append] at hlength
    rw [← h.2]
    omega

theorem length_readQuotedValue (rest : List Char) :
    (readQuotedValue rest).2.length ≤ rest.length := by
  fun_induction readQuotedValue rest with
  | case1 => exact Nat.le_refl 0
  | case2 c rest ih => simp only [List.length_cons]; omega
  | case3 rest => simp only [List.length_cons]; omega
  | case4 c rest hescape hquote ih => simp only [List.length_cons]; omega

theorem length_readValue {name rest rest' : List Char} {param : HeaderParam}
    (h : readValue name rest = .ok (param, rest')) : rest'.length ≤ rest.length := by
  unfold readValue at h
  simp only at h
  split at h
  · rename_i rest
    have hvalue := length_readQuotedValue rest
    cases h
    rw [List.length_cons]
    omega
  · split at h
    · cases h
    · rename_i value rest' htoken
      have hlength := length_matchToken htoken
      cases h
      omega

theorem length_readNamed {length : Nat} {rest rest' : List Char} {param : HeaderParam}
    (h : readNamed length rest = .ok (param, rest')) : rest'.length < rest.length := by
  unfold readNamed at h
  split at h
  · cases h
  · rename_i name rest₁ htoken
    have htoken := length_matchToken htoken
    split at h
    · rename_i rest₂ hrest₂
      have hvalue := length_readValue h
      have hskip := length_dropWhile_le isBlank rest₁
      have hskip₂ := length_dropWhile_le isBlank rest₂
      have heq : (skipWhitespace rest₁).length = rest₂.length + 1 := by
        rw [hrest₂, List.length_cons]
      unfold skipWhitespace at hvalue heq
      omega
    · cases h

theorem length_readParam {length : Nat} {rest rest' : List Char} {param : HeaderParam}
    (h : readParam length rest = .ok (some (param, rest'))) : rest'.length < rest.length := by
  unfold readParam at h
  split at h
  · cases h
  · rename_i c rest₁ hrest₁
    split at h
    · cases h
    · split at h
      · cases h
      · rename_i d rest₂ hrest₂
        have hskip := length_dropWhile_le isBlank rest
        have hskip₁ := length_dropWhile_le isBlank rest₁
        have heq := congrArg List.length hrest₁
        have heq₁ := congrArg List.length hrest₂
        cases hnamed : readNamed length (d :: rest₂) with
        | error error =>
            rw [hnamed] at h
            cases h
        | ok read =>
            rw [hnamed] at h
            cases h
            have hlength := length_readNamed hnamed
            unfold skipWhitespace at heq heq₁
            simp only [List.length_cons] at heq heq₁ hlength
            omega

/-- The loop of `_scan_params`. Each parameter takes characters of the header. -/
def scanLoop (length : Nat) (rest : List Char) :
    Except ContentDispositionError (List HeaderParam) :=
  match _h : readParam length rest with
  | .error error => .error error
  | .ok none => .ok []
  | .ok (some (param, rest')) => (scanLoop length rest').map (param :: ·)
termination_by rest.length
decreasing_by exact length_readParam _h

/-- `_scan_params`. -/
def scanParams (header : String) : Except ContentDispositionError (List HeaderParam) :=
  match matchToken (skipWhitespace header.toList) with
  | none => .error .missingType
  | some (_, rest) => scanLoop header.length rest

/-! ### Values -/

/-- The characters `_INVALID_ISO8859_1_CHARACTERS`. -/
def isInvalidIso88591 (c : Char) : Bool :=
  c.toNat < 32 || (127 ≤ c.toNat && c.toNat < 160)

/-- `raw.split("'", 2)`, when it has three parts. -/
def splitExtValue (raw : List Char) : Option (List Char × List Char × List Char) :=
  let isMark (c : Char) : Bool := c == '\''
  match raw.dropWhile (!isMark ·) with
  | [] => none
  | _ :: rest =>
      match rest.dropWhile (!isMark ·) with
      | [] => none
      | _ :: value => some (raw.takeWhile (!isMark ·), rest.takeWhile (!isMark ·), value)

/-- `_decode_ext_value`, of a token. -/
def decodeExtValue (raw : String) : Except ContentDispositionError String :=
  match splitExtValue raw.toList with
  | none => .error .malformedExtended
  | some (first, _, value) =>
      let charset := if first = [] then "utf-8" else String.ofList (first.map Char.toLower)
      if charset = "utf-8" then
        match decodeUtf8 (unquoteBytes value) with
        | none => .error .invalidEncoding
        | some value => .ok (String.ofList value)
      else if charset = "iso-8859-1" then
        let value := (unquoteBytes value).map fun byte => Char.ofNat byte.toNat
        if value.any isInvalidIso88591 then .error .invalidEncoding
        else .ok (String.ofList value)
      else .error (.unsupportedCharset charset)

/-- The value of a parameter in `decoded`. -/
def HeaderParam.decode (param : HeaderParam) : Except ContentDispositionError String :=
  if endsWith param.name "*" && !param.isQuoted then decodeExtValue param.value
  else .ok param.value

/-- The loop of `parse_filename`, from the values that are decoded. -/
def decodeParams (decoded : List (String × String)) :
    List HeaderParam → Except ContentDispositionError (List (String × String))
  | [] => .ok decoded
  | param :: params =>
      if param.name ∈ Dict.keys decoded then .error (.duplicateParameter param.name)
      else do
        let value ← param.decode
        decodeParams (Dict.insert decoded param.name value) params

/-- The loop of `combine`, for `range(idx, idx + count)`. -/
def combineFrom (decoded : List (String × String)) (idx : Nat) (filename : String) :
    Nat → String
  | 0 => filename
  | count + 1 =>
      let found := [s!"filename*{idx}*", s!"filename*{idx}"].findSome? (Dict.get? decoded)
      match found with
      | none => filename
      | some value => combineFrom decoded (idx + 1) (filename ++ value) count

/-- `combine(start)`, of a key of `decoded` with its value. -/
def combine (decoded : List (String × String)) (value : String) : String :=
  combineFrom decoded 1 value 99998

/-- The filename that a key gives, if any. -/
def filenameOf (decoded : List (String × String)) (key : String) : Option String :=
  match Dict.get? decoded key with
  | none => none
  | some value =>
      if value = "" then none
      else
        let filename := if startsWith key "filename*0" then combine decoded value else value
        if filename = "" then none else some (secureFilename filename)

/-- `parse_filename`. -/
def parseFilename (header : String) : Except ContentDispositionError (Option String) := do
  let params ← scanParams header
  let decoded ← decodeParams [] params
  return ["filename*", "filename", "filename*0*", "filename*0"].findSome? (filenameOf decoded)

/-! ### The writer -/

/-- `generate_content_disposition_header`, with the time stamp that is shown, if any. -/
def generateContentDispositionHeader (name : Option String) (extension : String)
    (timestamp : Option String) : String :=
  match name with
  | none => "attachment;"
  | some name =>
      let name :=
        match timestamp with
        | none => name
        | some timestamp => name ++ "-" ++ timestamp
      let fallbackFilename := "download." ++ extension
      let encodedFilename := String.ofList (quote ['/'] (name ++ "." ++ extension).toList)
      "attachment; filename=\"" ++ fallbackFilename ++ "\"; filename*=UTF-8''" ++ encodedFilename

end Onadata
