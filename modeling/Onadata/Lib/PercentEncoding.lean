import Mathlib.Data.List.Basic

/-!
# `Onadata.Lib.PercentEncoding`: percent-encoded text

Python's `urllib.parse.quote`, and `unquote` of a text of ASCII characters. `quote` keeps the
unreserved characters and the characters that are called safe, and writes the UTF-8 bytes of
each other character in hexadecimal digits. `unquoteBytes` reads the bytes back. `PercentEncodes`
are all ways to encode a text, with digits in either case and any characters that are encoded.

* `unquoteBytes_quote`: the bytes of a quoted text are those of the text, when the safe characters
  are ASCII and `%` is none.
* `unquoteBytes_of_percentEncodes`: so are the bytes of a text that is encoded in another way.
* `length_le_quote`: a text is at most as long as the quoted text.
* `length_decodeUtf8_le`: a decoded text is at most as long as its bytes.
-/

set_option autoImplicit false

namespace Onadata.Lib

/-! ### UTF-8 -/

/-- `text.encode("utf-8")`. -/
def encodeUtf8 (text : List Char) : List UInt8 :=
  text.flatMap String.utf8EncodeChar

/-- `data.decode("utf-8", "strict")`. -/
def decodeUtf8 (data : List UInt8) : Option (List Char) :=
  data.toByteArray.utf8Decode?.map Array.toList

@[simp]
theorem encodeUtf8_nil : encodeUtf8 [] = [] := rfl

theorem encodeUtf8_cons (c : Char) (text : List Char) :
    encodeUtf8 (c :: text) = String.utf8EncodeChar c ++ encodeUtf8 text := rfl

/-- Encoded text is decoded. -/
@[simp]
theorem decodeUtf8_encodeUtf8 (text : List Char) : decodeUtf8 (encodeUtf8 text) = some text := by
  unfold decodeUtf8
  show Option.map Array.toList (List.utf8Encode text).utf8Decode? = some text
  rw [List.utf8Decode?_utf8Encode, Option.map_some]

/-- Bytes that are decoded are an encoded text. -/
theorem decodeUtf8_eq_some {data : List UInt8} {text : List Char} :
    decodeUtf8 data = some text ↔ data = encodeUtf8 text := by
  constructor
  · intro h
    unfold decodeUtf8 at h
    cases hchars : data.toByteArray.utf8Decode? with
    | none => simp [hchars] at h
    | some chars =>
        simp only [hchars, Option.map_some, Option.some.injEq] at h
        have hsome : data.toByteArray.utf8Decode?.isSome := by rw [hchars]; rfl
        have hencode := ByteArray.utf8Encode_get_utf8Decode? (h := hsome)
        simp only [hchars, Option.get_some, h] at hencode
        have hbytes : (List.utf8Encode text).data.toList = data := by
          rw [hencode, List.toList_data_toByteArray]
        rw [← hbytes]
        exact List.toList_data_toByteArray
  · intro h
    rw [h, decodeUtf8_encodeUtf8]

/-- Each character takes at least one byte. -/
theorem one_le_length_utf8EncodeChar (c : Char) : 1 ≤ (String.utf8EncodeChar c).length := by
  rw [String.length_utf8EncodeChar]
  exact c.utf8Size_pos

/-- A text is at most as long as its bytes. -/
theorem length_le_encodeUtf8 (text : List Char) : text.length ≤ (encodeUtf8 text).length := by
  induction text with
  | nil => simp
  | cons c text ih =>
      have hc := one_le_length_utf8EncodeChar c
      rw [encodeUtf8_cons, List.length_append, List.length_cons]
      omega

/-- A decoded text is at most as long as its bytes. -/
theorem length_decodeUtf8_le {data : List UInt8} {text : List Char}
    (h : decodeUtf8 data = some text) : text.length ≤ data.length := by
  rw [decodeUtf8_eq_some.mp h]
  exact length_le_encodeUtf8 text

/-- An ASCII character is its own byte. -/
theorem utf8EncodeChar_of_ascii {c : Char} (h : c.toNat < 128) :
    String.utf8EncodeChar c = [UInt8.ofNat c.toNat] := by
  unfold String.utf8EncodeChar
  have hle : c.val.toNat ≤ 127 := by
    show c.toNat ≤ 127
    omega
  exact if_pos hle

/-! ### Quoting -/

/-- A hexadecimal digit, as `quote` writes it. -/
def hexDigit (n : Nat) : Char :=
  Char.ofNat (if n < 10 then 48 + n else 55 + n)

/-- The value of a hexadecimal digit, in either case. -/
def hexValue (c : Char) : Option Nat :=
  if 48 ≤ c.toNat ∧ c.toNat ≤ 57 then some (c.toNat - 48)
  else if 65 ≤ c.toNat ∧ c.toNat ≤ 70 then some (c.toNat - 55)
  else if 97 ≤ c.toNat ∧ c.toNat ≤ 102 then some (c.toNat - 87)
  else none

/-- `f"%{byte:02X}"`. -/
def quoteByte (byte : UInt8) : List Char :=
  ['%', hexDigit (byte.toNat / 16), hexDigit (byte.toNat % 16)]

/-- The characters that `quote` never changes. -/
def isUnreserved (c : Char) : Bool :=
  c.isAlphanum || c == '_' || c == '.' || c == '-' || c == '~'

/-- What `quote` writes for a character. -/
def quoteChar (safe : List Char) (c : Char) : List Char :=
  if isUnreserved c || safe.contains c then [c] else (String.utf8EncodeChar c).flatMap quoteByte

/-- `quote(text, safe)`. -/
def quote (safe : List Char) (text : List Char) : List Char :=
  text.flatMap (quoteChar safe)

/-- `unquote_to_bytes(text)` of a text of ASCII characters. -/
def unquoteBytes : List Char → List UInt8
  | [] => []
  | '%' :: high :: low :: rest =>
      match hexValue high, hexValue low with
      | some x, some y => UInt8.ofNat (16 * x + y) :: unquoteBytes rest
      | _, _ => UInt8.ofNat '%'.toNat :: unquoteBytes (high :: low :: rest)
  | c :: rest => UInt8.ofNat c.toNat :: unquoteBytes rest

theorem hexValue_hexDigit : ∀ n < 16, hexValue (hexDigit n) = some n := by
  decide

theorem unquoteBytes_cons {c : Char} (hc : c ≠ '%') (rest : List Char) :
    unquoteBytes (c :: rest) = UInt8.ofNat c.toNat :: unquoteBytes rest := by
  rw [unquoteBytes]
  exact fun high low tail heq => absurd heq hc

/-- A quoted byte is read back. -/
theorem unquoteBytes_quoteByte (byte : UInt8) (rest : List Char) :
    unquoteBytes (quoteByte byte ++ rest) = byte :: unquoteBytes rest := by
  have hbyte : byte.toNat < 256 := byte.toNat_lt
  have hhigh := hexValue_hexDigit (byte.toNat / 16) (by omega)
  have hlow := hexValue_hexDigit (byte.toNat % 16) (by omega)
  have hsum : 16 * (byte.toNat / 16) + byte.toNat % 16 = byte.toNat := by omega
  show unquoteBytes ('%' :: hexDigit (byte.toNat / 16) :: hexDigit (byte.toNat % 16) :: rest) = _
  rw [unquoteBytes, hhigh, hlow]
  show UInt8.ofNat (16 * (byte.toNat / 16) + byte.toNat % 16) :: _ = _
  rw [hsum, UInt8.ofNat_toNat]

/-- Quoted bytes are read back. -/
theorem unquoteBytes_flatMap_quoteByte (data : List UInt8) (rest : List Char) :
    unquoteBytes (data.flatMap quoteByte ++ rest) = data ++ unquoteBytes rest := by
  induction data with
  | nil => rfl
  | cons byte data ih =>
      rw [List.flatMap_cons, List.append_assoc, unquoteBytes_quoteByte, ih, List.cons_append]

/-- A letter or digit is an ASCII character. -/
theorem isAlphanum_ascii {c : Char} (h : c.isAlphanum = true) : c.toNat < 128 := by
  have hval : c.toNat = c.val.toNat := rfl
  change (decide (c.val ≥ 65 ∧ c.val ≤ 90) || (decide (c.val ≥ 97) && decide (c.val ≤ 122)) ||
    (decide (c.val ≥ 48) && decide (c.val ≤ 57))) = true at h
  simp only [Bool.or_eq_true, Bool.and_eq_true, decide_eq_true_eq, ge_iff_le,
    UInt32.le_iff_toNat_le] at h
  have : (90 : UInt32).toNat = 90 := rfl
  have : (122 : UInt32).toNat = 122 := rfl
  have : (57 : UInt32).toNat = 57 := rfl
  omega

/-- An unreserved character is an ASCII character other than `%`. -/
theorem isUnreserved_ascii {c : Char} (h : isUnreserved c = true) : c.toNat < 128 ∧ c ≠ '%' := by
  constructor
  · simp only [isUnreserved, Bool.or_eq_true, beq_iff_eq] at h
    rcases h with (((halphanum | rfl) | rfl) | rfl) | rfl
    · exact isAlphanum_ascii halphanum
    all_goals decide
  · rintro rfl
    revert h
    decide

section
variable {safe : List Char} (hsafe : ∀ c ∈ safe, c.toNat < 128 ∧ c ≠ '%')
include hsafe

/-- The bytes of a character are read back. -/
theorem unquoteBytes_quoteChar (c : Char) (rest : List Char) :
    unquoteBytes (quoteChar safe c ++ rest) = String.utf8EncodeChar c ++ unquoteBytes rest := by
  unfold quoteChar
  split
  · rename_i hkept
    have hascii : c.toNat < 128 ∧ c ≠ '%' := by
      rcases Bool.or_eq_true_iff.mp hkept with h | h
      · exact isUnreserved_ascii h
      · exact hsafe c (by simpa using h)
    rw [List.singleton_append, unquoteBytes_cons hascii.2, utf8EncodeChar_of_ascii hascii.1]
    rfl
  · exact unquoteBytes_flatMap_quoteByte _ rest

/-- The bytes of a text are read back. -/
theorem unquoteBytes_quote (text : List Char) :
    unquoteBytes (quote safe text) = encodeUtf8 text := by
  induction text with
  | nil => rfl
  | cons c text ih =>
      show unquoteBytes (quoteChar safe c ++ quote safe text) = _
      rw [unquoteBytes_quoteChar hsafe, ih, encodeUtf8_cons]

end

/-! ### Every way to encode a text -/

/-- The octets are written with `%` and hexadecimal digits in either case. -/
inductive EncodesOctets : List UInt8 → List Char → Prop
  | nil : EncodesOctets [] []
  | cons {octet : UInt8} {octets : List UInt8} {high low : Char} {raw : List Char} :
      hexValue high = some (octet.toNat / 16) → hexValue low = some (octet.toNat % 16) →
        EncodesOctets octets raw → EncodesOctets (octet :: octets) ('%' :: high :: low :: raw)

/-- Each character of the text is written as its UTF-8 octets, or as it is if it may be kept. -/
inductive PercentEncodes (mayKeep : Char → Bool) : List Char → List Char → Prop
  | nil : PercentEncodes mayKeep [] []
  | kept {c : Char} {text raw : List Char} :
      mayKeep c = true → PercentEncodes mayKeep text raw →
        PercentEncodes mayKeep (c :: text) (c :: raw)
  | encoded {c : Char} {text octets raw : List Char} :
      EncodesOctets (String.utf8EncodeChar c) octets → PercentEncodes mayKeep text raw →
        PercentEncodes mayKeep (c :: text) (octets ++ raw)

/-- Octets are read back. -/
theorem unquoteBytes_of_encodesOctets {octets : List UInt8} {raw : List Char}
    (h : EncodesOctets octets raw) (rest : List Char) :
    unquoteBytes (raw ++ rest) = octets ++ unquoteBytes rest := by
  induction h with
  | nil => rfl
  | @cons octet octets high low raw hhigh hlow _ ih =>
      have hoctet : octet.toNat < 256 := octet.toNat_lt
      have hsum : 16 * (octet.toNat / 16) + octet.toNat % 16 = octet.toNat := by omega
      show unquoteBytes ('%' :: high :: low :: (raw ++ rest)) = _
      rw [unquoteBytes, hhigh, hlow]
      show UInt8.ofNat (16 * (octet.toNat / 16) + octet.toNat % 16) :: _ = _
      rw [hsum, UInt8.ofNat_toNat, ih, List.cons_append]

/-- The bytes of a text that is encoded in any way are read back. -/
theorem unquoteBytes_of_percentEncodes {mayKeep : Char → Bool}
    (hkept : ∀ c, mayKeep c = true → c.toNat < 128 ∧ c ≠ '%') {text raw : List Char}
    (h : PercentEncodes mayKeep text raw) : unquoteBytes raw = encodeUtf8 text := by
  induction h with
  | nil => rfl
  | @kept c text raw hc _ ih =>
      have hascii := hkept c hc
      rw [unquoteBytes_cons hascii.2, ih, encodeUtf8_cons, utf8EncodeChar_of_ascii hascii.1]
      rfl
  | encoded hoctets _ ih => rw [unquoteBytes_of_encodesOctets hoctets, ih, encodeUtf8_cons]

/-- A hexadecimal digit is a letter or a digit. -/
theorem isAlphanum_of_hexValue {c : Char} {n : Nat} (h : hexValue c = some n) :
    c.isAlphanum = true := by
  have hval : c.toNat = c.val.toNat := rfl
  have hcase : (48 ≤ c.toNat ∧ c.toNat ≤ 57) ∨ (65 ≤ c.toNat ∧ c.toNat ≤ 70) ∨
      (97 ≤ c.toNat ∧ c.toNat ≤ 102) := by
    unfold hexValue at h
    split at h
    · exact Or.inl ‹_›
    · split at h
      · exact Or.inr (Or.inl ‹_›)
      · split at h
        · exact Or.inr (Or.inr ‹_›)
        · cases h
  show (decide (c.val ≥ 65 ∧ c.val ≤ 90) || (decide (c.val ≥ 97) && decide (c.val ≤ 122)) ||
    (decide (c.val ≥ 48) && decide (c.val ≤ 57))) = true
  simp only [Bool.or_eq_true, Bool.and_eq_true, decide_eq_true_eq, ge_iff_le,
    UInt32.le_iff_toNat_le]
  have : (90 : UInt32).toNat = 90 := rfl
  have : (65 : UInt32).toNat = 65 := rfl
  have : (122 : UInt32).toNat = 122 := rfl
  have : (97 : UInt32).toNat = 97 := rfl
  have : (57 : UInt32).toNat = 57 := rfl
  have : (48 : UInt32).toNat = 48 := rfl
  omega

theorem mem_of_encodesOctets {octets : List UInt8} {raw : List Char} (h : EncodesOctets octets raw)
    {c : Char} (hc : c ∈ raw) : c = '%' ∨ c.isAlphanum = true := by
  induction h with
  | nil => exact absurd hc List.not_mem_nil
  | cons hhigh hlow _ ih =>
      simp only [List.mem_cons] at hc
      rcases hc with rfl | rfl | rfl | hc
      · exact Or.inl rfl
      · exact Or.inr (isAlphanum_of_hexValue hhigh)
      · exact Or.inr (isAlphanum_of_hexValue hlow)
      · exact ih hc

/-- What an encoded text is written with. -/
theorem mem_of_percentEncodes {mayKeep : Char → Bool} {text raw : List Char}
    (h : PercentEncodes mayKeep text raw) {c : Char} (hc : c ∈ raw) :
    mayKeep c = true ∨ c = '%' ∨ c.isAlphanum = true := by
  induction h with
  | nil => exact absurd hc List.not_mem_nil
  | kept hkept _ ih =>
      rcases List.mem_cons.mp hc with rfl | hc
      · exact Or.inl hkept
      · exact ih hc
  | encoded hoctets _ ih =>
      rcases List.mem_append.mp hc with hc | hc
      · exact Or.inr (mem_of_encodesOctets hoctets hc)
      · exact ih hc

/-- Each byte takes three characters. -/
theorem length_flatMap_quoteByte (data : List UInt8) :
    (data.flatMap quoteByte).length = 3 * data.length := by
  induction data with
  | nil => rfl
  | cons byte data ih =>
      rw [List.flatMap_cons, List.length_append, ih, List.length_cons]
      show 3 + 3 * data.length = 3 * (data.length + 1)
      omega

/-- A text is at most as long as the quoted text. -/
theorem length_le_quote (safe text : List Char) : text.length ≤ (quote safe text).length := by
  induction text with
  | nil => exact Nat.le_refl 0
  | cons c text ih =>
      have hone : 1 ≤ (quoteChar safe c).length := by
        unfold quoteChar
        split
        · simp
        · have hc := one_le_length_utf8EncodeChar c
          have hsum : ((String.utf8EncodeChar c).flatMap quoteByte).length =
              3 * (String.utf8EncodeChar c).length := length_flatMap_quoteByte _
          omega
      show text.length + 1 ≤ (quoteChar safe c ++ quote safe text).length
      rw [List.length_append]
      omega

/-- A text of ASCII characters has at most one byte for each. -/
theorem length_unquoteBytes_le (text : List Char) :
    (unquoteBytes text).length ≤ text.length := by
  fun_induction unquoteBytes text with
  | case1 => simp
  | case2 high low rest x y hx hy ih => simp only [List.length_cons]; omega
  | case3 high low rest hnone ih =>
      simp only [List.length_cons] at ih ⊢
      omega
  | case4 c rest hne ih =>
      simp only [List.length_cons]
      omega

theorem isUnreserved_hexDigit : ∀ n < 16, isUnreserved (hexDigit n) = true := by
  decide

/-- A byte is written with `%` and unreserved characters. -/
theorem mem_quoteByte {byte : UInt8} {c : Char} (h : c ∈ quoteByte byte) :
    isUnreserved c = true ∨ c = '%' := by
  have hbyte : byte.toNat < 256 := byte.toNat_lt
  have hhigh := isUnreserved_hexDigit (byte.toNat / 16) (by omega)
  have hlow := isUnreserved_hexDigit (byte.toNat % 16) (by omega)
  simp only [quoteByte, List.mem_cons, List.not_mem_nil, or_false] at h
  rcases h with rfl | rfl | rfl
  · exact Or.inr rfl
  · exact Or.inl hhigh
  · exact Or.inl hlow

/-- What `quote` writes: unreserved characters, `%`, and the safe characters of the text. -/
theorem mem_quote {safe text : List Char} {c : Char} (h : c ∈ quote safe text) :
    isUnreserved c = true ∨ c = '%' ∨ (c ∈ safe ∧ c ∈ text) := by
  obtain ⟨d, hd, hc⟩ := List.mem_flatMap.mp h
  unfold quoteChar at hc
  split at hc
  · rename_i hkept
    rw [List.mem_singleton] at hc
    subst hc
    rcases Bool.or_eq_true_iff.mp hkept with hunreserved | hsafe
    · exact Or.inl hunreserved
    · exact Or.inr (Or.inr ⟨by simpa using hsafe, hd⟩)
  · obtain ⟨byte, -, hbyte⟩ := List.mem_flatMap.mp hc
    rcases mem_quoteByte hbyte with h | h
    · exact Or.inl h
    · exact Or.inr (Or.inl h)

/-- A safe character of the text is kept. -/
theorem mem_quote_of_safe {safe text : List Char} {c : Char} (hsafe : c ∈ safe) (h : c ∈ text) :
    c ∈ quote safe text := by
  refine List.mem_flatMap.mpr ⟨c, h, ?_⟩
  have hkept : (isUnreserved c || safe.contains c) = true := by simp [hsafe]
  rw [quoteChar, if_pos hkept]
  exact List.mem_singleton_self c

end Onadata.Lib
