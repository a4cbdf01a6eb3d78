import Onadata.Lib.PercentEncoding

/-!
# `Onadata.Lib.Utf8Decoder`: UTF-8 in pieces

Python's incremental decoder of UTF-8. A call decodes the characters that are complete and keeps
the bytes of the next one, which are the start of a character (`Pending`). Bytes that start no
character are an error.

* `feed_append`: two calls decode what one call decodes.
* `feed_eq_iff`: all bytes are decoded and none are kept exactly for an encoded text.
-/

set_option autoImplicit false

namespace Onadata.Lib

/-- What the bytes since the last character are. -/
inductive Utf8Bytes
  | char (c : Char)
  | incomplete
  | invalid
deriving DecidableEq

/-- A continuation byte. -/
def isContinuation (b : UInt8) : Bool :=
  128 ≤ b.toNat && b.toNat ≤ 191

/-- A second byte. After some first bytes it has a smaller range: there are no overlong forms, no
surrogates, and no characters after U+10FFFF. -/
def isSecond (b₀ b : UInt8) : Bool :=
  (if b₀.toNat = 0xE0 then 0xA0 else if b₀.toNat = 0xF0 then 0x90 else 0x80) ≤ b.toNat &&
    b.toNat ≤ (if b₀.toNat = 0xED then 0x9F else if b₀.toNat = 0xF4 then 0x8F else 0xBF)

/-- The bytes since the last character, when all but the last have been checked. -/
def classify : List UInt8 → Utf8Bytes
  | [b₀] =>
      if b₀.toNat < 128 then .char (Char.ofNat b₀.toNat)
      else if 194 ≤ b₀.toNat ∧ b₀.toNat ≤ 244 then .incomplete else .invalid
  | [b₀, b₁] =>
      if isSecond b₀ b₁ then
        if b₀.toNat < 224 then .char (Char.ofNat ((b₀.toNat - 192) * 64 + (b₁.toNat - 128)))
        else .incomplete
      else .invalid
  | [b₀, b₁, b₂] =>
      if isContinuation b₂ then
        if b₀.toNat < 240 then
          .char (Char.ofNat
            ((b₀.toNat - 224) * 4096 + (b₁.toNat - 128) * 64 + (b₂.toNat - 128)))
        else .incomplete
      else .invalid
  | [b₀, b₁, b₂, b₃] =>
      if isContinuation b₃ then
        .char (Char.ofNat ((b₀.toNat - 240) * 262144 + (b₁.toNat - 128) * 4096 +
          (b₂.toNat - 128) * 64 + (b₃.toNat - 128)))
      else .invalid
  | _ => .invalid

/-- Decode bytes after bytes that are kept: the text, and the bytes that are kept now. -/
def feed (kept : List UInt8) : List UInt8 → Option (List Char × List UInt8)
  | [] => some ([], kept)
  | b :: data =>
      match classify (kept ++ [b]) with
      | .char c => (feed [] data).map fun result => (c :: result.1, result.2)
      | .incomplete => feed (kept ++ [b]) data
      | .invalid => none

/-- The start of a character. -/
inductive Pending : List UInt8 → Prop
  | nil : Pending []
  | one {b₀ : UInt8} (h : 194 ≤ b₀.toNat ∧ b₀.toNat ≤ 244) : Pending [b₀]
  | two {b₀ b₁ : UInt8} (h : 224 ≤ b₀.toNat ∧ b₀.toNat ≤ 244) (h₁ : isSecond b₀ b₁ = true) :
      Pending [b₀, b₁]
  | three {b₀ b₁ b₂ : UInt8} (h : 240 ≤ b₀.toNat ∧ b₀.toNat ≤ 244) (h₁ : isSecond b₀ b₁ = true)
      (h₂ : isContinuation b₂ = true) : Pending [b₀, b₁, b₂]

/-! ### The bytes of a character -/

theorem classify_first {b₀ : UInt8} (h : 194 ≤ b₀.toNat ∧ b₀.toNat ≤ 244) :
    classify [b₀] = .incomplete := by
  rw [classify, if_neg (by omega), if_pos h]

theorem classify_second {b₀ b₁ : UInt8} (h : 224 ≤ b₀.toNat) (h₁ : isSecond b₀ b₁ = true) :
    classify [b₀, b₁] = .incomplete := by
  rw [classify, if_pos h₁, if_neg (by omega)]

theorem classify_third {b₀ b₁ b₂ : UInt8} (h : 240 ≤ b₀.toNat) (h₂ : isContinuation b₂ = true) :
    classify [b₀, b₁, b₂] = .incomplete := by
  rw [classify, if_pos h₂, if_neg (by omega)]

theorem isContinuation_iff {b : UInt8} :
    isContinuation b = true ↔ 128 ≤ b.toNat ∧ b.toNat ≤ 191 := by
  simp [isContinuation]

/-- The range of a second byte. -/
theorem isSecond_iff {b₀ b : UInt8} :
    isSecond b₀ b = true ↔ 128 ≤ b.toNat ∧ b.toNat ≤ 191 ∧ (b₀.toNat = 224 → 160 ≤ b.toNat) ∧
      (b₀.toNat = 240 → 144 ≤ b.toNat) ∧ (b₀.toNat = 237 → b.toNat ≤ 159) ∧
      (b₀.toNat = 244 → b.toNat ≤ 143) := by
  simp only [isSecond, Bool.and_eq_true, decide_eq_true_eq]
  constructor
  · intro ⟨hlow, hhigh⟩
    split_ifs at hlow hhigh
    all_goals omega
  · intro h
    split_ifs
    all_goals omega

theorem toNat_ofNat (n : Nat) : (UInt8.ofNat n).toNat = n % 256 := rfl

theorem ofNat_eq {n : Nat} {b : UInt8} (h : n % 256 = b.toNat) : UInt8.ofNat n = b :=
  UInt8.toNat_inj.mp h

/-- The bytes of the character with a number. -/
theorem utf8EncodeChar_ofNat {v : Nat} (h : v < 0xD800 ∨ (0xDFFF < v ∧ v < 0x110000)) :
    String.utf8EncodeChar (Char.ofNat v) =
      if v ≤ 127 then [UInt8.ofNat v]
      else if v ≤ 2047 then [UInt8.ofNat (v / 64 % 32 + 192), UInt8.ofNat (v % 64 + 128)]
      else if v ≤ 65535 then
        [UInt8.ofNat (v / 4096 % 16 + 224), UInt8.ofNat (v / 64 % 64 + 128),
          UInt8.ofNat (v % 64 + 128)]
      else
        [UInt8.ofNat (v / 262144 % 8 + 240), UInt8.ofNat (v / 4096 % 64 + 128),
          UInt8.ofNat (v / 64 % 64 + 128), UInt8.ofNat (v % 64 + 128)] := by
  have hval : (Char.ofNat v).val.toNat = v := by
    rw [Char.ofNat, dif_pos h]
    rfl
  unfold String.utf8EncodeChar
  rw [hval]

/-- The scalar values. -/
theorem toNat_scalar (c : Char) :
    c.val.toNat < 0xD800 ∨ (0xDFFF < c.val.toNat ∧ c.val.toNat < 0x110000) :=
  c.valid

/-- The start of a character goes on. -/
theorem Pending.append {kept : List UInt8} (h : Pending kept) {b : UInt8}
    (hb : classify (kept ++ [b]) = .incomplete) : Pending (kept ++ [b]) := by
  cases h with
  | nil =>
      simp only [List.nil_append, classify] at hb
      split at hb
      · cases hb
      · split at hb
        · exact .one ‹_›
        · cases hb
  | one h =>
      simp only [List.singleton_append, classify] at hb
      split at hb
      · split at hb
        · cases hb
        · exact .two (by omega) ‹_›
      · cases hb
  | two h h₁ =>
      simp only [List.cons_append, List.nil_append, classify] at hb
      split at hb
      · split at hb
        · cases hb
        · exact .three (by omega) h₁ ‹_›
      · cases hb
  | three h h₁ h₂ =>
      simp only [List.cons_append, List.nil_append, classify] at hb
      split at hb
      · cases hb
      · cases hb

/-- Bytes that start a character are kept. -/
theorem feed_pending {kept : List UInt8} (h : Pending kept) : feed [] kept = some ([], kept) := by
  cases h with
  | nil => rfl
  | one h =>
      rename_i b₀
      have hfirst : classify [b₀] = .incomplete := classify_first h
      simp only [feed, List.nil_append, hfirst]
  | two h h₁ =>
      rename_i b₀ b₁
      have hfirst : classify [b₀] = .incomplete := classify_first (by omega)
      have hsecond : classify [b₀, b₁] = .incomplete := classify_second h.1 h₁
      simp only [feed, List.nil_append, hfirst, List.singleton_append, hsecond]
  | three h h₁ h₂ =>
      rename_i b₀ b₁ b₂
      have hfirst : classify [b₀] = .incomplete := classify_first (by omega)
      have hsecond : classify [b₀, b₁] = .incomplete := classify_second (by omega) h₁
      have hthird : classify [b₀, b₁, b₂] = .incomplete := classify_third h.1 h₂
      simp only [feed, List.nil_append, hfirst, List.cons_append, hsecond, hthird]

/-- The bytes of a complete character. -/
theorem Pending.char {kept : List UInt8} (h : Pending kept) {b : UInt8} {c : Char}
    (hb : classify (kept ++ [b]) = .char c) : kept ++ [b] = String.utf8EncodeChar c := by
  cases h with
  | nil =>
      simp only [List.nil_append, classify] at hb ⊢
      split at hb
      · cases hb
        rw [utf8EncodeChar_ofNat (Or.inl (by omega)), if_pos (by omega), UInt8.ofNat_toNat]
      · split at hb
        · cases hb
        · cases hb
  | one h =>
      rename_i b₀
      simp only [List.singleton_append, classify] at hb ⊢
      split at hb
      · rename_i hsecond
        have hsecond := isSecond_iff.mp hsecond
        split at hb
        · generalize hv : (b₀.toNat - 192) * 64 + (b.toNat - 128) = v at hb
          have hfirst : UInt8.ofNat (v / 64 % 32 + 192) = b₀ := ofNat_eq (by omega)
          have hlast : UInt8.ofNat (v % 64 + 128) = b := ofNat_eq (by omega)
          rw [← Utf8Bytes.char.inj hb, utf8EncodeChar_ofNat (Or.inl (by omega)), if_neg (by omega), if_pos (by omega),
            hfirst, hlast]
        · cases hb
      · cases hb
  | two h h₁ =>
      rename_i b₀ b₁
      have hsecond := isSecond_iff.mp h₁
      simp only [List.cons_append, List.nil_append, classify] at hb ⊢
      split at hb
      · rename_i hthird
        have hthird := isContinuation_iff.mp hthird
        split at hb
        · generalize hv : (b₀.toNat - 224) * 4096 + (b₁.toNat - 128) * 64 + (b.toNat - 128) = v
            at hb
          have hfirst : UInt8.ofNat (v / 4096 % 16 + 224) = b₀ := ofNat_eq (by omega)
          have hmiddle : UInt8.ofNat (v / 64 % 64 + 128) = b₁ := ofNat_eq (by omega)
          have hlast : UInt8.ofNat (v % 64 + 128) = b := ofNat_eq (by omega)
          rw [← Utf8Bytes.char.inj hb, utf8EncodeChar_ofNat (by omega), if_neg (by omega),
            if_neg (by omega), if_pos (by omega), hfirst, hmiddle, hlast]
        · cases hb
      · cases hb
  | three h h₁ h₂ =>
      rename_i b₀ b₁ b₂
      have hsecond := isSecond_iff.mp h₁
      have hthird := isContinuation_iff.mp h₂
      simp only [List.cons_append, List.nil_append, classify] at hb ⊢
      split at hb
      · rename_i hfourth
        have hfourth := isContinuation_iff.mp hfourth
        generalize hv : (b₀.toNat - 240) * 262144 + (b₁.toNat - 128) * 4096 +
          (b₂.toNat - 128) * 64 + (b.toNat - 128) = v at hb
        have hfirst : UInt8.ofNat (v / 262144 % 8 + 240) = b₀ := ofNat_eq (by omega)
        have hmiddle : UInt8.ofNat (v / 4096 % 64 + 128) = b₁ := ofNat_eq (by omega)
        have hmiddle' : UInt8.ofNat (v / 64 % 64 + 128) = b₂ := ofNat_eq (by omega)
        have hlast : UInt8.ofNat (v % 64 + 128) = b := ofNat_eq (by omega)
        rw [← Utf8Bytes.char.inj hb, utf8EncodeChar_ofNat (by omega), if_neg (by omega),
          if_neg (by omega), if_neg (by omega), hfirst, hmiddle, hmiddle', hlast]
      · cases hb

/-- The bytes of a character are decoded. -/
theorem feed_utf8EncodeChar (c : Char) (data : List UInt8) :
    feed [] (String.utf8EncodeChar c ++ data) =
      (feed [] data).map fun result => (c :: result.1, result.2) := by
  have hscalar := toNat_scalar c
  have hchar : ∀ n, n = c.val.toNat → Char.ofNat n = c := by
    rintro n rfl
    exact Char.ofNat_toNat c
  unfold String.utf8EncodeChar
  generalize c.val.toNat = v at hscalar hchar
  dsimp only
  split_ifs with h₁ h₂ h₃
  · have hclass : classify [UInt8.ofNat v] = .char c := by
      rw [classify, toNat_ofNat, if_pos (by omega), hchar (v % 256) (by omega)]
    simp only [List.cons_append, List.nil_append, feed, hclass]
  · have hfirst : classify [UInt8.ofNat (v / 64 % 32 + 192)] = .incomplete := by
      refine classify_first ?_
      rw [toNat_ofNat]
      omega
    have hsecond : isSecond (UInt8.ofNat (v / 64 % 32 + 192)) (UInt8.ofNat (v % 64 + 128)) = true := by
      refine isSecond_iff.mpr ?_
      simp only [toNat_ofNat]
      omega
    have hclass : classify [UInt8.ofNat (v / 64 % 32 + 192), UInt8.ofNat (v % 64 + 128)] =
        .char c := by
      rw [classify, if_pos hsecond, toNat_ofNat, toNat_ofNat, if_pos (by omega),
        hchar _ (by omega)]
    simp only [List.cons_append, List.nil_append, feed, hfirst, hclass]
  · have hfirst : classify [UInt8.ofNat (v / 4096 % 16 + 224)] = .incomplete := by
      refine classify_first ?_
      rw [toNat_ofNat]
      omega
    have hsecond : classify [UInt8.ofNat (v / 4096 % 16 + 224), UInt8.ofNat (v / 64 % 64 + 128)] =
        .incomplete := by
      refine classify_second ?_ (isSecond_iff.mpr ?_)
      · rw [toNat_ofNat]
        omega
      · simp only [toNat_ofNat]
        omega
    have hthird : isContinuation (UInt8.ofNat (v % 64 + 128)) = true := by
      rw [isContinuation_iff, toNat_ofNat]
      omega
    have hclass : classify [UInt8.ofNat (v / 4096 % 16 + 224), UInt8.ofNat (v / 64 % 64 + 128),
        UInt8.ofNat (v % 64 + 128)] = .char c := by
      rw [classify, if_pos hthird, toNat_ofNat, toNat_ofNat, toNat_ofNat, if_pos (by omega),
        hchar _ (by omega)]
    simp only [List.cons_append, List.nil_append, feed, hfirst, hsecond, hclass]
  · have hfirst : classify [UInt8.ofNat (v / 262144 % 8 + 240)] = .incomplete := by
      refine classify_first ?_
      rw [toNat_ofNat]
      omega
    have hsecond : classify [UInt8.ofNat (v / 262144 % 8 + 240),
        UInt8.ofNat (v / 4096 % 64 + 128)] = .incomplete := by
      refine classify_second ?_ (isSecond_iff.mpr ?_)
      · rw [toNat_ofNat]
        omega
      · simp only [toNat_ofNat]
        omega
    have hthird : classify [UInt8.ofNat (v / 262144 % 8 + 240), UInt8.ofNat (v / 4096 % 64 + 128),
        UInt8.ofNat (v / 64 % 64 + 128)] = .incomplete := by
      refine classify_third ?_ ?_
      · rw [toNat_ofNat]
        omega
      · rw [isContinuation_iff, toNat_ofNat]
        omega
    have hfourth : isContinuation (UInt8.ofNat (v % 64 + 128)) = true := by
      rw [isContinuation_iff, toNat_ofNat]
      omega
    have hclass : classify [UInt8.ofNat (v / 262144 % 8 + 240), UInt8.ofNat (v / 4096 % 64 + 128),
        UInt8.ofNat (v / 64 % 64 + 128), UInt8.ofNat (v % 64 + 128)] = .char c := by
      rw [classify, if_pos hfourth, toNat_ofNat, toNat_ofNat, toNat_ofNat, toNat_ofNat,
        hchar _ (by omega)]
    simp only [List.cons_append, List.nil_append, feed, hfirst, hsecond, hthird, hclass]

/-- Two calls decode what one call decodes. -/
theorem feed_append (kept data data' : List UInt8) :
    feed kept (data ++ data') =
      (feed kept data).bind fun result =>
        (feed result.2 data').map fun result' => (result.1 ++ result'.1, result'.2) := by
  induction data generalizing kept with
  | nil => simp [feed]
  | cons b data ih =>
      rw [List.cons_append, feed, feed]
      cases classify (kept ++ [b]) with
      | char c =>
          simp only [ih]
          cases feed [] data with
          | none => rfl
          | some result =>
              cases hrest : feed result.2 data' with
              | none => simp [hrest]
              | some result' => simp [hrest]
      | incomplete => exact ih _
      | invalid => rfl

/-- What is decoded and what is kept are the bytes. -/
theorem encodeUtf8_feed {kept data rest : List UInt8} {text : List Char} (hkept : Pending kept)
    (h : feed kept data = some (text, rest)) :
    kept ++ data = encodeUtf8 text ++ rest ∧ Pending rest := by
  induction data generalizing kept text with
  | nil =>
      simp only [feed, Option.some.injEq, Prod.mk.injEq] at h
      obtain ⟨rfl, rfl⟩ := h
      exact ⟨by simp, hkept⟩
  | cons b data ih =>
      rw [feed] at h
      cases hclass : classify (kept ++ [b]) with
      | char c =>
          simp only [hclass, Option.map_eq_some_iff] at h
          obtain ⟨result, hresult, heq⟩ := h
          cases heq
          obtain ⟨hdata, hrest⟩ := ih .nil hresult
          refine ⟨?_, hrest⟩
          rw [List.nil_append] at hdata
          rw [encodeUtf8_cons, ← hkept.char hclass, List.append_assoc _ _ result.2, ← hdata,
            List.append_assoc, List.singleton_append]
      | incomplete =>
          simp only [hclass] at h
          have hstep := ih (hkept.append hclass) h
          rwa [List.append_assoc, List.singleton_append] at hstep
      | invalid => simp [hclass] at h

/-- An encoded text is decoded. -/
theorem feed_encodeUtf8 (text : List Char) : feed [] (encodeUtf8 text) = some (text, []) := by
  induction text with
  | nil => rfl
  | cons c text ih => rw [encodeUtf8_cons, feed_utf8EncodeChar, ih, Option.map_some]

/-- All bytes are decoded, and none are kept. -/
theorem feed_eq_iff {data : List UInt8} {text : List Char} :
    feed [] data = some (text, []) ↔ data = encodeUtf8 text := by
  constructor
  · intro h
    have hdata := (encodeUtf8_feed .nil h).1
    rwa [List.nil_append, List.append_nil] at hdata
  · intro h
    rw [h, feed_encodeUtf8]

/-! ### The byte order mark -/

/-- `codecs.BOM_UTF8`. -/
def bomUtf8 : List UInt8 := [0xEF, 0xBB, 0xBF]

/-- The bytes after a byte order mark. -/
def stripBom (data : List UInt8) : List UInt8 :=
  if data.take 3 = bomUtf8 then data.drop 3 else data

/-- `data.decode("utf-8-sig")`. -/
def decodeUtf8Sig (data : List UInt8) : Option (List Char) :=
  decodeUtf8 (stripBom data)

/-- `codecs.utf_8_decode(data, "strict", final)`: the text, and the bytes that are not consumed. -/
def utf8Decode (data : List UInt8) (final : Bool) : Option (List Char × List UInt8) :=
  (feed [] data).bind fun result => if final && result.2 ≠ [] then none else some result

/-- The incremental decoder of `utf-8-sig`. -/
structure SigDecoder where
  buffer : List UInt8 := []
  first : Bool := true

/-- `decoder.decode(input, final)`: the text, and the decoder after the call. A decoder that has
not seen three bytes waits while they can be a byte order mark. -/
def SigDecoder.decode (decoder : SigDecoder) (input : List UInt8) (final : Bool) :
    Option (List Char × SigDecoder) :=
  let data := decoder.buffer ++ input
  if decoder.first then
    if data.length < 3 then
      if data.isPrefixOf bomUtf8 then some ([], ⟨data, true⟩)
      else (utf8Decode data final).map fun result => (result.1, ⟨result.2, false⟩)
    else if data.take 3 = bomUtf8 then
      (utf8Decode (data.drop 3) final).map fun result => (result.1, ⟨result.2, false⟩)
    else (utf8Decode data final).map fun result => (result.1, ⟨result.2, false⟩)
  else (utf8Decode data final).map fun result => (result.1, ⟨result.2, false⟩)

/-- The bytes can be the start of a byte order mark. -/
def Undecided (data : List UInt8) : Prop :=
  data.length < 3 ∧ data.isPrefixOf bomUtf8 = true

instance (data : List UInt8) : Decidable (Undecided data) :=
  inferInstanceAs (Decidable (_ ∧ _))

/-- The decoder has decoded `text` from `data`. -/
inductive SigDecoder.HasRead (data : List UInt8) (text : List Char) : SigDecoder → Prop
  | undecided (h : Undecided data) (htext : text = []) : HasRead data text ⟨data, true⟩
  | decided {buffer : List UInt8} (h : ¬Undecided data)
      (hfeed : feed [] (stripBom data) = some (text, buffer)) : HasRead data text ⟨buffer, false⟩

/-- A new decoder. -/
theorem SigDecoder.hasRead_nil : SigDecoder.HasRead [] [] {} :=
  .undecided (by decide) rfl

@[simp]
theorem utf8Decode_false (data : List UInt8) : utf8Decode data false = feed [] data := by
  unfold utf8Decode
  cases feed [] data with
  | none => rfl
  | some result => simp

/-- A mark is at the start only if the start can be a mark. -/
theorem stripBom_append {data : List UInt8} (h : ¬Undecided data) (input : List UInt8) :
    stripBom (data ++ input) = stripBom data ++ input := by
  unfold stripBom
  by_cases hlength : data.length < 3
  · have hprefix : ¬data <+: bomUtf8 := fun hprefix =>
      h ⟨hlength, List.isPrefixOf_iff_prefix.mpr hprefix⟩
    have hboth : ¬(data ++ input).take 3 = bomUtf8 := by
      intro htake
      refine hprefix ?_
      rw [← htake, List.take_append, List.take_of_length_le (by omega)]
      exact List.prefix_append _ _
    have hdata : ¬data.take 3 = bomUtf8 := by
      intro htake
      rw [List.take_of_length_le (by omega)] at htake
      exact hprefix (htake ▸ List.prefix_refl _)
    rw [if_neg hboth, if_neg hdata]
  · rw [List.take_append_of_le_length (by omega)]
    split
    · rw [List.drop_append_of_le_length (by omega)]
    · rfl

/-- A decoder that no longer waits decodes what follows the mark. -/
theorem SigDecoder.decode_decided {data : List UInt8} {first : Bool}
    (h : ¬Undecided data ∨ first = false) (buffer input : List UInt8)
    (hdata : buffer ++ input = data) (final : Bool) :
    SigDecoder.decode ⟨buffer, first⟩ input final =
      (utf8Decode (if first then stripBom data else data) final).map fun result =>
        (result.1, ⟨result.2, false⟩) := by
  unfold SigDecoder.decode
  simp only [hdata]
  cases first with
  | false => rfl
  | true =>
      have hundecided := h.resolve_right (by decide)
      simp only [if_true]
      by_cases hlength : data.length < 3
      · have hprefix : ¬data.isPrefixOf bomUtf8 = true := fun hprefix => hundecided ⟨hlength, hprefix⟩
        have hstrip : stripBom data = data := by
          unfold stripBom
          rw [if_neg]
          intro htake
          have htake := congrArg List.length htake
          rw [List.length_take] at htake
          simp only [bomUtf8, List.length_cons, List.length_nil] at htake
          omega
        rw [if_pos hlength, if_neg hprefix, hstrip]
      · rw [if_neg hlength]
        unfold stripBom
        split
        · rfl
        · rfl

theorem not_undecided_append {data : List UInt8} (h : ¬Undecided data) (input : List UInt8) :
    ¬Undecided (data ++ input) := by
  intro ⟨hlength, hprefix⟩
  rw [List.length_append] at hlength
  refine h ⟨by omega, List.isPrefixOf_iff_prefix.mpr ?_⟩
  exact (List.prefix_append data input).trans (List.isPrefixOf_iff_prefix.mp hprefix)

theorem decode_undecided {data input : List UInt8} (h : Undecided (data ++ input)) (final : Bool) :
    SigDecoder.decode ⟨data, true⟩ input final = some ([], ⟨data ++ input, true⟩) := by
  unfold SigDecoder.decode
  simp only [if_true, if_pos h.1, if_pos h.2]

/-- A decoder goes on from the bytes that it has kept. -/
theorem feed_stripBom_append {data buffer : List UInt8} {text : List Char}
    (h : ¬Undecided data) (hfeed : feed [] (stripBom data) = some (text, buffer))
    (input : List UInt8) :
    feed [] (stripBom (data ++ input)) =
      (feed [] (buffer ++ input)).map fun result => (text ++ result.1, result.2) := by
  have hpending : Pending buffer := (encodeUtf8_feed .nil hfeed).2
  rw [stripBom_append h, feed_append, hfeed, feed_append, feed_pending hpending]
  simp only [Option.bind_some, List.nil_append, Prod.eta]
  cases feed buffer input with
  | none => rfl
  | some result => rfl

/-- One call. -/
theorem SigDecoder.HasRead.decode {data : List UInt8} {text : List Char} {decoder : SigDecoder}
    (h : HasRead data text decoder) {input : List UInt8} {text' : List Char}
    {decoder' : SigDecoder} (hcall : decoder.decode input false = some (text', decoder')) :
    HasRead (data ++ input) (text ++ text') decoder' := by
  cases h with
  | undecided hundecided htext =>
      subst htext
      by_cases hnew : Undecided (data ++ input)
      · rw [decode_undecided hnew] at hcall
        cases hcall
        exact .undecided hnew rfl
      · rw [decode_decided (Or.inl hnew) data input rfl, utf8Decode_false] at hcall
        obtain ⟨result, hresult, heq⟩ := Option.map_eq_some_iff.mp hcall
        cases heq
        exact .decided hnew hresult
  | decided hdecided hfeed =>
      rename_i buffer
      rw [decode_decided (Or.inr rfl) buffer input rfl, utf8Decode_false] at hcall
      obtain ⟨result, hresult, heq⟩ := Option.map_eq_some_iff.mp hcall
      cases heq
      refine .decided (not_undecided_append hdecided input) ?_
      have hresult : feed [] (buffer ++ input) = some result := hresult
      rw [feed_stripBom_append hdecided hfeed, hresult, Option.map_some]

/-- Bytes that are not decoded are no start of an encoded text. -/
theorem decodeUtf8_append_eq_none {data : List UInt8} (h : feed [] data = none)
    (more : List UInt8) : decodeUtf8 (data ++ more) = none := by
  cases htext : decodeUtf8 (data ++ more) with
  | none => rfl
  | some text =>
      have hfeed := feed_eq_iff.mpr (decodeUtf8_eq_some.mp htext)
      rw [feed_append, h] at hfeed
      cases hfeed

/-- A call that fails. -/
theorem SigDecoder.HasRead.decode_eq_none {data : List UInt8} {text : List Char}
    {decoder : SigDecoder} (h : HasRead data text decoder) {input : List UInt8}
    (hcall : decoder.decode input false = none) (more : List UInt8) :
    decodeUtf8Sig (data ++ input ++ more) = none := by
  have hfeed : ¬Undecided (data ++ input) ∧ feed [] (stripBom (data ++ input)) = none := by
    cases h with
    | undecided hundecided htext =>
        by_cases hnew : Undecided (data ++ input)
        · rw [decode_undecided hnew] at hcall
          cases hcall
        · rw [decode_decided (Or.inl hnew) data input rfl, utf8Decode_false] at hcall
          exact ⟨hnew, Option.map_eq_none_iff.mp hcall⟩
    | decided hdecided hfeed =>
        rename_i buffer
        rw [decode_decided (Or.inr rfl) buffer input rfl, utf8Decode_false] at hcall
        have hinput : feed [] (buffer ++ input) = none := Option.map_eq_none_iff.mp hcall
        refine ⟨not_undecided_append hdecided input, ?_⟩
        rw [feed_stripBom_append hdecided hfeed, hinput, Option.map_none]
  rw [decodeUtf8Sig, stripBom_append hfeed.1]
  exact decodeUtf8_append_eq_none hfeed.2 more

/-- The last call fails if bytes are kept. -/
theorem decode_final (buffer : List UInt8) (hpending : Pending buffer) :
    SigDecoder.decode ⟨buffer, false⟩ [] true =
      if buffer = [] then some ([], ⟨[], false⟩) else none := by
  rw [SigDecoder.decode_decided (Or.inr rfl) buffer [] (List.append_nil buffer)]
  show (utf8Decode buffer true).map _ = _
  rw [utf8Decode, feed_pending hpending, Option.bind_some]
  by_cases hnil : buffer = []
  · rw [if_pos hnil, hnil]
    rfl
  · rw [if_neg hnil]
    simp [hnil]

/-- The bytes are decoded if none are kept. -/
theorem decodeUtf8Sig_of_feed {data buffer : List UInt8} {text : List Char}
    (hfeed : feed [] (stripBom data) = some (text, buffer)) :
    decodeUtf8Sig data = if buffer = [] then some text else none := by
  unfold decodeUtf8Sig
  split
  · rename_i hnil
    rw [hnil] at hfeed
    exact decodeUtf8_eq_some.mpr (feed_eq_iff.mp hfeed)
  · rename_i hne
    cases htext : decodeUtf8 (stripBom data) with
    | none => rfl
    | some text' =>
        have hfeed' := feed_eq_iff.mpr (decodeUtf8_eq_some.mp htext)
        rw [hfeed] at hfeed'
        cases hfeed'
        exact absurd rfl hne

/-- The start of a byte order mark has no text. -/
theorem decodeUtf8Sig_of_undecided {data : List UInt8} (h : Undecided data) {text : List Char}
    (htext : decodeUtf8Sig data = some text) : text = [] := by
  have hstart : ∀ n < 3, feed [] (stripBom (bomUtf8.take n)) = some ([], bomUtf8.take n) := by
    decide
  have hdata : data = bomUtf8.take data.length :=
    List.prefix_iff_eq_take.mp (List.isPrefixOf_iff_prefix.mp h.2)
  have hfeed := hstart data.length h.1
  rw [← hdata] at hfeed
  rw [decodeUtf8Sig_of_feed hfeed] at htext
  split at htext
  · exact (Option.some.inj htext).symm
  · cases htext

end Onadata.Lib
