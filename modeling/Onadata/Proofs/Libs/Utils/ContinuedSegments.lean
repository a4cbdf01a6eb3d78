import Onadata.Lib.PyText
import Onadata.Proofs.Libs.Utils.ContentDisposition

/-!
# `Onadata.Proofs.Libs.Utils.ContinuedSegments`: file names in RFC 2231 segments

A `ContinuedHeader` sends a file name in numbered segments, in any order. A segment is a quoted
string, or it is percent-encoded and the star after its number says so. Then the first segment has
the charset and the language before its text. The pieces of the name may be empty.

`finish_read_sent` is what the scanner finds: one parameter for each segment, unless nothing is
written for one of them.
-/

set_option autoImplicit false

namespace Onadata.Proofs

open Onadata.Lib
open ReaderState

/-! ### What is sent -/

/-- The `attr-char` of RFC 5987. -/
def isAttrChar (c : Char) : Bool :=
  c.isAlphanum || "!#$&+-.^_`|~".toList.contains c

/-- A character of a language tag. -/
def isLanguageChar (c : Char) : Bool :=
  c.isAlphanum || c == '-'

/-- The characters between the quotes: `"` and `\` follow a backslash, and others may. -/
inductive QuotesAs : List Char → List Char → Prop
  | nil : QuotesAs [] []
  | plain {c : Char} {text quoted : List Char} :
      c ≠ '"' → c ≠ '\\' → QuotesAs text quoted → QuotesAs (c :: text) (c :: quoted)
  | escaped {c : Char} {text quoted : List Char} :
      QuotesAs text quoted → QuotesAs (c :: text) ('\\' :: c :: quoted)

/-- What may be written for the segment with this number and text. -/
inductive Writes : (idx : Nat) → (extended : Bool) → (text written : List Char) → Prop
  | quoted {idx : Nat} {text quoted : List Char} :
      QuotesAs text quoted → Writes idx false text ('"' :: (quoted ++ ['"']))
  | initial {charset language text encoded : List Char} :
      charset.map Char.toLower = "utf-8".toList → (∀ c ∈ language, isLanguageChar c = true) →
        PercentEncodes isAttrChar text encoded →
          Writes 0 true text (charset ++ '\'' :: (language ++ '\'' :: encoded))
  | later {idx : Nat} {text encoded : List Char} :
      PercentEncodes isAttrChar text encoded → Writes (idx + 1) true text encoded

/-- A segment: its piece of the name, and how it is written. `key` is `filename` in letters
of any case, and blanks may stand before and after `;` and `=`. -/
structure Segment where
  text : List Char
  extended : Bool
  written : List Char
  key : List Char := ['f', 'i', 'l', 'e', 'n', 'a', 'm', 'e']
  beforeMark : List Char := []
  afterMark : List Char := [' ']
  beforeEquals : List Char := []
  afterEquals : List Char := []
  key_eq : key.map Char.toLower = ['f', 'i', 'l', 'e', 'n', 'a', 'm', 'e'] := by decide
  blank : ∀ c ∈ beforeMark ++ afterMark ++ beforeEquals ++ afterEquals, isBlank c = true :=
    by exact List.all_eq_true.mp (by decide)

namespace Segment

/-- `filename*0*` or `filename*0`, as it is written. -/
def name (segment : Segment) (idx : Nat) : List Char :=
  segment.key ++ '*' :: ((toString idx).toList ++ if segment.extended then ['*'] else [])

/-- The segment in the header. -/
def chars (segment : Segment) (idx : Nat) : List Char :=
  segment.beforeMark ++ ';' :: (segment.afterMark ++ (segment.name idx ++ (segment.beforeEquals ++
    '=' :: (segment.afterEquals ++ segment.written))))

/-- The parameter of the segment. -/
def param (segment : Segment) (idx : Nat) : HeaderParam :=
  paramOf (segment.name idx) (if segment.extended then segment.written else segment.text)
    !segment.extended

end Segment

/-- A header that sends a file name in segments. `sent` are the segments with their numbers, in the
order of the header. -/
structure ContinuedHeader where
  dispositionType : List Char
  segments : List Segment
  sent : List (Segment × Nat)
  two_le : 2 ≤ segments.length
  type_ne : dispositionType ≠ []
  type_token : dispositionType.all isTokenChar = true
  sent_perm : sent.Perm segments.zipIdx
  writes : ∀ sent ∈ segments.zipIdx, Writes sent.2 sent.1.extended sent.1.text sent.1.written

namespace ContinuedHeader

/-- The segments in the header. -/
def sentChars (sent : List (Segment × Nat)) : List Char :=
  sent.flatMap fun segment => segment.1.chars segment.2

/-- The header. -/
def header (continued : ContinuedHeader) : String :=
  String.ofList (continued.dispositionType ++ sentChars continued.sent)

/-- The file name. -/
def filename (continued : ContinuedHeader) : String :=
  String.ofList (continued.segments.flatMap Segment.text)

end ContinuedHeader

/-! ### The characters -/

theorem isTokenChar_of_isAlphanum {c : Char} (h : c.isAlphanum = true) : isTokenChar c = true := by
  rw [isTokenChar, h, Bool.true_or]

theorem attrChars_ascii :
    "!#$&+-.^_`|~".toList.all (fun c => decide (c.toNat < 128) && decide (c ≠ '%')) = true := by
  rfl

theorem attrChars_token :
    "!#$&+-.^_`|~".toList.all (fun c => isTokenChar c && decide (c ≠ '\'')) = true := by
  rfl

/-- The characters of `attr-char` are ASCII characters of a token. -/
theorem isAttrChar_ascii {c : Char} (h : isAttrChar c = true) : c.toNat < 128 ∧ c ≠ '%' := by
  simp only [isAttrChar, Bool.or_eq_true] at h
  rcases h with halphanum | hmem
  · refine ⟨isAlphanum_ascii halphanum, ?_⟩
    rintro rfl
    revert halphanum
    decide
  · have hall := List.all_eq_true.mp attrChars_ascii c (List.contains_iff_mem.mp hmem)
    simpa using hall

theorem isTokenChar_of_isAttrChar {c : Char} (h : isAttrChar c = true) :
    isTokenChar c = true ∧ c ≠ '\'' := by
  simp only [isAttrChar, Bool.or_eq_true] at h
  rcases h with halphanum | hmem
  · refine ⟨isTokenChar_of_isAlphanum halphanum, ?_⟩
    rintro rfl
    revert halphanum
    decide
  · have hall := List.all_eq_true.mp attrChars_token c (List.contains_iff_mem.mp hmem)
    simpa using hall

/-- An encoded text is written with characters of a token, and without an apostrophe. -/
theorem isTokenChar_of_percentEncodes {text encoded : List Char}
    (h : PercentEncodes isAttrChar text encoded) :
    ∀ c ∈ encoded, isTokenChar c = true ∧ c ≠ '\'' := by
  intro c hc
  rcases mem_of_percentEncodes h hc with hattr | rfl | halphanum
  · exact isTokenChar_of_isAttrChar hattr
  · decide
  · refine ⟨isTokenChar_of_isAlphanum halphanum, ?_⟩
    rintro rfl
    revert halphanum
    decide

/-- A character whose lower case is in a token is in a token. -/
theorem isTokenChar_of_toLower {c : Char} (h : c.toLower.isAlphanum = true ∨ c.toLower = '-') :
    isTokenChar c = true ∧ c ≠ '\'' := by
  by_cases hupper : c.isUpper = true
  · refine ⟨isTokenChar_of_isAlphanum ?_, ?_⟩
    · show (c.isUpper || c.isLower || c.isDigit) = true
      rw [hupper, Bool.true_or, Bool.true_or]
    · rintro rfl
      revert hupper
      decide
  · have hsame : c.toLower = c := by
      unfold Char.toLower
      rw [dif_neg]
      intro hrange
      apply hupper
      exact decide_eq_true hrange
    rw [hsame] at h
    rcases h with halphanum | rfl
    · refine ⟨isTokenChar_of_isAlphanum halphanum, ?_⟩
      rintro rfl
      revert halphanum
      decide
    · decide

/-- The key and the number are characters of a token. -/
theorem isTokenChar_of_mem_name (segment : Segment) (idx : Nat) :
    ∀ c ∈ segment.name idx, isTokenChar c = true := by
  intro c hc
  rcases List.mem_append.mp hc with hkey | hnumber
  · have hmem : c.toLower ∈ ['f', 'i', 'l', 'e', 'n', 'a', 'm', 'e'] := by
      rw [← segment.key_eq]
      exact List.mem_map_of_mem hkey
    have hall : ['f', 'i', 'l', 'e', 'n', 'a', 'm', 'e'].all Char.isAlphanum = true := by decide
    exact (isTokenChar_of_toLower (Or.inl (List.all_eq_true.mp hall _ hmem))).1
  · rcases List.mem_cons.mp hnumber with rfl | hnumber
    · decide
    · rcases List.mem_append.mp hnumber with hdigit | hstar
      · have hdigit := isDigit_of_mem_number hdigit
        exact isTokenChar_of_isAlphanum (by simp [Char.isAlphanum, hdigit])
      · cases hextended : segment.extended with
        | false =>
            rw [hextended] at hstar
            exact absurd hstar List.not_mem_nil
        | true =>
            rw [hextended] at hstar
            rw [List.mem_singleton.mp hstar]
            decide

/-- A charset that is `utf-8` in letters of any case. -/
theorem isTokenChar_of_charset {charset : List Char}
    (h : charset.map Char.toLower = "utf-8".toList) :
    ∀ c ∈ charset, isTokenChar c = true ∧ c ≠ '\'' := by
  intro c hc
  have hmem : c.toLower ∈ "utf-8".toList := h ▸ List.mem_map_of_mem hc
  have hall : "utf-8".toList.all (fun c => c.isAlphanum || c == '-') = true := by rfl
  have hlower := List.all_eq_true.mp hall _ hmem
  rw [Bool.or_eq_true, beq_iff_eq] at hlower
  exact isTokenChar_of_toLower hlower

theorem isTokenChar_of_language {language : List Char}
    (h : ∀ c ∈ language, isLanguageChar c = true) :
    ∀ c ∈ language, isTokenChar c = true ∧ c ≠ '\'' := by
  intro c hc
  have hchar := h c hc
  rw [isLanguageChar, Bool.or_eq_true, beq_iff_eq] at hchar
  rcases hchar with halphanum | rfl
  · refine ⟨isTokenChar_of_isAlphanum halphanum, ?_⟩
    rintro rfl
    revert halphanum
    decide
  · decide

/-- An extended value is written with characters of a token. -/
theorem isTokenChar_of_writes {idx : Nat} {text written : List Char}
    (h : Writes idx true text written) : ∀ c ∈ written, isTokenChar c = true := by
  intro c hc
  cases h with
  | initial hcharset hlanguage hencoded =>
      rcases List.mem_append.mp hc with hc | hc
      · exact (isTokenChar_of_charset hcharset c hc).1
      · rcases List.mem_cons.mp hc with rfl | hc
        · decide
        · rcases List.mem_append.mp hc with hc | hc
          · exact (isTokenChar_of_language hlanguage c hc).1
          · rcases List.mem_cons.mp hc with rfl | hc
            · decide
            · exact (isTokenChar_of_percentEncodes hencoded c hc).1
  | later hencoded => exact (isTokenChar_of_percentEncodes hencoded c hc).1

/-! ### Reading a segment -/

/-- Characters that keep the state. -/
theorem read_kept {state : ReaderState} {text : List Char}
    (h : ∀ c ∈ text, state.step c = state) : state.read text = state := by
  induction text with
  | nil => rfl
  | cons c text ih =>
      rw [read_cons, h c List.mem_cons_self]
      exact ih fun d hd => h d (List.mem_cons_of_mem c hd)

/-- A name takes up all characters of a token. -/
theorem read_inName_token {text : List Char} (h : ∀ c ∈ text, isTokenChar c = true)
    (params : List HeaderParam) (name : List Char) :
    (inName params name).read text = inName params (name ++ text) := by
  induction text generalizing name with
  | nil => rw [read_nil, List.append_nil]
  | cons c text ih =>
      have hstep : (inName params name).step c = inName params (name ++ [c]) :=
        if_pos (h c List.mem_cons_self)
      rw [read_cons, hstep, ih fun d hd => h d (List.mem_cons_of_mem c hd), List.append_assoc,
        List.singleton_append]

theorem not_isBlank_of_isTokenChar {c : Char} (h : isTokenChar c = true) : isBlank c = false := by
  rw [← Bool.not_eq_true]
  intro hblank
  rw [not_isTokenChar_of_isBlank hblank] at h
  cases h

/-- A name, from its first character on. -/
theorem read_beforeName_token {text : List Char} (hne : text ≠ [])
    (h : ∀ c ∈ text, isTokenChar c = true) (params : List HeaderParam) :
    (beforeName params).read text = inName params text := by
  obtain ⟨c, rest, rfl⟩ := List.exists_cons_of_ne_nil hne
  have hc := h c List.mem_cons_self
  have hstep : (beforeName params).step c = inName params [c] := by
    rw [step, if_neg (by simp [not_isBlank_of_isTokenChar hc]), if_pos hc]
  rw [read_cons, hstep, read_inName_token fun d hd => h d (List.mem_cons_of_mem c hd)]
  rfl

/-- The equals sign after a name, with blanks around it. -/
theorem read_inName_equals {blanks blanks' : List Char} (h : ∀ c ∈ blanks, isBlank c = true)
    (h' : ∀ c ∈ blanks', isBlank c = true) (params : List HeaderParam) (name : List Char) :
    (inName params name).read (blanks ++ '=' :: blanks') = beforeValue params name := by
  have hlast : (beforeValue params name).read blanks' = beforeValue params name :=
    read_kept fun c hc => if_pos (h' c hc)
  cases blanks with
  | nil =>
      show ((inName params name).step '=').read blanks' = _
      exact hlast
  | cons c blanks =>
      have hc := h c List.mem_cons_self
      have hstep : (inName params name).step c = afterName params name := by
        rw [step, if_neg (by simp [not_isTokenChar_of_isBlank hc]), if_pos hc]
      have hblanks : (afterName params name).read blanks = afterName params name :=
        read_kept fun d hd => if_pos (h d (List.mem_cons_of_mem c hd))
      rw [List.cons_append, read_cons, hstep, read_append, hblanks]
      show ((afterName params name).step '=').read blanks' = _
      exact hlast

/-- A segment up to its value. -/
theorem read_name (segment : Segment) (idx : Nat) (params : List HeaderParam) (rest : List Char) :
    (afterValue params).read (segment.beforeMark ++ ';' :: (segment.afterMark ++
        (segment.name idx ++ (segment.beforeEquals ++ '=' :: (segment.afterEquals ++ rest))))) =
      (beforeValue params (segment.name idx)).read rest := by
  have hblank := segment.blank
  simp only [List.mem_append] at hblank
  have hname : segment.name idx ≠ [] := by
    unfold Segment.name
    exact List.append_ne_nil_of_right_ne_nil _ (List.cons_ne_nil _ _)
  have hbefore : (afterValue params).read segment.beforeMark = afterValue params :=
    read_kept fun c hc => if_pos (hblank c (by simp [hc]))
  have hmark : (beforeName params).read segment.afterMark = beforeName params :=
    read_kept fun c hc => if_pos (hblank c (by simp [hc]))
  have hequals := @read_inName_equals segment.beforeEquals segment.afterEquals
    (fun c hc => hblank c (by simp [hc])) (fun c hc => hblank c (by simp [hc])) params
    (segment.name idx)
  rw [read_append, hbefore]
  show (beforeName params).read _ = _
  rw [read_append, hmark, read_append,
    read_beforeName_token hname (isTokenChar_of_mem_name segment idx), ← List.cons_append,
    ← List.append_assoc, read_append, hequals]

/-- A quoted text is read back. -/
theorem read_inQuoted_quotesAs {text quoted : List Char} (h : QuotesAs text quoted)
    (params : List HeaderParam) (name value : List Char) :
    (inQuoted params name value).read quoted = inQuoted params name (value ++ text) := by
  induction h generalizing value with
  | nil => rw [read_nil, List.append_nil]
  | @plain c text quoted hquote hescape _ ih =>
      have hstep : (inQuoted params name value).step c = inQuoted params name (value ++ [c]) := by
        rw [step, if_neg hescape, if_neg hquote]
      rw [read_cons, hstep, ih, List.append_assoc, List.singleton_append]
  | @escaped c text quoted _ ih =>
      have hstep : (inQuoted params name value).step '\\' = escaped params name value := rfl
      have hstep' : (ReaderState.escaped params name value).step c =
          inQuoted params name (value ++ [c]) := rfl
      rw [read_cons, hstep, read_cons, hstep', ih, List.append_assoc, List.singleton_append]

/-- A token, from its first character on. -/
theorem read_beforeValue_token {text : List Char} (hne : text ≠ [])
    (h : ∀ c ∈ text, isTokenChar c = true) (params : List HeaderParam) (name : List Char) :
    (beforeValue params name).read text = inValue params name text := by
  obtain ⟨c, rest, rfl⟩ := List.exists_cons_of_ne_nil hne
  have hc := h c List.mem_cons_self
  have hstep : (beforeValue params name).step c = inValue params name [c] := by
    rw [step, if_neg (by simp [not_isBlank_of_isTokenChar hc]),
      if_neg (isTokenChar_ne (Or.inl hc)).1, if_pos hc]
  rw [read_cons, hstep, read_inValue_token fun d hd => h d (List.mem_cons_of_mem c hd)]
  rfl

/-- What may follow a token: nothing, or another character. -/
def EndsToken (rest : List Char) : Prop :=
  ∀ c, rest.head? = some c → isTokenChar c = false

/-- A segment for which something is written gives its parameter. -/
theorem finish_read_segment {segment : Segment} {idx : Nat}
    (hwrites : Writes idx segment.extended segment.text segment.written)
    (hne : segment.written ≠ []) {rest : List Char} (hrest : EndsToken rest)
    (params : List HeaderParam) :
    ((afterValue params).read (segment.chars idx ++ rest)).finish =
      ((afterValue (params ++ [segment.param idx])).read rest).finish := by
  have hchars : segment.chars idx ++ rest = segment.beforeMark ++ ';' :: (segment.afterMark ++
      (segment.name idx ++ (segment.beforeEquals ++
        '=' :: (segment.afterEquals ++ (segment.written ++ rest))))) := by
    simp only [Segment.chars, List.append_assoc, List.cons_append]
  rw [hchars, read_name, read_append]
  unfold Segment.param
  cases hextended : segment.extended with
  | false =>
      rw [hextended] at hwrites
      generalize segment.written = written at hwrites
      cases hwrites with
      | @quoted _ _ quoted hquotes =>
          rw [read_cons]
          show (((inQuoted params (segment.name idx) []).read (quoted ++ ['"'])).read rest).finish = _
          rw [read_append, read_inQuoted_quotesAs hquotes]
          rfl
  | true =>
      rw [hextended] at hwrites
      have htoken := isTokenChar_of_writes hwrites
      rw [read_beforeValue_token hne htoken, finish_read_inValue]
      -- the token ends before what follows
      have hends : rest.takeWhile isTokenChar = [] ∧ rest.dropWhile isTokenChar = rest := by
        cases rest with
        | nil => exact ⟨rfl, rfl⟩
        | cons c rest =>
            have hc := hrest c rfl
            exact ⟨List.takeWhile_cons_of_neg (by simp [hc]),
              List.dropWhile_cons_of_neg (by simp [hc])⟩
      rw [hends.1, hends.2, List.append_nil]
      rfl

/-- The segments behind a value start with a blank or a semicolon. -/
theorem endsToken_sentChars (sent : List (Segment × Nat)) :
    EndsToken (ContinuedHeader.sentChars sent) := by
  intro c hc
  cases sent with
  | nil => cases hc
  | cons first sent =>
      have hblank := first.1.blank
      simp only [List.mem_append] at hblank
      unfold ContinuedHeader.sentChars Segment.chars at hc
      rw [List.flatMap_cons] at hc
      cases hbefore : first.1.beforeMark with
      | nil =>
          rw [hbefore] at hc
          rw [← Option.some.inj hc]
          decide
      | cons blank blanks =>
          rw [hbefore] at hc
          rw [← Option.some.inj hc]
          exact not_isTokenChar_of_isBlank (hblank blank (by simp [hbefore]))

/-- The parameters of the segments. -/
theorem finish_read_sent {sent : List (Segment × Nat)}
    (hwrites : ∀ segment ∈ sent,
      Writes segment.2 segment.1.extended segment.1.text segment.1.written)
    (hne : ∀ segment ∈ sent, segment.1.written ≠ []) (params : List HeaderParam) :
    ((afterValue params).read (ContinuedHeader.sentChars sent)).finish =
      some (params ++ sent.map fun segment => segment.1.param segment.2) := by
  induction sent generalizing params with
  | nil =>
      rw [List.map_nil, List.append_nil]
      rfl
  | cons first sent ih =>
      rw [List.forall_mem_cons] at hwrites hne
      have hrest := endsToken_sentChars sent
      show ((afterValue params).read
        (first.1.chars first.2 ++ ContinuedHeader.sentChars sent)).finish = _
      rw [finish_read_segment hwrites.1 hne.1 hrest, ih hwrites.2 hne.2, List.append_assoc,
        List.map_cons, List.singleton_append]

/-- Where nothing is written for a segment, the header is an error. -/
theorem finish_read_sent_empty {sent : List (Segment × Nat)}
    (hwrites : ∀ segment ∈ sent,
      Writes segment.2 segment.1.extended segment.1.text segment.1.written)
    (hempty : ∃ segment ∈ sent, segment.1.written = []) (params : List HeaderParam) :
    ((afterValue params).read (ContinuedHeader.sentChars sent)).finish = none := by
  induction sent generalizing params with
  | nil =>
      obtain ⟨segment, hmem, -⟩ := hempty
      exact absurd hmem List.not_mem_nil
  | cons first sent ih =>
      rw [List.forall_mem_cons] at hwrites
      show ((afterValue params).read
        (first.1.chars first.2 ++ ContinuedHeader.sentChars sent)).finish = none
      by_cases hfirst : first.1.written = []
      · -- the value is still missing where the header ends or the next segment starts
        have hchars : first.1.chars first.2 ++ ContinuedHeader.sentChars sent =
            first.1.beforeMark ++ ';' :: (first.1.afterMark ++ (first.1.name first.2 ++
              (first.1.beforeEquals ++
                '=' :: (first.1.afterEquals ++ ContinuedHeader.sentChars sent)))) := by
          simp only [Segment.chars, hfirst, List.append_nil, List.append_assoc, List.cons_append]
        rw [hchars, read_name]
        cases sent with
        | nil => rfl
        | cons second sent =>
            have hblank := second.1.blank
            simp only [List.mem_append] at hblank
            have hkept : (beforeValue params (first.1.name first.2)).read second.1.beforeMark =
                beforeValue params (first.1.name first.2) :=
              read_kept fun c hc => if_pos (hblank c (by simp [hc]))
            have hsent : ContinuedHeader.sentChars (second :: sent) = second.1.beforeMark ++
                ';' :: (second.1.afterMark ++ (second.1.name second.2 ++ (second.1.beforeEquals ++
                  '=' :: (second.1.afterEquals ++ second.1.written)))) ++
                    ContinuedHeader.sentChars sent := rfl
            rw [hsent, List.append_assoc, read_append, hkept, List.cons_append, read_cons]
            show (failed.read _).finish = none
            rw [read_failed]
            rfl
      · have hrest : ∃ segment ∈ sent, segment.1.written = [] := by
          obtain ⟨segment, hmem, hsegment⟩ := hempty
          rcases List.mem_cons.mp hmem with rfl | hmem
          · exact absurd hsegment hfirst
          · exact ⟨segment, hmem, hsegment⟩
        rw [finish_read_segment hwrites.1 hfirst (endsToken_sentChars sent), ih hwrites.2 hrest]

end Onadata.Proofs
