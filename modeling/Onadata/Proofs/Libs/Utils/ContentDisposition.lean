import Onadata.Proofs.Libs.Utils.HeaderReader

/-!
# `Onadata.Proofs.Libs.Utils.ContentDisposition`: the program's own headers

`readsBack_iff` says for which names and extensions `parse_filename` reads the file name back that
`generate_content_disposition_header` has written.

`quote` keeps `/`, which is no character of a token, so neither the name nor the extension may
hold it. The extension is also put into the quoted fallback name as it is. It may hold `"` and `\`
only so that a quoted value is still open where the header closes the fallback name. Then the
parameters that the extension adds must be read without an error, and `filename*` must be new.

In all other cases the header is an error, or the parameter `filename*` that the header adds is
read as a part of a quoted value (`filename_ne`).
-/

set_option autoImplicit false

namespace Onadata.Proofs

open Onadata.Lib
open ReaderState

/-! ### The condition -/

/-- The state after the extension in the fallback name. -/
def stateAfter (extension : String) : ReaderState :=
  (inQuoted [] "filename".toList "download.".toList).read extension.toList

/-- The parameters, when the header closes a quoted value after the extension. -/
def fallbackParams (extension : String) : Option (List HeaderParam) :=
  match stateAfter extension with
  | inQuoted params name value => some (params ++ [paramOf name value true])
  | _ => none

/-- The parameters are read without an error before a new `filename*`. -/
structure ParamsFit (params : List HeaderParam) : Prop where
  distinct : (params.map HeaderParam.name).Nodup
  extended_new : "filename*" ∉ params.map HeaderParam.name
  decoded : ∀ param ∈ params, ∃ value, param.decode = .ok value

/-- The extension leaves the fallback name open, and adds only parameters that fit. -/
def FallbackFits (extension : String) : Prop :=
  ∃ params, fallbackParams extension = some params ∧ ParamsFit params

/-! ### The header -/

/-- What is written before the extension. -/
def headerStart : List Char := "; filename=\"".toList ++ "download.".toList

/-- What is written after the extension and before the file name. -/
def headerMiddle : List Char := "\"; filename*=UTF-8''".toList

/-- The quoted file name. -/
def quotedName (name extension : String) : List Char :=
  quote ['/'] (name ++ "." ++ extension).toList

/-- The characters of a text in four parts, the first of which starts with a word. -/
theorem toList_parts {start word opening fallback middle : String}
    (hstart : start.toList = word.toList ++ opening.toList) (extension : String)
    (quoted : List Char) :
    (start ++ (fallback ++ extension) ++ middle ++ String.ofList quoted).toList =
      word.toList ++ ((opening.toList ++ fallback.toList) ++ (extension.toList ++
        (middle.toList ++ quoted))) := by
  simp only [String.toList_append, String.toList_ofList, hstart, List.append_assoc]

theorem toList_header (name extension : String) :
    (generateContentDispositionHeader (some name) extension none).toList =
      "attachment".toList ++ (headerStart ++ (extension.toList ++
        (headerMiddle ++ quotedName name extension))) := by
  have hattachment : "attachment; filename=\"".toList =
      "attachment".toList ++ "; filename=\"".toList := rfl
  exact toList_parts hattachment extension _

/-- A token that something else follows. -/
theorem matchToken_append {token : List Char} (hne : token ≠ [])
    (htoken : token.all isTokenChar = true) {c : Char} (hc : isTokenChar c = false)
    (rest : List Char) : matchToken (token ++ c :: rest) = some (token, c :: rest) := by
  have hall : ∀ d ∈ token, isTokenChar d = true := List.all_eq_true.mp htoken
  have htake : (token ++ c :: rest).takeWhile isTokenChar = token := by
    rw [List.takeWhile_append_of_pos hall, List.takeWhile_cons_of_neg (by simp [hc]),
      List.append_nil]
  have hdrop : (token ++ c :: rest).dropWhile isTokenChar = c :: rest := by
    rw [List.dropWhile_append_of_pos hall, List.dropWhile_cons_of_neg (by simp [hc])]
  rw [matchToken, htake, hdrop, if_neg hne]

/-- The parameters of the program's headers. -/
theorem scanParams_header (name extension : String) :
    (scanParams (generateContentDispositionHeader (some name) extension none)).toOption =
      (((stateAfter extension).read headerMiddle).read (quotedName name extension)).finish := by
  have hstart : headerStart = ';' :: (" filename=\"".toList ++ "download.".toList) := by
    rfl
  have hskip : ∀ rest, skipWhitespace ("attachment".toList ++ rest) = "attachment".toList ++ rest := by
    intro rest
    have hattachment : "attachment".toList = 'a' :: "ttachment".toList := rfl
    rw [hattachment, List.cons_append]
    rfl
  have htoken := matchToken_append (show "attachment".toList ≠ [] by decide)
    rfl (show isTokenChar ';' = false by decide)
    ((" filename=\"".toList ++ "download.".toList) ++ (extension.toList ++
      (headerMiddle ++ quotedName name extension)))
  rw [← List.cons_append, ← hstart] at htoken
  rw [scanParams, toList_header, hskip, htoken]
  have hopen : (afterValue []).read headerStart =
      inQuoted [] "filename".toList "download.".toList := rfl
  have hloop := finish_read_scanLoop
    (generateContentDispositionHeader (some name) extension none).length
    (headerStart ++ (extension.toList ++ (headerMiddle ++ quotedName name extension))) []
  rw [read_append, read_append, read_append, hopen] at hloop
  show (scanLoop _ _).toOption = _
  rw [stateAfter, hloop]
  simp

/-! ### The quoted file name -/

/-- The characters that `quote` writes are characters of a token, except for `/`. -/
theorem isTokenChar_of_mem_quote {text : List Char} {c : Char} (h : c ∈ quote ['/'] text) :
    isTokenChar c = true ∨ (c = '/' ∧ '/' ∈ text) := by
  rcases mem_quote h with hunreserved | rfl | ⟨hslash, htext⟩
  · simp only [isUnreserved, Bool.or_eq_true, beq_iff_eq] at hunreserved
    left
    rcases hunreserved with (((halphanum | rfl) | rfl) | rfl) | rfl
    · rw [isTokenChar, halphanum, Bool.true_or]
    all_goals decide
  · left
    decide
  · rw [List.mem_singleton] at hslash
    subst hslash
    exact Or.inr ⟨rfl, htext⟩

theorem isTokenChar_ne {c : Char} (h : isTokenChar c = true ∨ c = '/') : c ≠ '"' ∧ c ≠ '\\' := by
  rcases h with h | rfl
  · constructor
    · rintro rfl
      revert h
      decide
    · rintro rfl
      revert h
      decide
  · decide

/-- A value takes up all characters of a token. -/
theorem read_inValue_token {text : List Char} (h : ∀ c ∈ text, isTokenChar c = true)
    (params : List HeaderParam) (name value : List Char) :
    (inValue params name value).read text = inValue params name (value ++ text) := by
  induction text generalizing value with
  | nil => rw [read_nil, List.append_nil]
  | cons c text ih =>
      have hstep : (inValue params name value).step c = inValue params name (value ++ [c]) :=
        if_pos (h c List.mem_cons_self)
      rw [read_cons, hstep, ih fun d hd => h d (List.mem_cons_of_mem c hd), List.append_assoc,
        List.singleton_append]

/-- A value cannot hold `/`. -/
theorem read_inValue_slash {text : List Char} (h : ∀ c ∈ text, isTokenChar c = true ∨ c = '/')
    (hslash : '/' ∈ text) (params : List HeaderParam) (name value : List Char) :
    (inValue params name value).read text = failed := by
  induction text generalizing value with
  | nil => exact absurd hslash List.not_mem_nil
  | cons c text ih =>
      rw [read_cons]
      by_cases hc : c = '/'
      · subst hc
        have hstep : (inValue params name value).step '/' = failed := rfl
        rw [hstep, read_failed]
      · have htoken : isTokenChar c = true := (h c List.mem_cons_self).resolve_right hc
        have hstep : (inValue params name value).step c = inValue params name (value ++ [c]) :=
          if_pos htoken
        have hrest : '/' ∈ text := (List.mem_cons.mp hslash).resolve_left (Ne.symm hc)
        rw [hstep]
        exact ih (fun d hd => h d (List.mem_cons_of_mem c hd)) hrest _

/-- A quoted value takes up all characters but `"` and `\`. -/
theorem read_inQuoted_plain {text : List Char} (h : ∀ c ∈ text, c ≠ '"' ∧ c ≠ '\\')
    (params : List HeaderParam) (name value : List Char) :
    (inQuoted params name value).read text = inQuoted params name (value ++ text) := by
  induction text generalizing value with
  | nil => rw [read_nil, List.append_nil]
  | cons c text ih =>
      have hc := h c List.mem_cons_self
      have hstep : (inQuoted params name value).step c = inQuoted params name (value ++ [c]) := by
        rw [step, if_neg hc.2, if_neg hc.1]
      rw [read_cons, hstep, ih fun d hd => h d (List.mem_cons_of_mem c hd), List.append_assoc,
        List.singleton_append]

/-- What follows the quote in the middle of the header. -/
def middleRest : List Char := "; filename*=UTF-8''".toList

theorem headerMiddle_eq : headerMiddle = '"' :: middleRest := by
  rfl

/-- The state in the value of `filename*`. -/
theorem read_afterValue_middleRest (params : List HeaderParam) :
    (afterValue params).read middleRest =
      inValue params "filename*".toList "UTF-8''".toList := by
  have hchars : middleRest = [';', ' ', 'f', 'i', 'l', 'e', 'n', 'a', 'm', 'e', '*', '=', 'U', 'T',
      'F', '-', '8', '\'', '\''] := rfl
  rw [hchars]
  rfl

/-- The rest of the header in a quoted value. -/
theorem read_inQuoted_middleRest (name extension : String) (params : List HeaderParam)
    (param value : List Char) :
    ((inQuoted params param value).read middleRest).read (quotedName name extension) =
      inQuoted params param (value ++ (middleRest ++ quotedName name extension)) := by
  have hmiddle : ∀ c ∈ middleRest, c ≠ '"' ∧ c ≠ '\\' := by
    have hall : middleRest.all (fun c => c ≠ '"' && c ≠ '\\') = true := rfl
    intro c hc
    simpa using List.all_eq_true.mp hall c hc
  rw [← read_append]
  refine read_inQuoted_plain ?_ params param value
  intro c hc
  rcases List.mem_append.mp hc with hc | hc
  · exact hmiddle c hc
  · exact isTokenChar_ne ((isTokenChar_of_mem_quote hc).imp_right And.left)

/-! ### A header that adds `filename*` -/

/-- The parameter that the header adds. -/
def extendedParam (name extension : String) : HeaderParam :=
  paramOf "filename*".toList ("UTF-8''".toList ++ quotedName name extension) false

theorem extendedParam_name (name extension : String) :
    (extendedParam name extension).name = "filename*" := by
  show String.ofList ("filename*".toList.map Char.toLower) = "filename*"
  rfl

/-- The quoted file name is read back. -/
theorem decode_extendedParam (name extension : String) :
    (extendedParam name extension).decode = .ok (name ++ "." ++ extension) := by
  have hextended : (endsWith (extendedParam name extension).name "*" &&
      !(extendedParam name extension).isQuoted) = true := by
    have hquoted : (extendedParam name extension).isQuoted = false := rfl
    rw [extendedParam_name, hquoted]
    rfl
  have hsplit : splitExtValue ("UTF-8''".toList ++ quotedName name extension) =
      some ("UTF-8".toList, [], quotedName name extension) := by
    have hchars : "UTF-8''".toList = ['U', 'T', 'F', '-', '8', '\'', '\''] := rfl
    have hcharset : "UTF-8".toList = ['U', 'T', 'F', '-', '8'] := rfl
    rw [hchars, hcharset]
    rfl
  have hbytes : decodeUtf8 (unquoteBytes (quotedName name extension)) =
      some (name ++ "." ++ extension).toList := by
    have hsafe : ∀ c ∈ ['/'], c.toNat < 128 ∧ c ≠ '%' := by
      intro c hc
      rw [List.mem_singleton.mp hc]
      decide
    rw [quotedName, unquoteBytes_quote hsafe, decodeUtf8_encodeUtf8]
  have hlower : (if "UTF-8".toList = [] then "utf-8" else
      String.ofList ("UTF-8".toList.map Char.toLower)) = "utf-8" := rfl
  rw [HeaderParam.decode, if_pos hextended]
  show decodeExtValue (String.ofList ("UTF-8''".toList ++ quotedName name extension)) = _
  unfold decodeExtValue
  rw [String.toList_ofList, hsplit]
  simp only [hlower, if_true, hbytes, String.ofList_toList]

/-- A file name is not empty. -/
theorem filename_ne_empty (name extension : String) : name ++ "." ++ extension ≠ "" := by
  intro h
  have hlength := congrArg (fun text => text.toList.length) h
  have hdot : ".".toList = ['.'] := by decide
  simp only [String.toList_append, hdot, List.length_append, List.length_singleton] at hlength
  have hempty : "".toList.length = 0 := by decide
  omega

/-- With the parameter that the header adds, the file name is read back if the others fit. -/
theorem parseFilename_extended_iff {header name extension : String} {params : List HeaderParam}
    (hparams : (scanParams header).toOption = some (params ++ [extendedParam name extension])) :
    parseFilename header = .ok (some (secureFilename (name ++ "." ++ extension))) ↔
      ParamsFit params := by
  rw [parseFilename_eq_ok]
  have hnil : (Dict.keys ([] : List (String × String))).Nodup := List.nodup_nil
  constructor
  · intro ⟨params', decoded, hscan, hdecoded, _⟩
    rw [hparams] at hscan
    obtain rfl := Option.some.inj hscan
    obtain ⟨items, hitems, hnodup, rfl⟩ := (decodeParams_eq_ok hnil).mp hdecoded
    rw [List.nil_append, keys_eq_names hitems, List.map_append, List.map_singleton,
      extendedParam_name, ← List.concat_eq_append, List.nodup_concat] at hnodup
    refine ⟨hnodup.2, hnodup.1, fun param hparam => ?_⟩
    obtain ⟨item, _, hitem⟩ := exists_of_mem_left hitems (List.mem_append_left _ hparam)
    exact ⟨item.2, hitem.2⟩
  · intro hfit
    obtain ⟨items, hitems⟩ := exists_items hfit.decoded
    have hextended : List.Forall₂ DecodesTo (params ++ [extendedParam name extension])
        (items ++ [("filename*", name ++ "." ++ extension)]) :=
      List.rel_append hitems (.cons ⟨(extendedParam_name name extension).symm,
        decode_extendedParam name extension⟩ .nil)
    have hnodup : (Dict.keys (items ++ [("filename*", name ++ "." ++ extension)])).Nodup := by
      rw [keys_eq_names hextended, List.map_append, List.map_singleton, extendedParam_name,
        ← List.concat_eq_append, List.nodup_concat]
      exact ⟨hfit.extended_new, hfit.distinct⟩
    refine ⟨_, _, hparams, (decodeParams_eq_ok hnil).mpr ⟨_, hextended, hnodup, rfl⟩, ?_⟩
    refine firstFilename_of_extended ?_ (filename_ne_empty name extension)
    exact Dict.get?_of_mem hnodup (List.mem_append_right items (List.mem_singleton_self _))

/-! ### A header that hides `filename*` -/

/-- The complete parameters of a state. -/
def completeParams : ReaderState → List HeaderParam
  | afterValue params | beforeName params | inName params _ | afterName params _
  | beforeValue params _ | inValue params _ _ | inQuoted params _ _ | escaped params _ _ => params
  | failed => []

/-- The value that is read in a state. -/
def currentValue : ReaderState → List Char
  | inValue _ _ value | inQuoted _ _ value | escaped _ _ value => value
  | _ => []

/-- A step reads on in a value or outside of it, or completes a parameter. -/
theorem step_cases (state : ReaderState) (c : Char) :
    state.step c = failed ∨
      (completeParams (state.step c) = completeParams state ∧
        (currentValue (state.step c)).length ≤ (currentValue state).length + 1) ∨
      ∃ name isQuoted, completeParams (state.step c) =
          completeParams state ++ [paramOf name (currentValue state) isQuoted] ∧
        currentValue (state.step c) = [] := by
  cases state with
  | afterValue params | beforeName params | inName params name | afterName params name
  | beforeValue params name =>
      simp only [step]
      split_ifs
      all_goals simp [completeParams, currentValue]
  | inValue params name value =>
      simp only [step]
      split_ifs
      · simp [completeParams, currentValue]
      · exact Or.inr (Or.inr ⟨name, false, rfl, rfl⟩)
      · exact Or.inr (Or.inr ⟨name, false, rfl, rfl⟩)
      · exact Or.inl rfl
  | inQuoted params name value =>
      simp only [step]
      split_ifs
      · simp [completeParams, currentValue]
      · exact Or.inr (Or.inr ⟨name, true, rfl, rfl⟩)
      · simp [completeParams, currentValue]
  | escaped params name value => simp [step, completeParams, currentValue]
  | failed => exact Or.inl rfl

/-- The first parameter is the fallback name with less than `length` characters of the extension,
and no other value is longer than `length`. -/
def StartsFallback (length : Nat) (params : List HeaderParam) : Prop :=
  ∃ part rest, params = paramOf "filename".toList ("download.".toList ++ part) true :: rest ∧
    part.length < length ∧ ∀ param ∈ rest, param.value.toList.length ≤ length

/-- The states after `length` characters of the extension. -/
inductive ReadWithin (length : Nat) : ReaderState → Prop
  | fallback {part : List Char} (h : part.length ≤ length) :
      ReadWithin length (inQuoted [] "filename".toList ("download.".toList ++ part))
  | fallbackEscaped {part : List Char} (h : part.length ≤ length) :
      ReadWithin length (escaped [] "filename".toList ("download.".toList ++ part))
  | closed {state : ReaderState} (hparams : StartsFallback length (completeParams state))
      (hvalue : (currentValue state).length ≤ length) : ReadWithin length state
  | failed : ReadWithin length failed

theorem StartsFallback.mono {length : Nat} {params : List HeaderParam}
    (h : StartsFallback length params) : StartsFallback (length + 1) params := by
  obtain ⟨part, rest, rfl, hpart, hrest⟩ := h
  exact ⟨part, rest, rfl, by omega, fun param hparam => Nat.le_succ_of_le (hrest param hparam)⟩

theorem StartsFallback.append {length : Nat} {params : List HeaderParam}
    (h : StartsFallback length params) {value : List Char} (hvalue : value.length ≤ length)
    (name : List Char) (isQuoted : Bool) :
    StartsFallback (length + 1) (params ++ [paramOf name value isQuoted]) := by
  obtain ⟨part, rest, rfl, hpart, hrest⟩ := h
  refine ⟨part, rest ++ [paramOf name value isQuoted], rfl, by omega, fun param hparam => ?_⟩
  rcases List.mem_append.mp hparam with hparam | hparam
  · exact Nat.le_succ_of_le (hrest param hparam)
  · rw [List.mem_singleton.mp hparam]
    show (String.ofList value).toList.length ≤ length + 1
    rw [String.toList_ofList]
    omega

/-- One character of the extension. -/
theorem ReadWithin.step {length : Nat} {state : ReaderState} (h : ReadWithin length state)
    (c : Char) : ReadWithin (length + 1) (state.step c) := by
  cases h with
  | fallback hpart =>
      rename_i part
      simp only [ReaderState.step]
      split_ifs
      · exact .fallbackEscaped (by omega)
      · exact .closed ⟨part, [], rfl, by omega, fun param hparam => absurd hparam List.not_mem_nil⟩
          (Nat.zero_le _)
      · rw [List.append_assoc]
        refine .fallback ?_
        rw [List.length_append, List.length_singleton]
        omega
  | fallbackEscaped hpart =>
      simp only [ReaderState.step]
      rw [List.append_assoc]
      refine .fallback ?_
      rw [List.length_append, List.length_singleton]
      omega
  | closed hparams hvalue =>
      rcases step_cases state c with hfailed | ⟨hsame, hlength⟩ | ⟨name, isQuoted, hnew, hempty⟩
      · rw [hfailed]
        exact .failed
      · refine .closed ?_ (by omega)
        rw [hsame]
        exact hparams.mono
      · refine .closed ?_ ?_
        · rw [hnew]
          exact hparams.append hvalue name isQuoted
        · rw [hempty]
          exact Nat.zero_le _
  | failed => exact .failed

/-- The characters of the extension. -/
theorem ReadWithin.read {length : Nat} {state : ReaderState} (h : ReadWithin length state)
    (text : List Char) : ReadWithin (length + text.length) (state.read text) := by
  induction text generalizing length state with
  | nil => exact h
  | cons c text ih =>
      have hrest := ih (h.step c)
      rwa [Nat.add_assoc, Nat.add_comm 1] at hrest

/-- The state after the extension. -/
theorem readWithin_stateAfter (extension : String) :
    ReadWithin extension.toList.length (stateAfter extension) := by
  have hstart : ReadWithin 0 (inQuoted [] "filename".toList ("download.".toList ++ [])) :=
    .fallback (Nat.le_refl 0)
  have hread := hstart.read extension.toList
  rwa [List.append_nil, Nat.zero_add] at hread

/-- A quoted value is not decoded. -/
theorem decode_of_isQuoted {param : HeaderParam} (h : param.isQuoted = true) :
    param.decode = .ok param.value := by
  have hnot : ¬(endsWith param.name "*" && !param.isQuoted) = true := by simp [h]
  rw [HeaderParam.decode, if_neg hnot]

theorem length_filename (name extension : String) :
    (name ++ "." ++ extension).toList.length = name.toList.length + 1 + extension.toList.length := by
  have hdot : ".".toList = ['.'] := by decide
  rw [String.toList_append, String.toList_append, hdot, List.length_append, List.length_append,
    List.length_singleton]

theorem fallbackName : String.ofList ("filename".toList.map Char.toLower) = "filename" := by
  rfl

/-- Where the header ends in a quoted value that is longer than the file name, the file name is
not read back. -/
theorem filename_ne {header name extension : String} {params : List HeaderParam}
    {last : HeaderParam} (hparams : (scanParams header).toOption = some (params ++ [last]))
    (hquoted : last.isQuoted = true)
    (hlong : (name ++ "." ++ extension).toList.length < last.value.toList.length)
    (hfirst : (params = [] ∧ last.name = "filename") ∨
      StartsFallback extension.toList.length params) :
    parseFilename header ≠ .ok (some (secureFilename (name ++ "." ++ extension))) := by
  intro h
  obtain ⟨params', decoded, hscan, hdecoded, hfilename⟩ := parseFilename_eq_ok.mp h
  rw [hparams] at hscan
  obtain rfl := Option.some.inj hscan
  have hnil : (Dict.keys ([] : List (String × String))).Nodup := List.nodup_nil
  obtain ⟨items, hitems, hnodup, rfl⟩ := (decodeParams_eq_ok hnil).mp hdecoded
  rw [List.nil_append] at hnodup
  -- the fallback name is among the values
  have hfallback : ∃ param ∈ params ++ [last], param.name = "filename" ∧ param.isQuoted = true ∧
      param.value ≠ "" := by
    have hempty : "".toList.length = 0 := by decide
    rcases hfirst with ⟨hnil, hname⟩ | ⟨part, rest, hcons, -, -⟩
    · refine ⟨last, List.mem_append_right _ (List.mem_singleton_self last), hname, hquoted, ?_⟩
      intro hvalue
      rw [hvalue] at hlong
      omega
    · refine ⟨paramOf "filename".toList ("download.".toList ++ part) true, ?_, fallbackName, rfl, ?_⟩
      · rw [hcons]
        exact List.mem_append_left _ List.mem_cons_self
      · intro hvalue
        have hlength := congrArg (fun text => text.toList.length) hvalue
        have hdownload : "download.".toList.length = 9 := rfl
        simp only [paramOf, String.toList_ofList, List.length_append, hdownload] at hlength
        omega
  obtain ⟨fallback, hmem, hname, hisQuoted, hvalue⟩ := hfallback
  obtain ⟨item, hitem, hitemName, hitemValue⟩ := exists_of_mem_left hitems hmem
  rw [decode_of_isQuoted hisQuoted] at hitemValue
  have hget := Dict.get?_of_mem hnodup hitem
  rw [hitemName, hname, ← Except.ok.inj hitemValue] at hget
  -- so the file name is one of two values
  obtain ⟨key, value, hkey, hkeyValue, hsecure⟩ := firstFilename_cases hget hvalue hfilename
  obtain ⟨param, hparam, hparamName, hparamValue⟩ :=
    exists_of_mem_right hitems (Dict.mem_of_get? hkeyValue)
  have hlength := length_eq_of_secureFilename hsecure
  have hdecode : value.toList.length ≤ param.value.toList.length := length_decode_le hparamValue
  rw [length_filename] at hlong hlength
  rcases List.mem_append.mp hparam with hparam | hparam
  · rcases hfirst with ⟨rfl, -⟩ | ⟨part, rest, rfl, hpart, hrest⟩
    · exact absurd hparam List.not_mem_nil
    · rcases List.mem_cons.mp hparam with rfl | hparam
      · rw [decode_of_isQuoted rfl] at hparamValue
        refine absurd ?_ (@secureFilename_fallback_ne name extension part hpart)
        rw [hsecure]
        exact congrArg secureFilename (Except.ok.inj hparamValue)
      · rcases hkey with rfl | rfl
        · have hshort := hrest param hparam
          omega
        · -- two parameters with the name of the fallback name
          rw [keys_eq_names hitems, List.cons_append, List.map_cons, List.nodup_cons] at hnodup
          refine hnodup.1 ?_
          have hsame : (paramOf "filename".toList ("download.".toList ++ part) true).name =
              param.name := fallbackName.trans hparamName
          rw [hsame]
          exact List.mem_map_of_mem (List.mem_append_left _ hparam)
  · rw [List.mem_singleton.mp hparam, decode_of_isQuoted hquoted] at hparamValue
    have hvalue : last.value = value := Except.ok.inj hparamValue
    rw [← hvalue] at hlength
    omega

/-! ### All headers -/

/-- A header that is not scanned. -/
theorem parseFilename_ne_of_none {header : String} (h : (scanParams header).toOption = none)
    (filename : Option String) : parseFilename header ≠ .ok filename := by
  intro hok
  obtain ⟨params, decoded, hparams, _⟩ := parseFilename_eq_ok.mp hok
  rw [h] at hparams
  cases hparams

theorem slash_mem_filename (name extension : String) :
    '/' ∈ (name ++ "." ++ extension).toList ↔ '/' ∈ name.toList ∨ '/' ∈ extension.toList := by
  have hdot : ".".toList = ['.'] := by decide
  have hne : ('/' : Char) ≠ '.' := by decide
  simp only [String.toList_append, hdot, List.mem_append, List.mem_singleton, hne, or_false]

/-- The rest of the header is longer than the file name. -/
theorem length_middleRest_quotedName (name extension : String) :
    (name ++ "." ++ extension).toList.length <
      (middleRest ++ quotedName name extension).length := by
  have hquoted : (name ++ "." ++ extension).toList.length ≤ (quotedName name extension).length :=
    length_le_quote _ _
  have hmiddle : middleRest.length = 19 := rfl
  rw [List.length_append]
  omega

/-- A header is read back if the name and the extension have no `/` and the extension fits. -/
theorem readsBack_iff (name extension : String) :
    parseFilename (generateContentDispositionHeader (some name) extension none) =
        .ok (some (secureFilename (name ++ "." ++ extension))) ↔
      '/' ∉ name.toList ∧ '/' ∉ extension.toList ∧ FallbackFits extension := by
  have hscan := scanParams_header name extension
  have hwithin := readWithin_stateAfter extension
  have hlong := length_middleRest_quotedName name extension
  rw [headerMiddle_eq, read_cons] at hscan
  unfold FallbackFits fallbackParams
  cases hstate : stateAfter extension with
  | afterValue params | beforeName params | inName params param | afterName params param
  | inValue params param value | failed =>
      -- the quote after the extension is an error
      rw [hstate] at hscan
      refine iff_of_false (parseFilename_ne_of_none (hscan.trans ?_) _) (by simp)
      show ((failed.read middleRest).read (quotedName name extension)).finish = none
      rw [read_failed, read_failed]
      rfl
  | beforeValue params param =>
      -- the quote after the extension opens a value
      rw [hstate] at hscan hwithin
      refine iff_of_false ?_ (by simp)
      have hopen : (beforeValue params param).step '"' = inQuoted params param [] := rfl
      rw [hopen, read_inQuoted_middleRest, List.nil_append] at hscan
      refine filename_ne hscan rfl ?_ (Or.inr ?_)
      · show _ < (String.ofList (middleRest ++ quotedName name extension)).toList.length
        rw [String.toList_ofList]
        exact hlong
      · cases hwithin with
        | closed hparams _ => exact hparams
  | escaped params param value =>
      -- the quote after the extension is a part of the value
      rw [hstate] at hscan hwithin
      refine iff_of_false ?_ (by simp)
      have hopen : (escaped params param value).step '"' =
          inQuoted params param (value ++ ['"']) := rfl
      rw [hopen, read_inQuoted_middleRest] at hscan
      refine filename_ne hscan rfl ?_ ?_
      · show _ < (String.ofList (value ++ ['"'] ++
          (middleRest ++ quotedName name extension))).toList.length
        rw [String.toList_ofList, List.length_append]
        omega
      · cases hwithin with
        | fallbackEscaped _ => exact Or.inl ⟨rfl, fallbackName⟩
        | closed hparams _ => exact Or.inr hparams
  | inQuoted params param value =>
      -- the quote after the extension closes the value
      rw [hstate] at hscan
      have hclose : (inQuoted params param value).step '"' =
          afterValue (params ++ [paramOf param value true]) := rfl
      rw [hclose, read_afterValue_middleRest] at hscan
      by_cases hslash : '/' ∈ (name ++ "." ++ extension).toList
      · have hchars : ∀ c ∈ quotedName name extension, isTokenChar c = true ∨ c = '/' :=
          fun c hc => (isTokenChar_of_mem_quote hc).imp_right And.left
        have hkept : '/' ∈ quotedName name extension :=
          mem_quote_of_safe List.mem_cons_self hslash
        rw [read_inValue_slash hchars hkept] at hscan
        refine iff_of_false (parseFilename_ne_of_none hscan _) ?_
        rw [slash_mem_filename] at hslash
        exact fun h => hslash.elim h.1 h.2.1
      · have htoken : ∀ c ∈ quotedName name extension, isTokenChar c = true := by
          intro c hc
          exact (isTokenChar_of_mem_quote hc).resolve_right fun h => hslash h.2
        rw [read_inValue_token htoken] at hscan
        rw [parseFilename_extended_iff hscan]
        rw [slash_mem_filename, not_or] at hslash
        constructor
        · intro hfit
          exact ⟨hslash.1, hslash.2, _, rfl, hfit⟩
        · intro ⟨_, _, params', heq, hfit⟩
          rw [Option.some.inj heq]
          exact hfit

/-! ### A name with a slash -/

/-- The header of the file `a/b.csv` is an error. -/
theorem not_readsBack_slash :
    ¬∀ name extension : String,
      parseFilename (generateContentDispositionHeader (some name) extension none) =
        .ok (some (secureFilename (name ++ "." ++ extension))) := by
  intro h
  refine parseFilename_ne_of_none ?_ _ (h "a/b" "csv")
  rw [scanParams_header]
  rfl

end Onadata.Proofs
