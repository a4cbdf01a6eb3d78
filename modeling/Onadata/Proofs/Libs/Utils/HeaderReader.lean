import Onadata.Lib.ExceptList
import Onadata.Libs.Utils.ContentDisposition

/-!
# `Onadata.Proofs.Libs.Utils.HeaderReader`: headers, one character at a time

The loop of `_scan_params` as an automaton that reads one character at a time. A `ReaderState`
holds the parameters that are complete and what is read of the next one.

* `finish_foldl_afterValue`: the automaton finds the same parameters as the loop. So what the loop
  does with a header is known from the state after a part of it.

What `parse_filename` does with the parameters that are found:

* `decodeParams_eq_ok`: they are decoded if their names are distinct and each value is decoded.
* `firstFilename_cases`: where there is a `filename`, only `filename*` goes before it.
* `secureFilename_fallback_ne`: a fallback name with a part of the extension is not the file name.
-/

set_option autoImplicit false

namespace Onadata.Proofs

open Onadata.Lib

/-- Where the loop is, with the parameters that are complete. -/
inductive ReaderState
  | afterValue (params : List HeaderParam)
  | beforeName (params : List HeaderParam)
  | inName (params : List HeaderParam) (name : List Char)
  | afterName (params : List HeaderParam) (name : List Char)
  | beforeValue (params : List HeaderParam) (name : List Char)
  | inValue (params : List HeaderParam) (name value : List Char)
  | inQuoted (params : List HeaderParam) (name value : List Char)
  | escaped (params : List HeaderParam) (name value : List Char)
  | failed
deriving DecidableEq

/-- The parameter with this name and value. -/
def paramOf (name value : List Char) (isQuoted : Bool) : HeaderParam :=
  ⟨String.ofList (name.map Char.toLower), String.ofList value, isQuoted⟩

namespace ReaderState

/-- One character. -/
def step : ReaderState → Char → ReaderState
  | afterValue params, c =>
      if isBlank c then afterValue params else if c = ';' then beforeName params else failed
  | beforeName params, c =>
      if isBlank c then beforeName params
      else if isTokenChar c then inName params [c] else failed
  | inName params name, c =>
      if isTokenChar c then inName params (name ++ [c])
      else if isBlank c then afterName params name
      else if c = '=' then beforeValue params name else failed
  | afterName params name, c =>
      if isBlank c then afterName params name
      else if c = '=' then beforeValue params name else failed
  | beforeValue params name, c =>
      if isBlank c then beforeValue params name
      else if c = '"' then inQuoted params name []
      else if isTokenChar c then inValue params name [c] else failed
  | inValue params name value, c =>
      if isTokenChar c then inValue params name (value ++ [c])
      else if isBlank c then afterValue (params ++ [paramOf name value false])
      else if c = ';' then beforeName (params ++ [paramOf name value false]) else failed
  | inQuoted params name value, c =>
      if c = '\\' then escaped params name value
      else if c = '"' then afterValue (params ++ [paramOf name value true])
      else inQuoted params name (value ++ [c])
  | escaped params name value, c => inQuoted params name (value ++ [c])
  | failed, _ => failed

/-- The parameters when the header ends here. -/
def finish : ReaderState → Option (List HeaderParam)
  | afterValue params | beforeName params => some params
  | inName _ _ | afterName _ _ | beforeValue _ _ => none
  | inValue params name value => some (params ++ [paramOf name value false])
  | inQuoted params name value => some (params ++ [paramOf name value true])
  | escaped params name value => some (params ++ [paramOf name (value ++ ['\\']) true])
  | failed => none

/-- The state after a part of the header. -/
def read (state : ReaderState) (text : List Char) : ReaderState :=
  text.foldl step state

@[simp]
theorem read_nil (state : ReaderState) : state.read [] = state := rfl

theorem read_cons (state : ReaderState) (c : Char) (text : List Char) :
    state.read (c :: text) = (state.step c).read text := rfl

@[simp]
theorem read_append (state : ReaderState) (text text' : List Char) :
    state.read (text ++ text') = (state.read text).read text' :=
  List.foldl_append

/-- After an error nothing is read. -/
@[simp]
theorem read_failed (text : List Char) : failed.read text = failed := by
  induction text with
  | nil => rfl
  | cons c text ih => rw [read_cons, step, ih]

/-- Characters that keep the state can be left out. -/
theorem read_dropWhile {p : Char → Bool} {state : ReaderState}
    (h : ∀ c, p c = true → state.step c = state) (text : List Char) :
    state.read (text.dropWhile p) = state.read text := by
  induction text with
  | nil => rfl
  | cons c text ih =>
      by_cases hc : p c = true
      · rw [List.dropWhile_cons_of_pos hc, ih, read_cons, h c hc]
      · rw [List.dropWhile_cons_of_neg hc]

/-- Characters that are collected. -/
theorem read_takeWhile {p : Char → Bool} {state : List Char → ReaderState}
    (h : ∀ cs c, p c = true → (state cs).step c = state (cs ++ [c])) (cs text : List Char) :
    (state cs).read text = (state (cs ++ text.takeWhile p)).read (text.dropWhile p) := by
  induction text generalizing cs with
  | nil => simp
  | cons c text ih =>
      by_cases hc : p c = true
      · rw [List.takeWhile_cons_of_pos hc, List.dropWhile_cons_of_pos hc, read_cons, h cs c hc, ih,
          List.append_assoc, List.singleton_append]
      · rw [List.takeWhile_cons_of_neg hc, List.dropWhile_cons_of_neg hc, List.append_nil]

end ReaderState

open ReaderState

/-! ### The characters -/

theorem not_isTokenChar_of_isBlank {c : Char} (h : isBlank c = true) : isTokenChar c = false := by
  simp only [isBlank, Bool.or_eq_true, beq_iff_eq] at h
  rcases h with rfl | rfl
  · decide
  · decide

/-- A token that is read starts with a character of the class. -/
theorem matchToken_cons {c : Char} {rest : List Char} :
    matchToken (c :: rest) =
      if isTokenChar c then some (c :: rest.takeWhile isTokenChar, rest.dropWhile isTokenChar)
      else none := by
  unfold matchToken
  by_cases hc : isTokenChar c = true
  · rw [List.takeWhile_cons_of_pos hc, List.dropWhile_cons_of_pos hc, if_neg (by simp), if_pos hc]
  · rw [List.takeWhile_cons_of_neg hc, if_pos rfl, if_neg hc]

/-- A blank is no first character after the blanks. -/
theorem not_isBlank_of_skipWhitespace {c : Char} {rest rest' : List Char}
    (h : skipWhitespace rest = c :: rest') : isBlank c = false := by
  induction rest with
  | nil => cases h
  | cons d rest ih =>
      unfold skipWhitespace at h ih
      by_cases hd : isBlank d = true
      · rw [List.dropWhile_cons_of_pos hd] at h
        exact ih h
      · rw [List.dropWhile_cons_of_neg hd] at h
        cases h
        simpa using hd

/-! ### The states -/

theorem read_afterValue (params : List HeaderParam) (text : List Char) :
    (afterValue params).read (skipWhitespace text) = (afterValue params).read text :=
  read_dropWhile (fun c hc => by rw [step, if_pos hc]) text

theorem read_beforeName (params : List HeaderParam) (text : List Char) :
    (beforeName params).read (skipWhitespace text) = (beforeName params).read text :=
  read_dropWhile (fun c hc => by rw [step, if_pos hc]) text

theorem read_afterName (params : List HeaderParam) (name text : List Char) :
    (afterName params name).read (skipWhitespace text) = (afterName params name).read text :=
  read_dropWhile (fun c hc => by rw [step, if_pos hc]) text

theorem read_beforeValue (params : List HeaderParam) (name text : List Char) :
    (beforeValue params name).read (skipWhitespace text) = (beforeValue params name).read text :=
  read_dropWhile (fun c hc => by rw [step, if_pos hc]) text

/-- A quoted value ends with the quote that `_read_quoted_value` finds, or with the header. -/
theorem finish_read_inQuoted (params : List HeaderParam) (name value text : List Char) :
    ((inQuoted params name value).read text).finish =
      ((afterValue (params ++ [paramOf name (value ++ (readQuotedValue text).1) true])).read
        (readQuotedValue text).2).finish := by
  fun_induction readQuotedValue text generalizing value with
  | case1 => simp [finish]
  | case2 c rest ih =>
      rw [read_cons, read_cons]
      show ((inQuoted params name (value ++ [c])).read rest).finish = _
      rw [ih, List.append_assoc, List.singleton_append]
  | case3 rest =>
      rw [read_cons, List.append_nil]
      rfl
  | case4 c rest hescape hquote ih =>
      rw [read_cons]
      by_cases hc : c = '\\'
      · -- a backslash that ends the header
        subst hc
        cases rest with
        | nil => simp [readQuotedValue, step, finish]
        | cons d rest => exact absurd rfl (hescape d rest rfl)
      · have hstep : (inQuoted params name value).step c = inQuoted params name (value ++ [c]) := by
          rw [step, if_neg hc, if_neg hquote]
        rw [hstep, ih, List.append_assoc, List.singleton_append]

/-- What is left after a token does not start with a character of the class. -/
theorem dropWhile_isTokenChar_cons {c : Char} {rest rest' : List Char}
    (h : rest.dropWhile isTokenChar = c :: rest') : isTokenChar c = false := by
  induction rest with
  | nil => cases h
  | cons d rest ih =>
      by_cases hd : isTokenChar d = true
      · rw [List.dropWhile_cons_of_pos hd] at h
        exact ih h
      · rw [List.dropWhile_cons_of_neg hd] at h
        cases h
        simpa using hd

/-- A token is a value when something else follows. -/
theorem finish_read_inValue (params : List HeaderParam) (name value text : List Char) :
    ((inValue params name value).read text).finish =
      ((afterValue (params ++ [paramOf name (value ++ text.takeWhile isTokenChar) false])).read
        (text.dropWhile isTokenChar)).finish := by
  rw [@read_takeWhile isTokenChar (inValue params name)
    (fun cs c hc => by rw [step, if_pos hc])]
  cases hrest : text.dropWhile isTokenChar with
  | nil => rfl
  | cons c rest =>
      have hc := dropWhile_isTokenChar_cons hrest
      have hstep : (inValue params name (value ++ text.takeWhile isTokenChar)).step c =
          (afterValue (params ++
            [paramOf name (value ++ text.takeWhile isTokenChar) false])).step c := by
        have hnot : ¬isTokenChar c = true := by simp [hc]
        exact if_neg hnot
      rw [read_cons, read_cons, hstep]

/-- A token is a name when something else follows. -/
theorem finish_read_inName (params : List HeaderParam) (name text : List Char) :
    ((inName params name).read text).finish =
      ((afterName params (name ++ text.takeWhile isTokenChar)).read
        (text.dropWhile isTokenChar)).finish := by
  rw [@read_takeWhile isTokenChar (inName params)
    (fun cs c hc => by rw [step, if_pos hc])]
  cases hrest : text.dropWhile isTokenChar with
  | nil => rfl
  | cons c rest =>
      have hc := dropWhile_isTokenChar_cons hrest
      have hstep : (inName params (name ++ text.takeWhile isTokenChar)).step c =
          (afterName params (name ++ text.takeWhile isTokenChar)).step c := by
        have hnot : ¬isTokenChar c = true := by simp [hc]
        exact if_neg hnot
      rw [read_cons, read_cons, hstep]

/-! ### The loop -/

theorem readValue_quote (name rest : List Char) :
    readValue name ('"' :: rest) =
      .ok (paramOf name (readQuotedValue rest).1 true, (readQuotedValue rest).2) := rfl

theorem readValue_token {c : Char} (hc : c ≠ '"') (name rest : List Char) :
    readValue name (c :: rest) =
      if isTokenChar c then
        .ok (paramOf name (c :: rest.takeWhile isTokenChar) false, rest.dropWhile isTokenChar)
      else .error .invalidValue := by
  have hvalue : readValue name (c :: rest) =
      (matchToken (c :: rest)).elim (.error .invalidValue)
        fun token => .ok (paramOf name token.1 false, token.2) := by
    unfold readValue
    split
    · rename_i heq
      exact absurd (List.cons.inj heq).1 hc
    · cases matchToken (c :: rest) with
      | none => rfl
      | some token => rfl
  rw [hvalue, matchToken_cons]
  by_cases htoken : isTokenChar c = true
  · rw [if_pos htoken, if_pos htoken]
    rfl
  · rw [if_neg htoken, if_neg htoken]
    rfl

/-- The state from the blanks before a value on, by the result of `readValue`. -/
theorem finish_read_beforeValue (params : List HeaderParam) (name rest : List Char) :
    ((beforeValue params name).read rest).finish =
      (readValue name (skipWhitespace rest)).toOption.bind fun read =>
        ((afterValue (params ++ [read.1])).read read.2).finish := by
  rw [← read_beforeValue]
  cases hrest : skipWhitespace rest with
  | nil => rfl
  | cons c rest' =>
      have hblank := not_isBlank_of_skipWhitespace hrest
      have hnot : ¬isBlank c = true := by simp [hblank]
      rw [read_cons, step, if_neg hnot]
      by_cases hquote : c = '"'
      · subst hquote
        rw [if_pos rfl, finish_read_inQuoted, readValue_quote]
        rfl
      · rw [if_neg hquote, readValue_token hquote]
        by_cases htoken : isTokenChar c = true
        · rw [if_pos htoken, if_pos htoken, finish_read_inValue]
          rfl
        · rw [if_neg htoken, if_neg htoken, read_failed]
          rfl

/-- The state from a name on, by the result of `readNamed`. -/
theorem finish_read_beforeName {c : Char} (hc : isBlank c = false) (length : Nat)
    (params : List HeaderParam) (rest : List Char) :
    ((beforeName params).read (c :: rest)).finish =
      (readNamed length (c :: rest)).toOption.bind fun read =>
        ((afterValue (params ++ [read.1])).read read.2).finish := by
  have hnot : ¬isBlank c = true := by simp [hc]
  unfold readNamed
  rw [read_cons, step, if_neg hnot, matchToken_cons]
  by_cases htoken : isTokenChar c = true
  · rw [if_pos htoken, if_pos htoken, finish_read_inName, ← read_afterName]
    simp only [List.singleton_append]
    cases hrest : skipWhitespace (rest.dropWhile isTokenChar) with
    | nil => rfl
    | cons d rest' =>
        have hblank := not_isBlank_of_skipWhitespace hrest
        rw [read_cons, step, if_neg (by simp [hblank])]
        by_cases hequals : d = '='
        · subst hequals
          rw [if_pos rfl, finish_read_beforeValue]
          rfl
        · rw [if_neg hequals, read_failed]
          split
          · rename_i heq
            exact absurd (List.cons.inj heq).1 hequals
          · rfl
  · rw [if_neg htoken, if_neg htoken, read_failed]
    rfl

/-- A round of the loop. -/
theorem finish_read_readParam (length : Nat) (rest : List Char) (params : List HeaderParam) :
    ((afterValue params).read rest).finish =
      (readParam length rest).toOption.bind fun round =>
        round.elim (some params) fun read =>
          ((afterValue (params ++ [read.1])).read read.2).finish := by
  rw [← read_afterValue]
  unfold readParam
  cases hrest : skipWhitespace rest with
  | nil => rfl
  | cons c rest₁ =>
      have hblank := not_isBlank_of_skipWhitespace hrest
      rw [read_cons, step, if_neg (by simp [hblank])]
      by_cases hsemicolon : c = ';'
      · rw [if_pos hsemicolon, ← read_beforeName]
        simp only [hsemicolon, ne_eq, not_true_eq_false, if_false]
        cases hrest₁ : skipWhitespace rest₁ with
        | nil => rfl
        | cons d rest₂ =>
            rw [finish_read_beforeName (not_isBlank_of_skipWhitespace hrest₁) length]
            cases hnamed : readNamed length (d :: rest₂) with
            | error error => simp only [hnamed]; rfl
            | ok read => simp only [hnamed]; rfl
      · rw [if_neg hsemicolon, read_failed]
        simp only [ne_eq, hsemicolon, not_false_eq_true, if_true]
        rfl

/-- The automaton finds the parameters of the loop. -/
theorem finish_read_scanLoop (length : Nat) (rest : List Char) (params : List HeaderParam) :
    ((afterValue params).read rest).finish =
      (scanLoop length rest).toOption.map (params ++ ·) := by
  fun_induction scanLoop length rest generalizing params with
  | case1 rest error h =>
      rw [finish_read_readParam length, h]
      rfl
  | case2 rest h =>
      rw [finish_read_readParam length, h]
      show some params = some (params ++ [])
      rw [List.append_nil]
  | case3 rest param rest' h ih =>
      rw [finish_read_readParam length, h]
      show ((afterValue (params ++ [param])).read rest').finish = _
      rw [ih]
      cases scanLoop length rest' with
      | error error => rfl
      | ok found =>
          show some (params ++ [param] ++ found) = some (params ++ param :: found)
          rw [List.append_assoc, List.singleton_append]

/-! ### The values -/

/-- The item of a parameter. -/
def DecodesTo (param : HeaderParam) (item : String × String) : Prop :=
  item.1 = param.name ∧ param.decode = .ok item.2

/-- The parameters are decoded if their names are distinct and each value is decoded. -/
theorem decodeParams_eq_ok {decoded decoded' : List (String × String)}
    {params : List HeaderParam} (hnodup : (Dict.keys decoded).Nodup) :
    decodeParams decoded params = .ok decoded' ↔
      ∃ items, List.Forall₂ DecodesTo params items ∧ (Dict.keys (decoded ++ items)).Nodup ∧
        decoded' = decoded ++ items := by
  induction params generalizing decoded with
  | nil =>
      simp only [decodeParams, List.forall₂_nil_left_iff, exists_eq_left, List.append_nil]
      exact ⟨fun h => ⟨hnodup, (Except.ok.inj h).symm⟩, fun h => congrArg Except.ok h.2.symm⟩
  | cons param params ih =>
      rw [decodeParams]
      by_cases hmem : param.name ∈ Dict.keys decoded
      · rw [if_pos hmem]
        refine iff_of_false (fun h => by cases h) ?_
        intro ⟨items, hitems, hkeys, _⟩
        cases hitems with
        | cons hitem _ =>
            rename_i item items _
            rw [Dict.keys_append, Dict.keys_cons, hitem.1] at hkeys
            exact (List.nodup_append.mp hkeys).2.2 _ hmem _ List.mem_cons_self rfl
      · rw [if_neg hmem]
        cases hvalue : param.decode with
        | error error =>
            refine iff_of_false (fun h => by cases h) ?_
            intro ⟨items, hitems, _⟩
            cases hitems with
            | cons hitem _ =>
                rw [DecodesTo, hvalue] at hitem
                cases hitem.2
        | ok value =>
            show decodeParams (Dict.insert decoded param.name value) params = .ok decoded' ↔ _
            have hkeys : (Dict.keys (decoded ++ [(param.name, value)])).Nodup := by
              rw [← Dict.insert_of_notMem value hmem]
              exact Dict.nodup_keys_insert hnodup param.name value
            rw [Dict.insert_of_notMem value hmem, ih hkeys]
            constructor
            · intro ⟨items, hitems, hnodup', heq⟩
              refine ⟨(param.name, value) :: items, .cons ⟨rfl, hvalue⟩ hitems, ?_, ?_⟩
              · rwa [List.append_assoc, List.singleton_append] at hnodup'
              · rw [heq, List.append_assoc, List.singleton_append]
            · intro ⟨items, hitems, hnodup', heq⟩
              cases hitems with
              | cons hitem hrest =>
                  rename_i item items
                  have hitem : item = (param.name, value) := by
                    rw [DecodesTo, hvalue] at hitem
                    exact Prod.ext hitem.1 (Except.ok.inj hitem.2).symm
                  subst hitem
                  refine ⟨items, hrest, ?_, ?_⟩
                  · rwa [List.append_assoc, List.singleton_append]
                  · rw [heq, List.append_assoc, List.singleton_append]

/-- Parameters that are decoded have items. -/
theorem exists_items {params : List HeaderParam}
    (h : ∀ param ∈ params, ∃ value, param.decode = .ok value) :
    ∃ items, List.Forall₂ DecodesTo params items := by
  induction params with
  | nil => exact ⟨[], .nil⟩
  | cons param params ih =>
      obtain ⟨value, hvalue⟩ := h param List.mem_cons_self
      obtain ⟨items, hitems⟩ := ih fun other hother => h other (List.mem_cons_of_mem param hother)
      exact ⟨(param.name, value) :: items, .cons ⟨rfl, hvalue⟩ hitems⟩

/-- The items have the names of the parameters. -/
theorem keys_eq_names {params : List HeaderParam} {items : List (String × String)}
    (hitems : List.Forall₂ DecodesTo params items) :
    Dict.keys items = params.map HeaderParam.name := by
  induction hitems with
  | nil => rfl
  | cons hfirst hrest ih => rw [Dict.keys_cons, List.map_cons, hfirst.1, ih]

/-- The parts of an extended value are parts of the text. -/
theorem length_splitExtValue {raw first language value : List Char}
    (h : splitExtValue raw = some (first, language, value)) : value.length ≤ raw.length := by
  unfold splitExtValue at h
  simp only at h
  split at h
  · cases h
  · rename_i c rest hrest
    split at h
    · cases h
    · rename_i d rest' hrest'
      have hlength := length_dropWhile_le (fun c => !(c == '\'')) raw
      have hlength' := length_dropWhile_le (fun c => !(c == '\'')) rest
      rw [hrest, List.length_cons] at hlength
      rw [hrest', List.length_cons] at hlength'
      cases h
      omega

/-- A decoded extended value is at most as long as the text. -/
theorem length_decodeExtValue_le {raw value : String} (h : decodeExtValue raw = .ok value) :
    value.toList.length ≤ raw.toList.length := by
  unfold decodeExtValue at h
  split at h
  · cases h
  · rename_i first language quoted hsplit
    have hquoted := length_splitExtValue hsplit
    have hbytes := length_unquoteBytes_le quoted
    simp only at h
    generalize (if first = [] then "utf-8" else String.ofList (first.map Char.toLower)) = charset
      at h
    split at h
    · split at h
      · cases h
      · rename_i text htext
        have htext := length_decodeUtf8_le htext
        rw [← Except.ok.inj h, String.toList_ofList]
        omega
    · split at h
      · split at h
        · cases h
        · rw [← Except.ok.inj h, String.toList_ofList, List.length_map]
          omega
      · cases h

/-- A decoded value is at most as long as the value in the header. -/
theorem length_decode_le {param : HeaderParam} {value : String} (h : param.decode = .ok value) :
    value.toList.length ≤ param.value.toList.length := by
  unfold HeaderParam.decode at h
  split at h
  · exact length_decodeExtValue_le h
  · rw [Except.ok.inj h]

/-! ### The file name -/

/-- What `parse_filename` returns for its decoded parameters. -/
def firstFilename (decoded : List (String × String)) : Option String :=
  ["filename*", "filename", "filename*0*", "filename*0"].findSome? (filenameOf decoded)

theorem parseFilename_eq_ok {header : String} {filename : Option String} :
    parseFilename header = .ok filename ↔
      ∃ params decoded, (scanParams header).toOption = some params ∧
        decodeParams [] params = .ok decoded ∧ firstFilename decoded = filename := by
  unfold parseFilename
  cases scanParams header with
  | error error =>
      refine iff_of_false (fun h => by cases h) ?_
      intro ⟨params, decoded, hparams, _⟩
      cases hparams
  | ok params =>
      show (decodeParams [] params >>= fun decoded => .ok (firstFilename decoded)) = _ ↔ _
      cases hdecoded : decodeParams [] params with
      | error error =>
          refine iff_of_false (fun h => by cases h) ?_
          intro ⟨params', decoded, hparams, hdecoded', _⟩
          cases hparams
          rw [hdecoded] at hdecoded'
          cases hdecoded'
      | ok decoded =>
          constructor
          · intro h
            exact ⟨params, decoded, rfl, hdecoded, Except.ok.inj h⟩
          · intro ⟨params', decoded', hparams, hdecoded', hfilename⟩
            cases hparams
            rw [hdecoded] at hdecoded'
            cases hdecoded'
            exact congrArg Except.ok hfilename

/-- A key without continuations gives its value. -/
theorem filenameOf_eq {decoded : List (String × String)} {key : String}
    (hkey : startsWith key "filename*0" = false) :
    filenameOf decoded key =
      (Dict.get? decoded key).bind fun value =>
        if value = "" then none else some (secureFilename value) := by
  unfold filenameOf
  cases Dict.get? decoded key with
  | none => rfl
  | some value =>
      simp only [hkey, Option.bind_some]
      split
      · rfl
      · rename_i hne
        simp [hne]

theorem not_startsWith_extended : startsWith "filename*" "filename*0" = false := by
  rfl

theorem not_startsWith_filename : startsWith "filename" "filename*0" = false := by
  rfl

/-- `filename*` comes first. -/
theorem firstFilename_of_extended {decoded : List (String × String)} {value : String}
    (hvalue : Dict.get? decoded "filename*" = some value) (hne : value ≠ "") :
    firstFilename decoded = some (secureFilename value) := by
  have hfirst : filenameOf decoded "filename*" = some (secureFilename value) := by
    rw [filenameOf_eq not_startsWith_extended, hvalue, Option.bind_some, if_neg hne]
  rw [firstFilename, List.findSome?_cons, hfirst]

/-- Where there is a `filename`, the file name is its value or that of `filename*`. -/
theorem firstFilename_cases {decoded : List (String × String)} {value filename : String}
    (hvalue : Dict.get? decoded "filename" = some value) (hne : value ≠ "")
    (h : firstFilename decoded = some filename) :
    ∃ key value, (key = "filename*" ∨ key = "filename") ∧
      Dict.get? decoded key = some value ∧ filename = secureFilename value := by
  have hsecond : filenameOf decoded "filename" = some (secureFilename value) := by
    rw [filenameOf_eq not_startsWith_filename, hvalue, Option.bind_some, if_neg hne]
  rw [firstFilename, List.findSome?_cons, List.findSome?_cons, hsecond,
    filenameOf_eq not_startsWith_extended] at h
  cases hextended : Dict.get? decoded "filename*" with
  | none =>
      rw [hextended] at h
      exact ⟨"filename", value, Or.inr rfl, hvalue, (Option.some.inj h).symm⟩
  | some extended =>
      rw [hextended, Option.bind_some] at h
      by_cases hempty : extended = ""
      · rw [if_pos hempty] at h
        exact ⟨"filename", value, Or.inr rfl, hvalue, (Option.some.inj h).symm⟩
      · rw [if_neg hempty] at h
        exact ⟨"filename*", extended, Or.inl rfl, hextended, (Option.some.inj h).symm⟩

/-! ### Path separators -/

/-- What `secure_filename` writes for a character. -/
def secureChar (c : Char) : Char :=
  if (if c = '\\' then '_' else c) = '/' then '_' else if c = '\\' then '_' else c

theorem toList_secureFilename (filename : String) :
    (secureFilename filename).toList = filename.toList.map secureChar := by
  rw [secureFilename, String.toList_ofList, List.map_map]
  rfl

/-- `secure_filename` keeps the length. -/
theorem length_eq_of_secureFilename {filename filename' : String}
    (h : secureFilename filename = secureFilename filename') :
    filename.toList.length = filename'.toList.length := by
  have hlist := congrArg String.toList h
  rw [toList_secureFilename, toList_secureFilename] at hlist
  simpa using congrArg List.length hlist

/-- `download` has no dot. -/
theorem secureChar_download : ∀ i < 8, ("download.".toList[i]?).map secureChar ≠ some '.' := by
  decide

/-- A fallback name with a part of the extension is not the file name. -/
theorem secureFilename_fallback_ne {name extension : String} {part : List Char}
    (hpart : part.length < extension.toList.length) :
    secureFilename (String.ofList ("download.".toList ++ part)) ≠
      secureFilename (name ++ "." ++ extension) := by
  intro h
  have hdownload : "download.".toList.length = 9 := by rfl
  have hdot : ".".toList = ['.'] := by decide
  have hlength := length_eq_of_secureFilename h
  simp only [String.toList_ofList, String.toList_append, List.length_append, hdownload, hdot,
    List.length_singleton] at hlength
  have hshort : name.toList.length < 8 := by omega
  -- the dot after the name stands in the word
  have hlist := congrArg String.toList h
  rw [toList_secureFilename, toList_secureFilename, String.toList_ofList, String.toList_append,
    String.toList_append, hdot] at hlist
  have hat := congrArg (·[name.toList.length]?) hlist
  simp only [List.getElem?_map, List.append_assoc] at hat
  rw [List.getElem?_append_left (by omega), List.getElem?_append_right (by omega)] at hat
  exact secureChar_download _ hshort (by rw [hat]; simp; rfl)

end Onadata.Proofs
