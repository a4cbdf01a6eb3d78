import Onadata.Proofs.Apps.SmsSupport.AnswersReadBack

/-!
# `Onadata.Proofs.Apps.SmsSupport.AcceptedTexts`: the text of an answer and its value

`cast_sms_value` refuses a text with an SMS error when one of its checks fails (`PassesChecks`). It
fails with a `TypeError` when a question that needs choices has none (`LacksChoices`). Any other
text is accepted.

`castOutcome` states this, and which accepted texts have a valid value (`SoundText`). Two tests of a
geopoint cannot fail, and the words of a select all that are no option, or the option of several
choices, are dropped or doubled.
-/

set_option autoImplicit false

namespace Onadata.Proofs

open Onadata Onadata.Lib

section Text
variable (rt : SmsRuntime) (survey : SmsSurvey)

/-! ### What the code checks -/

/-- The question has to be answered. -/
def Required (question : SmsQuestion) : Prop :=
  question.required.toLower = "yes" ∨ question.required.toLower = "true"

/-- The text selects something, and the question has no choices. -/
def LacksChoices (question : SmsQuestion) (text : String) : Prop :=
  question.children = none ∧
    (question.type = some "select one" ∨
      question.type = some "select all that apply" ∧ words text ≠ [])

/-- The numbers of a geopoint are numbers: the altitude and the accuracy only if nothing follows. -/
def GeoNumbers : List String → Prop
  | lat :: lon :: rest =>
      (∃ x, rt.float lat = .ok x) ∧ (∃ x, rt.float lon = .ok x) ∧
        (rest.length ≤ 2 → ∀ part ∈ rest, ∃ n, rt.int part = .ok n)
  | _ => False

/-- The check for the type of the question passes. -/
def PassesType (question : SmsQuestion) (text : String) : Prop :=
  match question.type with
  | some "text" => True
  | some "integer" => ∃ n, rt.int text = .ok n
  | some "decimal" => ∃ x, rt.float text = .ok x
  | some "select one" => ∀ choices, question.children = some choices →
      ∃ choice ∈ choices, choice.smsOption = text
  | some "select all that apply" => True
  | some "geopoint" => GeoNumbers rt (words text)
  | some "barcode" => True
  | some "date" => ∃ time, rt.strptime text (xlsfDateFmt survey) = .ok time
  | some "datetime" => ∃ time, rt.strptime text (xlsfDatetimeFmt survey) = .ok time
  | some "note" => True
  | type => type.getD "" ∈ MEDIA_TYPES ∧ ∃ filename part parts content,
      splitText ";" text = filename :: part :: parts ∧
        rt.b64decode (";".intercalate (part :: parts)) = .ok content

/-- All checks of the text pass. -/
def PassesChecks (question : SmsQuestion) (text : String) : Prop :=
  ¬(Required question ∧ text = "") ∧ PassesType rt survey question text

/-! ### What a valid answer is -/

variable (absLe : String → Nat → Bool)

/-- The value is a valid answer that says what the text says. `absLe x bound` says that the float
with the `repr` `x` is between `-bound` and `bound`. -/
def ValidAnswer (question : SmsQuestion) (text : String) (value : SmsValue) : Prop :=
  match question.type with
  | some "text" => value = .str text
  | some "integer" => ∃ n, rt.int text = .ok n ∧ value = .int n
  | some "decimal" => ∃ x, rt.float text = .ok x ∧ value = .float x
  | some "select one" => ∃ choice ∈ question.children.getD [],
      choice.smsOption = text ∧ value = .str choice.name
  | some "select all that apply" => ∃ names, value = .str (joinWords names) ∧
      List.Forall₂ (fun word name => ∃ choice ∈ question.children.getD [],
        choice.smsOption = word ∧ choice.name = name) (words text) names
  | some "geopoint" => ∃ lat lon rest x y, words text = lat :: lon :: rest ∧ rest.length ≤ 2 ∧
      rt.float lat = .ok x ∧ absLe x 90 = true ∧ rt.float lon = .ok y ∧ absLe y 180 = true ∧
        value = .str (joinWords (words text))
  | some "barcode" => value = .str text
  | some "date" => ∃ time, rt.strptime text (xlsfDateFmt survey) = .ok time ∧
      value = .date (rt.dateOf time)
  | some "datetime" => ∃ time, rt.strptime text (xlsfDatetimeFmt survey) = .ok time ∧
      value = .datetime time
  | some "note" => value = .str ""
  | _ => ∃ filename part parts content, splitText ";" text = filename :: part :: parts ∧
      rt.b64decode (";".intercalate (part :: parts)) = .ok content ∧ value = .str filename

/-- A geopoint has no more than four parts, and its numbers are in their bounds. A word of a select
all is the option of one choice. -/
structure SoundText (question : SmsQuestion) (text : String) : Prop where
  geopoint : question.type = some "geopoint" → (words text).length ≤ 4 ∧
    (∀ x, ((words text)[0]?.map rt.float) = some (.ok x) → absLe x 90 = true) ∧
    ∀ y, ((words text)[1]?.map rt.float) = some (.ok y) → absLe y 180 = true
  selectAll : question.type = some "select all that apply" → ∀ word ∈ words text,
    ((question.children.getD []).filter fun choice => choice.smsOption = word).length = 1

end Text

section Cast
variable {rt : SmsRuntime} {survey : SmsSurvey} {question : SmsQuestion} {text : String}

/-- The check of a geopoint passes when its numbers are numbers. -/
theorem checkGeopoint_iff {parts : List String} :
    checkGeopoint rt parts = .ok () ↔ GeoNumbers rt parts := by
  unfold checkGeopoint GeoNumbers
  split
  · rename_i lat lon rest
    rw [bind_eq_ok]
    refine ⟨fun h => ?_, fun h => ?_⟩
    · obtain ⟨x, hx, h⟩ := h
      obtain ⟨y, hy, h⟩ := bind_eq_ok.mp h
      refine ⟨⟨x, hx⟩, ⟨y, hy⟩, fun hlength => ?_⟩
      rcases rest with _ | ⟨altitude, _ | ⟨accuracy, _ | ⟨other, rest⟩⟩⟩
      · exact fun part hpart => absurd hpart List.not_mem_nil
      · obtain ⟨n, hn, _⟩ := bind_eq_ok.mp h
        intro part hpart
        rw [List.mem_singleton.mp hpart]
        exact ⟨n, hn⟩
      · obtain ⟨n, hn, h⟩ := bind_eq_ok.mp h
        obtain ⟨m, hm, _⟩ := bind_eq_ok.mp h
        intro part hpart
        rcases List.mem_cons.mp hpart with rfl | hpart
        · exact ⟨n, hn⟩
        · rw [List.mem_singleton.mp hpart]
          exact ⟨m, hm⟩
      · simp only [List.length_cons] at hlength
        omega
    · obtain ⟨⟨x, hx⟩, ⟨y, hy⟩, hrest⟩ := h
      refine ⟨x, hx, bind_eq_ok.mpr ⟨y, hy, ?_⟩⟩
      rcases rest with _ | ⟨altitude, _ | ⟨accuracy, _ | ⟨other, rest⟩⟩⟩
      · rfl
      · obtain ⟨n, hn⟩ := hrest (Nat.le_succ 1) altitude List.mem_cons_self
        exact bind_eq_ok.mpr ⟨n, hn, rfl⟩
      · obtain ⟨n, hn⟩ := hrest (Nat.le_refl 2) altitude List.mem_cons_self
        obtain ⟨m, hm⟩ := hrest (Nat.le_refl 2) accuracy
          (List.mem_cons_of_mem altitude List.mem_cons_self)
        exact bind_eq_ok.mpr ⟨n, hn, bind_eq_ok.mpr ⟨m, hm, rfl⟩⟩
      · rfl
  · refine iff_of_false (fun h => ?_) id
    obtain ⟨x, _, h⟩ := bind_eq_ok.mp h
    cases h
  · exact iff_of_false (fun h => by cases h) id

/-! ### A word and its choices -/

/-- The texts, each behind a space. -/
def spaced (texts : List String) : List Char :=
  texts.flatMap fun text => ' ' :: text.toList

/-- Joined texts have one space less. -/
theorem spaced_eq {texts : List String} (h : texts ≠ []) :
    spaced texts = ' ' :: (joinWords texts).toList := by
  have hspace : " ".toList = [' '] := by decide
  unfold joinWords
  induction texts with
  | nil => exact absurd rfl h
  | cons text texts ih =>
      by_cases hne : texts = []
      · subst hne
        rw [String.intercalate_singleton]
        exact List.append_nil _
      · rw [String.intercalate_cons_of_ne_nil hne, String.toList_append, String.toList_append,
          hspace, List.append_assoc, List.singleton_append, ← ih hne]
        rfl

/-- A text is not longer than the texts that it is one of, and shorter if there are others. -/
theorem length_spaced_of_mem {texts : List String} {text : String} (h : text ∈ texts) :
    (spaced [text]).length ≤ (spaced texts).length ∧
      ((spaced texts).length ≤ (spaced [text]).length → texts = [text]) := by
  obtain ⟨before, after, rfl⟩ := List.append_of_mem h
  have hnil : ∀ others : List String, (spaced others).length = 0 → others = [] := by
    intro others hlength
    cases others with
    | nil => rfl
    | cons other others => cases hlength
  have hlength : (spaced (before ++ text :: after)).length =
      (spaced before).length + ((spaced [text]).length + (spaced after).length) := by
    unfold spaced
    rw [List.flatMap_append, List.flatMap_cons, List.length_append, List.length_append,
      List.flatMap_singleton]
  refine ⟨by omega, fun hle => ?_⟩
  rw [hnil before (by omega), hnil after (by omega)]
  rfl

/-- Texts that are each one of several are not longer than all of them. -/
theorem length_spaced_flatMap {options names : List String} {matched : String → List String}
    (h : List.Forall₂ (fun option name => name ∈ matched option) options names) :
    (spaced names).length ≤ (spaced (options.flatMap matched)).length ∧
      ((spaced (options.flatMap matched)).length ≤ (spaced names).length →
        ∀ option ∈ options, (matched option).length = 1) := by
  induction h with
  | nil => exact ⟨Nat.le_refl 0, fun _ option hoption => absurd hoption List.not_mem_nil⟩
  | @cons option name options names hmem _ ih =>
      have hone := length_spaced_of_mem hmem
      have hnames : (spaced (name :: names)).length =
          (spaced [name]).length + (spaced names).length := by
        unfold spaced
        rw [List.flatMap_cons, List.length_append, List.flatMap_singleton]
      have hall : (spaced ((option :: options).flatMap matched)).length =
          (spaced (matched option)).length + (spaced (options.flatMap matched)).length := by
        unfold spaced
        rw [List.flatMap_cons, List.flatMap_append, List.length_append]
      refine ⟨by omega, fun hle other hother => ?_⟩
      rcases List.mem_cons.mp hother with rfl | hother
      · rw [hone.2 (by omega)]
        rfl
      · exact ih.2 (by omega) other hother

/-- A text for each word, from those that the word matches, joins to all matches only if each word
matches one. -/
theorem joinWords_flatMap_iff {options : List String} {matched : String → List String} :
    (∃ names, joinWords (options.flatMap matched) = joinWords names ∧
        List.Forall₂ (fun option name => name ∈ matched option) options names) ↔
      ∀ option ∈ options, (matched option).length = 1 := by
  constructor
  · intro ⟨names, hjoin, hnames⟩
    refine (length_spaced_flatMap hnames).2 (Nat.le_of_eq ?_)
    cases hnames with
    | nil => rfl
    | @cons option name options names hmem hrest =>
        have hne : (option :: options).flatMap matched ≠ [] :=
          List.ne_nil_of_mem (List.mem_flatMap.mpr ⟨option, List.mem_cons_self, hmem⟩)
        rw [spaced_eq hne, spaced_eq (List.cons_ne_nil name names), hjoin]
  · intro h
    refine ⟨options.flatMap matched, rfl, ?_⟩
    induction options with
    | nil => exact List.Forall₂.nil
    | cons option options ih =>
        rw [List.forall_mem_cons] at h
        obtain ⟨name, hname⟩ := List.length_eq_one_iff.mp h.1
        rw [List.flatMap_cons, hname]
        exact List.Forall₂.cons (hname ▸ List.mem_singleton_self name) (ih h.2)

/-- What the cast of a text can be: `right` is said of the value. -/
inductive CastOutcome (passes lacks : Prop) (right : SmsValue → Prop) :
    Except SmsError (SmsValue × List (String × String)) → Prop
  | refused (message : String) (h : ¬passes) :
      CastOutcome passes lacks right (.error (.valueError message))
  | failed (h : passes) (h' : lacks) : CastOutcome passes lacks right (.error .typeError)
  | accepted (result : SmsValue × List (String × String)) (h : passes) (h' : ¬lacks)
      (hright : right result.1) : CastOutcome passes lacks right (.ok result)

/-- The texts for other types are all sound. -/
theorem soundText_of_type {absLe : String → Nat → Bool}
    (hgeopoint : question.type ≠ some "geopoint")
    (hselect : question.type ≠ some "select all that apply") :
    SoundText rt absLe question text where
  geopoint := fun h => absurd h hgeopoint
  selectAll := fun h => absurd h hselect

/-- Questions of other types need no choices. -/
theorem not_lacksChoices_of_type (hone : question.type ≠ some "select one")
    (hall : question.type ≠ some "select all that apply") : ¬LacksChoices question text :=
  fun h => h.2.elim hone fun h => hall h.1

/-- The cast of a text by a function of the library. -/
theorem castOutcome_wrap {Value : Type} {value : Except String Value} {name : String}
    {toValue : Value → SmsValue} {lacks : Prop} {right : SmsValue → Prop} (hlacks : ¬lacks)
    (hright : ∀ v, value = .ok v → right (toValue v)) :
    CastOutcome (∃ v, value = .ok v) lacks right
      (safeWrap name value >>= fun v => pure (toValue v, [])) := by
  cases value with
  | error error => exact .refused _ fun ⟨v, hv⟩ => by cases hv
  | ok v => exact .accepted _ ⟨v, rfl⟩ hlacks (hright v rfl)

/-- The value of a select one. -/
def castSelectOne (children : Option (List SmsChoice)) (text name : String) :
    Except SmsError (SmsValue × List (String × String)) :=
  match children with
  | none => throw .typeError
  | some choices =>
      match choices.find? fun choice => choice.smsOption = text with
      | some choice => return (.str choice.name, [])
      | none => throw (smsCastingError ("No matching choice for '" ++ text ++ "'") name)

/-- The cast of the text of a select one. -/
theorem castOutcome_selectOne {absLe : String → Nat → Bool} {name : String}
    (htype : question.type = some "select one") :
    CastOutcome (∀ choices, question.children = some choices →
        ∃ choice ∈ choices, choice.smsOption = text) (LacksChoices question text)
      (fun value => (∃ choice ∈ question.children.getD [], choice.smsOption = text ∧
        value = .str choice.name) ↔ SoundText rt absLe question text)
      (castSelectOne question.children text name) := by
  have hsound : SoundText rt absLe question text :=
    soundText_of_type (by rw [htype]; decide) (by rw [htype]; decide)
  cases hchildren : question.children with
  | none => exact .failed (fun choices h => by cases h) ⟨hchildren, Or.inl htype⟩
  | some choices =>
      have hlacks : ¬LacksChoices question text := by
        intro h
        rw [h.1] at hchildren
        cases hchildren
      unfold castSelectOne
      dsimp only
      cases hfind : choices.find? fun choice => choice.smsOption = text with
      | none =>
          refine .refused _ fun h => ?_
          obtain ⟨choice, hchoice, hoption⟩ := h choices rfl
          exact List.find?_eq_none.mp hfind choice hchoice (decide_eq_true hoption)
      | some choice =>
          have hmem := List.mem_of_find?_eq_some hfind
          have hoption : choice.smsOption = text := by simpa using List.find?_some hfind
          refine .accepted (.str choice.name, []) (fun other h => ?_) hlacks ?_
          · rw [← Option.some.inj h]
            exact ⟨choice, hmem, hoption⟩
          · exact iff_of_true ⟨choice, hmem, hoption, rfl⟩ hsound

/-- The value of a select all. -/
def castSelectAll (children : Option (List SmsChoice)) (text : String) :
    Except SmsError (SmsValue × List (String × String)) :=
  match children with
  | none => if words text = [] then return (.str "", []) else throw .typeError
  | some choices =>
      return (.str (joinWords ((words text).flatMap fun option =>
        (choices.filter fun choice => choice.smsOption = option).map (·.name))), [])

/-- The cast of the text of a select all. -/
theorem castOutcome_selectAll {absLe : String → Nat → Bool}
    (htype : question.type = some "select all that apply") :
    CastOutcome True (LacksChoices question text)
      (fun value => (∃ names, value = .str (joinWords names) ∧
        List.Forall₂ (fun word name => ∃ choice ∈ question.children.getD [],
          choice.smsOption = word ∧ choice.name = name) (words text) names) ↔
            SoundText rt absLe question text)
      (castSelectAll question.children text) := by
  have hsound : SoundText rt absLe question text ↔ ∀ word ∈ words text,
      ((question.children.getD []).filter fun choice => choice.smsOption = word).length = 1 := by
    refine ⟨fun h => h.selectAll htype, fun h => ⟨fun h' => ?_, fun _ => h⟩⟩
    rw [htype] at h'
    exact absurd h' (by decide)
  cases hchildren : question.children with
  | none =>
      unfold castSelectAll
      dsimp only
      split
      · rename_i hempty
        refine .accepted _ trivial (fun h => ?_) ?_
        · rcases h.2 with h | h
          · exact absurd (htype.symm.trans h) (by decide)
          · exact h.2 hempty
        · rw [hsound, hempty]
          refine iff_of_true ⟨[], rfl, List.Forall₂.nil⟩ fun word hword => ?_
          exact absurd hword List.not_mem_nil
      · rename_i hne
        exact .failed trivial ⟨hchildren, Or.inr ⟨htype, hne⟩⟩
  | some choices =>
      refine .accepted _ trivial (fun h => ?_) ?_
      · rw [h.1] at hchildren
        cases hchildren
      · rw [hsound, hchildren, Option.getD_some]
        have hjoin := @joinWords_flatMap_iff (words text) fun option =>
          (choices.filter fun choice => choice.smsOption = option).map (·.name)
        simp only [List.length_map] at hjoin
        rw [← hjoin]
        simp only [SmsValue.str.injEq, List.mem_map, List.mem_filter, decide_eq_true_eq, and_assoc]

/-- The cast of the text of a geopoint. -/
theorem castOutcome_geopoint {absLe : String → Nat → Bool} {name : String}
    (htype : question.type = some "geopoint") :
    CastOutcome (GeoNumbers rt (words text)) (LacksChoices question text)
      (fun value => (∃ lat lon rest x y, words text = lat :: lon :: rest ∧ rest.length ≤ 2 ∧
        rt.float lat = .ok x ∧ absLe x 90 = true ∧ rt.float lon = .ok y ∧ absLe y 180 = true ∧
          value = .str (joinWords (words text))) ↔ SoundText rt absLe question text)
      (safeWrap name (checkGeopoint rt (words text)) >>= fun _ =>
        pure (.str (joinWords (words text)), [])) := by
  have hlacks : ¬LacksChoices question text :=
    not_lacksChoices_of_type (by rw [htype]; decide) (by rw [htype]; decide)
  cases hcheck : checkGeopoint rt (words text) with
  | error error =>
      refine .refused _ fun h => ?_
      rw [checkGeopoint_iff.mpr h] at hcheck
      cases hcheck
  | ok u =>
      have hnumbers := checkGeopoint_iff.mp hcheck
      refine .accepted _ hnumbers hlacks ?_
      have hsound : SoundText rt absLe question text ↔ (words text).length ≤ 4 ∧
          (∀ x, ((words text)[0]?.map rt.float) = some (.ok x) → absLe x 90 = true) ∧
          ∀ y, ((words text)[1]?.map rt.float) = some (.ok y) → absLe y 180 = true := by
        refine ⟨fun h => h.geopoint htype, fun h => ⟨fun _ => h, fun h' => ?_⟩⟩
        rw [htype] at h'
        exact absurd h' (by decide)
      rw [hsound]
      rcases hparts : words text with _ | ⟨lat, _ | ⟨lon, rest⟩⟩
      · rw [hparts] at hnumbers
        exact hnumbers.elim
      · rw [hparts] at hnumbers
        exact hnumbers.elim
      · rw [hparts] at hnumbers
        obtain ⟨⟨x, hx⟩, ⟨y, hy⟩, _⟩ := hnumbers
        constructor
        · intro ⟨_, _, _, x', y', heq, hrest, hx', hlat, hy', hlon, _⟩
          cases heq
          refine ⟨by simp only [List.length_cons]; omega, fun z hz => ?_, fun z hz => ?_⟩
          · have hz : rt.float lat = .ok z := Option.some.inj hz
            rwa [Except.ok.inj (hz.symm.trans hx')]
          · have hz : rt.float lon = .ok z := Option.some.inj hz
            rwa [Except.ok.inj (hz.symm.trans hy')]
        · intro ⟨hlength, hlat, hlon⟩
          simp only [List.length_cons] at hlength
          exact ⟨lat, lon, rest, x, y, rfl, by omega, hx, hlat x (congrArg some hx), hy,
            hlon y (congrArg some hy), rfl⟩

/-- The cast of the text of a media question. -/
theorem castOutcome_media {absLe : String → Nat → Bool} {name : String}
    (hsound : SoundText rt absLe question text) (hlacks : ¬LacksChoices question text) :
    CastOutcome (∃ filename part parts content, splitText ";" text = filename :: part :: parts ∧
        rt.b64decode (";".intercalate (part :: parts)) = .ok content) (LacksChoices question text)
      (fun value => (∃ filename part parts content,
        splitText ";" text = filename :: part :: parts ∧
          rt.b64decode (";".intercalate (part :: parts)) = .ok content ∧ value = .str filename) ↔
            SoundText rt absLe question text) (mediaValue rt text name) := by
  unfold mediaValue
  rcases hparts : splitText ";" text with _ | ⟨filename, _ | ⟨part, parts⟩⟩
  · exact .refused _ fun ⟨_, _, _, _, h, _⟩ => by cases h
  · exact .refused _ fun ⟨_, _, _, _, h, _⟩ => by cases h
  · cases hcontent : rt.b64decode (";".intercalate (part :: parts)) with
    | error error =>
        dsimp only
        rw [hcontent]
        refine .refused _ fun ⟨_, _, _, content, h, h'⟩ => ?_
        cases h
        rw [hcontent] at h'
        cases h'
    | ok content =>
        dsimp only
        rw [hcontent]
        refine .accepted (.str filename, [(filename, content)])
          ⟨filename, part, parts, content, rfl, hcontent⟩ hlacks ?_
        exact iff_of_true ⟨filename, part, parts, content, rfl, hcontent, rfl⟩ hsound

/-- The outcome of the cast of a text that is not missing. -/
theorem castOutcome_type (absLe : String → Nat → Bool)
    (hrequired : ¬(Required question ∧ text = "")) :
    CastOutcome (PassesType rt survey question text) (LacksChoices question text)
      (fun value => ValidAnswer rt survey absLe question text value ↔
        SoundText rt absLe question text) (castSmsValue rt survey text question) := by
  have hcond : ¬((question.required.toLower = "yes" ∨ question.required.toLower = "true") ∧
    text = "") := hrequired
  unfold castSmsValue PassesType ValidAnswer
  simp only [hcond, if_false]
  split
  · rename_i htype
    have hsound : SoundText rt absLe question text :=
      soundText_of_type (by rw [htype]; decide) (by rw [htype]; decide)
    have hlacks : ¬LacksChoices question text :=
      not_lacksChoices_of_type (by rw [htype]; decide) (by rw [htype]; decide)
    simp -failIfUnchanged only [htype]
    exact .accepted _ trivial hlacks (iff_of_true rfl hsound)
  · rename_i htype
    have hsound : SoundText rt absLe question text :=
      soundText_of_type (by rw [htype]; decide) (by rw [htype]; decide)
    have hlacks : ¬LacksChoices question text :=
      not_lacksChoices_of_type (by rw [htype]; decide) (by rw [htype]; decide)
    simp -failIfUnchanged only [htype]
    exact castOutcome_wrap hlacks fun v hv => iff_of_true ⟨v, hv, rfl⟩ hsound
  · rename_i htype
    have hsound : SoundText rt absLe question text :=
      soundText_of_type (by rw [htype]; decide) (by rw [htype]; decide)
    have hlacks : ¬LacksChoices question text :=
      not_lacksChoices_of_type (by rw [htype]; decide) (by rw [htype]; decide)
    simp -failIfUnchanged only [htype]
    exact castOutcome_wrap hlacks fun v hv => iff_of_true ⟨v, hv, rfl⟩ hsound
  · rename_i htype
    simp -failIfUnchanged only [htype]
    exact castOutcome_selectOne htype
  · rename_i htype
    simp -failIfUnchanged only [htype]
    exact castOutcome_selectAll htype
  · rename_i htype
    simp -failIfUnchanged only [htype]
    exact castOutcome_geopoint htype
  · rename_i htype
    have hsound : SoundText rt absLe question text :=
      soundText_of_type (by rw [htype]; decide) (by rw [htype]; decide)
    have hlacks : ¬LacksChoices question text :=
      not_lacksChoices_of_type (by rw [htype]; decide) (by rw [htype]; decide)
    simp -failIfUnchanged only [htype]
    exact .accepted _ trivial hlacks (iff_of_true rfl hsound)
  · rename_i htype
    have hsound : SoundText rt absLe question text :=
      soundText_of_type (by rw [htype]; decide) (by rw [htype]; decide)
    have hlacks : ¬LacksChoices question text :=
      not_lacksChoices_of_type (by rw [htype]; decide) (by rw [htype]; decide)
    simp -failIfUnchanged only [htype]
    exact castOutcome_wrap hlacks fun v hv => iff_of_true ⟨v, hv, rfl⟩ hsound
  · rename_i htype
    have hsound : SoundText rt absLe question text :=
      soundText_of_type (by rw [htype]; decide) (by rw [htype]; decide)
    have hlacks : ¬LacksChoices question text :=
      not_lacksChoices_of_type (by rw [htype]; decide) (by rw [htype]; decide)
    simp -failIfUnchanged only [htype]
    exact castOutcome_wrap hlacks fun v hv => iff_of_true ⟨v, hv, rfl⟩ hsound
  · rename_i htype
    have hsound : SoundText rt absLe question text :=
      soundText_of_type (by rw [htype]; decide) (by rw [htype]; decide)
    have hlacks : ¬LacksChoices question text :=
      not_lacksChoices_of_type (by rw [htype]; decide) (by rw [htype]; decide)
    simp -failIfUnchanged only [htype]
    exact .accepted _ trivial hlacks (iff_of_true rfl hsound)
  · simp -failIfUnchanged only [*]
    split
    · simp only [*, true_and]
      exact castOutcome_media (soundText_of_type (by assumption) (by assumption))
        (not_lacksChoices_of_type (by assumption) (by assumption))
    · rename_i hmedia
      exact .refused _ fun h => hmedia h.1

end Cast

end Onadata.Proofs
