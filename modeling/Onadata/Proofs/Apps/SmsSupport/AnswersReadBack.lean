import Mathlib.Data.List.Count
import Onadata.Apps.SmsSupport.Parser

/-!
# `Onadata.Proofs.Apps.SmsSupport.AnswersReadBack`: the answers of an SMS are read back

The message for a set of answers has a piece for each group that the user fills: the separator,
the `sms_field`, and the answers in the order of the questions. `answersReadBack` states when
`parse_sms_text` reads the answers back from it.

A question finds its answer by its own position in the group. That is the position of the answer
when no other question stands before it that the user does not answer; only media that are not
allowed may, and not before a question at the last position.
-/

set_option autoImplicit false

namespace Onadata.Proofs

open Onadata Onadata.Lib

section Message
variable (survey : SmsSurvey)

/-- The question is a media question that the form does not allow. -/
def MediaLeftOut (question : SmsQuestion) : Bool :=
  !survey.allowMedia ∧ question.type.getD "" ∈ MEDIA_TYPES

/-- The user answers the question. -/
def UserAnswered (question : SmsQuestion) : Bool :=
  question.type ≠ some "calculate" ∧ question.type ≠ some "note" ∧ !MediaLeftOut survey question ∧
    question.type.getD "" ∉ META_FIELDS

/-- The questions of a group that the user answers. -/
def userQuestions (group : SmsGroup) : List SmsQuestion :=
  group.fields.filter (UserAnswered survey)

/-- The groups that the user fills. -/
def userGroups : List SmsGroup :=
  survey.children.filter fun group => userQuestions survey group ≠ []

/-- The text for a question of a group. -/
abbrev GivenAnswers := SmsGroup → SmsQuestion → String

/-- The piece of the message for a group. -/
def groupPiece (given : GivenAnswers) (group : SmsGroup) : String :=
  group.smsField ++ " " ++ joinWords ((userQuestions survey group).map (given group))

/-- The pieces of the message. -/
def smsPieces (given : GivenAnswers) : List String :=
  (userGroups survey).map (groupPiece survey given)

/-- The message: each piece follows the separator. -/
def composeSms (given : GivenAnswers) : String :=
  precedeEach survey.separator (smsPieces survey given)

variable (rt : SmsRuntime)

/-- The answers are valid: none is empty or has the separator in it, only the last one of a
group can have several words, and each has a value. -/
structure ValidAnswers (given : GivenAnswers) : Prop where
  nonempty : ∀ group ∈ survey.children, ∀ question ∈ userQuestions survey group,
    given group question ≠ ""
  separator : ∀ group ∈ survey.children, ∀ question ∈ userQuestions survey group,
    ¬ survey.separator.toList <:+: (given group question).toList
  words : ∀ group ∈ survey.children, ∀ question ∈ (userQuestions survey group).dropLast,
    IsWord (given group question)
  value : ∀ group ∈ survey.children, ∀ question ∈ userQuestions survey group,
    ∃ value, castSmsValue rt survey (given group question) question = .ok value

variable (context : SmsContext)

/-- The value that a question of a group has: that of its answer, or that of its meta field. -/
def questionValue (given : GivenAnswers) (group : SmsGroup) (question : SmsQuestion) :
    Option SmsValue :=
  if UserAnswered survey question then
    (castSmsValue rt survey (given group question) question).toOption.map (·.1)
  else if question.type.getD "" ∈ META_FIELDS then
    some (.str (getMetaValue context (question.type.getD "")))
  else none

/-- The values of a group, each under its question. -/
def groupValues (given : GivenAnswers) (group : SmsGroup) : List (String × SmsValue) :=
  group.fields.filterMap fun question =>
    (questionValue survey rt context given group question).map (question.name, ·)

/-- The group gets values: the user fills it, or it is one of meta fields. -/
def HasValues (group : SmsGroup) : Bool :=
  userQuestions survey group ≠ [] ∨ startsWith group.smsField "meta"

/-- The values of the groups that are filled, and of those of meta fields. -/
def expectedAnswers (given : GivenAnswers) : SmsAnswers :=
  (survey.children.filter (HasValues survey)).map fun group =>
    (group.name, groupValues survey rt context given group)

/-- The answers are read back from the message: each under its group and its question, and
nothing else. -/
def ReadBack (given : GivenAnswers) : Prop :=
  ∃ parsed, parseSmsText rt survey context (composeSms survey given) = .ok parsed ∧
    parsed.answers = expectedAnswers survey rt context given

/-- The question at a position finds its answer there: what stands before it is answered by the
user, or is left out; and before the last position nothing is left out. -/
def InPosition (group : SmsGroup) (idx : Nat) : Prop :=
  ∀ question ∈ group.fields.take idx, UserAnswered survey question = true ∨
    (isLast idx group.fields = false ∧ MediaLeftOut survey question = true)

instance (group : SmsGroup) (idx : Nat) : Decidable (InPosition survey group idx) :=
  inferInstanceAs (Decidable (∀ question ∈ _, _))

/-- The condition on the form and the answers. -/
structure ReadableAnswers (given : GivenAnswers) : Prop where
  /-- A group that the user fills has an `sms_field` of one word. -/
  field : ∀ group ∈ userGroups survey, IsWord group.smsField
  /-- No other group has the `sms_field` of a group that the user fills. -/
  distinct : ∀ group ∈ userGroups survey, ∀ other ∈ survey.children,
    other.smsField = group.smsField → other = group
  /-- The separator occurs in no piece. -/
  separated : Separated survey.separator (smsPieces survey given)
  /-- Each question finds its answer. -/
  position : ∀ group ∈ userGroups survey, ∀ idx, (h : idx < group.fields.length) →
    UserAnswered survey group.fields[idx] = true → InPosition survey group idx
  /-- An answer of several words is at the last position, with one space between them. -/
  spaces : ∀ group ∈ userGroups survey, ∀ idx, (h : idx < group.fields.length) →
    UserAnswered survey group.fields[idx] = true →
      IsWord (given group group.fields[idx]) ∨
        isLast idx group.fields = true ∧ SingleSpaced (given group group.fields[idx])

end Message

/-! ### The answer of a question -/

/-- The words of answers that are words are the answers. -/
theorem flatMap_words_of_isWord {Source : Type} {sources : List Source} {text : Source → String}
    (h : ∀ source ∈ sources, IsWord (text source)) :
    sources.flatMap (fun source => words (text source)) = sources.map text := by
  induction sources with
  | nil => rfl
  | cons source sources ih =>
      rw [List.forall_mem_cons] at h
      rw [List.flatMap_cons, words_of_isWord h.1, ih h.2, List.map_cons, List.singleton_append]

/-- The items with one of two properties that exclude each other. -/
theorem countP_or_of_not {Source : Type} {p q : Source → Bool}
    (hnot : ∀ source, q source = true → p source = false) (sources : List Source) :
    sources.countP (fun source => p source || q source) =
      sources.countP p + sources.countP q := by
  induction sources with
  | nil => rfl
  | cons source sources ih =>
      rw [List.countP_cons, List.countP_cons, List.countP_cons, ih]
      cases hq : q source with
      | true =>
          rw [hnot source hq]
          simp only [Bool.or_true, if_true, Bool.false_eq_true, if_false]
          omega
      | false =>
          simp only [Bool.or_false, Bool.false_eq_true, if_false]
          omega

section Answers
variable {survey : SmsSurvey}

/-- A question that is left out is not answered by the user. -/
theorem not_userAnswered_of_mediaLeftOut {question : SmsQuestion}
    (h : MediaLeftOut survey question = true) : UserAnswered survey question = false := by
  unfold UserAnswered
  simp [h]

/-- A media type is no meta field. -/
theorem not_meta_of_media {type : String} (h : type ∈ MEDIA_TYPES) : type ∉ META_FIELDS := by
  have hall : ∀ type ∈ MEDIA_TYPES, type ∉ META_FIELDS := by decide
  exact hall type h

/-- Nothing behind the question at the last position is answered by the user. -/
theorem filter_behind_last {before after : List SmsQuestion} {question : SmsQuestion}
    (h : isLast before.length (before ++ question :: after) = true) :
    after.filter (UserAnswered survey) = [] := by
  unfold isLast at h
  rw [decide_eq_true_eq, List.length_append, List.length_cons] at h
  match after with
  | [] => rfl
  | [note] =>
      rcases h with h | ⟨hnote, -⟩
      · rw [List.length_singleton] at h
        omega
      · have hlast : (before ++ [question, note]).getLast? = some note := by simp
        rw [hlast] at hnote
        have htype : note.type = some "note" := hnote
        refine List.filter_cons_of_neg ?_
        unfold UserAnswered
        simp [htype]
  | _ :: _ :: after =>
      rw [List.length_cons, List.length_cons] at h
      omega

/-- A question in its position finds its answer in the words of the group. -/
theorem userAnswer_eq {given : GivenAnswers} {group : SmsGroup}
    {before after : List SmsQuestion} {question : SmsQuestion}
    (hfields : group.fields = before ++ question :: after)
    (huser : UserAnswered survey question = true)
    (hposition : InPosition survey group before.length)
    (hbefore : ∀ other ∈ before.filter (UserAnswered survey), IsWord (given group other))
    (hown : IsWord (given group question) ∨
      isLast before.length group.fields = true ∧ SingleSpaced (given group question)) :
    userAnswer (some ((userQuestions survey group).flatMap fun other => words (given group other)))
      group.fields before.length (before.countP (MediaLeftOut survey)) =
        .ok (given group question) := by
  have hquestions : userQuestions survey group = before.filter (UserAnswered survey) ++
      question :: after.filter (UserAnswered survey) := by
    unfold userQuestions
    rw [hfields, List.filter_append, List.filter_cons_of_pos huser]
  have htake : group.fields.take before.length = before := by
    rw [hfields, List.take_left']
    rfl
  unfold InPosition at hposition
  rw [htake] at hposition
  rw [hquestions, List.flatMap_append, flatMap_words_of_isWord hbefore, List.flatMap_cons]
  unfold userAnswer
  cases hlast : isLast before.length group.fields with
  | true =>
      -- Everything before is answered by a word, and nothing behind is answered.
      have hall : before.filter (UserAnswered survey) = before := by
        refine List.filter_eq_self.mpr fun other hmem => ?_
        refine (hposition other hmem).resolve_right fun h => ?_
        exact absurd (hlast.symm.trans h.1) (by decide)
      have hspaced : SingleSpaced (given group question) :=
        hown.elim singleSpaced_of_isWord (·.2)
      rw [hfields] at hlast
      rw [hall, filter_behind_last hlast, List.flatMap_nil, List.append_nil]
      dsimp only
      rw [if_pos rfl, List.drop_left' (List.length_map (given group))]
      exact congrArg Except.ok hspaced
  | false =>
      have hword : IsWord (given group question) :=
        hown.resolve_right fun h => absurd (hlast.symm.trans h.1) (by decide)
      have hcount : before.length = before.countP (UserAnswered survey) +
          before.countP (MediaLeftOut survey) := by
        rw [← countP_or_of_not fun _ => not_userAnswered_of_mediaLeftOut, eq_comm,
          List.countP_eq_length]
        intro other hmem
        rw [Bool.or_eq_true]
        exact (hposition other hmem).imp_right (·.2)
      have hidx : before.length - before.countP (MediaLeftOut survey) =
          ((before.filter (UserAnswered survey)).map (given group)).length := by
        rw [List.length_map, ← List.countP_eq_length_filter]
        omega
      rw [hidx, words_of_isWord hword]
      simp

/-- Out of its position the last question of a group that the user answers does not find its
answer: what it gets, if anything, has fewer words. -/
theorem words_lt_of_not_inPosition {given : GivenAnswers} {group : SmsGroup}
    {before after : List SmsQuestion} {question : SmsQuestion}
    (hfields : group.fields = before ++ question :: after)
    (huser : UserAnswered survey question = true)
    (hbehind : after.filter (UserAnswered survey) = [])
    (hposition : ¬ InPosition survey group before.length)
    (hbefore : ∀ other ∈ before.filter (UserAnswered survey), IsWord (given group other))
    (hown : words (given group question) ≠ []) {text : String}
    (h : userAnswer
        (some ((userQuestions survey group).flatMap fun other => words (given group other)))
        group.fields before.length (before.countP (MediaLeftOut survey)) = .ok text) :
    (words text).length < (words (given group question)).length := by
  have htake : group.fields.take before.length = before := by
    rw [hfields, List.take_left']
    rfl
  have hwords : ((userQuestions survey group).flatMap fun other => words (given group other)) =
      (before.filter (UserAnswered survey)).map (given group) ++ words (given group question) := by
    unfold userQuestions
    rw [hfields, List.filter_append, List.filter_cons_of_pos huser, hbehind,
      List.flatMap_append, flatMap_words_of_isWord hbefore, List.flatMap_cons, List.flatMap_nil,
      List.append_nil]
  have hisWord : ∀ word ∈ (before.filter (UserAnswered survey)).map (given group) ++
      words (given group question), IsWord word := by
    intro word hmem
    rcases List.mem_append.mp hmem with hmem | hmem
    · obtain ⟨other, hother, rfl⟩ := List.mem_map.mp hmem
      exact hbefore other hother
    · exact isWord_of_mem_words hmem
  have hpos : 0 < (words (given group question)).length := List.length_pos_iff.mpr hown
  have hlength : ((before.filter (UserAnswered survey)).map (given group) ++
      words (given group question)).length =
        before.countP (UserAnswered survey) + (words (given group question)).length := by
    rw [List.length_append, List.length_map, ← List.countP_eq_length_filter]
  -- A question before is not answered by the user.
  unfold InPosition at hposition
  rw [htake] at hposition
  push Not at hposition
  obtain ⟨other, hother, hnot, hkept⟩ := hposition
  rw [hwords] at h
  unfold userAnswer at h
  cases hlast : isLast before.length group.fields with
  | true =>
      dsimp only at h
      rw [if_pos hlast] at h
      obtain rfl := pure_eq_ok.mp h
      have hfew : before.countP (UserAnswered survey) < before.length := by
        rw [List.countP_lt_length_iff]
        exact ⟨other, hother, by simpa using hnot⟩
      rw [words_joinWords_of_isWord fun word hmem => hisWord word (List.mem_of_mem_drop hmem),
        List.length_drop, hlength]
      omega
  | false =>
      dsimp only at h
      rw [if_neg (by rw [hlast]; decide)] at h
      have hfew : before.countP (UserAnswered survey) <
          before.length - before.countP (MediaLeftOut survey) := by
        have hlt : before.countP (fun question => UserAnswered survey question ||
            MediaLeftOut survey question) < before.length := by
          refine List.countP_lt_length_iff.mpr ⟨other, hother, ?_⟩
          rw [Bool.or_eq_false_iff]
          exact ⟨by simpa using hnot, by simpa using hkept hlast⟩
        rw [countP_or_of_not (p := UserAnswered survey) (q := MediaLeftOut survey)
          fun _ => not_userAnswered_of_mediaLeftOut] at hlt
        omega
      cases hfound : ((before.filter (UserAnswered survey)).map (given group) ++
          words (given group question))[before.length - before.countP (MediaLeftOut survey)]? with
      | none =>
          rw [hfound] at h
          cases h
      | some answer =>
          rw [hfound] at h
          obtain rfl := pure_eq_ok.mp h
          obtain ⟨hidx, -⟩ := List.getElem?_eq_some_iff.mp hfound
          rw [words_of_isWord (hisWord answer (List.mem_of_getElem? hfound)),
            List.length_singleton]
          rw [hlength] at hidx
          omega

/-- One round of the loop over the questions. -/
theorem parseQuestions_cons {rt : SmsRuntime} {context : SmsContext} {given : GivenAnswers}
    {group : SmsGroup} {answers : Option (List String)} {idx stepBack : Nat}
    {question : SmsQuestion} {rest : List SmsQuestion} {values : List (String × SmsValue)}
    {medias : List (String × String)} {notes : List (Option String)}
    (hanswer : UserAnswered survey question = true →
      userAnswer answers group.fields idx stepBack = .ok (given group question))
    (hvalue : UserAnswered survey question = true →
      ∃ value, castSmsValue rt survey (given group question) question = .ok value) :
    ∃ medias' notes', parseQuestions rt survey context answers group.fields idx stepBack
        (question :: rest) (values, medias, notes) =
      parseQuestions rt survey context answers group.fields (idx + 1)
        (stepBack + if MediaLeftOut survey question = true then 1 else 0) rest
        ((questionValue survey rt context given group question).elim values
          (Dict.insert values question.name), medias', notes') := by
  rw [parseQuestions]
  by_cases hcalculate : question.type = some "calculate"
  · have hleft : MediaLeftOut survey question = false := by
      simp [MediaLeftOut, hcalculate, MEDIA_TYPES]
    have hnone : questionValue survey rt context given group question = none := by
      simp [questionValue, UserAnswered, hcalculate, META_FIELDS]
    rw [if_pos hcalculate, hleft, hnone]
    exact ⟨medias, notes, rfl⟩
  rw [if_neg hcalculate]
  by_cases hnote : question.type = some "note"
  · have hleft : MediaLeftOut survey question = false := by
      simp [MediaLeftOut, hnote, MEDIA_TYPES]
    have hnone : questionValue survey rt context given group question = none := by
      simp [questionValue, UserAnswered, hnote, META_FIELDS]
    rw [if_pos hnote, hleft, hnone]
    exact ⟨medias, _, rfl⟩
  rw [if_neg hnote]
  by_cases hmedia : MediaLeftOut survey question = true
  · have hcond := of_decide_eq_true hmedia
    have hnone : questionValue survey rt context given group question = none := by
      unfold questionValue
      rw [not_userAnswered_of_mediaLeftOut hmedia, if_neg (by decide),
        if_neg (not_meta_of_media hcond.2)]
    rw [if_pos hcond, if_pos hmedia, hnone]
    exact ⟨medias, notes, rfl⟩
  have hcond : ¬ ((!survey.allowMedia) = true ∧ question.type.getD "" ∈ MEDIA_TYPES) :=
    fun h => hmedia (decide_eq_true h)
  rw [if_neg hcond, if_neg hmedia]
  by_cases hmeta : question.type.getD "" ∈ META_FIELDS
  · have hsome : questionValue survey rt context given group question =
        some (.str (getMetaValue context (question.type.getD ""))) := by
      simp [questionValue, UserAnswered, hmeta]
    rw [if_pos hmeta, hsome]
    exact ⟨medias, notes, rfl⟩
  · have huser : UserAnswered survey question = true := by
      simp [UserAnswered, hcalculate, hnote, hmedia, hmeta]
    obtain ⟨⟨value, media⟩, hcast⟩ := hvalue huser
    have hsome : questionValue survey rt context given group question = some value := by
      unfold questionValue
      rw [if_pos huser, hcast]
      rfl
    rw [if_neg hmeta, hanswer huser, hsome]
    refine ⟨medias ++ media, notes, ?_⟩
    show (castSmsValue rt survey (given group question) question >>= _) = _
    rw [hcast]
    rfl

/-- The loop over the questions, when each question finds its answer: each gets its value, and
only those that the user answers and the meta fields. -/
theorem parseQuestions_eq {rt : SmsRuntime} {context : SmsContext} {given : GivenAnswers}
    {group : SmsGroup} {answers : Option (List String)}
    (hanswer : ∀ before question after, group.fields = before ++ question :: after →
      UserAnswered survey question = true →
        userAnswer answers group.fields before.length (before.countP (MediaLeftOut survey)) =
          .ok (given group question))
    (hvalue : ∀ question ∈ userQuestions survey group,
      ∃ value, castSmsValue rt survey (given group question) question = .ok value)
    (hnodup : (group.fields.map (·.name)).Nodup) (rest : List SmsQuestion) :
    ∀ {before : List SmsQuestion}, group.fields = before ++ rest →
      ∀ {values : List (String × SmsValue)}, (∀ name ∈ Dict.keys values, name ∈ before.map (·.name)) →
        ∀ medias notes, ∃ medias' notes',
          parseQuestions rt survey context answers group.fields before.length
              (before.countP (MediaLeftOut survey)) rest (values, medias, notes) =
            .ok (values ++ rest.filterMap (fun question =>
              (questionValue survey rt context given group question).map (question.name, ·)),
              medias', notes') := by
  induction rest with
  | nil =>
      intro before hfields values hkeys medias notes
      refine ⟨medias, notes, ?_⟩
      rw [parseQuestions, List.filterMap_nil, List.append_nil]
      rfl
  | cons question rest ih =>
      intro before hfields values hkeys medias notes
      have hnext : group.fields = (before ++ [question]) ++ rest := by
        rw [hfields, List.append_assoc]
        rfl
      have hlength : (before ++ [question]).length = before.length + 1 := by
        rw [List.length_append, List.length_singleton]
      have hkeep : ∀ name ∈ Dict.keys values, name ∈ (before ++ [question]).map (·.name) := by
        intro name hmem
        rw [List.map_append]
        exact List.mem_append_left _ (hkeys name hmem)
      -- A value goes behind those before it: no question before has the name.
      have hinsert : ∀ value, Dict.insert values question.name value =
          values ++ [(question.name, value)] := by
        intro value
        refine Dict.insert_of_notMem value fun hmem => ?_
        rw [hfields, List.map_append, List.map_cons] at hnodup
        exact (List.nodup_append.mp hnodup).2.2 _ (hkeys _ hmem) _ List.mem_cons_self rfl
      have hadd : ∀ value, ∀ name ∈ Dict.keys (values ++ [(question.name, value)]),
          name ∈ (before ++ [question]).map (·.name) := by
        intro value name hmem
        rw [Dict.keys_append, Dict.keys_cons, List.mem_append] at hmem
        rw [List.map_append]
        exact List.mem_append.mpr (hmem.imp_left (hkeys name))
      have hmem : question ∈ group.fields := hfields ▸ List.mem_append_right _ List.mem_cons_self
      obtain ⟨medias₁, notes₁, hround⟩ := @parseQuestions_cons survey rt context given group answers
        _ _ question rest values medias notes (hanswer before question rest hfields)
        fun huser => hvalue question (List.mem_filter.mpr ⟨hmem, huser⟩)
      have hcount : (before ++ [question]).countP (MediaLeftOut survey) =
          before.countP (MediaLeftOut survey) +
            if MediaLeftOut survey question = true then 1 else 0 := by
        rw [List.countP_append, List.countP_singleton]
      rw [hround, ← hlength, ← hcount, List.filterMap_cons]
      cases questionValue survey rt context given group question with
      | none => exact ih hnext hkeep medias₁ notes₁
      | some value =>
          dsimp only [Option.elim, Option.map]
          rw [hinsert]
          obtain ⟨medias₂, notes₂, hrest⟩ := ih hnext (hadd value) medias₁ notes₁
          rw [List.append_assoc] at hrest
          exact ⟨medias₂, notes₂, hrest⟩

end Answers

/-! ### The groups of the message -/

/-- The separator of a form is not empty. -/
theorem separator_ne (survey : SmsSurvey) : survey.separator ≠ "" := by
  unfold SmsSurvey.separator orDefault
  split
  · decide
  · assumption

section Groups
variable {survey : SmsSurvey} {given : GivenAnswers}

/-- The words of the answers of a group. -/
def groupWords (survey : SmsSurvey) (given : GivenAnswers) (group : SmsGroup) : List String :=
  (userQuestions survey group).flatMap fun question => words (given group question)

/-- A question that the user answers gets words. -/
theorem words_given_ne_nil {rt : SmsRuntime} (hvalid : ValidAnswers survey rt given)
    (hreadable : ReadableAnswers survey given) {group : SmsGroup}
    (hgroup : group ∈ userGroups survey) {question : SmsQuestion}
    (hquestion : question ∈ userQuestions survey group) : words (given group question) ≠ [] := by
  obtain ⟨hmem, huser⟩ := List.mem_filter.mp hquestion
  obtain ⟨idx, hidx, rfl⟩ := List.getElem_of_mem hmem
  have hspaced : SingleSpaced (given group group.fields[idx]) :=
    (hreadable.spaces group hgroup idx hidx huser).elim singleSpaced_of_isWord (·.2)
  exact words_ne_nil hspaced
    (hvalid.nonempty group (List.mem_filter.mp hgroup).1 _ hquestion)

/-- The words of a group that the user fills. -/
theorem groupWords_ne_nil {rt : SmsRuntime} (hvalid : ValidAnswers survey rt given)
    (hreadable : ReadableAnswers survey given) {group : SmsGroup}
    (hgroup : group ∈ userGroups survey) : groupWords survey given group ≠ [] := by
  have hne : userQuestions survey group ≠ [] := of_decide_eq_true (List.mem_filter.mp hgroup).2
  obtain ⟨question, rest, hquestions⟩ := List.exists_cons_of_ne_nil hne
  have hquestion : question ∈ userQuestions survey group := hquestions ▸ List.mem_cons_self
  intro hnil
  unfold groupWords at hnil
  rw [List.flatMap_eq_nil_iff] at hnil
  exact words_given_ne_nil hvalid hreadable hgroup hquestion (hnil question hquestion)

/-- The piece of a group is read. -/
theorem parsePiece_groupPiece {rt : SmsRuntime} (hvalid : ValidAnswers survey rt given)
    (hreadable : ReadableAnswers survey given) {group : SmsGroup}
    (hgroup : group ∈ userGroups survey) :
    parsePiece (groupPiece survey given group) =
      .ok (group.smsField, groupWords survey given group) := by
  have hwords : words (groupPiece survey given group) =
      group.smsField :: groupWords survey given group := by
    unfold groupPiece groupWords
    rw [words_append_space, words_of_isWord (hreadable.field group hgroup), words_joinWords,
      List.flatMap_map]
    rfl
  obtain ⟨first, rest, hcons⟩ :=
    List.exists_cons_of_ne_nil (groupWords_ne_nil hvalid hreadable hgroup)
  unfold parsePiece
  rw [hwords, hcons]
  rfl

/-- The words for each `sms_field`. -/
theorem smsGroups_composeSms {rt : SmsRuntime} (hvalid : ValidAnswers survey rt given)
    (hreadable : ReadableAnswers survey given) :
    smsGroups survey.separator (composeSms survey given) =
      .ok ((userGroups survey).map fun group => (group.smsField, groupWords survey given group)) := by
  have hpieces : (smsPieces survey given).mapM parsePiece =
      .ok ((userGroups survey).map fun group =>
        (group.smsField, groupWords survey given group)) := by
    rw [mapM_eq_ok]
    unfold smsPieces
    rw [List.forall₂_map_left_iff, List.forall₂_map_right_iff, List.forall₂_same]
    exact fun group hgroup => parsePiece_groupPiece hvalid hreadable hgroup
  have hnodup : (Dict.keys ((userGroups survey).map fun group =>
      (group.smsField, groupWords survey given group))).Nodup := by
    unfold Dict.keys
    rw [List.map_map]
    refine List.Nodup.map_on (fun group hgroup other hother heq => ?_) ?_
    · exact (hreadable.distinct other hother group (List.mem_filter.mp hgroup).1 heq)
    · exact (List.Nodup.of_map _ survey.nodup_groups).filter _
  unfold smsGroups composeSms
  rw [splitText_precedeEach (separator_ne survey) hreadable.separated, List.tail_cons, hpieces]
  exact congrArg Except.ok (Dict.update_nil_of_nodup hnodup)

/-- The words that are found for a group. -/
theorem get?_groupWords (hreadable : ReadableAnswers survey given) {group : SmsGroup}
    (hmem : group ∈ survey.children) :
    Dict.get? ((userGroups survey).map fun group => (group.smsField, groupWords survey given group))
        group.smsField =
      if userQuestions survey group ≠ [] then some (groupWords survey given group) else none := by
  by_cases huser : userQuestions survey group ≠ []
  · have hgroup : group ∈ userGroups survey :=
      List.mem_filter.mpr ⟨hmem, decide_eq_true huser⟩
    rw [if_pos huser]
    refine Dict.get?_map_of_mem (fun other hother heq => ?_) hgroup
    exact hreadable.distinct group hgroup other (List.mem_filter.mp hother).1 heq
  · have hgroup : group ∉ userGroups survey := fun h =>
      huser (of_decide_eq_true (List.mem_filter.mp h).2)
    rw [if_neg huser]
    refine Dict.get?_map_of_notMem (fun other hother heq => ?_) hgroup
    exact (hreadable.distinct other hother group hmem heq.symm).symm

/-- Each question of a group finds its answer. -/
theorem userAnswer_of_readable {rt : SmsRuntime} (hvalid : ValidAnswers survey rt given)
    (hreadable : ReadableAnswers survey given) {group : SmsGroup}
    (hmem : group ∈ survey.children) {before after : List SmsQuestion} {question : SmsQuestion}
    (hfields : group.fields = before ++ question :: after)
    (huser : UserAnswered survey question = true) :
    userAnswer (if userQuestions survey group ≠ [] then some (groupWords survey given group)
        else none) group.fields before.length (before.countP (MediaLeftOut survey)) =
      .ok (given group question) := by
  have hquestions : userQuestions survey group = before.filter (UserAnswered survey) ++
      question :: after.filter (UserAnswered survey) := by
    unfold userQuestions
    rw [hfields, List.filter_append, List.filter_cons_of_pos huser]
  have hne : userQuestions survey group ≠ [] := by
    rw [hquestions]
    exact List.append_ne_nil_of_right_ne_nil _ (List.cons_ne_nil _ _)
  have hgroup : group ∈ userGroups survey := List.mem_filter.mpr ⟨hmem, decide_eq_true hne⟩
  have hidx : before.length < group.fields.length := by
    rw [hfields, List.length_append, List.length_cons]
    omega
  have hget : group.fields[before.length] = question := by
    simp [hfields]
  have huser' : UserAnswered survey group.fields[before.length] = true := hget ▸ huser
  have hspaces := hreadable.spaces group hgroup _ hidx huser'
  rw [hget] at hspaces
  rw [if_pos hne]
  refine userAnswer_eq hfields huser (hreadable.position group hgroup _ hidx huser')
    (fun other hother => ?_) hspaces
  refine hvalid.words group hmem other ?_
  rw [hquestions, List.dropLast_append_of_ne_nil (List.cons_ne_nil _ _)]
  exact List.mem_append_left _ hother

/-- One round of the loop over the groups. -/
theorem parseGroup_eq {rt : SmsRuntime} {context : SmsContext}
    (hvalid : ValidAnswers survey rt given) (hreadable : ReadableAnswers survey given)
    {group : SmsGroup} (hmem : group ∈ survey.children) (htype : group.type = some "group")
    {parsed : SmsParsed} (hnew : group.name ∉ Dict.keys parsed.answers) :
    ∃ parsed', parseGroup rt survey context
        ((userGroups survey).map fun group => (group.smsField, groupWords survey given group))
        parsed group = .ok parsed' ∧
      parsed'.answers = parsed.answers ++
        if HasValues survey group = true then
          [(group.name, groupValues survey rt context given group)] else [] := by
  unfold parseGroup
  rw [if_neg (not_not_intro htype), get?_groupWords hreadable hmem]
  dsimp only
  by_cases hvalues : HasValues survey group = true
  · -- The group has an `sms_field`, and words if it is none of meta fields.
    have hcond : ¬ (group.smsField = "" ∨ ((if userQuestions survey group ≠ [] then
        some (groupWords survey given group) else none).getD [] = [] ∧
          (!startsWith group.smsField "meta") = true)) := by
      by_cases huser : userQuestions survey group ≠ []
      · have hgroup : group ∈ userGroups survey :=
          List.mem_filter.mpr ⟨hmem, decide_eq_true huser⟩
        rw [if_pos huser, not_or]
        exact ⟨(hreadable.field group hgroup).1,
          fun h => groupWords_ne_nil hvalid hreadable hgroup h.1⟩
      · have hmeta : startsWith group.smsField "meta" = true :=
          (of_decide_eq_true hvalues).resolve_left huser
        rw [hmeta, not_or]
        refine ⟨fun hempty => ?_, fun h => absurd h.2 (by decide)⟩
        rw [hempty] at hmeta
        exact absurd hmeta (by decide)
    obtain ⟨medias, notes, hquestions⟩ := @parseQuestions_eq survey rt context given group _
      (fun before question after hfields huser =>
        userAnswer_of_readable hvalid hreadable hmem hfields huser)
      (hvalid.value group hmem) (survey.nodup_fields group hmem) group.fields [] rfl []
      (fun name h => absurd h List.not_mem_nil) parsed.medias parsed.notes
    rw [if_neg hcond, if_pos hvalues]
    refine ⟨_, bind_eq_ok.mpr ⟨_, hquestions, rfl⟩, ?_⟩
    exact Dict.insert_of_notMem _ hnew
  · have huser : ¬ userQuestions survey group ≠ [] := fun h =>
      hvalues (decide_eq_true (Or.inl h))
    have hmeta : startsWith group.smsField "meta" ≠ true := fun h =>
      hvalues (decide_eq_true (Or.inr h))
    rw [if_neg huser, if_pos (Or.inr ⟨rfl, by simpa using hmeta⟩), if_neg hvalues]
    exact ⟨parsed, rfl, (List.append_nil _).symm⟩

/-- The loop over the groups. -/
theorem foldlM_parseGroup_eq {rt : SmsRuntime} {context : SmsContext}
    (hvalid : ValidAnswers survey rt given) (hreadable : ReadableAnswers survey given)
    {groups : List SmsGroup} (hgroups : ∀ group ∈ groups, group ∈ survey.children)
    (htypes : ∀ group ∈ groups, group.type = some "group") :
    ∀ {parsed : SmsParsed}, (Dict.keys parsed.answers ++ groups.map (·.name)).Nodup →
      ∃ parsed', groups.foldlM (parseGroup rt survey context
          ((userGroups survey).map fun group => (group.smsField, groupWords survey given group)))
          parsed = .ok parsed' ∧
        parsed'.answers = parsed.answers ++ (groups.filter (HasValues survey)).map fun group =>
          (group.name, groupValues survey rt context given group) := by
  induction groups with
  | nil => exact fun _ => ⟨_, rfl, (List.append_nil _).symm⟩
  | cons group groups ih =>
      intro parsed hnodup
      rw [List.forall_mem_cons] at hgroups htypes
      rw [List.map_cons, List.nodup_middle, List.nodup_cons] at hnodup
      have hnew : group.name ∉ Dict.keys parsed.answers := fun h =>
        hnodup.1 (List.mem_append_left _ h)
      obtain ⟨mid, hmid, hanswers⟩ :=
        @parseGroup_eq survey given rt context hvalid hreadable group hgroups.1 htypes.1 parsed hnew
      have hkeys : (Dict.keys mid.answers ++ groups.map (·.name)).Nodup := by
        rw [hanswers]
        split
        · rw [Dict.keys_append, List.append_assoc]
          exact List.nodup_middle.mpr (List.nodup_cons.mpr hnodup)
        · rw [List.append_nil]
          exact hnodup.2
      obtain ⟨parsed', hrest, heq⟩ := ih hgroups.2 htypes.2 hkeys
      refine ⟨parsed', ?_, ?_⟩
      · rw [List.foldlM_cons, hmid]
        exact hrest
      · rw [heq, hanswers, List.append_assoc]
        congr 1
        rw [List.filter_cons]
        split <;> rfl

/-- The groups of a form that is accepted. -/
theorem group_of_accepted {warnings : List String}
    (h : checkFormSmsCompatibility survey = .ok warnings) :
    ∀ group ∈ survey.children, group.type = some "group" := by
  intro group hmem
  by_contra htype
  have hany : (survey.children.any fun group => group.type ≠ some "group") = true :=
    List.any_eq_true.mpr ⟨group, hmem, decide_eq_true htype⟩
  unfold checkFormSmsCompatibility at h
  dsimp only at h
  rw [if_pos hany] at h
  cases h

/-- The answers of a form that is accepted are read back under the condition. -/
theorem answersReadBack {rt : SmsRuntime} (context : SmsContext) {warnings : List String}
    (haccepted : checkFormSmsCompatibility survey = .ok warnings)
    (hvalid : ValidAnswers survey rt given) (hreadable : ReadableAnswers survey given) :
    ReadBack survey rt context given := by
  obtain ⟨parsed, hparsed, hanswers⟩ := @foldlM_parseGroup_eq survey given rt context hvalid
    hreadable survey.children (fun _ h => h) (group_of_accepted haccepted) {} survey.nodup_groups
  refine ⟨parsed, ?_, hanswers⟩
  unfold parseSmsText
  rw [smsGroups_composeSms hvalid hreadable]
  exact hparsed

end Groups

/-! ### Forms that are filled -/

/-- The library on the texts below. -/
def smallRuntime : SmsRuntime where
  int := fun text =>
    if text = "5" then .ok 5
    else if text = "12" then .ok 12
    else .error ("invalid literal for int() with base 10: '" ++ text ++ "'")
  float := fun text => .error ("could not convert string to float: '" ++ text ++ "'")
  strptime := fun text fmt =>
    .error ("time data '" ++ text ++ "' does not match format '" ++ fmt ++ "'")
  dateOf := id
  b64decode := fun _ => .error "Error('Incorrect padding')"
  lower := id
  format := fun text _ => .ok text

/-- A form with a group of meta fields, and a group with a photo that is left out. -/
def visitSurvey : SmsSurvey where
  children := [
    { type := some "group", name := "meta", smsField := "meta"
      children := some [{ type := some "phonenumber", name := "phone" }] },
    { type := some "group", name := "visit", smsField := "v"
      children := some [
        { type := some "integer", name := "people" },
        { type := some "photo", name := "door" },
        { type := some "integer", name := "rooms" },
        { type := some "today", name := "day" }] },
    { type := some "group", name := "place", smsField := "p"
      children := some [
        { type := some "text", name := "village" },
        { type := some "note", name := "thanks", label := some "Thank you" }] }]
  nodup_groups := by decide
  nodup_fields := by decide

/-- Answers to its questions. -/
def visitAnswers : GivenAnswers := fun _ question =>
  if question.name = "people" then "5"
  else if question.name = "rooms" then "12"
  else "New Town"

/-- The values of the answers. -/
def visitValue (question : SmsQuestion) : SmsValue :=
  if question.name = "people" then .int 5
  else if question.name = "rooms" then .int 12
  else .str "New Town"

/-- The message `+v 5 12+p New Town` is read. -/
theorem answersReadBack_visit :
    ReadBack visitSurvey smallRuntime ⟨"0700", "2024-01-01T00:00:00", "2024-01-01"⟩
      visitAnswers := by
  refine @answersReadBack visitSurvey visitAnswers smallRuntime _ (smsWarnings visitSurvey)
    (by decide) ?_ ?_
  · exact {
      nonempty := by decide
      separator := by decide
      words := by decide
      value := fun group hgroup question hquestion => ⟨(visitValue question, []), by
        revert question
        revert group
        decide +kernel⟩ }
  · exact {
      field := by decide
      distinct := by decide
      separated := by decide
      position := by decide
      spaces := by decide }

/-- A form with a note before the question. -/
def noteFirstSurvey : SmsSurvey where
  children := [
    { type := some "group", name := "visit", smsField := "v"
      children := some [
        { type := some "note", name := "hint", label := some "How many?" },
        { type := some "integer", name := "people" }] }]
  nodup_groups := by decide
  nodup_fields := by decide

/-- The question gets no word of its answer, since a note stands before it: the message `+v 5` is
not read. -/
theorem not_answersReadBack_noteFirst :
    ¬ ∀ (rt : SmsRuntime) (context : SmsContext) (survey : SmsSurvey) (warnings : List String)
      (given : GivenAnswers), checkFormSmsCompatibility survey = .ok warnings →
      ValidAnswers survey rt given → ReadBack survey rt context given := by
  intro h
  have hvalid : ValidAnswers noteFirstSurvey smallRuntime fun _ _ => "5" := {
    nonempty := by decide
    separator := by decide
    words := by decide
    value := fun group hgroup question hquestion => ⟨(.int 5, []), by
      revert question
      revert group
      decide +kernel⟩ }
  obtain ⟨parsed, hparsed, -⟩ :=
    h smallRuntime ⟨"0700", "2024-01-01T00:00:00", "2024-01-01"⟩ noteFirstSurvey
      (smsWarnings noteFirstSurvey) _ (by decide) hvalid
  have hrefused : parseSmsText smallRuntime noteFirstSurvey
      ⟨"0700", "2024-01-01T00:00:00", "2024-01-01"⟩ (composeSms noteFirstSurvey fun _ _ => "5") =
        .error (.valueError "people: invalid literal for int() with base 10: ''") := by
    decide +kernel
  cases hrefused.symm.trans hparsed

end Onadata.Proofs
