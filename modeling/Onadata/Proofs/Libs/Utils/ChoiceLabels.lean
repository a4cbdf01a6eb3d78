import Onadata.Proofs.Libs.Utils.SelectMultiples

/-!
# `Onadata.Proofs.Libs.Utils.ChoiceLabels`: the labels of the choices in the columns

With `show_choice_labels` the column of a choice is named after its label. Two places replace the
name by `choice.replace("/" + name, "/" + label)`, and `get_ordered_repeat_value` puts the label
behind the xpath of the question.

`labelColumnsRight_iff` says when all places name the same column, and when no selected choice is
lost. A label is replaced at the end only if `/name` is not in the xpath of the question
(`replacesName_of_not_infix`).
-/

set_option autoImplicit false

namespace Onadata.Proofs

open Onadata.Lib

/-! ### What the columns should be -/

/-- The column that a choice should have. -/
def labelColumn (question : SelectMultiple) (label : String) : String :=
  question.xpath ++ "/" ++ label

/-- The value of the column of a selected choice. -/
def selectedValue (options : SplitOptions) (label : String) : PyValue :=
  if options.valueSelectMultiples then .str label
  else if options.binarySelectMultiples then .int YES
  else .bool true

/-- The answers of the question are texts, in the record and in its repeats. -/
def TextAnswersWithin (key : String) : Nat → List (String × PyValue) → Prop
  | 0, _ => True
  | fuel + 1, record =>
      (∀ value, Dict.get? record key = some value → value.isStr = true) ∧
        ∀ item ∈ record, ∀ items, item.2 = .list items → ∀ nested, .dict nested ∈ items →
          TextAnswersWithin key fuel nested

/-- All places name the column of a choice after its label, and a selected choice has its value in
this column. The record is one of the data, or one of a repeat at any depth. -/
structure LabelColumnsRight (defaultLanguage : String) (language : Option String)
    (question : SelectMultiple) (choices : List CollectedChoice) : Prop where
  collected : collectChoices defaultLanguage language question = .ok choices
  split : ∀ choice ∈ choices, choiceColumn true choice = labelColumn question choice.label
  ordered : orderedChoiceColumns true choices =
    removeDups (choices.map fun choice => labelColumn question choice.label)
  repeats : (question.choices.mapM fun choice =>
      (repeatChoiceXpath true language question choice).map getAbbreviatedXpath) =
    .ok (choices.map fun choice => labelColumn question choice.label)
  different : ∀ choice ∈ choices, ∀ other ∈ choices, choice.label ≠ other.label →
    choiceColumn true choice ≠ choiceColumn true other
  kept : ∀ (options : SplitOptions) (record : List (String × PyValue)) (answer : String)
    (fuel : Nat), options.showChoiceLabels = true → (PyValue.dict record).depth ≤ fuel →
    Dict.get? record question.xpath = some (.str answer) →
    TextAnswersWithin question.xpath fuel record →
    ∃ csv item,
      splitSelectMultiplesWithin options [(question.xpath, choices)] fuel record = .ok csv ∧
      orderedRepeatChoices true language question csv = .ok item ∧
      ∀ choice ∈ choices, choice.name ∈ splitText " " answer →
        Dict.get? csv (labelColumn question choice.label) =
          some (selectedValue options choice.label) ∧
        Dict.get? item (labelColumn question choice.label) =
          some (selectedValue options choice.label)

/-! ### When they are -/

/-- The label of a choice in the language. -/
def labelIn (language : Option String) : ChoiceLabel → Option String
  | .text label => some label
  | .translations labels => language.bind (Dict.get? labels)

/-- The choices of the question with their labels in the language. -/
def labelledChoices (language : Option String) (question : SelectMultiple) :
    List CollectedChoice :=
  question.choices.map fun choice =>
    ⟨question.xpath ++ "/" ++ choice.1, choice.1, (labelIn language choice.2).getD ""⟩

/-- The last choice with a label. -/
def lastWithLabel (choices : List CollectedChoice) (label : String) : Option CollectedChoice :=
  choices.reverse.find? fun choice => choice.label = label

/-- The name and the label of the choice are the same, or the xpath of the choice has `/name` once.
It is the end of the xpath, or the label repeats itself where the name does. -/
def ReplacesName (xpath : String) (choice : CollectedChoice) : Prop :=
  "/" ++ choice.name = "/" ++ choice.label ∨
    ∃ before moved after,
      splitText ("/" ++ choice.name) (xpath ++ ("/" ++ choice.name)) = [before, after] ∧
        xpath = before ++ moved ∧
          moved ++ ("/" ++ choice.label) = "/" ++ choice.label ++ after

/-- Each choice has a label in the language, the label replaces only the name of the choice, and no
choice that can be selected has its label overwritten by a choice with another name. -/
structure LabelsStand (language : Option String) (question : SelectMultiple) : Prop where
  labelled : ∀ choice ∈ question.choices, (labelIn language choice.2).isSome
  replaced : ∀ choice ∈ labelledChoices language question, ReplacesName question.xpath choice
  lastName : ∀ choice ∈ labelledChoices language question, ' ' ∉ choice.name.toList →
    ∀ last, lastWithLabel (labelledChoices language question) choice.label = some last →
      last.name = choice.name

/-! ### The names of the columns -/

/-- The label is put in at the end of the xpath exactly when it replaces the name there. -/
theorem choiceColumn_eq_iff (question : SelectMultiple) (name label : String) :
    choiceColumn true ⟨question.xpath ++ "/" ++ name, name, label⟩ = labelColumn question label ↔
      ReplacesName question.xpath ⟨question.xpath ++ "/" ++ name, name, label⟩ := by
  have hne : "/" ++ name ≠ "" := by
    intro h
    have hlength := congrArg (fun text => text.toList.length) h
    have hslash : "/".toList = ['/'] := by decide
    simp only [String.toList_append, hslash, List.length_append, List.length_singleton,
      String.toList_empty, List.length_nil] at hlength
    omega
  unfold choiceColumn labelColumn
  rw [if_pos rfl, String.append_assoc, String.append_assoc]
  exact replaceText_eq_iff hne

/-- A name without a slash that does not follow a slash in the xpath is replaced at the end. -/
theorem replacesName_of_not_infix {xpath : String} {choice : CollectedChoice}
    (hslash : '/' ∉ choice.name.toList) (h : ¬("/" ++ choice.name).toList <:+: xpath.toList) :
    ReplacesName xpath choice := by
  have hold : ("/" ++ choice.name).toList = '/' :: choice.name.toList := by
    rw [String.toList_append]
    rfl
  have hparts : splitItems ("/" ++ choice.name).toList 0
      (xpath.toList ++ (("/" ++ choice.name).toList ++ [])) = [xpath.toList, []] := by
    rw [splitItems_piece (by rw [hold]; exact List.cons_ne_nil _ _)]
    · rfl
    · rw [hold] at h ⊢
      exact not_infix_append_dropLast hslash h
  refine Or.inr ⟨xpath, "", "", ?_, String.append_empty.symm, ?_⟩
  · rw [List.append_nil] at hparts
    unfold splitText
    rw [@String.toList_append xpath, hparts, List.map_cons, List.map_singleton,
      String.ofList_toList]
  · rw [String.empty_append, String.append_empty]

/-- The abbreviated xpath of an element of the survey. -/
theorem getAbbreviatedXpath_eq (question : SelectMultiple) (xpath : String) :
    getAbbreviatedXpath ("/" ++ question.root ++ "/" ++ xpath) = xpath := by
  have hempty : '/' ∉ "".toList := by decide
  have hfirst : splitPath ("/" ++ question.root ++ "/" ++ xpath) =
      "" :: splitPath (question.root ++ "/" ++ xpath) := by
    rw [← splitPath_append "" _ hempty, String.empty_append]
    simp only [String.append_assoc]
  unfold getAbbreviatedXpath
  rw [hfirst, splitPath_append _ _ question.slash_notMem_root]
  exact joinPath_splitPath xpath

/-- The column of a choice in `get_ordered_repeat_value`. -/
theorem repeatColumn_eq_ok {language : Option String} {question : SelectMultiple}
    {choice : String × ChoiceLabel} {column : String} :
    (repeatChoiceXpath true language question choice).map getAbbreviatedXpath = .ok column ↔
      ∃ label, labelIn language choice.2 = some label ∧ labelColumn question label = column := by
  have hcolumn : ∀ label : String,
      getAbbreviatedXpath ("/" ++ question.root ++ "/" ++ question.xpath ++ "/" ++ label) =
        labelColumn question label := by
    intro label
    have h := getAbbreviatedXpath_eq question (labelColumn question label)
    unfold labelColumn at h ⊢
    simp only [String.append_assoc] at h ⊢
    exact h
  unfold repeatChoiceXpath labelIn
  rw [if_pos rfl]
  cases choice.2 with
  | text label =>
      show Except.ok (getAbbreviatedXpath _) = .ok column ↔ _
      rw [hcolumn]
      simp
  | translations labels =>
      cases hlabel : language.bind (Dict.get? labels) with
      | none => simp [Except.map, hlabel]
      | some label =>
          simp only [hlabel]
          show Except.ok (getAbbreviatedXpath _) = .ok column ↔ _
          rw [hcolumn]
          simp

/-- A label in the language is the label that is shown. -/
theorem getChoiceLabel_of_labelIn {language : Option String} {choiceLabel : ChoiceLabel}
    {label : String} (h : labelIn language choiceLabel = some label) (defaultLanguage : String) :
    getChoiceLabel defaultLanguage language choiceLabel = .ok label := by
  cases choiceLabel with
  | text text => exact congrArg Except.ok (Option.some.inj h)
  | translations labels =>
      obtain ⟨chosen, rfl, hlabel⟩ := Option.bind_eq_some_iff.mp h
      have hmem : chosen ∈ Dict.keys labels := by
        by_contra hnew
        rw [Dict.get?_eq_none.mpr hnew] at hlabel
        cases hlabel
      unfold getChoiceLabel
      simp only [hmem, if_true, Option.bind_some, hlabel]

/-- The columns of the choices in `get_ordered_repeat_value`. -/
theorem repeatColumns_eq_ok {language : Option String} {question : SelectMultiple}
    (h : ∀ choice ∈ question.choices, (labelIn language choice.2).isSome) :
    (question.choices.mapM fun choice =>
        (repeatChoiceXpath true language question choice).map getAbbreviatedXpath) =
      .ok ((labelledChoices language question).map fun choice =>
        labelColumn question choice.label) := by
  rw [mapM_eq_ok, labelledChoices, List.map_map, List.forall₂_map_right_iff, List.forall₂_same]
  intro choice hchoice
  obtain ⟨label, hlabel⟩ := Option.isSome_iff_exists.mp (h choice hchoice)
  refine repeatColumn_eq_ok.mpr ⟨label, hlabel, ?_⟩
  show _ = labelColumn question ((labelIn language choice.2).getD "")
  rw [hlabel, Option.getD_some]

/-- The collected choices, when each has a label in the language. -/
theorem collectChoices_eq_ok {language : Option String} {question : SelectMultiple}
    (h : ∀ choice ∈ question.choices, (labelIn language choice.2).isSome)
    (defaultLanguage : String) :
    collectChoices defaultLanguage language question = .ok (labelledChoices language question) := by
  unfold collectChoices
  rw [mapM_eq_ok, labelledChoices, List.forall₂_map_right_iff, List.forall₂_same]
  intro choice hchoice
  obtain ⟨label, hlabel⟩ := Option.isSome_iff_exists.mp (h choice hchoice)
  rw [getChoiceLabel_of_labelIn hlabel, hlabel]
  rfl

/-! ### The value of a column -/

/-- The value of the column of a choice, with labels. -/
def labelValue (options : SplitOptions) (answer : String) (choice : CollectedChoice) : PyValue :=
  if options.valueSelectMultiples then
    if choice.name ∈ splitText " " answer then .str choice.label else .none
  else if options.binarySelectMultiples then
    .int (if choice.name ∈ splitText " " answer then YES else NO)
  else .bool (choice.name ∈ splitText " " answer)

/-- A selected choice has the value of one. -/
theorem labelValue_of_mem {options : SplitOptions} {answer : String} {choice : CollectedChoice}
    (h : choice.name ∈ splitText " " answer) :
    labelValue options answer choice = selectedValue options choice.label := by
  unfold labelValue selectedValue
  simp only [h, if_true, decide_true]

/-- The column of a choice with its label. -/
theorem csvChoiceColumn_label {options : SplitOptions} (hshow : options.showChoiceLabels = true)
    {question : SelectMultiple} {language : Option String} (answer : String)
    {choice : CollectedChoice} (hchoice : choice ∈ labelledChoices language question)
    (hcolumn : choiceColumn true choice = labelColumn question choice.label) :
    csvChoiceColumn options question.xpath answer choice =
      .ok (labelColumn question choice.label, labelValue options answer choice) := by
  obtain ⟨source, _, rfl⟩ := List.mem_map.mp hchoice
  unfold csvChoiceColumn choiceValue labelValue
  rw [hshow, hcolumn]
  simp only [choicePath_mem_map, if_true]
  by_cases hvalue : options.valueSelectMultiples = true
  · simp only [hvalue, if_true]
    split
    · rfl
    · rfl
  · simp only [hvalue, if_false, Bool.false_eq_true]
    split
    · rfl
    · rfl

/-- The columns of a question, with labels. -/
def labelColumns (options : SplitOptions) (question : SelectMultiple) (answer : String)
    (choices : List CollectedChoice) : List (String × PyValue) :=
  choices.map fun choice => (labelColumn question choice.label, labelValue options answer choice)

/-- The value of a column is that of the last choice with its label. -/
theorem get?_labelColumns (options : SplitOptions) (question : SelectMultiple) (answer : String)
    (choices : List CollectedChoice) (label : String) :
    Dict.get? (Dict.update [] (labelColumns options question answer choices))
        (labelColumn question label) =
      (lastWithLabel choices label).map (labelValue options answer) := by
  have hsame : ∀ choice : CollectedChoice,
      labelColumn question choice.label = labelColumn question label ↔ choice.label = label :=
    fun choice => choicePath_inj
  rw [Dict.get?_update, Dict.get?, Option.or_none, labelColumns, ← List.map_reverse,
    List.find?_map]
  unfold lastWithLabel
  simp only [Function.comp_def, hsame]
  cases choices.reverse.find? fun choice => choice.label = label with
  | none => rfl
  | some choice => rfl

/-- There is a last choice with the label of a choice, and it has the label. -/
theorem exists_lastWithLabel {choices : List CollectedChoice} {choice : CollectedChoice}
    (h : choice ∈ choices) :
    ∃ last, lastWithLabel choices choice.label = some last ∧ last.label = choice.label := by
  unfold lastWithLabel
  cases hfind : choices.reverse.find? fun other => other.label = choice.label with
  | none =>
      have hnone := List.find?_eq_none.mp hfind choice (List.mem_reverse.mpr h)
      exact absurd (decide_eq_true rfl) hnone
  | some last => exact ⟨last, rfl, by simpa using List.find?_some hfind⟩

/-! ### Splitting a record -/

section
variable {options : SplitOptions} {question : SelectMultiple} {choices : List CollectedChoice}

/-- The question of a record is split into the columns of its choices. -/
theorem splitSelectMultiple_label {record : List (String × PyValue)} {answer : String}
    (hcolumns : ∀ choice ∈ choices, csvChoiceColumn options question.xpath answer choice =
      .ok (labelColumn question choice.label, labelValue options answer choice))
    (hkey : Dict.get? record question.xpath = some (.str answer)) :
    splitSelectMultiple options record question.xpath choices =
      .ok (Dict.erase (Dict.update record
        (Dict.update [] (labelColumns options question answer choices))) question.xpath) := by
  refine (splitSelectMultiple_eq_ok hkey).mpr
    ⟨labelColumns options question answer choices, ?_, rfl⟩
  rw [labelColumns, List.forall₂_map_right_iff, List.forall₂_same]
  exact hcolumns

/-- No column of a choice is a list. -/
theorem isList_labelValue (options : SplitOptions) (answer : String) (choice : CollectedChoice) :
    (labelValue options answer choice).isList = false := by
  unfold labelValue
  split
  · split
    · rfl
    · rfl
  · split
    · rfl
    · rfl

/-- A record whose answers are texts is split, at any depth. -/
theorem exists_splitWithin
    (hcolumns : ∀ answer, ∀ choice ∈ choices,
      csvChoiceColumn options question.xpath answer choice =
        .ok (labelColumn question choice.label, labelValue options answer choice))
    (fuel : Nat) (record : List (String × PyValue))
    (htexts : TextAnswersWithin question.xpath fuel record) :
    ∃ out, splitSelectMultiplesWithin options [(question.xpath, choices)] fuel record =
      .ok out := by
  induction fuel generalizing record with
  | zero => exact ⟨record, rfl⟩
  | succ fuel ih =>
      have hround : ∃ record', splitSelectMultiple options record question.xpath choices =
          .ok record' ∧ ∀ item ∈ record', item ∈ record ∨ item.2.isList = false := by
        cases hkey : Dict.get? record question.xpath with
        | none =>
            refine ⟨record, ?_, fun item hitem => Or.inl hitem⟩
            unfold splitSelectMultiple
            rw [hkey]
        | some value =>
            have hvalue := htexts.1 value hkey
            cases value with
            | str answer =>
                refine ⟨_, splitSelectMultiple_label (hcolumns answer) hkey, fun item hitem => ?_⟩
                rcases mem_update (List.mem_of_mem_filter hitem) with hitem | hitem
                · exact Or.inl hitem
                · rcases mem_update hitem with hitem | hitem
                  · exact absurd hitem List.not_mem_nil
                  · obtain ⟨choice, _, rfl⟩ := List.mem_map.mp hitem
                    exact Or.inr (isList_labelValue options answer choice)
            | _ => cases hvalue
      obtain ⟨record', hrecord', hitems⟩ := hround
      have hrepeats : ∀ item ∈ record', ∀ values, item.2 = .list values → ∀ nested,
          .dict nested ∈ values → ∃ out, splitSelectMultiplesWithin options
            [(question.xpath, choices)] fuel nested = .ok out := by
        intro item hitem values hvalues nested hnested
        rcases hitems item hitem with hmem | hlist
        · exact ih nested (htexts.2 item hmem values hvalues nested hnested)
        · rw [hvalues] at hlist
          cases hlist
      obtain ⟨out, hout⟩ := exists_mapM_splitRepeat hrepeats
      refine ⟨out, ?_⟩
      rw [splitSelectMultiplesWithin_succ, hrecord']
      exact hout

/-- The value of the column of a choice, in a record that was split. -/
theorem get?_splitWithin {record csv : List (String × PyValue)} {answer : String} {fuel : Nat}
    (hcolumns : ∀ choice ∈ choices, csvChoiceColumn options question.xpath answer choice =
      .ok (labelColumn question choice.label, labelValue options answer choice))
    (hkey : Dict.get? record question.xpath = some (.str answer))
    (hcsv : splitSelectMultiplesWithin options [(question.xpath, choices)] (fuel + 1) record =
      .ok csv) {choice last : CollectedChoice}
    (hlast : lastWithLabel choices choice.label = some last) :
    Dict.get? csv (labelColumn question choice.label) =
      some (labelValue options answer last) := by
  rw [splitSelectMultiplesWithin_succ, splitSelectMultiple_label hcolumns hkey] at hcsv
  refine get?_mapM_splitRepeat hcsv (isList_labelValue options answer last) ?_
  have hne : labelColumn question choice.label ≠ question.xpath :=
    choicePath_ne question.xpath choice.label
  rw [get?_erase_of_ne hne]
  have hnil : (Dict.keys ([] : List (String × PyValue))).Nodup := List.nodup_nil
  refine get?_update_of_get? (Dict.nodup_keys_update hnil _) ?_
  rw [get?_labelColumns, hlast]
  rfl

end

/-- A part between spaces has no space. -/
theorem space_notMem_part {part answer : String} (h : part ∈ splitText " " answer) :
    ' ' ∉ part.toList := by
  have hitems : ∀ (cs piece : List Char), piece ∈ splitItems [' '] 0 cs → ' ' ∉ piece := by
    intro cs
    induction cs with
    | nil =>
        intro piece hpiece
        rw [List.mem_singleton.mp hpiece]
        exact List.not_mem_nil
    | cons c cs ih =>
        intro piece hpiece
        rw [splitItems] at hpiece
        split at hpiece
        · rcases List.mem_cons.mp hpiece with rfl | hpiece
          · exact List.not_mem_nil
          · exact ih piece hpiece
        · rename_i hstart
          have hc : ' ' ≠ c := fun heq => hstart ⟨cs, heq ▸ rfl⟩
          obtain ⟨first, pieces, hpieces⟩ :=
            List.exists_cons_of_ne_nil (splitItems_ne_nil [' '] 0 cs)
          rw [hpieces, List.modifyHead_cons] at hpiece
          rw [hpieces] at ih
          rcases List.mem_cons.mp hpiece with rfl | hpiece
          · exact fun hmem => (List.mem_cons.mp hmem).elim hc (ih first List.mem_cons_self)
          · exact ih piece (List.mem_cons_of_mem first hpiece)
  obtain ⟨piece, hpiece, rfl⟩ := List.mem_map.mp h
  rw [String.toList_ofList]
  exact hitems _ piece hpiece

/-- A text without a space is its only part. -/
theorem splitText_of_space_notMem {text : String} (h : ' ' ∉ text.toList) :
    splitText " " text = [text] := by
  have hspace : " ".toList = [' '] := by decide
  have hnot : ¬[' '] <:+: text.toList :=
    fun hword => h (hword.subset (List.mem_singleton_self ' '))
  unfold splitText
  rw [hspace, splitItems_last hnot, List.map_singleton, String.ofList_toList]

/-- The choices of a question in a repeat, in a record that was split. -/
theorem get?_orderedRepeatChoices {language : Option String} {question : SelectMultiple}
    (h : ∀ choice ∈ question.choices, (labelIn language choice.2).isSome)
    (record : List (String × PyValue)) :
    ∃ item, orderedRepeatChoices true language question record = .ok item ∧
      ∀ choice ∈ labelledChoices language question, ∀ value,
        Dict.get? record (labelColumn question choice.label) = some value →
          Dict.get? item (labelColumn question choice.label) = some value := by
  -- the value that is copied to a column
  let cell : String → String × PyValue := fun column =>
    (column, (Dict.get? record column).getD (.str DEFAULT_NA_REP))
  let columns : List String :=
    (labelledChoices language question).map fun choice => labelColumn question choice.label
  have hrun : orderedRepeatChoices true language question record =
      .ok (Dict.update [] (columns.map cell)) := by
    have hrounds : orderedRepeatChoices true language question record =
        question.choices.foldlM (fun item choice =>
          ((repeatChoiceXpath true language question choice).map getAbbreviatedXpath).map
            fun column => Dict.insert item (cell column).1 (cell column).2) [] := by
      unfold orderedRepeatChoices
      refine congrArg (fun round => question.choices.foldlM round []) ?_
      funext item choice
      cases repeatChoiceXpath true language question choice with
      | error e => rfl
      | ok xpath => rfl
    rw [hrounds, foldlM_map, repeatColumns_eq_ok h, Dict.update, List.foldl_map]
    rfl
  refine ⟨_, hrun, fun choice hchoice value hvalue => ?_⟩
  refine get?_update_of_mem ?_ fun item hitem hkey => ?_
  · refine List.mem_map.mpr ⟨_, List.mem_map.mpr ⟨choice, hchoice, rfl⟩, ?_⟩
    show (_, (Dict.get? record _).getD _) = _
    rw [hvalue]
    rfl
  · obtain ⟨column, _, rfl⟩ := List.mem_map.mp hitem
    show (Dict.get? record column).getD _ = value
    rw [show column = labelColumn question choice.label from hkey, hvalue]
    rfl

/-! ### All choices -/

/-- All places name the column of a choice after its label, and no selected choice is lost, exactly
when each choice has a label, the label replaces only the name, and no other choice overwrites
it. -/
theorem labelColumnsRight_iff (defaultLanguage : String) (language : Option String)
    (question : SelectMultiple) :
    (∃ choices, LabelColumnsRight defaultLanguage language question choices) ↔
      LabelsStand language question := by
  constructor
  · intro ⟨choices, h⟩
    have hlabelled : ∀ choice ∈ question.choices, (labelIn language choice.2).isSome := by
      intro choice hchoice
      obtain ⟨column, _, hcolumn⟩ := mem_mapM_of_mem h.repeats hchoice
      obtain ⟨label, hlabel, _⟩ := repeatColumn_eq_ok.mp hcolumn
      rw [hlabel]
      rfl
    have hchoices : choices = labelledChoices language question := by
      have hcollected := h.collected
      rw [collectChoices_eq_ok hlabelled defaultLanguage] at hcollected
      exact (Except.ok.inj hcollected).symm
    subst hchoices
    refine ⟨hlabelled, fun choice hchoice => ?_, fun choice hchoice hspace last hlast => ?_⟩
    · have hsplit := h.split choice hchoice
      obtain ⟨source, _, rfl⟩ := List.mem_map.mp hchoice
      exact (choiceColumn_eq_iff question source.1 _).mp hsplit
    · -- the answer is the name of the choice
      have hcolumns : ∀ other ∈ labelledChoices language question,
          csvChoiceColumn { showChoiceLabels := true } question.xpath choice.name other =
            .ok (labelColumn question other.label,
              labelValue { showChoiceLabels := true } choice.name other) :=
        fun other hother => csvChoiceColumn_label rfl choice.name hother (h.split other hother)
      have hparts := splitText_of_space_notMem hspace
      have hkey : Dict.get? [(question.xpath, PyValue.str choice.name)] question.xpath =
          some (.str choice.name) := by
        rw [Dict.get?, if_pos rfl]
      have htexts : TextAnswersWithin question.xpath 1
          [(question.xpath, PyValue.str choice.name)] := by
        refine ⟨fun value hvalue => ?_, fun item hitem values hvalues => ?_⟩
        · rw [← Option.some.inj (hkey.symm.trans hvalue)]
          rfl
        · rw [List.mem_singleton.mp hitem] at hvalues
          cases hvalues
      have hdepth : (PyValue.dict [(question.xpath, .str choice.name)]).depth ≤ 1 := Nat.le_refl 1
      obtain ⟨csv, _, hcsv, _, hvalues⟩ := h.kept { showChoiceLabels := true } _ choice.name 1
        rfl hdepth hkey htexts
      have hselected : choice.name ∈ splitText " " choice.name := by
        rw [hparts]
        exact List.mem_singleton_self _
      have hvalue := (hvalues choice hchoice hselected).1
      rw [get?_splitWithin hcolumns hkey hcsv hlast] at hvalue
      have hbool : decide (last.name ∈ splitText " " choice.name) = true :=
        PyValue.bool.inj (Option.some.inj hvalue)
      rw [hparts, decide_eq_true_eq, List.mem_singleton] at hbool
      exact hbool
  · intro h
    have hcolumn : ∀ choice ∈ labelledChoices language question,
        choiceColumn true choice = labelColumn question choice.label := by
      intro choice hchoice
      have hreplaced := h.replaced choice hchoice
      obtain ⟨source, _, rfl⟩ := List.mem_map.mp hchoice
      exact (choiceColumn_eq_iff question source.1 _).mpr hreplaced
    refine ⟨labelledChoices language question, ?_⟩
    exact {
      collected := collectChoices_eq_ok h.labelled defaultLanguage
      split := hcolumn
      ordered := congrArg removeDups (List.map_congr_left hcolumn)
      repeats := repeatColumns_eq_ok h.labelled
      different := by
        intro choice hchoice other hother hlabel
        rw [hcolumn choice hchoice, hcolumn other hother]
        exact fun heq => hlabel (choicePath_inj.mp heq)
      kept := by
        intro options record answer fuel hshow hfuel hkey htexts
        have hcolumns : ∀ answer, ∀ choice ∈ labelledChoices language question,
            csvChoiceColumn options question.xpath answer choice =
              .ok (labelColumn question choice.label, labelValue options answer choice) :=
          fun answer choice hchoice =>
            csvChoiceColumn_label hshow answer hchoice (hcolumn choice hchoice)
        obtain ⟨csv, hcsv⟩ := exists_splitWithin hcolumns fuel record htexts
        obtain ⟨item, hitem, hcells⟩ := get?_orderedRepeatChoices h.labelled csv
        refine ⟨csv, item, hcsv, hitem, fun choice hchoice hselected => ?_⟩
        obtain ⟨last, hlast, hlabel⟩ := exists_lastWithLabel hchoice
        have hname := h.lastName choice hchoice (space_notMem_part hselected) last hlast
        have hvalue : Dict.get? csv (labelColumn question choice.label) =
            some (selectedValue options choice.label) := by
          cases fuel with
          | zero => exact absurd hfuel (by rw [PyValue.depth]; omega)
          | succ fuel =>
              rw [get?_splitWithin (hcolumns answer) hkey hcsv hlast,
                labelValue_of_mem (by rw [hname]; exact hselected), hlabel]
        exact ⟨hvalue, hcells choice hchoice _ hvalue⟩ }

/-! ### A name in the xpath of its question -/

/-- The name `a` is replaced in the group or question name `a_tree`, too. -/
theorem not_labelColumnsRight_tree :
    ¬∀ (defaultLanguage : String) (language : Option String) (question : SelectMultiple),
      ∃ choices, LabelColumnsRight defaultLanguage language question choices := by
  intro h
  have hroot : '/' ∉ "data".toList := by decide
  obtain ⟨choices, hright⟩ :=
    h "default" none ⟨"data", "fruit/a_tree", [("a", .text "Apple")], hroot⟩
  have hcollected : choices = [⟨"fruit/a_tree" ++ "/" ++ "a", "a", "Apple"⟩] :=
    (Except.ok.inj hright.collected).symm
  have hcolumn := hright.split ⟨"fruit/a_tree" ++ "/" ++ "a", "a", "Apple"⟩
    (hcollected ▸ List.mem_cons_self)
  have hother : choiceColumn true ⟨"fruit/a_tree" ++ "/" ++ "a", "a", "Apple"⟩ ≠
      "fruit/a_tree" ++ "/" ++ "Apple" := by
    decide +kernel
  exact hother hcolumn

end Onadata.Proofs
