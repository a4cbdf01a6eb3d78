import Onadata.Proofs.Libs.Utils.SelectMultiples

/-!
# `Onadata.Proofs.Libs.Utils.ValueMode`: the names of the selected choices

In the value mode, the column of a selected choice has the name of the choice. The answer is a list
of words. `ExportBuilder` splits it into words (`exportColumn_eq`). `CSVDataFrameBuilder` looks a
choice up among the parts between single spaces, and takes the word at the position of this part.

`valueModeRight_iff` says when this is the name of the choice.
-/

set_option autoImplicit false

namespace Onadata.Proofs

open Onadata.Lib

/-- The value that a choice should have: its name, when it is a word of the answer. -/
def ownName (answer name : String) : PyValue :=
  if name ∈ words answer then .str name else .none

/-- A choice that is a word of the answer is a part between spaces. The word at the position of
this part is the choice. -/
def StandsAtPosition (answer name : String) : Prop :=
  (name ∈ words answer → name ∈ splitText " " answer) ∧
    (name ∈ splitText " " answer →
      (words answer)[(splitText " " answer).idxOf name]? = some name)

/-- The choices, with their names and labels, in `CSVDataFrameBuilder`. -/
def csvChoices (xpath : String) (choices : List (String × String)) : List CollectedChoice :=
  choices.map fun choice => ⟨xpath ++ "/" ++ choice.1, choice.1, choice.2⟩

/-- The choices, with their names and labels, in `ExportBuilder`. -/
def exportChoices (xpath : String) (choices : List (String × String)) : List ExportChoice :=
  choices.map fun choice => ⟨xpath ++ "/" ++ choice.1, choice.2, choice.2⟩

section
variable (pyStr : PyValue → String) (choiceLabelValue : String → String → PyValue)

/-- In each record without repeats, both exporters give each choice its value. -/
def ValueModeRight (xpath answer : String) (choices : List (String × String)) : Prop :=
  ∀ record, FlatRecord record → Dict.get? record xpath = some (.str answer) →
    ∃ csv row,
      csvSplitSelectMultiples { valueSelectMultiples := true } [(xpath, csvChoices xpath choices)]
        record = .ok csv ∧
      exportSplitSelectMultiples { selectValues := true } pyStr choiceLabelValue record
        [(xpath, exportChoices xpath choices)] = .ok row ∧
      ∀ choice ∈ choices,
        Dict.get? csv (xpath ++ "/" ++ choice.1) = some (ownName answer choice.1) ∧
        Dict.get? row (xpath ++ "/" ++ choice.1) = Dict.get? csv (xpath ++ "/" ++ choice.1)

end

/-! ### One choice -/

/-- The value of a choice in `CSVDataFrameBuilder`. -/
theorem choiceValue_eq (xpath answer : String) (choice : String × String) :
    choiceValue { valueSelectMultiples := true } answer
        ((splitText " " answer).map fun r => xpath ++ "/" ++ r)
        ⟨xpath ++ "/" ++ choice.1, choice.1, choice.2⟩ =
      if choice.1 ∈ splitText " " answer then
        (words answer)[(splitText " " answer).idxOf choice.1]?.elim (.error .indexError)
          fun word => .ok (.str word)
      else .ok .none := by
  unfold choiceValue
  simp only [choicePath_mem_map, idxOf_choicePath, if_true, Bool.false_eq_true, if_false]
  split
  · cases (words answer)[(splitText " " answer).idxOf choice.1]? with
    | none => rfl
    | some word => rfl
  · rfl

/-- `CSVDataFrameBuilder` gives a choice its value if the choice stands at its position. -/
theorem choiceValue_eq_iff (xpath answer : String) (choice : String × String) :
    choiceValue { valueSelectMultiples := true } answer
        ((splitText " " answer).map fun r => xpath ++ "/" ++ r)
        ⟨xpath ++ "/" ++ choice.1, choice.1, choice.2⟩ = .ok (ownName answer choice.1) ↔
      StandsAtPosition answer choice.1 := by
  rw [choiceValue_eq]
  unfold StandsAtPosition ownName
  by_cases hpart : choice.1 ∈ splitText " " answer
  · rw [if_pos hpart]
    simp only [hpart, implies_true, true_and, forall_const]
    cases hword : (words answer)[(splitText " " answer).idxOf choice.1]? with
    | none => exact iff_of_false (fun h => by cases h) (fun h => by cases h)
    | some word =>
        show Except.ok (PyValue.str word) = _ ↔ some word = some choice.1
        by_cases hmem : choice.1 ∈ words answer
        · rw [if_pos hmem]
          exact ⟨fun h => by cases h; rfl, fun h => by cases h; rfl⟩
        · rw [if_neg hmem]
          refine iff_of_false (fun h => by cases h) fun h => hmem ?_
          rw [← Option.some.inj h]
          exact List.mem_of_getElem? hword
  · rw [if_neg hpart]
    simp only [hpart, imp_false, false_implies, and_true]
    by_cases hmem : choice.1 ∈ words answer
    · rw [if_pos hmem]
      exact iff_of_false (fun h => by cases h) (not_not_intro hmem)
    · rw [if_neg hmem]
      exact iff_of_true rfl hmem

/-- `ExportBuilder` gives each choice its value. -/
theorem exportChoiceColumn_eq (xpath answer : String) (choice : String × String) :
    exportChoiceColumn { selectValues := true } answer
        ((words answer).map fun selection => xpath ++ "/" ++ selection)
        ⟨xpath ++ "/" ++ choice.1, choice.2, choice.2⟩ =
      .ok (xpath ++ "/" ++ choice.1, ownName answer choice.1) := by
  unfold exportChoiceColumn ownName
  simp only [choicePath_mem_map, idxOf_choicePath, if_true, Bool.false_eq_true, if_false]
  split
  · rename_i hmem
    have hword : (words answer)[(words answer).idxOf choice.1]? = some choice.1 :=
      List.getElem?_idxOf hmem
    rw [hword]
  · rfl

/-- The column of a choice in `CSVDataFrameBuilder`. -/
theorem csvChoiceColumn_eq_ok {xpath answer : String} {choice : String × String}
    {column : String × PyValue} :
    csvChoiceColumn { valueSelectMultiples := true } xpath answer
        ⟨xpath ++ "/" ++ choice.1, choice.1, choice.2⟩ = .ok column ↔
      column.1 = xpath ++ "/" ++ choice.1 ∧
        choiceValue { valueSelectMultiples := true } answer
          ((splitText " " answer).map fun r => xpath ++ "/" ++ r)
          ⟨xpath ++ "/" ++ choice.1, choice.1, choice.2⟩ = .ok column.2 := by
  unfold csvChoiceColumn
  rw [bind_eq_ok]
  constructor
  · intro ⟨value, hvalue, heq⟩
    cases heq
    exact ⟨rfl, hvalue⟩
  · intro ⟨hcolumn, hvalue⟩
    refine ⟨column.2, hvalue, ?_⟩
    show Except.ok (xpath ++ "/" ++ choice.1, column.2) = .ok column
    rw [← hcolumn]

/-! ### All choices -/

/-- The columns that a question should have. -/
def ownColumns (xpath answer : String) (choices : List (String × String)) :
    List (String × PyValue) :=
  choices.map fun choice => (xpath ++ "/" ++ choice.1, ownName answer choice.1)

/-- The value of a column. -/
theorem get?_update_ownColumns {record : List (String × PyValue)} {xpath answer : String}
    {choices : List (String × String)} {choice : String × String} (hchoice : choice ∈ choices) :
    Dict.get? (Dict.update record (Dict.update [] (ownColumns xpath answer choices)))
      (xpath ++ "/" ++ choice.1) = some (ownName answer choice.1) := by
  refine get?_update_columns (List.mem_map.mpr ⟨choice, hchoice, rfl⟩) fun item hitem hkey => ?_
  obtain ⟨other, _, rfl⟩ := List.mem_map.mp hitem
  rw [choicePath_inj.mp hkey]

/-- The run of `ExportBuilder`. -/
theorem exportSplitSelectMultiples_eq (pyStr : PyValue → String)
    (choiceLabelValue : String → String → PyValue) {record : List (String × PyValue)}
    {xpath answer : String} (hkey : Dict.get? record xpath = some (.str answer))
    (choices : List (String × String)) :
    exportSplitSelectMultiples { selectValues := true } pyStr choiceLabelValue record
        [(xpath, exportChoices xpath choices)] =
      .ok (Dict.update record (Dict.update [] (ownColumns xpath answer choices))) := by
  have hcolumns : (exportChoices xpath choices).mapM (exportChoiceColumn { selectValues := true }
      answer ((words answer).map fun selection => xpath ++ "/" ++ selection)) =
      .ok (ownColumns xpath answer choices) := by
    rw [mapM_eq_ok, exportChoices, ownColumns, List.forall₂_map_left_iff,
      List.forall₂_map_right_iff, List.forall₂_same]
    exact fun choice _ => exportChoiceColumn_eq xpath answer choice
  unfold exportSplitSelectMultiples
  rw [List.foldlM_cons]
  simp only [List.foldlM_nil, bind_pure]
  unfold exportSplitSelectMultiple
  simp only [hkey, Bool.false_eq_true, and_false, if_false, hcolumns]
  rfl

/-- Both exporters give each choice its value exactly when each choice stands at its position. -/
theorem valueModeRight_iff (pyStr : PyValue → String)
    (choiceLabelValue : String → String → PyValue) (xpath answer : String)
    (choices : List (String × String)) :
    ValueModeRight pyStr choiceLabelValue xpath answer choices ↔
      ∀ choice ∈ choices, StandsAtPosition answer choice.1 := by
  constructor
  · intro h choice hchoice
    have hflat : FlatRecord [(xpath, .str answer)] := by
      intro item hitem
      rw [List.mem_singleton.mp hitem]
      rfl
    have hkey : Dict.get? [(xpath, PyValue.str answer)] xpath = some (.str answer) := by
      rw [Dict.get?, if_pos rfl]
    obtain ⟨csv, row, hcsv, _, hvalues⟩ := h _ hflat hkey
    obtain ⟨columns, hcolumns, rfl⟩ := (csvSplitSelectMultiples_eq_ok hflat hkey).mp hcsv
    have hmem : CollectedChoice.mk (xpath ++ "/" ++ choice.1) choice.1 choice.2 ∈
        csvChoices xpath choices := List.mem_map.mpr ⟨choice, hchoice, rfl⟩
    obtain ⟨column, hcolumn, hchoiceColumn⟩ := exists_of_mem_left hcolumns hmem
    obtain ⟨hname, hvalue⟩ := csvChoiceColumn_eq_ok.mp hchoiceColumn
    -- all choices with this name have the same value
    have hsame : ∀ item ∈ columns, item.1 = xpath ++ "/" ++ choice.1 → item.2 = column.2 := by
      intro item hitem hitemName
      obtain ⟨other, hother, hotherColumn⟩ := exists_of_mem_right hcolumns hitem
      obtain ⟨otherChoice, _, rfl⟩ := List.mem_map.mp hother
      obtain ⟨hotherName, hotherValue⟩ := csvChoiceColumn_eq_ok.mp hotherColumn
      rw [hitemName] at hotherName
      rw [choiceValue_eq, ← choicePath_inj.mp hotherName, ← choiceValue_eq, hvalue] at hotherValue
      exact (Except.ok.inj hotherValue).symm
    have hcolumn : (xpath ++ "/" ++ choice.1, column.2) ∈ columns := by
      rw [← hname]
      exact hcolumn
    have hget := @get?_update_columns [(xpath, .str answer)] columns _ _ hcolumn hsame
    have hown := (hvalues choice hchoice).1
    rw [get?_erase_of_ne (choicePath_ne xpath choice.1), hget] at hown
    rw [Option.some.inj hown] at hvalue
    exact (choiceValue_eq_iff xpath answer choice).mp hvalue
  · intro h record hflat hkey
    have hcolumns : List.Forall₂ (fun choice column =>
        csvChoiceColumn { valueSelectMultiples := true } xpath answer choice = .ok column)
        (csvChoices xpath choices) (ownColumns xpath answer choices) := by
      rw [csvChoices, ownColumns, List.forall₂_map_left_iff, List.forall₂_map_right_iff,
        List.forall₂_same]
      intro choice hchoice
      exact csvChoiceColumn_eq_ok.mpr
        ⟨rfl, (choiceValue_eq_iff xpath answer choice).mpr (h choice hchoice)⟩
    refine ⟨_, _, (csvSplitSelectMultiples_eq_ok hflat hkey).mpr ⟨_, hcolumns, rfl⟩,
      exportSplitSelectMultiples_eq pyStr choiceLabelValue hkey choices, fun choice hchoice => ?_⟩
    rw [get?_erase_of_ne (choicePath_ne xpath choice.1), get?_update_ownColumns hchoice]
    exact ⟨rfl, rfl⟩

/-! ### A leading space -/

/-- A choice after a leading space is an `IndexError`. -/
theorem not_valueModeRight_leading :
    ¬∀ (pyStr : PyValue → String) (choiceLabelValue : String → String → PyValue)
      (xpath answer : String) (choices : List (String × String)),
      ValueModeRight pyStr choiceLabelValue xpath answer choices := by
  intro h
  have hflat : FlatRecord [("fruit", .str " a")] := by
    intro item hitem
    rw [List.mem_singleton.mp hitem]
    rfl
  have hkey : Dict.get? [("fruit", PyValue.str " a")] "fruit" = some (.str " a") := rfl
  obtain ⟨csv, _, hcsv, _⟩ :=
    h (fun _ => "") (fun _ _ => .none) "fruit" " a" [("a", "Apple")] _ hflat hkey
  obtain ⟨columns, hcolumns, _⟩ := (csvSplitSelectMultiples_eq_ok hflat hkey).mp hcsv
  obtain ⟨column, _, hcolumn⟩ := exists_of_mem_left hcolumns List.mem_cons_self
  have hvalue := (@csvChoiceColumn_eq_ok "fruit" " a" ("a", "Apple") column).mp hcolumn
  have hpart : "a" ∈ splitText " " " a" := by decide +kernel
  have hword : (words " a")[(splitText " " " a").idxOf "a"]? = none := by decide +kernel
  rw [choiceValue_eq, if_pos hpart, hword] at hvalue
  cases hvalue.2

end Onadata.Proofs
