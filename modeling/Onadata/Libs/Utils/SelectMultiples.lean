import Onadata.Lib.PyDict
import Onadata.Lib.SlashPath
import Onadata.Lib.TextParts
import Onadata.Libs.Utils.CsvBuilder

/-!
# `Onadata.Libs.Utils.SelectMultiples`: the columns of select multiples

How `CSVDataFrameBuilder` of `libs/utils/csv_builder.py` and `ExportBuilder` of
`libs/utils/export_builder.py` split the answer of a select multiple into a column for each choice.

A choice of `select_multiples` has the xpath of its question, `/` and its name as its own xpath.
Left out: the choices of an itemset, which get the same xpaths, and choices without a label.
-/

set_option autoImplicit false

namespace Onadata

open Onadata.Lib

/-! ### The choices of a question -/

/-- The label of a choice: a text, or a text for each language. -/
inductive ChoiceLabel
  | text (label : String)
  | translations (labels : List (String × String))

/-- A select multiple, with the name of its survey, its abbreviated xpath and its choices. -/
structure SelectMultiple where
  root : String
  xpath : String
  choices : List (String × ChoiceLabel)
  slash_notMem_root : '/' ∉ root.toList

/-- A choice in the dict of `_collect_select_multiples`. -/
structure CollectedChoice where
  choice : String
  name : String
  label : String

/-- `XForm.get_language(languages)`. -/
def getLanguage (defaultLanguage : String) (languages : List String) : Option String :=
  if defaultLanguage ∈ languages then some defaultLanguage else languages.head?

/-- `get_choice_label`. -/
def getChoiceLabel (defaultLanguage : String) (language : Option String) :
    ChoiceLabel → Except PyError String
  | .text label => .ok label
  | .translations labels =>
      let languages := Dict.keys labels
      let chosen :=
        match language with
        | some language => if language ∈ languages then some language
            else getLanguage defaultLanguage languages
        | none => getLanguage defaultLanguage languages
      match chosen.bind (Dict.get? labels) with
      | some label => .ok label
      | none => .error .keyError

/-- The choices of a question in `_collect_select_multiples`. -/
def collectChoices (defaultLanguage : String) (language : Option String)
    (question : SelectMultiple) : Except PyError (List CollectedChoice) :=
  question.choices.mapM fun choice => do
    let label ← getChoiceLabel defaultLanguage language choice.2
    return ⟨question.xpath ++ "/" ++ choice.1, choice.1, label⟩

/-! ### `CSVDataFrameBuilder` -/

def YES : Nat := 1

def NO : Nat := 0

/-- The options of `_split_select_multiples`. -/
structure SplitOptions where
  binarySelectMultiples : Bool := false
  valueSelectMultiples : Bool := false
  showChoiceLabels : Bool := false

/-- `choice.replace("/" + name, "/" + label) if show_choice_labels else choice`. -/
def choiceColumn (showChoiceLabels : Bool) (choice : CollectedChoice) : String :=
  if showChoiceLabels then replaceText ("/" ++ choice.name) ("/" ++ choice.label) choice.choice
  else choice.choice

/-- The value of the column of a choice. -/
def choiceValue (options : SplitOptions) (answer : String) (selections : List String)
    (choice : CollectedChoice) : Except PyError PyValue :=
  if options.valueSelectMultiples then
    if choice.choice ∈ selections then
      if options.showChoiceLabels then .ok (.str choice.label)
      else
        match (words answer)[selections.idxOf choice.choice]? with
        | some word => .ok (.str word)
        | none => .error .indexError
    else .ok .none
  else if options.binarySelectMultiples then
    .ok (.int (if choice.choice ∈ selections then YES else NO))
  else .ok (.bool (choice.choice ∈ selections))

/-- A round of the loop of `_split_select_multiples`, without the repeats. -/
def splitSelectMultiple (options : SplitOptions) (record : List (String × PyValue)) (key : String)
    (choices : List CollectedChoice) : Except PyError (List (String × PyValue)) :=
  match Dict.get? record key with
  | none => .ok record
  | some (.str answer) => do
      let selections := (splitText " " answer).map fun r => key ++ "/" ++ r
      let columns ← choices.mapM fun choice => do
        let value ← choiceValue options answer selections choice
        return (choiceColumn options.showChoiceLabels choice, value)
      return Dict.erase (Dict.update record (Dict.update [] columns)) key
  | some _ => .error .attributeError

/-- An item of a list in a record: a dict is split. -/
def splitListItem
    (split : List (String × PyValue) → Except PyError (List (String × PyValue))) :
    PyValue → Except PyError PyValue
  | .dict nested => do
      let nested ← split nested
      return .dict nested
  | listItem => .ok listItem

/-- A value of a record: the dicts of a list are split. -/
def splitRepeat
    (split : List (String × PyValue) → Except PyError (List (String × PyValue)))
    (item : String × PyValue) : Except PyError (String × PyValue) :=
  match item.2 with
  | .list items => do
      let items ← items.mapM (splitListItem split)
      return (item.1, .list items)
  | _ => .ok item

section
variable (options : SplitOptions) (selectMultiples : List (String × List CollectedChoice))

/-- `_split_select_multiples`. `fuel` bounds how deep repeats are nested in the record. -/
def splitSelectMultiplesWithin :
    Nat → List (String × PyValue) → Except PyError (List (String × PyValue))
  | 0, record => .ok record
  | fuel + 1, record =>
      selectMultiples.foldlM (fun record question => do
        let record ← splitSelectMultiple options record question.1 question.2
        record.mapM (splitRepeat (splitSelectMultiplesWithin fuel))) record

/-- `_split_select_multiples`, with enough fuel for the record. -/
def csvSplitSelectMultiples (record : List (String × PyValue)) :
    Except PyError (List (String × PyValue)) :=
  splitSelectMultiplesWithin options selectMultiples (PyValue.dict record).depth record

end

/-- `remove_dups_from_list_maintain_order`. -/
def removeDups (columns : List String) : List String :=
  Dict.keys (Dict.update [] (columns.map fun column => (column, ())))

/-- The columns of a question in `_add_ordered_columns_for_select_multiples`. -/
def orderedChoiceColumns (showChoiceLabels : Bool) (choices : List CollectedChoice) :
    List String :=
  removeDups (choices.map (choiceColumn showChoiceLabels))

/-- `get_abbreviated_xpath`. -/
def getAbbreviatedXpath (xpath : String) : String :=
  joinPath ((splitPath xpath).drop 2)

/-- The xpath of the column of a choice in `get_ordered_repeat_value`. -/
def repeatChoiceXpath (showChoiceLabels : Bool) (language : Option String)
    (question : SelectMultiple) (choice : String × ChoiceLabel) : Except PyError String :=
  let elemXpath := "/" ++ question.root ++ "/" ++ question.xpath
  if showChoiceLabels then
    match choice.2 with
    | .text label => .ok (elemXpath ++ "/" ++ label)
    | .translations labels =>
        match language.bind (Dict.get? labels) with
        | some label => .ok (elemXpath ++ "/" ++ label)
        | none => .error .keyError
  else .ok (elemXpath ++ "/" ++ choice.1)

/-- The loop of `get_ordered_repeat_value` over the choices of a question. -/
def orderedRepeatChoices (showChoiceLabels : Bool) (language : Option String)
    (question : SelectMultiple) (repeatValue : List (String × PyValue)) :
    Except PyError (List (String × PyValue)) :=
  question.choices.foldlM (fun item choice => do
    let choiceXpath ← repeatChoiceXpath showChoiceLabels language question choice
    let key := getAbbreviatedXpath choiceXpath
    return Dict.insert item key ((Dict.get? repeatValue key).getD (.str DEFAULT_NA_REP))) []

/-! ### `ExportBuilder` -/

/-- A choice in the `select_multiples` of a section: `choice["xpath"]`, `choice["label"]` and
`choice["_label"]`. -/
structure ExportChoice where
  xpath : String
  label : String
  ownLabel : String

/-- The options of `split_select_multiples`. -/
structure ExportSplitOptions where
  selectValues : Bool := false
  binarySelectMultiples : Bool := false
  showChoiceLabels : Bool := false

/-- The column of a choice, and its value. -/
def exportChoiceColumn (options : ExportSplitOptions) (data : String) (selections : List String)
    (choice : ExportChoice) : Except PyError (String × PyValue) :=
  let selected := choice.xpath ∈ selections
  let column := if options.showChoiceLabels then choice.label else choice.xpath
  if options.selectValues then
    if options.showChoiceLabels then
      .ok (column, if selected then .str choice.ownLabel else .none)
    else if selected then
      match (words data)[selections.idxOf choice.xpath]? with
      | some word => .ok (column, .str word)
      | none => .error .indexError
    else .ok (column, .none)
  else if options.binarySelectMultiples then .ok (column, .int (if selected then YES else NO))
  else .ok (column, if selections ≠ [] then .bool selected else .none)

section
variable (options : ExportSplitOptions) (pyStr : PyValue → String)
  (choiceLabelValue : String → String → PyValue)

/-- A round of the loop of `split_select_multiples`. `pyStr` is `str` of a value that is no text,
and `choiceLabelValue` is `get_choice_label_value` of the form. -/
def exportSplitSelectMultiple (row : List (String × PyValue)) (xpath : String)
    (choices : List ExportChoice) : Except PyError (List (String × PyValue)) := do
  let data :=
    match Dict.get? row xpath with
    | some (.str answer) => answer
    | some value => if value.truthy then pyStr value else ""
    | none => ""
  let selections := (words data).map fun selection => xpath ++ "/" ++ selection
  let row :=
    if data ≠ "" ∧ options.showChoiceLabels then
      Dict.insert row xpath (choiceLabelValue xpath data)
    else row
  let columns ← choices.mapM (exportChoiceColumn options data selections)
  return Dict.update row (Dict.update [] columns)

/-- `split_select_multiples`. -/
def exportSplitSelectMultiples (row : List (String × PyValue))
    (selectMultiples : List (String × List ExportChoice)) :
    Except PyError (List (String × PyValue)) :=
  selectMultiples.foldlM (fun row question =>
    exportSplitSelectMultiple options pyStr choiceLabelValue row question.1 question.2) row

end

end Onadata
