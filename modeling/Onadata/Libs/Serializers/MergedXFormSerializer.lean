import Mathlib.Data.List.Dedup
import Onadata.Lib.PyDict
import Onadata.Lib.PyText
import Onadata.Lib.SlashPath

/-!
# `Onadata.Libs.Serializers.MergedXFormSerializer`: the form of a merged dataset

`get_merged_xform_survey` of `libs/serializers/merged_xform_serializer.py`, on the dicts that
`to_json_dict` makes of the surveys. What pyxform builds from the merged dict is outside.

A choice is its name and the JSON text of its other entries, with sorted keys. Of a set of
texts, the first occurrence of each is taken.

Left out: the entries of the survey's dict that the merge does not read, and the survey
elements of a form being those of its stored JSON, which are the ones of its XLSForm.
-/

set_option autoImplicit false

namespace Onadata

open Onadata.Lib

/-- A choice of a question. -/
structure ChoiceDict where
  name : String
  others : String := ""
  deriving DecidableEq, Repr

/-- The entries of an element: `others` are those that the merge copies only. -/
structure ElementEntries where
  name : String
  bind : Option String := none
  itemset : Option String := none
  others : List (String × String) := []
  deriving DecidableEq, Repr

/-- The sections of a survey. -/
inductive SectionType
  | group
  | repeatGroup
  deriving DecidableEq, Repr

/-- `element["type"]` of a section. -/
def SectionType.text : SectionType → String
  | .group => "group"
  | .repeatGroup => "repeat"

/-- An element of a survey's dict. The choices of a question are its `children`. A section
without elements can be without the key `children`. -/
inductive ElementDict
  | question (type : String) (entries : ElementEntries) (choices : Option (List ChoiceDict))
  | bareSection (type : SectionType) (entries : ElementEntries)
  | fullSection (type : SectionType) (entries : ElementEntries) (children : List ElementDict)
  deriving Repr

/-- The name and the type of an element. -/
abbrev ElementStep := String × String

namespace ElementDict

/-- The entries of the element. -/
def entries : ElementDict → ElementEntries
  | .question _ entries _ => entries
  | .bareSection _ entries => entries
  | .fullSection _ entries _ => entries

/-- `element["name"]`. -/
def name (element : ElementDict) : String :=
  element.entries.name

/-- `element["type"]`. -/
def type : ElementDict → String
  | .question type _ _ => type
  | .bareSection type _ => type.text
  | .fullSection type _ _ => type.text

/-- The elements below a section. -/
def children : ElementDict → List ElementDict
  | .fullSection _ _ children => children
  | _ => []

/-- The choices of a question, if it has the key. -/
def choices : ElementDict → Option (List ChoiceDict)
  | .question _ _ choices => choices
  | _ => none

/-- The element is a section. -/
def isSection : ElementDict → Bool
  | .question _ _ _ => false
  | _ => true

/-- The step to the element. -/
def step (element : ElementDict) : ElementStep :=
  (element.name, element.type)

end ElementDict

/-- The text of an abbreviated xpath. -/
def stepsXpath (steps : List ElementStep) : String :=
  joinPath (steps.map (·.1))

mutual

/-- The element and the ones below it, in document order, each with the steps to it. `path`
are the steps to the section around it. -/
def ElementDict.places (path : List ElementStep) :
    ElementDict → List (List ElementStep × ElementDict)
  | .question type entries choices =>
      [(path ++ [(entries.name, type)], .question type entries choices)]
  | .bareSection type entries => [(path ++ [(entries.name, type.text)], .bareSection type entries)]
  | .fullSection type entries children =>
      (path ++ [(entries.name, type.text)], .fullSection type entries children) ::
        placesOf (path ++ [(entries.name, type.text)]) children

/-- `ElementDict.places` of each element. -/
def placesOf (path : List ElementStep) : List ElementDict → List (List ElementStep × ElementDict)
  | [] => []
  | element :: rest => element.places path ++ placesOf path rest

end

/-- A form: the elements of its survey and its choice lists, if it has the key. pyxform accepts
only names of XML tags, and no two elements of a section have the same name. -/
structure MergeForm where
  children : List ElementDict
  choices : Option (List (String × List ChoiceDict)) := none
  isName : ∀ place ∈ placesOf [] children,
    (∀ step ∈ place.1, IsName step.1) ∧ ∀ choices ∈ place.2.choices, ∀ choice ∈ choices,
      IsName choice.name
  nodup : ((placesOf [] children).map fun place => place.1.map (·.1)).Nodup

/-- The exceptions of the merge. -/
inductive MergeError
  | tooFew
  | noMatchingFields
  | keyError (key : String)
  deriving DecidableEq, Repr

/-- `SELECTS`. -/
def SELECTS : List String := ["select one", "select all that apply"]

/-- `_get_fields_set`. -/
def getFieldsSet (xform : MergeForm) : List (String × String) :=
  ((placesOf [] xform.children).map fun place => (stepsXpath place.1, place.2.type)).filter
    fun field => field.2 ∉ ["", "survey"]

/-- The xpath of an element of `_get_elements`. No prefix is the empty one. -/
def prefixedName (parentPrefix name : String) : String :=
  if parentPrefix = "" then name else parentPrefix ++ "/" ++ name

mutual

/-- One round of `_get_elements`. The choices of a question whose type is not one of `SELECTS`
are taken for elements. -/
def getElement (intersect : List String) (parentPrefix : String) :
    ElementDict → Option ElementDict
  | .question type entries choices =>
      let name := prefixedName parentPrefix entries.name
      if name ∈ intersect then
        match choices with
        | some choices =>
            if type ∉ SELECTS then
              let kept := choices.filter fun choice =>
                prefixedName name choice.name ∈ intersect.filter (startsWith · name)
              if kept = [] then none else some (.question type entries (some kept))
            else some (.question type entries (some choices))
        | none => some (.question type entries none)
      else none
  | .bareSection type entries =>
      if prefixedName parentPrefix entries.name ∈ intersect then some (.bareSection type entries)
      else none
  | .fullSection type entries children =>
      let name := prefixedName parentPrefix entries.name
      if name ∈ intersect then
        let kept := getElements (intersect.filter (startsWith · name)) name children
        if kept.isEmpty then none else some (.fullSection type entries kept)
      else none

/-- `_get_elements`. -/
def getElements (intersect : List String) (parentPrefix : String) :
    List ElementDict → List ElementDict
  | [] => []
  | element :: rest =>
      (getElement intersect parentPrefix element).toList ++ getElements intersect parentPrefix rest

end

/-- The dict of the merged survey: its elements and its choice lists. -/
structure SurveyDict where
  children : List ElementDict
  choices : Option (List (String × List ChoiceDict))
  deriving Repr

/-- The element without its `bind`. -/
def ElementDict.withoutBind : ElementDict → ElementDict
  | .question type entries choices => .question type { entries with bind := none } choices
  | .bareSection type entries => .bareSection type { entries with bind := none }
  | .fullSection type entries children => .fullSection type { entries with bind := none } children

/-- `element_list[0]["children"]` for the elements of a survey with the name of the child, or
nothing without one. The child is a select question in each survey, so that the elements below
a section never come up. -/
def choicesByName (name : String) (children : List ElementDict) :
    Except MergeError (List ChoiceDict) :=
  match children.find? fun element => element.name = name with
  | none => return []
  | some element =>
      match element.choices with
      | some choices => return choices
      | none => throw (.keyError "children")

/-- The choices of all the surveys, without duplicates and sorted by name. -/
def mergeChoices (name : String) (surveys : List (List ElementDict)) :
    Except MergeError (List ChoiceDict) := do
  let parts ← surveys.mapM (choicesByName name)
  return parts.flatten.dedup.mergeSort fun choice other => decide (choice.name ≤ other.name)

/-- One round of the loop over the merged elements: no `bind`, and the choices of all the
surveys. -/
def mergeChild (surveys : List (List ElementDict)) (merged : SurveyDict) (child : ElementDict) :
    Except MergeError SurveyDict :=
  match child.withoutBind with
  | .question type entries choices =>
      if type ∈ SELECTS then do
        let choices ← mergeChoices entries.name surveys
        match merged.choices, entries.itemset with
        | none, _ => throw (.keyError "choices")
        | some _, none => throw (.keyError "itemset")
        | some lists, some itemset =>
            return ⟨merged.children ++ [.question type entries (some choices)],
              some (Dict.insert lists itemset choices)⟩
      else return { merged with children := merged.children ++ [.question type entries choices] }
  | element => return { merged with children := merged.children ++ [element] }

/-- The xpaths of the fields that are in every form, `intersect` of `get_merged_xform_survey`. -/
def commonXpaths (first : MergeForm) (others : List MergeForm) : List String :=
  ((getFieldsSet first).filter fun field =>
    others.all fun xform => field ∈ getFieldsSet xform).map (·.1)

/-- `get_merged_xform_survey`. -/
def getMergedXformSurvey (xforms : List MergeForm) : Except MergeError SurveyDict :=
  match xforms with
  | [] => throw .tooFew
  | [_] => throw .tooFew
  | first :: others => do
      let kept := getElements (commonXpaths first others) "" first.children
      let merged ← kept.foldlM (mergeChild (kept :: others.map (·.children)))
        ⟨[], first.choices⟩
      if merged.children.all fun child => child.name = "meta" then throw .noMatchingFields
      else return merged

end Onadata
