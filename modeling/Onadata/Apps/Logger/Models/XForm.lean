import Onadata.Lib.PyDict
import Onadata.Lib.SlashPath

/-!
# `Onadata.Apps.Logger.Models.XForm`: the survey of a form

The elements of a survey, the look-ups by xpath, and `xpaths` and `get_headers` of
`apps/logger/models/xform.py`. An abbreviated xpath is the names from below the root of the survey
to the element, joined by slashes.

The headers have the paths as `shorten` leaves them. A repeat has its columns once for each of its
first iterations, a question with many choices has one column for each choice, and a geopoint has
four more.

Left out: the root of the survey, whose abbreviated xpath is empty, the choices of a question as
elements of their own, and `include_additional_headers`.
-/

set_option autoImplicit false

namespace Onadata

open Onadata.Lib

/-- An element of a survey. `choices` are the names of the choices of a question. -/
inductive SurveyElement
  | question (name type : String) (choices : List String)
  | group (name : String) (children : List SurveyElement)
  | repeatSection (name : String) (children : List SurveyElement)
  deriving Repr

/-- `element.name`. -/
def SurveyElement.name : SurveyElement → String
  | .question name _ _ => name
  | .group name _ => name
  | .repeatSection name _ => name

/-- The survey of a form: the elements below its root. -/
structure XForm where
  children : List SurveyElement
  deriving Repr

/-- An element with the names of its abbreviated xpath. -/
abbrev PlacedElement := List String × SurveyElement

/-- `get_abbreviated_xpath(element.get_xpath())`. -/
def PlacedElement.xpath (element : PlacedElement) : String :=
  joinPath element.1

/-- `QUESTION_TYPES_TO_EXCLUDE`. -/
def QUESTION_TYPES_TO_EXCLUDE : List String := ["note"]

/-- `MULTIPLE_SELECT_TYPE`. -/
def MULTIPLE_SELECT_TYPE : String := "select all that apply"

/-- `question_types_to_exclude`. -/
def questionTypesToExclude (type : String) : Bool :=
  decide (type ∈ QUESTION_TYPES_TO_EXCLUDE)

mutual

/-- The element and the ones below it, in document order. `path` are the names above it. -/
def SurveyElement.descendants (path : List String) : SurveyElement → List PlacedElement
  | .question name type choices => [(path ++ [name], .question name type choices)]
  | .group name children =>
      (path ++ [name], .group name children) :: childDescendants (path ++ [name]) children
  | .repeatSection name children =>
      (path ++ [name], .repeatSection name children) ::
        childDescendants (path ++ [name]) children

/-- `SurveyElement.descendants` of each child. -/
def childDescendants (path : List String) : List SurveyElement → List PlacedElement
  | [] => []
  | child :: rest => child.descendants path ++ childDescendants path rest

end

/-- `get_survey_elements`. -/
def XForm.surveyElements (form : XForm) : List PlacedElement :=
  childDescendants [] form.children

/-- `re.sub(r"\[\d+\]", "", xpath)` on characters. `tag` is what was read of a possible
tag. -/
def removeTags : Option (List Char) → List Char → List Char
  | none, [] => []
  | some tag, [] => tag
  | none, c :: rest => if c = '[' then removeTags (some [c]) rest else c :: removeTags none rest
  | some tag, c :: rest =>
      if c.isDigit then removeTags (some (tag ++ [c])) rest
      else if c = ']' ∧ 1 < tag.length then removeTags none rest
      else if c = '[' then tag ++ removeTags (some [c]) rest
      else tag ++ c :: removeTags none rest

/-- `remove_all_indices`. -/
def removeAllIndices (xpath : String) : String :=
  String.ofList (removeTags none xpath.toList)

/-- `get_element`: of the elements with this abbreviated xpath, the last one. -/
def XForm.getElement (form : XForm) (abbreviatedXpath : String) : Option PlacedElement :=
  Dict.get? (Dict.update [] (form.surveyElements.map fun element => (element.xpath, element)))
    (removeAllIndices abbreviatedXpath)

/-- `get_survey_element`: by the xpath, else by the name. -/
def XForm.getSurveyElement (form : XForm) (nameOrXpath : String) : Option PlacedElement :=
  match form.getElement nameOrXpath with
  | some element => some element
  | none => form.surveyElements.find? fun element => element.2.name = nameOrXpath

mutual

/-- `flatten` of `get_child_elements`: groups are opened, and the repeat that is asked for.
`path` are the names above the element. -/
def SurveyElement.flatten (nameOrXpath : String) (path : List String) :
    SurveyElement → List PlacedElement
  | .question name type choices => [(path ++ [name], .question name type choices)]
  | .group name children => flattenChildren nameOrXpath (path ++ [name]) children
  | .repeatSection name children =>
      if joinPath (path ++ [name]) = nameOrXpath then
        flattenChildren nameOrXpath (path ++ [name]) children
      else [(path ++ [name], .repeatSection name children)]

/-- `SurveyElement.flatten` of each child. -/
def flattenChildren (nameOrXpath : String) (path : List String) :
    List SurveyElement → List PlacedElement
  | [] => []
  | child :: rest => child.flatten nameOrXpath path ++ flattenChildren nameOrXpath path rest

end

/-- `get_child_elements`. -/
def XForm.getChildElements (form : XForm) (nameOrXpath : String) : List PlacedElement :=
  match form.getSurveyElement nameOrXpath with
  | none => []
  | some element => element.2.flatten nameOrXpath element.1.dropLast

/-- `GEODATA_SUFFIXES`. -/
def GEODATA_SUFFIXES : List String := ["latitude", "longitude", "altitude", "precision"]

/-- The metadata headers of `get_headers`. -/
def METADATA_HEADERS : List String :=
  ["_id", "_uuid", "_submission_time", "_date_modified", "_tags", "_notes", "_review_status",
    "_review_comment", "_version", "_duration", "_submitted_by", "_last_edited_by",
    "_total_media", "_media_count", "_media_all_received"]

/-- `get_additional_geopoint_xpaths`, for a question below `path`. -/
def additionalGeopointXpaths (path : List String) (name : String) : List String :=
  GEODATA_SUFFIXES.map fun suffix => joinPath (path ++ ["_" ++ name ++ "_" ++ suffix])

section
variable (bindType : String → String)

/-- `xpaths` of a question below `path`. `bindType` is the type that a question type is bound to. -/
def questionXpaths (path : List String) (name type : String) (choices : List String) :
    List String :=
  if questionTypesToExclude type then []
  else if bindType type = "string" ∧ type = MULTIPLE_SELECT_TYPE then
    if choices = [] then [joinPath (path ++ [name])]
    else choices.map fun choice => joinPath (path ++ [name, choice])
  else
    joinPath (path ++ [name]) ::
      if bindType type = "geopoint" then additionalGeopointXpaths path name else []

/-- `f"[{(i + 1)}]"`. -/
def repeatIndex (i : Nat) : String :=
  "[" ++ toString (i + 1) ++ "]"

mutual

/-- `xpaths` of an element below `path`. -/
def SurveyElement.xpaths (repeatIterations : Nat) (path : List String) :
    SurveyElement → List String
  | .question name type choices => questionXpaths bindType path name type choices
  | .group name children => childXpaths repeatIterations (path ++ [name]) children
  | .repeatSection name children =>
      (List.range repeatIterations).flatMap fun i =>
        childXpaths repeatIterations (path ++ [name ++ repeatIndex i]) children

/-- `SurveyElement.xpaths` of each child. -/
def childXpaths (repeatIterations : Nat) (path : List String) : List SurveyElement → List String
  | [] => []
  | child :: rest =>
      child.xpaths repeatIterations path ++ childXpaths repeatIterations path rest

end

/-- `get_headers`. -/
def XForm.getHeaders (form : XForm) : List String :=
  childXpaths bindType 4 [] form.children ++ METADATA_HEADERS

end

end Onadata
