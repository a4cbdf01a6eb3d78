import Onadata.Proofs.Libs.Utils.RecordColumns

/-!
# `Onadata.Proofs.Libs.Utils.FormRecords`: the records of a form

Which flat records answer a form, as a recursion over the form, and what the look-ups of the
form give for the repeats of such a record.

* `XForm.isValid`: what `pyxform` makes sure of.
* `isRecordOf`: the record has answers to questions of the form and items of its repeats.
* `getChildElements_repeat`: the children that the form finds for a repeat.
* `answered_of_answersElement`: the values of such a record answer the form.
-/

set_option autoImplicit false

namespace Onadata.Proofs

open Onadata.Lib

/-! ### Forms -/

mutual

/-- The names of the element and of the ones below it are field names, and siblings have
different names. -/
def isValidElement : SurveyElement → Bool
  | .question name _ _ => decide (IsFieldName name)
  | .group name children => decide (IsFieldName name) && areValidChildren children
  | .repeatSection name children => decide (IsFieldName name) && areValidChildren children

/-- `isValidElement` for siblings. -/
def areValidChildren : List SurveyElement → Bool
  | [] => true
  | child :: rest =>
      isValidElement child && decide (child.name ∉ rest.map SurveyElement.name) &&
        areValidChildren rest

end

/-- The form is one that `pyxform` accepts. -/
def isValidForm (form : XForm) : Bool :=
  areValidChildren form.children

mutual

/-- The questions and repeats of the element, groups being opened, with their names from the
section on. -/
def leavesOfElement : SurveyElement → List PlacedElement
  | .question name type choices => [([name], .question name type choices)]
  | .group name children => (leafElements children).map fun e => (name :: e.1, e.2)
  | .repeatSection name children => [([name], .repeatSection name children)]

/-- The questions and repeats of a section. -/
def leafElements : List SurveyElement → List PlacedElement
  | [] => []
  | child :: rest => leavesOfElement child ++ leafElements rest

end

/-! ### Records -/

mutual

/-- There is an answer in the value. -/
def hasLeaf : PyValue → Bool
  | .list items => itemsHaveLeaf items
  | .dict items => dictHasLeaf items
  | _ => true

/-- There is an answer in an item of the list. -/
def itemsHaveLeaf : List PyValue → Bool
  | [] => false
  | item :: rest => hasLeaf item || itemsHaveLeaf rest

/-- There is an answer in a value of the dict. -/
def dictHasLeaf : List (String × PyValue) → Bool
  | [] => false
  | (_, value) :: rest => hasLeaf value || dictHasLeaf rest

end

mutual

/-- No repeat in the value is without items. -/
def repeatsHaveItems : PyValue → Bool
  | .list items => !items.isEmpty && itemsHaveItems items
  | .dict items => valuesHaveItems items
  | _ => true

/-- `repeatsHaveItems` for the items of a list. -/
def itemsHaveItems : List PyValue → Bool
  | [] => true
  | item :: rest => repeatsHaveItems item && itemsHaveItems rest

/-- `repeatsHaveItems` for the values of a dict. -/
def valuesHaveItems : List (String × PyValue) → Bool
  | [] => true
  | (_, value) :: rest => repeatsHaveItems value && valuesHaveItems rest

end

/-- The keys of the dict are different, and each is that of a question or repeat of the
section. -/
def hasSectionKeys (path : List String) (children : List SurveyElement)
    (record : List (String × PyValue)) : Bool :=
  decide (Dict.keys record).Nodup &&
    (Dict.keys record).all fun key =>
      decide (key ∈ (leafElements children).map fun e => joinPath (path ++ e.1))

mutual

/-- The value of the element in the dict, if it has one, answers it: a question of an exported
type has an answer, and the items of a repeat are dicts of the section with an answer each.
`path` are the names above the element. -/
def answersElement (path : List String) (record : List (String × PyValue)) :
    SurveyElement → Bool
  | .question name type _ =>
      match Dict.get? record (joinPath (path ++ [name])) with
      | none => true
      | some value => !questionTypesToExclude type && isAnswer value
  | .group name children => answersChildren (path ++ [name]) record children
  | .repeatSection name children =>
      match Dict.get? record (joinPath (path ++ [name])) with
      | none => true
      | some (.list items) =>
          items.all fun item =>
            match item with
            | .dict item =>
                dictHasLeaf item && hasSectionKeys (path ++ [name]) children item &&
                  answersChildren (path ++ [name]) item children
            | _ => false
      | some _ => false

/-- `answersElement` for each child. -/
def answersChildren (path : List String) (record : List (String × PyValue)) :
    List SurveyElement → Bool
  | [] => true
  | child :: rest => answersElement path record child && answersChildren path record rest

end

/-- The flat dict is a record of the form. -/
def isRecordOf (form : XForm) (record : List (String × PyValue)) : Bool :=
  hasSectionKeys [] form.children record && answersChildren [] record form.children

/-! ### The elements of a form -/

/-- The names of an element and of its leaves. -/
theorem exists_cons_of_mem_leavesOfElement {element : SurveyElement} {e : PlacedElement}
    (h : e ∈ leavesOfElement element) : ∃ rest, e.1 = element.name :: rest := by
  cases element with
  | question name type choices =>
      rw [leavesOfElement, List.mem_singleton] at h
      exact ⟨[], h ▸ rfl⟩
  | repeatSection name children =>
      rw [leavesOfElement, List.mem_singleton] at h
      exact ⟨[], h ▸ rfl⟩
  | group name children =>
      rw [leavesOfElement] at h
      obtain ⟨e', -, rfl⟩ := List.mem_map.mp h
      exact ⟨e'.1, rfl⟩

theorem exists_cons_of_mem_leafElements {children : List SurveyElement} {e : PlacedElement}
    (h : e ∈ leafElements children) :
    ∃ name ∈ children.map SurveyElement.name, ∃ rest, e.1 = name :: rest := by
  induction children with
  | nil => simp [leafElements] at h
  | cons child children ih =>
      rw [leafElements] at h
      rcases List.mem_append.mp h with h | h
      · exact ⟨child.name, List.mem_cons_self, exists_cons_of_mem_leavesOfElement h⟩
      · obtain ⟨name, hname, hrest⟩ := ih h
        exact ⟨name, List.mem_cons_of_mem _ hname, hrest⟩

/-- Paths with different first names are incomparable. -/
theorem incomparable_of_ne {name name' : String} (h : name ≠ name') (rest rest' : List String) :
    Incomparable (name :: rest) (name' :: rest') :=
  ⟨fun hstart => h (List.cons_prefix_cons.mp hstart).1,
    fun hstart => h (List.cons_prefix_cons.mp hstart).1.symm⟩

mutual

/-- The leaves of a valid element have field names, and none continues another. -/
theorem sectionPaths_leavesOfElement : ∀ element : SurveyElement, isValidElement element = true →
    SectionPaths ((leavesOfElement element).map (·.1))
  | .question name type choices, h => by
      have hname : IsFieldName name := of_decide_eq_true h
      exact ⟨List.pairwise_singleton _ _, by simp [leavesOfElement],
        by simpa [leavesOfElement] using hname⟩
  | .repeatSection name children, h => by
      rw [isValidElement, Bool.and_eq_true] at h
      have hname : IsFieldName name := of_decide_eq_true h.1
      exact ⟨List.pairwise_singleton _ _, by simp [leavesOfElement],
        by simpa [leavesOfElement] using hname⟩
  | .group name children, h => by
      rw [isValidElement, Bool.and_eq_true] at h
      have hname : IsFieldName name := of_decide_eq_true h.1
      have hchildren := sectionPaths_leafElements children h.2
      have hmap : (leavesOfElement (.group name children)).map (·.1) =
          ((leafElements children).map (·.1)).map (name :: ·) := by
        rw [leavesOfElement, List.map_map, List.map_map]
        rfl
      rw [hmap]
      refine ⟨List.pairwise_map.mpr (hchildren.incomparable.imp ?_), ?_, ?_⟩
      · intro path path' hpath
        exact ⟨fun h => hpath.1 (List.cons_prefix_cons.mp h).2,
          fun h => hpath.2 (List.cons_prefix_cons.mp h).2⟩
      · intro path hpath
        obtain ⟨rest, -, rfl⟩ := List.mem_map.mp hpath
        exact List.cons_ne_nil name rest
      · intro path hpath
        obtain ⟨rest, hrest, rfl⟩ := List.mem_map.mp hpath
        exact List.forall_mem_cons.mpr ⟨hname, hchildren.names rest hrest⟩

/-- The leaves of a valid section have field names, and none continues another. -/
theorem sectionPaths_leafElements : ∀ children : List SurveyElement,
    areValidChildren children = true → SectionPaths ((leafElements children).map (·.1))
  | [], _ => ⟨List.Pairwise.nil, by simp [leafElements], by simp [leafElements]⟩
  | child :: rest, h => by
      rw [areValidChildren, Bool.and_eq_true, Bool.and_eq_true, decide_eq_true_eq] at h
      have hchild := sectionPaths_leavesOfElement child h.1.1
      have hrest := sectionPaths_leafElements rest h.2
      rw [leafElements, List.map_append]
      refine ⟨List.pairwise_append.mpr ⟨hchild.incomparable, hrest.incomparable, ?_⟩, ?_, ?_⟩
      · intro path hpath path' hpath'
        obtain ⟨e, he, rfl⟩ := List.mem_map.mp hpath
        obtain ⟨e', he', rfl⟩ := List.mem_map.mp hpath'
        obtain ⟨below, hbelow⟩ := exists_cons_of_mem_leavesOfElement he
        obtain ⟨name, hname, below', hbelow'⟩ := exists_cons_of_mem_leafElements he'
        have hne : child.name ≠ name := by
          rintro rfl
          exact h.1.2 hname
        rw [hbelow, hbelow']
        exact incomparable_of_ne hne below below'
      · intro path hpath
        exact (List.mem_append.mp hpath).elim (hchild.ne_nil path) (hrest.ne_nil path)
      · intro path hpath
        exact (List.mem_append.mp hpath).elim (hchild.names path) (hrest.names path)

end

/-! ### Sections of a form -/

/-- The elements are the children of the form, or of one of its groups and repeats. `path` are
the names to them. -/
inductive IsSection (form : XForm) : List String → List SurveyElement → Prop
  | root : IsSection form [] form.children
  | group {path : List String} {siblings children : List SurveyElement} {name : String} :
      IsSection form path siblings → SurveyElement.group name children ∈ siblings →
        IsSection form (path ++ [name]) children
  | repeatSection {path : List String} {siblings children : List SurveyElement} {name : String} :
      IsSection form path siblings → SurveyElement.repeatSection name children ∈ siblings →
        IsSection form (path ++ [name]) children

/-- Each of valid siblings is valid. -/
theorem isValidElement_of_mem {children : List SurveyElement} {child : SurveyElement}
    (h : areValidChildren children = true) (hchild : child ∈ children) :
    isValidElement child = true := by
  induction children with
  | nil => simp at hchild
  | cons first rest ih =>
      rw [areValidChildren, Bool.and_eq_true, Bool.and_eq_true] at h
      rcases List.mem_cons.mp hchild with rfl | hchild
      · exact h.1.1
      · exact ih h.2 hchild

/-- The sections of a valid form are valid, and their paths have field names. -/
theorem IsSection.valid {form : XForm} (hform : isValidForm form = true) {path : List String}
    {children : List SurveyElement} (h : IsSection form path children) :
    areValidChildren children = true ∧ ∀ name ∈ path, IsFieldName name := by
  induction h with
  | root => exact ⟨hform, by simp⟩
  | group _ hmem ih =>
      have hvalid := isValidElement_of_mem ih.1 hmem
      rw [isValidElement, Bool.and_eq_true, decide_eq_true_eq] at hvalid
      exact ⟨hvalid.2, List.forall_mem_append.mpr ⟨ih.2, by simpa using hvalid.1⟩⟩
  | repeatSection _ hmem ih =>
      have hvalid := isValidElement_of_mem ih.1 hmem
      rw [isValidElement, Bool.and_eq_true, decide_eq_true_eq] at hvalid
      exact ⟨hvalid.2, List.forall_mem_append.mpr ⟨ih.2, by simpa using hvalid.1⟩⟩

/-- The elements below a child are among those of the section. -/
theorem descendants_subset {path : List String} {children : List SurveyElement}
    {child : SurveyElement} (hchild : child ∈ children) :
    ∀ e ∈ child.descendants path, e ∈ childDescendants path children := by
  induction children with
  | nil => simp at hchild
  | cons first rest ih =>
      intro e he
      rw [childDescendants]
      rcases List.mem_cons.mp hchild with rfl | hchild
      · exact List.mem_append_left _ he
      · exact List.mem_append_right _ (ih hchild e he)

/-- The elements of a section are elements of the form. -/
theorem IsSection.subset {form : XForm} {path : List String} {children : List SurveyElement}
    (h : IsSection form path children) :
    ∀ e ∈ childDescendants path children, e ∈ form.surveyElements := by
  induction h with
  | root => exact fun e he => he
  | group _ hmem ih =>
      exact fun e he => ih e (descendants_subset hmem e (List.mem_cons_of_mem _ he))
  | repeatSection _ hmem ih =>
      exact fun e he => ih e (descendants_subset hmem e (List.mem_cons_of_mem _ he))

/-- The leaves of a section are those of its elements. -/
theorem mem_leafElements {children : List SurveyElement} {e : PlacedElement} :
    e ∈ leafElements children ↔ ∃ child ∈ children, e ∈ leavesOfElement child := by
  induction children with
  | nil => simp [leafElements]
  | cons child children ih => simp [leafElements, ih]

/-- A repeat among the leaves of a section has its place in the form. -/
theorem exists_section_of_leaf {form : XForm} {name : String} {children : List SurveyElement}
    {rest : List String} : ∀ (element : SurveyElement) {path : List String}
      {siblings : List SurveyElement}, IsSection form path siblings → element ∈ siblings →
        (rest, SurveyElement.repeatSection name children) ∈ leavesOfElement element →
          ∃ above around, path ++ rest = above ++ [name] ∧ IsSection form above around ∧
            SurveyElement.repeatSection name children ∈ around
  | .question _ _ _, _, _, _, _, hleaf => by
      simp [leavesOfElement] at hleaf
  | .repeatSection _ _, path, siblings, hsection, hmem, hleaf => by
      rw [leavesOfElement, List.mem_singleton, Prod.mk.injEq] at hleaf
      obtain ⟨rfl, heq⟩ := hleaf
      obtain ⟨rfl, rfl⟩ := SurveyElement.repeatSection.inj heq
      exact ⟨path, siblings, rfl, hsection, hmem⟩
  | .group group inner, path, _, hsection, hmem, hleaf => by
      rw [leavesOfElement] at hleaf
      obtain ⟨e, he, heq⟩ := List.mem_map.mp hleaf
      obtain ⟨rfl, hrepeat⟩ := Prod.mk.inj heq
      obtain ⟨child, hchild, he⟩ := mem_leafElements.mp he
      have hsmaller : sizeOf child < sizeOf (SurveyElement.group group inner) := by
        have := List.sizeOf_lt_of_mem hchild
        simp only [SurveyElement.group.sizeOf_spec]
        omega
      rw [← List.singleton_append, ← List.append_assoc]
      exact exists_section_of_leaf child (.group hsection hmem) hchild (hrepeat ▸ he)
termination_by element => sizeOf element

/-! ### Look-ups -/

mutual

/-- `flatten` gives the leaves of an element, if none of them is the repeat to open. -/
theorem flatten_eq (key : String) : ∀ (element : SurveyElement) (path : List String),
    (∀ e ∈ leavesOfElement element, joinPath (path ++ e.1) ≠ key) →
      element.flatten key path = (leavesOfElement element).map fun e => (path ++ e.1, e.2)
  | .question _ _ _, _, _ => rfl
  | .repeatSection name children, path, h => by
      have hname : joinPath (path ++ [name]) ≠ key :=
        h ([name], .repeatSection name children) (by simp [leavesOfElement])
      rw [SurveyElement.flatten, if_neg hname]
      rfl
  | .group name children, path, h => by
      have hchildren : ∀ e ∈ leafElements children, joinPath (path ++ [name] ++ e.1) ≠ key := by
        intro e he
        rw [List.append_assoc]
        exact h (name :: e.1, e.2) (List.mem_map_of_mem he)
      rw [SurveyElement.flatten, flattenChildren_eq key children _ hchildren, leavesOfElement,
        List.map_map]
      refine List.map_congr_left fun e _ => ?_
      rw [List.append_assoc]
      rfl

/-- `flatten` of each child gives the leaves of the section. -/
theorem flattenChildren_eq (key : String) : ∀ (children : List SurveyElement)
    (path : List String), (∀ e ∈ leafElements children, joinPath (path ++ e.1) ≠ key) →
      flattenChildren key path children = (leafElements children).map fun e => (path ++ e.1, e.2)
  | [], _, _ => rfl
  | child :: rest, path, h => by
      rw [leafElements] at h
      rw [flattenChildren, leafElements, List.map_append,
        flatten_eq key child path fun e he => h e (List.mem_append_left _ he),
        flattenChildren_eq key rest path fun e he => h e (List.mem_append_right _ he)]

end

/-- Characters without a bracket stay as they are. -/
theorem removeTags_eq_self {cs : List Char} (h : '[' ∉ cs) : removeTags none cs = cs := by
  induction cs with
  | nil => rfl
  | cons c cs ih =>
      rw [List.mem_cons, not_or] at h
      rw [removeTags, if_neg (Ne.symm h.1), ih h.2]

/-- A path of field names has no bracket. -/
theorem bracket_notMem_joinPath {names : List String} (h : ∀ name ∈ names, IsFieldName name) :
    '[' ∉ (joinPath names).toList := by
  induction names with
  | nil => simp
  | cons name names ih =>
      rw [List.forall_mem_cons] at h
      cases names with
      | nil => simpa using h.1.2
      | cons name' names =>
          rw [joinPath_cons name (by simp)]
          simp only [String.toList_append, List.mem_append, not_or]
          exact ⟨⟨h.1.2, by decide⟩, ih h.2⟩

/-- The elements have different paths, which go on with a field name of the list below
`path`. -/
structure PlacedBelow (path names : List String) (elements : List PlacedElement) : Prop where
  nodup : (elements.map (·.1)).Nodup
  placed : ∀ e ∈ elements, ∃ name ∈ names, ∃ rest, e.1 = path ++ name :: rest ∧
    ∀ part ∈ name :: rest, IsFieldName part

/-- An element with the ones below it. -/
theorem PlacedBelow.cons {path names : List String} {name : String} {elements : List PlacedElement}
    (h : PlacedBelow (path ++ [name]) names elements) (hname : IsFieldName name)
    (element : SurveyElement) :
    PlacedBelow path [name] ((path ++ [name], element) :: elements) := by
  constructor
  · rw [List.map_cons, List.nodup_cons]
    refine ⟨fun hmem => ?_, h.nodup⟩
    obtain ⟨e, he, heq⟩ := List.mem_map.mp hmem
    obtain ⟨name', -, rest, hpath, -⟩ := h.placed e he
    rw [hpath] at heq
    simp at heq
  · intro e he
    rcases List.mem_cons.mp he with rfl | he
    · exact ⟨name, List.mem_cons_self, [], rfl, by simpa using hname⟩
    · obtain ⟨name', -, rest, hpath, hparts⟩ := h.placed e he
      refine ⟨name, List.mem_cons_self, name' :: rest, ?_, List.forall_mem_cons.mpr ⟨hname, hparts⟩⟩
      rw [hpath, List.append_assoc]
      rfl

mutual

/-- The elements at and below a valid element have different paths. -/
theorem placedBelow_descendants : ∀ (element : SurveyElement) (path : List String),
    isValidElement element = true → PlacedBelow path [element.name] (element.descendants path)
  | .question name type choices, path, h => by
      have hbelow : PlacedBelow (path ++ [name]) [] [] := ⟨List.nodup_nil, by simp⟩
      exact hbelow.cons (of_decide_eq_true h) _
  | .group name children, path, h => by
      rw [isValidElement, Bool.and_eq_true, decide_eq_true_eq] at h
      exact (placedBelow_childDescendants children (path ++ [name]) h.2).cons h.1 _
  | .repeatSection name children, path, h => by
      rw [isValidElement, Bool.and_eq_true, decide_eq_true_eq] at h
      exact (placedBelow_childDescendants children (path ++ [name]) h.2).cons h.1 _

/-- The elements of a valid section have different paths. -/
theorem placedBelow_childDescendants : ∀ (children : List SurveyElement) (path : List String),
    areValidChildren children = true →
      PlacedBelow path (children.map SurveyElement.name) (childDescendants path children)
  | [], _, _ => ⟨List.nodup_nil, by simp [childDescendants]⟩
  | child :: rest, path, h => by
      rw [areValidChildren, Bool.and_eq_true, Bool.and_eq_true, decide_eq_true_eq] at h
      have hchild := placedBelow_descendants child path h.1.1
      have hrest := placedBelow_childDescendants rest path h.2
      rw [childDescendants]
      constructor
      · rw [List.map_append, List.nodup_append]
        refine ⟨hchild.nodup, hrest.nodup, fun p hp p' hp' heq => ?_⟩
        obtain ⟨e, he, rfl⟩ := List.mem_map.mp hp
        obtain ⟨e', he', rfl⟩ := List.mem_map.mp hp'
        obtain ⟨name, hname, below, hpath, -⟩ := hchild.placed e he
        obtain ⟨name', hname', below', hpath', -⟩ := hrest.placed e' he'
        rw [hpath, hpath', List.append_cancel_left_eq, List.cons.injEq] at heq
        rw [List.mem_singleton] at hname
        exact h.1.2 (hname ▸ heq.1 ▸ hname')
      · intro e he
        rcases List.mem_append.mp he with he | he
        · obtain ⟨name, hname, hpath⟩ := hchild.placed e he
          exact ⟨name, List.mem_cons.mpr (Or.inl (List.mem_singleton.mp hname)), hpath⟩
        · obtain ⟨name, hname, hpath⟩ := hrest.placed e he
          exact ⟨name, List.mem_cons_of_mem _ hname, hpath⟩

end

/-- The form finds an element by its xpath. -/
theorem getSurveyElement_of_mem {form : XForm} (hform : isValidForm form = true)
    {e : PlacedElement} (he : e ∈ form.surveyElements) :
    form.getSurveyElement (joinPath e.1) = some e := by
  have hplaced := placedBelow_childDescendants form.children [] hform
  have hnames : ∀ e ∈ form.surveyElements, ∀ name ∈ e.1, IsFieldName name := by
    intro e he
    obtain ⟨name, -, rest, hpath, hparts⟩ := hplaced.placed e he
    rw [hpath, List.nil_append]
    exact hparts
  have hkeys : (Dict.keys (form.surveyElements.map fun e => (e.xpath, e))).Nodup := by
    have hmap : Dict.keys (form.surveyElements.map fun e => (e.xpath, e)) =
        (form.surveyElements.map (·.1)).map joinPath := by
      rw [Dict.keys, List.map_map, List.map_map]
      rfl
    rw [hmap]
    refine hplaced.nodup.map_on fun path hpath path' hpath' heq => ?_
    obtain ⟨e, he, rfl⟩ := List.mem_map.mp hpath
    obtain ⟨e', he', rfl⟩ := List.mem_map.mp hpath'
    exact joinPath_inj (fun name hname => (hnames e he name hname).1)
      (fun name hname => (hnames e' he' name hname).1) heq
  have hindices : removeAllIndices (joinPath e.1) = e.xpath := by
    rw [removeAllIndices, removeTags_eq_self (bracket_notMem_joinPath (hnames e he)),
      String.ofList_toList]
    rfl
  have hget : form.getElement (joinPath e.1) = some e := by
    rw [XForm.getElement, hindices, Dict.update_nil_of_nodup hkeys]
    exact Dict.get?_of_mem hkeys (List.mem_map.mpr ⟨e, he, rfl⟩)
  rw [XForm.getSurveyElement, hget]

/-- The children that a form finds for a repeat are the leaves of its section. -/
theorem getChildElements_repeat {form : XForm} (hform : isValidForm form = true)
    {path : List String} {siblings children : List SurveyElement} {name : String}
    (hsection : IsSection form path siblings)
    (hmem : SurveyElement.repeatSection name children ∈ siblings) :
    form.getChildElements (joinPath (path ++ [name])) =
      (leafElements children).map fun e => (path ++ [name] ++ e.1, e.2) := by
  have hinner := IsSection.repeatSection hsection hmem
  obtain ⟨hvalid, hnames⟩ := hinner.valid hform
  have hpaths := sectionPaths_leafElements children hvalid
  have he : (path ++ [name], SurveyElement.repeatSection name children) ∈ form.surveyElements :=
    hsection.subset _ (descendants_subset hmem _ List.mem_cons_self)
  rw [XForm.getChildElements, getSurveyElement_of_mem hform he]
  show SurveyElement.flatten _ ((path ++ [name]).dropLast) (.repeatSection name children) = _
  rw [List.dropLast_concat, SurveyElement.flatten, if_pos rfl]
  refine flattenChildren_eq _ children _ fun e he heq => ?_
  -- The xpath of a leaf is longer than that of the repeat.
  have hleaf : e.1 ∈ (leafElements children).map (·.1) := List.mem_map_of_mem he
  have hpath := joinPath_inj (fun name' hname => (List.mem_append.mp hname).elim
    (fun hname => (hnames name' hname).1) fun hname => (hpaths.names e.1 hleaf name' hname).1)
    (fun name' hname => (hnames name' hname).1) heq
  exact hpaths.ne_nil e.1 hleaf (by simpa using hpath)

/-- The paths of the children of a repeat. -/
theorem childPaths_repeat {form : XForm} (hform : isValidForm form = true)
    {path : List String} {siblings children : List SurveyElement} {name : String}
    (hsection : IsSection form path siblings)
    (hmem : SurveyElement.repeatSection name children ∈ siblings) :
    childPaths form (path ++ [name]) = ((leafElements children).filter isExported).map (·.1) := by
  rw [childPaths, getChildElements_repeat hform hsection hmem, List.filter_map, List.map_map]
  refine List.map_congr_left fun e _ => ?_
  exact List.drop_left

/-- A repeat of a valid form is one of the form. -/
theorem isRepeat_of_mem {form : XForm} (hform : isValidForm form = true)
    {path : List String} {siblings children : List SurveyElement} {name : String}
    (hsection : IsSection form path siblings)
    (hmem : SurveyElement.repeatSection name children ∈ siblings) :
    IsRepeat form (path ++ [name]) := by
  obtain ⟨hvalid, hnames⟩ := (IsSection.repeatSection hsection hmem).valid hform
  have hpaths := sectionPaths_leafElements children hvalid
  have hsublist : (((leafElements children).filter isExported).map (·.1)).Sublist
      ((leafElements children).map (·.1)) := List.filter_sublist.map _
  refine ⟨hnames, ?_, ?_⟩
  · rw [getChildElements_repeat hform hsection hmem]
    intro e he
    obtain ⟨e', -, rfl⟩ := List.mem_map.mp he
    exact List.prefix_append _ _
  · rw [childPaths_repeat hform hsection hmem]
    exact ⟨hpaths.incomparable.sublist hsublist, fun p hp => hpaths.ne_nil p (hsublist.subset hp),
      fun p hp => hpaths.names p (hsublist.subset hp)⟩

/-! ### The values of a record -/

/-- What a leaf of a section promises about its value. `names` are the names to the leaf. -/
def LeafAnswer (names : List String) : SurveyElement → PyValue → Prop
  | .question _ type _, value => questionTypesToExclude type = false ∧ isAnswer value = true
  | .repeatSection _ children, value =>
      ∃ items : List (List (String × PyValue)), value = .list (items.map .dict) ∧
        ∀ item ∈ items, dictHasLeaf item = true ∧ hasSectionKeys names children item = true ∧
          answersChildren names item children = true
  | .group _ _, _ => False

/-- A list whose items are all dicts with a property. -/
theorem exists_items_of_all {P : List (String × PyValue) → Bool} {items : List PyValue}
    (h : (items.all fun item => match item with | .dict item => P item | _ => false) = true) :
    ∃ dicts : List (List (String × PyValue)), items = dicts.map .dict ∧
      ∀ item ∈ dicts, P item = true := by
  induction items with
  | nil => exact ⟨[], rfl, by simp⟩
  | cons item items ih =>
      rw [List.all_cons, Bool.and_eq_true] at h
      obtain ⟨dicts, rfl, hdicts⟩ := ih h.2
      cases item with
      | dict item => exact ⟨item :: dicts, rfl, List.forall_mem_cons.mpr ⟨h.1, hdicts⟩⟩
      | _ => simp at h

mutual

/-- A dict that answers an element answers its leaves. -/
theorem leafAnswer_of_answersElement {record : List (String × PyValue)} :
    ∀ (element : SurveyElement) (path : List String), answersElement path record element = true →
      ∀ e ∈ leavesOfElement element, ∀ value,
        Dict.get? record (joinPath (path ++ e.1)) = some value →
          LeafAnswer (path ++ e.1) e.2 value
  | .question name type choices, path, h, e, he, value, hget => by
      rw [leavesOfElement, List.mem_singleton] at he
      subst he
      simp only [answersElement, hget, Bool.and_eq_true, Bool.not_eq_true'] at h
      exact h
  | .repeatSection name children, path, h, e, he, value, hget => by
      rw [leavesOfElement, List.mem_singleton] at he
      subst he
      rw [answersElement, hget] at h
      cases value with
      | list items =>
          obtain ⟨dicts, rfl, hdicts⟩ := exists_items_of_all h
          refine ⟨dicts, rfl, fun item hitem => ?_⟩
          have hitem := hdicts item hitem
          rw [Bool.and_eq_true, Bool.and_eq_true] at hitem
          exact ⟨hitem.1.1, hitem.1.2, hitem.2⟩
      | _ => simp at h
  | .group name children, path, h, e, he, value, hget => by
      rw [leavesOfElement] at he
      obtain ⟨leaf, hleaf, rfl⟩ := List.mem_map.mp he
      have hpath : path ++ name :: leaf.1 = path ++ [name] ++ leaf.1 := by simp
      simp only [hpath] at hget ⊢
      rw [answersElement] at h
      exact leafAnswer_of_answersChildren children (path ++ [name]) h leaf hleaf value hget

/-- A dict that answers the elements of a section answers its leaves. -/
theorem leafAnswer_of_answersChildren {record : List (String × PyValue)} :
    ∀ (children : List SurveyElement) (path : List String),
      answersChildren path record children = true → ∀ e ∈ leafElements children, ∀ value,
        Dict.get? record (joinPath (path ++ e.1)) = some value →
          LeafAnswer (path ++ e.1) e.2 value
  | [], _, _, e, he, _, _ => by simp [leafElements] at he
  | child :: rest, path, h, e, he, value, hget => by
      rw [answersChildren, Bool.and_eq_true] at h
      rw [leafElements] at he
      rcases List.mem_append.mp he with he | he
      · exact leafAnswer_of_answersElement child path h.1 e he value hget
      · exact leafAnswer_of_answersChildren rest path h.2 e he value hget

end

/-- An element with an answer is exported. -/
theorem LeafAnswer.isExported {names : List String} {e : PlacedElement} {value : PyValue}
    (h : LeafAnswer names e.2 value) : isExported e = true := by
  obtain ⟨path, element⟩ := e
  cases element with
  | question name type choices =>
      show (!questionTypesToExclude type) = true
      rw [h.1]
      rfl
  | group name children => exact h.elim
  | repeatSection name children => rfl

/-- A value of a dict without empty repeats has none. -/
theorem repeatsHaveItems_of_mem {items : List (String × PyValue)} {item : String × PyValue}
    (h : valuesHaveItems items = true) (hmem : item ∈ items) :
    repeatsHaveItems item.2 = true := by
  induction items with
  | nil => simp at hmem
  | cons first rest ih =>
      rw [valuesHaveItems, Bool.and_eq_true] at h
      rcases List.mem_cons.mp hmem with rfl | hmem
      · exact h.1
      · exact ih h.2 hmem

/-- An item of a list without empty repeats has none. -/
theorem valuesHaveItems_of_mem {items : List (List (String × PyValue))}
    {item : List (String × PyValue)} (h : itemsHaveItems (items.map .dict) = true)
    (hmem : item ∈ items) : valuesHaveItems item = true := by
  induction items with
  | nil => simp at hmem
  | cons first rest ih =>
      rw [List.map_cons, itemsHaveItems, Bool.and_eq_true] at h
      rcases List.mem_cons.mp hmem with rfl | hmem
      · exact h.1
      · exact ih h.2 hmem

/-- The keys of a dict of a section are those of exported leaves. -/
theorem exists_leaf_of_key {names : List String} {children : List SurveyElement}
    {item : List (String × PyValue)} (hkeys : hasSectionKeys names children item = true)
    (hitem : answersChildren names item children = true) :
    (Dict.keys item).Nodup ∧ ∀ key ∈ Dict.keys item,
      ∃ e ∈ leafElements children, isExported e = true ∧ key = joinPath (names ++ e.1) := by
  rw [hasSectionKeys, Bool.and_eq_true, decide_eq_true_eq, List.all_eq_true] at hkeys
  refine ⟨hkeys.1, fun key hkey => ?_⟩
  obtain ⟨e, he, heq⟩ := List.mem_map.mp (of_decide_eq_true (hkeys.2 key hkey))
  cases hget : Dict.get? item key with
  | none => exact absurd hkey (Dict.get?_eq_none.mp hget)
  | some value =>
      rw [← heq] at hget
      exact ⟨e, he, (leafAnswer_of_answersChildren children names hitem e he value hget).isExported,
        heq.symm⟩

/-- The value of a repeat of a record answers the form. -/
theorem answered_repeat {form : XForm} (hform : isValidForm form = true) (n : Nat) :
    ∀ {path : List String} {siblings children : List SurveyElement} {name : String}
      {value : PyValue}, IsSection form path siblings →
        SurveyElement.repeatSection name children ∈ siblings → value.depth ≤ n →
          LeafAnswer (path ++ [name]) (.repeatSection name children) value →
            repeatsHaveItems value = true → Answered form (path ++ [name]) value := by
  induction n with
  | zero =>
      intro path siblings children name value _ _ hdepth hleaf _
      obtain ⟨items, rfl, -⟩ := hleaf
      simp [PyValue.depth] at hdepth
  | succ n ih =>
      intro path siblings children name value hsection hmem hdepth hleaf hrepeats
      obtain ⟨items, rfl, hitems⟩ := hleaf
      rw [repeatsHaveItems, Bool.and_eq_true, Bool.not_eq_true', List.isEmpty_eq_false_iff,
        ne_eq, List.map_eq_nil_iff] at hrepeats
      have hinner := IsSection.repeatSection hsection hmem
      have hpaths := childPaths_repeat hform hsection hmem
      refine .items hrepeats.1 (isRepeat_of_mem hform hsection hmem) ?_ ?_
      · intro item hitem
        obtain ⟨hasLeaf, hkeys, hanswers⟩ := hitems item hitem
        obtain ⟨hnodup, hleaves⟩ := exists_leaf_of_key hkeys hanswers
        refine ⟨?_, hnodup, fun key hkey => ?_⟩
        · rintro rfl
          simp [dictHasLeaf] at hasLeaf
        · obtain ⟨e, he, hexported, heq⟩ := hleaves key hkey
          rw [hpaths]
          exact ⟨e.1, List.mem_map_of_mem (List.mem_filter.mpr ⟨he, hexported⟩), heq⟩
      · intro item hitem child hchild value hget
        rw [hpaths] at hchild
        obtain ⟨e, he, rfl⟩ := List.mem_map.mp hchild
        have he := List.mem_of_mem_filter he
        have hvalue := leafAnswer_of_answersChildren children _ (hitems item hitem).2.2 e he
          value hget
        obtain ⟨rest, element⟩ := e
        cases element with
        | question _ _ _ => exact .answer hvalue.2
        | group _ _ => exact hvalue.elim
        | repeatSection inner grandchildren =>
            obtain ⟨element, helement, hleaf⟩ := mem_leafElements.mp he
            obtain ⟨above, around, heq, hplace, hrepeat⟩ :=
              exists_section_of_leaf element hinner helement hleaf
            have hlt := depth_lt_of_get? hitem hget
            simp only [heq] at hvalue ⊢
            exact ih hplace hrepeat (by omega) hvalue (repeatsHaveItems_of_mem
              (valuesHaveItems_of_mem hrepeats.2 hitem) (Dict.mem_of_get? hget))

/-- A record of a form whose repeats have items: its keys are those of the leaves of the form,
and their values answer it. -/
theorem answered_of_isRecordOf {form : XForm} (hform : isValidForm form = true)
    {record : List (String × PyValue)} (hrecord : isRecordOf form record = true)
    (hrepeats : valuesHaveItems record = true) :
    IsItem ((leafElements form.children).map (·.1)) [] record ∧
      ∀ path ∈ (leafElements form.children).map (·.1), ∀ value,
        Dict.get? record (joinPath path) = some value → Answered form path value := by
  rw [isRecordOf, Bool.and_eq_true] at hrecord
  obtain ⟨hnodup, hleaves⟩ := exists_leaf_of_key hrecord.1 hrecord.2
  refine ⟨⟨hnodup, fun key hkey => ?_⟩, fun path hpath value hget => ?_⟩
  · obtain ⟨e, he, -, heq⟩ := hleaves key hkey
    exact ⟨e.1, List.mem_map_of_mem he, heq⟩
  · obtain ⟨e, he, rfl⟩ := List.mem_map.mp hpath
    have hvalue := leafAnswer_of_answersChildren form.children [] hrecord.2 e he value hget
    obtain ⟨rest, element⟩ := e
    cases element with
    | question _ _ _ => exact .answer hvalue.2
    | group _ _ => exact hvalue.elim
    | repeatSection inner grandchildren =>
        obtain ⟨element, helement, hleaf⟩ := mem_leafElements.mp he
        obtain ⟨above, around, heq, hplace, hrepeat⟩ :=
          exists_section_of_leaf element .root helement hleaf
        rw [List.nil_append] at heq
        simp only [List.nil_append, heq] at hvalue ⊢
        exact answered_repeat hform value.depth hplace hrepeat (Nat.le_refl _) hvalue
          (repeatsHaveItems_of_mem hrepeats (Dict.mem_of_get? hget))

end Onadata.Proofs
