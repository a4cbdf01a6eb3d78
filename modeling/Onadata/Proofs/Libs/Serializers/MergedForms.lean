import Onadata.Lib.ExceptList
import Onadata.Proofs.Libs.Serializers.CommonElements

/-!
# `Onadata.Proofs.Libs.Serializers.MergedForms`: the intersection of the forms

`mergesForms_iff` proves, for forms with a matching field, that the merged survey has the
common elements of the forms, with the choices of all of them, exactly under `MergeConditions`:

* the choices are united for the questions of the first level only. A nested select question
  keeps those of the first form;
* `_get_elements` takes every element with `children` for a section, unless its type is one of
  `SELECTS`. A common question of another type with choices is left out;
* it takes an element without `children` for a question. A common section without elements
  stays;
* a select question of the first level needs its choices in every form.
-/

set_option autoImplicit false

namespace Onadata.Proofs

open Onadata.Lib

/-! ### The property -/

/-- The choices of the question that the steps lead to. -/
def choicesAt (form : MergeForm) (steps : List ElementStep) : List ChoiceDict :=
  (placesOf [] form.children).flatMap fun place =>
    if place.1 = steps then place.2.choices.getD [] else []

/-- The merged survey has the common elements of the first form, in its order. A section is one
of them if it keeps an element. -/
structure KeepsCommon (first : MergeForm) (others : List MergeForm) (merged : SurveyDict) :
    Prop where
  kept : ∀ steps, (∃ element, (steps, element) ∈ placesOf [] merged.children) ↔
    ∃ element, (steps, element) ∈ placesOf [] first.children ∧ Common (first :: others) steps ∧
      (element.isSection = true →
        ∃ step child, (steps ++ [step], child) ∈ placesOf [] merged.children)
  order : ((placesOf [] merged.children).map (·.1)).Sublist
    ((placesOf [] first.children).map (·.1))

/-- Each select question has the choices of all the forms. -/
def UnitesChoices (first : MergeForm) (others : List MergeForm) (merged : SurveyDict) : Prop :=
  ∀ steps element, (steps, element) ∈ placesOf [] merged.children → element.type ∈ SELECTS →
    ∀ choice, choice ∈ element.choices.getD [] ↔
      ∃ form ∈ first :: others, choice ∈ choicesAt form steps

/-- The merge is the intersection of the forms. -/
def MergesForms (first : MergeForm) (others : List MergeForm) : Prop :=
  ∃ merged, getMergedXformSurvey (first :: others) = .ok merged ∧
    KeepsCommon first others merged ∧ UnitesChoices first others merged

/-- The forms have a question in common that is not one of the metadata. -/
def HasMatch (first : MergeForm) (others : List MergeForm) : Prop :=
  ∃ step steps element, (step :: steps, element) ∈ placesOf [] first.children ∧
    element.isSection = false ∧ Common (first :: others) (step :: steps) ∧ step.1 ≠ "meta"

/-- The condition. -/
structure MergeConditions (first : MergeForm) (others : List MergeForm) : Prop where
  sections : ∀ steps type entries,
    (steps, .bareSection type entries) ∈ placesOf [] first.children →
      ¬ Common (first :: others) steps
  questions : ∀ steps type entries choices,
    (steps, .question type entries (some choices)) ∈ placesOf [] first.children →
      Common (first :: others) steps → type ∈ SELECTS
  nested : ∀ steps element, (steps, element) ∈ placesOf [] first.children →
    Common (first :: others) steps → element.type ∈ SELECTS → steps.length ≠ 1 →
      ∀ form ∈ others, ∀ choice ∈ choicesAt form steps, choice ∈ element.choices.getD []
  keys : ∀ step element, ([step], element) ∈ placesOf [] first.children →
    Common (first :: others) [step] → element.type ∈ SELECTS →
      element.choices.isSome = true ∧ element.entries.itemset.isSome = true ∧
        first.choices.isSome = true ∧
        ∀ form ∈ others, ∀ other, ([step], other) ∈ placesOf [] form.children →
          other.choices.isSome = true

/-! ### What is kept -/

section Kept

variable {first : MergeForm} {others : List MergeForm}

/-- The elements of the merged survey, before the loop over them. -/
def keptElements (first : MergeForm) (others : List MergeForm) : List ElementDict :=
  getElements (commonXpaths first others) "" first.children

/-- What the round for an element of the first form keeps. -/
def keptOf (first : MergeForm) (others : List MergeForm) (steps : List ElementStep)
    (element : ElementDict) : Option ElementDict :=
  getElement (commonXpaths first others) (stepsXpath steps.dropLast) element

/-- The places that are left. -/
theorem placed_kept {steps : List ElementStep} {kept : ElementDict} :
    (steps, kept) ∈ placesOf [] (keptElements first others) ↔
      ∃ source, (steps, source) ∈ placesOf [] first.children ∧
        Common (first :: others) steps ∧ keptOf first others steps source = some kept := by
  rw [keptElements, placed_getElements _ fun _ => hasNames_of_mem]
  refine exists_congr fun source => and_congr_right fun hsource => and_congr_left' ?_
  exact inside_iff_common hsource

/-- The xpath of a common element, as `_get_elements` makes it, is in the intersection. -/
theorem prefixedName_mem_commonXpaths {steps : List ElementStep} {element : ElementDict}
    (h : (steps, element) ∈ placesOf [] first.children) (hcommon : Common (first :: others) steps) :
    prefixedName (stepsXpath steps.dropLast) element.name = stepsXpath steps ∧
      stepsXpath steps ∈ commonXpaths first others := by
  obtain ⟨init, rfl⟩ := exists_init_step h
  rw [List.dropLast_concat]
  refine ⟨prefixedName_stepsXpath (fun step hstep =>
    hasNames_of_mem h step (List.mem_append_left _ hstep)) element.step, ?_⟩
  exact (mem_commonXpaths_iff h).mpr (hcommon init element.step List.prefix_rfl)

/-- No element has the xpath of a choice. -/
theorem choice_notMem_commonXpaths {steps : List ElementStep} {type : String}
    {entries : ElementEntries} {choices : List ChoiceDict}
    (h : (steps, .question type entries (some choices)) ∈ placesOf [] first.children)
    {choice : ChoiceDict} (hchoice : choice ∈ choices) :
    prefixedName (stepsXpath steps) choice.name ∉ commonXpaths first others := by
  have hnames := hasNames_of_mem h
  rw [show choice.name = ((choice.name, "") : ElementStep).1 from rfl,
    prefixedName_stepsXpath hnames]
  intro hmem
  obtain ⟨⟨xpath, type'⟩, hfield, hxpath⟩ := List.mem_map.mp hmem
  obtain rfl : xpath = stepsXpath (steps ++ [(choice.name, "")]) := hxpath
  obtain ⟨⟨place, hplace, heq, -⟩, -⟩ := mem_getFieldsSet.mp (List.mem_filter.mp hfield).1
  have hchoiceNames : HasNames (steps ++ [(choice.name, "")]) := by
    intro step hstep
    rcases List.mem_append.mp hstep with hstep | hstep
    · exact hnames step hstep
    · rw [List.mem_singleton.mp hstep]
      exact (first.isName _ h).2 choices rfl choice hchoice
  have hmap := names_eq_of_stepsXpath_eq (hasNames_of_mem hplace) hchoiceNames heq
  obtain ⟨init, -, hsteps⟩ := exists_init_of_mem_placesOf hplace
  rw [hsteps, List.map_append, List.map_append] at hmap
  obtain ⟨hinit, -⟩ := List.append_inj' hmap rfl
  -- The element around the place would be the question.
  obtain ⟨before, hbefore⟩ := exists_init_step h
  have hempty : init ≠ [] := by
    intro hnil
    rw [hnil, hbefore] at hinit
    simp at hinit
  obtain ⟨start, next, rfl⟩ : ∃ start next, init = start ++ [next] :=
    ⟨_, _, (List.dropLast_append_getLast hempty).symm⟩
  obtain ⟨parent, hparent, hrest⟩ := mem_placesOf_of_prefix hplace List.nil_prefix
    (show start ++ [next] <+: place.1 by rw [hsteps]; exact List.prefix_append _ _)
  have hsame := place_unique hparent h (congrArg joinPath hinit)
  obtain ⟨-, rfl⟩ := Prod.mk.inj hsame
  rcases hrest with hrest | hrest
  · rw [hsteps] at hrest
    simp at hrest
  · simp [ElementDict.children, placesOf] at hrest

/-- A common question is kept as it is, unless it has choices and is not one of `SELECTS`. -/
theorem keptOf_question {steps : List ElementStep} {type : String} {entries : ElementEntries}
    {choices : Option (List ChoiceDict)}
    (h : (steps, .question type entries choices) ∈ placesOf [] first.children)
    (hcommon : Common (first :: others) steps) :
    keptOf first others steps (.question type entries choices) =
      if choices.isSome = true ∧ type ∉ SELECTS then none
      else some (.question type entries choices) := by
  obtain ⟨hname, hmem⟩ := prefixedName_mem_commonXpaths h hcommon
  unfold keptOf getElement
  rw [show prefixedName (stepsXpath steps.dropLast) entries.name = stepsXpath steps from hname]
  simp only [if_pos hmem]
  cases choices with
  | none => simp
  | some choices =>
      by_cases htype : type ∈ SELECTS
      · simp [htype]
      · have hnone : choices.filter (fun choice =>
            prefixedName (stepsXpath steps) choice.name ∈
              (commonXpaths first others).filter (startsWith · (stepsXpath steps))) = [] := by
          rw [List.filter_eq_nil_iff]
          intro choice hchoice hmem
          exact choice_notMem_commonXpaths h hchoice (List.mem_filter.mp (of_decide_eq_true hmem)).1
        simp only [hnone, htype, not_false_eq_true, if_true, Option.isSome_some, and_self]

/-- A common section without elements is kept as it is. -/
theorem keptOf_bareSection {steps : List ElementStep} {type : SectionType}
    {entries : ElementEntries}
    (h : (steps, .bareSection type entries) ∈ placesOf [] first.children)
    (hcommon : Common (first :: others) steps) :
    keptOf first others steps (.bareSection type entries) = some (.bareSection type entries) := by
  obtain ⟨hname, hmem⟩ := prefixedName_mem_commonXpaths h hcommon
  unfold keptOf getElement
  rw [show prefixedName (stepsXpath steps.dropLast) entries.name = stepsXpath steps from hname,
    if_pos hmem]

/-- A place of a form, known by its steps. -/
theorem element_unique {form : MergeForm} {steps : List ElementStep}
    {element element' : ElementDict} (h : (steps, element) ∈ placesOf [] form.children)
    (h' : (steps, element') ∈ placesOf [] form.children) : element = element' :=
  (Prod.mk.inj (place_unique h h' rfl)).2

/-- Under the conditions, the places that are left are those of the common elements. -/
theorem steps_kept_iff (h : MergeConditions first others) (steps : List ElementStep) :
    (∃ kept, (steps, kept) ∈ placesOf [] (keptElements first others)) ↔
      ∃ element, (steps, element) ∈ placesOf [] first.children ∧
        Common (first :: others) steps ∧
        (element.isSection = true →
          ∃ step child, (steps ++ [step], child) ∈ placesOf [] (keptElements first others)) := by
  constructor
  · intro ⟨kept, hkept⟩
    obtain ⟨source, hsource, hcommon, hsome⟩ := placed_kept.mp hkept
    refine ⟨source, hsource, hcommon, fun hsection => ?_⟩
    cases source with
    | question type entries choices => cases hsection
    | bareSection type entries => exact absurd hcommon (h.sections steps type entries hsource)
    | fullSection type entries children =>
        unfold keptOf at hsome
        rw [getElement_fullSection] at hsome
        split at hsome
        · split at hsome
          · cases hsome
          · rename_i hne
            -- The section keeps an element.
            obtain rfl := Option.some.inj hsome
            rw [List.isEmpty_iff] at hne
            obtain ⟨child, hchild⟩ := List.exists_mem_of_ne_nil _ hne
            obtain ⟨top, htop, hplace⟩ := mem_placesOf.mp hkept
            exact ⟨child.step, child, mem_placesOf.mpr ⟨top, htop,
              mem_placesOf_child hchild hplace⟩⟩
        · cases hsome
  · intro ⟨element, hplace, hcommon, hsection⟩
    cases element with
    | question type entries choices =>
        refine ⟨.question type entries choices, placed_kept.mpr ⟨_, hplace, hcommon, ?_⟩⟩
        rw [keptOf_question hplace hcommon, if_neg]
        intro ⟨hchoices, htype⟩
        obtain ⟨choices, rfl⟩ := Option.isSome_iff_exists.mp hchoices
        exact htype (h.questions steps type entries choices hplace hcommon)
    | bareSection type entries => exact absurd hcommon (h.sections steps type entries hplace)
    | fullSection type entries children =>
        obtain ⟨step, child, hchild⟩ := hsection rfl
        obtain ⟨init, rfl⟩ := exists_init_step hplace
        obtain ⟨parent, hparent, -⟩ := mem_placesOf_of_prefix hchild List.nil_prefix
          (List.prefix_append _ [step])
        exact ⟨parent, hparent⟩

/-- If the places that are left are those of the common elements, each common section has
elements and each common question with choices is one of `SELECTS`. -/
theorem conditions_of_steps_kept
    (h : ∀ steps, (∃ kept, (steps, kept) ∈ placesOf [] (keptElements first others)) ↔
      ∃ element, (steps, element) ∈ placesOf [] first.children ∧
        Common (first :: others) steps ∧
        (element.isSection = true →
          ∃ step child, (steps ++ [step], child) ∈ placesOf [] (keptElements first others))) :
    (∀ steps type entries, (steps, .bareSection type entries) ∈ placesOf [] first.children →
      ¬ Common (first :: others) steps) ∧
    ∀ steps type entries choices,
      (steps, .question type entries (some choices)) ∈ placesOf [] first.children →
        Common (first :: others) steps → type ∈ SELECTS := by
  constructor
  · intro steps type entries hplace hcommon
    have hkept := placed_kept.mpr ⟨_, hplace, hcommon, keptOf_bareSection hplace hcommon⟩
    obtain ⟨element, helement, -, hsection⟩ := (h steps).mp ⟨_, hkept⟩
    obtain rfl := element_unique hplace helement
    -- An element below the section would have a place in the first form.
    obtain ⟨step, child, hchild⟩ := hsection rfl
    obtain ⟨source, hsource, -, -⟩ := placed_kept.mp hchild
    obtain ⟨init, rfl⟩ := exists_init_step hplace
    obtain ⟨parent, hparent, hrest⟩ := mem_placesOf_of_prefix hsource List.nil_prefix
      (List.prefix_append _ [step])
    obtain rfl := element_unique hplace hparent
    rcases hrest with hrest | hrest
    · simp at hrest
    · simp [ElementDict.children, placesOf] at hrest
  · intro steps type entries choices hplace hcommon
    by_contra htype
    obtain ⟨kept, hkept⟩ := (h steps).mpr ⟨_, hplace, hcommon, fun hsection => by cases hsection⟩
    obtain ⟨source, hsource, -, hsome⟩ := placed_kept.mp hkept
    obtain rfl := element_unique hplace hsource
    rw [keptOf_question hplace hcommon, if_pos ⟨rfl, htype⟩] at hsome
    cases hsome

end Kept

/-! ### The loop over the merged elements -/

section Loop

variable {surveys : List (List ElementDict)}

/-- A round of the loop can give the choices of all the surveys. -/
def CanMerge (surveys : List (List ElementDict)) (lists : Bool) (child : ElementDict) : Prop :=
  child.type ∈ SELECTS → (∃ choices, mergeChoices child.name surveys = .ok choices) ∧
    child.entries.itemset.isSome = true ∧ lists = true

/-- What a round of the loop makes of an element. -/
structure MergedFrom (surveys : List (List ElementDict)) (child merged : ElementDict) :
    Prop where
  step : merged.step = child.step
  children : merged.children = child.children
  choices : child.type ∉ SELECTS → merged.choices = child.choices
  united : child.type ∈ SELECTS →
    ∃ choices, mergeChoices child.name surveys = .ok choices ∧ merged.choices = some choices

/-- The type of a section is not one of `SELECTS`. -/
theorem sectionType_notMem (type : SectionType) : type.text ∉ SELECTS := by
  cases type <;> decide

/-- A round of the loop that returns. -/
theorem mergeChild_spec {merged merged' : SurveyDict} {child : ElementDict}
    (h : mergeChild surveys merged child = .ok merged') :
    CanMerge surveys merged.choices.isSome child ∧
      merged'.choices.isSome = merged.choices.isSome ∧
      ∃ child', merged'.children = merged.children ++ [child'] ∧
        MergedFrom surveys child child' := by
  cases child with
  | question type entries choices =>
      unfold mergeChild at h
      dsimp only [ElementDict.withoutBind] at h
      by_cases htype : type ∈ SELECTS
      · rw [if_pos htype] at h
        obtain ⟨united, hunited, h⟩ := bind_eq_ok.mp h
        cases hlists : merged.choices with
        | none =>
            rw [hlists] at h
            cases h
        | some lists =>
            cases hitemset : entries.itemset with
            | none =>
                rw [hlists, hitemset] at h
                cases h
            | some itemset =>
                rw [hlists, hitemset] at h
                obtain rfl := Except.ok.inj h
                refine ⟨fun _ => ⟨⟨united, hunited⟩, ?_, rfl⟩, rfl, _, rfl, ?_⟩
                · show entries.itemset.isSome = true
                  rw [hitemset]
                  rfl
                · exact ⟨rfl, rfl, fun hnot => absurd htype hnot, fun _ => ⟨united, hunited, rfl⟩⟩
      · rw [if_neg htype] at h
        obtain rfl := Except.ok.inj h
        exact ⟨fun hmem => absurd hmem htype, rfl, _, rfl,
          ⟨rfl, rfl, fun _ => rfl, fun hmem => absurd hmem htype⟩⟩
  | bareSection type entries =>
      obtain rfl := Except.ok.inj h
      exact ⟨fun hmem => absurd hmem (sectionType_notMem type), rfl, _, rfl,
        ⟨rfl, rfl, fun _ => rfl, fun hmem => absurd hmem (sectionType_notMem type)⟩⟩
  | fullSection type entries children =>
      obtain rfl := Except.ok.inj h
      exact ⟨fun hmem => absurd hmem (sectionType_notMem type), rfl, _, rfl,
        ⟨rfl, rfl, fun _ => rfl, fun hmem => absurd hmem (sectionType_notMem type)⟩⟩

/-- A round of the loop returns if it can. -/
theorem exists_mergeChild {merged : SurveyDict} {child : ElementDict}
    (h : CanMerge surveys merged.choices.isSome child) :
    ∃ merged', mergeChild surveys merged child = .ok merged' := by
  cases child with
  | question type entries choices =>
      unfold mergeChild
      dsimp only [ElementDict.withoutBind]
      by_cases htype : type ∈ SELECTS
      · rw [if_pos htype]
        obtain ⟨⟨united, hunited⟩, hitemset, hlists⟩ := h htype
        obtain ⟨itemset, hitemset⟩ := Option.isSome_iff_exists.mp hitemset
        obtain ⟨lists, hlists⟩ := Option.isSome_iff_exists.mp hlists
        rw [show mergeChoices entries.name surveys = _ from hunited, hlists,
          show entries.itemset = _ from hitemset]
        exact ⟨_, rfl⟩
      · rw [if_neg htype]
        exact ⟨_, rfl⟩
  | bareSection type entries => exact ⟨_, rfl⟩
  | fullSection type entries children => exact ⟨_, rfl⟩

/-- The loop that returns. -/
theorem mergeLoop_spec {children : List ElementDict} : ∀ {merged merged' : SurveyDict},
    children.foldlM (mergeChild surveys) merged = .ok merged' →
      (∀ child ∈ children, CanMerge surveys merged.choices.isSome child) ∧
      ∃ out, merged'.children = merged.children ++ out ∧
        List.Forall₂ (MergedFrom surveys) children out := by
  induction children with
  | nil =>
      intro merged merged' h
      obtain rfl := Except.ok.inj h
      exact ⟨fun _ h => absurd h List.not_mem_nil, [], (List.append_nil _).symm, .nil⟩
  | cons child rest ih =>
      intro merged merged' h
      rw [List.foldlM_cons] at h
      obtain ⟨mid, hmid, hrest⟩ := bind_eq_ok.mp h
      obtain ⟨hcan, hlists, child', hchildren, hchild⟩ := mergeChild_spec hmid
      obtain ⟨hcanrest, out, hout, hforall⟩ := ih hrest
      refine ⟨List.forall_mem_cons.mpr ⟨hcan, ?_⟩, child' :: out, ?_, .cons hchild hforall⟩
      · rw [← hlists]
        exact hcanrest
      · rw [hout, hchildren, List.append_assoc, List.singleton_append]

/-- The loop returns if each round can. -/
theorem exists_mergeLoop {children : List ElementDict} : ∀ {merged : SurveyDict},
    (∀ child ∈ children, CanMerge surveys merged.choices.isSome child) →
      ∃ merged', children.foldlM (mergeChild surveys) merged = .ok merged' := by
  induction children with
  | nil => exact fun _ => ⟨_, rfl⟩
  | cons child rest ih =>
      intro merged h
      rw [List.forall_mem_cons] at h
      obtain ⟨mid, hmid⟩ := exists_mergeChild h.1
      obtain ⟨-, hlists, -⟩ := mergeChild_spec hmid
      obtain ⟨merged', hmerged⟩ := @ih mid (by rw [hlists]; exact h.2)
      exact ⟨merged', by rw [List.foldlM_cons, hmid]; exact hmerged⟩

/-- The steps to the elements stay in the loop. -/
theorem steps_mergedFrom {children out : List ElementDict}
    (h : List.Forall₂ (MergedFrom surveys) children out) :
    (placesOf [] out).map (·.1) = (placesOf [] children).map (·.1) := by
  induction h with
  | nil => rfl
  | cons hchild _ ih =>
      rw [placesOf, placesOf, List.map_append, List.map_append, ih, places_eq, places_eq,
        hchild.step, hchild.children]
      rfl

/-- The places after the loop: those of the first level are new, those below stay. -/
theorem placed_mergedFrom {children out : List ElementDict}
    (h : List.Forall₂ (MergedFrom surveys) children out) (steps : List ElementStep)
    (element : ElementDict) :
    (steps, element) ∈ placesOf [] out ↔
      (∃ child, ([child.step], child) ∈ placesOf [] children ∧ steps = [child.step] ∧
        child ∈ children ∧ element ∈ out ∧ MergedFrom surveys child element) ∨
      (steps.length ≠ 1 ∧ (steps, element) ∈ placesOf [] children) := by
  have hbelow : ∀ (top : ElementDict), (steps, element) ∈ placesOf ([] ++ [top.step]) top.children →
      steps.length ≠ 1 := by
    intro top hplace hlength
    obtain ⟨init, hinit, hsteps⟩ := exists_init_of_mem_placesOf hplace
    have hle := hinit.length_le
    rw [show steps = _ from hsteps, List.length_append] at hlength
    simp only [List.nil_append, List.length_singleton] at hle hlength
    omega
  have hown : ∀ top ∈ children, ([top.step], top) ∈ placesOf [] children := by
    intro top htop
    refine mem_placesOf.mpr ⟨top, htop, ?_⟩
    rw [places_eq]
    exact List.mem_cons_self
  constructor
  · intro hplace
    obtain ⟨top, htop, hplace⟩ := mem_placesOf.mp hplace
    obtain ⟨child, hchild, hfrom⟩ := exists_of_mem_right h htop
    rw [places_eq] at hplace
    rcases List.mem_cons.mp hplace with hsame | hrest
    · obtain ⟨rfl, rfl⟩ := Prod.mk.inj hsame
      refine Or.inl ⟨child, hown child hchild, ?_, hchild, htop, hfrom⟩
      rw [hfrom.step]
      rfl
    · refine Or.inr ⟨hbelow top hrest, mem_placesOf.mpr ⟨child, hchild, ?_⟩⟩
      rw [places_eq, ← hfrom.step, ← hfrom.children]
      exact List.mem_cons_of_mem _ hrest
  · intro hplace
    rcases hplace with ⟨child, -, rfl, hchild, helement, hfrom⟩ | ⟨hlength, hplace⟩
    · refine mem_placesOf.mpr ⟨element, helement, ?_⟩
      rw [places_eq, hfrom.step]
      exact List.mem_cons_self
    · obtain ⟨child, hchild, hplace⟩ := mem_placesOf.mp hplace
      obtain ⟨top, htop, hfrom⟩ := exists_of_mem_left h hchild
      rw [places_eq] at hplace
      rcases List.mem_cons.mp hplace with hsame | hrest
      · obtain ⟨rfl, -⟩ := Prod.mk.inj hsame
        exact absurd rfl hlength
      · refine mem_placesOf.mpr ⟨top, htop, ?_⟩
        rw [places_eq, hfrom.step, hfrom.children]
        exact List.mem_cons_of_mem _ hrest

end Loop

/-! ### The choices -/

/-- The elements have different xpaths. -/
def UniquePlaces (elements : List ElementDict) : Prop :=
  ∀ place ∈ placesOf [] elements, ∀ place' ∈ placesOf [] elements,
    stepsXpath place.1 = stepsXpath place'.1 → place = place'

/-- A place of the first level is one of the elements. -/
theorem mem_of_mem_top {elements : List ElementDict} {step : ElementStep} {element : ElementDict}
    (h : ([step], element) ∈ placesOf [] elements) : element ∈ elements ∧ element.step = step := by
  obtain ⟨top, htop, hplace⟩ := mem_placesOf.mp h
  rw [places_eq] at hplace
  rcases List.mem_cons.mp hplace with hsame | hrest
  · obtain ⟨hstep, rfl⟩ := Prod.mk.inj hsame
    exact ⟨htop, (List.singleton_inj.mp hstep).symm⟩
  · obtain ⟨init, hinit, hsteps⟩ := exists_init_of_mem_placesOf hrest
    have hle := hinit.length_le
    have hlength := congrArg List.length hsteps
    simp only [List.nil_append, List.length_append, List.length_singleton] at hle hlength
    omega

/-- An element of the first level has the place of its step. -/
theorem top_mem_placesOf {elements : List ElementDict} {element : ElementDict}
    (h : element ∈ elements) : ([element.step], element) ∈ placesOf [] elements := by
  refine mem_placesOf.mpr ⟨element, h, ?_⟩
  rw [places_eq]
  exact List.mem_cons_self

/-- `_list_with_name` finds the element of the first level. -/
theorem find?_name_eq {elements : List ElementDict} (hunique : UniquePlaces elements)
    {step : ElementStep} {element : ElementDict} (h : ([step], element) ∈ placesOf [] elements) :
    elements.find? (fun other => other.name = step.1) = some element := by
  obtain ⟨hmem, hstep⟩ := mem_of_mem_top h
  cases hfind : elements.find? fun other => other.name = step.1 with
  | none =>
      refine absurd ?_ (List.find?_eq_none.mp hfind element hmem)
      rw [← hstep]
      exact decide_eq_true rfl
  | some other =>
      have hother := top_mem_placesOf (List.mem_of_find?_eq_some hfind)
      have hname : other.name = step.1 := by
        have hsome := List.find?_some hfind
        exact of_decide_eq_true hsome
      have hsame := hunique _ hother _ h (by
        show joinPath [other.name] = joinPath [step.1]
        rw [hname])
      rw [(Prod.mk.inj hsame).2]

/-- The choices of the element of the first level. -/
theorem choicesByName_eq_ok {elements : List ElementDict} (hunique : UniquePlaces elements)
    {step : ElementStep} {element : ElementDict} (h : ([step], element) ∈ placesOf [] elements)
    {choices : List ChoiceDict} :
    choicesByName step.1 elements = .ok choices ↔ element.choices = some choices := by
  unfold choicesByName
  rw [find?_name_eq hunique h]
  cases hchoices : element.choices with
  | none =>
      simp only [hchoices]
      exact iff_of_false throw_ne_ok (by simp)
  | some choices' =>
      simp only [hchoices]
      exact pure_eq_ok.trans Option.some_inj.symm

/-- The choices can be merged when each survey gives its own. -/
theorem exists_mergeChoices_iff {name : String} {surveys : List (List ElementDict)} :
    (∃ choices, mergeChoices name surveys = .ok choices) ↔
      ∀ survey ∈ surveys, ∃ part, choicesByName name survey = .ok part := by
  unfold mergeChoices
  constructor
  · intro ⟨choices, h⟩ survey hsurvey
    obtain ⟨parts, hparts, -⟩ := bind_eq_ok.mp h
    obtain ⟨part, -, hpart⟩ := mem_mapM_of_mem hparts hsurvey
    exact ⟨part, hpart⟩
  · intro h
    obtain ⟨parts, hparts, -⟩ := exists_mapM_eq_ok (R := fun _ _ => True) fun survey hsurvey => by
      obtain ⟨part, hpart⟩ := h survey hsurvey
      exact ⟨part, hpart, trivial⟩
    exact ⟨_, by rw [hparts]; rfl⟩

/-- The merged choices are those of the surveys. -/
theorem mem_mergeChoices_iff {name : String} {surveys : List (List ElementDict)}
    {choices : List ChoiceDict} (h : mergeChoices name surveys = .ok choices)
    (choice : ChoiceDict) :
    choice ∈ choices ↔
      ∃ survey ∈ surveys, ∃ part, choicesByName name survey = .ok part ∧ choice ∈ part := by
  unfold mergeChoices at h
  obtain ⟨parts, hparts, h⟩ := bind_eq_ok.mp h
  obtain rfl := Except.ok.inj h
  rw [List.mem_mergeSort, List.mem_dedup, List.mem_flatten]
  constructor
  · intro ⟨part, hpart, hmem⟩
    obtain ⟨survey, hsurvey, hround⟩ := exists_of_mem_mapM hparts hpart
    exact ⟨survey, hsurvey, part, hround, hmem⟩
  · intro ⟨survey, hsurvey, part, hround, hmem⟩
    obtain ⟨part', hpart', hround'⟩ := mem_mapM_of_mem hparts hsurvey
    obtain rfl := Except.ok.inj (hround.symm.trans hround')
    exact ⟨part, hpart', hmem⟩

/-- The choices of a form at a place. -/
theorem mem_choicesAt_iff {form : MergeForm} {steps : List ElementStep} {element : ElementDict}
    (h : (steps, element) ∈ placesOf [] form.children) (choice : ChoiceDict) :
    choice ∈ choicesAt form steps ↔ choice ∈ element.choices.getD [] := by
  unfold choicesAt
  rw [List.mem_flatMap]
  constructor
  · intro ⟨place, hplace, hmem⟩
    by_cases hsteps : place.1 = steps
    · rw [if_pos hsteps] at hmem
      subst hsteps
      rw [element_unique h hplace]
      exact hmem
    · rw [if_neg hsteps] at hmem
      cases hmem
  · intro hmem
    exact ⟨_, h, by rw [if_pos rfl]; exact hmem⟩

/-! ### The merge -/

section Merge

variable {first : MergeForm} {others : List MergeForm}

/-- The places of a form have different xpaths. -/
theorem uniquePlaces_form (form : MergeForm) : UniquePlaces form.children :=
  fun _ h _ h' => place_unique h h'

/-- The places that are left have different xpaths. -/
theorem uniquePlaces_kept : UniquePlaces (keptElements first others) := by
  intro place hplace place' hplace' hxpath
  obtain ⟨source, hsource, -, hsome⟩ := placed_kept.mp hplace
  obtain ⟨source', hsource', -, hsome'⟩ := placed_kept.mp hplace'
  have hsame := place_unique hsource hsource' hxpath
  obtain ⟨hsteps, rfl⟩ := Prod.mk.inj hsame
  rw [← hsteps] at hsome'
  exact Prod.ext hsteps (Option.some.inj (hsome.symm.trans hsome'))

/-- A common select question is kept as it is. -/
theorem kept_of_select {steps : List ElementStep} {element : ElementDict}
    (h : (steps, element) ∈ placesOf [] first.children) (hcommon : Common (first :: others) steps)
    (hselect : element.type ∈ SELECTS) :
    (steps, element) ∈ placesOf [] (keptElements first others) := by
  refine placed_kept.mpr ⟨element, h, hcommon, ?_⟩
  cases element with
  | question type entries choices =>
      rw [keptOf_question h hcommon, if_neg fun hnot => hnot.2 hselect]
  | bareSection type entries => exact absurd hselect (sectionType_notMem type)
  | fullSection type entries children => exact absurd hselect (sectionType_notMem type)

/-- A select question that is kept is the one of the first form. -/
theorem select_of_kept {steps : List ElementStep} {kept : ElementDict}
    (h : (steps, kept) ∈ placesOf [] (keptElements first others))
    (hselect : kept.type ∈ SELECTS) :
    (steps, kept) ∈ placesOf [] first.children ∧ Common (first :: others) steps := by
  obtain ⟨source, hsource, hcommon, hsome⟩ := placed_kept.mp h
  have htype : source.type = kept.type := (congrArg Prod.snd (getElement_eq_some hsome).2.1).symm
  have hself := kept_of_select hsource hcommon (htype ▸ hselect)
  have hsame := uniquePlaces_kept _ h _ hself rfl
  rw [(Prod.mk.inj hsame).2]
  exact ⟨hsource, hcommon⟩

/-- The surveys whose choices are merged. -/
def mergedSurveys (first : MergeForm) (others : List MergeForm) : List (List ElementDict) :=
  keptElements first others :: others.map (·.children)

/-- A form has an element at the common step. -/
theorem exists_top_of_common {step : ElementStep} {element : ElementDict}
    (h : ([step], element) ∈ placesOf [] first.children) (hcommon : Common (first :: others) [step])
    {form : MergeForm} (hform : form ∈ others) :
    ∃ other, ([step], other) ∈ placesOf [] form.children :=
  exists_place_of_common (List.mem_cons_of_mem _ hform) (hasNames_of_mem h) hcommon (by simp)

/-- The choices of a common question of the first level can be merged when each form has the
key. -/
theorem canMerge_iff {step : ElementStep} {element : ElementDict}
    (h : ([step], element) ∈ placesOf [] first.children) (hcommon : Common (first :: others) [step])
    (hselect : element.type ∈ SELECTS) :
    CanMerge (mergedSurveys first others) first.choices.isSome element ↔
      element.choices.isSome = true ∧ element.entries.itemset.isSome = true ∧
        first.choices.isSome = true ∧
        ∀ form ∈ others, ∀ other, ([step], other) ∈ placesOf [] form.children →
          other.choices.isSome = true := by
  have hkept := kept_of_select h hcommon hselect
  have hname : element.name = step.1 := congrArg Prod.fst (mem_of_mem_top h).2
  have hself : (∃ part, choicesByName step.1 (keptElements first others) = .ok part) ↔
      element.choices.isSome = true := by
    rw [Option.isSome_iff_exists]
    exact exists_congr fun part => choicesByName_eq_ok uniquePlaces_kept hkept
  have hothers : (∀ survey ∈ others.map (·.children), ∃ part,
      choicesByName step.1 survey = .ok part) ↔
      ∀ form ∈ others, ∀ other, ([step], other) ∈ placesOf [] form.children →
        other.choices.isSome = true := by
    rw [List.forall_mem_map]
    refine forall₂_congr fun form hform => ?_
    constructor
    · intro ⟨part, hpart⟩ other hother
      rw [(choicesByName_eq_ok (uniquePlaces_form form) hother).mp hpart]
      rfl
    · intro hsome
      obtain ⟨other, hother⟩ := exists_top_of_common h hcommon hform
      obtain ⟨part, hpart⟩ := Option.isSome_iff_exists.mp (hsome other hother)
      exact ⟨part, (choicesByName_eq_ok (uniquePlaces_form form) hother).mpr hpart⟩
  unfold CanMerge mergedSurveys
  rw [forall_prop_of_true hselect, hname, exists_mergeChoices_iff, List.forall_mem_cons, hself,
    hothers]
  constructor
  · intro ⟨⟨hchoices, hforms⟩, hitemset, hlists⟩
    exact ⟨hchoices, hitemset, hlists, hforms⟩
  · intro ⟨hchoices, hitemset, hlists, hforms⟩
    exact ⟨⟨hchoices, hforms⟩, hitemset, hlists⟩

/-- The merged choices of a question of the first level are those of all the forms. -/
theorem united_iff {step : ElementStep} {element : ElementDict}
    (h : ([step], element) ∈ placesOf [] first.children) (hcommon : Common (first :: others) [step])
    (hselect : element.type ∈ SELECTS) {choices : List ChoiceDict}
    (hmerge : mergeChoices element.name (mergedSurveys first others) = .ok choices)
    (choice : ChoiceDict) :
    choice ∈ choices ↔ ∃ form ∈ first :: others, choice ∈ choicesAt form [step] := by
  have hkept := kept_of_select h hcommon hselect
  have hname : element.name = step.1 := congrArg Prod.fst (mem_of_mem_top h).2
  rw [hname] at hmerge
  rw [mem_mergeChoices_iff hmerge]
  unfold mergedSurveys
  rw [List.exists_mem_cons_iff, List.exists_mem_cons_iff, mem_choicesAt_iff h]
  refine or_congr ?_ ?_
  · constructor
    · intro ⟨part, hpart, hmem⟩
      rw [(choicesByName_eq_ok uniquePlaces_kept hkept).mp hpart]
      exact hmem
    · intro hmem
      cases hchoices : element.choices with
      | none =>
          rw [hchoices] at hmem
          cases hmem
      | some part =>
          rw [hchoices] at hmem
          exact ⟨part, (choicesByName_eq_ok uniquePlaces_kept hkept).mpr hchoices, hmem⟩
  · simp only [List.mem_map]
    constructor
    · intro ⟨_, ⟨form, hform, rfl⟩, part, hpart, hmem⟩
      obtain ⟨other, hother⟩ := exists_top_of_common h hcommon hform
      refine ⟨form, hform, (mem_choicesAt_iff hother choice).mpr ?_⟩
      rw [(choicesByName_eq_ok (uniquePlaces_form form) hother).mp hpart]
      exact hmem
    · intro ⟨form, hform, hmem⟩
      obtain ⟨other, hother⟩ := exists_top_of_common h hcommon hform
      rw [mem_choicesAt_iff hother] at hmem
      cases hchoices : other.choices with
      | none =>
          rw [hchoices] at hmem
          cases hmem
      | some part =>
          rw [hchoices] at hmem
          exact ⟨_, ⟨form, hform, rfl⟩, part,
            (choicesByName_eq_ok (uniquePlaces_form form) hother).mpr hchoices, hmem⟩

end Merge

/-- The merge returns the survey of the loop, if an element of it is not the metadata. -/
theorem getMergedXformSurvey_eq_ok {first second : MergeForm} {rest : List MergeForm}
    {merged : SurveyDict} :
    getMergedXformSurvey (first :: second :: rest) = .ok merged ↔
      (keptElements first (second :: rest)).foldlM
          (mergeChild (mergedSurveys first (second :: rest))) ⟨[], first.choices⟩ = .ok merged ∧
        ∃ child ∈ merged.children, child.name ≠ "meta" := by
  have hall : ∀ merged : SurveyDict,
      (merged.children.all fun child => child.name = "meta") = true ↔
        ¬ ∃ child ∈ merged.children, child.name ≠ "meta" := by
    intro merged
    rw [List.all_eq_true]
    simp
  show (do
    let merged ← (keptElements first (second :: rest)).foldlM
      (mergeChild (mergedSurveys first (second :: rest))) ⟨[], first.choices⟩
    if merged.children.all fun child => child.name = "meta" then throw MergeError.noMatchingFields
    else return merged) = _ ↔ _
  rw [bind_eq_ok]
  constructor
  · intro ⟨merged', hloop, h⟩
    split at h
    · exact absurd h throw_ne_ok
    · rename_i hsome
      obtain rfl := pure_eq_ok.mp h
      exact ⟨hloop, Decidable.not_not.mp fun hnot => hsome ((hall merged').mpr hnot)⟩
  · intro ⟨hloop, hsome⟩
    refine ⟨merged, hloop, ?_⟩
    rw [if_neg fun htrue => (hall merged).mp htrue hsome]
    rfl

/-- A merged survey whose elements are those of the loop over the kept ones keeps the common
elements exactly if the kept ones are those. -/
theorem keepsCommon_iff {first : MergeForm} {others : List MergeForm} {merged : SurveyDict}
    (h : List.Forall₂ (MergedFrom (mergedSurveys first others)) (keptElements first others)
      merged.children) :
    KeepsCommon first others merged ↔
      ∀ steps, (∃ kept, (steps, kept) ∈ placesOf [] (keptElements first others)) ↔
        ∃ element, (steps, element) ∈ placesOf [] first.children ∧
          Common (first :: others) steps ∧
          (element.isSection = true →
            ∃ step child, (steps ++ [step], child) ∈ placesOf [] (keptElements first others)) := by
  have hsteps := steps_mergedFrom h
  have hexists : ∀ steps, (∃ element, (steps, element) ∈ placesOf [] merged.children) ↔
      ∃ kept, (steps, kept) ∈ placesOf [] (keptElements first others) := by
    intro steps
    have hmem : ∀ places : List (List ElementStep × ElementDict),
        (∃ element, (steps, element) ∈ places) ↔ steps ∈ places.map (·.1) := by
      intro places
      rw [List.mem_map]
      constructor
      · intro ⟨element, hplace⟩
        exact ⟨_, hplace, rfl⟩
      · intro ⟨⟨_, element⟩, hplace, heq⟩
        exact ⟨element, heq ▸ hplace⟩
    rw [hmem, hmem, hsteps]
  constructor
  · intro hkeeps steps
    rw [← hexists, hkeeps.kept]
    simp only [hexists]
  · intro hkept
    refine ⟨fun steps => ?_, ?_⟩
    · rw [hexists, hkept]
      simp only [hexists]
    · rw [hsteps]
      exact steps_sublist fun element _ _ => steps_getElement_sublist _

/-- The choices after the loop are those of all the forms, exactly if the nested select
questions have all their choices in the first form. -/
theorem unitesChoices_iff {first : MergeForm} {others : List MergeForm} {merged : SurveyDict}
    (h : List.Forall₂ (MergedFrom (mergedSurveys first others)) (keptElements first others)
      merged.children) :
    UnitesChoices first others merged ↔
      ∀ steps element, (steps, element) ∈ placesOf [] first.children →
        Common (first :: others) steps → element.type ∈ SELECTS → steps.length ≠ 1 →
          ∀ form ∈ others, ∀ choice ∈ choicesAt form steps,
            choice ∈ element.choices.getD [] := by
  constructor
  · intro hunites steps element hplace hcommon hselect hlength form hform choice hchoice
    have hmerged : (steps, element) ∈ placesOf [] merged.children :=
      (placed_mergedFrom h steps element).mpr
        (Or.inr ⟨hlength, kept_of_select hplace hcommon hselect⟩)
    exact (hunites steps element hmerged hselect choice).mpr
      ⟨form, List.mem_cons_of_mem _ hform, hchoice⟩
  · intro hnested steps element hplace hselect choice
    rcases (placed_mergedFrom h steps element).mp hplace with
      ⟨child, hchild, rfl, -, -, hfrom⟩ | ⟨hlength, hkept⟩
    · -- The question of the first level has the merged choices.
      have htype : child.type = element.type := (congrArg Prod.snd hfrom.step).symm
      rw [← htype] at hselect
      obtain ⟨hfirst, hcommon⟩ := select_of_kept hchild hselect
      obtain ⟨choices, hmerge, hchoices⟩ := hfrom.united hselect
      rw [hchoices]
      exact united_iff hfirst hcommon hselect hmerge choice
    · obtain ⟨hfirst, hcommon⟩ := select_of_kept hkept hselect
      rw [List.exists_mem_cons_iff, mem_choicesAt_iff hfirst]
      constructor
      · exact Or.inl
      · intro hsome
        rcases hsome with hown | ⟨form, hform, hchoice⟩
        · exact hown
        · exact hnested steps element hfirst hcommon hselect hlength form hform choice hchoice

/-- Forms with a matching field are merged into their intersection exactly under the
conditions. -/
theorem mergesForms_iff (first second : MergeForm) (rest : List MergeForm)
    (hmatch : HasMatch first (second :: rest)) :
    MergesForms first (second :: rest) ↔ MergeConditions first (second :: rest) := by
  constructor
  · intro ⟨merged, hget, hkeeps, hunites⟩
    obtain ⟨hloop, -⟩ := getMergedXformSurvey_eq_ok.mp hget
    obtain ⟨hcan, out, hout, hforall⟩ := mergeLoop_spec hloop
    obtain rfl : merged.children = out := hout
    obtain ⟨hsections, hquestions⟩ := conditions_of_steps_kept ((keepsCommon_iff hforall).mp hkeeps)
    refine ⟨hsections, hquestions, (unitesChoices_iff hforall).mp hunites, ?_⟩
    intro step element hplace hcommon hselect
    have hkept := kept_of_select hplace hcommon hselect
    exact (canMerge_iff hplace hcommon hselect).mp (hcan element (mem_of_mem_top hkept).1)
  · intro h
    have hcan : ∀ child ∈ keptElements first (second :: rest),
        CanMerge (mergedSurveys first (second :: rest)) first.choices.isSome child := by
      intro child hchild hselect
      have hplace := top_mem_placesOf hchild
      obtain ⟨hfirst, hcommon⟩ := select_of_kept hplace hselect
      exact (canMerge_iff hfirst hcommon hselect).mpr (h.keys _ _ hfirst hcommon hselect) hselect
    obtain ⟨merged, hloop⟩ := @exists_mergeLoop _ _ ⟨[], first.choices⟩ hcan
    obtain ⟨-, out, hout, hforall⟩ := mergeLoop_spec hloop
    obtain rfl : merged.children = out := hout
    have hkeeps := (keepsCommon_iff hforall).mpr (steps_kept_iff h)
    refine ⟨merged, getMergedXformSurvey_eq_ok.mpr ⟨hloop, ?_⟩, hkeeps,
      (unitesChoices_iff hforall).mpr h.nested⟩
    -- The matching question is below an element that is not the metadata.
    obtain ⟨step, steps, element, hplace, hquestion, hcommon, hname⟩ := hmatch
    obtain ⟨kept, hkept⟩ := (hkeeps.kept (step :: steps)).mpr
      ⟨element, hplace, hcommon, fun hsection => by rw [hquestion] at hsection; cases hsection⟩
    obtain ⟨top, htop⟩ := mem_placesOf.mp hkept
    obtain ⟨hmem, hplace⟩ := htop
    have hprefix := step_prefix_of_mem_places hplace
    refine ⟨top, hmem, ?_⟩
    have hstep : top.step = step := List.cons_prefix_cons.mp hprefix |>.1
    rw [← hstep] at hname
    exact hname

/-- A form with a question of the type `select one`. -/
def colourForm (choice : ChoiceDict) (h : IsName choice.name) : MergeForm where
  children := [.question "select one" ⟨"colour", none, some "colours", []⟩ (some [choice])]
  choices := some [("colours", [choice])]
  isName := by
    intro place hplace
    have hname : ∀ step ∈ [(("colour", "select one") : ElementStep)], IsName step.1 := by decide
    obtain rfl := List.mem_singleton.mp hplace
    refine ⟨hname, fun choices hchoices other hother => ?_⟩
    obtain rfl := Option.some_inj.mp hchoices
    obtain rfl := List.mem_singleton.mp hother
    exact h
  nodup := List.nodup_singleton _

/-- The same question in a group. -/
def homeForm (choice : ChoiceDict) (h : IsName choice.name) : MergeForm where
  children := [.fullSection .group ⟨"home", none, none, []⟩
    [.question "select one" ⟨"colour", none, some "colours", []⟩ (some [choice])]]
  choices := some [("colours", [choice])]
  isName := by
    intro place hplace
    have hgroup : ∀ step ∈ [(("home", "group") : ElementStep)], IsName step.1 := by decide
    have hname : ∀ step ∈ [(("home", "group") : ElementStep), ("colour", "select one")],
        IsName step.1 := by decide
    rcases List.mem_cons.mp hplace with rfl | hplace
    · exact ⟨hgroup, fun choices hchoices => by cases hchoices⟩
    · obtain rfl := List.mem_singleton.mp hplace
      refine ⟨hname, fun choices hchoices other hother => ?_⟩
      obtain rfl := Option.some_inj.mp hchoices
      obtain rfl := List.mem_singleton.mp hother
      exact h
  nodup := by
    show [["home"], ["home", "colour"]].Nodup
    decide

/-- The forms with the choices red and blue are merged. -/
theorem mergesForms_colours :
    HasMatch (colourForm ⟨"red", ""⟩ (by decide)) [colourForm ⟨"blue", ""⟩ (by decide)] ∧
      MergesForms (colourForm ⟨"red", ""⟩ (by decide)) [colourForm ⟨"blue", ""⟩ (by decide)] := by
  have hplaces : ∀ choice h, placesOf [] (colourForm choice h).children =
      [([("colour", "select one")], .question "select one" ⟨"colour", none, some "colours", []⟩
        (some [choice]))] := fun _ _ => rfl
  have hcommon : Common [colourForm ⟨"red", ""⟩ (by decide), colourForm ⟨"blue", ""⟩ (by decide)]
      [("colour", "select one")] := by
    intro init last hprefix
    have hlast : init ++ [last] = [] ++ [("colour", "select one")] :=
      hprefix.eq_of_length_le (by simp)
    obtain ⟨rfl, hlast⟩ := List.append_inj' hlast rfl
    obtain rfl := List.singleton_inj.mp hlast
    decide
  have hmatch : HasMatch (colourForm ⟨"red", ""⟩ (by decide))
      [colourForm ⟨"blue", ""⟩ (by decide)] :=
    ⟨_, [], _, List.mem_singleton.mpr rfl, rfl, hcommon, by decide⟩
  refine ⟨hmatch, (mergesForms_iff _ _ [] hmatch).mpr ⟨?_, ?_, ?_, ?_⟩⟩
  · intro steps type entries hplace
    rw [hplaces, List.mem_singleton, Prod.mk.injEq] at hplace
    exact absurd hplace.2 (by simp)
  · intro steps type entries choices hplace _
    rw [hplaces, List.mem_singleton, Prod.mk.injEq] at hplace
    have htype := hplace.2
    injection htype with htype
    rw [htype]
    decide
  · intro steps element hplace _ _ hlength
    rw [hplaces, List.mem_singleton, Prod.mk.injEq] at hplace
    exact absurd (by rw [hplace.1]; rfl) hlength
  · intro step element hplace _ _
    rw [hplaces, List.mem_singleton, Prod.mk.injEq] at hplace
    obtain rfl := hplace.2
    refine ⟨rfl, rfl, rfl, fun form hform other hother => ?_⟩
    obtain rfl := List.mem_singleton.mp hform
    rw [hplaces, List.mem_singleton, Prod.mk.injEq] at hother
    rw [hother.2]
    rfl

/-- Below a group the choice blue of the second form is lost. -/
theorem not_mergesForms_nested :
    ¬ ∀ first second rest, HasMatch first (second :: rest) →
      MergesForms first (second :: rest) := by
  intro hall
  have hplace : ∀ choice h,
      ([("home", "group"), ("colour", "select one")],
        ElementDict.question "select one" ⟨"colour", none, some "colours", []⟩ (some [choice])) ∈
          placesOf [] (homeForm choice h).children := fun _ _ =>
    List.mem_cons_of_mem _ (List.mem_singleton.mpr rfl)
  have hcommon : Common [homeForm ⟨"red", ""⟩ (by decide), homeForm ⟨"blue", ""⟩ (by decide)]
      [("home", "group"), ("colour", "select one")] := by
    intro init last hprefix
    rcases (@List.prefix_concat_iff _ _ [("home", "group")] _).mp hprefix with heq | hprefix
    · obtain ⟨rfl, hlast⟩ := List.append_inj' heq rfl
      obtain rfl := List.singleton_inj.mp hlast
      decide
    · have heq : init ++ [last] = [] ++ [("home", "group")] :=
        hprefix.eq_of_length_le (by simp)
      obtain ⟨rfl, hlast⟩ := List.append_inj' heq rfl
      obtain rfl := List.singleton_inj.mp hlast
      decide
  obtain ⟨merged, hget, -, hunites⟩ := hall (homeForm ⟨"red", ""⟩ (by decide))
    (homeForm ⟨"blue", ""⟩ (by decide)) []
    ⟨_, _, _, hplace _ _, rfl, hcommon, by decide⟩
  obtain ⟨hloop, -⟩ := getMergedXformSurvey_eq_ok.mp hget
  obtain ⟨-, out, hout, hforall⟩ := mergeLoop_spec hloop
  obtain rfl : merged.children = out := hout
  have hnested := (unitesChoices_iff hforall).mp hunites _ _ (hplace _ _) hcommon
    (by decide) (by decide) _ (List.mem_singleton.mpr rfl) ⟨"blue", ""⟩
    (by decide)
  revert hnested
  decide

end Onadata.Proofs
