import Mathlib.Data.List.Infix
import Mathlib.Data.List.Nodup
import Onadata.Libs.Serializers.MergedXFormSerializer

/-!
# `Onadata.Proofs.Libs.Serializers.CommonElements`: what `_get_elements` keeps

The elements of a form as places: the steps from the root of the survey to an element, each
with a name and a type. `placed_getElements` states what `_get_elements` leaves of the places:
an element stays when the xpath of each step to it is in the intersection and the element
itself is kept.

The intersection holds xpaths without types. `inside_iff_common` proves that this makes no
difference: in a form, a place is known by its xpath.
-/

set_option autoImplicit false

namespace Onadata.Proofs

open Onadata.Lib

/-! ### Places -/

/-- The induction over the elements below an element. -/
theorem elementDict_induct {P : ElementDict → Prop}
    (h : ∀ element, (∀ child ∈ element.children, P child) → P element) : ∀ element, P element
  | .question type entries choices => h _ fun _ hchild => absurd hchild List.not_mem_nil
  | .bareSection type entries => h _ fun _ hchild => absurd hchild List.not_mem_nil
  | .fullSection type entries children => h _ fun child _hchild => elementDict_induct h child
termination_by element => sizeOf element
decreasing_by
  have hlt : sizeOf child < sizeOf children := List.sizeOf_lt_of_mem _hchild
  rw [ElementDict.fullSection.sizeOf_spec]
  omega

/-- The places of an element are its own and the ones below it. -/
theorem places_eq (path : List ElementStep) (element : ElementDict) :
    element.places path =
      (path ++ [element.step], element) ::
        placesOf (path ++ [element.step]) element.children := by
  cases element <;> rfl

/-- A place is one of an element. -/
theorem mem_placesOf {path : List ElementStep} {elements : List ElementDict}
    {place : List ElementStep × ElementDict} :
    place ∈ placesOf path elements ↔ ∃ element ∈ elements, place ∈ element.places path := by
  induction elements with
  | nil => simp [placesOf]
  | cons element rest ih => rw [placesOf, List.mem_append, ih, List.exists_mem_cons_iff]

/-- The steps to a place go through the element. -/
theorem step_prefix_of_mem_places {element : ElementDict} : ∀ {path : List ElementStep}
    {place : List ElementStep × ElementDict}, place ∈ element.places path →
      path ++ [element.step] <+: place.1 := by
  induction element using elementDict_induct with
  | h element ih =>
      intro path place hplace
      rw [places_eq] at hplace
      rcases List.mem_cons.mp hplace with rfl | hbelow
      · exact List.prefix_rfl
      · obtain ⟨child, hchild, hplace⟩ := mem_placesOf.mp hbelow
        exact List.IsPrefix.trans (List.prefix_append _ _) (ih child hchild hplace)

/-- The last step to a place is the one of its element. -/
theorem exists_init_of_mem_places {element : ElementDict} : ∀ {path : List ElementStep}
    {place : List ElementStep × ElementDict}, place ∈ element.places path →
      ∃ init, path <+: init ∧ place.1 = init ++ [place.2.step] := by
  induction element using elementDict_induct with
  | h element ih =>
      intro path place hplace
      rw [places_eq] at hplace
      rcases List.mem_cons.mp hplace with rfl | hbelow
      · exact ⟨path, List.prefix_rfl, rfl⟩
      · obtain ⟨child, hchild, hplace⟩ := mem_placesOf.mp hbelow
        obtain ⟨init, hinit, heq⟩ := ih child hchild hplace
        exact ⟨init, List.IsPrefix.trans (List.prefix_append _ _) hinit, heq⟩

/-- The elements on the way to a place have places. -/
theorem mem_places_of_prefix {element : ElementDict} : ∀ {path init : List ElementStep}
    {last : ElementStep} {place : List ElementStep × ElementDict},
    place ∈ element.places path → path <+: init → init ++ [last] <+: place.1 →
      ∃ parent, (init ++ [last], parent) ∈ element.places path ∧
        (init ++ [last] = place.1 ∨ place ∈ placesOf (init ++ [last]) parent.children) := by
  induction element using elementDict_induct with
  | h element ih =>
      intro path init last place hplace hpath hinit
      rw [places_eq] at hplace ⊢
      have hstep : path ++ [element.step] <+: place.1 :=
        step_prefix_of_mem_places (by rw [places_eq]; exact hplace)
      by_cases hlength : init.length = path.length
      · -- The steps end at the element itself.
        have hsame : init = path := (List.IsPrefix.eq_of_length hpath hlength.symm).symm
        have heq : init ++ [last] = path ++ [element.step] := by
          have hle : (init ++ [last]).length = (path ++ [element.step]).length := by
            simp [hlength]
          exact (List.prefix_of_prefix_length_le hinit hstep (Nat.le_of_eq hle)).eq_of_length hle
        refine ⟨element, ?_, ?_⟩
        · rw [heq]
          exact List.mem_cons_self
        · rcases List.mem_cons.mp hplace with rfl | hbelow
          · exact Or.inl heq
          · rw [heq]
            exact Or.inr hbelow
      · have hlonger : (path ++ [element.step]).length ≤ init.length := by
          have hle := hpath.length_le
          simp only [List.length_append, List.length_singleton]
          omega
        have hthrough : path ++ [element.step] <+: init :=
          List.prefix_of_prefix_length_le hstep
            (List.IsPrefix.trans (List.prefix_append init [last]) hinit) hlonger
        rcases List.mem_cons.mp hplace with rfl | hbelow
        · -- The element's own place is too short.
          have hle := hinit.length_le
          simp only [List.length_append, List.length_singleton] at hle hlonger
          omega
        · obtain ⟨child, hchild, hplace⟩ := mem_placesOf.mp hbelow
          obtain ⟨parent, hparent, hrest⟩ := ih child hchild hplace hthrough hinit
          exact ⟨parent, List.mem_cons_of_mem _ (mem_placesOf.mpr ⟨child, hchild, hparent⟩), hrest⟩

/-! ### `_get_elements` -/

/-- `_get_elements` keeps what each round keeps. -/
theorem getElements_eq (intersect : List String) (parentPrefix : String)
    (elements : List ElementDict) :
    getElements intersect parentPrefix elements =
      elements.filterMap (getElement intersect parentPrefix) := by
  induction elements with
  | nil => rfl
  | cons element rest ih =>
      rw [getElements, ih, List.filterMap_cons]
      cases getElement intersect parentPrefix element <;> rfl

/-- A text starts with the prefix that it was made with. -/
theorem startsWith_prefixedName (parentPrefix name : String) :
    startsWith (prefixedName parentPrefix name) parentPrefix = true := by
  unfold startsWith prefixedName
  by_cases h : parentPrefix = ""
  · rw [h]
    rfl
  · rw [if_neg h, String.append_assoc, String.toList_append, List.isPrefixOf_iff_prefix]
    exact List.prefix_append _ _

/-- The start of the start of a text. -/
theorem startsWith_trans {text head start : String} (h : startsWith text head = true)
    (h' : startsWith head start = true) : startsWith text start = true := by
  unfold startsWith at h h' ⊢
  rw [List.isPrefixOf_iff_prefix] at h h' ⊢
  exact h'.trans h

/-- Only the xpaths below the prefix matter. -/
theorem getElement_congr {element : ElementDict} : ∀ {intersect intersect' : List String}
    {parentPrefix : String},
    (∀ xpath, startsWith xpath parentPrefix = true → (xpath ∈ intersect ↔ xpath ∈ intersect')) →
      getElement intersect parentPrefix element = getElement intersect' parentPrefix element := by
  induction element using elementDict_induct with
  | h element ih =>
      intro intersect intersect' parentPrefix hsame
      have hname := hsame _ (startsWith_prefixedName parentPrefix element.name)
      have hbelow : ∀ xpath,
          xpath ∈ intersect.filter (startsWith · (prefixedName parentPrefix element.name)) ↔
            xpath ∈ intersect'.filter (startsWith · (prefixedName parentPrefix element.name)) := by
        intro xpath
        rw [List.mem_filter, List.mem_filter]
        refine and_congr_left fun hstarts => ?_
        exact hsame xpath (startsWith_trans hstarts (startsWith_prefixedName _ _))
      cases element with
      | question type entries choices =>
          have hentry : prefixedName parentPrefix entries.name ∈ intersect ↔
            prefixedName parentPrefix entries.name ∈ intersect' := hname
          unfold getElement
          cases choices with
          | none => simp only [hentry]
          | some choices =>
              have hkept : choices.filter (fun choice =>
                    prefixedName (prefixedName parentPrefix entries.name) choice.name ∈
                      intersect.filter (startsWith · (prefixedName parentPrefix entries.name))) =
                  choices.filter fun choice =>
                    prefixedName (prefixedName parentPrefix entries.name) choice.name ∈
                      intersect'.filter (startsWith · (prefixedName parentPrefix entries.name)) :=
                List.filter_congr fun choice _ => decide_eq_decide.mpr (hbelow _)
              simp only [hentry, hkept]
      | bareSection type entries =>
          have hentry : prefixedName parentPrefix entries.name ∈ intersect ↔
            prefixedName parentPrefix entries.name ∈ intersect' := hname
          unfold getElement
          simp only [hentry]
      | fullSection type entries children =>
          have hentry : prefixedName parentPrefix entries.name ∈ intersect ↔
            prefixedName parentPrefix entries.name ∈ intersect' := hname
          have hchildren : getElements
              (intersect.filter (startsWith · (prefixedName parentPrefix entries.name)))
              (prefixedName parentPrefix entries.name) children =
            getElements
              (intersect'.filter (startsWith · (prefixedName parentPrefix entries.name)))
              (prefixedName parentPrefix entries.name) children := by
            rw [getElements_eq, getElements_eq]
            refine List.filterMap_congr fun child hchild => ?_
            exact ih child hchild fun xpath _ => hbelow xpath
          unfold getElement
          simp only [hentry, hchildren]

/-- The intersection below a prefix is enough for the elements below it. -/
theorem getElements_filter (intersect : List String) (name : String)
    (elements : List ElementDict) :
    getElements (intersect.filter (startsWith · name)) name elements =
      getElements intersect name elements := by
  rw [getElements_eq, getElements_eq]
  refine List.filterMap_congr fun element _ => getElement_congr fun xpath hstarts => ?_
  rw [List.mem_filter, and_iff_left hstarts]

/-- A section with elements: it is kept when one of them is. -/
theorem getElement_fullSection (intersect : List String) (parentPrefix : String)
    (type : SectionType) (entries : ElementEntries) (children : List ElementDict) :
    getElement intersect parentPrefix (.fullSection type entries children) =
      if prefixedName parentPrefix entries.name ∈ intersect then
        if (getElements intersect (prefixedName parentPrefix entries.name) children).isEmpty then
          none
        else
          some (.fullSection type entries
            (getElements intersect (prefixedName parentPrefix entries.name) children))
      else none := by
  rw [getElement]
  simp only [getElements_filter]

/-- What is kept of an element. -/
theorem getElement_eq_some {intersect : List String} {parentPrefix : String}
    {element kept : ElementDict} (h : getElement intersect parentPrefix element = some kept) :
    prefixedName parentPrefix element.name ∈ intersect ∧ kept.step = element.step ∧
      kept.entries = element.entries ∧
      kept.children =
        getElements intersect (prefixedName parentPrefix element.name) element.children := by
  cases element with
  | question type entries choices =>
      unfold getElement at h
      dsimp only at h
      by_cases hname : prefixedName parentPrefix entries.name ∈ intersect
      · rw [if_pos hname] at h
        cases choices with
        | none =>
            obtain rfl := Option.some.inj h
            exact ⟨hname, rfl, rfl, rfl⟩
        | some choices =>
            dsimp only at h
            split at h
            · split at h
              · cases h
              · obtain rfl := Option.some.inj h
                exact ⟨hname, rfl, rfl, rfl⟩
            · obtain rfl := Option.some.inj h
              exact ⟨hname, rfl, rfl, rfl⟩
      · rw [if_neg hname] at h
        cases h
  | bareSection type entries =>
      unfold getElement at h
      by_cases hname : prefixedName parentPrefix entries.name ∈ intersect
      · rw [if_pos hname] at h
        obtain rfl := Option.some.inj h
        exact ⟨hname, rfl, rfl, rfl⟩
      · rw [if_neg hname] at h
        cases h
  | fullSection type entries children =>
      rw [getElement_fullSection] at h
      by_cases hname : prefixedName parentPrefix entries.name ∈ intersect
      · rw [if_pos hname] at h
        split at h
        · cases h
        · obtain rfl := Option.some.inj h
          exact ⟨hname, rfl, rfl, rfl⟩
      · rw [if_neg hname] at h
        cases h

/-! ### The places that are left -/

/-- The steps to a place have names. -/
def HasNames (steps : List ElementStep) : Prop :=
  ∀ step ∈ steps, IsName step.1

/-- The xpath of each step behind `path` is in the intersection. -/
def Inside (intersect : List String) (path steps : List ElementStep) : Prop :=
  ∀ init last, path <+: init → init ++ [last] <+: steps →
    stepsXpath (init ++ [last]) ∈ intersect

/-- The first step behind the path, and the rest. -/
theorem inside_cons_iff {intersect : List String} {path steps : List ElementStep}
    {step : ElementStep} (h : path ++ [step] <+: steps) :
    Inside intersect path steps ↔
      stepsXpath (path ++ [step]) ∈ intersect ∧ Inside intersect (path ++ [step]) steps := by
  constructor
  · intro hinside
    refine ⟨hinside path step List.prefix_rfl h, fun init last hpath hinit => ?_⟩
    exact hinside init last (List.IsPrefix.trans (List.prefix_append _ _) hpath) hinit
  · intro ⟨hfirst, hinside⟩ init last hpath hinit
    obtain ⟨rest, rfl⟩ := hpath
    cases rest with
    | nil =>
        rw [List.append_nil] at hinit ⊢
        have heq : path ++ [last] = path ++ [step] :=
          (List.prefix_of_prefix_length_le hinit h (by simp)).eq_of_length (by simp)
        rw [heq]
        exact hfirst
    | cons next rest =>
        have hnext : path ++ [next] <+: steps := by
          refine List.IsPrefix.trans ⟨rest ++ [last], ?_⟩ hinit
          simp
        have heq : path ++ [next] = path ++ [step] :=
          (List.prefix_of_prefix_length_le hnext h (by simp)).eq_of_length (by simp)
        refine hinside (path ++ next :: rest) last ⟨rest, ?_⟩ hinit
        rw [← heq, List.append_assoc, List.singleton_append]

/-- The place of the first step has no others behind it. -/
theorem inside_self (intersect : List String) (steps : List ElementStep) :
    Inside intersect steps steps := by
  intro init last hpath hinit
  have hle := hpath.length_le
  have hle' := hinit.length_le
  rw [List.length_append, List.length_singleton] at hle'
  omega

/-- The xpath of an element below a section. -/
theorem prefixedName_stepsXpath {path : List ElementStep} (hpath : HasNames path)
    (step : ElementStep) :
    prefixedName (stepsXpath path) step.1 = stepsXpath (path ++ [step]) := by
  unfold prefixedName stepsXpath
  rw [List.map_append, List.map_singleton]
  cases path with
  | nil => rfl
  | cons first path =>
      have hnames : ∀ name ∈ (first :: path).map (·.1), IsName name := by
        intro name hname
        obtain ⟨step, hstep, rfl⟩ := List.mem_map.mp hname
        exact hpath step hstep
      rw [if_neg (joinPath_ne_empty hnames (by simp)),
        ← joinPath_joinPath_cons (by simp) (by simp), joinPath_cons _ (by simp),
        joinPath_singleton]

/-- What is left of an element's places: those whose steps are all in the intersection, with
what is kept of the element there. -/
theorem placed_getElement (intersect : List String) {element : ElementDict} :
    ∀ {path : List ElementStep}, (∀ place ∈ element.places path, HasNames place.1) →
      ∀ steps (kept : ElementDict),
        (∃ top, getElement intersect (stepsXpath path) element = some top ∧
          (steps, kept) ∈ top.places path) ↔
        ∃ source, (steps, source) ∈ element.places path ∧ Inside intersect path steps ∧
          getElement intersect (stepsXpath steps.dropLast) source = some kept := by
  induction element using elementDict_induct with
  | h element ih =>
      intro path hnames steps kept
      have hself : HasNames (path ++ [element.step]) := by
        refine hnames (path ++ [element.step], element) ?_
        rw [places_eq]
        exact List.mem_cons_self
      have hname : prefixedName (stepsXpath path) element.name =
          stepsXpath (path ++ [element.step]) :=
        prefixedName_stepsXpath (fun step hstep => hself step (List.mem_append_left _ hstep))
          element.step
      have hchild : ∀ child ∈ element.children,
          ∀ place ∈ child.places (path ++ [element.step]), HasNames place.1 := by
        intro child hchild place hplace
        refine hnames place ?_
        rw [places_eq]
        exact List.mem_cons_of_mem _ (mem_placesOf.mpr ⟨child, hchild, hplace⟩)
      constructor
      · intro ⟨top, htop, hmem⟩
        obtain ⟨hin, hstep, -, hchildren⟩ := getElement_eq_some htop
        rw [hname] at hin
        rw [places_eq, hstep, hchildren, hname] at hmem
        rcases List.mem_cons.mp hmem with hown | hbelow
        · obtain ⟨rfl, rfl⟩ := Prod.mk.inj hown
          refine ⟨element, ?_, (inside_cons_iff List.prefix_rfl).mpr ⟨hin, inside_self _ _⟩, ?_⟩
          · rw [places_eq]
            exact List.mem_cons_self
          · rw [List.dropLast_concat]
            exact htop
        · rw [getElements_eq] at hbelow
          obtain ⟨top', htop', hmem'⟩ := mem_placesOf.mp hbelow
          obtain ⟨child, hmemchild, hkept⟩ := List.mem_filterMap.mp htop'
          obtain ⟨source, hsource, hinside, hsome⟩ :=
            (ih child hmemchild (hchild child hmemchild) steps kept).mp ⟨top', hkept, hmem'⟩
          have hbelow' : (steps, source) ∈ element.places path := by
            rw [places_eq]
            exact List.mem_cons_of_mem _ (mem_placesOf.mpr ⟨child, hmemchild, hsource⟩)
          have hprefix : path ++ [element.step] <+: steps := step_prefix_of_mem_places hbelow'
          exact ⟨source, hbelow', (inside_cons_iff hprefix).mpr ⟨hin, hinside⟩, hsome⟩
      · intro ⟨source, hsource, hinside, hsome⟩
        have hprefix : path ++ [element.step] <+: steps := step_prefix_of_mem_places hsource
        obtain ⟨hin, hinside⟩ := (inside_cons_iff hprefix).mp hinside
        rw [places_eq] at hsource
        rcases List.mem_cons.mp hsource with hown | hbelow
        · obtain ⟨rfl, rfl⟩ := Prod.mk.inj hown
          rw [List.dropLast_concat] at hsome
          refine ⟨kept, hsome, ?_⟩
          rw [places_eq, (getElement_eq_some hsome).2.1]
          exact List.mem_cons_self
        · obtain ⟨child, hmemchild, hplace⟩ := mem_placesOf.mp hbelow
          obtain ⟨top', hkept, hmem⟩ :=
            (ih child hmemchild (hchild child hmemchild) steps kept).mpr
              ⟨source, hplace, hinside, hsome⟩
          have htop' : top' ∈ getElements intersect (stepsXpath (path ++ [element.step]))
              element.children := by
            rw [getElements_eq]
            exact List.mem_filterMap.mpr ⟨child, hmemchild, hkept⟩
          cases element with
          | question type entries choices => cases hmemchild
          | bareSection type entries => cases hmemchild
          | fullSection type entries children =>
              -- The section is kept, since one of its elements is.
              refine ⟨.fullSection type entries (getElements intersect
                (stepsXpath (path ++ [(entries.name, type.text)])) children), ?_, ?_⟩
              · rw [getElement_fullSection, show prefixedName (stepsXpath path) entries.name = _
                  from hname, if_pos hin, if_neg]
                · rfl
                · intro hempty
                  rw [List.isEmpty_iff] at hempty
                  rw [show getElements intersect _ (ElementDict.fullSection type entries
                    children).children = [] from hempty] at htop'
                  cases htop'
              · rw [places_eq]
                exact List.mem_cons_of_mem _ (mem_placesOf.mpr ⟨top', htop', hmem⟩)

/-- What `_get_elements` leaves of the places of a survey. -/
theorem placed_getElements (intersect : List String) {elements : List ElementDict}
    (hnames : ∀ place ∈ placesOf [] elements, HasNames place.1) (steps : List ElementStep)
    (kept : ElementDict) :
    (steps, kept) ∈ placesOf [] (getElements intersect "" elements) ↔
      ∃ source, (steps, source) ∈ placesOf [] elements ∧ Inside intersect [] steps ∧
        getElement intersect (stepsXpath steps.dropLast) source = some kept := by
  have helement : ∀ element ∈ elements, ∀ place ∈ element.places [], HasNames place.1 :=
    fun element helement place hplace =>
      hnames place (mem_placesOf.mpr ⟨element, helement, hplace⟩)
  rw [getElements_eq]
  constructor
  · intro hmem
    obtain ⟨top, htop, hmem⟩ := mem_placesOf.mp hmem
    obtain ⟨element, hmemelement, hkept⟩ := List.mem_filterMap.mp htop
    obtain ⟨source, hsource, hrest⟩ :=
      (placed_getElement intersect (helement element hmemelement) steps kept).mp
        ⟨top, hkept, hmem⟩
    exact ⟨source, mem_placesOf.mpr ⟨element, hmemelement, hsource⟩, hrest⟩
  · intro ⟨source, hsource, hrest⟩
    obtain ⟨element, hmemelement, hsource⟩ := mem_placesOf.mp hsource
    obtain ⟨top, hkept, hmem⟩ :=
      (placed_getElement intersect (helement element hmemelement) steps kept).mpr
        ⟨source, hsource, hrest⟩
    exact mem_placesOf.mpr ⟨top, List.mem_filterMap.mpr ⟨element, hmemelement, hkept⟩, hmem⟩

/-- The order of the elements stays when it does within each of them. -/
theorem steps_sublist {intersect : List String} {parentPrefix : String}
    {path : List ElementStep} {elements : List ElementDict}
    (h : ∀ element ∈ elements, ∀ top, getElement intersect parentPrefix element = some top →
      ((top.places path).map (·.1)).Sublist ((element.places path).map (·.1))) :
    ((placesOf path (getElements intersect parentPrefix elements)).map (·.1)).Sublist
      ((placesOf path elements).map (·.1)) := by
  rw [getElements_eq]
  induction elements with
  | nil => exact List.Sublist.refl _
  | cons element rest ih =>
      rw [List.forall_mem_cons] at h
      rw [List.filterMap_cons, placesOf, List.map_append]
      cases helement : getElement intersect parentPrefix element with
      | none => exact (ih h.2).trans (List.sublist_append_right _ _)
      | some kept =>
          show ((kept.places _ ++ placesOf _ _).map (·.1)).Sublist _
          rw [List.map_append]
          exact List.Sublist.append (h.1 kept helement) (ih h.2)

/-- The order of the elements stays. -/
theorem steps_getElement_sublist (intersect : List String) {element : ElementDict} :
    ∀ {path : List ElementStep} {parentPrefix : String} {top : ElementDict},
      getElement intersect parentPrefix element = some top →
        ((top.places path).map (·.1)).Sublist ((element.places path).map (·.1)) := by
  induction element using elementDict_induct with
  | h element ih =>
      intro path parentPrefix top htop
      obtain ⟨-, hstep, -, hchildren⟩ := getElement_eq_some htop
      rw [places_eq, places_eq, hstep, hchildren, List.map_cons, List.map_cons]
      exact List.Sublist.cons_cons _ (steps_sublist fun child hchild _ => ih child hchild)

/-- The last step to a place is the one of its element. -/
theorem exists_init_of_mem_placesOf {path : List ElementStep} {elements : List ElementDict}
    {place : List ElementStep × ElementDict} (h : place ∈ placesOf path elements) :
    ∃ init, path <+: init ∧ place.1 = init ++ [place.2.step] := by
  obtain ⟨element, -, hplace⟩ := mem_placesOf.mp h
  exact exists_init_of_mem_places hplace

/-- The steps to a place end with the one of its element. -/
theorem exists_init_step {path steps : List ElementStep} {elements : List ElementDict}
    {element : ElementDict} (h : (steps, element) ∈ placesOf path elements) :
    ∃ init, steps = init ++ [element.step] := by
  obtain ⟨init, -, hsteps⟩ := exists_init_of_mem_placesOf h
  exact ⟨init, hsteps⟩

/-- The elements on the way to a place have places. -/
theorem mem_placesOf_of_prefix {path init : List ElementStep} {elements : List ElementDict}
    {last : ElementStep} {place : List ElementStep × ElementDict}
    (h : place ∈ placesOf path elements) (hpath : path <+: init)
    (hinit : init ++ [last] <+: place.1) :
    ∃ parent, (init ++ [last], parent) ∈ placesOf path elements ∧
      (init ++ [last] = place.1 ∨ place ∈ placesOf (init ++ [last]) parent.children) := by
  obtain ⟨element, helement, hplace⟩ := mem_placesOf.mp h
  obtain ⟨parent, hparent, hrest⟩ := mem_places_of_prefix hplace hpath hinit
  exact ⟨parent, mem_placesOf.mpr ⟨element, helement, hparent⟩, hrest⟩

/-- The place of an element below a section. -/
theorem mem_placesOf_child {element child : ElementDict} (hchild : child ∈ element.children) :
    ∀ {path steps : List ElementStep} {top : ElementDict},
      (steps, element) ∈ top.places path → (steps ++ [child.step], child) ∈ top.places path := by
  intro path steps top
  induction top using elementDict_induct generalizing path with
  | h top ih =>
      intro hplace
      rw [places_eq] at hplace ⊢
      refine List.mem_cons_of_mem _ ?_
      rcases List.mem_cons.mp hplace with hown | hbelow
      · obtain ⟨rfl, rfl⟩ := Prod.mk.inj hown
        refine mem_placesOf.mpr ⟨child, hchild, ?_⟩
        rw [places_eq]
        exact List.mem_cons_self
      · obtain ⟨next, hnext, hplace⟩ := mem_placesOf.mp hbelow
        exact mem_placesOf.mpr ⟨next, hnext, ih next hnext hplace⟩

/-! ### Forms -/

/-- The steps to a place of a form have names. -/
theorem hasNames_of_mem {form : MergeForm} {place : List ElementStep × ElementDict}
    (h : place ∈ placesOf [] form.children) : HasNames place.1 :=
  (form.isName place h).1

/-- The names on the way, from the text of the xpath. -/
theorem names_eq_of_stepsXpath_eq {steps steps' : List ElementStep} (h : HasNames steps)
    (h' : HasNames steps') (hxpath : stepsXpath steps = stepsXpath steps') :
    steps.map (·.1) = steps'.map (·.1) := by
  refine joinPath_inj ?_ ?_ hxpath
  · intro name hname
    obtain ⟨step, hstep, rfl⟩ := List.mem_map.mp hname
    exact h step hstep
  · intro name hname
    obtain ⟨step, hstep, rfl⟩ := List.mem_map.mp hname
    exact h' step hstep

/-- In a form, a place is known by its xpath. -/
theorem place_unique {form : MergeForm} {place place' : List ElementStep × ElementDict}
    (h : place ∈ placesOf [] form.children) (h' : place' ∈ placesOf [] form.children)
    (hxpath : stepsXpath place.1 = stepsXpath place'.1) : place = place' :=
  List.inj_on_of_nodup_map form.nodup h h'
    (names_eq_of_stepsXpath_eq (hasNames_of_mem h) (hasNames_of_mem h') hxpath)

/-- The fields of a form. -/
theorem mem_getFieldsSet {form : MergeForm} {xpath type : String} :
    (xpath, type) ∈ getFieldsSet form ↔
      (∃ place ∈ placesOf [] form.children, stepsXpath place.1 = xpath ∧ place.2.type = type) ∧
        type ∉ ["", "survey"] := by
  unfold getFieldsSet
  rw [List.mem_filter, List.mem_map, decide_eq_true_eq]
  simp only [Prod.mk.injEq]

/-- Each step is a field of every form, with the same type. -/
def Common (forms : List MergeForm) (steps : List ElementStep) : Prop :=
  ∀ init last, init ++ [last] <+: steps →
    ∀ form ∈ forms, (stepsXpath (init ++ [last]), last.2) ∈ getFieldsSet form

/-- The xpath of a place of the first form is in the intersection when the field, with its
type, is one of every form. -/
theorem mem_commonXpaths_iff {first : MergeForm} {others : List MergeForm}
    {init : List ElementStep} {element : ElementDict}
    (h : (init ++ [element.step], element) ∈ placesOf [] first.children) :
    stepsXpath (init ++ [element.step]) ∈ commonXpaths first others ↔
      ∀ form ∈ first :: others,
        (stepsXpath (init ++ [element.step]), element.type) ∈ getFieldsSet form := by
  unfold commonXpaths
  rw [List.mem_map, List.forall_mem_cons]
  constructor
  · intro ⟨⟨xpath, type⟩, hfield, hxpath⟩
    obtain rfl : xpath = stepsXpath (init ++ [element.step]) := hxpath
    obtain ⟨hfirst, hothers⟩ := List.mem_filter.mp hfield
    obtain ⟨⟨place, hplace, heq, htype⟩, -⟩ := mem_getFieldsSet.mp hfirst
    obtain rfl := place_unique hplace h heq
    obtain rfl : element.type = type := htype
    refine ⟨hfirst, fun form hform => ?_⟩
    exact of_decide_eq_true (List.all_eq_true.mp hothers form hform)
  · intro ⟨hfirst, hothers⟩
    refine ⟨_, List.mem_filter.mpr ⟨hfirst, List.all_eq_true.mpr fun form hform => ?_⟩, rfl⟩
    exact decide_eq_true (hothers form hform)

/-- For a place of the first form, xpaths without types say the same. -/
theorem inside_iff_common {first : MergeForm} {others : List MergeForm}
    {place : List ElementStep × ElementDict} (h : place ∈ placesOf [] first.children) :
    Inside (commonXpaths first others) [] place.1 ↔ Common (first :: others) place.1 := by
  have hiff : ∀ init last, init ++ [last] <+: place.1 →
      (stepsXpath (init ++ [last]) ∈ commonXpaths first others ↔
        ∀ form ∈ first :: others,
          (stepsXpath (init ++ [last]), last.2) ∈ getFieldsSet form) := by
    intro init last hinit
    obtain ⟨parent, hparent, -⟩ := mem_placesOf_of_prefix h List.nil_prefix hinit
    obtain ⟨init', -, heq⟩ := exists_init_of_mem_placesOf hparent
    obtain ⟨rfl, hlast⟩ := List.append_inj' heq rfl
    obtain rfl : last = parent.step := List.singleton_inj.mp hlast
    exact mem_commonXpaths_iff hparent
  constructor
  · intro hinside init last hinit
    exact (hiff init last hinit).mp (hinside init last List.nil_prefix hinit)
  · intro hcommon init last _ hinit
    exact (hiff init last hinit).mpr (hcommon init last hinit)

/-- Common steps lead to an element of each form. -/
theorem exists_place_of_common {forms : List MergeForm} {form : MergeForm} (hform : form ∈ forms)
    {steps : List ElementStep} (hnames : HasNames steps) (h : Common forms steps)
    (hne : steps ≠ []) : ∃ element, (steps, element) ∈ placesOf [] form.children := by
  induction steps using List.reverseRecOn with
  | nil => exact absurd rfl hne
  | append_singleton init last ih =>
      obtain ⟨⟨⟨steps, element⟩, hplace, hxpath, htype⟩, -⟩ :=
        mem_getFieldsSet.mp (h init last List.prefix_rfl form hform)
      obtain ⟨init', -, hsteps⟩ := exists_init_of_mem_placesOf hplace
      obtain rfl : steps = init' ++ [element.step] := hsteps
      have hmap := names_eq_of_stepsXpath_eq (hasNames_of_mem hplace) hnames hxpath
      rw [List.map_append, List.map_append] at hmap
      obtain ⟨hinit, hlast⟩ := List.append_inj' hmap rfl
      have hstep : element.step = last :=
        Prod.ext (List.singleton_inj.mp hlast) htype
      refine ⟨element, ?_⟩
      by_cases hempty : init = []
      · rw [hempty, List.map_nil, List.map_eq_nil_iff] at hinit
        subst hinit hempty hstep
        exact hplace
      · -- The steps before the last one lead to one element of the form.
        obtain ⟨parent, hparent⟩ := ih (fun step hstep => hnames step (List.mem_append_left _ hstep))
          (fun init' last' hprefix => h init' last'
            (List.IsPrefix.trans hprefix (List.prefix_append _ _))) hempty
        have hempty' : init' ≠ [] := fun heq => hempty (by simpa [heq] using hinit)
        obtain ⟨start, next, rfl⟩ : ∃ start next, init' = start ++ [next] :=
          ⟨_, _, (List.dropLast_append_getLast hempty').symm⟩
        obtain ⟨parent', hparent', -⟩ := mem_placesOf_of_prefix hplace List.nil_prefix
          (List.prefix_append (start ++ [next]) [element.step])
        have hsame := place_unique hparent hparent' (congrArg joinPath hinit.symm)
        rw [(Prod.mk.inj hsame).1, ← hstep]
        exact hplace

end Onadata.Proofs
