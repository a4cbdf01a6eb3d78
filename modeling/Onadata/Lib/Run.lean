/-!
# `Onadata.Lib.Run`: runs of a labelled transition system

A run is a sequence of steps, each with its label. An invariant that each step keeps holds
after every run. `Guarded step guard` is the transition system of the steps of `step` that
meet `guard`, so that a run of it is a run of `step` whose steps all meet `guard`.

`Outputs` are runs whose steps each give an output.
-/

set_option autoImplicit false

namespace Onadata.Lib

variable {State Label : Type} {step : State → Label → State → Prop}

/-- `Run step s labels s'`: the steps with these labels lead from `s` to `s'`. -/
inductive Run (step : State → Label → State → Prop) : State → List Label → State → Prop
  | nil (s : State) : Run step s [] s
  | cons {s mid s' : State} {label : Label} {labels : List Label} :
      step s label mid → Run step mid labels s' → Run step s (label :: labels) s'

/-- The steps of `step` that meet `guard`. -/
def Guarded (step guard : State → Label → State → Prop) : State → Label → State → Prop :=
  fun s label s' => step s label s' ∧ guard s label s'

namespace Run

/-- A run without labels stays where it is. -/
@[simp]
theorem nil_iff {s s' : State} : Run step s [] s' ↔ s' = s := by
  constructor
  · rintro ⟨⟩
    rfl
  · rintro rfl
    exact .nil s'

/-- A run with a first label is a step and a run. -/
@[simp]
theorem cons_iff {s s' : State} {label : Label} {labels : List Label} :
    Run step s (label :: labels) s' ↔ ∃ mid, step s label mid ∧ Run step mid labels s' := by
  constructor
  · rintro (_ | ⟨hstep, hrun⟩)
    exact ⟨_, hstep, hrun⟩
  · rintro ⟨mid, hstep, hrun⟩
    exact .cons hstep hrun

/-- The invariant rule: what each step of the run keeps holds after the run. -/
theorem invariant {s s' : State} {labels : List Label} (hrun : Run step s labels s')
    (Inv : State → Prop)
    (hstep : ∀ s label s', label ∈ labels → step s label s' → Inv s → Inv s') (hs : Inv s) :
    Inv s' := by
  induction hrun with
  | nil => exact hs
  | cons hfirst _ ih =>
      refine ih (fun s label s' hlabel => ?_) ?_
      · exact hstep s label s' (List.mem_cons_of_mem _ hlabel)
      · exact hstep _ _ _ List.mem_cons_self hfirst hs

/-- A run is one of any transition system with its steps. -/
theorem mono {step' : State → Label → State → Prop} {s s' : State} {labels : List Label}
    (hstep : ∀ s label s', step s label s' → step' s label s') (hrun : Run step s labels s') :
    Run step' s labels s' := by
  induction hrun with
  | nil s => exact .nil s
  | cons hfirst _ ih => exact .cons (hstep _ _ _ hfirst) ih

/-- A guard that implies another one on the steps from states with an invariant. The
invariant is kept by the steps that meet the guard. -/
theorem guarded_mono {guard guard' : State → Label → State → Prop} {s s' : State}
    {labels : List Label} (Inv : State → Prop) (hs : Inv s)
    (hguard : ∀ s label s', label ∈ labels → step s label s' → Inv s →
      guard s label s' → guard' s label s')
    (hstep : ∀ s label s', label ∈ labels → step s label s' → guard s label s' → Inv s →
      Inv s')
    (hrun : Run (Guarded step guard) s labels s') : Run (Guarded step guard') s labels s' := by
  induction hrun with
  | nil s => exact .nil s
  | cons hfirst _ ih =>
      obtain ⟨hfirst, hmeets⟩ := hfirst
      refine .cons ⟨hfirst, hguard _ _ _ List.mem_cons_self hfirst hs hmeets⟩ (ih ?_ ?_ ?_)
      · exact hstep _ _ _ List.mem_cons_self hfirst hmeets hs
      · exact fun s label s' hlabel => hguard s label s' (List.mem_cons_of_mem _ hlabel)
      · exact fun s label s' hlabel => hstep s label s' (List.mem_cons_of_mem _ hlabel)

/-- Two guards that agree on the steps from states with an invariant have the same runs. The
invariant is kept by the steps that meet the guards. -/
theorem guarded_congr {guard guard' : State → Label → State → Prop} {s s' : State}
    {labels : List Label} (Inv : State → Prop) (hs : Inv s)
    (hguard : ∀ s label s', label ∈ labels → step s label s' → Inv s →
      (guard s label s' ↔ guard' s label s'))
    (hstep : ∀ s label s', label ∈ labels → step s label s' → guard' s label s' → Inv s →
      Inv s') :
    Run (Guarded step guard) s labels s' ↔ Run (Guarded step guard') s labels s' := by
  constructor
  · refine guarded_mono Inv hs (fun s label s' hlabel hfirst hs => ?_) ?_
    · exact (hguard s label s' hlabel hfirst hs).mp
    · intro s label s' hlabel hfirst hmeets hs
      exact hstep s label s' hlabel hfirst ((hguard s label s' hlabel hfirst hs).mp hmeets) hs
  · refine guarded_mono Inv hs (fun s label s' hlabel hfirst hs => ?_) hstep
    exact (hguard s label s' hlabel hfirst hs).mpr

end Run

/-! ### Runs with outputs -/

section Outputs
variable {State Label Out : Type} {step : State → Label → State → Out → Prop}

/-- `Outputs step s labels s' outs`: the steps with these labels lead from `s` to `s'`, and each
gives one output. -/
inductive Outputs (step : State → Label → State → Out → Prop) :
    State → List Label → State → List Out → Prop
  | nil (s : State) : Outputs step s [] s []
  | cons {s mid s' : State} {label : Label} {labels : List Label} {out : Out} {outs : List Out} :
      step s label mid out → Outputs step mid labels s' outs →
        Outputs step s (label :: labels) s' (out :: outs)

namespace Outputs

@[simp]
theorem nil_iff {s s' : State} {outs : List Out} :
    Outputs step s [] s' outs ↔ s' = s ∧ outs = [] := by
  constructor
  · intro h
    cases h
    exact ⟨rfl, rfl⟩
  · rintro ⟨rfl, rfl⟩
    exact .nil s'

theorem cons_iff {s s' : State} {label : Label} {labels : List Label} {outs : List Out} :
    Outputs step s (label :: labels) s' outs ↔
      ∃ mid out rest, step s label mid out ∧ Outputs step mid labels s' rest ∧
        outs = out :: rest := by
  constructor
  · intro h
    cases h with
    | cons hfirst hrest => exact ⟨_, _, _, hfirst, hrest, rfl⟩
  · rintro ⟨mid, out, rest, hfirst, hrest, rfl⟩
    exact .cons hfirst hrest

/-- The run of two lists of labels. -/
theorem append_iff {s s' : State} {labels labels' : List Label} {outs : List Out} :
    Outputs step s (labels ++ labels') s' outs ↔
      ∃ mid first rest, Outputs step s labels mid first ∧ Outputs step mid labels' s' rest ∧
        outs = first ++ rest := by
  induction labels generalizing s outs with
  | nil =>
      constructor
      · exact fun h => ⟨s, [], outs, .nil s, h, rfl⟩
      · rintro ⟨mid, first, rest, hfirst, hrest, rfl⟩
        obtain ⟨rfl, rfl⟩ := nil_iff.mp hfirst
        exact hrest
  | cons label labels ih =>
      constructor
      · intro h
        obtain ⟨mid, out, rest, hstep, hrest, rfl⟩ := cons_iff.mp h
        obtain ⟨mid', first, last, hfirst, hlast, rfl⟩ := ih.mp hrest
        exact ⟨mid', out :: first, last, .cons hstep hfirst, hlast, rfl⟩
      · rintro ⟨mid, first, rest, hfirst, hrest, rfl⟩
        obtain ⟨mid', out, first', hstep, htail, rfl⟩ := cons_iff.mp hfirst
        exact .cons hstep (ih.mpr ⟨mid, first', rest, htail, hrest, rfl⟩)

end Outputs

end Outputs

end Onadata.Lib
