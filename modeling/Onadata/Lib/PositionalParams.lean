import Mathlib.Algebra.Order.BigOperators.Group.List
import Mathlib.Algebra.Order.Ring.Int
import Mathlib.Tactic.Common

/-!
# `Onadata.Lib.PositionalParams`: conditions with positional parameters

A condition has a number of placeholders (`arity`). A driver fills the placeholders of a
list of conditions from the parameter list, in order, and refuses a statement whose
placeholders and parameters differ in number.

The parameters can belong to the wrong placeholders: a condition with too few of them and
one with too many cancel out. `HoldsAll.of_segment` excludes this when no part of the list
has fewer parameters than placeholders. Then each part is filled with its own parameters.
-/

set_option autoImplicit false

namespace Onadata.Lib

/-- Conditions and the parameters for their placeholders. -/
structure Clauses (Cond Param : Type) where
  conditions : List Cond := []
  params : List Param := []
  deriving Repr

namespace Clauses

variable {Cond Cond' Param Row : Type}

/-- The conditions and parameters of both. -/
def append (c d : Clauses Cond Param) : Clauses Cond Param :=
  ⟨c.conditions ++ d.conditions, c.params ++ d.params⟩

/-- The conditions and parameters of all parts, in order. -/
def concat (parts : List (Clauses Cond Param)) : Clauses Cond Param :=
  parts.foldr append {}

/-- The same parameters under conditions of another kind. -/
def mapConditions (f : Cond → Cond') (c : Clauses Cond Param) : Clauses Cond' Param :=
  ⟨c.conditions.map f, c.params⟩

section Arity
variable (arity : Cond → Nat)

/-- The number of placeholders of a list of conditions. -/
def placeholders (conditions : List Cond) : Nat :=
  (conditions.map arity).sum

/-- There is at least one parameter for each placeholder. -/
def NoDeficit (c : Clauses Cond Param) : Prop :=
  placeholders arity c.conditions ≤ c.params.length

/-- There are as many parameters as placeholders. -/
def Balanced (c : Clauses Cond Param) : Prop :=
  placeholders arity c.conditions = c.params.length

/-- `part` stands in `c`, with its parameters, between two parts without deficit. -/
def Segment (part c : Clauses Cond Param) : Prop :=
  ∃ before after : Clauses Cond Param, NoDeficit arity before ∧ NoDeficit arity after ∧
    c = (before.append part).append after

variable {arity}

@[simp]
theorem placeholders_nil : placeholders arity [] = 0 := rfl

@[simp]
theorem placeholders_cons (c : Cond) (cs : List Cond) :
    placeholders arity (c :: cs) = arity c + placeholders arity cs := by
  simp [placeholders]

@[simp]
theorem placeholders_append (cs ds : List Cond) :
    placeholders arity (cs ++ ds) = placeholders arity cs + placeholders arity ds := by
  simp [placeholders]

/-- The empty clauses have no deficit. -/
theorem noDeficit_empty : NoDeficit arity ({} : Clauses Cond Param) := by
  simp [NoDeficit]

/-- Two parts without deficit have none together. -/
theorem NoDeficit.append {c d : Clauses Cond Param} (hc : NoDeficit arity c)
    (hd : NoDeficit arity d) : NoDeficit arity (c.append d) := by
  simp only [NoDeficit, Clauses.append, placeholders_append, List.length_append] at *
  omega

/-- Parts without deficit have none together. -/
theorem noDeficit_concat (parts : List (Clauses Cond Param))
    (h : ∀ part ∈ parts, NoDeficit arity part) : NoDeficit arity (concat parts) := by
  induction parts with
  | nil => exact noDeficit_empty
  | cons part parts ih =>
      exact (h part List.mem_cons_self).append
        (ih fun p hp => h p (List.mem_cons_of_mem _ hp))

/-- A change of the kind of the conditions that keeps the placeholders keeps the absence of
a deficit. -/
theorem NoDeficit.mapConditions (arity' : Cond' → Nat) {f : Cond → Cond'}
    (hf : ∀ c, arity' (f c) = arity c) {c : Clauses Cond Param} (hc : NoDeficit arity c) :
    NoDeficit arity' (c.mapConditions f) := by
  have hsum : placeholders arity' (c.conditions.map f) = placeholders arity c.conditions := by
    simp [placeholders, Function.comp_def, hf]
  simpa [NoDeficit, Clauses.mapConditions, hsum] using hc

/-- Balanced parts are balanced together. -/
theorem balanced_concat (parts : List (Clauses Cond Param))
    (h : ∀ part ∈ parts, Balanced arity part) : Balanced arity (concat parts) := by
  induction parts with
  | nil => rfl
  | cons part parts ih =>
      rw [List.forall_mem_cons] at h
      have hparts := ih h.2
      have hpart := h.1
      unfold Balanced at hparts hpart ⊢
      show placeholders arity (part.conditions ++ (concat parts).conditions) =
        (part.params ++ (concat parts).params).length
      rw [placeholders_append, List.length_append, hpart, hparts]

/-- Clauses are a segment of themselves. -/
theorem Segment.refl (c : Clauses Cond Param) : Segment arity c c :=
  ⟨{}, {}, noDeficit_empty, noDeficit_empty, by simp [append]⟩

/-- A segment stays one when a part without deficit follows. -/
theorem Segment.append_right {part c d : Clauses Cond Param} (h : Segment arity part c)
    (hd : NoDeficit arity d) : Segment arity part (c.append d) := by
  obtain ⟨before, after, hbefore, hafter, rfl⟩ := h
  exact ⟨before, after.append d, hbefore, hafter.append hd, by simp [append]⟩

/-- A segment stays one behind a part without deficit. -/
theorem Segment.append_left {part c d : Clauses Cond Param} (h : Segment arity part c)
    (hd : NoDeficit arity d) : Segment arity part (d.append c) := by
  obtain ⟨before, after, hbefore, hafter, rfl⟩ := h
  exact ⟨d.append before, after, hd.append hbefore, hafter, by simp [append]⟩

/-- A part of a concatenation of parts without deficit is a segment of it. -/
theorem Segment.of_mem {part : Clauses Cond Param} {parts : List (Clauses Cond Param)}
    (hmem : part ∈ parts) (h : ∀ p ∈ parts, NoDeficit arity p) :
    Segment arity part (concat parts) := by
  induction parts with
  | nil => simp at hmem
  | cons p parts ih =>
      rcases List.mem_cons.mp hmem with rfl | hrest
      · exact (Segment.refl _).append_right
          (noDeficit_concat _ fun q hq => h q (List.mem_cons_of_mem _ hq))
      · exact (ih hrest fun q hq => h q (List.mem_cons_of_mem _ hq)).append_left
          (h p List.mem_cons_self)

/-- A segment stays one under a change of the kind of the conditions that keeps the
placeholders. -/
theorem Segment.mapConditions (arity' : Cond' → Nat) {f : Cond → Cond'}
    (hf : ∀ c, arity' (f c) = arity c) {part c : Clauses Cond Param}
    (h : Segment arity part c) :
    Segment arity' (part.mapConditions f) (c.mapConditions f) := by
  obtain ⟨before, after, hbefore, hafter, rfl⟩ := h
  exact ⟨_, _, hbefore.mapConditions arity' hf, hafter.mapConditions arity' hf,
    by simp [append, Clauses.mapConditions]⟩

end Arity

section Owners
variable {Role : Type} (roles : Cond → List Role)

/-- For each placeholder, in order: the number of the part that it belongs to, and its role
there. -/
def placeholderOwners (parts : List (Clauses Cond (Role × Param))) : List (Nat × Role) :=
  parts.zipIdx.flatMap fun part => (part.1.conditions.flatMap roles).map fun role => (part.2, role)

/-- For each parameter, in order: the number of the part that it belongs to, and its role there. -/
def paramOwners (parts : List (Clauses Cond (Role × Param))) : List (Nat × Role) :=
  parts.zipIdx.flatMap fun part => part.1.params.map fun param => (part.2, param.1)

/-- The owners of texts of parts agree exactly when the parts do: a part owns what has its
number. -/
theorem flatMap_zipIdx_eq_iff {Part : Type} {f g : Part → List Role} {parts : List Part} (n : Nat) :
    ((parts.zipIdx n).flatMap fun part => (f part.1).map fun role => (part.2, role)) =
        ((parts.zipIdx n).flatMap fun part => (g part.1).map fun role => (part.2, role)) ↔
      ∀ part ∈ parts, f part = g part := by
  induction parts generalizing n with
  | nil => exact iff_of_true rfl fun part hpart => absurd hpart List.not_mem_nil
  | cons part parts ih =>
      rw [List.forall_mem_cons, ← ih (n + 1), List.zipIdx_cons, List.flatMap_cons,
        List.flatMap_cons]
      refine ⟨fun h => ?_, fun h => by rw [h.1, h.2]⟩
      -- The number of the first part is not the number of a later one.
      have hfirst : ∀ xs : List Role,
          (xs.map fun role => (n, role)).filter (fun owner => owner.1 == n) =
            xs.map fun role => (n, role) := fun xs =>
        List.filter_eq_self.mpr (by simp)
      have hlater : ∀ h : Part → List Role,
          (((parts.zipIdx (n + 1)).flatMap fun part =>
            (h part.1).map fun role => (part.2, role)).filter fun owner => owner.1 == n) = [] := by
        intro h
        rw [List.filter_eq_nil_iff]
        intro owner howner
        obtain ⟨part, hpart, howner⟩ := List.mem_flatMap.mp howner
        obtain ⟨role, -, rfl⟩ := List.mem_map.mp howner
        have hle := List.le_snd_of_mem_zipIdx hpart
        show ¬ (part.2 == n) = true
        rw [beq_iff_eq]
        omega
      have hown : ((f part).map fun role => (n, role)) = (g part).map fun role => (n, role) := by
        have hfilter := congrArg (List.filter fun owner => owner.1 == n) h
        rw [List.filter_append, List.filter_append, hfirst, hfirst, hlater, hlater,
          List.append_nil, List.append_nil] at hfilter
        exact hfilter
      rw [hown] at h
      exact ⟨List.map_injective_iff.mpr (fun _ _ heq => (Prod.mk.inj heq).2) hown,
        List.append_cancel_left h⟩

/-- Each placeholder is filled with a parameter of its own part and role exactly when the
placeholders of each part have the roles of its parameters, in order. -/
theorem placeholderOwners_eq_iff {parts : List (Clauses Cond (Role × Param))} :
    placeholderOwners roles parts = paramOwners parts ↔
      ∀ part ∈ parts, part.conditions.flatMap roles = part.params.map Prod.fst := by
  rw [← flatMap_zipIdx_eq_iff 0]
  unfold placeholderOwners paramOwners
  simp only [List.map_map, Function.comp_def]

end Owners

section Holds
variable (arity : Cond → Nat) (holds : Cond → List Param → Row → Prop)

/-- Every condition holds of the row, each with the next parameters of the list. -/
def HoldsAll : List Cond → List Param → Row → Prop
  | [], _, _ => True
  | c :: cs, params, row =>
      holds c (params.take (arity c)) row ∧ HoldsAll cs (params.drop (arity c)) row

/-- Some condition holds of the row, each with the next parameters of the list. -/
def HoldsAny : List Cond → List Param → Row → Prop
  | [], _, _ => False
  | c :: cs, params, row =>
      holds c (params.take (arity c)) row ∨ HoldsAny cs (params.drop (arity c)) row

variable {arity holds}

instance decidableHoldsAll [∀ c params row, Decidable (holds c params row)] :
    ∀ (cs : List Cond) (params : List Param) (row : Row),
      Decidable (HoldsAll arity holds cs params row)
  | [], _, _ => inferInstanceAs (Decidable True)
  | c :: cs, params, row =>
      have := decidableHoldsAll cs (params.drop (arity c)) row
      inferInstanceAs (Decidable (_ ∧ _))

instance decidableHoldsAny [∀ c params row, Decidable (holds c params row)] :
    ∀ (cs : List Cond) (params : List Param) (row : Row),
      Decidable (HoldsAny arity holds cs params row)
  | [], _, _ => inferInstanceAs (Decidable False)
  | c :: cs, params, row =>
      have := decidableHoldsAny cs (params.drop (arity c)) row
      inferInstanceAs (Decidable (_ ∨ _))

/-- The conditions behind others get the parameters that these leave. -/
theorem HoldsAll.append_iff {cs ds : List Cond} {params : List Param} {row : Row} :
    HoldsAll arity holds (cs ++ ds) params row ↔
      HoldsAll arity holds cs params row ∧
        HoldsAll arity holds ds (params.drop (placeholders arity cs)) row := by
  induction cs generalizing params with
  | nil => simp [HoldsAll]
  | cons c cs ih =>
      simp only [List.cons_append, HoldsAll, ih, List.drop_drop, placeholders_cons, and_assoc]

/-- Parameters behind those that are used do not matter. -/
theorem HoldsAll.params_append_iff {cs : List Cond} {params more : List Param} {row : Row}
    (h : placeholders arity cs = params.length) :
    HoldsAll arity holds cs (params ++ more) row ↔ HoldsAll arity holds cs params row := by
  induction cs generalizing params with
  | nil => simp [HoldsAll]
  | cons c cs ih =>
      rw [placeholders_cons] at h
      simp only [HoldsAll]
      rw [List.take_append_of_le_length (by omega), List.drop_append_of_le_length (by omega),
        ih (by rw [List.length_drop]; omega)]

/-- When placeholders and parameters are equal in number, a segment without deficit is
filled with its own parameters. -/
theorem HoldsAll.of_segment {part c : Clauses Cond Param} {row : Row}
    (hsegment : Segment arity part c) (hpart : NoDeficit arity part)
    (hcount : placeholders arity c.conditions = c.params.length)
    (h : HoldsAll arity holds c.conditions c.params row) :
    HoldsAll arity holds part.conditions part.params row := by
  obtain ⟨before, after, hbefore, hafter, rfl⟩ := hsegment
  simp only [NoDeficit] at hpart hbefore hafter
  simp only [append, placeholders_append, List.length_append] at hcount
  -- No part has a deficit, so none has a surplus.
  have hbefore' : placeholders arity before.conditions = before.params.length := by omega
  have hpart' : placeholders arity part.conditions = part.params.length := by omega
  simp only [append, List.append_assoc] at h
  rw [HoldsAll.append_iff, HoldsAll.append_iff, hbefore', List.drop_left] at h
  exact (HoldsAll.params_append_iff hpart').mp h.2.1

/-- Conditions of another kind, with the same placeholders and the same meaning. -/
theorem HoldsAll.map_iff {arity' : Cond' → Nat} {holds' : Cond' → List Param → Row → Prop}
    {f : Cond → Cond'} (harity : ∀ c, arity' (f c) = arity c)
    (hholds : ∀ c params row, holds' (f c) params row ↔ holds c params row) {cs : List Cond}
    {params : List Param} {row : Row} :
    HoldsAll arity' holds' (cs.map f) params row ↔ HoldsAll arity holds cs params row := by
  induction cs generalizing params with
  | nil => exact Iff.rfl
  | cons c cs ih =>
      show holds' (f c) (params.take (arity' (f c))) row ∧
        HoldsAll arity' holds' (cs.map f) (params.drop (arity' (f c))) row ↔ _
      rw [harity, hholds, ih]
      exact Iff.rfl

/-- Balanced parts, each with its own parameters. -/
theorem HoldsAll.concat_iff {parts : List (Clauses Cond Param)} {row : Row}
    (h : ∀ part ∈ parts, Balanced arity part) :
    HoldsAll arity holds (concat parts).conditions (concat parts).params row ↔
      ∀ part ∈ parts, HoldsAll arity holds part.conditions part.params row := by
  induction parts with
  | nil => exact iff_of_true trivial fun part hpart => absurd hpart List.not_mem_nil
  | cons part parts ih =>
      rw [List.forall_mem_cons] at h
      have hpart : placeholders arity part.conditions = part.params.length := h.1
      show HoldsAll arity holds (part.conditions ++ (concat parts).conditions)
        (part.params ++ (concat parts).params) row ↔ _
      rw [HoldsAll.append_iff, HoldsAll.params_append_iff hpart, hpart, List.drop_left, ih h.2,
        List.forall_mem_cons]

/-- The conditions behind others get the parameters that these leave. -/
theorem HoldsAny.append_iff {cs ds : List Cond} {params : List Param} {row : Row} :
    HoldsAny arity holds (cs ++ ds) params row ↔
      HoldsAny arity holds cs params row ∨
        HoldsAny arity holds ds (params.drop (placeholders arity cs)) row := by
  induction cs generalizing params with
  | nil => simp [HoldsAny]
  | cons c cs ih =>
      simp only [List.cons_append, HoldsAny, ih, List.drop_drop, placeholders_cons, or_assoc]

/-- Parameters behind those that are used do not matter. -/
theorem HoldsAny.params_append_iff {cs : List Cond} {params more : List Param} {row : Row}
    (h : placeholders arity cs = params.length) :
    HoldsAny arity holds cs (params ++ more) row ↔ HoldsAny arity holds cs params row := by
  induction cs generalizing params with
  | nil => simp [HoldsAny]
  | cons c cs ih =>
      rw [placeholders_cons] at h
      simp only [HoldsAny]
      rw [List.take_append_of_le_length (by omega), List.drop_append_of_le_length (by omega),
        ih (by rw [List.length_drop]; omega)]

/-- Balanced parts, each with its own parameters. -/
theorem HoldsAny.concat_iff {parts : List (Clauses Cond Param)} {row : Row}
    (h : ∀ part ∈ parts, Balanced arity part) :
    HoldsAny arity holds (concat parts).conditions (concat parts).params row ↔
      ∃ part ∈ parts, HoldsAny arity holds part.conditions part.params row := by
  induction parts with
  | nil => exact iff_of_false id fun hpart => by simp at hpart
  | cons part parts ih =>
      rw [List.forall_mem_cons] at h
      have hpart : placeholders arity part.conditions = part.params.length := h.1
      show HoldsAny arity holds (part.conditions ++ (concat parts).conditions)
        (part.params ++ (concat parts).params) row ↔ _
      rw [HoldsAny.append_iff, HoldsAny.params_append_iff hpart, hpart, List.drop_left, ih h.2,
        List.exists_mem_cons_iff]

end Holds

end Clauses

end Onadata.Lib
