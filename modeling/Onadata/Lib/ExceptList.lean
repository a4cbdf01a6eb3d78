import Mathlib.Data.List.Forall2

/-!
# `Onadata.Lib.ExceptList`: inversion of computations that can raise

From a result `.ok`, the rules give the results of the parts: of the two sides of a bind,
of a map and of each round of a loop. `foldlM_rule` is the invariant rule for a loop that
returns early.
-/

set_option autoImplicit false

namespace Onadata.Lib

variable {Error A B : Type}

/-- `pure` returns its value. -/
@[simp]
theorem pure_eq_ok {a b : A} : (pure a : Except Error A) = .ok b ↔ a = b := by
  simp [pure, Except.pure]

/-- `throw` returns nothing. -/
@[simp]
theorem throw_ne_ok {e : Error} {a : A} : ¬ (throw e : Except Error A) = .ok a := by
  simp [throw, throwThe, MonadExceptOf.throw]

/-- A bind returns when its first part does and the rest does on that result. -/
@[simp]
theorem bind_eq_ok {x : Except Error A} {f : A → Except Error B} {b : B} :
    x >>= f = .ok b ↔ ∃ a, x = .ok a ∧ f a = .ok b := by
  cases x with
  | error e => simp [bind, Except.bind]
  | ok a => simp [bind, Except.bind]

/-- A map returns the image of what the computation returns. -/
@[simp]
theorem map_eq_ok {x : Except Error A} {f : A → B} {b : B} :
    x.map f = .ok b ↔ ∃ a, x = .ok a ∧ f a = b := by
  cases x with
  | error e => simp [Except.map]
  | ok a => simp [Except.map]

/-- A bind raises what its first part raises, or what the rest raises. -/
theorem bind_eq_error {x : Except Error A} {f : A → Except Error B} {e : Error} :
    x >>= f = .error e ↔ x = .error e ∨ ∃ a, x = .ok a ∧ f a = .error e := by
  cases x with
  | error e' => simp [bind, Except.bind]
  | ok a => simp [bind, Except.bind]

/-- A loop returns when each round does. -/
theorem mapM_eq_ok {f : A → Except Error B} {xs : List A} {ys : List B} :
    xs.mapM f = .ok ys ↔ List.Forall₂ (fun x y => f x = .ok y) xs ys := by
  induction xs generalizing ys with
  | nil =>
      rw [List.mapM_nil, List.forall₂_nil_left_iff]
      exact ⟨fun h => (Except.ok.inj h).symm, fun h => h ▸ rfl⟩
  | cons x xs ih =>
      simp only [List.mapM_cons, bind_eq_ok, ih, List.forall₂_cons_left_iff]
      constructor
      · rintro ⟨y, hy, ys', hys, heq⟩
        exact ⟨y, ys', hy, hys, (Except.ok.inj heq).symm⟩
      · rintro ⟨y, ys', hy, hys, rfl⟩
        exact ⟨y, hy, ys', hys, rfl⟩

/-- An item of the first of two related lists is related to one of the second. -/
theorem exists_of_mem_left {R : A → B → Prop} {xs : List A} {ys : List B}
    (h : List.Forall₂ R xs ys) {x : A} (hx : x ∈ xs) : ∃ y ∈ ys, R x y := by
  induction h with
  | nil => cases hx
  | cons hfirst _ ih =>
      rcases List.mem_cons.mp hx with rfl | hrest
      · exact ⟨_, List.mem_cons_self, hfirst⟩
      · obtain ⟨y, hy, hR⟩ := ih hrest
        exact ⟨y, List.mem_cons_of_mem _ hy, hR⟩

/-- An item of the second of two related lists is related to one of the first. -/
theorem exists_of_mem_right {R : A → B → Prop} {xs : List A} {ys : List B}
    (h : List.Forall₂ R xs ys) {y : B} (hy : y ∈ ys) : ∃ x ∈ xs, R x y :=
  exists_of_mem_left h.flip hy

/-- What a loop raises is raised by one of its rounds. -/
theorem exists_of_mapM_eq_error {f : A → Except Error B} {xs : List A} {e : Error}
    (h : xs.mapM f = .error e) : ∃ x ∈ xs, f x = .error e := by
  induction xs with
  | nil => exact absurd h (by simp [pure, Except.pure])
  | cons x xs ih =>
      rw [List.mapM_cons, bind_eq_error] at h
      rcases h with hx | ⟨y, -, hrest⟩
      · exact ⟨x, List.mem_cons_self, hx⟩
      · rcases bind_eq_error.mp hrest with hxs | ⟨ys, -, hpure⟩
        · obtain ⟨x', hx', herror⟩ := ih hxs
          exact ⟨x', List.mem_cons_of_mem x hx', herror⟩
        · exact absurd hpure (by simp [pure, Except.pure])

/-- The results of a loop whose rounds return what a function says. -/
theorem eq_map_of_mapM {f : A → Except Error B} {g : A → B} {xs : List A} {ys : List B}
    (hround : ∀ x y, f x = .ok y → y = g x) (h : xs.mapM f = .ok ys) : ys = xs.map g := by
  rw [mapM_eq_ok] at h
  induction h with
  | nil => rfl
  | cons hx _ ih => rw [List.map_cons, hround _ _ hx, ih]

/-- A result of a loop comes from one of its rounds. -/
theorem exists_of_mem_mapM {f : A → Except Error B} {xs : List A} {ys : List B}
    (h : xs.mapM f = .ok ys) {y : B} (hy : y ∈ ys) : ∃ x ∈ xs, f x = .ok y :=
  exists_of_mem_right (mapM_eq_ok.mp h) hy

/-- Each round of a loop that returns has its result among the results. -/
theorem mem_mapM_of_mem {f : A → Except Error B} {xs : List A} {ys : List B}
    (h : xs.mapM f = .ok ys) {x : A} (hx : x ∈ xs) : ∃ y ∈ ys, f x = .ok y :=
  exists_of_mem_left (mapM_eq_ok.mp h) hx

/-- A loop whose rounds all return, each with a result that is related to its item. -/
theorem exists_mapM_eq_ok {f : A → Except Error B} {R : A → B → Prop} {xs : List A}
    (h : ∀ x ∈ xs, ∃ y, f x = .ok y ∧ R x y) :
    ∃ ys, xs.mapM f = .ok ys ∧ (∀ x ∈ xs, ∃ y ∈ ys, R x y) ∧ ∀ y ∈ ys, ∃ x ∈ xs, R x y := by
  induction xs with
  | nil =>
      exact ⟨[], rfl, fun x hx => absurd hx List.not_mem_nil,
        fun y hy => absurd hy List.not_mem_nil⟩
  | cons x xs ih =>
      rw [List.forall_mem_cons] at h
      obtain ⟨y, hy, hxy⟩ := h.1
      obtain ⟨ys, hys, hright, hleft⟩ := ih h.2
      refine ⟨y :: ys, ?_, ?_, ?_⟩
      · rw [List.mapM_cons, hy, hys]
        rfl
      · rw [List.forall_mem_cons]
        refine ⟨⟨y, List.mem_cons_self, hxy⟩, fun x' hx' => ?_⟩
        obtain ⟨y', hy', hR⟩ := hright x' hx'
        exact ⟨y', List.mem_cons_of_mem y hy', hR⟩
      · rw [List.forall_mem_cons]
        refine ⟨⟨x, List.mem_cons_self, hxy⟩, fun y' hy' => ?_⟩
        obtain ⟨x', hx', hR⟩ := hleft y' hy'
        exact ⟨x', List.mem_cons_of_mem x hx', hR⟩

/-- A loop whose rounds apply a function to what another computation returns. -/
theorem mapM_map {C : Type} (f : A → Except Error B) (g : B → C) (xs : List A) :
    (xs.mapM fun x => (f x).map g) = (xs.mapM f).map (List.map g) := by
  induction xs with
  | nil => rfl
  | cons x xs ih =>
      rw [List.mapM_cons, List.mapM_cons, ih]
      cases f x with
      | error e => rfl
      | ok y => cases xs.mapM f <;> rfl

/-- A loop that adds what a computation returns to its state: the computations do not read the
state. -/
theorem foldlM_map {C : Type} (f : B → Except Error C) (g : A → C → A) (xs : List B) (a : A) :
    xs.foldlM (fun a x => (f x).map (g a)) a = (xs.mapM f).map fun ys => ys.foldl g a := by
  induction xs generalizing a with
  | nil => rfl
  | cons x xs ih =>
      rw [List.foldlM_cons, List.mapM_cons]
      cases f x with
      | error e => rfl
      | ok y =>
          show xs.foldlM (fun a x => (f x).map (g a)) (g a y) = _
          rw [ih]
          cases xs.mapM f <;> rfl

/-- The rule for a loop that can stop early: `Ok` holds of the state before each round, and
`Stopped` of what a round stops with. -/
theorem foldlM_rule {f : A → B → Except Error A} (xs : List B) {a : A} (Ok : A → Prop)
    (Stopped : Error → Prop) (ha : Ok a)
    (hround : ∀ a, ∀ x ∈ xs, Ok a →
      (∀ a', f a x = .ok a' → Ok a') ∧ ∀ e, f a x = .error e → Stopped e) :
    (∀ a', xs.foldlM f a = .ok a' → Ok a') ∧ ∀ e, xs.foldlM f a = .error e → Stopped e := by
  induction xs generalizing a with
  | nil =>
      constructor
      · intro a' h
        exact pure_eq_ok.mp h ▸ ha
      · intro e h
        exact absurd h (by simp [pure, Except.pure])
  | cons x xs ih =>
      obtain ⟨hok, herror⟩ := hround a x List.mem_cons_self ha
      rw [List.foldlM_cons]
      cases hx : f a x with
      | ok a' =>
          exact ih (hok a' hx) fun a y hy => hround a y (List.mem_cons_of_mem _ hy)
      | error e =>
          constructor
          · intro a' h
            exact absurd h (by simp [bind, Except.bind])
          · intro e' h
            obtain rfl : e = e' := Except.error.inj h
            exact herror e hx

/-- Two related lists, through a list in the middle. -/
theorem forall₂_comp_iff {A B C : Type} {R : A → B → Prop} {S : B → C → Prop} {xs : List A}
    {zs : List C} :
    (∃ ys, List.Forall₂ R xs ys ∧ List.Forall₂ S ys zs) ↔
      List.Forall₂ (fun x z => ∃ y, R x y ∧ S y z) xs zs := by
  constructor
  · rintro ⟨ys, hxs, hys⟩
    induction hxs generalizing zs with
    | nil => exact List.forall₂_nil_left_iff.mpr (List.forall₂_nil_left_iff.mp hys)
    | cons hx _ ih =>
        cases hys with
        | cons hy hys => exact .cons ⟨_, hx, hy⟩ (ih hys)
  · intro h
    induction h with
    | nil => exact ⟨[], .nil, .nil⟩
    | cons hx _ ih =>
        obtain ⟨y, hxy, hyz⟩ := hx
        obtain ⟨ys, hxs, hys⟩ := ih
        exact ⟨y :: ys, .cons hxy hxs, .cons hyz hys⟩

/-- A list is related to some list when each of its items is related to something. -/
theorem exists_forall₂_iff {A B : Type} {R : A → B → Prop} {xs : List A} :
    (∃ ys, List.Forall₂ R xs ys) ↔ ∀ x ∈ xs, ∃ y, R x y := by
  induction xs with
  | nil => simp
  | cons x xs ih =>
      simp only [List.forall₂_cons_left_iff, List.forall_mem_cons, ← ih]
      constructor
      · rintro ⟨_, y, ys, hy, hys, rfl⟩
        exact ⟨⟨y, hy⟩, ys, hys⟩
      · rintro ⟨⟨y, hy⟩, ys, hys⟩
        exact ⟨_, y, ys, hy, hys, rfl⟩

/-- Two relations of the same lists at once. -/
theorem forall₂_and_iff {A B : Type} {R S : A → B → Prop} {xs : List A} {ys : List B} :
    List.Forall₂ R xs ys ∧ List.Forall₂ S xs ys ↔
      List.Forall₂ (fun x y => R x y ∧ S x y) xs ys := by
  constructor
  · rintro ⟨hR, hS⟩
    induction hR with
    | nil => exact .nil
    | cons hR _ ih =>
        cases hS with
        | cons hS hrest => exact .cons ⟨hR, hS⟩ (ih hrest)
  · intro h
    exact ⟨h.imp fun _ _ hxy => hxy.1, h.imp fun _ _ hxy => hxy.2⟩

end Onadata.Lib
