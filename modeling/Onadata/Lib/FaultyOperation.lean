/-!
# `Onadata.Lib.FaultyOperation`: computations with one failing operation

A computation works on a store through named operations. A fault is the name of an operation
that fails, and it says whether the store has seen the operation before the failure: a request
can be lost, or its reply.

A failure can be swallowed, which gives a default value, or handled by another computation.
-/

set_option autoImplicit false

namespace Onadata.Lib

variable {Op Failure Store A B : Type}

/-- The operation that fails. With `applied`, the store has seen it. -/
structure Fault (Op : Type) where
  operation : Op
  applied : Bool
  deriving DecidableEq, Repr

/-- A computation on a store, in which one operation can fail. -/
abbrev Faulty (Op Failure Store A : Type) : Type :=
  ReaderT (Option (Fault Op)) (EStateM Failure Store) A

namespace Faulty

/-- A failure of the computation itself. -/
def raise (failure : Failure) : Faulty Op Failure Store A :=
  fun _ s => .error failure s

/-- What does not use an operation that can fail. -/
def safely (f : Store → A × Store) : Faulty Op Failure Store A :=
  fun _ s => .ok (f s).1 (f s).2

/-- An operation. -/
def operation [DecidableEq Op] (op : Op) (failure : Failure) (f : Store → A × Store) :
    Faulty Op Failure Store A :=
  fun fault s =>
    match fault with
    | none => .ok (f s).1 (f s).2
    | some fault =>
        if fault.operation = op then .error failure (if fault.applied then (f s).2 else s)
        else .ok (f s).1 (f s).2

/-- A failure gives a default value. -/
def swallow (x : Faulty Op Failure Store A) (default : A) : Faulty Op Failure Store A :=
  fun fault s =>
    match x fault s with
    | .ok a s' => .ok a s'
    | .error _ s' => .ok default s'

/-- Some failures have a handler. -/
def handle (handles : Failure → Bool) (x handler : Faulty Op Failure Store A) :
    Faulty Op Failure Store A :=
  fun fault s =>
    match x fault s with
    | .ok a s' => .ok a s'
    | .error failure s' => if handles failure then handler fault s' else .error failure s'

/-- The fault is at the operation. -/
def Hits (fault : Option (Fault Op)) (op : Op) : Prop :=
  ∃ f ∈ fault, f.operation = op

@[simp]
theorem not_hits_none (op : Op) : ¬ Hits none op := by
  simp [Hits]

@[simp]
theorem hits_some {f : Fault Op} {op : Op} : Hits (some f) op ↔ f.operation = op := by
  simp [Hits]

section
variable {fault : Option (Fault Op)} {s s' : Store} {a : A} {failure : Failure}

/-- A sequence goes on where its first part returns. -/
theorem seq_of_ok {x : Faulty Op Failure Store A} {f : A → Faulty Op Failure Store B}
    (h : x fault s = .ok a s') : (x >>= f) fault s = f a fault s' := by
  show EStateM.bind (x fault) (fun a => f a fault) s = _
  unfold EStateM.bind
  rw [h]

/-- A sequence fails where its first part fails. -/
theorem seq_of_error {x : Faulty Op Failure Store A} {f : A → Faulty Op Failure Store B}
    (h : x fault s = .error failure s') : (x >>= f) fault s = .error failure s' := by
  show EStateM.bind (x fault) (fun a => f a fault) s = _
  unfold EStateM.bind
  rw [h]

variable [DecidableEq Op] {op : Op} {f : Store → A × Store}

/-- An operation without a fault. -/
theorem operation_of_not_hits (h : ¬ Hits fault op) :
    operation op failure f fault s = .ok (f s).1 (f s).2 := by
  unfold operation
  cases fault with
  | none => rfl
  | some fault => exact if_neg (by simpa using h)

/-- An operation with a fault fails. -/
theorem operation_of_hits {applied : Bool} :
    operation op failure f (some ⟨op, applied⟩) s =
      .error failure (if applied then (f s).2 else s) := by
  unfold operation
  exact if_pos rfl

/-- A sequence goes on after an operation without a fault. -/
theorem operation_seq_of_not_hits {g : A → Faulty Op Failure Store B} (h : ¬ Hits fault op) :
    (operation op failure f >>= g) fault s = g (f s).1 fault (f s).2 :=
  seq_of_ok (operation_of_not_hits h)

/-- A sequence fails at its operation with a fault. -/
theorem operation_seq_of_hits {g : A → Faulty Op Failure Store B} {applied : Bool} :
    (operation op failure f >>= g) (some ⟨op, applied⟩) s =
      .error failure (if applied then (f s).2 else s) :=
  seq_of_error operation_of_hits

end

end Faulty

end Onadata.Lib
