/-!
# `Onadata.Lib.Transaction`: computations on a database that can fail

A computation works on a database and on the memory of the program. An error leaves both as they
are at that moment. `atomic` brings the database back to what it was, after an error or a refused
commit; the memory stays as it is.

`forM_rule` is the invariant rule for a loop, with the items that are done.
-/

set_option autoImplicit false

namespace Onadata.Lib

variable {Db Memory Failure A B : Type}

/-- The database and the memory of the program. -/
structure Session (Db Memory : Type) where
  db : Db
  memory : Memory

/-- A computation that can fail. -/
abbrev DbAction (Failure Db Memory A : Type) : Type :=
  EStateM Failure (Session Db Memory) A

namespace DbAction

/-- The database. -/
def getDb : DbAction Failure Db Memory Db :=
  fun s => .ok s.db s

/-- The memory. -/
def getMemory : DbAction Failure Db Memory Memory :=
  fun s => .ok s.memory s

/-- The memory becomes another one. -/
def setMemory (memory : Memory) : DbAction Failure Db Memory Unit :=
  fun s => .ok () { s with memory := memory }

/-- A failure is raised. -/
def raise (failure : Failure) : DbAction Failure Db Memory A :=
  fun s => .error failure s

/-- A computation that neither reads nor writes. -/
def attempt (result : Except Failure A) : DbAction Failure Db Memory A :=
  match result with
  | .ok a => fun s => .ok a s
  | .error failure => raise failure

/-- The database becomes another one, which it can refuse. -/
def write (refuses : Db → Option Failure) (f : Db → Db) : DbAction Failure Db Memory Unit :=
  fun s => match refuses (f s.db) with
    | none => .ok () { s with db := f s.db }
    | some failure => .error failure s

/-- `with transaction.atomic():`. The database can refuse to commit. -/
def atomic (refuses : Db → Option Failure) (action : DbAction Failure Db Memory A) :
    DbAction Failure Db Memory A :=
  fun s => match action s with
    | .error failure s' => .error failure { s' with db := s.db }
    | .ok a s' => match refuses s'.db with
        | none => .ok a s'
        | some failure => .error failure { s' with db := s.db }

/-- The state that a computation leaves. -/
def finalState {State : Type} : EStateM.Result Failure State A → State
  | .ok _ s => s
  | .error _ s => s

section
variable {s s' : Session Db Memory} {a a' : A} {b : B} {failure : Failure}

@[simp]
theorem return_eq_ok : (pure a : DbAction Failure Db Memory A) s = .ok a' s' ↔ a = a' ∧ s = s' := by
  show EStateM.Result.ok a s = .ok a' s' ↔ _
  simp

/-- A bind returns when its first part does and the rest does from there. -/
@[simp]
theorem seq_eq_ok {x : DbAction Failure Db Memory A} {f : A → DbAction Failure Db Memory B} :
    (x >>= f) s = .ok b s' ↔ ∃ a mid, x s = .ok a mid ∧ f a mid = .ok b s' := by
  show EStateM.bind x f s = _ ↔ _
  unfold EStateM.bind
  cases x s with
  | error failure mid => simp
  | ok a mid =>
      show f a mid = _ ↔ _
      refine ⟨fun h => ⟨a, mid, rfl, h⟩, fun ⟨a', mid', hmid, h⟩ => ?_⟩
      cases hmid
      exact h

/-- A bind fails where its first part does, or where the rest does. -/
theorem seq_eq_error {x : DbAction Failure Db Memory A} {f : A → DbAction Failure Db Memory B} :
    (x >>= f) s = .error failure s' ↔
      x s = .error failure s' ∨ ∃ a mid, x s = .ok a mid ∧ f a mid = .error failure s' := by
  show EStateM.bind x f s = _ ↔ _
  unfold EStateM.bind
  cases x s with
  | error failure' mid => simp
  | ok a mid =>
      show f a mid = _ ↔ _
      refine ⟨fun h => .inr ⟨a, mid, rfl, h⟩, fun h => ?_⟩
      rcases h with h | ⟨a', mid', hmid, h⟩
      · cases h
      · cases hmid
        exact h

@[simp]
theorem getDb_eq_ok {db : Db} :
    (getDb : DbAction Failure Db Memory Db) s = .ok db s' ↔ s.db = db ∧ s = s' := by
  simp [getDb]

@[simp]
theorem getMemory_eq_ok {memory : Memory} :
    (getMemory : DbAction Failure Db Memory Memory) s = .ok memory s' ↔
      s.memory = memory ∧ s = s' := by
  simp [getMemory]

@[simp]
theorem setMemory_eq_ok {memory : Memory} {u : Unit} :
    (setMemory memory : DbAction Failure Db Memory Unit) s = .ok u s' ↔
      { s with memory := memory } = s' := by
  simp [setMemory]

@[simp]
theorem attempt_eq_ok {result : Except Failure A} :
    (attempt result : DbAction Failure Db Memory A) s = .ok a s' ↔ result = .ok a ∧ s = s' := by
  cases result with
  | error failure => simp [attempt, raise]
  | ok a => simp [attempt]

theorem attempt_eq_error {result : Except Failure A} :
    (attempt result : DbAction Failure Db Memory A) s = .error failure s' ↔
      result = .error failure ∧ s = s' := by
  cases result with
  | error failure' => simp [attempt, raise]
  | ok a => simp [attempt]

@[simp]
theorem write_eq_ok {refuses : Db → Option Failure} {f : Db → Db} {u : Unit} :
    (write refuses f : DbAction Failure Db Memory Unit) s = .ok u s' ↔
      refuses (f s.db) = none ∧ { s with db := f s.db } = s' := by
  unfold write
  cases hrefuses : refuses (f s.db) with
  | none => simp
  | some failure => simp

/-- The run of a bind. -/
theorem seq_run (x : DbAction Failure Db Memory A) (f : A → DbAction Failure Db Memory B) :
    (x >>= f) s = match x s with
      | .ok a mid => f a mid
      | .error failure mid => .error failure mid := by
  show EStateM.bind x f s = _
  unfold EStateM.bind
  cases x s <;> rfl

/-- The run of a computation with a handler. -/
theorem tryCatch_run (x : DbAction Failure Db Memory A)
    (handler : Failure → DbAction Failure Db Memory A) :
    (tryCatch x handler) s = match x s with
      | .ok a mid => .ok a mid
      | .error failure mid => handler failure mid := by
  show EStateM.tryCatch x handler s = _
  unfold EStateM.tryCatch
  cases x s <;> rfl

/-- The run of a computation that neither reads nor writes. -/
theorem attempt_run (result : Except Failure A) :
    (attempt result : DbAction Failure Db Memory A) s = match result with
      | .ok a => .ok a s
      | .error failure => .error failure s := by
  cases result <;> rfl

/-- The run of a result. -/
theorem return_run (a : A) : (pure a : DbAction Failure Db Memory A) s = .ok a s := rfl

/-- A refused write leaves the session as it was. -/
theorem finalState_write (refuses : Db → Option Failure) (f : Db → Db) (s : Session Db Memory) :
    finalState (write refuses f s) = s ∨ finalState (write refuses f s) = { s with db := f s.db } := by
  unfold write
  cases refuses (f s.db) with
  | none => exact .inr rfl
  | some failure => exact .inl rfl

/-- A transaction that returns has committed what the computation did. -/
theorem atomic_eq_ok {refuses : Db → Option Failure} {action : DbAction Failure Db Memory A} :
    atomic refuses action s = .ok a s' ↔ action s = .ok a s' ∧ refuses s'.db = none := by
  unfold atomic
  constructor
  · intro h
    split at h
    · cases h
    · rename_i haction
      split at h
      · rename_i hrefuses
        cases h
        exact ⟨haction, hrefuses⟩
      · cases h
  · intro ⟨haction, hrefuses⟩
    rw [haction]
    show (match refuses s'.db with
      | none => EStateM.Result.ok a s'
      | some failure => .error failure { s' with db := s.db }) = _
    rw [hrefuses]

/-- A transaction that fails leaves the database as it was. -/
theorem db_of_atomic_eq_error {refuses : Db → Option Failure}
    {action : DbAction Failure Db Memory A} (h : atomic refuses action s = .error failure s') :
    s'.db = s.db := by
  unfold atomic at h
  split at h
  · cases h
    rfl
  · split at h
    · cases h
    · cases h
      rfl

/-- A property of the state that a computation leaves, after a part that neither reads nor writes. -/
theorem finalState_attempt_bind {result : Except Failure A} {f : A → DbAction Failure Db Memory B}
    {P : Session Db Memory → Prop} (herror : ∀ failure, result = .error failure → P s)
    (hok : ∀ a, result = .ok a → P (finalState (f a s))) :
    P (finalState ((attempt result >>= f) s)) := by
  cases result with
  | error failure => exact herror failure rfl
  | ok a => exact hok a rfl

/-- A property of the state that a computation with a handler leaves. -/
theorem finalState_tryCatch {x : DbAction Failure Db Memory A}
    {handler : Failure → DbAction Failure Db Memory A} {P : Session Db Memory → Prop}
    (hok : ∀ a mid, x s = .ok a mid → P mid)
    (herror : ∀ failure mid, x s = .error failure mid → P (finalState (handler failure mid))) :
    P (finalState ((tryCatch x handler : DbAction Failure Db Memory A) s)) := by
  show P (finalState (EStateM.tryCatch x handler s))
  unfold EStateM.tryCatch
  cases hx : x s with
  | ok a mid => exact hok a mid hx
  | error failure mid => exact herror failure mid hx

/-- The invariant rule for a loop: what each round keeps, with the items that are done, holds after
a loop that returns. -/
theorem forM_rule {items : List A} {body : A → DbAction Failure Db Memory PUnit}
    (Inv : List A → Session Db Memory → Prop)
    (hround : ∀ done item s s', Inv done s → body item s = .ok ⟨⟩ s' → Inv (done ++ [item]) s')
    {done : List A} {u : PUnit} (hs : Inv done s) (h : items.forM body s = .ok u s') :
    Inv (done ++ items) s' := by
  induction items generalizing done s with
  | nil =>
      rw [List.append_nil]
      exact (return_eq_ok.mp h).2 ▸ hs
  | cons item items ih =>
      have h : (body item >>= fun _ => items.forM body) s = .ok u s' := h
      obtain ⟨_, mid, hitem, hitems⟩ := seq_eq_ok.mp h
      rw [List.append_cons]
      exact ih (hround done item s mid hs hitem) hitems

end
end DbAction
end Onadata.Lib
