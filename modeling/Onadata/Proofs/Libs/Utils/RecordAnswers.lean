import Onadata.Lib.Grouping
import Onadata.Proofs.Libs.Utils.IndexedCells

/-!
# `Onadata.Proofs.Libs.Utils.RecordAnswers`: the answers of a record by position

A record comes in two forms: flat, where the keys of each dict are whole xpaths, and nested
by group. A position has an answer in the one and in the other, so the two forms are compared
without regard to the order of dict keys.

* `answerAt`: the answer of a flat record.
* `nestedAt`: the answer of a nested record.
* `isCompactDict`: a nested record has no empty group, list or list item.
* `answerAt_eq_some`: the keys of the flat record that a position goes through.
-/

set_option autoImplicit false

namespace Onadata.Proofs

open Onadata.Lib

/-- The value is neither a list nor a dict. -/
def isScalar (value : PyValue) : Bool :=
  !value.isList && !value.isDict

/-- The dict with its keys split. -/
def splitKeys (record : List (String × PyValue)) : List (List String × PyValue) :=
  record.map fun item => (splitPath item.1, item.2)

/-- The answer of a flat record at a position. `names` are the names from the root to the
place where the dict is. -/
def answerAt (record : List (String × PyValue)) (names : List String) :
    List Step → Option PyValue
  | [] => none
  | [(name, none)] =>
      match Dict.get? (splitKeys record) (names ++ [name]) with
      | some value => if isScalar value then some value else none
      | none => none
  | (name, none) :: rest => answerAt record (names ++ [name]) rest
  | (name, some i) :: rest =>
      match Dict.get? (splitKeys record) (names ++ [name]) with
      | some (.list items) =>
          match items[i]? with
          | some (.dict item) => answerAt item (names ++ [name]) rest
          | _ => none
      | _ => none

/-- The answer of a nested record at a position. -/
def nestedAt (value : PyValue) : List Step → Option PyValue
  | [] => if isScalar value then some value else none
  | (name, none) :: rest =>
      match value with
      | .dict items =>
          match Dict.get? items name with
          | some below => nestedAt below rest
          | none => none
      | _ => none
  | (name, some i) :: rest =>
      match value with
      | .dict items =>
          match Dict.get? items name with
          | some (.list rows) =>
              match rows[i]? with
              | some row => nestedAt row rest
              | none => none
          | _ => none
      | _ => none

mutual

/-- No dict or list in the value is empty, the items of lists are dicts, and the keys of each
dict are different. -/
def isCompact : PyValue → Bool
  | .dict items => !items.isEmpty && decide (Dict.keys items).Nodup && areCompactValues items
  | .list items => !items.isEmpty && areCompactRows items
  | _ => true

/-- The values of a dict are compact. -/
def areCompactValues : List (String × PyValue) → Bool
  | [] => true
  | (_, value) :: rest => isCompact value && areCompactValues rest

/-- The rows of a list are compact dicts. -/
def areCompactRows : List PyValue → Bool
  | [] => true
  | row :: rest => row.isDict && isCompact row && areCompactRows rest

end

/-- `isCompact` for the whole record, which may be empty. -/
def isCompactDict (record : List (String × PyValue)) : Bool :=
  decide (Dict.keys record).Nodup && areCompactValues record

theorem areCompactValues_iff {items : List (String × PyValue)} :
    areCompactValues items = true ↔ ∀ item ∈ items, isCompact item.2 = true := by
  induction items with
  | nil => simp [areCompactValues]
  | cons item items ih => simp [areCompactValues, ih]

theorem areCompactRows_iff {rows : List PyValue} :
    areCompactRows rows = true ↔ ∀ row ∈ rows, row.isDict = true ∧ isCompact row = true := by
  induction rows with
  | nil => simp [areCompactRows]
  | cons row rows ih => simp [areCompactRows, ih]

/-! ### Positions of flat records -/

/-- The position of a key that is not below a list. -/
def plainPath (path : List String) : List Step :=
  path.map fun name => (name, none)

/-- The position of item `i` of the list of a key. -/
def indexedPath : List String → Nat → List Step
  | [], _ => []
  | [name], i => [(name, some i)]
  | name :: rest, i => (name, none) :: indexedPath rest i

/-- The answer at a position below a value with this path. -/
def ValueAt (names path : List String) (value : PyValue) (position : List Step)
    (answer : PyValue) : Prop :=
  (isScalar value = true ∧ position = plainPath path ∧ answer = value) ∨
    ∃ (items : List PyValue) (i : Nat) (item : List (String × PyValue)) (rest : List Step),
      value = .list items ∧ items[i]? = some (.dict item) ∧
        position = indexedPath path i ++ rest ∧ answerAt item names rest = some answer

@[simp]
theorem plainPath_nil : plainPath [] = [] := rfl

@[simp]
theorem plainPath_cons (name : String) (path : List String) :
    plainPath (name :: path) = (name, none) :: plainPath path := rfl

theorem indexedPath_cons (name : String) {path : List String} (hne : path ≠ []) (i : Nat) :
    indexedPath (name :: path) i = (name, none) :: indexedPath path i := by
  cases path with
  | nil => exact absurd rfl hne
  | cons _ _ => rfl

/-- A longer path to the value. -/
theorem valueAt_cons {names : List String} (name : String) {path : List String}
    (hne : path ≠ []) {value : PyValue} {position : List Step} {answer : PyValue} :
    ValueAt names (name :: path) value position answer ↔
      ∃ rest, position = (name, none) :: rest ∧ ValueAt names path value rest answer := by
  constructor
  · rintro (⟨hscalar, rfl, rfl⟩ | ⟨items, i, item, rest, rfl, hitem, rfl, hanswer⟩)
    · exact ⟨_, rfl, Or.inl ⟨hscalar, rfl, rfl⟩⟩
    · rw [indexedPath_cons name hne]
      exact ⟨_, rfl, Or.inr ⟨items, i, item, rest, rfl, hitem, rfl, hanswer⟩⟩
  · rintro ⟨rest, rfl, ⟨hscalar, rfl, rfl⟩ | ⟨items, i, item, below, rfl, hitem, rfl, hanswer⟩⟩
    · exact Or.inl ⟨hscalar, rfl, rfl⟩
    · refine Or.inr ⟨items, i, item, below, rfl, hitem, ?_, hanswer⟩
      rw [indexedPath_cons name hne, List.cons_append]

/-- A value at a path of one name. -/
theorem valueAt_singleton {names : List String} {name : String} {value : PyValue}
    {position : List Step} {answer : PyValue} :
    ValueAt names [name] value position answer ↔
      (isScalar value = true ∧ position = [(name, none)] ∧ answer = value) ∨
        ∃ (items : List PyValue) (i : Nat) (item : List (String × PyValue)) (rest : List Step),
          value = .list items ∧ items[i]? = some (.dict item) ∧
            position = (name, some i) :: rest ∧ answerAt item names rest = some answer :=
  Iff.rfl

/-- A position below a key of several names. -/
theorem exists_valueAt_cons {record : List (String × PyValue)} {names : List String}
    {step : Step} {position : List Step} {answer : PyValue} :
    (∃ path value, path ≠ [] ∧ Dict.get? (splitKeys record) (names ++ path) = some value ∧
      ValueAt (names ++ path) path value (step :: position) answer) ↔
      (∃ value, Dict.get? (splitKeys record) (names ++ [step.1]) = some value ∧
        ValueAt (names ++ [step.1]) [step.1] value (step :: position) answer) ∨
      step.2 = none ∧ ∃ path value, path ≠ [] ∧
        Dict.get? (splitKeys record) (names ++ [step.1] ++ path) = some value ∧
          ValueAt (names ++ [step.1] ++ path) path value position answer := by
  constructor
  · rintro ⟨path, value, hne, hget, hvalue⟩
    obtain ⟨name, path, rfl⟩ := List.exists_cons_of_ne_nil hne
    cases path with
    | nil =>
        have hname : step.1 = name := by
          rcases valueAt_singleton.mp hvalue with ⟨-, h, -⟩ | ⟨_, _, _, _, -, -, h, -⟩
          · rw [(List.cons.inj h).1]
          · rw [(List.cons.inj h).1]
        exact Or.inl ⟨value, hname ▸ hget, hname ▸ hvalue⟩
    | cons name' path =>
        obtain ⟨rest, heq, hrest⟩ := (valueAt_cons name (by simp)).mp hvalue
        obtain ⟨rfl, rfl⟩ := List.cons.inj heq
        refine Or.inr ⟨rfl, name' :: path, value, by simp, ?_, ?_⟩
        · rw [List.append_assoc]
          exact hget
        · rw [List.append_assoc]
          exact hrest
  · rintro (⟨value, hget, hvalue⟩ | ⟨hnone, path, value, hne, hget, hvalue⟩)
    · exact ⟨_, value, by simp, hget, hvalue⟩
    · rw [List.append_assoc] at hget hvalue
      refine ⟨step.1 :: path, value, by simp, hget, (valueAt_cons step.1 hne).mpr ⟨_, ?_, hvalue⟩⟩
      rw [← hnone]

/-- The answer at a position is below the value of one key. -/
theorem answerAt_eq_some {record : List (String × PyValue)} {names : List String}
    {position : List Step} {answer : PyValue} :
    answerAt record names position = some answer ↔
      ∃ path value, path ≠ [] ∧ Dict.get? (splitKeys record) (names ++ path) = some value ∧
        ValueAt (names ++ path) path value position answer := by
  induction position generalizing names with
  | nil =>
      rw [answerAt]
      refine ⟨fun h => absurd h (by simp), ?_⟩
      rintro ⟨path, value, hne, -, hvalue⟩
      obtain ⟨name, path, rfl⟩ := List.exists_cons_of_ne_nil hne
      cases path with
      | nil => rcases valueAt_singleton.mp hvalue with h | ⟨_, _, _, _, h⟩ <;> simp at h
      | cons name' path =>
          obtain ⟨rest, h, -⟩ := (valueAt_cons name (by simp)).mp hvalue
          simp at h
  | cons step position ih =>
      rw [exists_valueAt_cons, ← ih]
      simp only [valueAt_singleton]
      obtain ⟨name, index⟩ := step
      cases index with
      | some i =>
          rw [answerAt]
          constructor
          · intro h
            split at h
            · rename_i items hget
              split at h
              · rename_i item hitem
                exact Or.inl ⟨_, hget, Or.inr ⟨items, i, item, position, rfl, hitem, rfl, h⟩⟩
              · simp at h
            · simp at h
          · rintro (⟨value, hget, ⟨-, h, -⟩ | ⟨items, j, item, rest, rfl, hitem, h, hanswer⟩⟩ | ⟨h, -⟩)
            · simp at h
            · obtain ⟨heq, rfl⟩ := List.cons.inj h
              obtain rfl : i = j := Option.some.inj (Prod.mk.inj heq).2
              simp only [hget, hitem, hanswer]
            · simp at h
      | none =>
          cases position with
          | nil =>
              rw [answerAt.eq_2]
              constructor
              · intro h
                split at h
                · rename_i value hget
                  split at h
                  · rename_i hscalar
                    exact Or.inl ⟨value, hget, Or.inl ⟨hscalar, rfl, (Option.some.inj h).symm⟩⟩
                  · simp at h
                · simp at h
              · rintro (⟨value, hget, ⟨hscalar, -, rfl⟩ | ⟨_, _, _, _, -, -, h, -⟩⟩ | ⟨-, h⟩)
                · simp only [hget, hscalar, if_pos]
                · simp at h
                · simp [answerAt] at h
          | cons next position =>
              rw [answerAt.eq_3 _ _ _ _ (by simp)]
              constructor
              · exact fun h => Or.inr ⟨rfl, h⟩
              · rintro (⟨value, hget, ⟨-, h, -⟩ | ⟨_, _, _, _, -, -, h, -⟩⟩ | ⟨-, h⟩)
                · simp at h
                · simp at h
                · exact h

end Onadata.Proofs
