import Mathlib.Data.List.Forall2
import Onadata.Lib.Grouping
import Onadata.Lib.PathCells
import Onadata.Lib.SlashPath
import Onadata.Libs.Utils.DictTools

/-!
# `Onadata.Proofs.Libs.Utils.IndexedCells`: the columns of a row as positions

A column of a CSV row names a position in a record: names, some of them with the index of a
list item. A row of a record is a list of cells that fit together, which is what the
encoder of rows has to produce and the decoder can rely on.

* `Apart`: two positions can both have a value.
* `Consecutive`: a list item comes after the item before it.
* `valuesOf_firstSteps`: then the first steps with a name are the name alone, or the items
  of a list from the first one on.

The column name of a position is read with `findBracket`, `withoutIndex` and `splitPath`. On
positions with field names, different positions have different column names.

* `splitPath_columnName`: the parts of a column name are the texts of the steps.
* `columnName_inj`: a column name has one position.
-/

set_option autoImplicit false

namespace Onadata.Proofs

open Onadata.Lib

/-- A name, and the position in the list if it is a list item. -/
abbrev Step := String × Option Nat

/-- A value with its position in a record. -/
abbrev Cell := List Step × PyValue

/-- A part of a column name without an index. -/
def IsFieldName (name : String) : Prop :=
  IsName name ∧ '[' ∉ name.toList

instance (name : String) : Decidable (IsFieldName name) :=
  inferInstanceAs (Decidable (_ ∧ _))

/-- The part of a column name for a step. The indices of columns start at one. -/
def stepText (step : Step) : String :=
  match step.2 with
  | none => step.1
  | some i => step.1 ++ "[" ++ toString (i + 1) ++ "]"

/-- Two positions that differ at their first different steps in the name, or in the index of
the list item. -/
def Apart : List Step → List Step → Prop
  | s :: p, s' :: p' =>
      if s = s' then Apart p p' else s.1 = s'.1 → s.2.isSome = true ∧ s'.2.isSome = true
  | _, _ => False

/-- Each list item on the way to a position is the first one or comes after one that has a
cell. -/
def Follows : List Cell → List Step → Prop
  | _, [] => True
  | cells, s :: p =>
      (∀ i, s.2 = some (i + 1) → (s.1, some i) ∈ firstSteps cells) ∧ Follows (below s cells) p

/-- Each cell follows the ones before it. `seen` are the cells before the list. -/
def Consecutive (seen : List Cell) : List Cell → Prop
  | [] => True
  | cell :: rest => Follows seen cell.1 ∧ Consecutive (seen ++ [cell]) rest

/-! ### Positions that are apart -/

@[simp]
theorem apart_nil_left (p : List Step) : ¬ Apart [] p :=
  fun h => h

@[simp]
theorem apart_nil_right (p : List Step) : ¬ Apart p [] := by
  cases p with
  | nil => exact fun h => h
  | cons s p => exact fun h => h

/-- Two positions with a first step. -/
theorem apart_cons (s s' : Step) (p p' : List Step) : Apart (s :: p) (s' :: p') =
    if s = s' then Apart p p' else s.1 = s'.1 → s.2.isSome = true ∧ s'.2.isSome = true := rfl

@[simp]
theorem apart_cons_cons (s : Step) (p p' : List Step) : Apart (s :: p) (s :: p') ↔ Apart p p' := by
  rw [apart_cons, if_pos rfl]

/-- A common start does not matter. -/
@[simp]
theorem apart_append_left (q p p' : List Step) : Apart (q ++ p) (q ++ p') ↔ Apart p p' := by
  induction q with
  | nil => rfl
  | cons s q ih => rw [List.cons_append, List.cons_append, apart_cons_cons, ih]

/-- Different list items are apart. -/
theorem apart_items (name : String) {i j : Nat} (h : i ≠ j) (p p' : List Step) :
    Apart ((name, some i) :: p) ((name, some j) :: p') := by
  rw [apart_cons, if_neg (by simpa using h)]
  exact fun _ => ⟨rfl, rfl⟩

/-- A position is not apart from itself. -/
theorem Apart.ne {p p' : List Step} (h : Apart p p') : p ≠ p' := by
  rintro rfl
  induction p with
  | nil => exact apart_nil_left _ h
  | cons s p ih => exact ih ((apart_cons_cons s p p).mp h)

theorem Apart.symm {p p' : List Step} (h : Apart p p') : Apart p' p := by
  induction p generalizing p' with
  | nil => exact absurd h (apart_nil_left _)
  | cons s p ih =>
      cases p' with
      | nil => exact absurd h (apart_nil_right _)
      | cons s' p' =>
          rw [apart_cons] at h ⊢
          split at h
          · rename_i hs
            rw [if_pos hs.symm]
            exact ih h
          · rename_i hs
            rw [if_neg (Ne.symm hs)]
            exact fun hname => (h hname.symm).symm

instance : Std.Symm fun c c' : Cell => Apart c.1 c'.1 where
  symm _ _ h := h.symm

/-- The cells on a branch are apart if all cells are. -/
theorem pairwise_apart_below {cells : List Cell}
    (h : cells.Pairwise fun c c' => Apart c.1 c'.1) (step : Step) :
    (below step cells).Pairwise fun c c' => Apart c.1 c'.1 := by
  refine List.pairwise_filterMap.mpr (h.imp ?_)
  rintro ⟨_ | ⟨s, p⟩, value⟩ ⟨_ | ⟨s', p'⟩, value'⟩ hapart c hc c' hc'
  · simp at hc
  · simp at hc
  · simp at hc'
  · by_cases hs : s = step
    · by_cases hs' : s' = step
      · simp only [hs, if_pos, Option.some.injEq] at hc
        simp only [hs', if_pos, Option.some.injEq] at hc'
        subst hc hc'
        obtain rfl : s = s' := hs.trans hs'.symm
        exact (apart_cons_cons _ _ _).mp hapart
      · simp [hs'] at hc'
    · simp [hs] at hc

/-- Among cells that are apart, a value at the root is the only one. -/
theorem root_or_ne_nil {cells : List Cell} (h : cells.Pairwise fun c c' => Apart c.1 c'.1) :
    (∃ value, cells = [([], value)]) ∨ ∀ c ∈ cells, c.1 ≠ [] := by
  cases cells with
  | nil => exact Or.inr fun c hc => absurd hc (by simp)
  | cons cell rest =>
      obtain ⟨path, value⟩ := cell
      rw [List.pairwise_cons] at h
      cases path with
      | nil =>
          cases rest with
          | nil => exact Or.inl ⟨value, rfl⟩
          | cons c rest => exact absurd (h.1 c List.mem_cons_self) (apart_nil_left _)
      | cons s path =>
          refine Or.inr fun c hc hnil => ?_
          rcases List.mem_cons.mp hc with rfl | hc
          · simp at hnil
          · exact apart_nil_right _ (hnil ▸ h.1 c hc)

/-! ### Cells that follow each other -/

/-- More cells before a position do not matter. -/
theorem Follows.mono {cells cells' : List Cell} (h : ∀ c ∈ cells, c ∈ cells') {p : List Step}
    (hfollows : Follows cells p) : Follows cells' p := by
  induction p generalizing cells cells' with
  | nil => exact trivial
  | cons s p ih =>
      have hbelow : ∀ (s : Step), ∀ c ∈ below s cells, c ∈ below s cells' := fun s c hc =>
        mem_below.mpr (h _ (mem_below.mp hc))
      refine ⟨fun i hi => ?_, ih (hbelow s) hfollows.2⟩
      obtain ⟨c, hc⟩ := List.exists_mem_of_ne_nil _ (mem_firstSteps.mp (hfollows.1 i hi))
      exact mem_firstSteps.mpr (List.ne_nil_of_mem (hbelow _ c hc))

/-- Two lists after each other. -/
theorem consecutive_append {seen cells cells' : List Cell} :
    Consecutive seen (cells ++ cells') ↔
      Consecutive seen cells ∧ Consecutive (seen ++ cells) cells' := by
  induction cells generalizing seen with
  | nil => simp [Consecutive]
  | cons cell cells ih =>
      rw [List.cons_append, Consecutive, Consecutive, ih, List.append_assoc, and_assoc]
      rfl

/-- More cells before the list do not matter. -/
theorem Consecutive.mono {seen seen' cells : List Cell} (h : ∀ c ∈ seen, c ∈ seen')
    (hcells : Consecutive seen cells) : Consecutive seen' cells := by
  induction cells generalizing seen seen' with
  | nil => exact trivial
  | cons cell cells ih =>
      refine ⟨hcells.1.mono h, ih ?_ hcells.2⟩
      intro c hc
      rw [List.mem_append] at hc ⊢
      exact hc.imp_left (h c)

/-- One more cell follows the others. -/
theorem consecutive_append_singleton {cells : List Cell} {cell : Cell} :
    Consecutive [] (cells ++ [cell]) ↔ Consecutive [] cells ∧ Follows cells cell.1 := by
  rw [consecutive_append, List.nil_append, Consecutive]
  simp [Consecutive]

/-- The cells on a branch follow each other. -/
theorem Consecutive.below {cells : List Cell} (h : Consecutive [] cells) (step : Step) :
    Consecutive [] (below step cells) := by
  induction cells using List.reverseRecOn with
  | nil => exact trivial
  | append_singleton cells cell ih =>
      rw [consecutive_append_singleton] at h
      obtain ⟨_ | ⟨s, p⟩, value⟩ := cell
      · rw [below_append_root]
        exact ih h.1
      · rw [below_append_singleton]
        split
        · rename_i hs
          exact consecutive_append_singleton.mpr ⟨ih h.1, hs ▸ h.2.2⟩
        · exact ih h.1

/-- The first steps with a name are the name alone, or the items of a list from the first
one on. -/
theorem valuesOf_firstSteps {cells : List Cell}
    (hapart : cells.Pairwise fun c c' => Apart c.1 c'.1) (h : Consecutive [] cells)
    (name : String) : valuesOf (firstSteps cells) name = [none] ∨
      ∃ k, valuesOf (firstSteps cells) name = (List.range k).map some := by
  induction cells using List.reverseRecOn with
  | nil => exact Or.inr ⟨0, rfl⟩
  | append_singleton cells cell ih =>
      rw [consecutive_append_singleton] at h
      have hold := ih (List.pairwise_append.mp hapart).1 h.1
      obtain ⟨_ | ⟨s, p⟩, value⟩ := cell
      · rw [firstSteps_append_root]
        exact hold
      · rw [firstSteps_append_singleton]
        split
        · exact hold
        · rename_i hnew
          rw [valuesOf_append_singleton]
          split
          · -- A new step with this name: all the others with it are list items.
            rename_i hname
            subst hname
            have hother : ∀ i, (s.1, i) ∈ firstSteps cells →
                i.isSome = true ∧ s.2.isSome = true := by
              intro i hi
              obtain ⟨c, hc⟩ := List.exists_mem_of_ne_nil _ (mem_firstSteps.mp hi)
              have hne : ((s.1, i) : Step) ≠ s := fun heq => hnew (heq ▸ hi)
              have hcs := (List.pairwise_append.mp hapart).2.2 _ (mem_below.mp hc) _
                List.mem_cons_self
              rw [apart_cons, if_neg hne] at hcs
              exact hcs rfl
            have hmem : ∀ i, i ∈ valuesOf (firstSteps cells) s.1 ↔
                (s.1, i) ∈ firstSteps cells := fun i => mem_valuesOf
            rcases hold with hnone | ⟨k, hrange⟩
            · have hsome := hother none ((hmem none).mp (by simp [hnone]))
              simp at hsome
            · rw [hrange]
              obtain ⟨name, index⟩ := s
              cases index with
              | none =>
                  cases k with
                  | zero => exact Or.inl rfl
                  | succ k =>
                      have hsome := hother (some 0) ((hmem _).mp (by simp [hrange]))
                      simp at hsome
              | some i =>
                  have hge : k ≤ i := by
                    by_contra hlt
                    exact hnew ((hmem _).mp (by simpa [hrange] using hlt))
                  have hle : i ≤ k := by
                    cases i with
                    | zero => exact Nat.zero_le k
                    | succ i =>
                        have hprev := (hmem _).mpr (h.2.1 i rfl)
                        rw [hrange] at hprev
                        exact Nat.succ_le_of_lt (by simpa using hprev)
                  obtain rfl : i = k := Nat.le_antisymm hle hge
                  exact Or.inr ⟨i + 1, by simp [List.range_succ]⟩
          · exact hold

/-- The column name of a position. -/
def columnName (position : List Step) : String :=
  joinPath (position.map stepText)

/-- All names of a position are field names. -/
def HasFieldNames (position : List Step) : Prop :=
  ∀ s ∈ position, IsFieldName s.1

/-! ### The text of a step -/

/-- The characters of an index. -/
theorem toList_stepText_some (name : String) (i : Nat) :
    (stepText (name, some i)).toList =
      name.toList ++ '[' :: (Nat.toDigits 10 (i + 1) ++ [']']) := by
  show (name ++ "[" ++ Nat.repr (i + 1) ++ "]").toList = _
  simp only [String.toList_append, Nat.toList_repr]
  simp

/-- The digits of an index hold no slash. -/
theorem slash_notMem_toDigits (n : Nat) : '/' ∉ Nat.toDigits 10 n := by
  intro h
  have hdigit := Nat.isDigit_of_mem_toDigits (by decide) (by decide) h
  exact absurd hdigit (by decide)

/-- The text of a step is a part of a path. -/
theorem isName_stepText {s : Step} (h : IsFieldName s.1) : IsName (stepText s) := by
  obtain ⟨name, index⟩ := s
  cases index with
  | none => exact h.1
  | some i =>
      constructor
      · intro hempty
        have hchars := congrArg String.toList hempty
        rw [toList_stepText_some] at hchars
        simp at hchars
      · rw [toList_stepText_some]
        simpa using ⟨h.1.2, slash_notMem_toDigits (i + 1)⟩

/-- Where the bracket of a column name is. -/
theorem findBracket_stepText {s : Step} (h : IsFieldName s.1) :
    findBracket (stepText s) = if s.2.isSome then (s.1.toList.length : Int) else -1 := by
  obtain ⟨name, index⟩ := s
  have hname : name.toList.findIdx? (· = '[') = none := by
    rw [List.findIdx?_eq_none_iff]
    intro c hc
    have hne : c ≠ '[' := fun heq => h.2 (heq ▸ hc)
    simpa using hne
  cases index with
  | none =>
      show findBracket name = _
      rw [findBracket, hname]
      rfl
  | some i =>
      rw [findBracket, toList_stepText_some, List.findIdx?_append, hname]
      simp [List.findIdx?_cons]

/-- The bracket is what tells a list item from a plain name. -/
theorem findBracket_stepText_pos {s : Step} (h : IsFieldName s.1) :
    findBracket (stepText s) > 0 ↔ s.2.isSome = true := by
  have hlength : 0 < s.1.toList.length :=
    List.length_pos_iff.mpr (by simpa using h.1.1)
  rw [findBracket_stepText h]
  split
  · rename_i hsome
    exact ⟨fun _ => hsome, fun _ => Int.ofNat_lt.mpr hlength⟩
  · rename_i hnone
    exact ⟨fun hpos => absurd hpos (by decide), fun hsome => absurd hsome hnone⟩

/-- Without the index, the name is left. -/
theorem withoutIndex_stepText {s : Step} (h : IsFieldName s.1) :
    withoutIndex (stepText s) = s.1 := by
  rw [withoutIndex, findBracket_stepText h]
  obtain ⟨name, index⟩ := s
  cases index with
  | none => rfl
  | some i =>
      show (if (name.toList.length : Int) > -1 then
        String.ofList ((stepText (name, some i)).toList.take name.toList.length) else _) = name
      rw [if_pos (by omega), toList_stepText_some, List.take_left, String.ofList_toList]

/-- Different steps have different texts. -/
theorem stepText_inj {s s' : Step} (h : IsFieldName s.1) (h' : IsFieldName s'.1)
    (heq : stepText s = stepText s') : s = s' := by
  have hname : s.1 = s'.1 := by
    rw [← withoutIndex_stepText h, heq, withoutIndex_stepText h']
  have hsome := (findBracket_stepText_pos h).symm.trans
    (heq ▸ findBracket_stepText_pos h' : findBracket (stepText s) > 0 ↔ s'.2.isSome = true)
  obtain ⟨name, index⟩ := s
  obtain ⟨name', index'⟩ := s'
  obtain rfl : name = name' := hname
  cases index with
  | none =>
      cases index' with
      | none => rfl
      | some j => simp at hsome
  | some i =>
      cases index' with
      | none => simp at hsome
      | some j =>
          have hchars := congrArg String.toList heq
          rw [toList_stepText_some, toList_stepText_some] at hchars
          have hdigits : Nat.toDigits 10 (i + 1) = Nat.toDigits 10 (j + 1) := by
            simpa using hchars
          have hindex := congrArg (fun digits => Nat.ofDigitChars 10 digits 0) hdigits
          simp only [Nat.ofDigitChars_ten_toDigits] at hindex
          rw [Nat.succ.inj hindex]

/-! ### Column names -/

/-- The parts of a column name are parts of a path. -/
theorem HasFieldNames.isName {position : List Step} (h : HasFieldNames position) :
    ∀ text ∈ position.map stepText, IsName text := by
  intro text htext
  obtain ⟨s, hs, rfl⟩ := List.mem_map.mp htext
  exact isName_stepText (h s hs)

/-- The parts of a column name. -/
theorem splitPath_columnName {position : List Step} (h : HasFieldNames position)
    (hne : position ≠ []) : splitPath (columnName position) = position.map stepText :=
  splitPath_joinPath h.isName (by simpa using hne)

/-- A column name has one position. -/
theorem columnName_inj {position position' : List Step} (h : HasFieldNames position)
    (h' : HasFieldNames position') (heq : columnName position = columnName position') :
    position = position' := by
  have htexts := joinPath_inj h.isName h'.isName heq
  clear heq
  induction position generalizing position' with
  | nil => simpa [eq_comm] using htexts
  | cons s position ih =>
      cases position' with
      | nil => simp at htexts
      | cons s' position' =>
          rw [List.map_cons, List.map_cons, List.cons.injEq] at htexts
          have hs := stepText_inj (h s List.mem_cons_self) (h' s' List.mem_cons_self) htexts.1
          rw [hs, ih (fun t ht => h t (List.mem_cons_of_mem s ht))
            (fun t ht => h' t (List.mem_cons_of_mem s' ht)) htexts.2]

end Onadata.Proofs
