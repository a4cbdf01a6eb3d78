import Onadata.Apps.Logger.Models.NumericConverter

/-!
# `Onadata.Proofs.Apps.Logger.NumericConverter`: what the converter changes

`ConvertsValue` is a conversion that keeps the keys, the nesting and the lengths of all lists, and
changes only texts under numeric fields. `numeric_converter` is one unless a list under a numeric
field holds a text: then the key gets the converted text instead of the list.

* `convertsItems_iff`: exactly when the result is such a conversion.
* `numericConverter_idem`: converting twice is converting once, for every dict.
-/

set_option autoImplicit false

namespace Onadata.Proofs

open Onadata.Lib

section
variable (py : PyNumbers) (numericFields : List String)

/-- What a text becomes that is stored under a key, or in a list under it. -/
def convertedText (key s : String) : PyValue :=
  if key ∈ numericFields then numericChecker py s else .str s

mutual

/-- The dict has the same keys, and their values are converted. -/
def ConvertsItems : List (String × PyValue) → List (String × PyValue) → Prop
  | [], items' => items' = []
  | (key, value) :: rest, items' =>
      ∃ value' rest', items' = (key, value') :: rest' ∧ ConvertsValue key value value' ∧
        ConvertsItems rest rest'

/-- The value under a key has the same form, and texts in it are converted. -/
def ConvertsValue (key : String) : PyValue → PyValue → Prop
  | .str s, value' => value' = convertedText py numericFields key s
  | .dict items, value' => ∃ items', value' = .dict items' ∧ ConvertsItems items items'
  | .list items, value' => ∃ items', value' = .list items' ∧ ConvertsElements key items items'
  | value, value' => value' = value

/-- The list has the same length, and texts and dicts in it are converted. -/
def ConvertsElements (key : String) : List PyValue → List PyValue → Prop
  | [], items' => items' = []
  | .str s :: rest, items' =>
      ∃ rest', items' = convertedText py numericFields key s :: rest' ∧
        ConvertsElements key rest rest'
  | .dict d :: rest, items' =>
      ∃ d' rest', items' = .dict d' :: rest' ∧ ConvertsItems d d' ∧ ConvertsElements key rest rest'
  | v :: rest, items' => ∃ rest', items' = v :: rest' ∧ ConvertsElements key rest rest'

end

mutual

/-- No list under a numeric field holds a text. -/
def NoTextLists : List (String × PyValue) → Prop
  | [] => True
  | (key, value) :: rest => NoTextListsIn key value ∧ NoTextLists rest

/-- The same for the value of a key. -/
def NoTextListsIn (key : String) : PyValue → Prop
  | .dict items => NoTextLists items
  | .list items => NoTexts key items
  | _ => True

/-- The same for a list under a key. -/
def NoTexts (key : String) : List PyValue → Prop
  | [] => True
  | .str _ :: rest => key ∉ numericFields ∧ NoTexts key rest
  | .dict d :: rest => NoTextLists d ∧ NoTexts key rest
  | _ :: rest => NoTexts key rest

end

end

section
variable {py : PyNumbers} {numericFields : List String}

/-! ### Numbers -/

/-- A converted text is a number, or the text itself. -/
theorem numericChecker_cases (py : PyNumbers) (s : String) :
    numericChecker py s = .str s ∨
      (∃ n, numericChecker py s = .int n) ∨ ∃ repr, numericChecker py s = .float repr := by
  unfold numericChecker
  split
  · rename_i n _
    exact Or.inr (Or.inl ⟨n, rfl⟩)
  · split
    · rename_i repr _
      split
      · exact Or.inr (Or.inl ⟨0, rfl⟩)
      · exact Or.inr (Or.inr ⟨repr, rfl⟩)
    · exact Or.inl rfl

/-- A converted text under a numeric field is converted to itself. -/
theorem convertValue_numericChecker {key : String} (hkey : key ∈ numericFields) (s : String) :
    convertValue py numericFields key (numericChecker py s) = numericChecker py s := by
  rcases numericChecker_cases py s with hstr | ⟨n, hint⟩ | ⟨repr, hfloat⟩
  · rw [hstr, convertValue, if_pos hkey, hstr]
  · rw [hint, convertValue]
    all_goals simp
  · rw [hfloat, convertValue]
    all_goals simp

/-! ### One list -/

/-- What is assigned to the key of a list is a converted text, and the field is numeric. -/
theorem convertElements_assigned {key : String} {items : List PyValue} {value : PyValue}
    (h : (convertElements py numericFields key items).2 = some value) :
    key ∈ numericFields ∧ ∃ s, value = numericChecker py s := by
  induction items with
  | nil => cases h
  | cons v rest ih =>
      cases v with
      | str s =>
          rw [convertElements] at h
          by_cases hkey : key ∈ numericFields
          · simp only [if_pos hkey] at h
            cases hrest : (convertElements py numericFields key rest).2 with
            | some assigned =>
                rw [hrest, Option.some_or] at h
                cases h
                exact ih hrest
            | none =>
                rw [hrest, Option.none_or] at h
                cases h
                exact ⟨hkey, s, rfl⟩
          · simp only [if_neg hkey] at h
            exact ih h
      | _ =>
          rw [convertElements] at h
          · exact ih h
          all_goals simp

/-! ### The whole dict -/

mutual

/-- The result is a conversion exactly when no list under a numeric field holds a text. -/
theorem convertsItems_iff (items : List (String × PyValue)) :
    ConvertsItems py numericFields items (numericConverter py numericFields items) ↔
      NoTextLists numericFields items := by
  match items with
  | [] => simp only [numericConverter, ConvertsItems, NoTextLists]
  | (key, value) :: rest =>
      rw [numericConverter, ConvertsItems, NoTextLists, ← convertsValue_iff key value,
        ← convertsItems_iff rest]
      constructor
      · intro ⟨value', rest', heq, hvalue, hrest⟩
        cases heq
        exact ⟨hvalue, hrest⟩
      · intro ⟨hvalue, hrest⟩
        exact ⟨_, _, rfl, hvalue, hrest⟩

/-- The same for the value of a key. -/
theorem convertsValue_iff (key : String) (value : PyValue) :
    ConvertsValue py numericFields key value (convertValue py numericFields key value) ↔
      NoTextListsIn numericFields key value := by
  match value with
  | .str s => simp only [convertValue, ConvertsValue, NoTextListsIn, convertedText]
  | .dict items =>
      rw [convertValue, ConvertsValue, NoTextListsIn, ← convertsItems_iff items]
      constructor
      · intro ⟨items', heq, hitems⟩
        cases heq
        exact hitems
      · intro hitems
        exact ⟨_, rfl, hitems⟩
  | .list items =>
      rw [convertValue, ConvertsValue, NoTextListsIn, ← convertsElements_iff key items]
      cases hassigned : (convertElements py numericFields key items).2 with
      | none =>
          simp only [hassigned, Option.getD_none, true_and]
          constructor
          · intro ⟨items', heq, hitems⟩
            cases heq
            exact hitems
          · intro hitems
            exact ⟨_, rfl, hitems⟩
      | some assigned =>
          -- the list is gone
          obtain ⟨_, s, hs⟩ := convertElements_assigned hassigned
          simp only [hassigned, Option.getD_some]
          refine iff_of_false (fun ⟨items', heq, _⟩ => ?_) (fun h => by cases h.1)
          rcases numericChecker_cases py s with hstr | ⟨n, hint⟩ | ⟨repr, hfloat⟩
          · rw [hs, hstr] at heq
            cases heq
          · rw [hs, hint] at heq
            cases heq
          · rw [hs, hfloat] at heq
            cases heq
  | .none | .bool _ | .int _ | .float _ =>
      simp only [convertValue, ConvertsValue, NoTextListsIn]

/-- The list stays, and is converted, exactly when it holds no text under a numeric field. -/
theorem convertsElements_iff (key : String) (items : List PyValue) :
    (convertElements py numericFields key items).2 = none ∧
        ConvertsElements py numericFields key items
          (convertElements py numericFields key items).1 ↔
      NoTexts numericFields key items := by
  match items with
  | [] => simp only [convertElements, ConvertsElements, NoTexts, true_and]
  | .str s :: rest =>
      rw [convertElements, NoTexts, ← convertsElements_iff key rest]
      by_cases hkey : key ∈ numericFields
      · refine iff_of_false (fun h => ?_) (fun h => h.1 hkey)
        simp only [if_pos hkey, Option.or_eq_none_iff] at h
        cases h.1.2
      · simp only [ConvertsElements, convertedText, not_false_eq_true, hkey, true_and]
        refine and_congr_right fun _ => ?_
        constructor
        · intro ⟨rest', heq, hrest⟩
          cases heq
          exact hrest
        · intro hrest
          exact ⟨_, rfl, hrest⟩
  | .dict d :: rest =>
      rw [convertElements, NoTexts, ← convertsElements_iff key rest, ← convertsItems_iff d]
      simp only [ConvertsElements]
      constructor
      · intro ⟨hassigned, d', rest', heq, hd, hrest⟩
        cases heq
        exact ⟨hd, hassigned, hrest⟩
      · intro ⟨hd, hassigned, hrest⟩
        exact ⟨hassigned, _, _, rfl, hd, hrest⟩
  | .list _ :: rest | .none :: rest | .bool _ :: rest | .int _ :: rest | .float _ :: rest =>
      simp only [convertElements, NoTexts, ConvertsElements, ← convertsElements_iff key rest]
      refine and_congr_right fun _ => ?_
      constructor
      · intro ⟨rest', heq, hrest⟩
        cases heq
        exact hrest
      · intro hrest
        exact ⟨_, rfl, hrest⟩

end

mutual

/-- Converting twice is converting once. -/
theorem numericConverter_idem (items : List (String × PyValue)) :
    numericConverter py numericFields (numericConverter py numericFields items) =
      numericConverter py numericFields items := by
  match items with
  | [] => rfl
  | (key, value) :: rest =>
      rw [numericConverter, numericConverter, convertValue_idem key value, numericConverter_idem rest]

/-- The same for the value of a key. -/
theorem convertValue_idem (key : String) (value : PyValue) :
    convertValue py numericFields key (convertValue py numericFields key value) =
      convertValue py numericFields key value := by
  match value with
  | .str s =>
      rw [convertValue]
      by_cases hkey : key ∈ numericFields
      · rw [if_pos hkey, convertValue_numericChecker hkey]
      · rw [if_neg hkey, convertValue, if_neg hkey]
  | .dict items => rw [convertValue, convertValue, numericConverter_idem items]
  | .list items =>
      rw [convertValue]
      cases hassigned : (convertElements py numericFields key items).2 with
      | none =>
          simp only [hassigned, Option.getD_none]
          rw [convertValue, convertElements_idem key items hassigned]
          rfl
      | some assigned =>
          obtain ⟨hkey, s, rfl⟩ := convertElements_assigned hassigned
          simp only [hassigned, Option.getD_some]
          exact convertValue_numericChecker hkey s
  | .none | .bool _ | .int _ | .float _ => simp only [convertValue]

/-- A list that stays is converted to itself. -/
theorem convertElements_idem (key : String) (items : List PyValue)
    (h : (convertElements py numericFields key items).2 = none) :
    convertElements py numericFields key (convertElements py numericFields key items).1 =
      ((convertElements py numericFields key items).1, none) := by
  match items with
  | [] => rfl
  | .str s :: rest =>
      rw [convertElements] at h
      by_cases hkey : key ∈ numericFields
      · simp only [if_pos hkey, Option.or_eq_none_iff] at h
        cases h.2
      · simp only [if_neg hkey] at h
        simp only [convertElements, convertElements_idem key rest h, if_neg hkey]
  | .dict d :: rest =>
      rw [convertElements] at h
      simp only [convertElements, convertElements_idem key rest h, numericConverter_idem d]
  | .list _ :: rest | .none :: rest | .bool _ :: rest | .int _ :: rest | .float _ :: rest =>
      simp only [convertElements] at h
      simp only [convertElements, convertElements_idem key rest h]

end

end

/-- The conversion only converts, and does so once. -/
theorem onlyConverts_iff (py : PyNumbers) (numericFields : List String)
    (items : List (String × PyValue)) :
    (ConvertsItems py numericFields items (numericConverter py numericFields items) ∧
        numericConverter py numericFields (numericConverter py numericFields items) =
          numericConverter py numericFields items) ↔
      NoTextLists numericFields items := by
  rw [convertsItems_iff]
  exact and_iff_left (numericConverter_idem items)

/-! ### A list of texts -/

/-- Python, for texts of digits. -/
def digitNumbers : PyNumbers where
  intOf text := if text.toList.all Char.isDigit then text.toNat?.map Int.ofNat else none
  floatOf _ := none

/-- A numeric field with a list of two texts gets the second one. -/
theorem not_onlyConverts_ages :
    ¬∀ (py : PyNumbers) (numericFields : List String) (items : List (String × PyValue)),
      ConvertsItems py numericFields items (numericConverter py numericFields items) ∧
        numericConverter py numericFields (numericConverter py numericFields items) =
          numericConverter py numericFields items := by
  intro h
  have hages := (h digitNumbers ["age"] [("age", .list [.str "4", .str "7"])]).1
  have hnone := (convertsItems_iff _).mp hages
  simp only [NoTextLists, NoTextListsIn, NoTexts] at hnone
  exact hnone.1.1 (List.mem_singleton_self "age")

end Onadata.Proofs
