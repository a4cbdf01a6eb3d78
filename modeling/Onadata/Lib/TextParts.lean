import Onadata.Lib.PyText

/-!
# `Onadata.Lib.TextParts`: the parts of a text

Python's `text.split()`, `" ".join(parts)`, `text.split(separator)` and `text.replace(old, new)`.

* `words_joinWords`: the words of joined parts are the words of the parts.
* `splitText_precedeEach`: parts that each follow a separator are read back, when the separator
  occurs in no part, and in no part together with the start of the next separator.
* `replaceText_eq_iff`: when `replace` changes only the end of a text.
-/

set_option autoImplicit false

namespace Onadata.Lib

/-! ### Words -/

/-- `text.split()`. -/
def words (text : String) : List String :=
  ((text.toList.splitOnP isSpace).filter (· ≠ [])).map String.ofList

/-- `" ".join(parts)`. -/
def joinWords (parts : List String) : String :=
  " ".intercalate parts

/-- `first, rest = [s.strip() for s in text.split(None, 1)]`, nothing if there are fewer words. -/
def splitWord (text : String) : Option (String × String) :=
  let cs := text.toList.dropWhile isSpace
  let rest := (cs.dropWhile fun c => !isSpace c).dropWhile isSpace
  if rest = [] then none
  else some (String.ofList (cs.takeWhile fun c => !isSpace c), strip (String.ofList rest))

/-- The text is one word. -/
def IsWord (text : String) : Prop :=
  text ≠ "" ∧ ∀ c ∈ text.toList, isSpace c = false

instance (text : String) : Decidable (IsWord text) :=
  have : Decidable (∀ c ∈ text.toList, isSpace c = false) := List.decidableBAll _ _
  inferInstanceAs (Decidable (_ ∧ _))

/-- The words of the text have one space between them, and nothing else. -/
def SingleSpaced (text : String) : Prop :=
  joinWords (words text) = text

instance (text : String) : Decidable (SingleSpaced text) :=
  inferInstanceAs (Decidable (_ = _))

@[simp]
theorem words_empty : words "" = [] := rfl

/-- A word is its only word. -/
theorem words_of_isWord {text : String} (h : IsWord text) : words text = [text] := by
  unfold words
  rw [List.splitOnP_eq_singleton h.2]
  have hne : text.toList ≠ [] := fun hnil => h.1 (String.toList_eq_nil_iff.mp hnil)
  rw [List.filter_cons_of_pos (by simpa using hne), List.filter_nil, List.map_singleton,
    String.ofList_toList]

/-- Space between two texts separates their words. -/
theorem words_append_space (text text' : String) :
    words (text ++ " " ++ text') = words text ++ words text' := by
  have hspace : isSpace ' ' = true := by decide
  unfold words
  rw [String.append_assoc, String.toList_append, String.toList_append]
  show ((text.toList ++ ' ' :: text'.toList).splitOnP isSpace |>.filter _ |>.map _) = _
  rw [List.splitOnP_append_cons _ _ hspace, List.filter_append, List.map_append]

/-- The words of joined parts are those of the parts. -/
theorem words_joinWords (parts : List String) : words (joinWords parts) = parts.flatMap words := by
  unfold joinWords
  induction parts with
  | nil => rw [String.intercalate_nil, words_empty, List.flatMap_nil]
  | cons part parts ih =>
      by_cases hne : parts = []
      · subst hne
        rw [String.intercalate_singleton, List.flatMap_cons, List.flatMap_nil, List.append_nil]
      · rw [String.intercalate_cons_of_ne_nil hne, words_append_space, ih, List.flatMap_cons]

/-- Words are joined and split. -/
theorem words_joinWords_of_isWord {parts : List String} (h : ∀ part ∈ parts, IsWord part) :
    words (joinWords parts) = parts := by
  rw [words_joinWords]
  induction parts with
  | nil => rfl
  | cons part parts ih =>
      rw [List.forall_mem_cons] at h
      rw [List.flatMap_cons, words_of_isWord h.1, ih h.2, List.singleton_append]

/-- The pieces between spaces have no space. -/
theorem isSpace_of_mem_splitOnP {cs piece : List Char} (h : piece ∈ cs.splitOnP isSpace) :
    ∀ c ∈ piece, isSpace c = false := by
  induction cs generalizing piece with
  | nil =>
      rw [List.splitOnP_nil, List.mem_singleton] at h
      exact fun c hc => absurd (h ▸ hc) List.not_mem_nil
  | cons first cs ih =>
      rw [List.splitOnP_cons_eq_if_modifyHead] at h
      cases hfirst : isSpace first with
      | true =>
          rw [if_pos hfirst] at h
          rcases List.mem_cons.mp h with rfl | h
          · exact fun c hc => absurd hc List.not_mem_nil
          · exact ih h
      | false =>
          rw [if_neg (by rw [hfirst]; decide)] at h
          obtain ⟨head, rest, hsplit⟩ :=
            List.exists_cons_of_ne_nil (List.splitOnP_ne_nil isSpace cs)
          rw [hsplit, List.modifyHead_cons] at h
          rcases List.mem_cons.mp h with rfl | h
          · intro c hc
            rcases List.mem_cons.mp hc with rfl | hc
            · exact hfirst
            · exact ih (hsplit ▸ List.mem_cons_self) c hc
          · exact ih (hsplit ▸ List.mem_cons_of_mem _ h)

/-- The words of a text are words. -/
theorem isWord_of_mem_words {text word : String} (h : word ∈ words text) : IsWord word := by
  obtain ⟨piece, hpiece, rfl⟩ := List.mem_map.mp h
  obtain ⟨hmem, hne⟩ := List.mem_filter.mp hpiece
  refine ⟨fun hempty => of_decide_eq_true hne ?_, ?_⟩
  · exact String.ofList_eq_empty_iff.mp hempty
  · rw [String.toList_ofList]
    exact isSpace_of_mem_splitOnP hmem

/-- A word is single-spaced. -/
theorem singleSpaced_of_isWord {text : String} (h : IsWord text) : SingleSpaced text := by
  unfold SingleSpaced
  rw [words_of_isWord h]
  exact String.intercalate_singleton

/-- A single-spaced text that is not empty has words. -/
theorem words_ne_nil {text : String} (h : SingleSpaced text) (hne : text ≠ "") :
    words text ≠ [] := by
  intro hnil
  unfold SingleSpaced at h
  rw [hnil] at h
  exact hne h.symm

/-! ### Splitting at a separator -/

section Split
variable {α : Type} [DecidableEq α]

/-- The pieces between the occurrences of the separator, from left to right. `skip` items of an
occurrence are still to come. -/
def splitItems (separator : List α) : (skip : Nat) → List α → List (List α)
  | _, [] => [[]]
  | skip + 1, _ :: cs => splitItems separator skip cs
  | 0, c :: cs =>
      if separator <+: c :: cs then [] :: splitItems separator (separator.length - 1) cs
      else (splitItems separator 0 cs).modifyHead (c :: ·)

/-- The first character, which may start an occurrence. -/
theorem splitItems_cons (separator : List α) (c : α) (cs : List α) :
    splitItems separator 0 (c :: cs) =
      if separator <+: c :: cs then [] :: splitItems separator (separator.length - 1) cs
      else (splitItems separator 0 cs).modifyHead (c :: ·) := rfl

/-- The rest of an occurrence is skipped. -/
theorem splitItems_skip (separator skipped rest : List α) :
    splitItems separator skipped.length (skipped ++ rest) = splitItems separator 0 rest := by
  induction skipped with
  | nil => rfl
  | cons c skipped ih =>
      show splitItems separator skipped.length (skipped ++ rest) = _
      rw [ih]

/-- An occurrence of the separator ends a piece. -/
theorem splitItems_separator {separator : List α} (hne : separator ≠ []) (rest : List α) :
    splitItems separator 0 (separator ++ rest) = [] :: splitItems separator 0 rest := by
  obtain ⟨c, cs, rfl⟩ := List.exists_cons_of_ne_nil hne
  have hprefix : c :: cs <+: c :: (cs ++ rest) := List.prefix_append (c :: cs) rest
  rw [List.cons_append, splitItems_cons, if_pos hprefix]
  exact congrArg _ (splitItems_skip (c :: cs) cs rest)

/-- A piece before an occurrence, when the separator does not start inside of it. -/
theorem splitItems_piece {separator : List α} (hne : separator ≠ []) (rest piece : List α)
    (h : ¬ separator <:+: piece ++ separator.dropLast) :
    splitItems separator 0 (piece ++ (separator ++ rest)) =
      piece :: splitItems separator 0 rest := by
  have hstart : ∀ k < piece.length, ¬ separator <+: (piece ++ (separator ++ rest)).drop k :=
    fun k hk hprefix => h ((exists_prefix_drop_iff separator rest hne piece).mp ⟨k, hk, hprefix⟩)
  clear h
  induction piece with
  | nil => exact splitItems_separator hne rest
  | cons c cs ih =>
      have hhead : ¬ separator <+: c :: (cs ++ (separator ++ rest)) := hstart 0 (Nat.succ_pos _)
      rw [List.cons_append, splitItems_cons, if_neg hhead,
        ih fun k hk => hstart (k + 1) (Nat.succ_lt_succ hk)]
      rfl

/-- A piece without an occurrence. -/
theorem splitItems_last {separator piece : List α} (h : ¬ separator <:+: piece) :
    splitItems separator 0 piece = [piece] := by
  induction piece with
  | nil => rfl
  | cons c cs ih =>
      have hhead : ¬ separator <+: c :: cs := fun hprefix => h hprefix.isInfix
      rw [splitItems_cons, if_neg hhead,
        ih fun hwithin => h (hwithin.trans (List.suffix_cons c cs).isInfix)]
      rfl

end Split

/-- `text.split(separator)`, for a separator that is not empty. -/
def splitText (separator text : String) : List String :=
  (splitItems separator.toList 0 text.toList).map String.ofList

/-- `text.replace(old, new)`, for an old text that is not empty. -/
def replaceText (old new text : String) : String :=
  new.intercalate (splitText old text)

/-- `"".join(separator + part for part in parts)`. -/
def precedeEach (separator : String) (parts : List String) : String :=
  String.join (parts.map (separator ++ ·))

/-- The separator occurs in no part, and in no part but the last together with a start of the
separator behind it. -/
def Separated (separator : String) : List String → Prop
  | [] => True
  | [part] => ¬ separator.toList <:+: part.toList
  | part :: next :: parts =>
      ¬ separator.toList <:+: part.toList ++ separator.toList.dropLast ∧
        Separated separator (next :: parts)

instance decidableSeparated (separator : String) :
    (parts : List String) → Decidable (Separated separator parts)
  | [] => inferInstanceAs (Decidable True)
  | [_] => inferInstanceAs (Decidable (¬ _))
  | _ :: next :: parts =>
      have := decidableSeparated separator (next :: parts)
      inferInstanceAs (Decidable (_ ∧ _))

/-- Separated parts are read back, behind the empty text before the first separator. -/
theorem splitText_precedeEach {separator : String} (hne : separator ≠ "") {parts : List String}
    (h : Separated separator parts) :
    splitText separator (precedeEach separator parts) = "" :: parts := by
  have hlist : separator.toList ≠ [] := fun hnil => hne (String.toList_eq_nil_iff.mp hnil)
  -- The characters behind the first separator.
  have hitems : ∀ (part : String) (parts : List String), Separated separator (part :: parts) →
      splitItems separator.toList 0 (part.toList ++ (precedeEach separator parts).toList) =
        (part :: parts).map String.toList := by
    intro part parts
    induction parts generalizing part with
    | nil =>
        intro h
        show splitItems separator.toList 0 (part.toList ++ []) = _
        rw [List.append_nil, splitItems_last h]
        rfl
    | cons next parts ih =>
        intro h
        have hrest : (precedeEach separator (next :: parts)).toList =
            separator.toList ++ (next.toList ++ (precedeEach separator parts).toList) := by
          unfold precedeEach
          rw [List.map_cons, String.join_cons, String.toList_append, String.toList_append,
            List.append_assoc]
        rw [hrest, splitItems_piece hlist _ _ h.1, ih next h.2]
        rfl
  cases parts with
  | nil => rfl
  | cons part parts =>
      have htext : (precedeEach separator (part :: parts)).toList =
          separator.toList ++ (part.toList ++ (precedeEach separator parts).toList) := by
        unfold precedeEach
        rw [List.map_cons, String.join_cons, String.toList_append, String.toList_append,
          List.append_assoc]
      unfold splitText
      rw [htext, splitItems_separator hlist, hitems part parts h, List.map_cons, List.map_map]
      have hid : String.ofList ∘ String.toList = id := funext fun text => String.ofList_toList
      rw [hid, List.map_id]

/-! ### Replacing a text -/

section Replace
variable {α : Type} [DecidableEq α]

theorem splitItems_ne_nil (separator : List α) (skip : Nat) (cs : List α) :
    splitItems separator skip cs ≠ [] := by
  induction cs generalizing skip with
  | nil =>
      cases skip with
      | zero => exact List.cons_ne_nil _ _
      | succ skip => exact List.cons_ne_nil _ _
  | cons c cs ih =>
      cases skip with
      | succ skip => exact ih skip
      | zero =>
          rw [splitItems_cons]
          split
          · exact List.cons_ne_nil _ _
          · exact fun h => ih 0 (List.modifyHead_eq_nil_iff.mp h)

/-- The pieces, joined by the separator, are the text. -/
theorem intercalate_splitItems {separator : List α} (hne : separator ≠ []) (cs : List α) :
    separator.intercalate (splitItems separator 0 cs) = cs := by
  -- an occurrence takes several items at once
  induction hlength : cs.length using Nat.strongRecOn generalizing cs with
  | ind n ih =>
      cases cs with
      | nil => exact List.intercalate_singleton
      | cons c cs =>
          by_cases hstart : separator <+: c :: cs
          · obtain ⟨rest, hrest⟩ := hstart
            have hlt : rest.length < n := by
              have hpos := List.length_pos_iff.mpr hne
              rw [← hlength, ← hrest, List.length_append]
              omega
            rw [← hrest, splitItems_separator hne,
              List.intercalate_cons_of_ne_nil (splitItems_ne_nil separator 0 rest),
              ih rest.length hlt rest rfl, List.nil_append]
          · have hlt : cs.length < n := by
              rw [← hlength, List.length_cons]
              omega
            obtain ⟨first, pieces, hpieces⟩ :=
              List.exists_cons_of_ne_nil (splitItems_ne_nil separator 0 cs)
            have hrest := ih cs.length hlt cs rfl
            rw [hpieces] at hrest
            rw [splitItems_cons, if_neg hstart, hpieces, List.modifyHead_cons,
              List.intercalate_cons_cons_left, hrest]

/-- The pieces before and after a separator of one item. -/
theorem splitItems_append_cons (mark : α) (items rest : List α) :
    splitItems [mark] 0 (items ++ mark :: rest) =
      splitItems [mark] 0 items ++ splitItems [mark] 0 rest := by
  induction items with
  | nil => exact splitItems_separator (List.cons_ne_nil mark []) rest
  | cons c items ih =>
      have hstart : ∀ cs, [mark] <+: c :: cs ↔ mark = c := by
        intro cs
        simp [List.cons_prefix_cons]
      rw [List.cons_append, splitItems_cons, splitItems_cons]
      simp only [hstart, List.length_singleton, Nat.sub_self]
      by_cases hmark : mark = c
      · rw [if_pos hmark, if_pos hmark, ih, List.cons_append]
      · rw [if_neg hmark, if_neg hmark, ih]
        obtain ⟨first, pieces, hpieces⟩ :=
          List.exists_cons_of_ne_nil (splitItems_ne_nil [mark] 0 items)
        rw [hpieces]
        rfl

omit [DecidableEq α] in
/-- The length of joined pieces grows with their separator. -/
theorem length_intercalate (separator : List α) (piece : List α) (pieces : List (List α)) :
    (separator.intercalate (piece :: pieces)).length =
      (piece :: pieces).flatten.length + pieces.length * separator.length := by
  induction pieces generalizing piece with
  | nil => simp
  | cons next pieces ih =>
      rw [List.intercalate_cons_cons, List.length_append, List.length_append, ih]
      simp only [List.flatten_cons, List.length_append, List.length_cons, Nat.succ_mul]
      omega

omit [DecidableEq α] in
/-- When the old text ends a text, other pieces between its occurrences give the text with the new
text at its end: both are the same, or there is one occurrence, at the end or moved over it. -/
theorem intercalate_eq_append_iff {old new text : List α} {pieces : List (List α)}
    (h : old.intercalate pieces = text ++ old) :
    new.intercalate pieces = text ++ new ↔
      old = new ∨ ∃ before moved after, pieces = [before, after] ∧ text = before ++ moved ∧
        moved ++ new = new ++ after := by
  have hsame : old = new → new.intercalate pieces = text ++ new := fun heq => heq ▸ h
  match pieces, h with
  | [], h =>
      have hempty : text = [] ∧ old = [] := List.append_eq_nil_iff.mp h.symm
      refine ⟨fun hnew => ?_, fun hcases => ?_⟩
      · have hnew' : text = [] ∧ new = [] := List.append_eq_nil_iff.mp hnew.symm
        exact Or.inl (hempty.2.trans hnew'.2.symm)
      · rcases hcases with heq | ⟨_, _, _, heq, _⟩
        · exact hsame heq
        · cases heq
  | [piece], h =>
      rw [List.intercalate_singleton] at h hsame ⊢
      refine ⟨fun hnew => ?_, fun hcases => ?_⟩
      · exact Or.inl (List.append_cancel_left (h.symm.trans hnew))
      · rcases hcases with heq | ⟨_, _, _, heq, _⟩
        · exact hsame heq
        · cases heq
  | [before, after], h =>
      rw [List.intercalate_cons_cons, List.intercalate_singleton] at h hsame ⊢
      have hlength := congrArg List.length h
      simp only [List.length_append] at hlength
      have hbefore : before <+: text := by
        refine List.prefix_of_prefix_length_le ?_ (List.prefix_append text old) (by omega)
        rw [← h, List.append_assoc]
        exact List.prefix_append before _
      obtain ⟨moved, rfl⟩ := hbefore
      refine ⟨fun hnew => ?_, fun hcases => ?_⟩
      · rw [List.append_assoc, List.append_assoc] at hnew
        exact Or.inr ⟨before, moved, after, rfl, rfl, (List.append_cancel_left hnew).symm⟩
      · rcases hcases with heq | ⟨_, _, _, heq, htext, hmoved⟩
        · exact hsame heq
        · cases heq
          rw [List.append_cancel_left htext, List.append_assoc, List.append_assoc, hmoved]
  | first :: second :: third :: rest, h =>
      refine ⟨fun hnew => Or.inl ?_, fun hcases => ?_⟩
      · have hold := congrArg List.length h
        have hnew' := congrArg List.length hnew
        rw [length_intercalate, List.length_append, List.length_cons, List.length_cons,
          Nat.succ_mul, List.flatten_cons, List.length_append] at hold hnew'
        have htimes : (rest.length + 1) * old.length = (rest.length + 1) * new.length := by
          omega
        have hlength := Nat.eq_of_mul_eq_mul_left (Nat.succ_pos rest.length) htimes
        -- the first occurrence is before the second one, so before the end
        have hone : old.length ≤ (rest.length + 1) * old.length :=
          Nat.le_mul_of_pos_left old.length (Nat.succ_pos rest.length)
        have hbefore : (first ++ old).length ≤ text.length := by
          rw [List.length_append]
          omega
        have hbefore' : (first ++ new).length ≤ text.length := by
          rwa [List.length_append, ← hlength, ← List.length_append]
        have hfirst : first ++ old <+: text := by
          refine List.prefix_of_prefix_length_le ?_ (List.prefix_append text old) hbefore
          rw [← h, List.intercalate_cons_cons]
          exact List.prefix_append _ _
        have hfirst' : first ++ new <+: text := by
          refine List.prefix_of_prefix_length_le ?_ (List.prefix_append text new) hbefore'
          rw [← hnew, List.intercalate_cons_cons]
          exact List.prefix_append _ _
        have heq : (first ++ old).length = (first ++ new).length := by
          rw [List.length_append, List.length_append, hlength]
        have hwithin := List.prefix_of_prefix_length_le hfirst hfirst' (Nat.le_of_eq heq)
        exact List.append_cancel_left (List.IsPrefix.eq_of_length hwithin heq)
      · rcases hcases with heq | ⟨_, _, _, heq, _⟩
        · exact hsame heq
        · cases heq
end Replace

/-- An item that is only at the start of a separator: no separator overlaps another one. -/
theorem not_infix_append_dropLast {α : Type} {first : α} {rest text : List α}
    (hfirst : first ∉ rest) (h : ¬ first :: rest <:+: text) : ¬ first :: rest <:+: text ++ (first :: rest).dropLast := by
  intro ⟨before, after, heq⟩
  have hlength := congrArg List.length heq
  simp only [List.length_append, List.length_cons, List.length_dropLast] at hlength
  by_cases hinside : before.length + rest.length + 1 ≤ text.length
  · have hwithin : before ++ first :: rest <+: text := by
      refine List.prefix_of_prefix_length_le ⟨after, heq⟩ (List.prefix_append text _) ?_
      simp only [List.length_append, List.length_cons]
      omega
    obtain ⟨other, hother⟩ := hwithin
    exact h ⟨before, other, hother⟩
  · -- the separator behind the text starts inside of the occurrence
    obtain ⟨k, hk⟩ : ∃ k, text.length = before.length + (k + 1) :=
      ⟨text.length - before.length - 1, by omega⟩
    have hat := congrArg (fun items => items[text.length]?) heq
    cases rest with
    | nil => simp at hlength hinside; omega
    | cons next rest =>
        simp only [List.dropLast_cons_cons, List.getElem?_append_right (Nat.le_refl _),
          Nat.sub_self, List.getElem?_cons_zero] at hat
        rw [hk, List.append_assoc, List.getElem?_append_right (Nat.le_add_right _ _),
          Nat.add_sub_cancel_left, List.cons_append, List.getElem?_cons_succ,
          List.getElem?_append_left (by simp only [List.length_cons] at *; omega)] at hat
        exact hfirst (List.mem_of_getElem? hat)

/-- The parts of a text, joined by the separator, are the text. -/
theorem intercalate_splitText {separator : String} (hne : separator ≠ "") (text : String) :
    separator.intercalate (splitText separator text) = text := by
  have hlist : separator.toList ≠ [] := fun hnil => hne (String.toList_eq_nil_iff.mp hnil)
  have hparts : (splitText separator text).map String.toList =
      splitItems separator.toList 0 text.toList := by
    unfold splitText
    rw [List.map_map]
    simp
  rw [← String.toList_inj, String.toList_intercalate, hparts, intercalate_splitItems hlist]

/-- A text at the end is replaced alone when both are the same, or there is one occurrence, at the
end or moved over it. -/
theorem replaceText_eq_iff {old new text : String} (hne : old ≠ "") :
    replaceText old new (text ++ old) = text ++ new ↔
      old = new ∨ ∃ before moved after, splitText old (text ++ old) = [before, after] ∧
        text = before ++ moved ∧ moved ++ new = new ++ after := by
  have hlist : old.toList ≠ [] := fun hnil => hne (String.toList_eq_nil_iff.mp hnil)
  have hpieces := intercalate_splitItems hlist (text ++ old).toList
  have hsplit : (splitText old (text ++ old)).map String.toList =
      splitItems old.toList 0 (text ++ old).toList := by
    unfold splitText
    rw [List.map_map]
    simp
  rw [← hsplit, String.toList_append] at hpieces
  rw [← String.toList_inj, replaceText, String.toList_intercalate, String.toList_append,
    intercalate_eq_append_iff hpieces, String.toList_inj]
  refine or_congr_right ⟨fun h => ?_, fun h => ?_⟩
  · obtain ⟨before, moved, after, hpieces, htext, hmoved⟩ := h
    refine ⟨String.ofList before, String.ofList moved, String.ofList after, ?_, ?_, ?_⟩
    · have hparts := congrArg (List.map String.ofList) hpieces
      rwa [List.map_map, String.ofList_comp_toList, List.map_id] at hparts
    · rw [← String.toList_inj, String.toList_append, String.toList_ofList, String.toList_ofList,
        htext]
    · rw [← String.toList_inj, String.toList_append, String.toList_append, String.toList_ofList,
        String.toList_ofList, hmoved]
  · obtain ⟨before, moved, after, hpieces, rfl, hmoved⟩ := h
    refine ⟨before.toList, moved.toList, after.toList, ?_, String.toList_append .., ?_⟩
    · rw [hpieces]
      rfl
    · rw [← String.toList_append, hmoved, String.toList_append]

end Onadata.Lib
