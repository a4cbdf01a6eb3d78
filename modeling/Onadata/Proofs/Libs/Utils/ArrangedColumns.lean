import Onadata.Proofs.Libs.Utils.ConflictingColumns
import Onadata.Proofs.Libs.Utils.NestedColumns

/-!
# `Onadata.Proofs.Libs.Utils.ArrangedColumns`: the columns of a row in any order

A row of groups, repeats and select multiples, where a select multiple can be there as one column
and as split columns (`RowColumns`), with its columns in any order.

* `keys_addColumns`: the keys of a merged row are the first steps of its columns.
* `get?_addColumns`: the value of a group or list item is what its own columns are merged to.
* `isDict_of_sorted`: with the shorter columns first, no text comes after a split column.
* `get?_decoded`: the values of the nested dict.
-/

set_option autoImplicit false

namespace Onadata.Proofs

open Onadata.Lib

/-! ### Rows -/

/-- The position of a split column of a select multiple. -/
def SplitOf (selectMultiples : List String) (position split : List Step) : Prop :=
  ∃ name choice, position.getLast? = some (name, none) ∧ name ∈ selectMultiples ∧
    split = position ++ [(choice, none)]

instance (selectMultiples : List String) (position split : List Step) :
    Decidable (SplitOf selectMultiples position split) :=
  decidable_of_iff (∃ s ∈ position.getLast?.toList, s.2 = none ∧ s.1 ∈ selectMultiples ∧
      ∃ t ∈ split.getLast?.toList, t.2 = none ∧ split = position ++ [t]) <| by
    constructor
    · intro ⟨s, hs, hplain, hname, t, ht, hchoice, hsplit⟩
      obtain ⟨name, _⟩ := s
      obtain ⟨choice, _⟩ := t
      cases hplain
      cases hchoice
      exact ⟨name, choice, by simpa using hs, hname, hsplit⟩
    · intro ⟨name, choice, hlast, hname, hsplit⟩
      exact ⟨(name, none), by simp [hlast], rfl, hname, (choice, none), by simp [hsplit], rfl,
        hsplit⟩

/-- Two columns of one row. -/
def Related (selectMultiples : List String) (c c' : Cell) : Prop :=
  Apart c.1 c'.1 ∨ SplitOf selectMultiples c.1 c'.1 ∨ SplitOf selectMultiples c'.1 c.1

/-- The columns of a row: leaves of groups and repeats, and select multiples in one column, in
split columns or in both. -/
structure RowColumns (selectMultiples : List String) (cells : List Cell) : Prop where
  related : cells.Pairwise (Related selectMultiples)
  ne_nil : ∀ c ∈ cells, c.1 ≠ []
  column : ∀ c ∈ cells, ScalarColumn c.1 c.2

section
variable {selectMultiples : List String}

instance : Std.Symm (Related selectMultiples) where
  symm _ _ h := h.imp Apart.symm Or.symm

theorem SplitOf.length {position split : List Step} (h : SplitOf selectMultiples position split) :
    split.length = position.length + 1 := by
  have ⟨_, _, _, _, hsplit⟩ := h
  rw [hsplit, List.length_append, List.length_singleton]

theorem SplitOf.of_cons {s : Step} {position split : List Step} (hne : position ≠ [])
    (h : SplitOf selectMultiples (s :: position) (s :: split)) :
    SplitOf selectMultiples position split := by
  have ⟨name, choice, hlast, hname, hsplit⟩ := h
  rw [List.getLast?_cons_of_ne_nil hne] at hlast
  exact ⟨name, choice, hlast, hname, (List.cons.inj hsplit).2⟩

/-- Two columns have different positions. -/
theorem Related.ne {c c' : Cell} (h : Related selectMultiples c c') : c.1 ≠ c'.1 := by
  intro heq
  rcases h with hapart | hsplit | hsplit
  · exact hapart.ne heq
  · have hlength := hsplit.length
    rw [heq] at hlength
    omega
  · have hlength := hsplit.length
    rw [heq] at hlength
    omega

namespace RowColumns

variable {cells cells' : List Cell}

theorem perm (h : RowColumns selectMultiples cells) (hperm : cells'.Perm cells) :
    RowColumns selectMultiples cells' where
  related := (hperm.pairwise_iff fun hrelated => Std.Symm.symm _ _ hrelated).mpr h.related
  ne_nil c hc := h.ne_nil c (hperm.mem_iff.mp hc)
  column c hc := h.column c (hperm.mem_iff.mp hc)

theorem of_append (h : RowColumns selectMultiples (cells ++ cells')) :
    RowColumns selectMultiples cells where
  related := (List.pairwise_append.mp h.related).1
  ne_nil c hc := h.ne_nil c (List.mem_append_left _ hc)
  column c hc := h.column c (List.mem_append_left _ hc)

/-- The first steps of a row have field names. -/
theorem isFieldName (h : RowColumns selectMultiples cells) {s : Step}
    (hs : s ∈ firstSteps cells) : IsFieldName s.1 := by
  have ⟨c, hc⟩ := List.exists_mem_of_ne_nil _ (mem_firstSteps.mp hs)
  exact (h.column _ (mem_below.mp hc)).names s List.mem_cons_self

/-- Different first steps with one name are list items. -/
theorem listed (h : RowColumns selectMultiples cells) : Listed (firstSteps cells) := by
  refine listed_of_items (nodup_firstSteps cells) (fun s hs s' hs' hne hname => ?_)
  have ⟨c, hc⟩ := List.exists_mem_of_ne_nil _ (mem_firstSteps.mp hs)
  have ⟨c', hc'⟩ := List.exists_mem_of_ne_nil _ (mem_firstSteps.mp hs')
  have hrelated := h.related.forall (mem_below.mp hc) (mem_below.mp hc') (by simp [hne])
  -- a split column starts as the column that it splits
  have hstart : ∀ {p p' : List Step} {t t' : Step}, SplitOf selectMultiples (t :: p) (t' :: p') →
      t' = t := by
    intro p p' t t' ⟨_, _, _, _, hsplit⟩
    exact (List.cons.inj hsplit).1
  rcases hrelated with hapart | hsplit | hsplit
  · rw [Apart, if_neg hne] at hapart
    exact (hapart hname).1
  · exact absurd (hstart hsplit).symm hne
  · exact absurd (hstart hsplit) hne

/-- The columns of a group or list item are a row, if none of them ends at it. -/
theorem below (h : RowColumns selectMultiples cells) {s : Step}
    (hne : ∀ c ∈ Onadata.Lib.below s cells, c.1 ≠ []) :
    RowColumns selectMultiples (Onadata.Lib.below s cells) where
  ne_nil := hne
  column c hc := (h.column _ (mem_below.mp hc)).tail (hne c hc)
  related := by
    have hunder : (under [s] (Onadata.Lib.below s cells)).Pairwise (Related selectMultiples) := by
      rw [under_singleton_below]
      exact h.related.sublist List.filter_sublist
    refine (List.pairwise_map.mp hunder).imp_of_mem (fun hc hc' hrelated => ?_)
    exact hrelated.imp (apart_cons_cons ..).mp
      (Or.imp (SplitOf.of_cons (hne _ hc)) (SplitOf.of_cons (hne _ hc')))

/-- A list item is not the end of a column. -/
theorem ne_nil_of_item (h : RowColumns selectMultiples cells) {s : Step}
    (hs : s.2.isSome = true) : ∀ c ∈ Onadata.Lib.below s cells, c.1 ≠ [] :=
  fun _ hc => (h.column _ (mem_below.mp hc)).ne_nil hs

/-- A column that goes on by two names is not below the end of another one. -/
theorem ne_nil_of_long (h : RowColumns selectMultiples cells) {s t u : Step} {rest : List Step}
    {value : PyValue} (hcell : (s :: t :: u :: rest, value) ∈ cells) :
    ∀ c ∈ Onadata.Lib.below s cells, c.1 ≠ [] := by
  intro c hc hnil
  have hroot := mem_below.mp hc
  rw [hnil] at hroot
  rcases h.related.forall hcell hroot (by simp) with hapart | hsplit | hsplit
  · exact apart_nil_right _ ((apart_cons_cons ..).mp hapart)
  · have hlength := hsplit.length
    simp at hlength
  · have hlength := hsplit.length
    simp at hlength

end RowColumns

/-! ### Adding the columns of a row -/

theorem addColumns_append_singleton (cells : List Cell) (c : Cell) (result : PyValue) :
    addColumns selectMultiples (cells ++ [c]) result =
      (addColumns selectMultiples cells result).bind (addColumn selectMultiples c.1 c.2) := by
  unfold addColumns
  rw [List.foldlM_append]
  refine congrArg _ (funext fun merged => ?_)
  simp only [List.foldlM_cons, List.foldlM_nil, bind_pure]

/-- How a column changes the value of its first step. -/
inductive Changed (selectMultiples : List String) (s : Step) (rest : List Step) (value : PyValue)
    (d : List (String × PyValue)) : PyValue → Prop
  | new : Dict.get? d (stepText s) = none →
      Changed selectMultiples s rest value d (wrapped s (columnTree rest value))
  | row {row merged : PyValue} : s.2.isSome = true →
      Dict.get? d (stepText s) = some (.list [row]) →
      addColumn selectMultiples rest value row = some merged →
      Changed selectMultiples s rest value d (relisted merged)
  | dict {old : List (String × PyValue)} {merged : PyValue} : ¬ s.2.isSome = true → rest ≠ [] →
      Dict.get? d (stepText s) = some (.dict old) →
      addColumn selectMultiples rest value (.dict old) = some merged →
      Changed selectMultiples s rest value d merged
  | text {text : String} : ¬ s.2.isSome = true → rest ≠ [] →
      Dict.get? d (stepText s) = some (.str text) →
      Changed selectMultiples s rest value d (columnTree rest value)

/-- A column is added to a dict with a new value for its first step, or it makes a list of two
rows. -/
theorem addColumn_cases {s : Step} {rest : List Step} {value merged : PyValue}
    {d : List (String × PyValue)}
    (h : addColumn selectMultiples (s :: rest) value (.dict d) = some merged) :
    (∃ new, merged = .dict (Dict.insert d (stepText s) new) ∧
      Changed selectMultiples s rest value d new) ∨
    (rest = [] ∧ ¬ s.2.isSome = true ∧ (∃ old, Dict.get? d (stepText s) = some old) ∧
      ∃ row row', merged = .list [row, row']) := by
  cases hget : Dict.get? d (stepText s) with
  | none =>
      rw [addColumn_new hget] at h
      cases h
      exact Or.inl ⟨_, rfl, .new hget⟩
  | some old =>
      by_cases hs : s.2.isSome = true
      · by_cases hrow : ∃ row, old = .list [row]
        · obtain ⟨row, rfl⟩ := hrow
          rw [addColumn_row hget hs] at h
          have ⟨below, hbelow, hmerged⟩ := Option.map_eq_some_iff.mp h
          exact Or.inl ⟨_, hmerged.symm, .row hs hget hbelow⟩
        · rw [addColumn_noRow hget hs fun row heq => hrow ⟨row, heq⟩] at h
          cases h
      · by_cases hrest : rest = []
        · subst hrest
          rw [addColumn_scalar hget hs] at h
          cases h
          exact Or.inr ⟨rfl, hs, ⟨old, rfl⟩, _, _, rfl⟩
        · cases old with
          | dict items =>
              rw [addColumn_dict hget hs hrest] at h
              have ⟨below, hbelow, hmerged⟩ := Option.map_eq_some_iff.mp h
              exact Or.inl ⟨_, hmerged.symm, .dict hs hrest hget hbelow⟩
          | str text =>
              rw [addColumn_text hget hs hrest] at h
              split at h
              · cases h
                exact Or.inl ⟨_, rfl, .text hs hrest hget⟩
              · cases h
          | _ =>
              rw [addColumn_other hget hs hrest rfl rfl] at h
              cases h

/-- A merged row is a dict, or a list of two rows. -/
theorem addColumns_cases {cells : List Cell} {merged : PyValue}
    (hne : ∀ c ∈ cells, c.1 ≠ [])
    (h : addColumns selectMultiples cells (.dict []) = some merged) :
    (∃ d, merged = .dict d) ∨ ∃ row row', merged = .list [row, row'] := by
  induction cells using List.reverseRecOn generalizing merged with
  | nil =>
      cases h
      exact Or.inl ⟨_, rfl⟩
  | append_singleton cells c ih =>
      rw [addColumns_append_singleton] at h
      have ⟨before, hbefore, hadded⟩ := Option.bind_eq_some_iff.mp h
      have ⟨s, rest, hpath⟩ := List.exists_cons_of_ne_nil (hne c (by simp))
      rw [hpath] at hadded
      rcases ih (fun c hc => hne c (List.mem_append_left _ hc)) hbefore with ⟨d, rfl⟩ | ⟨_, _, rfl⟩
      · rcases addColumn_cases hadded with ⟨new, hmerged, _⟩ | ⟨_, _, _, hrows⟩
        · exact Or.inl ⟨_, hmerged⟩
        · exact Or.inr hrows
      · rw [addColumn_notDict rfl] at hadded
        cases hadded

namespace RowColumns

variable {cells : List Cell} {d : List (String × PyValue)}

/-- The last column of a row that is merged to a dict. -/
theorem last_added {s : Step} {rest : List Step} {value : PyValue}
    (h : RowColumns selectMultiples (cells ++ [(s :: rest, value)]))
    (hd : addColumns selectMultiples (cells ++ [(s :: rest, value)]) (.dict []) =
      some (.dict d)) :
    ∃ before new, addColumns selectMultiples cells (.dict []) = some (.dict before) ∧
      d = Dict.insert before (stepText s) new ∧
      Changed selectMultiples s rest value before new := by
  rw [addColumns_append_singleton] at hd
  have ⟨before, hbefore, hadded⟩ := Option.bind_eq_some_iff.mp hd
  rcases addColumns_cases h.of_append.ne_nil hbefore with ⟨before, rfl⟩ | ⟨_, _, rfl⟩
  · rcases addColumn_cases hadded with ⟨new, hmerged, hchanged⟩ | ⟨_, _, _, _, _, hrows⟩
    · exact ⟨before, new, hbefore, PyValue.dict.inj hmerged, hchanged⟩
    · cases hrows
  · rw [addColumn_notDict rfl] at hadded
    cases hadded

/-- The keys of a merged row are the first steps of its columns. -/
theorem keys_addColumns (h : RowColumns selectMultiples cells)
    (hd : addColumns selectMultiples cells (.dict []) = some (.dict d)) :
    Dict.keys d = (firstSteps cells).map stepText := by
  induction cells using List.reverseRecOn generalizing d with
  | nil =>
      cases hd
      rfl
  | append_singleton cells c ih =>
      obtain ⟨position, value⟩ := c
      obtain ⟨s, rest, rfl⟩ := List.exists_cons_of_ne_nil (h.ne_nil (position, value) (by simp))
      have ⟨before, new, hbefore, hinsert, _⟩ := h.last_added hd
      have hs : IsFieldName s.1 := (h.column (s :: rest, value) (by simp)).names s (by simp)
      have hmem : stepText s ∈ (firstSteps cells).map stepText ↔ s ∈ firstSteps cells := by
        rw [List.mem_map]
        constructor
        · intro ⟨t, ht, htext⟩
          rw [← stepText_inj (h.of_append.isFieldName ht) hs htext]
          exact ht
        · exact fun hs => ⟨s, hs, rfl⟩
      rw [hinsert, Dict.keys_insert, ih h.of_append hbefore, firstSteps_append_singleton]
      by_cases hfirst : s ∈ firstSteps cells
      · rw [if_pos (hmem.mpr hfirst), if_pos hfirst]
      · rw [if_neg (mt hmem.mp hfirst), if_neg hfirst, List.map_append, List.map_singleton]

end RowColumns

/-- The value of a group or list item that is merged to `merged`. -/
def placed (s : Step) (merged : PyValue) : PyValue :=
  if s.2.isSome then relisted merged else merged

namespace RowColumns

variable {cells : List Cell} {d : List (String × PyValue)}

/-- The value of a group or list item is what its own columns are merged to. -/
theorem get?_addColumns (h : RowColumns selectMultiples cells)
    (hd : addColumns selectMultiples cells (.dict []) = some (.dict d)) {s : Step}
    (hs : s ∈ firstSteps cells) (hne : ∀ c ∈ Onadata.Lib.below s cells, c.1 ≠ []) :
    ∃ merged, addColumns selectMultiples (Onadata.Lib.below s cells) (.dict []) = some merged ∧
      Dict.get? d (stepText s) = some (placed s merged) := by
  induction cells using List.reverseRecOn generalizing d with
  | nil => cases hs
  | append_singleton cells c ih =>
      obtain ⟨position, value⟩ := c
      obtain ⟨t, rest, rfl⟩ := List.exists_cons_of_ne_nil (h.ne_nil (position, value) (by simp))
      have ⟨before, new, hbefore, hinsert, hchanged⟩ := h.last_added hd
      have hkeys := h.of_append.keys_addColumns hbefore
      have ht : IsFieldName t.1 := (h.column (t :: rest, value) (by simp)).names t (by simp)
      rw [below_append_singleton] at hne ⊢
      by_cases hts : t = s
      · subst hts
        rw [if_pos rfl] at hne ⊢
        have hrest : rest ≠ [] := hne (rest, value) (by simp)
        have hneBefore : ∀ c ∈ Onadata.Lib.below t cells, c.1 ≠ [] :=
          fun c hc => hne c (List.mem_append_left _ hc)
        -- a key before is that of an earlier column of the branch
        have hearlier : ∀ {old}, Dict.get? before (stepText t) = some old →
            ∃ merged, addColumns selectMultiples (Onadata.Lib.below t cells) (.dict []) =
              some merged ∧ old = placed t merged := by
          intro old hold
          have hfirst : t ∈ firstSteps cells := by
            have hmem := List.mem_map_of_mem (f := Prod.fst) (Dict.mem_of_get? hold)
            rw [show before.map Prod.fst = _ from hkeys] at hmem
            have ⟨u, hu, htext⟩ := List.mem_map.mp hmem
            rw [← stepText_inj (h.of_append.isFieldName hu) ht htext]
            exact hu
          have ⟨merged, hmerged, hget⟩ := ih h.of_append hbefore hfirst hneBefore
          rw [hold] at hget
          exact ⟨merged, hmerged, Option.some.inj hget⟩
        rw [addColumns_append_singleton, hinsert, Dict.get?_insert, if_pos rfl]
        cases hchanged with
        | new hnone =>
            have hfirst : t ∉ firstSteps cells := by
              intro hmem
              rw [Dict.get?_eq_none, hkeys] at hnone
              exact hnone (List.mem_map_of_mem hmem)
            obtain ⟨u, rest, rfl⟩ := List.exists_cons_of_ne_nil hrest
            have hu : IsFieldName u.1 :=
              (h.column (t :: u :: rest, value) (by simp)).names u (by simp)
            rw [not_imp_comm.mp mem_firstSteps.mpr hfirst, columnTree_cons hu]
            refine ⟨.dict [(stepText u, wrapped u (columnTree rest value))], ?_, rfl⟩
            show addColumn selectMultiples (u :: rest) value (.dict []) = _
            exact addColumn_new rfl
        | row hsome hget hadded =>
            have ⟨merged, hmerged, hplaced⟩ := hearlier hget
            rw [placed, if_pos hsome] at hplaced
            rcases addColumns_cases hneBefore hmerged with ⟨old, rfl⟩ | ⟨_, _, rfl⟩
            · cases hplaced
              rw [hmerged]
              refine ⟨_, hadded, ?_⟩
              rw [placed, if_pos hsome]
            · cases hplaced
        | dict hsome _ hget hadded =>
            have ⟨merged, hmerged, hplaced⟩ := hearlier hget
            rw [placed, if_neg hsome] at hplaced
            subst hplaced
            rw [hmerged]
            refine ⟨_, hadded, ?_⟩
            rw [placed, if_neg hsome]
        | text hsome _ hget =>
            have ⟨merged, hmerged, hplaced⟩ := hearlier hget
            rw [placed, if_neg hsome] at hplaced
            subst hplaced
            rcases addColumns_cases hneBefore hmerged with ⟨_, heq⟩ | ⟨_, _, heq⟩
            · cases heq
            · cases heq
      · rw [if_neg hts] at hne ⊢
        have hfirst : s ∈ firstSteps cells := by
          rw [firstSteps_append_singleton] at hs
          split at hs
          · exact hs
          · exact (List.mem_append.mp hs).resolve_right fun hmem =>
              hts (List.mem_singleton.mp hmem).symm
        have ⟨merged, hmerged, hget⟩ := ih h.of_append hbefore hfirst hne
        refine ⟨merged, hmerged, ?_⟩
        rw [hinsert, Dict.get?_insert, if_neg, hget]
        exact fun htext => hts (stepText_inj (h.of_append.isFieldName hfirst) ht htext).symm

/-- With the shorter columns first, no text comes after a split column. -/
theorem isDict_of_sorted (h : RowColumns selectMultiples cells)
    (hsorted : cells.Pairwise fun c c' => c.1.length ≤ c'.1.length) {merged : PyValue}
    (hmerged : addColumns selectMultiples cells (.dict []) = some merged) :
    ∃ d, merged = .dict d := by
  induction cells using List.reverseRecOn generalizing merged with
  | nil =>
      cases hmerged
      exact ⟨_, rfl⟩
  | append_singleton cells c ih =>
      obtain ⟨position, value⟩ := c
      obtain ⟨s, rest, rfl⟩ := List.exists_cons_of_ne_nil (h.ne_nil (position, value) (by simp))
      rw [addColumns_append_singleton] at hmerged
      have ⟨before, hbefore, hadded⟩ := Option.bind_eq_some_iff.mp hmerged
      have ⟨hsortedBefore, _, hlast⟩ := List.pairwise_append.mp hsorted
      have ⟨d, hd⟩ := ih h.of_append hsortedBefore hbefore
      subst hd
      rcases addColumn_cases hadded with ⟨new, hnew, _⟩ | ⟨rfl, _, ⟨old, hold⟩, _⟩
      · exact ⟨_, hnew⟩
      · -- the column with the key before has the same position
        have hmem := List.mem_map_of_mem (f := Prod.fst) (Dict.mem_of_get? hold)
        rw [show d.map Prod.fst = _ from h.of_append.keys_addColumns hbefore] at hmem
        have ⟨t, ht, htext⟩ := List.mem_map.mp hmem
        have hs : IsFieldName s.1 := (h.column ([s], value) (by simp)).names s (by simp)
        have hts := stepText_inj (h.of_append.isFieldName ht) hs htext
        subst hts
        have ⟨c, hc⟩ := List.exists_mem_of_ne_nil _ (mem_firstSteps.mp ht)
        have hcell := mem_below.mp hc
        have hlength := hlast _ hcell ([t], value) (by simp)
        have hnil : c.1 = [] := List.length_eq_zero_iff.mp (by simpa using hlength)
        have hrelated := (List.pairwise_append.mp h.related).2.2 _ hcell ([t], value) (by simp)
        rw [hnil] at hrelated
        exact absurd rfl hrelated.ne

end RowColumns

end

/-! ### The nested dict -/

/-- A dict whose indices can be removed has values whose indices can be removed. -/
theorem removeIndicesFromValue_of_mem {items result d : List (String × PyValue)}
    (h : removeIndicesFromItems result items = .ok d) {item : String × PyValue}
    (hitem : item ∈ items) : ∃ value, removeIndicesFromValue item.2 = .ok value := by
  induction items generalizing result with
  | nil => cases hitem
  | cons first items ih =>
      obtain ⟨key, value⟩ := first
      rw [removeIndicesFromItems] at h
      cases hvalue : removeIndicesFromValue value with
      | error e =>
          rw [hvalue] at h
          cases h
      | ok value' =>
          rcases List.mem_cons.mp hitem with rfl | hitem
          · exact ⟨value', hvalue⟩
          · simp only [hvalue, bind, Except.bind] at h
            split at h
            · exact ih h hitem
            · rename_i old hget
              cases hextend : extend old value' with
              | error e =>
                  rw [hextend] at h
                  cases h
              | ok extended =>
                  rw [hextend] at h
                  exact ih h hitem

theorem length_removeIndicesFromRows {rows rows' : List PyValue}
    (h : removeIndicesFromRows rows = .ok rows') : rows'.length = rows.length := by
  induction rows generalizing rows' with
  | nil =>
      cases h
      rfl
  | cons row rows ih =>
      -- the row itself does not matter
      have hrest : ∀ {row' : PyValue}, (removeIndicesFromRows rows).bind
          (fun rest => .ok (row' :: rest)) = .ok rows' → rows'.length = rows.length + 1 := by
        intro row' hbind
        cases hrows : removeIndicesFromRows rows with
        | error e =>
            rw [hrows] at hbind
            cases hbind
        | ok rest =>
            rw [hrows] at hbind
            cases hbind
            rw [List.length_cons, ih hrows]
      cases row with
      | dict items =>
          rw [removeIndicesFromRows] at h
          cases hitems : removeIndicesFromItems [] items with
          | error e =>
              rw [hitems] at h
              cases h
          | ok items' =>
              rw [hitems] at h
              exact hrest h
      | _ => exact hrest h

/-- A list stays a list with as many rows without the indices. -/
theorem list_of_removeIndices {rows : List PyValue} {value : PyValue}
    (h : removeIndicesFromValue (.list rows) = .ok value) :
    ∃ rows', value = .list rows' ∧ rows'.length = rows.length := by
  rw [removeIndicesFromValue] at h
  cases hrows : removeIndicesFromRows rows with
  | error e =>
      rw [hrows] at h
      cases h
  | ok rows' =>
      rw [hrows] at h
      cases h
      exact ⟨rows', rfl, length_removeIndicesFromRows hrows⟩

theorem relisted_isList (merged : PyValue) : ∃ rows, relisted merged = .list rows := by
  cases merged with
  | list rows => exact ⟨rows, rfl⟩
  | _ => exact ⟨_, rfl⟩

section
variable {selectMultiples : List String}

/-- The values of the nested dict of a row. -/
theorem RowColumns.get?_decoded {cells : List Cell} {d decoded : List (String × PyValue)}
    (h : RowColumns selectMultiples cells)
    (hd : addColumns selectMultiples cells (.dict []) = some (.dict d))
    (hdecoded : removeIndicesFromItems [] d = .ok decoded) :
    ∃ value : Step → PyValue,
      (∀ s ∈ firstSteps cells, (∀ c ∈ Onadata.Lib.below s cells, c.1 ≠ []) →
        ∃ merged, addColumns selectMultiples (Onadata.Lib.below s cells) (.dict []) =
            some merged ∧ removeIndicesFromValue (placed s merged) = .ok (value s)) ∧
      ∀ name, Dict.get? decoded name = joined value name (valuesOf (firstSteps cells) name) := by
  have hkeys := h.keys_addColumns hd
  have hnodup : (Dict.keys d).Nodup := by
    rw [hkeys]
    refine (nodup_firstSteps cells).map_on (fun s hs s' hs' htext => ?_)
    exact stepText_inj (h.isFieldName hs) (h.isFieldName hs') htext
  have hmap := Dict.eq_map_keys hnodup PyValue.none
  rw [hkeys, List.map_map] at hmap
  have hparts : ∀ s ∈ firstSteps cells, ∃ value,
      removeIndicesFromValue ((Dict.get? d (stepText s)).getD .none) = .ok value := by
    intro s hs
    have hitem := List.mem_map_of_mem
      (f := (fun key => (key, (Dict.get? d key).getD PyValue.none)) ∘ stepText) hs
    rw [← hmap] at hitem
    exact removeIndicesFromValue_of_mem hdecoded hitem
  have : Nonempty PyValue := ⟨.none⟩
  choose! value hvalue using hparts
  have hbelow : ∀ s ∈ firstSteps cells, (∀ c ∈ Onadata.Lib.below s cells, c.1 ≠ []) →
      ∃ merged, addColumns selectMultiples (Onadata.Lib.below s cells) (.dict []) =
          some merged ∧ removeIndicesFromValue (placed s merged) = .ok (value s) := by
    intro s hs hne
    have ⟨merged, hmerged, hget⟩ := h.get?_addColumns hd hs hne
    refine ⟨merged, hmerged, ?_⟩
    have hpart := hvalue s hs
    rw [hget] at hpart
    exact hpart
  have hitem : ∀ s ∈ firstSteps cells, s.2.isSome = true → (value s).isList = true := by
    intro s hs hsome
    have ⟨merged, _, hpart⟩ := hbelow s hs (h.ne_nil_of_item hsome)
    have ⟨rows, hrows⟩ := relisted_isList merged
    rw [placed, if_pos hsome, hrows] at hpart
    have ⟨_, hlist, _⟩ := list_of_removeIndices hpart
    rw [hlist]
    rfl
  have ⟨decoded', hdecoded', _, hget⟩ := removeIndicesFromItems_joined
    (fun s hs => h.isFieldName hs) h.listed hvalue hitem
  refine ⟨value, hbelow, ?_⟩
  have heq : decoded = decoded' := by
    have hsame := hdecoded.symm.trans ((congrArg _ hmap).trans hdecoded')
    exact Except.ok.inj hsame
  rw [heq]
  exact hget

end

end Onadata.Proofs
