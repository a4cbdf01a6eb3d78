import Onadata.Lib.ExceptList
import Onadata.Proofs.Libs.Utils.RecordAnswers

/-!
# `Onadata.Proofs.Libs.Utils.MergedColumns`: what the columns of a row are merged to

`merge_list_of_dicts` on the dicts of columns with positions that are apart. The result is
one tree of dicts with the branches of the cells, and merging a tree again does not change it.

* `mergedItems`: the tree.
* `mergeRow_mergedItems`: a tree alone is merged to itself.
* `mergeItem_column`: a column is merged into a tree.
* `foldlM_mergeRow_columns`: the columns of a row are merged to their tree.
-/

set_option autoImplicit false

namespace Onadata.Proofs

open Onadata.Lib

/-- The value of a column part: that of a list item is in a list of its own. -/
def wrapped (step : Step) (value : PyValue) : PyValue :=
  if step.2.isSome then .list [value] else value

theorem wrapped_of_isSome {s : Step} (h : s.2.isSome = true) (value : PyValue) :
    wrapped s value = .list [value] :=
  if_pos h

theorem wrapped_of_not_isSome {s : Step} (h : ¬ s.2.isSome = true) (value : PyValue) :
    wrapped s value = value :=
  if_neg h

/-- The dict of one column. -/
def columnTree (position : List Step) (value : PyValue) : PyValue :=
  listToDict (position.map stepText) value

/-- The value that cells are merged to. `n` bounds the length of the positions. -/
def mergedTree : Nat → List Cell → PyValue
  | _, [([], value)] => value
  | 0, _ => .dict []
  | n + 1, cells =>
      .dict ((firstSteps cells).map fun s => (stepText s, wrapped s (mergedTree n (below s cells))))

/-- The items of the dict that cells are merged to. -/
def mergedItems (n : Nat) (cells : List Cell) : List (String × PyValue) :=
  (firstSteps cells).map fun s => (stepText s, wrapped s (mergedTree n (below s cells)))

/-- The cells of a row: at positions that are apart, that have field names and no more than
`n + 1` steps, and that end with a plain name. -/
structure Columns (n : Nat) (cells : List Cell) : Prop where
  apart : cells.Pairwise fun c c' => Apart c.1 c'.1
  ne_nil : ∀ c ∈ cells, c.1 ≠ []
  length_le : ∀ c ∈ cells, c.1.length ≤ n + 1
  names : ∀ c ∈ cells, HasFieldNames c.1
  plain : ∀ c ∈ cells, ∀ s ∈ c.1.getLast?, s.2 = none
  scalar : ∀ c ∈ cells, isScalar c.2 = true

/-! ### Branches of a row -/

/-- The row without its last cells. -/
theorem Columns.of_append {n : Nat} {cells cells' : List Cell} (h : Columns n (cells ++ cells')) :
    Columns n cells :=
  have hmem : ∀ c ∈ cells, c ∈ cells ++ cells' := fun _ hc => List.mem_append_left _ hc
  { apart := (List.pairwise_append.mp h.apart).1
    ne_nil := fun c hc => h.ne_nil c (hmem c hc)
    length_le := fun c hc => h.length_le c (hmem c hc)
    names := fun c hc => h.names c (hmem c hc)
    plain := fun c hc => h.plain c (hmem c hc)
    scalar := fun c hc => h.scalar c (hmem c hc) }

/-- The branches of a row have field names. -/
theorem Columns.isFieldName {n : Nat} {cells : List Cell} (h : Columns n cells) {s : Step}
    (hs : s ∈ firstSteps cells) : IsFieldName s.1 := by
  obtain ⟨c, hc⟩ := List.exists_mem_of_ne_nil _ (mem_firstSteps.mp hs)
  exact h.names _ (mem_below.mp hc) s List.mem_cons_self

/-- A branch of a row is a value with a plain name, or the cells of a row themselves. -/
theorem Columns.below_cases {n : Nat} {cells : List Cell} (h : Columns n cells) {s : Step}
    (hs : s ∈ firstSteps cells) :
    (s.2 = none ∧ ∃ value, isScalar value = true ∧ below s cells = [([], value)]) ∨
      ∃ m, n = m + 1 ∧ Columns m (below s cells) := by
  have hmem : ∀ {c}, c ∈ below s cells → (s :: c.1, c.2) ∈ cells := fun hc => mem_below.mp hc
  rcases root_or_ne_nil (pairwise_apart_below h.apart s) with ⟨value, hroot⟩ | hne
  · have hcell := hmem (hroot ▸ List.mem_cons_self : (([], value) : Cell) ∈ below s cells)
    exact Or.inl ⟨h.plain _ hcell s rfl, value, h.scalar _ hcell, hroot⟩
  · obtain ⟨c, hc⟩ := List.exists_mem_of_ne_nil _ (mem_firstSteps.mp hs)
    have hlength := h.length_le _ (hmem hc)
    have hpos := List.length_pos_iff.mpr (hne c hc)
    rw [List.length_cons] at hlength
    obtain ⟨m, rfl⟩ : ∃ m, n = m + 1 := ⟨n - 1, by omega⟩
    refine Or.inr ⟨m, rfl, pairwise_apart_below h.apart s, hne, ?_, ?_, ?_, ?_⟩
    · intro c hc
      have hlength := h.length_le _ (hmem hc)
      rw [List.length_cons] at hlength
      omega
    · intro c hc s' hs'
      exact h.names _ (hmem hc) s' (List.mem_cons_of_mem s hs')
    · intro c hc s' hs'
      refine h.plain _ (hmem hc) s' ?_
      rw [List.getLast?_cons_of_ne_nil (hne c hc)]
      exact hs'
    · exact fun c hc => h.scalar (s :: c.1, c.2) (hmem hc)

/-- The branch of the last cell: that of a new value with a plain name, or the cells of a
row. -/
theorem Columns.branch {n : Nat} {cells : List Cell} {s : Step} {position : List Step}
    {value : PyValue} (h : Columns n (cells ++ [(s :: position, value)])) :
    (below s cells = [] ∧ s.2 = none ∧ position = []) ∨
      ∃ m, n = m + 1 ∧ Columns m (below s cells ++ [(position, value)]) := by
  have hmem : (s :: position, value) ∈ cells ++ [(s :: position, value)] := by simp
  have hcases := h.below_cases (mem_firstSteps.mpr (List.ne_nil_of_mem (mem_below.mpr hmem)))
  rw [below_append_singleton, if_pos rfl] at hcases
  refine hcases.imp_left ?_
  rintro ⟨hplain, value', -, hroot⟩
  cases hbelow : below s cells with
  | nil =>
      rw [hbelow, List.nil_append, List.cons.injEq, Prod.mk.injEq] at hroot
      exact ⟨rfl, hplain, hroot.1.1⟩
  | cons c rest =>
      rw [hbelow] at hroot
      simp at hroot

/-! ### The tree -/

/-- A tree with no value at its root is a dict. -/
theorem mergedTree_succ (n : Nat) {cells : List Cell} (h : ∀ c ∈ cells, c.1 ≠ []) :
    mergedTree (n + 1) cells = .dict (mergedItems n cells) := by
  rw [mergedTree]
  · rfl
  · rintro value rfl
    exact h _ List.mem_cons_self rfl

@[simp]
theorem mergedItems_nil (n : Nat) : mergedItems n [] = [] := rfl

/-- The dict of a column, part by part. -/
theorem columnTree_cons {s : Step} (h : IsFieldName s.1) (position : List Step)
    (value : PyValue) : columnTree (s :: position) value =
      .dict [(stepText s, wrapped s (columnTree position value))] := by
  show PyValue.dict [(stepText s, if findBracket (stepText s) > 0 then _ else _)] = _
  rw [wrapped]
  by_cases hs : s.2.isSome = true
  · rw [if_pos ((findBracket_stepText_pos h).mpr hs), if_pos hs]
    rfl
  · rw [if_neg (mt (findBracket_stepText_pos h).mp hs), if_neg hs]
    rfl

/-- The tree of one cell is the dict of its column. -/
theorem mergedTree_singleton {n : Nat} {position : List Step} (value : PyValue)
    (hlength : position.length ≤ n) (hnames : HasFieldNames position) :
    mergedTree n [(position, value)] = columnTree position value := by
  induction position generalizing n with
  | nil =>
      rw [mergedTree]
      rfl
  | cons s position ih =>
      obtain ⟨n, rfl⟩ : ∃ m, n = m + 1 := ⟨n - 1, by
        rw [List.length_cons] at hlength
        omega⟩
      have hsteps : firstSteps [(s :: position, value)] = [s] := by
        simpa using firstSteps_append_singleton s position value []
      have hbelow : below s [(s :: position, value)] = [(position, value)] := by
        simpa using below_append_singleton s s position value []
      rw [mergedTree_succ n (by simp), mergedItems, hsteps, List.map_cons, List.map_nil, hbelow,
        ih (Nat.le_of_succ_le_succ hlength) fun t ht => hnames t (List.mem_cons_of_mem s ht),
        columnTree_cons (hnames s List.mem_cons_self)]

/-- The keys of a tree are different. -/
theorem nodup_keys_mergedItems {n : Nat} {cells : List Cell} (h : Columns n cells) :
    (Dict.keys (mergedItems n cells)).Nodup := by
  rw [mergedItems, Dict.keys, List.map_map]
  exact (nodup_firstSteps cells).map_on fun s hs s' hs' heq =>
    stepText_inj (h.isFieldName hs) (h.isFieldName hs') heq

/-- The texts of the branches are different from that of another step. -/
theorem Columns.stepText_inj {n : Nat} {cells : List Cell} (h : Columns n cells) {s : Step}
    (hs : IsFieldName s.1) :
    ∀ other ∈ firstSteps cells, stepText other = stepText s → other = s :=
  fun _ hother heq => Proofs.stepText_inj (h.isFieldName hother) hs heq

/-- A tree with one more cell has a new value for the branch of the cell. -/
theorem insert_mergedItems {n : Nat} {cells : List Cell} {s : Step} {position : List Step}
    {value : PyValue} (h : Columns n (cells ++ [(s :: position, value)])) :
    Dict.insert (mergedItems n cells) (stepText s)
      (wrapped s (mergedTree n (below s cells ++ [(position, value)]))) =
        mergedItems n (cells ++ [(s :: position, value)]) := by
  have hold := h.of_append
  have hs : IsFieldName s.1 := h.names (s :: position, value) (by simp) s List.mem_cons_self
  have hinj := hold.stepText_inj hs
  rw [mergedItems, mergedItems, firstSteps_append_singleton]
  simp only [below_append_singleton]
  by_cases hmem : s ∈ firstSteps cells
  · rw [if_pos hmem, Dict.insert_map hinj (nodup_firstSteps cells) hmem]
    refine List.map_congr_left fun other _ => ?_
    by_cases heq : other = s
    · rw [heq, if_pos rfl, if_pos rfl]
    · rw [if_neg heq, if_neg (Ne.symm heq)]
  · rw [if_neg hmem, Dict.insert_of_notMem, List.map_append]
    · refine congrArg₂ _ (List.map_congr_left fun other hother => ?_) ?_
      · have hne : s ≠ other := fun heq => hmem (heq ▸ hother)
        rw [if_neg hne]
      · rw [List.map_singleton, if_pos rfl]
    · exact Dict.get?_eq_none.mp (Dict.get?_map_of_notMem hinj hmem)

/-- A column is nested as deep as its position is long. -/
theorem length_le_depth_columnTree {position : List Step} (h : HasFieldNames position)
    (value : PyValue) : position.length ≤ (columnTree position value).depth := by
  induction position with
  | nil => exact Nat.zero_le _
  | cons s position ih =>
      have hrest := ih fun t ht => h t (List.mem_cons_of_mem s ht)
      have hwrapped : (columnTree position value).depth ≤
          (wrapped s (columnTree position value)).depth := by
        rw [wrapped]
        split
        · rw [PyValue.depth, PyValue.depthOfItems]
          omega
        · exact Nat.le_refl _
      rw [columnTree_cons (h s List.mem_cons_self), PyValue.depth, PyValue.depthOfDict,
        List.length_cons]
      omega

/-! ### Merging -/

/-- The list that the merged rows of a list value become. -/
def relisted (merged : PyValue) : PyValue :=
  if merged.isList then merged else .list [merged]

section Merging

variable (overrideKeys : List String) (merge : List PyValue → Except PyError PyValue)
  (row : PyValue) {d : List (String × PyValue)} {key : String}

/-- A scalar or a dict for a new key. -/
theorem mergeItem_new {value : PyValue} (hlist : value.isList = false)
    (hget : Dict.get? d key = none) :
    mergeItem overrideKeys merge row (.dict d) (key, value) =
      .ok (.dict (Dict.insert d key value)) := by
  cases value with
  | list items => simp [PyValue.isList] at hlist
  | _ => simp only [mergeItem, hget, setItem]

/-- A dict for a key with a dict. -/
theorem mergeItem_dict {old items merged : List (String × PyValue)}
    (hget : Dict.get? d key = some (.dict old))
    (hmerge : merge [.dict old, .dict items] = .ok (.dict merged)) :
    mergeItem overrideKeys merge row (.dict d) (key, .dict items) =
      .ok (.dict (Dict.insert d key (.dict merged))) := by
  simp only [mergeItem, hget, PyValue.isDict, if_pos, mergeValues, hmerge]
  rfl

/-- A list for a key with or without a list. -/
theorem mergeItem_list {items rows : List PyValue} {merged : PyValue}
    (hrows : rowsToMerge (.dict d) key items = .ok rows) (hmerge : merge rows = .ok merged) :
    mergeItem overrideKeys merge row (.dict d) (key, .list items) =
      .ok (.dict (Dict.insert d key (relisted merged))) := by
  simp only [mergeItem, hrows, bind, Except.bind, hmerge, setItem]
  rfl

/-- Items with new keys, whose lists are merged to themselves, are appended. -/
theorem foldlM_mergeItem_new {items : List (String × PyValue)}
    (hnodup : (Dict.keys (d ++ items)).Nodup)
    (hitems : ∀ item ∈ items, item.2.isList = false ∨
      ∃ rows merged, item.2 = .list rows ∧ merge rows = .ok merged ∧
        relisted merged = .list rows) :
    items.foldlM (mergeItem overrideKeys merge row) (.dict d) = .ok (.dict (d ++ items)) := by
  induction items generalizing d with
  | nil => simp [pure, Except.pure]
  | cons item items ih =>
      rw [List.forall_mem_cons] at hitems
      have hnew : item.1 ∉ Dict.keys d := by
        rw [Dict.keys_append, Dict.keys_cons, List.nodup_append] at hnodup
        exact fun hmem => hnodup.2.2 _ hmem _ List.mem_cons_self rfl
      have hget := Dict.get?_eq_none.mpr hnew
      have hfirst : mergeItem overrideKeys merge row (.dict d) item =
          .ok (.dict (d ++ [item])) := by
        rw [← Dict.insert_of_notMem item.2 hnew]
        rcases hitems.1 with hlist | ⟨rows, merged, hvalue, hmerge, hrelisted⟩
        · exact mergeItem_new overrideKeys merge row hlist hget
        · obtain ⟨key, value⟩ := item
          subst hvalue
          have hrows : rowsToMerge (.dict d) key rows = .ok rows := by rw [rowsToMerge, hget]
          have hitem := mergeItem_list overrideKeys merge row hrows hmerge
          rw [hrelisted] at hitem
          exact hitem
      rw [List.foldlM_cons, hfirst]
      show items.foldlM _ (PyValue.dict (d ++ [item])) = _
      rw [ih (by simpa using hnodup) hitems.2, List.append_assoc]
      rfl

end Merging

/-- Two rows are merged after each other. -/
theorem mergeWithin_cons (overrideKeys : List String) {fuel : Nat} {row result : PyValue}
    (rows : List PyValue)
    (hrow : mergeRow overrideKeys (mergeWithin overrideKeys fuel) (.dict []) row = .ok result) :
    mergeWithin overrideKeys (fuel + 1) (row :: rows) =
      rows.foldlM (mergeRow overrideKeys (mergeWithin overrideKeys fuel)) result := by
  rw [mergeWithin, List.foldlM_cons, hrow]
  rfl

/-- A tree alone is merged to itself. -/
theorem mergeRow_mergedItems (overrideKeys : List String) {n fuel : Nat} (hfuel : n ≤ fuel)
    {cells : List Cell} (h : Columns n cells) :
    mergeRow overrideKeys (mergeWithin overrideKeys fuel) (.dict []) (.dict (mergedItems n cells)) =
      .ok (.dict (mergedItems n cells)) := by
  induction n using Nat.strongRecOn generalizing fuel cells with
  | ind n ih =>
      refine foldlM_mergeItem_new _ _ _ (nodup_keys_mergedItems h) fun item hitem => ?_
      obtain ⟨s, hs, rfl⟩ := List.mem_map.mp hitem
      show (wrapped s _).isList = false ∨ ∃ rows merged, wrapped s _ = _ ∧ _ ∧ _
      rcases h.below_cases hs with ⟨hplain, value, hscalar, hbelow⟩ | ⟨m, rfl, hbelow⟩
      · have hlist : value.isList = false := by
          simp only [isScalar, Bool.and_eq_true, Bool.not_eq_true'] at hscalar
          exact hscalar.1
        rw [hbelow, mergedTree, wrapped, hplain]
        exact Or.inl hlist
      · rw [mergedTree_succ m hbelow.ne_nil, wrapped]
        split
        · -- The tree of a list item, merged alone with one level of fuel less.
          obtain ⟨fuel, rfl⟩ : ∃ k, fuel = k + 1 := ⟨fuel - 1, by omega⟩
          refine Or.inr ⟨_, .dict (mergedItems m (below s cells)), rfl, ?_, rfl⟩
          rw [mergeWithin_cons _ [] (ih m (by omega) (by omega) hbelow)]
          rfl
        · exact Or.inl rfl

/-- A column is merged into a tree. -/
theorem mergeItem_column (overrideKeys : List String) (row : PyValue) {n fuel : Nat}
    (hfuel : n ≤ fuel) {cells : List Cell} {s : Step} {position : List Step} {value : PyValue}
    (h : Columns n (cells ++ [(s :: position, value)])) :
    mergeItem overrideKeys (mergeWithin overrideKeys fuel) row (.dict (mergedItems n cells))
      (stepText s, wrapped s (columnTree position value)) =
        .ok (.dict (mergedItems n (cells ++ [(s :: position, value)]))) := by
  induction n using Nat.strongRecOn generalizing fuel row cells s position with
  | ind n ih =>
      have hcell : (s :: position, value) ∈ cells ++ [(s :: position, value)] := by simp
      have hs : IsFieldName s.1 := h.names _ hcell s List.mem_cons_self
      have hinj := h.of_append.stepText_inj hs
      rw [← insert_mergedItems h]
      rcases h.branch with ⟨hbelow, hplain, rfl⟩ | ⟨m, rfl, hbelow⟩
      · -- A new value with a plain name.
        have hlist : value.isList = false := by
          have hscalar := h.scalar _ hcell
          simp only [isScalar, Bool.and_eq_true, Bool.not_eq_true'] at hscalar
          exact hscalar.1
        have hnew : s ∉ firstSteps cells := fun hmem => mem_firstSteps.mp hmem hbelow
        rw [hbelow, List.nil_append, mergedTree, wrapped, wrapped, hplain]
        exact mergeItem_new _ _ _ hlist (Dict.get?_map_of_notMem hinj hnew)
      · -- The rest of the column is merged into the tree of the branch.
        obtain ⟨fuel, rfl⟩ : ∃ k, fuel = k + 1 := ⟨fuel - 1, by omega⟩
        obtain ⟨s', position, rfl⟩ :=
          List.exists_cons_of_ne_nil (hbelow.ne_nil (position, value) (by simp))
        have hs' : IsFieldName s'.1 := hbelow.names (s' :: position, value) (by simp) s'
          List.mem_cons_self
        rw [mergedTree_succ m hbelow.ne_nil]
        by_cases hmem : s ∈ firstSteps cells
        · have hget : Dict.get? (mergedItems (m + 1) cells) (stepText s) =
              some (wrapped s (.dict (mergedItems m (below s cells)))) := by
            rw [← mergedTree_succ m hbelow.of_append.ne_nil]
            exact Dict.get?_map_of_mem hinj hmem
          have hmerge : mergeWithin overrideKeys (fuel + 1)
              [.dict (mergedItems m (below s cells)),
                .dict [(stepText s', wrapped s' (columnTree position value))]] =
                .ok (.dict (mergedItems m (below s cells ++ [(s' :: position, value)]))) := by
            rw [mergeWithin_cons _ _ (mergeRow_mergedItems overrideKeys (by omega)
              hbelow.of_append)]
            simp only [List.foldlM_cons, List.foldlM_nil, bind_pure, mergeRow]
            exact ih m (by omega) _ (by omega) hbelow
          rw [columnTree_cons hs']
          by_cases hsome : s.2.isSome = true
          · simp only [wrapped_of_isSome hsome] at hget ⊢
            exact mergeItem_list _ _ _ (by rw [rowsToMerge, hget]; rfl) hmerge
          · simp only [wrapped_of_not_isSome hsome] at hget ⊢
            exact mergeItem_dict _ _ _ hget hmerge
        · have hget : Dict.get? (mergedItems (m + 1) cells) (stepText s) = none :=
            Dict.get?_map_of_notMem hinj hmem
          rw [not_imp_comm.mp mem_firstSteps.mpr hmem, List.nil_append] at hbelow ⊢
          have htree : columnTree (s' :: position) value =
              .dict (mergedItems m [(s' :: position, value)]) := by
            rw [← mergedTree_succ m hbelow.ne_nil, mergedTree_singleton value
              (hbelow.length_le _ (by simp)) (hbelow.names (s' :: position, value) (by simp))]
          have hmerge := mergeWithin_cons overrideKeys []
            (mergeRow_mergedItems overrideKeys (Nat.le_of_succ_le_succ hfuel) hbelow)
          rw [htree]
          by_cases hsome : s.2.isSome = true
          · simp only [wrapped_of_isSome hsome]
            exact mergeItem_list _ _ _ (by rw [rowsToMerge, hget]) hmerge
          · simp only [wrapped_of_not_isSome hsome]
            exact mergeItem_new _ _ _ rfl hget

/-- The columns of a row are merged to their tree. -/
theorem foldlM_mergeRow_columns (overrideKeys : List String) {n fuel : Nat} (hfuel : n ≤ fuel)
    {cells : List Cell} (h : Columns n cells) :
    (cells.map fun c => columnTree c.1 c.2).foldlM
      (mergeRow overrideKeys (mergeWithin overrideKeys fuel)) (.dict []) =
        .ok (.dict (mergedItems n cells)) := by
  induction cells using List.reverseRecOn with
  | nil => rfl
  | append_singleton cells cell ih =>
      obtain ⟨position, value⟩ := cell
      obtain ⟨s, position, rfl⟩ :=
        List.exists_cons_of_ne_nil (h.ne_nil (position, value) (by simp))
      have hs : IsFieldName s.1 :=
        h.names (s :: position, value) (by simp) s List.mem_cons_self
      rw [List.map_append, List.foldlM_append, ih h.of_append, List.map_singleton,
        columnTree_cons hs]
      simp only [List.foldlM_cons, List.foldlM_nil, bind_pure, mergeRow]
      exact mergeItem_column overrideKeys _ hfuel h

end Onadata.Proofs
