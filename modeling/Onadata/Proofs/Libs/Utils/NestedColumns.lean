import Onadata.Proofs.Libs.Utils.MergedColumns
import Onadata.Proofs.Libs.Utils.RowReading

/-!
# `Onadata.Proofs.Libs.Utils.NestedColumns`: the nested dict of a row

`csv_dict_to_nested_dict` on a row whose cells are apart. The tree of the columns loses its
indices, and its answers are those of the row, with list items in the order of their first
columns.

* `removeIndicesFromItems_listed`: the branches of a name become one value, or one list in
  the order of the branches.
* `removeIndicesFromItems_mergedItems`: the answers of the dict without indices.
* `csvDictToNestedDict_apart`: the same for the whole decoder.
* `csvDictToNestedDict_columns`: if the cells follow each other too, each of them is found at its
  position.
-/

set_option autoImplicit false

namespace Onadata.Proofs

open Onadata.Lib

/-! ### Removing indices -/

/-- What the branches of a name become: their value, or the list of their values. -/
def listed (value : Step → PyValue) (name : String) : List (Option Nat) → Option PyValue
  | [] => none
  | none :: _ => some (value (name, none))
  | some i :: rest => some (.list ((some i :: rest).map fun j => value (name, j)))

/-- The rows of a list value. -/
def itemsOf : PyValue → List PyValue
  | .list rows => rows
  | _ => []

/-- What the branches of a name become, when the value of a list item is the list of its rows. -/
def joined (value : Step → PyValue) (name : String) : List (Option Nat) → Option PyValue
  | [] => none
  | none :: _ => some (value (name, none))
  | some i :: rest => some (.list ((some i :: rest).flatMap fun j => itemsOf (value (name, j))))

/-- Two parts of a dict are gone through after each other. -/
theorem removeIndicesFromItems_append (result items items' : List (String × PyValue)) :
    removeIndicesFromItems result (items ++ items') = (do
      let result ← removeIndicesFromItems result items
      removeIndicesFromItems result items') := by
  induction items generalizing result with
  | nil => rfl
  | cons item items ih =>
      obtain ⟨key, value⟩ := item
      rw [List.cons_append, removeIndicesFromItems, removeIndicesFromItems]
      cases removeIndicesFromValue value with
      | error e => rfl
      | ok value =>
          simp only [bind, Except.bind] at ih ⊢
          split
          · exact ih _
          · rename_i old hget
            cases extend old value with
            | error e => rfl
            | ok extended => exact ih _

/-- A scalar keeps its value. -/
theorem removeIndicesFromValue_scalar {value : PyValue} (h : isScalar value = true) :
    removeIndicesFromValue value = .ok value := by
  cases value with
  | list items => simp [isScalar, PyValue.isList] at h
  | dict items => simp [isScalar, PyValue.isDict] at h
  | _ => rfl

/-- Without the last step, the names are plain or name list items too. -/
theorem Listed.of_append {steps : List Step} {s : Step} (h : Listed (steps ++ [s])) :
    Listed steps := by
  intro name
  have hname := h name
  rw [valuesOf_append_singleton] at hname
  split at hname
  · rcases hname with hnone | ⟨indices, hindices⟩
    · cases hvalues : valuesOf steps name with
      | nil => exact Or.inr ⟨[], rfl⟩
      | cons i rest => simp [hvalues] at hnone
    · obtain ⟨before, _, _, hbefore, _⟩ := List.append_eq_map_iff.mp hindices
      exact Or.inr ⟨before, hbefore.symm⟩
  · exact hname

/-- The dict of steps without their indices: for each name what its branches become. -/
theorem removeIndicesFromItems_joined {steps : List Step} {part value : Step → PyValue}
    (hnames : ∀ s ∈ steps, IsFieldName s.1) (hlisted : Listed steps)
    (hpart : ∀ s ∈ steps, removeIndicesFromValue (part s) = .ok (value s))
    (hitem : ∀ s ∈ steps, s.2.isSome = true → (value s).isList = true) :
    ∃ d, removeIndicesFromItems [] (steps.map fun s => (stepText s, part s)) = .ok d ∧
      (Dict.keys d).Nodup ∧
        ∀ name, Dict.get? d name = joined value name (valuesOf steps name) := by
  induction steps using List.reverseRecOn with
  | nil => exact ⟨[], rfl, List.nodup_nil, fun name => rfl⟩
  | append_singleton steps s ih =>
      obtain ⟨d, hd, hnodup, hget⟩ := ih (fun t ht => hnames t (List.mem_append_left _ ht))
        hlisted.of_append (fun t ht => hpart t (List.mem_append_left _ ht))
        fun t ht => hitem t (List.mem_append_left _ ht)
      have hs : s ∈ steps ++ [s] := List.mem_append_right _ List.mem_cons_self
      have hname := hlisted s.1
      rw [valuesOf_append_singleton, if_pos rfl] at hname
      -- The name of the new step gets a new value, the others keep theirs.
      suffices hstep : ∃ newValue,
          removeIndicesFromItems d [(stepText s, part s)] =
            .ok (Dict.insert d s.1 newValue) ∧
          joined value s.1 (valuesOf steps s.1 ++ [s.2]) = some newValue by
        obtain ⟨newValue, hrun, hjoined⟩ := hstep
        refine ⟨Dict.insert d s.1 newValue, ?_, Dict.nodup_keys_insert hnodup _ _, fun name => ?_⟩
        · rw [List.map_append, removeIndicesFromItems_append, hd]
          exact hrun
        · rw [Dict.get?_insert, valuesOf_append_singleton]
          by_cases heq : s.1 = name
          · rw [if_pos heq.symm, if_pos heq, ← heq, hjoined]
          · rw [if_neg (Ne.symm heq), if_neg heq, hget]
      have hlist := hitem s hs
      simp only [removeIndicesFromItems, hpart s hs, withoutIndex_stepText (hnames s hs), hget,
        bind, Except.bind]
      obtain ⟨name, index⟩ := s
      have hrows : index.isSome = true →
          value (name, index) = .list (itemsOf (value (name, index))) := by
        intro hindex
        have hlist := hlist hindex
        cases hvalue : value (name, index) with
        | list rows => rfl
        | _ =>
            rw [hvalue] at hlist
            cases hlist
      cases hvalues : valuesOf steps name with
      | nil =>
          cases index with
          | none => exact ⟨_, rfl, rfl⟩
          | some i =>
              refine ⟨_, rfl, ?_⟩
              rw [hrows rfl]
              simp [joined, itemsOf]
      | cons first rest =>
          obtain ⟨indices, hindices⟩ :
              ∃ indices : List Nat, (first :: rest) ++ [index] = indices.map some := by
            rw [hvalues] at hname
            exact hname.resolve_left (by simp)
          have hsome : ∀ i ∈ (first :: rest) ++ [index], ∃ j, i = some j := by
            intro i hi
            rw [hindices] at hi
            obtain ⟨j, -, rfl⟩ := List.mem_map.mp hi
            exact ⟨j, rfl⟩
          obtain ⟨i, rfl⟩ := hsome first (by simp)
          obtain ⟨j, rfl⟩ := hsome index (by simp)
          refine ⟨.list ((some i :: rest).flatMap (fun j => itemsOf (value (name, j))) ++
            itemsOf (value (name, some j))), ?_, ?_⟩
          · rw [hrows rfl]
            rfl
          · rw [List.cons_append, joined, ← List.cons_append, List.flatMap_append,
              List.flatMap_singleton]

/-- The same when each list item has one row. -/
theorem removeIndicesFromItems_listed {steps : List Step} {part value : Step → PyValue}
    (hnames : ∀ s ∈ steps, IsFieldName s.1) (hlisted : Listed steps)
    (hpart : ∀ s ∈ steps, removeIndicesFromValue (part s) = .ok (wrapped s (value s))) :
    ∃ d, removeIndicesFromItems [] (steps.map fun s => (stepText s, part s)) = .ok d ∧
      (Dict.keys d).Nodup ∧
        ∀ name, Dict.get? d name = listed value name (valuesOf steps name) := by
  obtain ⟨d, hd, hnodup, hget⟩ := removeIndicesFromItems_joined hnames hlisted hpart fun s _ hs => by
    rw [wrapped_of_isSome hs]
    rfl
  refine ⟨d, hd, hnodup, fun name => ?_⟩
  rw [hget]
  rcases hlisted name with hnone | ⟨indices, hindices⟩
  · rw [hnone]
    rfl
  · rw [hindices]
    cases indices with
    | nil => rfl
    | cons i indices =>
        rw [List.map_cons, joined, listed, ← List.map_cons, List.flatMap_map, List.map_map]
        refine congrArg (fun rows => some (PyValue.list rows)) ?_
        exact List.flatMap_pure_eq_map (fun i => value (name, some i)) _

/-- Each value of the names is the value of a step, or the list of the values of list
items. -/
theorem listed_eq_some {steps : List Step} (hlisted : Listed steps) {value : Step → PyValue}
    {name : String} {x : PyValue} (h : listed value name (valuesOf steps name) = some x) :
    (∃ s ∈ steps, x = value s) ∨
      ∃ rows, x = .list rows ∧ rows ≠ [] ∧
        ∀ row ∈ rows, ∃ s ∈ steps, s.2.isSome = true ∧ row = value s := by
  have hmem : ∀ i ∈ valuesOf steps name, (name, i) ∈ steps := fun i hi => mem_valuesOf.mp hi
  have hname := hlisted name
  generalize valuesOf steps name = indices at h hmem hname
  match indices with
  | [] => simp [listed] at h
  | none :: rest => exact Or.inl ⟨_, hmem none List.mem_cons_self, (Option.some.inj h).symm⟩
  | some i :: rest =>
      obtain ⟨indices, hindices⟩ := hname.resolve_left (by simp)
      refine Or.inr ⟨_, (Option.some.inj h).symm, by simp, fun row hrow => ?_⟩
      obtain ⟨j, hj, rfl⟩ := List.mem_map.mp hrow
      refine ⟨_, hmem j hj, ?_, rfl⟩
      rw [hindices] at hj
      obtain ⟨j', -, rfl⟩ := List.mem_map.mp hj
      rfl

/-! ### The answers of the nested dict -/

/-- A value has the answers of cells, and nothing in it is empty. -/
structure Answers (cells : List Cell) (value : PyValue) : Prop where
  compact : isCompact value = true
  notList : value.isList = false
  nestedAt_eq : ∀ position, nestedAt value position = readAt id cells position

/-- A scalar has one answer. -/
theorem answers_scalar {value : PyValue} (h : isScalar value = true) :
    Answers [([], value)] value := by
  refine ⟨?_, ?_, fun position => ?_⟩
  · cases value with
    | list items => simp [isScalar, PyValue.isList] at h
    | dict items => simp [isScalar, PyValue.isDict] at h
    | _ => rfl
  · simp only [isScalar, Bool.and_eq_true, Bool.not_eq_true'] at h
    exact h.1
  · have hbelow : ∀ s, below s [(([] : List Step), value)] = [] := fun _ => rfl
    cases position with
    | nil => rw [nestedAt, if_pos h, readAt, Dict.get?, if_pos rfl]
    | cons s rest =>
        -- below a scalar there is nothing
        have hread : readAt id [([], value)] (s :: rest) = none := by
          obtain ⟨name, index⟩ := s
          cases index with
          | none =>
              rw [readAt, hbelow]
              exact readAt_nil id (fun _ => List.Perm.refl _) rest
          | some i => rfl
        rw [hread]
        obtain ⟨name, index⟩ := s
        cases value with
        | dict items => simp [isScalar, PyValue.isDict] at h
        | _ =>
            cases index with
            | none => rfl
            | some i => rfl

/-- There is no answer directly at a list. -/
theorem nestedAt_list (rows : List PyValue) (position : List Step) :
    nestedAt (.list rows) position = none := by
  match position with
  | [] => rfl
  | (_, none) :: _ => rfl
  | (_, some _) :: _ => rfl

/-- There is no answer below a list item in a value that is no list. -/
theorem nestedAt_dict_item {d : List (String × PyValue)} {name : String} {i : Nat}
    {rest : List Step} (h : ∀ value, Dict.get? d name = some value → value.isList = false) :
    nestedAt (.dict d) ((name, some i) :: rest) = none := by
  rw [nestedAt]
  split
  · rename_i rows hget
    exact absurd (h _ hget) (by simp [PyValue.isList])
  · rfl

/-- A dict of branches has the answers of the cells if each branch has those of its cells. -/
theorem nestedAt_branches {cells : List Cell} {d : List (String × PyValue)}
    {value : Step → PyValue} (hne : ∀ c ∈ cells, c.1 ≠ [])
    (hlisted : Listed (firstSteps cells))
    (hget : ∀ name, Dict.get? d name = listed value name (valuesOf (firstSteps cells) name))
    (hvalue : ∀ s ∈ firstSteps cells, Answers (below s cells) (value s)) (position : List Step) :
    nestedAt (.dict d) position = readAt id cells position := by
  match position with
  | [] =>
      have hnone : Dict.get? cells [] = none := by
        rw [Dict.get?_eq_none]
        intro hmem
        obtain ⟨c, hc, hpath⟩ := List.mem_map.mp hmem
        exact hne c hc hpath
      exact hnone.symm
  | (name, index) :: rest =>
      rcases hlisted name with hnone | ⟨indices, hindices⟩
      · have hmem : (name, none) ∈ firstSteps cells := mem_valuesOf.mp (by simp [hnone])
        have hname := hvalue _ hmem
        have hgetName : Dict.get? d name = some (value (name, none)) := by
          rw [hget, hnone]
          rfl
        cases index with
        | none =>
            rw [nestedAt, readAt, ← hname.nestedAt_eq]
            simp only [hgetName]
        | some k =>
            rw [readAt_item_of_none id (fun _ => List.Perm.refl _) k rest hnone,
              nestedAt_dict_item]
            intro x hx
            rw [hgetName] at hx
            exact Option.some.inj hx ▸ hname.notList
      · have hgetName : Dict.get? d name = if indices = [] then none else
            some (.list (indices.map fun i => value (name, some i))) := by
          rw [hget, hindices]
          cases indices with
          | nil => rfl
          | cons i indices => simp [listed]
        cases index with
        | none =>
            have hnotMem : (name, none) ∉ firstSteps cells := by
              intro hmem
              have hmem := mem_valuesOf.mpr hmem
              rw [hindices] at hmem
              simp at hmem
            rw [readAt_plain_of_notMem id (fun _ => List.Perm.refl _) rest hnotMem,
              nestedAt]
            split
            · rename_i x hx
              rw [hgetName] at hx
              split at hx
              · simp at hx
              · rw [← Option.some.inj hx, nestedAt_list]
            · rfl
        | some k =>
            rw [readAt, indicesOf_of_some hindices, id, nestedAt]
            cases hk : indices[k]? with
            | some i =>
                have hmem : (name, some i) ∈ firstSteps cells := by
                  refine mem_valuesOf.mp ?_
                  rw [hindices]
                  exact List.mem_map_of_mem (List.mem_of_getElem? hk)
                have hne : indices ≠ [] := List.ne_nil_of_mem (List.mem_of_getElem? hk)
                rw [if_neg hne] at hgetName
                simp only [hgetName, List.getElem?_map, hk, Option.map_some]
                exact (hvalue _ hmem).nestedAt_eq rest
            | none =>
                split
                · rename_i rows hrows
                  rw [hgetName] at hrows
                  split at hrows
                  · simp at hrows
                  · obtain rfl := PyValue.list.inj (Option.some.inj hrows)
                    simp [hk]
                · rfl

/-- A dict is compact if the values of its branches are, and list items are dicts. -/
theorem isCompactDict_branches {steps : List Step} (hlisted : Listed steps)
    {d : List (String × PyValue)} {value : Step → PyValue} (hnodup : (Dict.keys d).Nodup)
    (hget : ∀ name, Dict.get? d name = listed value name (valuesOf steps name))
    (hvalue : ∀ s ∈ steps, isCompact (value s) = true)
    (hitem : ∀ s ∈ steps, s.2.isSome = true → (value s).isDict = true) :
    isCompactDict d = true := by
  rw [isCompactDict, Bool.and_eq_true, decide_eq_true_eq]
  refine ⟨hnodup, areCompactValues_iff.mpr fun item hmem => ?_⟩
  have hvalues := Dict.get?_of_mem hnodup hmem
  rw [hget] at hvalues
  rcases listed_eq_some hlisted hvalues with ⟨s, hs, heq⟩ | ⟨rows, heq, hne, hrows⟩
  · rw [heq]
    exact hvalue s hs
  · rw [heq, isCompact, Bool.and_eq_true, Bool.not_eq_true', List.isEmpty_eq_false_iff]
    refine ⟨hne, areCompactRows_iff.mpr fun row hrow => ?_⟩
    obtain ⟨s, hs, hsome, rfl⟩ := hrows row hrow
    exact ⟨hitem s hs hsome, hvalue s hs⟩

/-- A dict with a value for each name of some steps is not empty. -/
theorem ne_nil_of_listed {steps : List Step} (hsteps : steps ≠ []) {value : Step → PyValue}
    (hget : ∀ name, Dict.get? ([] : List (String × PyValue)) name =
      listed value name (valuesOf steps name)) : False := by
  obtain ⟨s, hs⟩ := List.exists_mem_of_ne_nil _ hsteps
  have hnone := hget s.1
  have hmem := mem_valuesOf.mpr hs
  cases hvalues : valuesOf steps s.1 with
  | nil => simp [hvalues] at hmem
  | cons index rest =>
      rw [hvalues] at hnone
      cases index with
      | none => cases hnone
      | some i => cases hnone

/-- The tree of a row without its indices has the answers of the row. -/
theorem removeIndicesFromItems_mergedItems {n : Nat} {cells : List Cell} (h : Columns n cells) :
    ∃ d, removeIndicesFromItems [] (mergedItems n cells) = .ok d ∧ isCompactDict d = true ∧
      (cells ≠ [] → d ≠ []) ∧ ∀ position, nestedAt (.dict d) position = readAt id cells position := by
  induction n using Nat.strongRecOn generalizing cells with
  | ind n ih =>
      have hbranches : ∀ s ∈ firstSteps cells, ∃ x,
          removeIndicesFromValue (wrapped s (mergedTree n (below s cells))) = .ok (wrapped s x) ∧
            Answers (below s cells) x ∧ (s.2.isSome = true → x.isDict = true) := by
        intro s hs
        rcases h.below_cases hs with ⟨hplain, value, hscalar, hbelow⟩ | ⟨m, rfl, hbelow⟩
        · have hsome : ¬ s.2.isSome = true := by simp [hplain]
          rw [hbelow, mergedTree, wrapped_of_not_isSome hsome]
          refine ⟨value, ?_, answers_scalar hscalar, fun h => absurd h hsome⟩
          rw [wrapped_of_not_isSome hsome]
          exact removeIndicesFromValue_scalar hscalar
        · obtain ⟨d, hd, hcompact, hne, hanswers⟩ := ih m (Nat.lt_succ_self m) hbelow
          have hne := hne (mem_firstSteps.mp hs)
          rw [isCompactDict, Bool.and_eq_true] at hcompact
          refine ⟨.dict d, ?_, ⟨?_, rfl, hanswers⟩, fun _ => rfl⟩
          · rw [mergedTree_succ m hbelow.ne_nil]
            by_cases hsome : s.2.isSome = true
            · simp only [wrapped_of_isSome hsome, removeIndicesFromValue, removeIndicesFromRows,
                hd]
              rfl
            · simp only [wrapped_of_not_isSome hsome, removeIndicesFromValue, hd]
              rfl
          · rw [isCompact, hcompact.1, hcompact.2]
            simpa using hne
      have : Nonempty PyValue := ⟨.none⟩
      choose! value hvalue using hbranches
      have hlisted : Listed (firstSteps cells) := listed_firstSteps h.apart
      obtain ⟨d, hd, hnodup, hget⟩ := removeIndicesFromItems_listed
        (fun s hs => h.isFieldName hs) hlisted fun s hs => (hvalue s hs).1
      refine ⟨d, hd, ?_, ?_, ?_⟩
      · exact isCompactDict_branches hlisted hnodup hget (fun s hs => (hvalue s hs).2.1.compact)
          fun s hs => (hvalue s hs).2.2
      · rintro hcells rfl
        obtain ⟨c, hc⟩ := List.exists_mem_of_ne_nil _ hcells
        obtain ⟨s, rest, hpath⟩ := List.exists_cons_of_ne_nil (h.ne_nil c hc)
        have hs : s ∈ firstSteps cells := by
          refine mem_firstSteps.mpr (List.ne_nil_of_mem (a := (rest, c.2)) (mem_below.mpr ?_))
          rw [← hpath]
          exact hc
        exact ne_nil_of_listed (List.ne_nil_of_mem hs) hget
      · exact nestedAt_branches h.ne_nil hlisted hget fun s hs => (hvalue s hs).2.1

/-! ### The decoder -/

/-- The dict of a column, from its name. -/
theorem columnToDict_columnName {position : List Step} (hnames : HasFieldNames position)
    (hne : position ≠ []) (hplain : ∀ s ∈ position.getLast?, s.2 = none) (value : PyValue) :
    columnToDict (columnName position) value = columnTree position value := by
  rw [columnToDict, splitPath_columnName hnames hne]
  match position, hne, hplain with
  | [s], _, hplain =>
      have hs : ¬ s.2.isSome = true := by simp [hplain s rfl]
      rw [columnTree_cons (hnames s List.mem_cons_self), wrapped_of_not_isSome hs]
      rfl
  | s :: t :: position, _, _ => rfl

/-- The decoder has the answers of a row, whatever questions it is told to be select
multiples. -/
theorem csvDictToNestedDict_apart {n : Nat} {cells : List Cell} (h : Columns n cells)
    (selectMultiples : List String) :
    ∃ d, csvDictToNestedDict (cells.map fun c => (columnName c.1, c.2)) selectMultiples =
        .ok (.dict d) ∧ isCompactDict d = true ∧
      ∀ position, nestedAt (.dict d) position = readAt id cells position := by
  have hresults : (cells.map fun c => (columnName c.1, c.2)).map
      (fun item => columnToDict item.1 item.2) = cells.map fun c => columnTree c.1 c.2 := by
    rw [List.map_map]
    exact List.map_congr_left fun c hc =>
      columnToDict_columnName (h.names c hc) (h.ne_nil c hc) (h.plain c hc) c.2
  -- The fuel of the merge is enough for the longest position.
  have hfuel : Columns (PyValue.depthOfItems (cells.map fun c => columnTree c.1 c.2)) cells :=
    { h with
      length_le := fun c hc => by
        have hdepth := length_le_depth_columnTree (h.names c hc) c.2
        have hitem := PyValue.depth_le_of_mem
          (List.mem_map_of_mem (f := fun c : Cell => columnTree c.1 c.2) hc)
        omega }
  obtain ⟨d, hd, hcompact, -, hanswers⟩ := removeIndicesFromItems_mergedItems hfuel
  refine ⟨d, ?_, hcompact, hanswers⟩
  rw [csvDictToNestedDict, hresults, mergeListOfDicts, PyValue.depth, mergeWithin,
    foldlM_mergeRow_columns selectMultiples (Nat.le_refl _) hfuel]
  show removeIndicesFromDict (.dict _) = _
  rw [removeIndicesFromDict, hd]
  rfl

/-- The decoder finds each cell of a row at its position, whatever questions it is told to be
select multiples. -/
theorem csvDictToNestedDict_columns {n : Nat} {cells : List Cell} (h : Columns n cells)
    (hcells : Consecutive [] cells) (selectMultiples : List String) :
    ∃ d, csvDictToNestedDict (cells.map fun c => (columnName c.1, c.2)) selectMultiples =
        .ok (.dict d) ∧ isCompactDict d = true ∧
      ∀ position, nestedAt (.dict d) position = Dict.get? cells position := by
  obtain ⟨d, hd, hcompact, hanswers⟩ := csvDictToNestedDict_apart h selectMultiples
  refine ⟨d, hd, hcompact, fun position => ?_⟩
  rw [hanswers, readAt_of_consecutive h.apart hcells]

end Onadata.Proofs
