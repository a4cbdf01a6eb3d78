import Onadata.Proofs.Libs.Utils.MergedColumns

/-!
# `Onadata.Proofs.Libs.Utils.ConflictingColumns`: columns that do not fit together

`merge_list_of_dicts` on the dicts of any columns, also of a select multiple that is there as one
column and as split ones. A text that comes after the dict of its split columns makes the result a
list of two rows.

`addColumn` adds one column to a merged value, or says that the merge raises. `SettledDict` is what
merging keeps: a merged dict is merged to itself, so `merge_list_of_dicts` can merge it again with
each new column.

* `mergeRow_settled`: a settled dict alone is merged to itself.
* `mergeRow_columnTree`: merging the dict of a column is `addColumn`.
* `mergeListOfDicts_eq`: merging the columns of a row is adding one after the other.
-/

set_option autoImplicit false

namespace Onadata.Proofs

open Onadata.Lib

section
variable (selectMultiples : List String)

/-- A merged value with one more column, or `none` if the merge raises. -/
def addColumn : List Step → PyValue → PyValue → Option PyValue
  | s :: rest, value, .dict d =>
      match Dict.get? d (stepText s) with
      | none =>
          some (.dict (Dict.insert d (stepText s) (wrapped s (columnTree rest value))))
      | some old =>
          if s.2.isSome then
            match old with
            | .list [row] =>
                (addColumn rest value row).map fun merged =>
                  .dict (Dict.insert d (stepText s) (relisted merged))
            | _ => none
          else if rest = [] then some (.list [.dict d, .dict [(stepText s, value)]])
          else
            match old with
            | .dict _ =>
                (addColumn rest value old).map fun merged =>
                  .dict (Dict.insert d (stepText s) merged)
            | .str _ =>
                if stepText s ∈ selectMultiples then
                  some (.dict (Dict.insert d (stepText s) (columnTree rest value)))
                else none
            | _ => none
  | _, _, _ => none

/-- The value that the columns of a row are merged to, one after the other. -/
def addColumns (cells : List Cell) (result : PyValue) : Option PyValue :=
  cells.foldlM (fun result c => addColumn selectMultiples c.1 c.2 result) result

end

section
variable {selectMultiples : List String} {d : List (String × PyValue)} {s : Step}
  {rest : List Step} {value : PyValue}

/-- The first step of a column, in a dict. -/
theorem addColumn_cons : addColumn selectMultiples (s :: rest) value (.dict d) =
    match Dict.get? d (stepText s) with
    | none => some (.dict (Dict.insert d (stepText s) (wrapped s (columnTree rest value))))
    | some old =>
        if s.2.isSome then
          match old with
          | .list [row] =>
              (addColumn selectMultiples rest value row).map fun merged =>
                .dict (Dict.insert d (stepText s) (relisted merged))
          | _ => none
        else if rest = [] then some (.list [.dict d, .dict [(stepText s, value)]])
        else
          match old with
          | .dict _ =>
              (addColumn selectMultiples rest value old).map fun merged =>
                .dict (Dict.insert d (stepText s) merged)
          | .str _ =>
              if stepText s ∈ selectMultiples then
                some (.dict (Dict.insert d (stepText s) (columnTree rest value)))
              else none
          | _ => none := rfl

theorem addColumn_new (hget : Dict.get? d (stepText s) = none) :
    addColumn selectMultiples (s :: rest) value (.dict d) =
      some (.dict (Dict.insert d (stepText s) (wrapped s (columnTree rest value)))) := by
  simp only [addColumn_cons, hget]

theorem addColumn_row {row : PyValue} (hget : Dict.get? d (stepText s) = some (.list [row]))
    (hs : s.2.isSome = true) :
    addColumn selectMultiples (s :: rest) value (.dict d) =
      (addColumn selectMultiples rest value row).map fun merged =>
        .dict (Dict.insert d (stepText s) (relisted merged)) := by
  simp only [addColumn_cons, hget, if_pos hs]

/-- A list item is added to a list with one row only. -/
theorem addColumn_noRow {old : PyValue} (hget : Dict.get? d (stepText s) = some old)
    (hs : s.2.isSome = true) (hold : ∀ row, old ≠ .list [row]) :
    addColumn selectMultiples (s :: rest) value (.dict d) = none := by
  simp only [addColumn_cons, hget, if_pos hs]

theorem addColumn_scalar {old : PyValue} (hget : Dict.get? d (stepText s) = some old)
    (hs : ¬ s.2.isSome = true) :
    addColumn selectMultiples [s] value (.dict d) =
      some (.list [.dict d, .dict [(stepText s, value)]]) := by
  simp only [addColumn_cons, hget, if_neg hs, if_pos]

theorem addColumn_dict {old : List (String × PyValue)}
    (hget : Dict.get? d (stepText s) = some (.dict old)) (hs : ¬ s.2.isSome = true)
    (hrest : rest ≠ []) :
    addColumn selectMultiples (s :: rest) value (.dict d) =
      (addColumn selectMultiples rest value (.dict old)).map fun merged =>
        .dict (Dict.insert d (stepText s) merged) := by
  simp only [addColumn_cons, hget, if_neg hs, if_neg hrest]

/-- A text gives way to the dict of a split column if it is that of a select multiple. -/
theorem addColumn_text {text : String} (hget : Dict.get? d (stepText s) = some (.str text))
    (hs : ¬ s.2.isSome = true) (hrest : rest ≠ []) :
    addColumn selectMultiples (s :: rest) value (.dict d) =
      if stepText s ∈ selectMultiples then
        some (.dict (Dict.insert d (stepText s) (columnTree rest value)))
      else none := by
  simp only [addColumn_cons, hget, if_neg hs, if_neg hrest]

theorem addColumn_other {old : PyValue} (hget : Dict.get? d (stepText s) = some old)
    (hs : ¬ s.2.isSome = true) (hrest : rest ≠ []) (hdict : old.isDict = false)
    (hstr : old.isStr = false) :
    addColumn selectMultiples (s :: rest) value (.dict d) = none := by
  simp only [addColumn_cons, hget, if_neg hs, if_neg hrest]
  cases old with
  | dict items => cases hdict
  | str text => cases hstr
  | _ => rfl

/-- Nothing is added to what is no dict. -/
theorem addColumn_notDict {position : List Step} {old : PyValue} (h : old.isDict = false) :
    addColumn selectMultiples position value old = none := by
  cases position with
  | nil => rfl
  | cons s rest =>
      cases old with
      | dict items => cases h
      | _ => rfl

end

/-! ### Values that are merged to themselves -/

/-- A value in a merged dict, when `settled` holds of the dicts in it: a scalar, a dict, a list with
one row, or a list of a row and a scalar that it has a value for. -/
inductive SettledValue (settled : List (String × PyValue) → Prop) : PyValue → Prop
  | scalar {value : PyValue} : isScalar value = true → SettledValue settled value
  | dict {d : List (String × PyValue)} : settled d → SettledValue settled (.dict d)
  | row {d : List (String × PyValue)} : settled d → SettledValue settled (.list [.dict d])
  | conflict {d : List (String × PyValue)} {key : String} {old value : PyValue} : settled d →
      Dict.get? d key = some old → isScalar value = true →
        SettledValue settled (.list [.dict d, .dict [(key, value)]])

/-- A merged dict with up to `n` levels of dicts. -/
def SettledDict : Nat → List (String × PyValue) → Prop
  | 0, _ => False
  | n + 1, d => (Dict.keys d).Nodup ∧ ∀ item ∈ d, SettledValue (SettledDict n) item.2

theorem isScalar_iff {value : PyValue} :
    isScalar value = true ↔ value.isList = false ∧ value.isDict = false := by
  simp [isScalar]

/-- A row with one item. -/
theorem mergeRow_singleton (overrideKeys : List String)
    (merge : List PyValue → Except PyError PyValue) (result : PyValue) (item : String × PyValue) :
    mergeRow overrideKeys merge result (.dict [item]) =
      mergeItem overrideKeys merge (.dict [item]) result item := by
  simp only [mergeRow, List.foldlM_cons, List.foldlM_nil, bind_pure]

/-- A scalar for a key with a value makes a list of rows. -/
theorem mergeRow_conflict (overrideKeys : List String)
    (merge : List PyValue → Except PyError PyValue) {d : List (String × PyValue)} {key : String}
    {old value : PyValue} (hget : Dict.get? d key = some old) (hscalar : isScalar value = true) :
    mergeRow overrideKeys merge (.dict d) (.dict [(key, value)]) =
      .ok (.list [.dict d, .dict [(key, value)]]) := by
  have ⟨hlist, hdict⟩ := isScalar_iff.mp hscalar
  rw [mergeRow_singleton]
  cases value with
  | list items => cases hlist
  | dict items => cases hdict
  | _ =>
      simp only [mergeItem, hget]
      rfl

/-- A list of rows takes no more columns. -/
theorem mergeRow_list (overrideKeys : List String)
    (merge : List PyValue → Except PyError PyValue) (rows : List PyValue) (item : String × PyValue) :
    (mergeRow overrideKeys merge (.list rows) (.dict [item])).toOption = none := by
  have ⟨key, value⟩ := item
  rw [mergeRow_singleton]
  cases value with
  | list items =>
      rw [mergeItem]
      cases hmerge : merge items with
      | error e => simp [rowsToMerge, hmerge, bind, Except.bind, Except.toOption]
      | ok merged => simp [rowsToMerge, hmerge, setItem, bind, Except.bind, Except.toOption]
  | _ => rfl

/-- A settled dict alone is merged to itself. -/
theorem mergeRow_settled (overrideKeys : List String) {n fuel : Nat} (hfuel : n ≤ fuel + 1)
    {d : List (String × PyValue)} (h : SettledDict n d) :
    mergeRow overrideKeys (mergeWithin overrideKeys fuel) (.dict []) (.dict d) = .ok (.dict d) := by
  induction n generalizing fuel d with
  | zero => exact h.elim
  | succ n ih =>
      refine foldlM_mergeItem_new _ _ _ h.1 fun item hitem => ?_
      have hvalue := h.2 item hitem
      generalize item.2 = value at hvalue
      cases hvalue with
      | scalar hscalar => exact Or.inl (isScalar_iff.mp hscalar).1
      | dict hd => exact Or.inl rfl
      | row hd =>
          obtain ⟨fuel, rfl⟩ : ∃ k, fuel = k + 1 := ⟨fuel - 1, by
            cases n with
            | zero => exact hd.elim
            | succ n => omega⟩
          refine Or.inr ⟨_, _, rfl, mergeWithin_cons _ [] (ih (by omega) hd), rfl⟩
      | @conflict d key old value hd hget hscalar =>
          obtain ⟨fuel, rfl⟩ : ∃ k, fuel = k + 1 := ⟨fuel - 1, by
            cases n with
            | zero => exact hd.elim
            | succ n => omega⟩
          refine Or.inr ⟨_, .list [.dict d, .dict [(key, value)]], rfl, ?_, rfl⟩
          rw [mergeWithin_cons _ _ (ih (by omega) hd), List.foldlM_cons,
            mergeRow_conflict _ _ hget hscalar]
          rfl

/-! ### Adding a column -/

/-- A column that can be added to a value: with field names, a plain last name and a scalar. -/
structure ScalarColumn (position : List Step) (value : PyValue) : Prop where
  names : HasFieldNames position
  plain : ∀ s ∈ position.getLast?, s.2 = none
  scalar : isScalar value = true

theorem ScalarColumn.tail {s : Step} {rest : List Step} {value : PyValue}
    (h : ScalarColumn (s :: rest) value) (hne : rest ≠ []) : ScalarColumn rest value where
  names t ht := h.names t (List.mem_cons_of_mem s ht)
  plain t ht := h.plain t (by rw [List.getLast?_cons_of_ne_nil hne]; exact ht)
  scalar := h.scalar

/-- A list item has a name below it. -/
theorem ScalarColumn.ne_nil {s : Step} {rest : List Step} {value : PyValue}
    (h : ScalarColumn (s :: rest) value) (hs : s.2.isSome = true) : rest ≠ [] := by
  rintro rfl
  rw [h.plain s rfl] at hs
  cases hs

/-- The dict of a column is settled. -/
theorem settled_columnTree {s : Step} {rest : List Step} {value : PyValue} {n : Nat}
    (h : ScalarColumn (s :: rest) value) (hlength : (s :: rest).length ≤ n) :
    SettledDict n [(stepText s, wrapped s (columnTree rest value))] := by
  induction rest generalizing s n with
  | nil =>
      obtain ⟨n, rfl⟩ : ∃ m, n = m + 1 := ⟨n - 1, by rw [List.length_cons] at hlength; omega⟩
      refine ⟨List.nodup_singleton _, fun item hitem => ?_⟩
      cases List.mem_singleton.mp hitem
      rw [wrapped_of_not_isSome (by rw [h.plain s rfl]; decide)]
      exact .scalar h.scalar
  | cons t rest ih =>
      rw [List.length_cons] at hlength
      obtain ⟨n, rfl⟩ : ∃ m, n = m + 1 := ⟨n - 1, by omega⟩
      have hrest := ih (h.tail (by simp)) (Nat.le_of_succ_le_succ hlength)
      refine ⟨List.nodup_singleton _, fun item hitem => ?_⟩
      cases List.mem_singleton.mp hitem
      rw [columnTree_cons (h.names t (by simp))]
      by_cases hs : s.2.isSome = true
      · rw [wrapped_of_isSome hs]
        exact .row hrest
      · rw [wrapped_of_not_isSome hs]
        exact .dict hrest

section
variable {overrideKeys : List String} {merge : List PyValue → Except PyError PyValue}
  {row : PyValue} {d : List (String × PyValue)} {key : String}

theorem toOption_mergeItem_list {items rows : List PyValue}
    (hrows : rowsToMerge (.dict d) key items = .ok rows) :
    (mergeItem overrideKeys merge row (.dict d) (key, .list items)).toOption =
      (merge rows).toOption.map fun merged => .dict (Dict.insert d key (relisted merged)) := by
  simp only [mergeItem, hrows, bind, Except.bind]
  cases merge rows with
  | error e => rfl
  | ok merged => rfl

/-- A list cannot be merged into what is no list. -/
theorem toOption_mergeItem_notList {items : List PyValue} {old : PyValue}
    (hget : Dict.get? d key = some old) (hold : old.isList = false) :
    (mergeItem overrideKeys merge row (.dict d) (key, .list items)).toOption = none := by
  simp only [mergeItem, rowsToMerge, hget, bind, Except.bind]
  cases old with
  | list rows => cases hold
  | _ => rfl

theorem toOption_mergeItem_dict {items : List (String × PyValue)} {old : PyValue}
    (hget : Dict.get? d key = some old) :
    (mergeItem overrideKeys merge row (.dict d) (key, .dict items)).toOption =
      (mergeValues overrideKeys merge key old (.dict items)).toOption.map fun merged =>
        .dict (Dict.insert d key merged) := by
  simp only [mergeItem, hget, PyValue.isDict, if_pos, bind, Except.bind]
  cases mergeValues overrideKeys merge key old (.dict items) with
  | error e => rfl
  | ok merged => rfl

/-- Only a text gives way to a dict. -/
theorem toOption_mergeValues {old value : PyValue} (h : old.isStr = false) :
    (mergeValues overrideKeys merge key old value).toOption = (merge [old, value]).toOption := by
  rw [mergeValues]
  cases hmerge : merge [old, value] with
  | ok merged => rfl
  | error e =>
      cases e with
      | attributeError =>
          rw [if_neg (by simp [h])]
      | _ => rfl

end

/-- What is no dict cannot be merged. -/
theorem mergeWithin_notDict (overrideKeys : List String) {value : PyValue}
    (h : value.isDict = false) (fuel : Nat) (rows : List PyValue) :
    mergeWithin overrideKeys (fuel + 1) (value :: rows) = .error .attributeError := by
  rw [mergeWithin, List.foldlM_cons]
  cases value with
  | dict items => cases h
  | _ => rfl

/-- An empty dict before the rows does not matter. -/
theorem mergeWithin_empty (overrideKeys : List String) (fuel : Nat) (rows : List PyValue) :
    mergeWithin overrideKeys (fuel + 1) (.dict [] :: rows) =
      mergeWithin overrideKeys (fuel + 1) rows := by
  have hrow : mergeRow overrideKeys (mergeWithin overrideKeys fuel) (.dict []) (.dict []) =
      .ok (.dict []) := rfl
  rw [mergeWithin_cons _ _ hrow, mergeWithin]

/-- A column is not merged into a list of two rows. -/
theorem mergeWithin_conflict (overrideKeys : List String) {n fuel : Nat} (hfuel : n ≤ fuel + 1)
    {d : List (String × PyValue)} (hd : SettledDict n d) {key : String} {old value : PyValue}
    (hget : Dict.get? d key = some old) (hscalar : isScalar value = true)
    (item : String × PyValue) :
    (mergeWithin overrideKeys (fuel + 1)
      [.dict d, .dict [(key, value)], .dict [item]]).toOption = none := by
  have hlist := mergeRow_list overrideKeys (mergeWithin overrideKeys fuel)
    [.dict d, .dict [(key, value)]] item
  rw [mergeWithin_cons _ _ (mergeRow_settled overrideKeys hfuel hd), List.foldlM_cons,
    mergeRow_conflict _ _ hget hscalar]
  simp only [bind, Except.bind, List.foldlM_cons, List.foldlM_nil]
  cases hrow : mergeRow overrideKeys (mergeWithin overrideKeys fuel)
      (.list [.dict d, .dict [(key, value)]]) (.dict [item]) with
  | error e => rfl
  | ok merged =>
      rw [hrow] at hlist
      cases hlist

/-- Merging the dict of a column is adding the column. -/
theorem mergeRow_columnTree (overrideKeys : List String) {n fuel : Nat} (hfuel : n ≤ fuel + 1)
    {d : List (String × PyValue)} (hd : SettledDict n d) {s : Step} {rest : List Step}
    {value : PyValue} (hcolumn : ScalarColumn (s :: rest) value) (hlength : (s :: rest).length ≤ n) :
    (mergeRow overrideKeys (mergeWithin overrideKeys fuel) (.dict d)
      (columnTree (s :: rest) value)).toOption =
        addColumn overrideKeys (s :: rest) value (.dict d) := by
  induction rest generalizing s d n fuel with
  | nil =>
      have hs : ¬ s.2.isSome = true := by
        rw [hcolumn.plain s rfl]
        decide
      rw [columnTree_cons (hcolumn.names s (by simp)), wrapped_of_not_isSome hs]
      show (mergeRow _ _ _ (.dict [(stepText s, value)])).toOption = _
      cases hget : Dict.get? d (stepText s) with
      | none =>
          rw [mergeRow_singleton, mergeItem_new _ _ _ (isScalar_iff.mp hcolumn.scalar).1 hget,
            addColumn_new hget, wrapped_of_not_isSome hs]
          rfl
      | some old =>
          rw [mergeRow_conflict _ _ hget hcolumn.scalar, addColumn_scalar hget hs]
          rfl
  | cons t rest ih =>
      cases n with
      | zero => exact hd.elim
      | succ n =>
      rw [List.length_cons] at hlength
      have hlength := Nat.le_of_succ_le_succ hlength
      obtain ⟨fuel, rfl⟩ : ∃ k, fuel = k + 1 := ⟨fuel - 1, by
        rw [List.length_cons] at hlength
        omega⟩
      have hrest : ScalarColumn (t :: rest) value := hcolumn.tail (by simp)
      have htree := settled_columnTree hrest hlength
      have hname : columnTree (t :: rest) value = _ := columnTree_cons (hrest.names t (by simp)) ..
      -- a settled dict with the rest of the column
      have hmerge : ∀ {d' : List (String × PyValue)}, SettledDict n d' →
          (mergeWithin overrideKeys (fuel + 1) [.dict d', columnTree (t :: rest) value]).toOption =
            addColumn overrideKeys (t :: rest) value (.dict d') := by
        intro d' hd'
        rw [mergeWithin_cons _ _ (mergeRow_settled overrideKeys (by omega) hd')]
        simp only [List.foldlM_cons, List.foldlM_nil, bind_pure]
        exact ih (by omega) hd' hrest hlength
      have halone : mergeWithin overrideKeys (fuel + 1) [columnTree (t :: rest) value] =
          .ok (columnTree (t :: rest) value) := by
        rw [hname, mergeWithin_cons _ [] (mergeRow_settled overrideKeys (by omega) htree)]
        rfl
      rw [columnTree_cons (hcolumn.names s (by simp)), mergeRow_singleton]
      cases hget : Dict.get? d (stepText s) with
      | none =>
          rw [addColumn_new hget]
          by_cases hs : s.2.isSome = true
          · rw [wrapped_of_isSome hs, toOption_mergeItem_list (by rw [rowsToMerge, hget]), halone]
            rfl
          · rw [wrapped_of_not_isSome hs, mergeItem_new _ _ _ (by rw [hname]; rfl) hget]
            rfl
      | some old =>
          have hold : SettledValue (SettledDict n) old := hd.2 _ (Dict.mem_of_get? hget)
          by_cases hs : s.2.isSome = true
          · rw [wrapped_of_isSome hs]
            cases hold with
            | scalar hscalar =>
                have hlist := (isScalar_iff.mp hscalar).1
                rw [toOption_mergeItem_notList hget hlist, addColumn_noRow hget hs]
                rintro row rfl
                cases hlist
            | dict hd' =>
                rw [toOption_mergeItem_notList hget rfl, addColumn_noRow hget hs (by simp)]
            | row hd' =>
                rw [addColumn_row hget hs, toOption_mergeItem_list (by rw [rowsToMerge, hget])]
                exact congrArg _ (hmerge hd')
            | conflict hd' hconflict hscalar =>
                rw [addColumn_noRow hget hs (by simp),
                  toOption_mergeItem_list (by rw [rowsToMerge, hget]), hname]
                exact congrArg (Option.map _)
                  (mergeWithin_conflict overrideKeys (by omega) hd' hconflict hscalar _)
          · rw [wrapped_of_not_isSome hs, hname, toOption_mergeItem_dict hget, ← hname]
            cases hold with
            | scalar hscalar =>
                have hdict := (isScalar_iff.mp hscalar).2
                cases old with
                | str text =>
                    rw [addColumn_text hget hs (by simp), mergeValues,
                      mergeWithin_notDict overrideKeys hdict, mergeWithin_empty, halone]
                    by_cases hkey : stepText s ∈ overrideKeys
                    · rw [if_pos hkey]
                      simp [PyValue.isStr, hkey, Except.toOption]
                    · rw [if_neg hkey]
                      simp [hkey, Except.toOption]
                | dict items => cases hdict
                | list rows => cases (isScalar_iff.mp hscalar).1
                | _ =>
                    rw [toOption_mergeValues rfl, mergeWithin_notDict _ hdict,
                      addColumn_other hget hs (by simp) rfl rfl]
                    rfl
            | dict hd' =>
                rw [toOption_mergeValues rfl, hmerge hd', addColumn_dict hget hs (by simp)]
            | row hd' =>
                rw [toOption_mergeValues rfl, mergeWithin_notDict _ rfl,
                  addColumn_other hget hs (by simp) rfl rfl]
                rfl
            | conflict hd' hconflict hscalar =>
                rw [toOption_mergeValues rfl, mergeWithin_notDict _ rfl,
                  addColumn_other hget hs (by simp) rfl rfl]
                rfl

/-! ### Adding the columns of a row -/

/-- What adding a column to a settled dict gives: a settled dict, or a list of two rows. -/
inductive Added (settled : List (String × PyValue) → Prop) : PyValue → Prop
  | dict {d : List (String × PyValue)} : settled d → Added settled (.dict d)
  | conflict {d : List (String × PyValue)} {key : String} {old value : PyValue} : settled d →
      Dict.get? d key = some old → isScalar value = true →
        Added settled (.list [.dict d, .dict [(key, value)]])

theorem Added.settledValue {settled : List (String × PyValue) → Prop} {value : PyValue}
    (h : Added settled value) : SettledValue settled value := by
  cases h with
  | dict hd => exact .dict hd
  | conflict hd hget hscalar => exact .conflict hd hget hscalar

theorem Added.relisted {settled : List (String × PyValue) → Prop} {value : PyValue}
    (h : Added settled value) : SettledValue settled (relisted value) := by
  cases h with
  | dict hd => exact .row hd
  | conflict hd hget hscalar => exact .conflict hd hget hscalar

/-- A new value in a settled dict. -/
theorem settled_insert {n : Nat} {d : List (String × PyValue)} (hd : SettledDict (n + 1) d)
    (key : String) {value : PyValue} (hvalue : SettledValue (SettledDict n) value) :
    SettledDict (n + 1) (Dict.insert d key value) := by
  refine ⟨Dict.nodup_keys_insert hd.1 _ _, fun item hitem => ?_⟩
  rcases (Dict.mem_insert_iff hd.1).mp hitem with rfl | ⟨hold, _⟩
  · exact hvalue
  · exact hd.2 item hold

/-- The value of a column part is settled. -/
theorem settledValue_wrapped {s : Step} {rest : List Step} {value : PyValue} {n : Nat}
    (h : ScalarColumn (s :: rest) value) (hlength : (s :: rest).length ≤ n + 1) :
    SettledValue (SettledDict n) (wrapped s (columnTree rest value)) :=
  (settled_columnTree h hlength).2 _ List.mem_cons_self

/-- Adding a column to a settled dict gives a settled dict, or a list of two rows. -/
theorem added_addColumn {selectMultiples : List String} {n : Nat} {d : List (String × PyValue)}
    (hd : SettledDict n d) {s : Step} {rest : List Step} {value merged : PyValue}
    (hcolumn : ScalarColumn (s :: rest) value) (hlength : (s :: rest).length ≤ n)
    (h : addColumn selectMultiples (s :: rest) value (.dict d) = some merged) :
    Added (SettledDict n) merged := by
  induction rest generalizing s d n merged with
  | nil =>
      cases n with
      | zero => exact hd.elim
      | succ n =>
      cases hget : Dict.get? d (stepText s) with
      | none =>
          rw [addColumn_new hget] at h
          cases h
          exact .dict (settled_insert hd _ (settledValue_wrapped hcolumn hlength))
      | some old =>
          rw [addColumn_scalar hget (by rw [hcolumn.plain s rfl]; decide)] at h
          cases h
          exact .conflict hd hget hcolumn.scalar
  | cons t rest ih =>
      cases n with
      | zero => exact hd.elim
      | succ n =>
      have hrest : ScalarColumn (t :: rest) value := hcolumn.tail (by simp)
      have hlength' : (t :: rest).length ≤ n := Nat.le_of_succ_le_succ hlength
      cases hget : Dict.get? d (stepText s) with
      | none =>
          rw [addColumn_new hget] at h
          cases h
          exact .dict (settled_insert hd _ (settledValue_wrapped hcolumn hlength))
      | some old =>
          have hold : SettledValue (SettledDict n) old := hd.2 _ (Dict.mem_of_get? hget)
          by_cases hs : s.2.isSome = true
          · cases hold with
            | row hd' =>
                rw [addColumn_row hget hs] at h
                have ⟨below, hbelow, hmerged⟩ := Option.map_eq_some_iff.mp h
                cases hmerged
                exact .dict (settled_insert hd _ (ih hd' hrest hlength' hbelow).relisted)
            | scalar hscalar =>
                rw [addColumn_noRow hget hs] at h
                · cases h
                · rintro row rfl
                  cases hscalar
            | dict hd' =>
                rw [addColumn_noRow hget hs (by simp)] at h
                cases h
            | conflict hd' hconflict hscalar =>
                rw [addColumn_noRow hget hs (by simp)] at h
                cases h
          · cases hold with
            | dict hd' =>
                rw [addColumn_dict hget hs (by simp)] at h
                have ⟨below, hbelow, hmerged⟩ := Option.map_eq_some_iff.mp h
                cases hmerged
                exact .dict (settled_insert hd _ (ih hd' hrest hlength' hbelow).settledValue)
            | scalar hscalar =>
                have htree : SettledValue (SettledDict n) (columnTree (t :: rest) value) := by
                  rw [columnTree_cons (hrest.names t (by simp))]
                  exact .dict (settled_columnTree hrest hlength')
                cases hstr : old.isStr with
                | false =>
                    rw [addColumn_other hget hs (by simp) (isScalar_iff.mp hscalar).2 hstr] at h
                    cases h
                | true =>
                    cases old with
                    | str text =>
                        rw [addColumn_text hget hs (by simp)] at h
                        split at h
                        · cases h
                          exact .dict (settled_insert hd _ htree)
                        · cases h
                    | _ => cases hstr
            | row hd' =>
                rw [addColumn_other hget hs (by simp) rfl rfl] at h
                cases h
            | conflict hd' hconflict hscalar =>
                rw [addColumn_other hget hs (by simp) rfl rfl] at h
                cases h

theorem addColumns_cons (selectMultiples : List String) (c : Cell) (cells : List Cell)
    (result : PyValue) :
    addColumns selectMultiples (c :: cells) result =
      (addColumn selectMultiples c.1 c.2 result).bind (addColumns selectMultiples cells) :=
  List.foldlM_cons ..

theorem toOption_bind_eq_none {α β : Type} {x : Except PyError α} {f : α → Except PyError β}
    (h : x.toOption = none) : (x >>= f).toOption = none := by
  cases x with
  | error e => rfl
  | ok a => cases h

/-- Merging the dicts of columns into a settled dict is adding the columns. -/
theorem foldlM_mergeRow_eq (overrideKeys : List String) {n fuel : Nat} (hfuel : n ≤ fuel + 1)
    {cells : List Cell} (hcells : ∀ c ∈ cells, c.1 ≠ [] ∧ ScalarColumn c.1 c.2 ∧ c.1.length ≤ n)
    {d : List (String × PyValue)} (hd : SettledDict n d) :
    ((cells.map fun c => columnTree c.1 c.2).foldlM
      (mergeRow overrideKeys (mergeWithin overrideKeys fuel)) (.dict d)).toOption =
        addColumns overrideKeys cells (.dict d) := by
  induction cells generalizing d with
  | nil => rfl
  | cons c cells ih =>
      rw [List.forall_mem_cons] at hcells
      obtain ⟨⟨hne, hcolumn, hlength⟩, hcells⟩ := hcells
      obtain ⟨position, value⟩ := c
      obtain ⟨s, rest, rfl⟩ := List.exists_cons_of_ne_nil hne
      have hrow := mergeRow_columnTree overrideKeys hfuel hd hcolumn hlength
      rw [addColumns_cons, List.map_cons, List.foldlM_cons]
      cases hresult : mergeRow overrideKeys (mergeWithin overrideKeys fuel) (.dict d)
          (columnTree (s :: rest) value) with
      | error e =>
          rw [hresult] at hrow
          rw [← hrow]
          rfl
      | ok merged =>
          rw [hresult] at hrow
          rw [← hrow]
          show Except.toOption (List.foldlM _ merged (cells.map _)) =
            addColumns overrideKeys cells merged
          cases added_addColumn hd hcolumn hlength hrow.symm with
          | dict hd' => exact ih hcells hd'
          | conflict hd' hget hscalar =>
              -- a list of rows takes no more columns
              cases cells with
              | nil => rfl
              | cons c cells =>
                  have ⟨hne, hcolumn, _⟩ := hcells c List.mem_cons_self
                  obtain ⟨t, rest', hpath⟩ := List.exists_cons_of_ne_nil hne
                  have htree : columnTree c.1 c.2 =
                      .dict [(stepText t, wrapped t (columnTree rest' c.2))] := by
                    rw [hpath]
                    refine columnTree_cons (hcolumn.names t ?_) rest' c.2
                    rw [hpath]
                    exact List.mem_cons_self
                  rw [addColumns_cons, addColumn_notDict rfl, List.map_cons, List.foldlM_cons, htree]
                  exact toOption_bind_eq_none (mergeRow_list ..)

/-- Merging the columns of a row is adding one after the other. -/
theorem mergeListOfDicts_eq (overrideKeys : List String) {cells : List Cell}
    (hcells : ∀ c ∈ cells, c.1 ≠ [] ∧ ScalarColumn c.1 c.2) :
    (mergeListOfDicts (cells.map fun c => columnTree c.1 c.2) overrideKeys).toOption =
      addColumns overrideKeys cells (.dict []) := by
  rw [mergeListOfDicts, PyValue.depth, mergeWithin]
  refine foldlM_mergeRow_eq overrideKeys (Nat.le_refl _) (fun c hc => ?_)
    ⟨List.nodup_nil, fun item hitem => absurd hitem List.not_mem_nil⟩
  obtain ⟨hne, hcolumn⟩ := hcells c hc
  have hdepth := length_le_depth_columnTree hcolumn.names c.2
  have hitem := PyValue.depth_le_of_mem
    (List.mem_map_of_mem (f := fun c : Cell => columnTree c.1 c.2) hc)
  exact ⟨hne, hcolumn, by omega⟩

end Onadata.Proofs
