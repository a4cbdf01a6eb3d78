import Onadata.Lib.ExceptList
import Onadata.Libs.Utils.SelectMultiples

/-!
# `Onadata.Proofs.Libs.Utils.SelectMultiples`: one question of a record

What `_split_select_multiples` and `split_select_multiples` do for one question, in a record
without repeats. The columns of its choices are updated, and the column of the question is removed
by `CSVDataFrameBuilder` only.

* `csvSplitSelectMultiples_eq_ok`: the run of `_split_select_multiples`.
* `get?_update_of_mem`: the value of a column, when all choices with this column agree.
-/

set_option autoImplicit false

namespace Onadata.Proofs

open Onadata.Lib

/-! ### Dicts -/

/-- The value of a key that only items with this value have. -/
theorem get?_update_of_mem {d items : List (String × PyValue)} {key : String} {value : PyValue}
    (hmem : (key, value) ∈ items) (hsame : ∀ item ∈ items, item.1 = key → item.2 = value) :
    Dict.get? (Dict.update d items) key = some value := by
  rw [Dict.get?_update]
  cases hfind : items.reverse.find? fun item => item.1 = key with
  | none =>
      have hnone := List.find?_eq_none.mp hfind (key, value) (List.mem_reverse.mpr hmem)
      exact absurd (decide_eq_true rfl) hnone
  | some item =>
      have hkey : item.1 = key := by simpa using List.find?_some hfind
      have hitem := List.mem_reverse.mp (List.mem_of_find?_eq_some hfind)
      simp [hsame item hitem hkey]

/-- A value of an updated dict is one of the dict or one of the items. -/
theorem mem_update {d items : List (String × PyValue)} {item : String × PyValue}
    (h : item ∈ Dict.update d items) : item ∈ d ∨ item ∈ items := by
  induction items generalizing d with
  | nil => exact Or.inl h
  | cons first items ih =>
      rcases ih h with h | h
      · have hinsert : ∀ d : List (String × PyValue), item ∈ Dict.insert d first.1 first.2 →
            item ∈ d ∨ item = first := by
          intro d
          induction d with
          | nil =>
              intro h
              exact Or.inr (List.mem_singleton.mp h)
          | cons other d ih =>
              intro h
              rw [Dict.insert] at h
              split at h
              · rcases List.mem_cons.mp h with h | h
                · exact Or.inr h
                · exact Or.inl (List.mem_cons_of_mem other h)
              · rcases List.mem_cons.mp h with h | h
                · exact Or.inl (h ▸ List.mem_cons_self)
                · exact (ih h).imp_left (List.mem_cons_of_mem other)
        rcases hinsert d h with h | h
        · exact Or.inl h
        · exact Or.inr (h ▸ List.mem_cons_self)
      · exact Or.inr (List.mem_cons_of_mem first h)

/-- The value of another key after `pop`. -/
theorem get?_erase_of_ne {d : List (String × PyValue)} {key other : String} (h : other ≠ key) :
    Dict.get? (Dict.erase d key) other = Dict.get? d other := by
  unfold Dict.erase
  induction d with
  | nil => rfl
  | cons item d ih =>
      by_cases hkey : item.1 = key
      · rw [List.filter_cons_of_neg (by simp [hkey]), ih, Dict.get?,
          if_neg (fun heq => h (heq.symm.trans hkey))]
      · rw [List.filter_cons_of_pos (by simp [hkey]), Dict.get?, Dict.get?, ih]

/-- The value of a key that the items of a dict give. -/
theorem get?_update_of_get? {d items : List (String × PyValue)} {key : String} {value : PyValue}
    (hnodup : (Dict.keys items).Nodup) (h : Dict.get? items key = some value) :
    Dict.get? (Dict.update d items) key = some value := by
  refine get?_update_of_mem (Dict.mem_of_get? h) fun item hitem hkey => ?_
  have hget := Dict.get?_of_mem hnodup hitem
  rw [hkey, h] at hget
  exact (Option.some.inj hget).symm

/-- The value of a column after the update of a record. -/
theorem get?_update_columns {record columns : List (String × PyValue)} {column : String}
    {value : PyValue} (hmem : (column, value) ∈ columns)
    (hsame : ∀ item ∈ columns, item.1 = column → item.2 = value) :
    Dict.get? (Dict.update record (Dict.update [] columns)) column = some value := by
  have hnil : (Dict.keys ([] : List (String × PyValue))).Nodup := List.nodup_nil
  exact get?_update_of_get? (Dict.nodup_keys_update hnil columns) (get?_update_of_mem hmem hsame)

/-! ### Xpaths -/

/-- Different names give different xpaths. -/
theorem choicePath_inj {xpath name name' : String} :
    xpath ++ "/" ++ name = xpath ++ "/" ++ name' ↔ name = name' := by
  constructor
  · intro h
    have hlist := congrArg String.toList h
    simp only [String.toList_append] at hlist
    exact String.toList_inj.mp (List.append_cancel_left hlist)
  · rintro rfl
    rfl

/-- The xpath of a choice is not the xpath of its question. -/
theorem choicePath_ne (xpath name : String) : xpath ++ "/" ++ name ≠ xpath := by
  intro h
  have hlength := congrArg (fun text => text.toList.length) h
  have hslash : "/".toList = ['/'] := by decide
  simp only [String.toList_append, hslash, List.length_append, List.length_singleton] at hlength
  omega

/-- A choice is among the selections if its name is. -/
theorem choicePath_mem_map {xpath name : String} {selected : List String} :
    xpath ++ "/" ++ name ∈ selected.map (fun r => xpath ++ "/" ++ r) ↔ name ∈ selected := by
  rw [List.mem_map]
  constructor
  · intro ⟨r, hr, heq⟩
    rwa [← choicePath_inj.mp heq]
  · intro h
    exact ⟨name, h, rfl⟩

/-- The position of a choice among the selections is that of its name. -/
theorem idxOf_choicePath (xpath name : String) (selected : List String) :
    (selected.map fun r => xpath ++ "/" ++ r).idxOf (xpath ++ "/" ++ name) =
      selected.idxOf name := by
  induction selected with
  | nil => rfl
  | cons r selected ih =>
      rw [List.map_cons, List.idxOf_cons, List.idxOf_cons, ih]
      by_cases hr : r = name
      · rw [hr, beq_self_eq_true, beq_self_eq_true]
      · have hpath : ¬xpath ++ "/" ++ r = xpath ++ "/" ++ name := fun heq =>
          hr (choicePath_inj.mp heq)
        rw [beq_false_of_ne hr, beq_false_of_ne hpath]

/-! ### Records without repeats -/

/-- No value of the record is a list. -/
def FlatRecord (record : List (String × PyValue)) : Prop :=
  ∀ item ∈ record, item.2.isList = false

/-- A value that is no list is kept. -/
theorem splitRepeat_of_not_list {item : String × PyValue} (h : item.2.isList = false)
    (split : List (String × PyValue) → Except PyError (List (String × PyValue))) :
    splitRepeat split item = .ok item := by
  unfold splitRepeat
  split
  · rename_i items hvalue
    rw [hvalue] at h
    cases h
  · rfl

/-- A repeat keeps its key. -/
theorem fst_of_splitRepeat {item item' : String × PyValue}
    {split : List (String × PyValue) → Except PyError (List (String × PyValue))}
    (h : splitRepeat split item = .ok item') : item'.1 = item.1 := by
  unfold splitRepeat at h
  split at h
  · obtain ⟨items, _, heq⟩ := bind_eq_ok.mp h
    cases heq
    rfl
  · cases h
    rfl

/-- Values that are no lists stay when the repeats are split. -/
theorem get?_mapM_splitRepeat
    {split : List (String × PyValue) → Except PyError (List (String × PyValue))}
    {record out : List (String × PyValue)} (h : record.mapM (splitRepeat split) = .ok out)
    {key : String} {value : PyValue} (hvalue : value.isList = false)
    (hkey : Dict.get? record key = some value) : Dict.get? out key = some value := by
  rw [mapM_eq_ok] at h
  induction h with
  | nil => cases hkey
  | @cons item item' record out hitem _ ih =>
      rw [Dict.get?] at hkey ⊢
      rw [fst_of_splitRepeat hitem]
      split at hkey
      · rw [splitRepeat_of_not_list (Option.some.inj hkey ▸ hvalue)] at hitem
        rw [if_pos (by assumption), ← Except.ok.inj hitem, hkey]
      · rw [if_neg (by assumption), ih hkey]

/-- The repeats are split when each of their dicts is. -/
theorem exists_mapM_splitRepeat
    {split : List (String × PyValue) → Except PyError (List (String × PyValue))}
    {record : List (String × PyValue)}
    (h : ∀ item ∈ record, ∀ values, item.2 = .list values → ∀ nested, .dict nested ∈ values →
      ∃ out, split nested = .ok out) :
    ∃ out, record.mapM (splitRepeat split) = .ok out := by
  have hitem : ∀ item ∈ record, ∃ item', splitRepeat split item = .ok item' ∧ True := by
    intro item hmem
    by_cases hlist : item.2.isList = false
    · exact ⟨item, splitRepeat_of_not_list hlist split, trivial⟩
    · obtain ⟨key, value⟩ := item
      cases value with
      | list values =>
          have hvalue : ∀ value ∈ values, ∃ value', splitListItem split value = .ok value' ∧
              True := by
            intro value hmemValue
            cases value with
            | dict nested =>
                obtain ⟨out, hout⟩ := h (key, .list values) hmem values rfl nested hmemValue
                refine ⟨.dict out, ?_, trivial⟩
                show (split nested >>= fun nested => Except.ok (PyValue.dict nested)) = _
                rw [hout]
                rfl
            | _ => exact ⟨_, rfl, trivial⟩
          obtain ⟨values', hvalues', -⟩ := @exists_mapM_eq_ok _ _ _ _ (fun _ _ => True) _ hvalue
          refine ⟨(key, .list values'), ?_, trivial⟩
          show (values.mapM (splitListItem split) >>= fun items =>
            Except.ok (key, PyValue.list items)) = _
          rw [hvalues']
          rfl
      | _ => exact absurd rfl hlist
  obtain ⟨out, hout, -⟩ := @exists_mapM_eq_ok _ _ _ _ (fun _ _ => True) _ hitem
  exact ⟨out, hout⟩

/-- No repeat is split. -/
theorem mapM_splitRepeat {record : List (String × PyValue)} (h : FlatRecord record)
    (split : List (String × PyValue) → Except PyError (List (String × PyValue))) :
    record.mapM (splitRepeat split) = .ok record := by
  induction record with
  | nil => rfl
  | cons item record ih =>
      rw [List.mapM_cons, splitRepeat_of_not_list (h item List.mem_cons_self),
        ih fun other hother => h other (List.mem_cons_of_mem item hother)]
      rfl

theorem FlatRecord.update {record items : List (String × PyValue)} (h : FlatRecord record)
    (hitems : FlatRecord items) : FlatRecord (Dict.update record items) := by
  intro item hitem
  rcases mem_update hitem with hitem | hitem
  · exact h item hitem
  · exact hitems item hitem

theorem FlatRecord.erase {record : List (String × PyValue)} (h : FlatRecord record)
    (key : String) : FlatRecord (Dict.erase record key) :=
  fun item hitem => h item (List.mem_of_mem_filter hitem)

/-! ### The columns of a question -/

/-- The column of a choice and its value, by `_split_select_multiples`. -/
def csvChoiceColumn (options : SplitOptions) (key answer : String) (choice : CollectedChoice) :
    Except PyError (String × PyValue) := do
  let value ← choiceValue options answer ((splitText " " answer).map fun r => key ++ "/" ++ r)
    choice
  return (choiceColumn options.showChoiceLabels choice, value)

/-- No value of a column is a list. -/
theorem isList_csvChoiceColumn {options : SplitOptions} {key answer : String}
    {choice : CollectedChoice} {column : String × PyValue}
    (h : csvChoiceColumn options key answer choice = .ok column) : column.2.isList = false := by
  unfold csvChoiceColumn at h
  obtain ⟨value, hvalue, heq⟩ := bind_eq_ok.mp h
  cases heq
  unfold choiceValue at hvalue
  split_ifs at hvalue
  · cases hvalue
    rfl
  · split at hvalue
    · cases hvalue
      rfl
    · cases hvalue
  · cases hvalue
    rfl
  all_goals
    cases hvalue
    rfl

theorem splitSelectMultiple_eq_ok {options : SplitOptions} {record out : List (String × PyValue)}
    {key answer : String} {choices : List CollectedChoice}
    (hkey : Dict.get? record key = some (.str answer)) :
    splitSelectMultiple options record key choices = .ok out ↔
      ∃ columns, List.Forall₂ (fun choice column =>
          csvChoiceColumn options key answer choice = .ok column) choices columns ∧
        Dict.erase (Dict.update record (Dict.update [] columns)) key = out := by
  unfold splitSelectMultiple
  rw [hkey]
  show (choices.mapM (csvChoiceColumn options key answer) >>= fun columns =>
    .ok (Dict.erase (Dict.update record (Dict.update [] columns)) key)) = .ok out ↔ _
  rw [bind_eq_ok]
  simp only [mapM_eq_ok, Except.ok.injEq]

/-- A round for the question and its repeats. -/
theorem splitSelectMultiplesWithin_succ (options : SplitOptions) (key : String)
    (choices : List CollectedChoice) (fuel : Nat) (record : List (String × PyValue)) :
    splitSelectMultiplesWithin options [(key, choices)] (fuel + 1) record =
      splitSelectMultiple options record key choices >>= fun record' =>
        record'.mapM (splitRepeat (splitSelectMultiplesWithin options [(key, choices)] fuel)) := by
  rw [splitSelectMultiplesWithin, List.foldlM_cons]
  simp only [List.foldlM_nil, bind_pure]

/-- A record without repeats gets the columns of the choices, for the column of the question. -/
theorem csvSplitSelectMultiples_eq_ok {options : SplitOptions}
    {record out : List (String × PyValue)} (hflat : FlatRecord record) {key answer : String}
    (hkey : Dict.get? record key = some (.str answer)) {choices : List CollectedChoice} :
    csvSplitSelectMultiples options [(key, choices)] record = .ok out ↔
      ∃ columns, List.Forall₂ (fun choice column =>
          csvChoiceColumn options key answer choice = .ok column) choices columns ∧
        Dict.erase (Dict.update record (Dict.update [] columns)) key = out := by
  rw [← splitSelectMultiple_eq_ok hkey]
  -- the columns are no repeats
  have hrest : ∀ record', splitSelectMultiple options record key choices = .ok record' →
      FlatRecord record' := by
    intro record' h
    obtain ⟨columns, hcolumns, rfl⟩ := (splitSelectMultiple_eq_ok hkey).mp h
    have hitems : FlatRecord columns := by
      intro column hcolumn
      obtain ⟨choice, _, hchoice⟩ := exists_of_mem_right hcolumns hcolumn
      exact isList_csvChoiceColumn hchoice
    have hnil : FlatRecord [] := fun item hitem => absurd hitem List.not_mem_nil
    exact (hflat.update (hnil.update hitems)).erase key
  rw [csvSplitSelectMultiples, PyValue.depth, splitSelectMultiplesWithin_succ, bind_eq_ok]
  constructor
  · intro ⟨record', hrecord', hmap⟩
    rw [mapM_splitRepeat (hrest record' hrecord')] at hmap
    rw [hrecord', Except.ok.inj hmap]
  · intro h
    exact ⟨out, h, mapM_splitRepeat (hrest out h) _⟩

end Onadata.Proofs
