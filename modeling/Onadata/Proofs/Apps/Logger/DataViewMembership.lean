import Onadata.Apps.Logger.Models.DataViewQuery
import Onadata.Lib.PyText
import Onadata.Proofs.Libs.Utils.DataviewFilters

/-!
# `Onadata.Proofs.Apps.Logger.DataViewMembership`: membership in a dataview and its listing

`has_instance` and `query_data` write the same conditions. A submission that `query_data` selects is
a live one of the form, or of a merged form, that meets the filters (`mem_queryData_iff`).

`has_instance` counts such submissions with the id, and asks whether the count is `None`. A count
never is, so every submission is one of every dataview.

* `execute_hasInstance_ne_nil_iff`: the count of `has_instance` tells whether the submission is
  selected, if the dataview has one form.
* `hasInstance_iff_listed_iff`: exactly when `has_instance` agrees with `query_data`.
-/

set_option autoImplicit false

namespace Onadata.Proofs

open Onadata.Lib

/-! ### The statements -/

/-- The submission is of the form of the dataview, or of a form that it merges. -/
def OfForm (dataView : FilteredDataset) (row : DatasetRow) : Prop :=
  match dataView.mergedXforms with
  | some pks => row.xformId ∈ pks
  | none => row.xformId = dataView.xform

/-- The submission is live and meets the filters. -/
def MeetsFilters (db : Database) (dataView : FilteredDataset) (row : DatasetRow) : Prop :=
  MeetsSql db dataView.fields dataView.query row.json ∧ row.deletedAt = none

section
variable (db : Database) (dataView : FilteredDataset) (row : DatasetRow)

/-- The filters of a statement, with their own parameters, and the last condition. -/
theorem holdsAll_filters (conditions : List DataViewWhere) (params : List String) :
    Clauses.HoldsAll RowCondition.arity (RowCondition.holds db)
        (conditions.map .filter ++ [.notDeleted]) (params.map .text) row ↔
      Clauses.HoldsAll DataViewWhere.arity (DataViewWhere.holds db) conditions params row.json ∧
        row.deletedAt = none := by
  induction conditions generalizing params with
  | nil =>
      show row.deletedAt = none ∧ True ↔ True ∧ row.deletedAt = none
      rw [and_true, true_and]
  | cons c conditions ih =>
      have htexts : ((params.take c.arity).map RowParam.text).filterMap RowParam.text? =
          params.take c.arity := by
        rw [List.filterMap_map]
        exact List.filterMap_some
      show DataViewWhere.holds db c (((params.map RowParam.text).take c.arity).filterMap
          RowParam.text?) row.json ∧ Clauses.HoldsAll _ _
            (conditions.map RowCondition.filter ++ [RowCondition.notDeleted])
            ((params.map RowParam.text).drop c.arity) row ↔ _
      rw [← List.map_take, ← List.map_drop, htexts, ih, ← and_assoc]
      rfl

theorem holdsAll_whereRows :
    Clauses.HoldsAll RowCondition.arity (RowCondition.holds db) dataView.whereRows.conditions
        dataView.whereRows.params row ↔ MeetsFilters db dataView row := by
  have hselects := selects_iff db dataView.fields dataView.query row.json
  rw [KnownFields.Selects] at hselects
  rw [MeetsFilters, MeetsSql, ← hselects]
  simp only [placeholders_getWhereClause, true_and]
  exact holdsAll_filters db row _ _

theorem text_toString_eq_iff {n m : Nat} :
    [RowParam.text (toString n)] = [RowParam.text (toString m)] ↔ n = m := by
  constructor
  · intro h
    have htext := RowParam.text.inj (List.cons.inj h).1
    exact append_toString_injective "" n m (by rw [htext])
  · rintro rfl
    rfl

/-- The conditions of `query_data` select the submissions of the dataview. -/
theorem holdsAll_queryData :
    Clauses.HoldsAll RowCondition.arity (RowCondition.holds db)
        dataView.queryDataStatement.conditions dataView.queryDataStatement.params row ↔
      OfForm dataView row ∧ MeetsFilters db dataView row := by
  rw [← holdsAll_whereRows, FilteredDataset.queryDataStatement, OfForm]
  cases dataView.mergedXforms with
  | some pks =>
      show (∃ param ∈ [RowParam.tuple pks], row.xformId ∈ param.pks) ∧ _ ↔ _
      simp only [List.mem_singleton, exists_eq_left, RowParam.pks]
      exact Iff.rfl
  | none =>
      show [RowParam.text (toString dataView.xform)] = [.text (toString row.xformId)] ∧ _ ↔ _
      rw [text_toString_eq_iff, eq_comm]
      exact Iff.rfl

/-- Those of `has_instance` select it if it has the id too, and the dataview merges no forms. -/
theorem holdsAll_hasInstance (instanceId : Nat) :
    Clauses.HoldsAll RowCondition.arity (RowCondition.holds db)
        (dataView.hasInstanceStatement instanceId).conditions
        (dataView.hasInstanceStatement instanceId).params row ↔
      row.xformId = dataView.xform ∧ row.id = instanceId ∧ MeetsFilters db dataView row := by
  rw [← holdsAll_whereRows]
  show [RowParam.text (toString dataView.xform)] = [.text (toString row.xformId)] ∧
    [RowParam.text (toString instanceId)] = [.text (toString row.id)] ∧ _ ↔ _
  rw [text_toString_eq_iff, text_toString_eq_iff, @eq_comm _ dataView.xform, @eq_comm _ instanceId]
  exact Iff.rfl

end

/-! ### The statements have their parameters -/

section
variable (dataView : FilteredDataset)

theorem placeholders_whereRows :
    Clauses.placeholders RowCondition.arity dataView.whereRows.conditions =
      dataView.whereRows.params.length := by
  have hcount := placeholders_getWhereClause dataView.fields dataView.query
  have hfilters : ∀ conditions : List DataViewWhere,
      Clauses.placeholders RowCondition.arity (conditions.map .filter) =
        Clauses.placeholders DataViewWhere.arity conditions := by
    intro conditions
    rw [Clauses.placeholders, List.map_map]
    rfl
  rw [FilteredDataset.whereRows, Clauses.placeholders_append, hfilters, List.length_map, ← hcount]
  rfl

theorem placeholders_queryData :
    Clauses.placeholders RowCondition.arity dataView.queryDataStatement.conditions =
      dataView.queryDataStatement.params.length := by
  have hcount := placeholders_whereRows dataView
  rw [FilteredDataset.queryDataStatement]
  cases dataView.mergedXforms with
  | some pks => rw [Clauses.placeholders_cons, List.length_cons, hcount, Nat.add_comm]; rfl
  | none => rw [Clauses.placeholders_cons, List.length_cons, hcount, Nat.add_comm]; rfl

theorem placeholders_hasInstance (instanceId : Nat) :
    Clauses.placeholders RowCondition.arity (dataView.hasInstanceStatement instanceId).conditions =
      (dataView.hasInstanceStatement instanceId).params.length := by
  have hcount := placeholders_whereRows dataView
  rw [FilteredDataset.hasInstanceStatement, Clauses.placeholders_cons, Clauses.placeholders_cons,
    List.length_cons, List.length_cons, hcount]
  show 1 + (1 + _) = _
  omega

end

/-! ### The methods -/

section
variable (db : DataViewDatabase) (table : List DatasetRow) (dataView : FilteredDataset)

/-- A statement with as many placeholders as parameters fetches its rows, or raises a
`DataError`. -/
theorem execute_eq_ok_iff {statement : RowStatement} {rows : List DatasetRow}
    (hcount : Clauses.placeholders RowCondition.arity statement.conditions =
      statement.params.length) :
    db.execute table statement = .ok rows ↔
      db.dataError statement table = none ∧
        (table.filter fun row => Clauses.HoldsAll RowCondition.arity
          (RowCondition.holds db.toDatabase) statement.conditions statement.params row) = rows := by
  unfold DataViewDatabase.execute
  rw [if_neg (not_not_intro hcount)]
  cases db.dataError statement table with
  | some message => simp
  | none => simp

/-- `query_data` selects the live submissions of its forms that meet the filters. -/
theorem mem_queryData_iff (row : DatasetRow) :
    (∃ rows, queryData db table dataView = .ok rows ∧ row ∈ rows) ↔
      db.dataError dataView.queryDataStatement table = none ∧
        row ∈ table ∧ OfForm dataView row ∧ MeetsFilters db.toDatabase dataView row := by
  have hexecute := fun rows => @execute_eq_ok_iff db table _ rows (placeholders_queryData dataView)
  unfold queryData
  constructor
  · intro ⟨rows, hrows, hmem⟩
    cases hselected : db.execute table dataView.queryDataStatement with
    | error message =>
        rw [hselected] at hrows
        cases hrows
    | ok selected =>
        rw [hselected] at hrows
        cases hrows
        obtain ⟨herror, rfl⟩ := (hexecute selected).mp hselected
        rw [List.mem_mergeSort, List.mem_filter, decide_eq_true_eq, holdsAll_queryData] at hmem
        exact ⟨herror, hmem⟩
  · intro ⟨herror, hmem⟩
    rw [(hexecute _).mpr ⟨herror, rfl⟩]
    refine ⟨_, rfl, ?_⟩
    rw [List.mem_mergeSort, List.mem_filter, decide_eq_true_eq, holdsAll_queryData]
    exact hmem

/-- The rows that `has_instance` counts. -/
theorem mem_execute_hasInstance {instanceId : Nat} {selected : List DatasetRow}
    (h : db.execute table (dataView.hasInstanceStatement instanceId) = .ok selected)
    (row : DatasetRow) :
    row ∈ selected ↔ row ∈ table ∧ row.xformId = dataView.xform ∧ row.id = instanceId ∧
      MeetsFilters db.toDatabase dataView row := by
  obtain ⟨_, rfl⟩ :=
    (execute_eq_ok_iff db table (placeholders_hasInstance dataView instanceId)).mp h
  rw [List.mem_filter, decide_eq_true_eq, holdsAll_hasInstance]

/-- `has_instance` is true whenever its statement raises no error. -/
theorem hasInstance_eq_ok_true (instanceId : Nat) :
    hasInstance db table dataView instanceId = .ok true ↔
      db.dataError (dataView.hasInstanceStatement instanceId) table = none := by
  have hexecute := fun rows =>
    @execute_eq_ok_iff db table _ rows (placeholders_hasInstance dataView instanceId)
  unfold hasInstance
  cases hselected : db.execute table (dataView.hasInstanceStatement instanceId) with
  | error message =>
      have herror : db.dataError (dataView.hasInstanceStatement instanceId) table ≠ none := by
        intro hnone
        rw [(hexecute _).mpr ⟨hnone, rfl⟩] at hselected
        cases hselected
      exact iff_of_false (by simp [bind, Except.bind]) herror
  | ok selected => exact iff_of_true rfl ((hexecute selected).mp hselected).1

end

/-! ### Agreement -/

section
variable (db : DataViewDatabase) (table : List DatasetRow) (dataView : FilteredDataset)

/-- `query_data` selects a submission with the id. -/
def ListedByQuery (instanceId : Nat) : Prop :=
  ∃ rows, queryData db table dataView = .ok rows ∧ ∃ row ∈ rows, row.id = instanceId

/-- The statement of `query_data` raises no error, and the submission is a live one of the forms
that meets the filters. -/
def InDataView (instanceId : Nat) : Prop :=
  db.dataError dataView.queryDataStatement table = none ∧
    ∃ row ∈ table, row.id = instanceId ∧ OfForm dataView row ∧
      MeetsFilters db.toDatabase dataView row

theorem listed_iff (instanceId : Nat) :
    ListedByQuery db table dataView instanceId ↔ InDataView db table dataView instanceId := by
  constructor
  · intro ⟨rows, hrows, row, hmem, hid⟩
    obtain ⟨herror, htable, hselected⟩ :=
      (mem_queryData_iff db table dataView row).mp ⟨rows, hrows, hmem⟩
    exact ⟨herror, row, htable, hid, hselected⟩
  · intro ⟨herror, row, htable, hid, hselected⟩
    obtain ⟨rows, hrows, hmem⟩ :=
      (mem_queryData_iff db table dataView row).mpr ⟨herror, htable, hselected⟩
    exact ⟨rows, hrows, row, hmem, hid⟩

/-- The count of `has_instance` is positive exactly for the submissions of a dataview with one
form. -/
theorem execute_hasInstance_ne_nil_iff (hform : dataView.mergedXforms = none) {instanceId : Nat}
    {selected : List DatasetRow}
    (h : db.execute table (dataView.hasInstanceStatement instanceId) = .ok selected)
    (herror : db.dataError dataView.queryDataStatement table = none) :
    0 < selected.length ↔ InDataView db table dataView instanceId := by
  rw [List.length_pos_iff_exists_mem]
  simp only [mem_execute_hasInstance db table dataView h, InDataView, herror, true_and, OfForm,
    hform]
  constructor
  · intro ⟨row, htable, hof, hid, hmeets⟩
    exact ⟨row, htable, hid, hof, hmeets⟩
  · intro ⟨row, htable, hid, hof, hmeets⟩
    exact ⟨row, htable, hof, hid, hmeets⟩

/-- `has_instance` agrees with `query_data` on a submission exactly when it is one of the dataview,
or the statement of `has_instance` raises an error on one that is not. -/
theorem hasInstance_iff_listed_iff (instanceId : Nat) :
    (hasInstance db table dataView instanceId = .ok true ↔ ListedByQuery db table dataView instanceId) ↔
      (db.dataError (dataView.hasInstanceStatement instanceId) table = none ↔
        InDataView db table dataView instanceId) := by
  rw [hasInstance_eq_ok_true, listed_iff]

end

/-- A deleted submission of the form is one of the dataview for `has_instance`, and `query_data` does
not select it. -/
theorem not_hasInstance_iff_listed_deleted :
    ¬∀ (db : DataViewDatabase) (table : List DatasetRow) (dataView : FilteredDataset)
      (instanceId : Nat),
      hasInstance db table dataView instanceId = .ok true ↔ ListedByQuery db table dataView instanceId := by
  intro h
  let db : DataViewDatabase := { codePointDatabase with dataError := fun _ _ => none }
  let deleted : DatasetRow := { id := 7, xformId := 1, json := [], deletedAt := some 3 }
  have hlisted := (h db [deleted] { xform := 1 } 7).mp rfl
  obtain ⟨_, row, hrow, _, _, _, hlive⟩ := (listed_iff db [deleted] { xform := 1 } 7).mp hlisted
  obtain rfl := List.mem_singleton.mp hrow
  cases hlive

end Onadata.Proofs
