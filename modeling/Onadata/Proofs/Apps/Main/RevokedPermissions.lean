import Onadata.Apps.Main.PermissionRevocation

/-!
# `Onadata.Proofs.Apps.Main.RevokedPermissions`: what a deactivation revokes

The loop of `revoke_revocable_user_permissions` deletes its rows in batches while it goes through
them. `Revoked` is its invariant: the rows that are done are deleted, each of them has a snapshot,
and the counts are those of the new snapshots and of the deleted rows. A batch of rows that are
not done yet keeps it, wherever the batch ends and whichever of the tables its rows are from.

* `revoked_finishBatch`: one batch.
* `revokesExactly_revoke`: the whole revocation.
-/

set_option autoImplicit false

namespace Onadata.Proofs

open Onadata.Lib

/-! ### Snapshots -/

/-- The key of the snapshot of a row. -/
def snapshotKey (state : RevokedState) (runId : String) (row : PermissionRow) : SnapshotKey :=
  ⟨state.pk, row.label, row.pk, runId⟩

@[simp]
theorem key_buildPermissionSnapshot (state : RevokedState) (row : PermissionRow) (removedAt : Int)
    (runId : String) :
    (buildPermissionSnapshot state row removedAt runId).key = snapshotKey state runId row := by
  cases row <;> rfl

/-- The keys of a table of snapshots. -/
def SnapshotKeys (table : SnapshotTable) : List SnapshotKey :=
  table.rows.map PermissionSnapshot.key

/-- The existing keys of a batch are those of its rows that have a snapshot. -/
theorem mem_existingSnapshotKeys {table : SnapshotTable} {state : RevokedState}
    {rows : List PermissionRow} {runId : String} {row : PermissionRow} (hrow : row ∈ rows) :
    (row.label, row.pk) ∈ existingSnapshotKeys table state rows runId ↔
      snapshotKey state runId row ∈ SnapshotKeys table := by
  unfold existingSnapshotKeys SnapshotKeys snapshotKey
  constructor
  · intro h
    obtain ⟨snapshot, hmem, heq⟩ := List.mem_map.mp h
    obtain ⟨hmem, hfilter⟩ := List.mem_filter.mp hmem
    simp only [Bool.and_eq_true, decide_eq_true_eq] at hfilter
    obtain ⟨⟨⟨hstate, hrun⟩, -⟩, -⟩ := hfilter
    obtain ⟨hlabel, hpk⟩ := Prod.mk.inj heq
    refine List.mem_map.mpr ⟨snapshot, hmem, ?_⟩
    rw [PermissionSnapshot.key, hstate, hrun, hlabel, hpk]
  · intro h
    obtain ⟨snapshot, hmem, heq⟩ := List.mem_map.mp h
    rw [PermissionSnapshot.key, SnapshotKey.mk.injEq] at heq
    obtain ⟨hstate, hlabel, hpk, hrun⟩ := heq
    refine List.mem_map.mpr ⟨snapshot, List.mem_filter.mpr ⟨hmem, ?_⟩, by rw [hlabel, hpk]⟩
    simp only [Bool.and_eq_true, decide_eq_true_eq, hstate, hrun, hlabel, hpk, true_and]
    exact ⟨List.mem_map_of_mem hrow, List.mem_map_of_mem hrow⟩

/-- Snapshots with new and different keys are all created. -/
theorem rows_bulkCreate {snapshots : List PermissionSnapshot} {table : SnapshotTable}
    (hnodup : (snapshots.map PermissionSnapshot.key).Nodup)
    (hnew : ∀ snapshot ∈ snapshots, snapshot.key ∉ SnapshotKeys table) :
    (table.bulkCreate snapshots).rows = table.rows ++ snapshots := by
  induction snapshots generalizing table with
  | nil => exact (List.append_nil _).symm
  | cons snapshot snapshots ih =>
      obtain ⟨hfirst, hnodup⟩ := List.nodup_cons.mp hnodup
      have hinsert : (table.insertIgnoring snapshot).rows = table.rows ++ [snapshot] := by
        have hnot : snapshot.key ∉ table.rows.map PermissionSnapshot.key :=
          hnew snapshot List.mem_cons_self
        rw [SnapshotTable.insertIgnoring, dif_neg hnot]
      show ((table.insertIgnoring snapshot).bulkCreate snapshots).rows = _
      rw [ih hnodup, hinsert, List.append_assoc, List.singleton_append]
      intro other hother
      rw [SnapshotKeys, hinsert, List.map_append, List.mem_append, not_or]
      refine ⟨hnew other (List.mem_cons_of_mem _ hother), ?_⟩
      rw [List.map_singleton, List.mem_singleton]
      exact fun heq => hfirst (heq ▸ List.mem_map_of_mem hother)

/-- The rows of a batch that get a snapshot. -/
def withoutSnapshot (table : SnapshotTable) (state : RevokedState) (runId : String)
    (rows : List PermissionRow) : List PermissionRow :=
  rows.filter fun row => snapshotKey state runId row ∉ SnapshotKeys table

/-- A batch of rows with different keys gets a snapshot for each row that has none. -/
theorem snapshotPermissionBatch_spec (table : SnapshotTable) {state : RevokedState}
    {rows : List PermissionRow} (removedAt : Int) {runId : String}
    (hnodup : (rows.map (snapshotKey state runId)).Nodup) :
    (snapshotPermissionBatch table state rows removedAt runId).1.rows =
        table.rows ++ (withoutSnapshot table state runId rows).map
          (buildPermissionSnapshot state · removedAt runId) ∧
      (snapshotPermissionBatch table state rows removedAt runId).2 =
        (withoutSnapshot table state runId rows).length := by
  have hfilter : (rows.filter fun row =>
      (row.label, row.pk) ∉ existingSnapshotKeys table state rows runId) =
        withoutSnapshot table state runId rows := by
    refine List.filter_congr fun row hrow => ?_
    exact decide_eq_decide.mpr (not_congr (mem_existingSnapshotKeys hrow))
  have hkeys : ∀ rows : List PermissionRow,
      (rows.map (buildPermissionSnapshot state · removedAt runId)).map PermissionSnapshot.key =
        rows.map (snapshotKey state runId) := by
    intro rows
    rw [List.map_map]
    exact List.map_congr_left fun row _ => key_buildPermissionSnapshot state row removedAt runId
  simp only [snapshotPermissionBatch, hfilter]
  refine ⟨?_, List.length_map _⟩
  split
  · refine rows_bulkCreate ?_ fun snapshot hsnapshot => ?_
    · rw [hkeys]
      exact hnodup.sublist (List.filter_sublist.map _)
    · obtain ⟨row, hrow, rfl⟩ := List.mem_map.mp hsnapshot
      rw [key_buildPermissionSnapshot]
      exact of_decide_eq_true (List.mem_filter.mp hrow).2
  · rename_i hempty
    rw [not_not.mp hempty, List.append_nil]

/-- After a batch, each of its rows has a snapshot. -/
theorem mem_snapshotKeys_batch {table table' : SnapshotTable} {state : RevokedState}
    {rows : List PermissionRow} {removedAt : Int} {runId : String}
    (h : table'.rows = table.rows ++ (withoutSnapshot table state runId rows).map
      (buildPermissionSnapshot state · removedAt runId)) {row : PermissionRow}
    (hrow : row ∈ rows) : snapshotKey state runId row ∈ SnapshotKeys table' := by
  rw [SnapshotKeys, h, List.map_append, List.mem_append]
  by_cases hold : snapshotKey state runId row ∈ SnapshotKeys table
  · exact .inl hold
  · refine .inr (List.mem_map.mpr ⟨buildPermissionSnapshot state row removedAt runId, ?_, by simp⟩)
    exact List.mem_map_of_mem (List.mem_filter.mpr ⟨hrow, decide_eq_true hold⟩)

/-! ### Deleted rows -/

section
variable {Object : Type} {wrap : Nat × UserObjectPermission Object → PermissionRow}
  {unwrap : PermissionRow → Option (Nat × UserObjectPermission Object)}
  {before table : Table (UserObjectPermission Object)} {done batch : List PermissionRow}
  {userId : Nat}

/-- The rows of a table that are not done. -/
def rowsWithout (wrap : Nat × UserObjectPermission Object → PermissionRow)
    (table : Table (UserObjectPermission Object)) (done : List PermissionRow) :
    List (Nat × UserObjectPermission Object) :=
  table.rows.filter fun item => wrap item ∉ done

/-- The rows of a table with one primary key are one row. -/
theorem item_eq_of_pk {item item' : Nat × UserObjectPermission Object}
    (h : item ∈ before.rows) (h' : item' ∈ before.rows) (hpk : item.1 = item'.1) :
    item = item' := by
  have hrow : before.get? item.1 = some item.2 := Table.get?_eq_some.mpr h
  have hrow' : before.get? item'.1 = some item'.2 := Table.get?_eq_some.mpr h'
  rw [hpk, hrow'] at hrow
  exact Prod.ext hpk (Option.some.inj hrow).symm

/-- The rows of a batch that are in this table. -/
theorem mem_filterMap_unwrap (hunwrap : ∀ row item, unwrap row = some item ↔ row = wrap item)
    {item : Nat × UserObjectPermission Object} :
    item ∈ batch.filterMap unwrap ↔ wrap item ∈ batch := by
  constructor
  · intro h
    obtain ⟨row, hrow, heq⟩ := List.mem_filterMap.mp h
    exact (hunwrap row item).mp heq ▸ hrow
  · exact fun h => List.mem_filterMap.mpr ⟨wrap item, h, (hunwrap _ item).mpr rfl⟩

/-- The deletion of a batch finds the rows of the batch. -/
theorem isNamedRow_iff (hunwrap : ∀ row item, unwrap row = some item ↔ row = wrap item)
    (hbatch : ∀ item, wrap item ∈ batch → item ∈ before.rows ∧ item.2.userId = userId)
    {item : Nat × UserObjectPermission Object} (hitem : item ∈ before.rows) :
    isNamedRow userId ((batch.filterMap unwrap).map Prod.fst) item = true ↔ wrap item ∈ batch := by
  unfold isNamedRow
  rw [Bool.and_eq_true, decide_eq_true_eq, decide_eq_true_eq]
  constructor
  · rintro ⟨hpk, -⟩
    obtain ⟨item', hmem, heq⟩ := List.mem_map.mp hpk
    have hbatchItem := (mem_filterMap_unwrap hunwrap).mp hmem
    rw [item_eq_of_pk hitem (hbatch item' hbatchItem).1 heq.symm]
    exact hbatchItem
  · intro hmem
    exact ⟨List.mem_map_of_mem ((mem_filterMap_unwrap hunwrap).mpr hmem), (hbatch item hmem).2⟩

/-- The deletion of a batch leaves the rows that are not done after it, and counts its rows. -/
theorem deleteRows_spec (hunwrap : ∀ row item, unwrap row = some item ↔ row = wrap item)
    (htable : table.rows = rowsWithout wrap before done)
    (hbatch : ∀ item, wrap item ∈ batch → item ∈ before.rows ∧ item.2.userId = userId)
    (hnew : ∀ row ∈ batch, row ∉ done) (hnodup : batch.Nodup) :
    (deleteRows table userId ((batch.filterMap unwrap).map Prod.fst)).1.rows =
        rowsWithout wrap before (done ++ batch) ∧
      (deleteRows table userId ((batch.filterMap unwrap).map Prod.fst)).2 =
        (batch.filterMap unwrap).length := by
  constructor
  · show table.rows.filter _ = _
    rw [htable, rowsWithout, List.filter_filter, rowsWithout]
    refine List.filter_congr fun item hitem => ?_
    rw [Bool.eq_iff_iff, Bool.and_eq_true, Bool.not_eq_true', Bool.eq_false_iff, Ne,
      isNamedRow_iff hunwrap hbatch hitem, decide_eq_true_eq, decide_eq_true_eq, List.mem_append,
      not_or, and_comm]
  · show table.rows.countP _ = _
    rw [List.countP_eq_length_filter]
    have hrows : before.rows.Nodup := List.Nodup.of_map _ before.nodup
    have hsub : table.rows.Nodup := htable ▸ hrows.filter _
    have hwrapped : (batch.filterMap unwrap).Nodup := by
      refine hnodup.filterMap fun row row' item hrow hrow' => ?_
      rw [(hunwrap row item).mp hrow, (hunwrap row' item).mp hrow']
    refine List.Perm.length_eq ((List.perm_ext_iff_of_nodup (hsub.filter _) hwrapped).mpr ?_)
    intro item
    rw [List.mem_filter, mem_filterMap_unwrap hunwrap, htable, rowsWithout, List.mem_filter]
    constructor
    · rintro ⟨⟨hitem, -⟩, hnamed⟩
      exact (isNamedRow_iff hunwrap hbatch hitem).mp hnamed
    · intro hmem
      have hitem := (hbatch item hmem).1
      exact ⟨⟨hitem, decide_eq_true (hnew _ hmem)⟩,
        (isNamedRow_iff hunwrap hbatch hitem).mpr hmem⟩

end

theorem project?_eq_some (row : PermissionRow)
    (item : Nat × UserObjectPermission RevocableProject) :
    row.project? = some item ↔ row = .project item := by
  cases row <;> simp [PermissionRow.project?]

theorem form?_eq_some (row : PermissionRow) (item : Nat × UserObjectPermission RevocableForm) :
    row.form? = some item ↔ row = .form item := by
  cases row <;> simp [PermissionRow.form?]

/-- Each row is of one of the tables. -/
theorem length_project_form (rows : List PermissionRow) :
    (rows.filterMap PermissionRow.project?).length +
      (rows.filterMap PermissionRow.form?).length = rows.length := by
  induction rows with
  | nil => rfl
  | cons row rows ih =>
      cases row with
      | project item =>
          simp only [List.filterMap_cons, PermissionRow.project?, PermissionRow.form?,
            List.length_cons]
          omega
      | form item =>
          simp only [List.filterMap_cons, PermissionRow.project?, PermissionRow.form?,
            List.length_cons]
          omega

/-! ### The loop -/

/-- The row is in its table, and it is one of the user's. -/
def IsRowOf (store : PermissionStore) (userId : Nat) : PermissionRow → Prop
  | .project item => item ∈ store.projectPermissions.rows ∧ item.2.userId = userId
  | .form item => item ∈ store.formPermissions.rows ∧ item.2.userId = userId

/-- The rows that are done are deleted and have a snapshot, and the counts are right. -/
structure Revoked (before : PermissionStore) (call : RevocationCall) (done : List PermissionRow)
    (run : RevocationRun) : Prop where
  projects : run.store.projectPermissions.rows =
    rowsWithout .project before.projectPermissions done
  forms : run.store.formPermissions.rows = rowsWithout .form before.formPermissions done
  stored : ∃ new, run.store.snapshots.rows = before.snapshots.rows ++ new ∧
    run.storedCount = new.length
  audited : ∀ row ∈ done,
    snapshotKey call.state call.runId row ∈ SnapshotKeys run.store.snapshots
  revoked : run.revokedCount = done.length

/-- Different rows have different snapshot keys. -/
theorem nodup_snapshotKeys {before : PermissionStore} {userId : Nat} {rows : List PermissionRow}
    (hrows : ∀ row ∈ rows, IsRowOf before userId row) (hnodup : rows.Nodup) (state : RevokedState)
    (runId : String) : (rows.map (snapshotKey state runId)).Nodup := by
  refine List.Nodup.map_on (fun row hrow row' hrow' heq => ?_) hnodup
  rw [snapshotKey, snapshotKey, SnapshotKey.mk.injEq] at heq
  obtain ⟨-, hlabel, hpk, -⟩ := heq
  cases row with
  | project item =>
      cases row' with
      | project item' =>
          rw [item_eq_of_pk (hrows _ hrow).1 (hrows _ hrow').1 hpk]
      | form item' => exact absurd hlabel (by simp [PermissionRow.label])
  | form item =>
      cases row' with
      | project item' => exact absurd hlabel (by simp [PermissionRow.label])
      | form item' =>
          rw [item_eq_of_pk (hrows _ hrow).1 (hrows _ hrow').1 hpk]

/-- A batch of rows that are not done keeps the invariant. -/
theorem revoked_finishBatch {before : PermissionStore} {call : RevocationCall}
    {done : List PermissionRow} {run : RevocationRun} (h : Revoked before call done run)
    (hrows : ∀ row ∈ run.permissionBatch, IsRowOf before call.state.userId row)
    (hnodup : (done ++ run.permissionBatch).Nodup) :
    Revoked before call (done ++ run.permissionBatch) (run.finishBatch call) := by
  obtain ⟨-, hbatch, hdisjoint⟩ := List.nodup_append.mp hnodup
  have hnew : ∀ row ∈ run.permissionBatch, row ∉ done := fun row hrow hdone =>
    hdisjoint row hdone row hrow rfl
  obtain ⟨hsnapshots, hstored⟩ := snapshotPermissionBatch_spec run.store.snapshots
    call.when (nodup_snapshotKeys hrows hbatch call.state call.runId)
  obtain ⟨hprojects, hprojectCount⟩ := deleteRows_spec project?_eq_some
    h.projects (fun item hitem => hrows _ hitem) hnew hbatch
  obtain ⟨hforms, hformCount⟩ := deleteRows_spec form?_eq_some
    h.forms (fun item hitem => hrows _ hitem) hnew hbatch
  obtain ⟨new, hbefore, hcount⟩ := h.stored
  refine ⟨hprojects, hforms, ?_, fun row hrow => ?_, ?_⟩
  · refine ⟨new ++ (withoutSnapshot run.store.snapshots call.state call.runId
      run.permissionBatch).map (buildPermissionSnapshot call.state · call.when call.runId), ?_, ?_⟩
    · show (snapshotPermissionBatch _ _ _ _ _).1.rows = _
      rw [hsnapshots, hbefore, List.append_assoc]
    · show run.storedCount + (snapshotPermissionBatch _ _ _ _ _).2 = _
      rw [hstored, hcount, List.length_append, List.length_map]
  · rcases List.mem_append.mp hrow with hdone | hrow
    · -- Its snapshot was there before the batch.
      show _ ∈ (snapshotPermissionBatch _ _ _ _ _).1.rows.map _
      rw [hsnapshots, List.map_append, List.mem_append]
      exact .inl (h.audited row hdone)
    · exact mem_snapshotKeys_batch hsnapshots hrow
  · show run.revokedCount + ((deleteRows _ _ _).2 + (deleteRows _ _ _).2) = _
    rw [hprojectCount, hformCount, length_project_form, h.revoked, List.length_append]

/-- The rows that the loop has gone through are done, or they are in the batch. -/
def GoneThrough (before : PermissionStore) (call : RevocationCall) (seen : List PermissionRow)
    (run : RevocationRun) : Prop :=
  ∃ done, seen = done ++ run.permissionBatch ∧ Revoked before call done run

/-- A round of the loop. -/
theorem goneThrough_addRow {before : PermissionStore} {call : RevocationCall}
    {seen : List PermissionRow} {run : RevocationRun} (h : GoneThrough before call seen run)
    {row : PermissionRow}
    (hrows : ∀ row' ∈ seen ++ [row], IsRowOf before call.state.userId row')
    (hnodup : (seen ++ [row]).Nodup) :
    GoneThrough before call (seen ++ [row]) (run.addRow call row) := by
  obtain ⟨done, rfl, hrevoked⟩ := h
  rw [List.append_assoc] at hrows hnodup ⊢
  have hrevoked : Revoked before call done
      { run with permissionBatch := run.permissionBatch ++ [row] } :=
    ⟨hrevoked.projects, hrevoked.forms, hrevoked.stored, hrevoked.audited, hrevoked.revoked⟩
  dsimp only [RevocationRun.addRow]
  split
  · -- The batch is full.
    refine ⟨done ++ (run.permissionBatch ++ [row]), (List.append_nil _).symm, ?_⟩
    refine revoked_finishBatch hrevoked (fun row' hrow' => ?_) hnodup
    exact hrows row' (List.mem_append_right _ hrow')
  · exact ⟨done, rfl, hrevoked⟩

/-- The loop over some rows. -/
theorem goneThrough_foldl {before : PermissionStore} {call : RevocationCall}
    {rows seen : List PermissionRow} {run : RevocationRun} (h : GoneThrough before call seen run)
    (hrows : ∀ row ∈ seen ++ rows, IsRowOf before call.state.userId row)
    (hnodup : (seen ++ rows).Nodup) :
    GoneThrough before call (seen ++ rows) (rows.foldl (RevocationRun.addRow call) run) := by
  induction rows generalizing seen run with
  | nil => exact (List.append_nil seen).symm ▸ h
  | cons row rows ih =>
      rw [List.append_cons] at hrows hnodup ⊢
      refine ih (goneThrough_addRow h (fun row' hrow' => ?_) ?_) hrows hnodup
      · exact hrows row' (List.mem_append_left _ hrow')
      · exact (List.nodup_append.mp hnodup).1

/-! ### The revocation -/

/-- The revocation of the rows that are eligible before it, and of no other row. -/
structure RevokesExactly (before after : PermissionStore) (state : RevokedState) (runId : String)
    (storedCount revokedCount : Nat) : Prop where
  projects : ∀ item, item ∈ after.projectPermissions.rows ↔
    item ∈ before.projectPermissions.rows ∧
      .project item ∉ getRevocableUserPermissionRows before state.userId
  forms : ∀ item, item ∈ after.formPermissions.rows ↔
    item ∈ before.formPermissions.rows ∧
      .form item ∉ getRevocableUserPermissionRows before state.userId
  audited : ∀ row ∈ getRevocableUserPermissionRows before state.userId,
    after.snapshots.rows.countP (fun snapshot =>
      snapshot.key = ⟨state.pk, row.label, row.pk, runId⟩) = 1
  stored : ∃ new, after.snapshots.rows = before.snapshots.rows ++ new ∧ storedCount = new.length
  revoked : after.projectPermissions.rows.length + after.formPermissions.rows.length +
    revokedCount = before.projectPermissions.rows.length + before.formPermissions.rows.length

/-- The rows that the generator gives are different rows of the user. -/
theorem isRowOf_revocable {before : PermissionStore} {userId : Nat} {row : PermissionRow}
    (h : row ∈ getRevocableUserPermissionRows before userId) : IsRowOf before userId row := by
  rcases List.mem_append.mp h with h | h
  · obtain ⟨item, hitem, rfl⟩ := List.mem_map.mp h
    obtain ⟨hmem, hrow⟩ := List.mem_filter.mp hitem
    simp only [isRevocableProjectRow, Bool.and_eq_true, decide_eq_true_eq] at hrow
    exact ⟨hmem, hrow.1.1⟩
  · obtain ⟨item, hitem, rfl⟩ := List.mem_map.mp h
    obtain ⟨hmem, hrow⟩ := List.mem_filter.mp hitem
    simp only [isRevocableFormRow, Bool.and_eq_true, decide_eq_true_eq] at hrow
    exact ⟨hmem, hrow.1.1.1⟩

theorem nodup_revocable (before : PermissionStore) (userId : Nat) :
    (getRevocableUserPermissionRows before userId).Nodup := by
  refine List.nodup_append.mpr ⟨?_, ?_, ?_⟩
  · refine List.Nodup.map (fun _ _ h => PermissionRow.project.inj h) ?_
    exact (List.Nodup.of_map _ before.projectPermissions.nodup).filter _
  · refine List.Nodup.map (fun _ _ h => PermissionRow.form.inj h) ?_
    exact (List.Nodup.of_map _ before.formPermissions.nodup).filter _
  · intro row hrow row' hrow' heq
    obtain ⟨item, -, rfl⟩ := List.mem_map.mp hrow
    obtain ⟨item', -, rfl⟩ := List.mem_map.mp hrow'
    cases heq

/-- While rows of projects are done, the rows of forms are as they were. -/
theorem revocableFormRows_eq {before : PermissionStore} {call : RevocationCall}
    {done : List PermissionRow} {run : RevocationRun} (h : Revoked before call done run)
    (hdone : ∀ row ∈ done, ∃ item, row = .project item) (userId : Nat) (protectedIds : List Nat) :
    revocableFormRows run.store userId protectedIds =
      revocableFormRows before userId protectedIds := by
  unfold revocableFormRows
  have hsame : run.store.formPermissions.rows = before.formPermissions.rows := by
    rw [h.forms, rowsWithout]
    refine List.filter_eq_self.mpr fun item _ => decide_eq_true fun hmem => ?_
    obtain ⟨project, hproject⟩ := hdone _ hmem
    cases hproject
  rw [hsame]

/-- The loop goes through the rows that are eligible at its start. -/
theorem revoked_revokeRows (before : PermissionStore) (call : RevocationCall) :
    Revoked before call (getRevocableUserPermissionRows before call.state.userId)
      (revokeRows before call) := by
  have hrows : ∀ row ∈ getRevocableUserPermissionRows before call.state.userId,
      IsRowOf before call.state.userId row := fun row hrow => isRowOf_revocable hrow
  have hnodup := nodup_revocable before call.state.userId
  have hstart : GoneThrough before call [] ⟨before, [], 0, 0⟩ := by
    refine ⟨[], rfl, ?_, ?_, ⟨[], by simp, rfl⟩, by simp, rfl⟩
    · simp [rowsWithout]
    · simp [rowsWithout]
  have hsplit : ∀ userId, getRevocableUserPermissionRows before userId =
      revocableProjectRows before userId (getProtectedOrganizationIds before userId) ++
        revocableFormRows before userId (getProtectedOrganizationIds before userId) :=
    fun _ => rfl
  rw [hsplit] at hrows hnodup ⊢
  dsimp only [revokeRows]
  generalize getProtectedOrganizationIds before call.state.userId = protectedIds at *
  have hprojects : GoneThrough before call
      (revocableProjectRows before call.state.userId protectedIds)
      ((revocableProjectRows before call.state.userId protectedIds).foldl
        (RevocationRun.addRow call) ⟨before, [], 0, 0⟩) :=
    goneThrough_foldl hstart (fun row hrow => hrows row (List.mem_append_left _ hrow))
      (List.nodup_append.mp hnodup).1
  generalize (revocableProjectRows before call.state.userId protectedIds).foldl
    (RevocationRun.addRow call) ⟨before, [], 0, 0⟩ = first at *
  -- The second query gives the rows of forms that were there at the start.
  have hforms : revocableFormRows first.store call.state.userId protectedIds =
      revocableFormRows before call.state.userId protectedIds := by
    obtain ⟨done, hseen, hrevoked⟩ := hprojects
    refine revocableFormRows_eq hrevoked (fun row hrow => ?_) _ _
    have hmem : row ∈ revocableProjectRows before call.state.userId protectedIds := by
      rw [hseen]
      exact List.mem_append_left _ hrow
    obtain ⟨item, -, rfl⟩ := List.mem_map.mp hmem
    exact ⟨item, rfl⟩
  rw [hforms]
  have hall := goneThrough_foldl hprojects hrows hnodup
  generalize (revocableFormRows before call.state.userId protectedIds).foldl
    (RevocationRun.addRow call) first = last at *
  obtain ⟨done, hseen, hrevoked⟩ := hall
  rw [hseen] at hrows hnodup ⊢
  split
  · exact revoked_finishBatch hrevoked
      (fun row hrow => hrows row (List.mem_append_right _ hrow)) hnodup
  · rename_i hempty
    rw [not_not.mp hempty, List.append_nil]
    exact hrevoked

/-- A table has the rows that are left and those that are not. -/
theorem length_rowsWithout {Object : Type}
    (wrap : Nat × UserObjectPermission Object → PermissionRow)
    (table : Table (UserObjectPermission Object)) (done : List PermissionRow)
    (p : Nat × UserObjectPermission Object → Bool)
    (hdone : ∀ item ∈ table.rows, wrap item ∈ done ↔ p item = true) :
    (rowsWithout wrap table done).length + (table.rows.filter p).length =
      table.rows.length := by
  have hleft : rowsWithout wrap table done = table.rows.filter fun item => !p item := by
    refine List.filter_congr fun item hitem => ?_
    rw [Bool.eq_iff_iff, decide_eq_true_eq, hdone item hitem, Bool.not_eq_true',
      Bool.eq_false_iff]
  rw [hleft, Nat.add_comm]
  simpa using (List.length_eq_length_filter_add p (l := table.rows)).symm

/-- A row with a snapshot has exactly one. -/
theorem countP_key_eq_one {table : SnapshotTable} {key : SnapshotKey}
    (h : key ∈ SnapshotKeys table) :
    table.rows.countP (fun snapshot => snapshot.key = key) = 1 := by
  have hcount : (table.rows.map PermissionSnapshot.key).count key = 1 :=
    List.count_eq_one_of_mem table.unique h
  rw [List.count, List.countP_map] at hcount
  rw [← hcount]
  exact List.countP_congr fun snapshot _ => by simp

/-- Under the revoke policy, the revocation deletes exactly the rows that are eligible before it,
each of them with one snapshot, and returns the two numbers. -/
theorem revokesExactly_revoke (before : PermissionStore) (state : RevokedState) (when : Int)
    (runId : String) (policy : PermissionPolicy) (hpolicy : policy = .revoke) :
    RevokesExactly before
      (revokeRevocableUserPermissions policy before state when runId).1 state
      (if runId ≠ "" then runId else getDeactivationRunId state)
      (revokeRevocableUserPermissions policy before state when runId).2.1
      (revokeRevocableUserPermissions policy before state when runId).2.2 := by
  unfold revokeRevocableUserPermissions
  rw [if_neg (not_not.mpr hpolicy)]
  generalize (if runId ≠ "" then runId else getDeactivationRunId state) = run
  have h := revoked_revokeRows before ⟨state, when, run⟩
  refine ⟨fun item => ?_, fun item => ?_, fun row hrow => ?_, h.stored, ?_⟩
  · show item ∈ (revokeRows before ⟨state, when, run⟩).store.projectPermissions.rows ↔ _
    rw [h.projects, rowsWithout, List.mem_filter, decide_eq_true_eq]
  · show item ∈ (revokeRows before ⟨state, when, run⟩).store.formPermissions.rows ↔ _
    rw [h.forms, rowsWithout, List.mem_filter, decide_eq_true_eq]
  · exact countP_key_eq_one (h.audited row hrow)
  · show (revokeRows before ⟨state, when, run⟩).store.projectPermissions.rows.length +
      (revokeRows before ⟨state, when, run⟩).store.formPermissions.rows.length +
      (revokeRows before ⟨state, when, run⟩).revokedCount = _
    rw [h.projects, h.forms, h.revoked]
    show (rowsWithout .project before.projectPermissions
        (getRevocableUserPermissionRows before state.userId)).length +
      (rowsWithout .form before.formPermissions
        (getRevocableUserPermissionRows before state.userId)).length +
      (getRevocableUserPermissionRows before state.userId).length = _
    set protectedIds := getProtectedOrganizationIds before state.userId with hprotected
    have hprojects := length_rowsWithout .project before.projectPermissions
      (getRevocableUserPermissionRows before state.userId)
      (fun item => isRevocableProjectRow state.userId protectedIds item.2) fun item hitem => by
        simp [getRevocableUserPermissionRows, revocableProjectRows, revocableFormRows, hitem,
          hprotected]
    have hforms := length_rowsWithout .form before.formPermissions
      (getRevocableUserPermissionRows before state.userId)
      (fun item => isRevocableFormRow state.userId protectedIds item.2) fun item hitem => by
        simp [getRevocableUserPermissionRows, revocableProjectRows, revocableFormRows, hitem,
          hprotected]
    have hlength : (getRevocableUserPermissionRows before state.userId).length =
        (before.projectPermissions.rows.filter fun item =>
          isRevocableProjectRow state.userId protectedIds item.2).length +
        (before.formPermissions.rows.filter fun item =>
          isRevocableFormRow state.userId protectedIds item.2).length := by
      simp only [getRevocableUserPermissionRows, revocableProjectRows, revocableFormRows,
        List.length_append, List.length_map]
      rfl
    omega

/-- A user with a permission on a project of organization 7 and one on a form of organization 8,
which the user owns. -/
def revocationExample : PermissionStore where
  profiles := []
  teams := [⟨"acme#Owners", 8, [5]⟩]
  projectPermissions := Table.empty.create ⟨5, "view_project", "Can view", ⟨3, 7, "Rain"⟩⟩
  formPermissions := Table.empty.create ⟨5, "view_xform", "Can view", ⟨4, none, 6, 8, "Wells"⟩⟩
  snapshots := ⟨[], List.nodup_nil⟩

/-- The permission on the project goes, with one snapshot. -/
theorem revokesExactly_revocationExample :
    RevokesExactly revocationExample
      (revokeRevocableUserPermissions .revoke revocationExample ⟨1, 5, none⟩ 0 "run").1
      ⟨1, 5, none⟩ "run" 1 1 :=
  revokesExactly_revoke revocationExample ⟨1, 5, none⟩ 0 "run" .revoke rfl

end Onadata.Proofs
