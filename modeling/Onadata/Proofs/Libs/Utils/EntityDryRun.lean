import Mathlib.Data.List.Nodup
import Onadata.Lib.ExceptList
import Onadata.Libs.Utils.EntityImport

/-!
# `Onadata.Proofs.Libs.Utils.EntityDryRun`: the dry run of an entity import

A dry run reads the entities as they were before the file. The real run reads them with what the
earlier rows have created (`Grown`), so the two differ at a uuid that occurs again, and at what
only the database refuses. In both runs a row that cannot be read ends the iteration: one with more
cells than the header, and one whose uuid is not a UUID.

* `dryStatus` and `realStatus`: the status of a row, from the presence of its uuid.
* `status_agree_iff`: when a row has the same status in both runs.
* `dryRunTells_iff`: when the dry run tells what the real run does.
-/

set_option autoImplicit false

namespace Onadata.Proofs

open Onadata.Lib

/-! ### The entities -/

/-- An entity with this uuid is not deleted. -/
def IsLiveUuid (table : EntityTable) (uuid : String) : Prop :=
  ∃ entity ∈ table.rows, entity.uuid = uuid ∧ entity.deleted = false

/-- An entity has this uuid. -/
def IsKnownUuid (table : EntityTable) (uuid : String) : Prop :=
  uuid ∈ table.rows.map StoredEntity.uuid

theorem isKnownUuid_of_isLive {table : EntityTable} {uuid : String} (h : IsLiveUuid table uuid) :
    IsKnownUuid table uuid := by
  obtain ⟨entity, hentity, huuid, -⟩ := h
  exact List.mem_map.mpr ⟨entity, hentity, huuid⟩

/-- `objects.get` finds an entity exactly when there is one. -/
theorem objectsGet_eq_none_iff {table : EntityTable} {uuid : String} :
    table.objectsGet uuid = none ↔ ¬ IsLiveUuid table uuid := by
  unfold EntityTable.objectsGet IsLiveUuid
  rw [List.find?_eq_none]
  simp

theorem objectsGet_eq_some {table : EntityTable} {uuid : String} {entity : StoredEntity}
    (h : table.objectsGet uuid = some entity) : entity ∈ table.rows ∧ entity.uuid = uuid := by
  have hfound := List.find?_some h
  simp only [Bool.and_eq_true, decide_eq_true_eq] at hfound
  exact ⟨List.mem_of_find?_eq_some h, hfound.1⟩

/-- No other entity has the uuid of the one that was found. -/
theorem isTaken_objectsGet (table : EntityTable) (uuid : String) :
    table.isTaken (table.objectsGet uuid) uuid = true ↔
      ¬ IsLiveUuid table uuid ∧ IsKnownUuid table uuid := by
  unfold EntityTable.isTaken
  rw [List.any_eq_true]
  cases hget : table.objectsGet uuid with
  | none =>
      rw [← objectsGet_eq_none_iff, IsKnownUuid, List.mem_map]
      simp [hget]
  | some entity =>
      obtain ⟨hmem, huuid⟩ := objectsGet_eq_some hget
      have hlive : IsLiveUuid table uuid := by
        by_contra hnot
        rw [objectsGet_eq_none_iff.mpr hnot] at hget
        cases hget
      refine iff_of_false ?_ fun h => h.1 hlive
      rintro ⟨other, hother, hsame⟩
      simp only [Bool.and_eq_true, decide_eq_true_eq] at hsame
      have heq : other = entity :=
        List.inj_on_of_nodup_map table.nodup hother hmem (hsame.1.trans huuid.symm)
      exact hsame.2 (by rw [heq]; rfl)

/-- The uuids after an insertion. -/
theorem insertEntity_spec {table table' : EntityTable} {uuid : String}
    {json : List (String × String)} (h : table.insertEntity uuid json = some table') :
    ∀ u, (IsLiveUuid table' u ↔ u = uuid ∨ IsLiveUuid table u) ∧
      (IsKnownUuid table' u ↔ u = uuid ∨ IsKnownUuid table u) := by
  unfold EntityTable.insertEntity at h
  split_ifs at h
  obtain rfl := Option.some.inj h
  intro u
  unfold IsLiveUuid IsKnownUuid
  constructor
  · simp only [List.mem_append, List.mem_singleton, or_and_right, exists_or, exists_eq_left]
    rw [or_comm, eq_comm]
    simp
  · rw [List.map_append, List.mem_append, List.map_singleton, List.mem_singleton, or_comm]

theorem insertEntity_eq_none_iff {table : EntityTable} {uuid : String}
    {json : List (String × String)} :
    table.insertEntity uuid json = none ↔ IsKnownUuid table uuid := by
  unfold EntityTable.insertEntity
  by_cases h : uuid ∈ table.rows.map StoredEntity.uuid
  · rw [dif_pos h]
    exact iff_of_true rfl h
  · rw [dif_neg h]
    exact iff_of_false (Option.some_ne_none _) h

/-- An update keeps the uuids. -/
theorem updateJson_spec (table : EntityTable) (uuid : String) (json : List (String × String))
    (u : String) :
    (IsLiveUuid (table.updateJson uuid json) u ↔ IsLiveUuid table u) ∧
      (IsKnownUuid (table.updateJson uuid json) u ↔ IsKnownUuid table u) := by
  have hsame : ∀ entity : StoredEntity,
      (if entity.uuid = uuid then { entity with json := json } else entity).uuid = entity.uuid ∧
      (if entity.uuid = uuid then { entity with json := json } else entity).deleted =
        entity.deleted := by
    intro entity
    split_ifs <;> exact ⟨rfl, rfl⟩
  unfold IsLiveUuid IsKnownUuid EntityTable.updateJson
  constructor
  · simp only [List.mem_map, exists_exists_and_eq_and, (hsame _).1, (hsame _).2]
  · simp only [List.map_map, List.mem_map, Function.comp_apply, (hsame _).1]

/-! ### The status of a row -/

section Runs
variable (env : ImportRuntime) (call : ImportCall)

/-- The serializer accepts the label and the properties. -/
def ValidData (data : ImportData) : Prop :=
  validateLabel env data.label = [] ∧ ∀ item ∈ data.data, item.2 ≠ none

open Classical in
/-- The status of a row in a dry run over the entities of `table`. -/
noncomputable def dryStatus (table : EntityTable) (uuid : Option String) (data : ImportData) :
    RowStatus :=
  if (∀ u ∈ uuid, ¬ IsLiveUuid table u) ∧ data.data = [] then .error
  else if ¬ ValidData env data then .error
  else if ∃ u ∈ uuid, IsLiveUuid table u then .updated
  else if ∃ u ∈ uuid, IsKnownUuid table u then .error
  else .created

open Classical in
/-- The status of a row in a real run: the database can refuse it. -/
noncomputable def realStatus (table : EntityTable) (uuid : Option String) (data : ImportData) :
    RowStatus :=
  if storableData env data = true then dryStatus env table uuid data else .error

/-- The names of the data of a row are properties of the list. -/
theorem validateData_eq_nil_iff {data : List (String × Option String)}
    (h : ∀ item ∈ data, item.1 ∈ call.properties) :
    validateData call.properties data = [] ↔ ∀ item ∈ data, item.2 ≠ none := by
  have hunknown : data.filter (fun item => item.1 ∉ call.properties) = [] := by
    rw [List.filter_eq_nil_iff]
    intro item hitem
    simpa using h item hitem
  unfold validateData
  rw [hunknown]
  by_cases hnulls : (data.filter fun item => item.2 = none).map Prod.fst = []
  · simp only [List.map_nil, ne_eq, not_true_eq_false, if_false, hnulls]
    rw [List.map_eq_nil_iff, List.filter_eq_nil_iff] at hnulls
    simpa using hnulls
  · simp only [List.map_nil, ne_eq, not_true_eq_false, if_false, hnulls, not_false_eq_true, if_true]
    refine iff_of_false (by simp) fun hall => hnulls ?_
    rw [List.map_eq_nil_iff, List.filter_eq_nil_iff]
    simpa using hall

/-- When the serializer accepts the data of a row. -/
theorem serializerErrors_eq_nil_iff (table : EntityTable) (uuid : Option String)
    {data : ImportData} (h : ∀ item ∈ data.data, item.1 ∈ call.properties) :
    serializerErrors env call.properties table (uuid.bind table.objectsGet) uuid data = [] ↔
      ValidData env data ∧ (¬ ∃ u ∈ uuid, ¬ IsLiveUuid table u ∧ IsKnownUuid table u) ∧
        ¬ (uuid.bind table.objectsGet = none ∧ data.data = []) := by
  have hempty : validateData call.properties data.data = [] ↔ ∀ item ∈ data.data, item.2 ≠ none :=
    validateData_eq_nil_iff call h
  have huuid : validateUuid table (uuid.bind table.objectsGet) uuid = [] ↔
      ¬ ∃ u ∈ uuid, ¬ IsLiveUuid table u ∧ IsKnownUuid table u := by
    unfold validateUuid
    cases uuid with
    | none => simp
    | some u =>
        have htaken := isTaken_objectsGet table u
        simp only [Option.any_some, Option.bind_some, Option.mem_some_iff, exists_eq_left',
          ← htaken]
        by_cases h : table.isTaken (table.objectsGet u) u = true
        · rw [if_pos h]
          exact iff_of_false (List.cons_ne_nil _ _) fun hnot => hnot h
        · rw [if_neg h]
          exact iff_of_true rfl h
  unfold serializerErrors ValidData
  rw [← hempty, ← huuid]
  by_cases hvalid : validateLabel env data.label ++ validateData call.properties data.data ++
      validateUuid table (uuid.bind table.objectsGet) uuid = []
  · rw [if_neg (not_not.mpr hvalid)]
    rw [List.append_eq_nil_iff, List.append_eq_nil_iff] at hvalid
    obtain ⟨⟨hlabel, hdata⟩, huuid⟩ := hvalid
    split_ifs with hnone
    · exact iff_of_false (by simp) fun hall => hall.2.2 hnone
    · exact iff_of_true rfl ⟨⟨hlabel, hdata⟩, huuid, hnone⟩
  · rw [if_pos hvalid]
    refine iff_of_false hvalid fun hall => hvalid ?_
    rw [hall.1.1, hall.1.2, hall.2.1]
    rfl

/-- The uuid finds no entity. -/
theorem existing_eq_none_iff {table : EntityTable} {uuid : Option String} :
    uuid.bind table.objectsGet = none ↔ ∀ u ∈ uuid, ¬ IsLiveUuid table u := by
  cases uuid with
  | none => simp
  | some u =>
      rw [Option.bind_some, objectsGet_eq_none_iff]
      simp

/-- A row is an error in a dry run: it has nothing to create an entity from, or the serializer
refuses it. -/
theorem dryStatus_eq_error {table : EntityTable} {uuid : Option String} {data : ImportData}
    (h : ((∀ u ∈ uuid, ¬ IsLiveUuid table u) ∧ data.data = []) ∨ ¬ ValidData env data ∨
      ∃ u ∈ uuid, ¬ IsLiveUuid table u ∧ IsKnownUuid table u) :
    dryStatus env table uuid data = .error := by
  unfold dryStatus
  by_cases hempty : (∀ u ∈ uuid, ¬ IsLiveUuid table u) ∧ data.data = []
  · rw [if_pos hempty]
  by_cases hvalid : ¬ ValidData env data
  · rw [if_neg hempty, if_pos hvalid]
  obtain ⟨u, hu, hnot, hknown⟩ := (h.resolve_left hempty).resolve_left hvalid
  have hlive : ¬ ∃ u ∈ uuid, IsLiveUuid table u := fun hlive =>
    hlive.elim fun u' hu' => hnot (Option.mem_unique hu hu'.1 ▸ hu'.2)
  rw [if_neg hempty, if_neg hvalid, if_neg hlive, if_pos ⟨u, hu, hknown⟩]

/-- A row is accepted in a dry run. -/
theorem dryStatus_of_accepted {table : EntityTable} {uuid : Option String} {data : ImportData}
    (hempty : ¬ ((∀ u ∈ uuid, ¬ IsLiveUuid table u) ∧ data.data = [])) (hvalid : ValidData env data)
    (hknown : ¬ ∃ u ∈ uuid, ¬ IsLiveUuid table u ∧ IsKnownUuid table u) :
    dryStatus env table uuid data =
      if uuid.bind table.objectsGet = none then .created else .updated := by
  unfold dryStatus
  rw [if_neg hempty, if_neg (not_not.mpr hvalid)]
  by_cases hnone : uuid.bind table.objectsGet = none
  · have hnot := existing_eq_none_iff.mp hnone
    rw [if_pos hnone, if_neg fun hlive => hlive.elim fun u hu => hnot u hu.1 hu.2, if_neg]
    exact fun h => h.elim fun u hu => hknown ⟨u, hu.1, hnot u hu.1, hu.2⟩
  · rw [if_neg hnone, if_pos]
    by_contra hlive
    exact hnone (existing_eq_none_iff.mpr fun u hu h => hlive ⟨u, hu, h⟩)

/-- What a row yields when it is an error in a dry run, and when it is not. -/
theorem importReadRow_cases (table : EntityTable) (index : Nat) (uuid : Option String)
    {data : ImportData} (h : ∀ item ∈ data.data, item.1 ∈ call.properties) :
    (dryStatus env table uuid data = .error ∧ ∃ text,
      importReadRow env call table index uuid data = (⟨index, .error, some text⟩, table)) ∨
    (dryStatus env table uuid data =
        (if uuid.bind table.objectsGet = none then .created else .updated) ∧
      (uuid.bind table.objectsGet = none → ∀ u ∈ uuid, ¬ IsKnownUuid table u) ∧
      importReadRow env call table index uuid data =
        if call.dryRun then (⟨index, dryStatus env table uuid data, none⟩, table)
        else
          (saveEntity env table index (uuid.bind table.objectsGet) uuid data).elim
            (⟨index, .error, some (env.errorText .database)⟩, table)
            fun table' => (⟨index, dryStatus env table uuid data, none⟩, table')) := by
  have herrors := serializerErrors_eq_nil_iff env call table uuid h
  by_cases hempty : uuid.bind table.objectsGet = none ∧ data.data = []
  · refine .inl ⟨dryStatus_eq_error env (.inl ?_), _, if_pos hempty⟩
    exact ⟨existing_eq_none_iff.mp hempty.1, hempty.2⟩
  by_cases hnil : serializerErrors env call.properties table (uuid.bind table.objectsGet) uuid
      data = []
  · obtain ⟨hvalid, hknown, -⟩ := herrors.mp hnil
    have hstatus := dryStatus_of_accepted env
      (fun h => hempty ⟨existing_eq_none_iff.mpr h.1, h.2⟩) hvalid hknown
    refine .inr ⟨hstatus, fun hnone u hu hmem => ?_, ?_⟩
    · exact hknown ⟨u, hu, existing_eq_none_iff.mp hnone u hu, hmem⟩
    · rw [hstatus]
      unfold importReadRow
      rw [if_neg hempty, if_neg (not_not.mpr hnil)]
      cases saveEntity env table index (uuid.bind table.objectsGet) uuid data <;> rfl
  · refine .inl ⟨dryStatus_eq_error env ?_, _, (if_neg hempty).trans (if_pos hnil)⟩
    rw [herrors] at hnil
    by_contra hnot
    obtain ⟨-, hnot⟩ := not_or.mp hnot
    obtain ⟨hvalid, hknown⟩ := not_or.mp hnot
    exact hnil ⟨not_not.mp hvalid, hknown, hempty⟩

/-- What a row of a dry run yields. -/
theorem importReadRow_dry (table : EntityTable) (index : Nat) (uuid : Option String)
    {data : ImportData} (h : ∀ item ∈ data.data, item.1 ∈ call.properties)
    (hdry : call.dryRun = true) :
    ∃ text, importReadRow env call table index uuid data =
      (⟨index, dryStatus env table uuid data, text⟩, table) := by
  rcases importReadRow_cases env call table index uuid h with ⟨hstatus, text, hrow⟩ | ⟨-, -, hrow⟩
  · exact ⟨some text, by rw [hrow, hstatus]⟩
  · exact ⟨none, by rw [hrow, if_pos hdry]⟩

/-- What a row of a real run yields, and the uuids after it. -/
theorem importReadRow_real (table : EntityTable) (index : Nat) (uuid : Option String)
    {data : ImportData} (h : ∀ item ∈ data.data, item.1 ∈ call.properties)
    (hreal : call.dryRun = false) (hfresh : uuid = none → ¬ IsKnownUuid table (env.newUuid index)) :
    ∃ text table', importReadRow env call table index uuid data =
        (⟨index, realStatus env table uuid data, text⟩, table') ∧
      ∀ u, (IsLiveUuid table' u ↔ IsLiveUuid table u ∨
          realStatus env table uuid data = .created ∧ u = uuid.getD (env.newUuid index)) ∧
        (IsKnownUuid table' u ↔ IsKnownUuid table u ∨
          realStatus env table uuid data = .created ∧ u = uuid.getD (env.newUuid index)) := by
  have hsame : realStatus env table uuid data ≠ .created →
      ∀ table' : EntityTable, (∀ u, (IsLiveUuid table' u ↔ IsLiveUuid table u) ∧
        (IsKnownUuid table' u ↔ IsKnownUuid table u)) →
      ∀ u, (IsLiveUuid table' u ↔ IsLiveUuid table u ∨
          realStatus env table uuid data = .created ∧ u = uuid.getD (env.newUuid index)) ∧
        (IsKnownUuid table' u ↔ IsKnownUuid table u ∨
          realStatus env table uuid data = .created ∧ u = uuid.getD (env.newUuid index)) := by
    intro hne table' hkeep u
    rw [(hkeep u).1, (hkeep u).2]
    simp [hne]
  rcases importReadRow_cases env call table index uuid h with
    ⟨hstatus, text, hrow⟩ | ⟨hstatus, hknown, hrow⟩
  · have herror : realStatus env table uuid data = .error := by
      unfold realStatus
      rw [hstatus, ite_self]
    refine ⟨some text, table, by rw [hrow, herror], ?_⟩
    exact hsame (by rw [herror]; simp) table fun u => ⟨Iff.rfl, Iff.rfl⟩
  · rw [hreal, if_neg Bool.false_ne_true] at hrow
    by_cases hstore : storableData env data = true
    · have hreal : realStatus env table uuid data = dryStatus env table uuid data := by
        unfold realStatus
        rw [if_pos hstore]
      unfold saveEntity at hrow
      rw [hstore] at hrow
      cases hexisting : uuid.bind table.objectsGet with
      | some entity =>
          rw [hexisting] at hrow
          rw [hexisting, if_neg (Option.some_ne_none _)] at hstatus
          refine ⟨none, _, by rw [hreal]; exact hrow, ?_⟩
          exact hsame (by rw [hreal, hstatus]; simp) _ (updateJson_spec table _ _)
      | none =>
          rw [hexisting] at hrow
          rw [hexisting, if_pos rfl] at hstatus
          cases hinsert : table.insertEntity (uuid.getD (env.newUuid index)) (createdJson data) with
          | none =>
              have hmem := insertEntity_eq_none_iff.mp hinsert
              cases uuid with
              | none => exact absurd hmem (hfresh rfl)
              | some u => exact absurd hmem (hknown hexisting u rfl)
          | some table' =>
              have hspec := insertEntity_spec hinsert
              refine ⟨none, table', ?_, fun u => ?_⟩
              · rw [hrow, hreal]
                show (table.insertEntity _ _).elim _ _ = _
                rw [hinsert]
                rfl
              · rw [(hspec u).1, (hspec u).2, hreal, hstatus]
                simp [or_comm]
    · have herror : realStatus env table uuid data = .error := by
        unfold realStatus
        rw [if_neg hstore]
      refine ⟨some (env.errorText .database), table, ?_, ?_⟩
      · rw [hrow, herror]
        unfold saveEntity
        rw [Bool.not_eq_true] at hstore
        rw [hstore]
        rfl
      · exact hsame (by rw [herror]; simp) table fun u => ⟨Iff.rfl, Iff.rfl⟩

/-! ### A row in both runs -/

/-- The row that is read: its uuid and its data. -/
def readRow (fieldnames : List String) (cells : ReaderRow) :
    Except PyError (Option String × ImportData) := do
  let data ← importData env call fieldnames cells
  let uuid ← lookupUuid env data
  return (uuid, data)

theorem importRow_eq (fieldnames : List String) (table : EntityTable) (index : Nat)
    (cells : ReaderRow) :
    importRow env call fieldnames table index cells =
      (readRow env call fieldnames cells).map fun row =>
        importReadRow env call table index row.1 row.2 := by
  unfold importRow readRow
  cases importData env call fieldnames cells with
  | error e => rfl
  | ok data =>
      show (lookupUuid env data >>= _) = ((lookupUuid env data >>= _) : Except _ _).map _
      cases lookupUuid env data <;> rfl

/-- Only properties of the list are read. -/
theorem mem_properties_of_readRow {fieldnames : List String} {cells : ReaderRow}
    {row : Option String × ImportData} (h : readRow env call fieldnames cells = .ok row) :
    ∀ item ∈ row.2.data, item.1 ∈ call.properties := by
  simp only [readRow, bind_eq_ok, pure_eq_ok] at h
  obtain ⟨data, hdata, uuid, -, rfl⟩ := h
  simp only [importData, bind_eq_ok] at hdata
  obtain ⟨cells, -, hdata⟩ := hdata
  split at hdata
  · exact absurd hdata throw_ne_ok
  · obtain rfl := pure_eq_ok.mp hdata
    intro item hitem
    obtain ⟨source, -, hsome⟩ := List.mem_filterMap.mp hitem
    simp only at hsome
    split_ifs at hsome with hkey hproperty hempty
    exact Option.some.inj hsome ▸ hproperty

/-- The entities of a real run after some rows: those of the dry run, and what the rows have
created. `named` are the uuids of the file. -/
structure Grown (named : String → Prop) (base table : EntityTable) (created : List String)
    (index : Nat) : Prop where
  live : ∀ u, named u → (IsLiveUuid table u ↔ IsLiveUuid base u ∨ u ∈ created)
  known : ∀ u, named u → (IsKnownUuid table u ↔ IsKnownUuid base u ∨ u ∈ created)
  fresh : ∀ k, index ≤ k → ¬ IsKnownUuid table (env.newUuid k)
  new : ∀ u ∈ created, ¬ IsKnownUuid base u

/-- `uuid.uuid4()` returns no uuid of the list or of the file, and none twice. -/
structure FreshUuids (named : String → Prop) (base : EntityTable) : Prop where
  inj : ∀ j k, env.newUuid j = env.newUuid k → j = k
  not_known : ∀ k, ¬ IsKnownUuid base (env.newUuid k)
  not_named : ∀ k, ¬ named (env.newUuid k)

/-- The status depends on the presence of the uuid only. -/
theorem dryStatus_congr {base table : EntityTable} {uuid : Option String} (data : ImportData)
    (hlive : ∀ u ∈ uuid, (IsLiveUuid table u ↔ IsLiveUuid base u))
    (hknown : ∀ u ∈ uuid, (IsKnownUuid table u ↔ IsKnownUuid base u)) :
    dryStatus env table uuid data = dryStatus env base uuid data := by
  have hnone : (∀ u ∈ uuid, ¬ IsLiveUuid table u) ↔ ∀ u ∈ uuid, ¬ IsLiveUuid base u :=
    forall₂_congr fun u hu => not_congr (hlive u hu)
  have hsome : (∃ u ∈ uuid, IsLiveUuid table u) ↔ ∃ u ∈ uuid, IsLiveUuid base u :=
    exists_congr fun u => and_congr_right fun hu => hlive u hu
  have hmem : (∃ u ∈ uuid, IsKnownUuid table u) ↔ ∃ u ∈ uuid, IsKnownUuid base u :=
    exists_congr fun u => and_congr_right fun hu => hknown u hu
  unfold dryStatus
  by_cases hempty : (∀ u ∈ uuid, ¬ IsLiveUuid base u) ∧ data.data = []
  · rw [if_pos hempty, if_pos ⟨hnone.mpr hempty.1, hempty.2⟩]
  rw [if_neg hempty, if_neg fun h => hempty ⟨hnone.mp h.1, h.2⟩]
  by_cases hvalid : ¬ ValidData env data
  · rw [if_pos hvalid, if_pos hvalid]
  rw [if_neg hvalid, if_neg hvalid]
  by_cases hfound : ∃ u ∈ uuid, IsLiveUuid base u
  · rw [if_pos hfound, if_pos (hsome.mpr hfound)]
  rw [if_neg hfound, if_neg fun h => hfound (hsome.mp h)]
  by_cases htaken : ∃ u ∈ uuid, IsKnownUuid base u
  · rw [if_pos htaken, if_pos (hmem.mpr htaken)]
  · rw [if_neg htaken, if_neg fun h => htaken (hmem.mp h)]

/-- A uuid that no entity has. -/
theorem dryStatus_of_new {base : EntityTable} {u : String} (data : ImportData)
    (h : ¬ IsKnownUuid base u) :
    (dryStatus env base (some u) data = .created ∧ ValidData env data ∧ data.data ≠ []) ∨
    (dryStatus env base (some u) data = .error ∧ ¬ (ValidData env data ∧ data.data ≠ [])) := by
  have hlive : ¬ IsLiveUuid base u := fun hlive => h (isKnownUuid_of_isLive hlive)
  unfold dryStatus
  by_cases hempty : data.data = []
  · refine .inr ⟨?_, fun hne => hne.2 hempty⟩
    simp [hempty, hlive]
  · by_cases hvalid : ValidData env data
    · refine .inl ⟨?_, hvalid, hempty⟩
      simp [hempty, hvalid, hlive, h]
    · refine .inr ⟨?_, fun hne => hvalid hne.1⟩
      simp [hempty, hvalid]

/-- A uuid of an entity that is not deleted. -/
theorem dryStatus_of_live {table : EntityTable} {u : String} (data : ImportData)
    (h : IsLiveUuid table u) :
    (dryStatus env table (some u) data = .updated ∧ ValidData env data) ∨
    (dryStatus env table (some u) data = .error ∧ ¬ ValidData env data) := by
  unfold dryStatus
  by_cases hvalid : ValidData env data
  · refine .inl ⟨?_, hvalid⟩
    simp [hvalid, h]
  · refine .inr ⟨?_, hvalid⟩
    simp [hvalid, h]

/-- No entity has the uuid of a row that is created. -/
theorem not_isKnownUuid_of_created {base : EntityTable} {uuid : Option String} {data : ImportData}
    (h : dryStatus env base uuid data = .created) : ∀ u ∈ uuid, ¬ IsKnownUuid base u := by
  intro u hu hknown
  obtain rfl : uuid = some u := hu
  by_cases hlive : IsLiveUuid base u
  · rcases dryStatus_of_live env data hlive with ⟨hstatus, -⟩ | ⟨hstatus, -⟩
    · exact absurd (hstatus.symm.trans h) (by simp)
    · exact absurd (hstatus.symm.trans h) (by simp)
  · rw [dryStatus_eq_error env (.inr (.inr ⟨u, rfl, hlive, hknown⟩))] at h
    cases h

variable {env}

/-- A row has the same status in both runs exactly when the database takes what is accepted, and
the row does not update what an earlier row has created. -/
theorem status_agree_iff {named : String → Prop} {base table : EntityTable}
    {created : List String} {index : Nat} (hgrown : Grown env named base table created index)
    {uuid : Option String} (data : ImportData) (hnamed : ∀ u ∈ uuid, named u) :
    dryStatus env base uuid data = realStatus env table uuid data ↔
      (dryStatus env base uuid data ≠ .error → storableData env data = true) ∧
        ∀ u ∈ uuid, u ∈ created → ¬ (ValidData env data ∧ storableData env data = true) := by
  unfold realStatus
  by_cases hcreated : ∃ u ∈ uuid, u ∈ created
  · obtain ⟨u, hu, hmem⟩ := hcreated
    obtain rfl : uuid = some u := hu
    have hlive : IsLiveUuid table u := (hgrown.live u (hnamed u rfl)).mpr (.inr hmem)
    have hagain : (∀ u' ∈ some u, u' ∈ created →
        ¬ (ValidData env data ∧ storableData env data = true)) ↔
          ¬ (ValidData env data ∧ storableData env data = true) :=
      ⟨fun h => h u rfl hmem, fun h _ _ _ => h⟩
    rw [hagain]
    rcases dryStatus_of_new env data (hgrown.new u hmem) with ⟨hdry, hvalid, -⟩ | ⟨hdry, hnot⟩
    · -- The dry run creates what the real run updates.
      have hreal := (dryStatus_of_live env data hlive).resolve_right fun h => h.2 hvalid
      rw [hdry, hreal.1]
      by_cases hstore : storableData env data = true <;> simp [hstore, hvalid]
    · rcases dryStatus_of_live env data hlive with ⟨hreal, hvalid⟩ | ⟨hreal, hvalid⟩
      · rw [hdry, hreal]
        by_cases hstore : storableData env data = true <;> simp [hstore, hvalid]
      · rw [hdry, hreal]
        simp [hvalid]
  · have hsame : dryStatus env table uuid data = dryStatus env base uuid data := by
      refine dryStatus_congr env data (fun u hu => ?_) fun u hu => ?_
      · rw [hgrown.live u (hnamed u hu), or_iff_left fun hmem => hcreated ⟨u, hu, hmem⟩]
      · rw [hgrown.known u (hnamed u hu), or_iff_left fun hmem => hcreated ⟨u, hu, hmem⟩]
    rw [hsame, and_iff_left fun u hu hmem => absurd ⟨u, hu, hmem⟩ hcreated]
    by_cases hstore : storableData env data = true
    · simp [hstore]
    · simp [hstore]

/-! ### Both runs -/

/-- The index and the status of a row. -/
def RowResult.key (result : RowResult) : Nat × RowStatus :=
  (result.index, result.status)

/-- Both runs have the same indices and statuses, and one result for each of `count` rows. -/
def SameResults (dry real : ImportRun) (count : Nat) : Prop :=
  dry.results.map RowResult.key = real.results.map RowResult.key ∧
    dry.results.length = count ∧ real.results.length = count

variable (env) (fieldnames : List String)

/-- The row has this uuid, and is an update of the entity that has it. -/
def Repeats (u : String) (cells : ReaderRow) : Prop :=
  ∃ data, readRow env call fieldnames cells = .ok (some u, data) ∧ ValidData env data ∧
    storableData env data = true

/-- The first row creates an entity that the later row updates. -/
def Clash (base : EntityTable) (first later : ReaderRow) : Prop :=
  ∃ u data, readRow env call fieldnames first = .ok (some u, data) ∧ ¬ IsKnownUuid base u ∧
    ValidData env data ∧ data.data ≠ [] ∧ Repeats env call fieldnames u later

/-- The data can create an entity or update one: there is an entity to update or a property, the
serializer accepts the label and the properties, and the uuid is not that of a deleted entity. -/
def Accepted (base : EntityTable) (uuid : Option String) (data : ImportData) : Prop :=
  ((∃ u ∈ uuid, IsLiveUuid base u) ∨ data.data ≠ []) ∧ ValidData env data ∧
    ∀ u ∈ uuid, IsKnownUuid base u → IsLiveUuid base u

theorem accepted_iff {base : EntityTable} {uuid : Option String} {data : ImportData} :
    Accepted env base uuid data ↔ dryStatus env base uuid data ≠ .error := by
  constructor
  · rintro ⟨hsome, hvalid, hlive⟩
    rw [dryStatus_of_accepted env ?_ hvalid ?_]
    · split_ifs <;> simp
    · rintro ⟨hnot, hempty⟩
      exact hsome.elim (fun h => h.elim fun u hu => hnot u hu.1 hu.2) fun h => h hempty
    · rintro ⟨u, hu, hnot, hknown⟩
      exact hnot (hlive u hu hknown)
  · intro hstatus
    refine ⟨?_, ?_, fun u hu hknown => ?_⟩
    · by_contra h
      obtain ⟨hnone, hempty⟩ := not_or.mp h
      refine hstatus (dryStatus_eq_error env (.inl ⟨fun u hu hlive => hnone ⟨u, hu, hlive⟩, ?_⟩))
      exact not_not.mp hempty
    · by_contra h
      exact hstatus (dryStatus_eq_error env (.inr (.inl h)))
    · by_contra h
      exact hstatus (dryStatus_eq_error env (.inr (.inr ⟨u, hu, h, hknown⟩)))

/-- The database takes the row, if it can create an entity or update one. -/
def Stored (base : EntityTable) (cells : ReaderRow) : Prop :=
  ∀ row, readRow env call fieldnames cells = .ok row →
    Accepted env base row.1 row.2 → storableData env row.2 = true

/-- A row that clashes is created in the dry run. -/
theorem clash_iff {base : EntityTable} {first later : ReaderRow} {row : Option String × ImportData}
    (hread : readRow env call fieldnames first = .ok row) :
    Clash env call fieldnames base first later ↔
      dryStatus env base row.1 row.2 = .created ∧
        ∃ u ∈ row.1, Repeats env call fieldnames u later := by
  unfold Clash
  constructor
  · rintro ⟨u, data, hread', hknown, hvalid, hne, hrepeats⟩
    obtain rfl : row = (some u, data) := Except.ok.inj (hread.symm.trans hread')
    refine ⟨?_, u, rfl, hrepeats⟩
    exact ((dryStatus_of_new env data hknown).resolve_right fun h => h.2 ⟨hvalid, hne⟩).1
  · rintro ⟨hstatus, u, hu, hrepeats⟩
    obtain ⟨uuid, data⟩ := row
    obtain rfl : uuid = some u := hu
    have hknown := not_isKnownUuid_of_created env hstatus u rfl
    rcases dryStatus_of_new env data hknown with ⟨-, hvalid, hne⟩ | ⟨h, -⟩
    · exact ⟨u, data, hread, hknown, hvalid, hne, hrepeats⟩
    · exact absurd (h.symm.trans hstatus) (by simp)

theorem importRow_of_read {table : EntityTable} (index : Nat) {cells : ReaderRow}
    {row : Option String × ImportData} {out : RowResult × EntityTable}
    (hread : readRow env call fieldnames cells = .ok row)
    (hout : importReadRow env call table index row.1 row.2 = out) :
    importRow env call fieldnames table index cells = .ok out := by
  rw [importRow_eq, hread]
  exact congrArg Except.ok hout

/-- The iteration, after its first row. -/
theorem importRows_cons_ok (rows : List ReaderRow) {table table' : EntityTable} {index : Nat}
    {cells : ReaderRow} {result : RowResult}
    (h : importRow env call fieldnames table index cells = .ok (result, table')) :
    (importRows env call fieldnames table index (cells :: rows)).results =
      result :: (importRows env call fieldnames table' (index + 1) rows).results := by
  rw [importRows, h]

theorem importRows_cons_error {table : EntityTable} {index : Nat} {cells : ReaderRow}
    {rows : List ReaderRow} {e : PyError}
    (h : importRow env call fieldnames table index cells = .error e) :
    (importRows env call fieldnames table index (cells :: rows)).results = [] := by
  rw [importRows, h]

/-- The call as a dry run, and as a real one. -/
def dryCall : ImportCall := { call with dryRun := true }

def realCall : ImportCall := { call with dryRun := false }

variable {env}

/-- The entities of the real run after one more row. -/
theorem Grown.row {named : String → Prop} {base table table' : EntityTable}
    {created : List String} {index : Nat} (hfresh : FreshUuids env named base)
    (hgrown : Grown env named base table created index) {uuid : Option String}
    {data : ImportData} (hnamed : ∀ u ∈ uuid, named u)
    (hnew : realStatus env table uuid data = .created → ∀ u ∈ uuid, ¬ IsKnownUuid base u)
    (htable : ∀ u, (IsLiveUuid table' u ↔ IsLiveUuid table u ∨
        realStatus env table uuid data = .created ∧ u = uuid.getD (env.newUuid index)) ∧
      (IsKnownUuid table' u ↔ IsKnownUuid table u ∨
        realStatus env table uuid data = .created ∧ u = uuid.getD (env.newUuid index))) :
    Grown env named base table'
      (if realStatus env table uuid data = .created then uuid.toList ++ created else created)
      (index + 1) := by
  have hmem : ∀ u, named u →
      (u ∈ (if realStatus env table uuid data = .created then uuid.toList ++ created
        else created) ↔ u ∈ created ∨
          realStatus env table uuid data = .created ∧ u = uuid.getD (env.newUuid index)) := by
    intro u hu
    split_ifs with hcreated
    · cases uuid with
      | none =>
          have hne : u ≠ env.newUuid index := fun heq => hfresh.not_named index (heq ▸ hu)
          simp [hne]
      | some v => simp [hcreated, or_comm]
    · simp [hcreated]
  refine ⟨fun u hu => ?_, fun u hu => ?_, fun k hk => ?_, fun u hu => ?_⟩
  · rw [(htable u).1, hgrown.live u hu, hmem u hu, or_assoc]
  · rw [(htable u).2, hgrown.known u hu, hmem u hu, or_assoc]
  · rw [(htable _).2, not_or]
    refine ⟨hgrown.fresh k (by omega), ?_⟩
    rintro ⟨-, heq⟩
    cases uuid with
    | none =>
        have := hfresh.inj _ _ heq
        omega
    | some v => exact hfresh.not_named k (heq ▸ hnamed v rfl)
  · split_ifs at hu with hcreated
    · rcases List.mem_append.mp hu with hu | hu
      · exact hnew hcreated u (Option.mem_toList.mp hu)
      · exact hgrown.new u hu
    · exact hgrown.new u hu

/-- When both runs have the same results over some rows. -/
theorem sameResults_importRows_iff {named : String → Prop} {base : EntityTable}
    (hfresh : FreshUuids env named base) (rows : List ReaderRow) {table : EntityTable}
    {created : List String} {index : Nat} (hgrown : Grown env named base table created index)
    (hnamed : ∀ cells ∈ rows, ∀ row, readRow env call fieldnames cells = .ok row →
      ∀ u ∈ row.1, named u) :
    SameResults (importRows env (dryCall call) fieldnames base index rows)
        (importRows env (realCall call) fieldnames table index rows) rows.length ↔
      (∀ cells ∈ rows, ∃ row, readRow env call fieldnames cells = .ok row) ∧
      (∀ cells ∈ rows, Stored env call fieldnames base cells) ∧
      rows.Pairwise (fun first later => ¬ Clash env call fieldnames base first later) ∧
      ∀ cells ∈ rows, ∀ u ∈ created, ¬ Repeats env call fieldnames u cells := by
  induction rows generalizing table created index with
  | nil =>
      refine iff_of_true ⟨rfl, rfl, rfl⟩ ⟨?_, ?_, List.Pairwise.nil, ?_⟩
      all_goals
        intro cells hcells
        exact absurd hcells List.not_mem_nil
  | cons cells rows ih =>
      rw [List.forall_mem_cons] at hnamed
      cases hread : readRow env call fieldnames cells with
      | error e =>
          have hdry : (importRows env (dryCall call) fieldnames base index
              (cells :: rows)).results = [] := by
            refine importRows_cons_error env (dryCall call) fieldnames (e := e) ?_
            rw [importRow_eq]
            show (readRow env call fieldnames cells).map _ = _
            rw [hread]
            rfl
          refine iff_of_false (fun h => ?_) fun h => ?_
          · have hlength := h.2.1
            rw [hdry] at hlength
            cases hlength
          · obtain ⟨row, hrow⟩ := h.1 cells List.mem_cons_self
            rw [hread] at hrow
            cases hrow
      | ok row =>
          have hproperties := mem_properties_of_readRow env call hread
          obtain ⟨dryText, hdryRow⟩ :=
            importReadRow_dry env (dryCall call) base index row.1 hproperties rfl
          obtain ⟨realText, table', hrealRow, htable⟩ :=
            importReadRow_real env (realCall call) table index row.1 hproperties rfl
              fun _ => hgrown.fresh index (Nat.le_refl index)
          have hdry := importRows_cons_ok env (dryCall call) fieldnames rows
            (importRow_of_read env (dryCall call) fieldnames index hread hdryRow)
          have hreal := importRows_cons_ok env (realCall call) fieldnames rows
            (importRow_of_read env (realCall call) fieldnames index hread hrealRow)
          have hsame : SameResults (importRows env (dryCall call) fieldnames base index
                (cells :: rows))
              (importRows env (realCall call) fieldnames table index (cells :: rows))
              (cells :: rows).length ↔
              dryStatus env base row.1 row.2 = realStatus env table row.1 row.2 ∧
                SameResults (importRows env (dryCall call) fieldnames base (index + 1) rows)
                  (importRows env (realCall call) fieldnames table' (index + 1) rows)
                  rows.length := by
            unfold SameResults
            rw [hdry, hreal]
            simp [RowResult.key, and_assoc]
          have hagree := status_agree_iff hgrown row.2 (hnamed.1 row hread)
          by_cases heq : dryStatus env base row.1 row.2 = realStatus env table row.1 row.2
          · have hgrown' := hgrown.row hfresh (hnamed.1 row hread)
              (fun hcreated => not_isKnownUuid_of_created env (heq.trans hcreated)) htable
            rw [hsame, and_iff_right heq, ih hgrown' hnamed.2]
            constructor
            · rintro ⟨hreadable, hstored, hpairs, hcreated⟩
              refine ⟨List.forall_mem_cons.mpr ⟨⟨row, hread⟩, hreadable⟩,
                List.forall_mem_cons.mpr ⟨?_, hstored⟩,
                List.pairwise_cons.mpr ⟨fun later hlater hclash => ?_, hpairs⟩,
                List.forall_mem_cons.mpr ⟨?_, fun later hlater u hu => ?_⟩⟩
              · intro row' hread'
                obtain rfl := Except.ok.inj (hread.symm.trans hread')
                exact fun haccepted => (hagree.mp heq).1 ((accepted_iff env).mp haccepted)
              · obtain ⟨hstatus, u, hu, hrepeats⟩ := (clash_iff env call fieldnames hread).mp hclash
                refine hcreated later hlater u ?_ hrepeats
                rw [if_pos (heq.symm.trans hstatus)]
                exact List.mem_append_left _ (Option.mem_toList.mpr hu)
              · rintro u hu ⟨data, hread', hvalid, hstore⟩
                obtain rfl := Except.ok.inj (hread.symm.trans hread')
                exact (hagree.mp heq).2 u rfl hu ⟨hvalid, hstore⟩
              · refine hcreated later hlater u ?_
                split_ifs
                · exact List.mem_append_right _ hu
                · exact hu
            · rintro ⟨hreadable, hstored, hpairs, hcreated⟩
              rw [List.forall_mem_cons] at hreadable hstored hcreated
              rw [List.pairwise_cons] at hpairs
              refine ⟨hreadable.2, hstored.2, hpairs.2, fun later hlater u hu hrepeats => ?_⟩
              split_ifs at hu with hstatus
              · rcases List.mem_append.mp hu with hu | hu
                · exact hpairs.1 later hlater ((clash_iff env call fieldnames hread).mpr
                    ⟨heq.trans hstatus, u, Option.mem_toList.mp hu, hrepeats⟩)
                · exact hcreated.2 later hlater u hu hrepeats
              · exact hcreated.2 later hlater u hu hrepeats
          · refine iff_of_false (fun h => heq (hsame.mp h).1) ?_
            rintro ⟨-, hstored, -, hcreated⟩
            have hstored := hstored cells List.mem_cons_self row hread
            rw [accepted_iff] at hstored
            refine heq (hagree.mpr ⟨hstored, ?_⟩)
            rintro u hu hmem ⟨hvalid, hstore⟩
            refine hcreated cells List.mem_cons_self u hmem ⟨row.2, ?_, hvalid, hstore⟩
            rw [hread]
            exact congrArg Except.ok (Prod.ext hu rfl)

/-! ### The import -/

variable (env)

/-- A row of the file reads this uuid. -/
def Named (file : CsvFile) (u : String) : Prop :=
  ∃ cells ∈ file.rows, ∃ row, readRow env call file.fieldnames cells = .ok row ∧ u ∈ row.1

/-- Both runs yield one result for each row, with the same indices and statuses. What a run raises
would lose the rows behind it. -/
def DryRunTells (table : EntityTable) (file : CsvFile) : Prop :=
  SameResults (importEntitiesFromCsv env (dryCall call) table file)
    (importEntitiesFromCsv env (realCall call) table file) file.rows.length

/-- The entity list has properties; each row can be read; the database takes each row that is
accepted; and no row updates what an earlier row creates. -/
structure Foreseen (table : EntityTable) (file : CsvFile) : Prop where
  properties : file.rows ≠ [] → call.properties ≠ []
  readable : ∀ cells ∈ file.rows, ∃ row, readRow env call file.fieldnames cells = .ok row
  stored : ∀ cells ∈ file.rows, Stored env call file.fieldnames table cells
  distinct : file.rows.Pairwise fun first later =>
    ¬ Clash env call file.fieldnames table first later

/-- The dry run tells what the real run does exactly when the file is foreseen. -/
theorem dryRunTells_iff (table : EntityTable) (file : CsvFile) (hlabel : file.hasLabel env call)
    (hfresh : FreshUuids env (Named env call file) table) :
    DryRunTells env call table file ↔ Foreseen env call table file := by
  unfold DryRunTells importEntitiesFromCsv
  by_cases hempty : call.properties = []
  · rw [if_pos (.inl hempty), if_pos (.inl hempty)]
    constructor
    · rintro ⟨-, hlength, -⟩
      have hrows : file.rows = [] := List.eq_nil_of_length_eq_zero hlength.symm
      refine ⟨fun hne => absurd hrows hne, ?_, ?_, ?_⟩
      all_goals
        rw [hrows]
      · exact fun cells hcells => absurd hcells List.not_mem_nil
      · exact fun cells hcells => absurd hcells List.not_mem_nil
      · exact List.Pairwise.nil
    · intro h
      have hrows : file.rows = [] := by
        by_contra hne
        exact h.properties hne hempty
      rw [hrows]
      exact ⟨rfl, rfl, rfl⟩
  · have hdry : ¬ ((dryCall call).properties = [] ∨ ¬ file.hasLabel env (dryCall call)) := fun h =>
      h.elim hempty fun h => h hlabel
    have hreal : ¬ ((realCall call).properties = [] ∨ ¬ file.hasLabel env (realCall call)) :=
      fun h => h.elim hempty fun h => h hlabel
    rw [if_neg hdry, if_neg hreal]
    have hgrown : Grown env (Named env call file) table table [] 2 :=
      ⟨by simp, by simp, fun k _ => hfresh.not_known k, by simp⟩
    have hrows := sameResults_importRows_iff call file.fieldnames hfresh file.rows hgrown
      fun cells hcells row hrow u hu => ⟨cells, hcells, row, hrow, hu⟩
    refine hrows.trans ⟨fun h => ⟨fun _ => hempty, h.1, h.2.1, h.2.2.1⟩, fun h => ?_⟩
    exact ⟨h.readable, h.stored, h.distinct, by simp⟩

end Runs

/-! ### Trees -/

/-- A runtime in which every text of the length of a UUID is one. -/
def treeRuntime : ImportRuntime where
  lower text := text
  parseUuid text := if text.length = 36 then some text else none
  permitted _ := true
  storable _ := true
  newUuid k := String.ofList (List.replicate k '0')
  errorText _ := "error"

/-- An import of trees. -/
def treeImport : ImportCall where
  properties := ["species"]

/-- No trees. -/
def noTrees : EntityTable where
  rows := []
  nodup := by simp

/-- A file of trees. -/
def treeFile (rows : List (List String)) : CsvFile where
  fieldnames := ["label", "species", "uuid"]
  rows := rows.map .ok

/-- The uuid of a tree. -/
def treeUuid : String := "dbee4c32-a922-451c-9df7-42f40bf78f48"

theorem readRow_tree : readRow treeRuntime treeImport ["label", "species", "uuid"]
    (.ok ["300cm", "mora", treeUuid]) =
      .ok (some treeUuid, ⟨"300cm", [("species", some "mora")], some treeUuid⟩) := by
  decide +kernel

theorem freshUuids_tree : FreshUuids treeRuntime
    (Named treeRuntime treeImport (treeFile [["300cm", "mora", treeUuid]])) noTrees := by
  refine ⟨fun j k h => ?_, fun k h => absurd h List.not_mem_nil, fun k h => ?_⟩
  · have hlength := congrArg (fun text => text.toList.length) h
    simpa [treeRuntime] using hlength
  · obtain ⟨cells, hcells, row, hrow, hu⟩ := h
    obtain rfl : cells = .ok ["300cm", "mora", treeUuid] := List.mem_singleton.mp hcells
    obtain rfl := Except.ok.inj (readRow_tree.symm.trans hrow)
    have hlist : treeUuid.toList = (String.ofList (List.replicate k '0')).toList :=
      congrArg String.toList (Option.some.inj hu)
    have hmem : 'd' ∈ (String.ofList (List.replicate k '0')).toList := by
      rw [← hlist]
      decide
    rw [String.toList_ofList] at hmem
    exact absurd (List.eq_of_mem_replicate hmem) (by decide)

theorem dryRunTells_iff_tree :
    DryRunTells treeRuntime treeImport noTrees (treeFile [["300cm", "mora", treeUuid]]) ↔
      Foreseen treeRuntime treeImport noTrees (treeFile [["300cm", "mora", treeUuid]]) :=
  dryRunTells_iff treeRuntime treeImport noTrees (treeFile [["300cm", "mora", treeUuid]])
    (by decide +kernel) freshUuids_tree

/-- A new uuid that occurs twice is created twice in a dry run, and updated in a real one. After a
uuid that is none, and after a row with a cell too many, there is no result. -/
theorem not_dryRunTells_again :
    (importEntitiesFromCsv treeRuntime (dryCall treeImport) noTrees
        (treeFile [["300cm", "mora", treeUuid], ["200cm", "mora", treeUuid]])).results.map
          RowResult.key = [(2, .created), (3, .created)] ∧
    (importEntitiesFromCsv treeRuntime (realCall treeImport) noTrees
        (treeFile [["300cm", "mora", treeUuid], ["200cm", "mora", treeUuid]])).results.map
          RowResult.key = [(2, .created), (3, .updated)] ∧
    (∀ call ∈ [dryCall treeImport, realCall treeImport],
      ∀ row ∈ [["300cm", "mora", "17"], ["300cm", "mora", "", ""]],
        (importEntitiesFromCsv treeRuntime call noTrees
          (treeFile [row, ["200cm", "mora", treeUuid]])).results = []) ∧
    ¬ DryRunTells treeRuntime treeImport noTrees
      (treeFile [["300cm", "mora", treeUuid], ["200cm", "mora", treeUuid]]) := by
  refine ⟨by decide +kernel, by decide +kernel, by decide +kernel, ?_⟩
  rintro ⟨hsame, -, -⟩
  exact absurd hsame (by decide +kernel)

end Onadata.Proofs
