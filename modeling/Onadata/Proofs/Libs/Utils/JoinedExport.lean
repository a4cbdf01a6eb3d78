import Mathlib.Logic.Function.Basic
import Onadata.Lib.ExceptList
import Onadata.Proofs.Libs.Utils.RepeatItems

/-!
# `Onadata.Proofs.Libs.Utils.JoinedExport`: the output of a dict

`dict_to_joined_export` refines the list of repeat items: what it puts out under the key of a
repeat are the rows of the items in that table, in order, and its counters are the counters
after these items.
-/

set_option autoImplicit false

namespace Onadata.Proofs

open Onadata.Lib

variable {form : RepeatForm} {depth : Nat}

/-! ### The cells -/

theorem joinTexts_ok (separator : String) {items : List PyValue}
    (h : ∀ item ∈ items, ∃ text, item = .str text) : ∃ cell, joinTexts separator items = .ok cell := by
  have htexts : ∃ texts : List String, items = texts.map .str := by
    induction items with
    | nil => exact ⟨[], rfl⟩
    | cons item rest ih =>
        obtain ⟨⟨text, rfl⟩, hrest⟩ := List.forall_mem_cons.mp h
        obtain ⟨texts, rfl⟩ := ih hrest
        exact ⟨text :: texts, rfl⟩
  obtain ⟨texts, rfl⟩ := htexts
  refine ⟨.str (separator.intercalate texts), ?_⟩
  unfold joinTexts
  rw [bind_eq_ok]
  refine ⟨texts, ?_, rfl⟩
  rw [mapM_eq_ok, List.forall₂_map_left_iff, List.forall₂_same]
  exact fun _ _ => rfl

theorem dictItems_ok (attachments : List Cells) :
    dictItems (.list (attachments.map .dict)) = .ok attachments := by
  unfold dictItems
  rw [mapM_eq_ok, List.forall₂_map_left_iff, List.forall₂_same]
  exact fun _ _ => rfl

theorem noteTexts_ok {notes : List PyValue}
    (h : ∀ note ∈ notes, ∃ text, noteText note = .ok (.str text)) :
    ∃ texts, notes.mapM noteText = .ok texts ∧ ∀ item ∈ texts, ∃ text, item = .str text := by
  induction notes with
  | nil => exact ⟨[], rfl, by simp⟩
  | cons note rest ih =>
      obtain ⟨⟨text, htext⟩, hrest⟩ := List.forall_mem_cons.mp h
      obtain ⟨texts, htexts, hall⟩ := ih hrest
      refine ⟨.str text :: texts, ?_, List.forall_mem_cons.mpr ⟨⟨text, rfl⟩, hall⟩⟩
      rw [List.mapM_cons, htext, htexts]
      rfl

/-- The attachments of a dict are a list of dicts. -/
theorem DictFits.attachments {items : Cells} (h : DictFits form depth items) {value : PyValue}
    (hvalue : Dict.get? items "_attachments" = some value) :
    ∃ attachments : List Cells, value = .list (attachments.map .dict) :=
  (h.metadata _ (Dict.mem_of_get? hvalue)).attachments rfl

/-- The cell of an answer can be made. -/
theorem exportCell_ok (env : JoinedExport) {record data : Cells} {recordDepth : Nat}
    (hrecord : DictFits form recordDepth record) (hdata : DictFits form depth data)
    {item : String × PyValue} (hitem : item ∈ data) :
    ∃ cell, env.exportCell record data item.1 item.2 = .ok cell := by
  have htyped := hdata.metadata item hitem
  unfold JoinedExport.exportCell
  split
  · rename_i hkey
    obtain ⟨tags, hvalue⟩ := htyped.tags hkey
    rw [hvalue]
    exact joinTexts_ok "," (by simp)
  split
  · rename_i hkey
    obtain ⟨notes, hvalue, hnotes⟩ := htyped.notes hkey
    obtain ⟨texts, htexts, hall⟩ := noteTexts_ok hnotes
    obtain ⟨cell, hcell⟩ := joinTexts_ok "\r\n" hall
    refine ⟨cell, ?_⟩
    rw [hvalue]
    show (notes.mapM noteText >>= fun texts => joinTexts "\r\n" texts) = .ok cell
    rw [htexts]
    exact hcell
  · unfold JoinedExport.getValueOrAttachmentUri
    split
    · -- The attachments are those of the dict, or else those of the record.
      have hlist : ∀ value, (Dict.get? data "_attachments").or
          ((Dict.get? record "_attachments").filter PyValue.truthy) = some value →
          ∃ attachments : List Cells, value = .list (attachments.map .dict) := by
        intro value hvalue
        rcases Option.or_eq_some_iff.mp hvalue with hvalue | ⟨-, hvalue⟩
        · exact hdata.attachments hvalue
        · exact hrecord.attachments (Option.filter_eq_some_iff.mp hvalue).1
      split
      · exact ⟨_, rfl⟩
      · rename_i value hvalue
        obtain ⟨attachments, rfl⟩ := hlist value hvalue
        cases hfound : attachments.filter (hasName item.2) with
        | nil =>
            refine ⟨item.2, bind_eq_ok.mpr ⟨attachments, dictItems_ok attachments, ?_⟩⟩
            simp only [hfound]
        | cons attachment rest =>
            refine ⟨.str (env.siteUrl ++ downloadUrl attachment),
              bind_eq_ok.mpr ⟨attachments, dictItems_ok attachments, ?_⟩⟩
            simp only [hfound]
    · exact ⟨_, rfl⟩

/-- The cell of an answer. -/
def cellOf (env : JoinedExport) (record data : Cells) (item : String × PyValue) : PyValue :=
  match env.exportCell record data item.1 item.2 with
  | .ok cell => cell
  | .error _ => .none

/-- The cells that some items of a dict give. -/
def cellsOf (env : JoinedExport) (record data items : Cells) : Cells :=
  (items.filter isOwnCell).map fun item => (item.1, cellOf env record data item)

/-- The cells of the row of a value. -/
def ownCells (env : JoinedExport) (record : Cells) : PyValue → Cells
  | .dict items => cellsOf env record items items
  | _ => []

/-- The row of an item, before its names are decoded. -/
def itemRowCells (env : JoinedExport) (record : Cells) (row : ItemRow) : Cells :=
  [("_index", .int row.index), ("_parent_index", .int row.parentIndex),
    ("_parent_table_name", .str row.parentTable)] ++ ownCells env record row.data

theorem exportCell_eq_cellOf (env : JoinedExport) {record data : Cells} {recordDepth : Nat}
    (hrecord : DictFits form recordDepth record) (hdata : DictFits form depth data)
    {item : String × PyValue} (hitem : item ∈ data) :
    env.exportCell record data item.1 item.2 = .ok (cellOf env record data item) := by
  obtain ⟨cell, hcell⟩ := exportCell_ok env hrecord hdata hitem
  rw [cellOf, hcell]

/-- The keys of the cells are keys of the dict, in its order. -/
theorem keys_cellsOf_sublist (env : JoinedExport) (record data items : Cells) :
    (Dict.keys (cellsOf env record data items)).Sublist (Dict.keys items) := by
  unfold cellsOf Dict.keys
  rw [List.map_map]
  exact List.filter_sublist.map _

/-! ### An output -/

/-- The rows of a repeat in an output. A key with the row of a dict has none. -/
def rowsAt (output : JoinedOutput) (key : String) : Option (List Cells) :=
  match Dict.get? output key with
  | none => some []
  | some (.rows items) => some items
  | some (.row _) => none

/-- The name of a table for repeats that have that many repeats around them or more. -/
structure IsTable (form : RepeatForm) (depth : Nat) (key : String) : Prop where
  depth_le : depth ≤ form.repeatsAround key
  ne_surveyName : key ≠ form.surveyName
  plain : '=' ∉ key.toList

/-- The output of a dict whose row goes to `name`: its cells, and the rows of the repeats. -/
structure HoldsRows (form : RepeatForm) (depth : Nat) (name : String) (output : JoinedOutput)
    (cells : Cells) (rows : String → List Cells) : Prop where
  keys_nodup : (Dict.keys output).Nodup
  tables : ∀ key ∈ Dict.keys output, key ≠ name → IsTable form depth key
  own : Dict.get? output name = if cells = [] then none else some (.row cells)
  rows : ∀ key, key ≠ name → rowsAt output key = some (rows key)

/-- A name that no repeat in a dict at the depth has. -/
def IsRowName (form : RepeatForm) (depth : Nat) (name : String) : Prop :=
  ∀ key, IsTable form depth key → key ≠ name

theorem isRowName_surveyName : IsRowName form 0 form.surveyName :=
  fun _ htable => htable.ne_surveyName

/-- The xpath of a repeat is the name of its items. -/
theorem isRowName_repeat {key : String} (hkey : form.repeatsAround key = depth) :
    IsRowName form (depth + 1) key := by
  rintro _ htable rfl
  have hdepth := htable.depth_le
  omega

/-- The xpath of a repeat of a dict is the name of a table. -/
theorem DictFits.isTable {items : Cells} (h : DictFits form depth items) {key : String}
    {children : List PyValue} (hmem : (key, .list children) ∈ items)
    (hkey : isMetadataList key = false) : IsTable form depth key where
  depth_le := Nat.le_of_eq (h.repeats key children hmem hkey).1.symm
  ne_surveyName := (h.repeats key children hmem hkey).2
  plain := h.names key (List.mem_map.mpr ⟨_, hmem, rfl⟩)

section Output

variable {name : String} {output : JoinedOutput} {cells : Cells} {rows : String → List Cells}

theorem HoldsRows.nil (form : RepeatForm) (depth : Nat) (name : String) :
    HoldsRows form depth name [] [] fun _ => [] where
  keys_nodup := List.nodup_nil
  tables := fun _ hkey => absurd hkey List.not_mem_nil
  own := rfl
  rows := fun _ _ => rfl

theorem HoldsRows.congr {rows' : String → List Cells} (h : HoldsRows form depth name output cells rows)
    (heq : ∀ key, rows key = rows' key) : HoldsRows form depth name output cells rows' :=
  { h with rows := fun key hne => heq key ▸ h.rows key hne }

/-- A key that is set keeps its place, and a new one is a key. -/
theorem mem_keys_insert {d : JoinedOutput} {key key' : String} {value : Section} :
    key' ∈ Dict.keys (Dict.insert d key value) ↔ key' = key ∨ key' ∈ Dict.keys d := by
  rw [Dict.keys_insert]
  split
  · rename_i hmem
    exact ⟨Or.inr, fun h => h.elim (fun heq => heq ▸ hmem) id⟩
  · rw [List.mem_append, List.mem_singleton]
    exact Or.comm

/-- Other keys keep their rows. -/
theorem rowsAt_insert_ne {key key' : String} (value : Section) (hne : key' ≠ key) :
    rowsAt (Dict.insert output key value) key' = rowsAt output key' := by
  unfold rowsAt
  rw [Dict.get?_insert, if_neg hne]

/-- A new cell of the row of the dict. -/
theorem HoldsRows.set_cell (h : HoldsRows form depth name output cells rows) {key : String}
    (hnew : key ∉ Dict.keys cells) (cell : PyValue) :
    ∃ output', setCell output name key cell = .ok output' ∧
      HoldsRows form depth name output' (cells ++ [(key, cell)]) rows := by
  have hrow : setCell output name key cell =
      .ok (Dict.insert output name (.row (cells ++ [(key, cell)]))) := by
    unfold setCell
    rw [h.own]
    split
    · rename_i heq
      split at heq
      · rename_i hcells
        rw [hcells]
        rfl
      · simp at heq
    · rename_i heq
      split at heq
      · simp at heq
      · obtain rfl := Section.row.inj (Option.some.inj heq)
        rw [Dict.insert_of_notMem cell hnew]
    · rename_i heq
      split at heq <;> simp at heq
  refine ⟨_, hrow, Dict.nodup_keys_insert h.keys_nodup .., ?_, ?_, ?_⟩
  · intro key' hkey' hne
    exact h.tables key' ((mem_keys_insert.mp hkey').resolve_left hne) hne
  · rw [Dict.get?_insert, if_pos rfl, if_neg (by simp)]
  · intro key' hne
    rw [rowsAt_insert_ne _ hne]
    exact h.rows key' hne

/-- A repeat gets other rows. -/
theorem HoldsRows.insert_rows (h : HoldsRows form depth name output cells rows)
    (hname : IsRowName form depth name) {key : String} (htable : IsTable form depth key)
    (items : List Cells) :
    HoldsRows form depth name (Dict.insert output key (.rows items)) cells
      (Function.update rows key items) where
  keys_nodup := Dict.nodup_keys_insert h.keys_nodup ..
  tables := by
    intro key' hkey' hne
    rcases mem_keys_insert.mp hkey' with rfl | hkey'
    · exact htable
    · exact h.tables key' hkey' hne
  own := by
    rw [Dict.get?_insert, if_neg (hname key htable).symm]
    exact h.own
  rows := by
    intro key' hne
    by_cases heq : key' = key
    · subst heq
      rw [rowsAt, Dict.get?_insert, if_pos rfl, Function.update_self]
    · rw [rowsAt_insert_ne _ heq, Function.update_of_ne heq]
      exact h.rows key' hne

/-- A repeat gets more rows. -/
theorem HoldsRows.extend (h : HoldsRows form depth name output cells rows)
    (hname : IsRowName form depth name) {key : String} (htable : IsTable form depth key)
    (items : List Cells) :
    ∃ output', extendSection output key items = .ok output' ∧
      HoldsRows form depth name output' cells (Function.update rows key (rows key ++ items)) := by
  refine ⟨_, ?_, h.insert_rows hname htable _⟩
  have hrows := h.rows key (hname key htable)
  unfold rowsAt at hrows
  unfold extendSection
  cases hget : Dict.get? output key with
  | none =>
      rw [hget] at hrows
      rw [← Option.some.inj hrows]
      rfl
  | some value =>
      rw [hget] at hrows
      cases value with
      | rows old => rw [← Option.some.inj hrows]
      | row cells => exact absurd hrows (by simp)

end Output

/-! ### The output of an item -/

/-- The rows that the output of an item gives to a repeat. -/
def liftedRows (newOutput : JoinedOutput) (key : String) : List Cells :=
  match Dict.get? newOutput key with
  | some (.rows items) => items
  | _ => []

/-- The cells that the output of an item gives to its row. -/
def liftedCells (newOutput : JoinedOutput) (child : String) : Cells :=
  match Dict.get? newOutput child with
  | some (.row cells) => cells
  | _ => []

theorem liftedRows_self (key : String) (items : List Cells) (rest : JoinedOutput) :
    liftedRows ((key, .rows items) :: rest) key = items := by
  rw [liftedRows, Dict.get?, if_pos rfl]

theorem liftedRows_row (key : String) (cells : Cells) {rest : JoinedOutput}
    (hnew : key ∉ Dict.keys rest) (key' : String) :
    liftedRows ((key, .row cells) :: rest) key' = liftedRows rest key' := by
  rw [liftedRows, liftedRows, Dict.get?]
  by_cases heq : key = key'
  · rw [if_pos heq, ← heq, Dict.get?_eq_none.mpr hnew]
  · rw [if_neg heq]

theorem liftedRows_ne {key key' : String} (value : Section) (rest : JoinedOutput)
    (hne : key ≠ key') : liftedRows ((key, value) :: rest) key' = liftedRows rest key' := by
  rw [liftedRows, liftedRows, Dict.get?, if_neg hne]

theorem liftedRows_of_notMem {newOutput : JoinedOutput} {key : String}
    (hnew : key ∉ Dict.keys newOutput) : liftedRows newOutput key = [] := by
  rw [liftedRows, Dict.get?_eq_none.mpr hnew]

theorem liftedCells_self (key : String) (cells : Cells) (rest : JoinedOutput) :
    liftedCells ((key, .row cells) :: rest) key = cells := by
  rw [liftedCells, Dict.get?, if_pos rfl]

theorem liftedCells_rows (key : String) (items : List Cells) {rest : JoinedOutput}
    (hnew : key ∉ Dict.keys rest) (child : String) :
    liftedCells ((key, .rows items) :: rest) child = liftedCells rest child := by
  rw [liftedCells, liftedCells, Dict.get?]
  by_cases heq : key = child
  · rw [if_pos heq, ← heq, Dict.get?_eq_none.mpr hnew]
  · rw [if_neg heq]

theorem liftedCells_of_notMem {newOutput : JoinedOutput} {child : String}
    (hnew : child ∉ Dict.keys newOutput) : liftedCells newOutput child = [] := by
  rw [liftedCells, Dict.get?_eq_none.mpr hnew]

section Lift

variable {name : String} {output : JoinedOutput} {cells : Cells} {rows : String → List Cells}

/-- The rows of an item go behind those that are there, and its cells to its row. -/
theorem HoldsRows.lift (h : HoldsRows form depth name output cells rows)
    (hname : IsRowName form depth name) (item : Cells) (child : String) {newOutput : JoinedOutput}
    (hnodup : (Dict.keys newOutput).Nodup)
    (htables : ∀ key items, (key, .rows items) ∈ newOutput → IsTable form depth key)
    (hrow : ∀ key cells, (key, .row cells) ∈ newOutput → key = child) :
    ∃ output', liftOutput output item newOutput =
        .ok (output', Dict.update item (liftedCells newOutput child)) ∧
      HoldsRows form depth name output' cells fun key => rows key ++ liftedRows newOutput key := by
  induction newOutput generalizing output item rows with
  | nil => exact ⟨output, rfl, h.congr fun key => (List.append_nil _).symm⟩
  | cons first rest ih =>
      obtain ⟨key, value⟩ := first
      obtain ⟨hnew, hrest⟩ := List.nodup_cons.mp hnodup
      have htables' := fun other items hmem => htables other items (List.mem_cons_of_mem _ hmem)
      have hrow' := fun other cells hmem => hrow other cells (List.mem_cons_of_mem _ hmem)
      cases value with
      | row ownCells =>
          obtain rfl : key = child := hrow key ownCells List.mem_cons_self
          obtain ⟨output', heq, hholds⟩ := ih h (Dict.update item ownCells) hrest htables' hrow'
          refine ⟨output', ?_, hholds.congr fun other => ?_⟩
          · rw [liftOutput, heq, liftedCells_self, liftedCells_of_notMem hnew]
            rfl
          · rw [liftedRows_row key ownCells hnew]
      | rows items =>
          have htable := htables key items List.mem_cons_self
          obtain ⟨output₁, hextend, hholds₁⟩ := h.extend hname htable items
          obtain ⟨output', heq, hholds⟩ := ih hholds₁ item hrest htables' hrow'
          refine ⟨output', ?_, hholds.congr fun other => ?_⟩
          · rw [liftOutput, hextend]
            show liftOutput output₁ item rest = _
            rw [heq, liftedCells_rows key items hnew]
          · by_cases hother : key = other
            · subst hother
              rw [liftedRows_self, liftedRows_of_notMem hnew, Function.update_self,
                List.append_nil]
            · rw [liftedRows_ne _ _ hother, Function.update_of_ne (Ne.symm hother)]

variable {newOutput : JoinedOutput} {child : String} {newCells : Cells}
  {newRows : String → List Cells}

/-- The rows of the repeats of an item are lifted. -/
theorem HoldsRows.liftedRows_eq
    (h : HoldsRows form (depth + 1) child newOutput newCells newRows) {key : String}
    (hnone : newRows child = []) : liftedRows newOutput key = newRows key := by
  unfold liftedRows
  by_cases hkey : key = child
  · subst hkey
    rw [h.own, hnone]
    split
    · rename_i heq
      split at heq <;> simp at heq
    · rfl
  · have hrows := h.rows key hkey
    unfold rowsAt at hrows
    split at hrows
    · rename_i heq
      rw [heq]
      exact Option.some.inj hrows
    · rename_i heq
      rw [heq]
      exact Option.some.inj hrows
    · simp at hrows

/-- The cells of an item are lifted. -/
theorem HoldsRows.liftedCells_eq
    (h : HoldsRows form (depth + 1) child newOutput newCells newRows) :
    liftedCells newOutput child = newCells := by
  unfold liftedCells
  rw [h.own]
  split
  · rename_i heq
    split at heq
    · simp at heq
    · exact (Section.row.inj (Option.some.inj heq)).symm
  · rename_i hother
    by_contra hne
    exact hother newCells (if_neg (Ne.symm hne))

/-- An item with its number: its rows and its own row go to the output. -/
theorem HoldsRows.lift_item (h : HoldsRows form depth name output cells rows)
    (hname : IsRowName form depth name)
    (hchild : HoldsRows form (depth + 1) child newOutput newCells newRows)
    (htable : IsTable form depth child) (hnone : newRows child = []) (item : Cells) :
    ∃ output₁ output', liftOutput output item newOutput =
        .ok (output₁, Dict.update item newCells) ∧
      extendSection output₁ child [Dict.update item newCells] = .ok output' ∧
      HoldsRows form depth name output' cells
        (Function.update (fun key => rows key ++ newRows key) child
          (rows child ++ [Dict.update item newCells])) := by
  have htables : ∀ key items, (key, .rows items) ∈ newOutput → IsTable form depth key := by
    intro key items hmem
    have hne : key ≠ child := by
      rintro rfl
      have hvalue := Dict.get?_of_mem hchild.keys_nodup hmem
      rw [hchild.own] at hvalue
      split at hvalue <;> simp at hvalue
    have hdeeper := hchild.tables key (List.mem_map_of_mem hmem) hne
    exact ⟨Nat.le_of_lt hdeeper.depth_le, hdeeper.ne_surveyName, hdeeper.plain⟩
  have hrow : ∀ key cells, (key, .row cells) ∈ newOutput → key = child := by
    intro key cells hmem
    by_contra hne
    have hvalue := Dict.get?_of_mem hchild.keys_nodup hmem
    have hrows := hchild.rows key hne
    rw [rowsAt, hvalue] at hrows
    simp at hrows
  obtain ⟨output₁, hlift, hholds⟩ := h.lift hname item child hchild.keys_nodup htables hrow
  rw [hchild.liftedCells_eq] at hlift
  obtain ⟨output', hextend, hholds'⟩ := hholds.extend hname htable
    [Dict.update item newCells]
  refine ⟨output₁, output', hlift, hextend, hholds'.congr fun key => ?_⟩
  have hlifted : ∀ key, liftedRows newOutput key = newRows key :=
    fun key => hchild.liftedRows_eq hnone
  simp only [hlifted, hnone, List.append_nil]

end Lift

/-! ### The refinement -/

/-- The dict of counters agrees with the counters of the tables. -/
def CountsAt (indices : List (String × Nat)) (counts : String → Nat) : Prop :=
  ∀ key, (Dict.get? indices key).getD 0 = counts key

/-- The rows of the tables for some items. -/
def rowsOf (env : JoinedExport) (record : Cells) (items : List ItemRow) : String → List Cells :=
  fun key => (ofGroup ItemRow.table items key).map (itemRowCells env record)

/-- The counter of a repeat goes on by one for an item. -/
theorem CountsAt.insert {indices : List (String × Nat)} {counts : String → Nat}
    (h : CountsAt indices counts) (row : ItemRow) :
    CountsAt (Dict.insert indices row.table (counts row.table + 1)) (countRows counts [row]) := by
  intro key
  show _ = counts key + (ofGroup ItemRow.table [row] key).length
  rw [Dict.get?_insert, ofGroup_cons]
  by_cases heq : key = row.table
  · rw [if_pos heq, if_pos heq.symm, heq]
    rfl
  · rw [if_neg heq, if_neg (Ne.symm heq)]
    exact h key

theorem joinItems_answer (env : JoinedExport) (record data : Cells) (index : Nat) (name : String)
    (output : JoinedOutput) (indices : List (String × Nat)) {item : String × PyValue}
    (rest : Cells) (h : isOwnCell item) :
    env.joinItems record data index name output indices (item :: rest) = (do
      let cell ← env.exportCell record data item.1 item.2
      env.joinItems record data index name (← setCell output name item.1 cell) indices rest) := by
  obtain ⟨key, value⟩ := item
  cases value with
  | list children =>
      have hkey : isMetadataList key = true := by
        simpa [isOwnCell, PyValue.isList] using h
      rw [JoinedExport.joinItems, if_pos hkey]
  | _ => rfl

theorem joinItems_repeated (env : JoinedExport) (record data : Cells) (index : Nat)
    (name : String) (output : JoinedOutput) (indices : List (String × Nat)) {key : String}
    (children : List PyValue) (rest : Cells) (h : isMetadataList key = false) :
    env.joinItems record data index name output indices ((key, .list children) :: rest) = (do
      let (output, indices) ← env.joinChildren record key index name
        (Dict.insert output key (.rows [])) indices children
      env.joinItems record data index name output indices rest) := by
  rw [JoinedExport.joinItems, h]
  rfl

/-- The keys of the cells of an item are no index columns, so that they come behind these. -/
theorem update_ownCells (env : JoinedExport) (record : Cells) {value : PyValue}
    (hfits : ValueFits form (depth + 1) value) (index parentIndex : Nat) (parentTable : String) :
    Dict.update [("_index", .int index), ("_parent_index", .int parentIndex),
        ("_parent_table_name", .str parentTable)] (ownCells env record value) =
      [("_index", .int index), ("_parent_index", .int parentIndex),
        ("_parent_table_name", .str parentTable)] ++ ownCells env record value := by
  refine Dict.foldl_insert_of_nodup _ _ ?_
  have hcells : (Dict.keys (ownCells env record value)).Nodup ∧
      ∀ key ∈ Dict.keys (ownCells env record value), key ∉ indexColumns := by
    cases value with
    | dict items =>
        have hsub := keys_cellsOf_sublist env record items items
        exact ⟨hsub.nodup hfits.1.keys_nodup,
          fun key hkey => hfits.1.columns (Nat.succ_pos _) key (hsub.subset hkey)⟩
    | _ => exact ⟨List.nodup_nil, fun _ hkey => absurd hkey List.not_mem_nil⟩
  rw [Dict.keys_append, List.nodup_append]
  refine ⟨show indexColumns.Nodup by decide, hcells.1, ?_⟩
  rintro key hkey _ hcell rfl
  exact hcells.2 key hcell hkey

/-- A computation leaves an output with these cells and the rows of these items, and these
counters. -/
def Joins (env : JoinedExport) (record : Cells) (form : RepeatForm) (depth : Nat) (name : String)
    (cells : Cells) (rows : List ItemRow) (counts : String → Nat)
    (result : Except PyError (JoinedOutput × List (String × Nat))) : Prop :=
  ∃ output indices, result = .ok (output, indices) ∧ CountsAt indices counts ∧
    HoldsRows form depth name output cells (rowsOf env record rows)

/-- The output of a value has the rows of its items. -/
def ValueJoins (env : JoinedExport) (record : Cells) (form : RepeatForm) (value : PyValue) :
    Prop :=
  ∀ depth name index address counts indices, ValueFits form depth value →
    IsRowName form depth name → CountsAt indices counts →
    Joins env record form depth name (ownCells env record value)
      (itemRows name index address counts value)
      (countRows counts (itemRows name index address counts value))
      (env.dictToJoinedExport record value index indices name)

/-- Some items of a dict add their cells and the rows of the items in them. -/
def ItemsJoin (env : JoinedExport) (record : Cells) (form : RepeatForm) (items : Cells) : Prop :=
  ∀ depth data name index address counts indices output cells rows,
    DictFits form depth data → items ⊆ data → DictFits form depth items →
    RepeatsFit form depth items → IsRowName form depth name → CountsAt indices counts →
    HoldsRows form depth name output cells (rowsOf env record rows) →
    (∀ key ∈ Dict.keys items, key ∉ Dict.keys cells) →
    (∀ key children, (key, .list children) ∈ items → isMetadataList key = false →
      ofGroup ItemRow.table rows key = []) →
    Joins env record form depth name (cells ++ cellsOf env record data items)
      (rows ++ itemRowsOfDict name index address counts items)
      (countRows counts (itemRowsOfDict name index address counts items))
      (env.joinItems record data index name output indices items)

/-- The items of a repeat add their rows. -/
def ChildrenJoin (env : JoinedExport) (record : Cells) (form : RepeatForm)
    (children : List PyValue) : Prop :=
  ∀ depth key name index address position counts indices output cells rows,
    ItemsFit form (depth + 1) children → IsRowName form depth name →
    form.repeatsAround key = depth → IsTable form depth key → CountsAt indices counts →
    HoldsRows form depth name output cells (rowsOf env record rows) →
    Joins env record form depth name cells
      (rows ++ itemRowsOfList key name index address position counts children)
      (countRows counts (itemRowsOfList key name index address position counts children))
      (env.joinChildren record key index name output indices children)

section Cases

variable {env : JoinedExport} {record : Cells}

/-- What is no dict has an empty output. -/
theorem ValueJoins.other {value : PyValue} (hvalue : value.isDict = false) :
    ValueJoins env record form value := by
  intro depth name index address counts indices hfits hname hcounts
  refine ⟨[], indices, ?_, ?_, ?_⟩
  · cases value <;> first | rfl | simp [PyValue.isDict] at hvalue
  · rw [itemRows_of_not_isDict _ _ _ _ hvalue]
    exact hcounts
  · rw [itemRows_of_not_isDict _ _ _ _ hvalue]
    have hcells : ownCells env record value = [] := by
      cases value <;> first | rfl | simp [PyValue.isDict] at hvalue
    rw [hcells]
    exact HoldsRows.nil form depth name

/-- An answer adds its cell. -/
theorem ItemsJoin.answer (hrecord : DictFits form 0 record) {item : String × PyValue}
    {rest : Cells} (hanswer : isOwnCell item) (ih : ItemsJoin env record form rest) :
    ItemsJoin env record form (item :: rest) := by
  intro depth data name index address counts indices output cells rows hdata
    hsub hdict hrepeats hname hcounts hholds hnew hfresh
  obtain ⟨hitem, hsub⟩ := List.cons_subset.mp hsub
  obtain ⟨hkey, hnew⟩ := List.forall_mem_cons.mp hnew
  obtain ⟨output₁, hset, hholds₁⟩ := hholds.set_cell hkey (cellOf env record data item)
  have hnew₁ : ∀ key ∈ Dict.keys rest,
      key ∉ Dict.keys (cells ++ [(item.1, cellOf env record data item)]) := by
    intro key hmem
    rw [Dict.keys_append, List.mem_append, not_or]
    refine ⟨hnew key hmem, fun heq => ?_⟩
    obtain rfl := List.mem_singleton.mp heq
    exact hdict.notMem hmem
  obtain ⟨output', indices', heq, hcounts', hholds'⟩ := ih depth data name index address counts
    indices output₁ _ rows hdata hsub hdict.tail hrepeats.tail hname hcounts hholds₁ hnew₁
    fun key children hmem => hfresh key children (List.mem_cons_of_mem _ hmem)
  refine ⟨output', indices', ?_, ?_, ?_⟩
  · rw [joinItems_answer _ _ _ _ _ _ _ _ hanswer, exportCell_eq_cellOf env hrecord hdata hitem]
    show (setCell output name item.1 (cellOf env record data item) >>= fun output =>
      env.joinItems record data index name output indices rest) = _
    rw [hset]
    exact heq
  · rw [itemRowsOfDict_answer _ _ _ _ _ hanswer]
    exact hcounts'
  · rw [itemRowsOfDict_answer _ _ _ _ _ hanswer]
    have hcells : cellsOf env record data (item :: rest) =
        (item.1, cellOf env record data item) :: cellsOf env record data rest := by
      unfold cellsOf
      rw [List.filter_cons, if_pos hanswer, List.map_cons]
    rw [hcells]
    rw [List.append_assoc] at hholds'
    exact hholds'

/-- A repeat adds the rows of its items. -/
theorem ItemsJoin.repeated {key : String} {children : List PyValue} {rest : Cells}
    (hkey : isMetadataList key = false) (ihlist : ChildrenJoin env record form children)
    (ih : ItemsJoin env record form rest) :
    ItemsJoin env record form ((key, .list children) :: rest) := by
  intro depth data name index address counts indices output cells
    rows hdata hsub hdict hrepeats hname hcounts hholds hnew hfresh
  have haround := (hdict.repeats key children List.mem_cons_self hkey).1
  have htable := hdict.isTable List.mem_cons_self hkey
  have hnone := hfresh key children List.mem_cons_self hkey
  have hstart : HoldsRows form depth name (Dict.insert output key (.rows [])) cells
      (rowsOf env record rows) := by
    refine (hholds.insert_rows hname htable []).congr fun key' => ?_
    rw [Function.update_apply]
    split
    · rename_i heq
      rw [heq, rowsOf, hnone]
      rfl
    · rfl
  obtain ⟨output₁, indices₁, hlist, hcounts₁, hholds₁⟩ := ihlist depth key name index address 0
    counts indices _ cells rows (hrepeats.1 hkey) hname haround htable hcounts hstart
  -- The other repeats of the dict got no rows.
  have hfresh₁ : ∀ key' children', (key', .list children') ∈ rest →
      isMetadataList key' = false →
      ofGroup ItemRow.table
        (rows ++ itemRowsOfList key name index address 0 counts children) key' = [] := by
    intro key' children' hmem hkey'
    rw [ofGroup_append, hfresh key' children' (List.mem_cons_of_mem _ hmem) hkey',
      List.nil_append]
    refine ofGroup_eq_nil _ fun row hrow hkeys => ?_
    have haround' := (hdict.tail.repeats key' children' hmem hkey').1
    have hplace := rows_table.2.2 _ _ _ _ _ _ _ _ (hrepeats.1 hkey) haround htable.ne_surveyName
      row hrow
    rcases hplace.1 with heq | hlt
    · have hmem' : key' ∈ Dict.keys rest := List.mem_map.mpr ⟨_, hmem, rfl⟩
      exact hdict.notMem (heq.symm.trans hkeys ▸ hmem')
    · rw [hkeys] at hlt
      omega
  obtain ⟨output', indices', heq, hcounts', hholds'⟩ := ih depth data name index address _
    indices₁ output₁ cells _ hdata (List.cons_subset.mp hsub).2 hdict.tail hrepeats.tail hname
    hcounts₁ hholds₁ (fun key' hmem => hnew key' (List.mem_cons_of_mem _ hmem)) hfresh₁
  refine ⟨output', indices', ?_, ?_, ?_⟩
  · rw [joinItems_repeated _ _ _ _ _ _ _ _ _ hkey, hlist]
    exact heq
  · rw [itemRowsOfDict_repeated _ _ _ _ _ _ hkey, countRows, advance_append]
    exact hcounts'
  · rw [itemRowsOfDict_repeated _ _ _ _ _ _ hkey, ← List.append_assoc]
    have hcells : cellsOf env record data ((key, .list children) :: rest) =
        cellsOf env record data rest := by
      unfold cellsOf
      rw [List.filter_cons, if_neg (by simp [isOwnCell, hkey, PyValue.isList])]
    rw [hcells]
    exact hholds'

/-- An item of a repeat adds its row and those of the items in it. -/
theorem ChildrenJoin.cons {child : PyValue} {rest : List PyValue}
    (ihchild : ValueJoins env record form child) (ih : ChildrenJoin env record form rest) :
    ChildrenJoin env record form (child :: rest) := by
  intro depth key name index address position counts indices output cells
    rows hfits hname haround htable hcounts hholds
  unfold itemRowsOfList
  let own : ItemRow := ⟨address.item key position, key, counts key + 1, name, index, child⟩
  let nested := itemRows key own.index own.address (countRows counts [own]) child
  obtain ⟨newOutput, indices₁, hjoin, hcounts₁, hchild⟩ := ihchild (depth + 1) key own.index
    own.address (countRows counts [own]) _ hfits.1 (isRowName_repeat haround) (hcounts.insert own)
  have hnone : ofGroup ItemRow.table nested key = [] := by
    refine ofGroup_eq_nil _ fun row hrow heq => ?_
    have hdepth := (rows_table.1 _ _ _ _ _ _ hfits.1 row hrow).depth_le
    rw [heq] at hdepth
    omega
  obtain ⟨output₁, output₂, hlift, hextend, hholds₂⟩ := hholds.lift_item hname hchild
    htable (congrArg (List.map (itemRowCells env record)) hnone)
    [("_index", .int own.index), ("_parent_index", .int index),
      ("_parent_table_name", .str name)]
  rw [update_ownCells env record hfits.1] at hlift hextend hholds₂
  have hholds₃ : HoldsRows form depth name output₂ cells
      (rowsOf env record (rows ++ own :: nested)) := by
    refine hholds₂.congr fun key' => ?_
    rw [Function.update_apply]
    unfold rowsOf
    rw [ofGroup_append, ofGroup_cons, List.map_append]
    split
    · rename_i heq
      rw [heq, if_pos (show own.table = key from rfl), hnone]
      rfl
    · rename_i hne
      rw [if_neg (show own.table ≠ key' from Ne.symm hne)]
  obtain ⟨output', indices', heq, hcounts', hholds'⟩ := ih depth key name index address
    (position + 1) _ indices₁ output₂ cells _ hfits.2 hname haround htable
    (show CountsAt indices₁ (countRows counts (own :: nested)) by
      rw [← List.singleton_append, countRows, advance_append]
      exact hcounts₁) hholds₃
  refine ⟨output', indices', ?_, ?_, ?_⟩
  · unfold JoinedExport.joinChildren
    rw [hcounts key]
    exact bind_eq_ok.mpr ⟨_, hjoin, bind_eq_ok.mpr ⟨_, hlift, bind_eq_ok.mpr ⟨_, hextend, heq⟩⟩⟩
  · rw [countRows, advance_append]
    exact hcounts'
  · rw [← List.append_assoc]
    exact hholds'

/-- `dict_to_joined_export` leaves the rows of the items. -/
theorem dictToJoinedExport_joins (env : JoinedExport) {record : Cells}
    (hrecord : DictFits form 0 record) (value : PyValue) : ValueJoins env record form value := by
  induction value using value_induction
    (D := ItemsJoin env record form) (L := ChildrenJoin env record form) with
  | dict items ih =>
      intro depth name index address counts indices hfits hname hcounts
      exact ih depth items name index address counts indices [] [] [] hfits.1 (List.Subset.refl _)
        hfits.1 hfits.2 hname hcounts (HoldsRows.nil form depth name) (by simp) (by simp)
  | other value hvalue => exact ValueJoins.other hvalue
  | empty =>
      intro depth data name index address counts indices output cells rows hdata hsub hdict hrepeats
        hname hcounts hholds hnew hfresh
      refine ⟨output, indices, rfl, hcounts, ?_⟩
      show HoldsRows form depth name output (cells ++ []) (rowsOf env record (rows ++ []))
      rw [List.append_nil, List.append_nil]
      exact hholds
  | answer item rest hanswer ih => exact ItemsJoin.answer hrecord hanswer ih
  | repeated key children rest hkey ihlist ih => exact ItemsJoin.repeated hkey ihlist ih
  | nil =>
      intro depth key name index address position counts indices output cells rows hfits hname
        haround htable hcounts hholds
      refine ⟨output, indices, rfl, hcounts, ?_⟩
      show HoldsRows form depth name output cells (rowsOf env record (rows ++ []))
      rw [List.append_nil]
      exact hholds
  | cons child rest ihchild ih => exact ChildrenJoin.cons ihchild ih

end Cases

end Onadata.Proofs
