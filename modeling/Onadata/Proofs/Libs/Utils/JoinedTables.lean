import Onadata.Proofs.Libs.Utils.JoinedExport

/-!
# `Onadata.Proofs.Libs.Utils.JoinedTables`: the tables of a joined export join

The tables that `to_zipped_csv` makes from records of a form: the rows of a table are numbered
from one on, each repeat item has one row with its own answers, and the row names the row of
the record or item around it.
-/

set_option autoImplicit false

namespace Onadata.Proofs

open Onadata.Lib

variable {form : RepeatForm} {depth : Nat}

/-! ### The decoded names -/

theorem decodeDots_eq_self {cs : List Char} (h : '=' ∉ cs) : decodeDots cs = cs := by
  fun_induction decodeDots cs with
  | case1 rest ih => simp at h
  | case2 c rest hne ih =>
      rw [ih fun hmem => h (List.mem_cons_of_mem c hmem)]
  | case3 => rfl

/-- A name without `=` is decoded already. -/
theorem decodeFromMongo_eq_self {key : String} (h : '=' ∉ key.toList) :
    decodeFromMongo key = key := by
  unfold decodeFromMongo
  split
  · rename_i heq
    simp [heq] at h
  · rw [decodeDots_eq_self h, String.ofList_toList]

/-- The cells with the names in their values decoded. -/
def decodedCells (cells : Cells) : Cells :=
  cells.map fun cell => (cell.1, decodeValue cell.2)

/-- The cells under decoded names, behind others. -/
theorem decodeItems_eq (results : Cells) {cells : Cells}
    (hplain : ∀ key ∈ Dict.keys cells, '=' ∉ key.toList)
    (hnodup : (Dict.keys (results ++ cells)).Nodup) :
    decodeItems results cells = results ++ decodedCells cells := by
  induction cells generalizing results with
  | nil =>
      unfold decodeItems
      exact (List.append_nil results).symm
  | cons cell rest ih =>
      obtain ⟨key, value⟩ := cell
      obtain ⟨hkey, hrest⟩ := List.forall_mem_cons.mp hplain
      rw [Dict.keys_append, Dict.keys_cons, List.nodup_middle, List.nodup_cons] at hnodup
      have hnew : key ∉ Dict.keys results := fun hmem =>
        hnodup.1 (List.mem_append_left _ hmem)
      unfold decodeItems
      rw [decodeFromMongo_eq_self hkey, Dict.insert_of_notMem _ hnew, ih _ hrest,
        List.append_assoc]
      · rfl
      · rw [Dict.keys_append, Dict.keys_append, Dict.keys_cons, Dict.keys_nil, List.append_assoc,
          List.singleton_append, List.nodup_middle, List.nodup_cons]
        exact hnodup

/-- The sections under decoded names. -/
theorem decodeMongoEncodedSectionNames_eq {output : JoinedOutput}
    (hplain : ∀ key ∈ Dict.keys output, '=' ∉ key.toList)
    (hnodup : (Dict.keys output).Nodup) :
    decodeMongoEncodedSectionNames output =
      output.map fun item => (item.1, decodeSection item.2) := by
  have hkeys : Dict.keys (output.map fun item => (item.1, decodeSection item.2)) =
      Dict.keys output := by
    unfold Dict.keys
    rw [List.map_map]
    rfl
  rw [← hkeys] at hnodup
  have hfold := Dict.update_nil_of_nodup hnodup
  rw [Dict.update, List.foldl_map] at hfold
  rw [← hfold]
  unfold decodeMongoEncodedSectionNames
  refine List.foldl_ext _ _ _ fun results item hitem => ?_
  rw [decodeFromMongo_eq_self (hplain item.1 (List.mem_map.mpr ⟨item, hitem, rfl⟩))]

/-- The value of a key after the sections are decoded. -/
theorem get?_decodeMongoEncodedSectionNames {output : JoinedOutput}
    (hplain : ∀ key ∈ Dict.keys output, '=' ∉ key.toList)
    (hnodup : (Dict.keys output).Nodup) (key : String) :
    Dict.get? (decodeMongoEncodedSectionNames output) key =
      (Dict.get? output key).map decodeSection := by
  rw [decodeMongoEncodedSectionNames_eq hplain hnodup]
  clear hplain hnodup
  induction output with
  | nil => rfl
  | cons item rest ih =>
      rw [List.map_cons, Dict.get?, Dict.get?, ih]
      split <;> rfl

/-! ### The tables of the records -/

/-- The row of an item, as it is written. -/
def writtenRow (env : JoinedExport) (recordAt : Nat → Cells) (row : ItemRow) : Cells :=
  decodedCells (itemRowCells env (recordAt row.address.record) row)

/-- The row of a record, as it is written. -/
def recordRow (env : JoinedExport) (record : Cells) (index : Nat) : Cells :=
  Dict.insert (Dict.insert (decodedCells (ownCells env record (.dict record))) "_index"
    (.int index)) "_parent_index" (.int (-1))

/-- The keys of the row of an item are different and without `=`. -/
theorem itemRowCells_keys (env : JoinedExport) (record : Cells) {row : ItemRow}
    (hdata : ValueFits form (depth + 1) row.data) :
    (Dict.keys (itemRowCells env record row)).Nodup ∧
      ∀ key ∈ Dict.keys (itemRowCells env record row), '=' ∉ key.toList := by
  have hcells : (Dict.keys (ownCells env record row.data)).Nodup ∧
      ∀ key ∈ Dict.keys (ownCells env record row.data), key ∉ indexColumns ∧ '=' ∉ key.toList := by
    cases hvalue : row.data with
    | dict items =>
        rw [hvalue] at hdata
        have hsub := keys_cellsOf_sublist env record items items
        exact ⟨hsub.nodup hdata.1.keys_nodup, fun key hkey =>
          ⟨hdata.1.columns (Nat.succ_pos _) key (hsub.subset hkey),
            hdata.1.names key (hsub.subset hkey)⟩⟩
    | _ => exact ⟨List.nodup_nil, fun _ hkey => absurd hkey List.not_mem_nil⟩
  have hkeys : Dict.keys (itemRowCells env record row) =
      indexColumns ++ Dict.keys (ownCells env record row.data) := Dict.keys_append ..
  rw [hkeys]
  constructor
  · rw [List.nodup_append]
    refine ⟨by decide, hcells.1, ?_⟩
    rintro key hkey _ hcell rfl
    exact (hcells.2 key hcell).1 hkey
  · intro key hkey
    rcases List.mem_append.mp hkey with hkey | hkey
    · have hplain : indexColumns.all (fun key => '=' ∉ key.toList) = true := by decide
      exact of_decide_eq_true (List.all_eq_true.mp hplain key hkey)
    · exact (hcells.2 key hkey).2

/-- The decoded row of an item. -/
theorem decodeItems_itemRowCells (env : JoinedExport) (record : Cells) {row : ItemRow}
    (hdata : ValueFits form (depth + 1) row.data) :
    decodeItems [] (itemRowCells env record row) =
      decodedCells (itemRowCells env record row) := by
  obtain ⟨hnodup, hplain⟩ := itemRowCells_keys env record hdata
  exact decodeItems_eq [] hplain hnodup

/-- The row of a record gets its index. -/
theorem attachMeta_eq {env : JoinedExport} {record : Cells} (hrecord : DictFits form 0 record)
    {output : JoinedOutput} {name : String} {rows : String → List Cells}
    (hholds : HoldsRows form 0 name output (ownCells env record (.dict record)) rows)
    (hplain : ∀ key ∈ Dict.keys output, '=' ∉ key.toList) (index : Nat) :
    attachMeta (decodeMongoEncodedSectionNames output) name index =
      .ok (Dict.insert (decodeMongoEncodedSectionNames output) name
        (.row (recordRow env record index))) := by
  unfold attachMeta
  rw [get?_decodeMongoEncodedSectionNames hplain hholds.keys_nodup, hholds.own]
  split
  · rename_i heq
    split at heq
    · rename_i hcells
      rw [recordRow, hcells]
      rfl
    · simp at heq
  · rename_i cells heq
    split at heq
    · simp at heq
    · have hkeys : (Dict.keys (ownCells env record (.dict record))).Sublist (Dict.keys record) :=
        keys_cellsOf_sublist env record record record
      have hdecoded : decodeItems [] (ownCells env record (.dict record)) = cells :=
        Section.row.inj (Option.some.inj heq)
      rw [decodeItems_eq [] (fun key hkey => hrecord.names key (hkeys.subset hkey))
        (hkeys.nodup hrecord.keys_nodup), List.nil_append] at hdecoded
      rw [recordRow, hdecoded]
  · rename_i heq
    split at heq <;> simp [decodeSection] at heq

/-- The rows that are written for a record. -/
theorem written_attachMeta {env : JoinedExport} {record : Cells} {place : Nat}
    {recordAt : Nat → Cells} (hat : recordAt place = record) {output : JoinedOutput}
    {cells : Cells} {items : List ItemRow} {name : String}
    (hholds : HoldsRows form 0 name output cells (rowsOf env record items))
    (hplain : ∀ key ∈ Dict.keys output, '=' ∉ key.toList)
    (hitems : ∀ row ∈ items, RowFits form 0 row ∧ row.address.record = place) {row : Section}
    {table : String} (hne : table ≠ name) :
    tableRows [Dict.insert (decodeMongoEncodedSectionNames output) name row] table =
      (ofGroup ItemRow.table items table).map (writtenRow env recordAt) := by
  have hdecoded : ((ofGroup ItemRow.table items table).map (itemRowCells env record)).map
      (decodeItems []) = (ofGroup ItemRow.table items table).map (writtenRow env recordAt) := by
    rw [List.map_map]
    refine List.map_congr_left fun item hitem => ?_
    obtain ⟨hfits, hplace⟩ := hitems item ((mem_ofGroup _).mp hitem).1
    show decodeItems [] (itemRowCells env record item) = writtenRow env recordAt item
    rw [decodeItems_itemRowCells env record hfits.data, writtenRow, hplace, hat]
  have hrows := hholds.rows table hne
  unfold tableRows
  rw [List.flatMap_singleton, Dict.get?_insert, if_neg hne,
    get?_decodeMongoEncodedSectionNames hplain hholds.keys_nodup, ← hdecoded]
  unfold rowsAt rowsOf at hrows
  split at hrows
  · rename_i heq
    rw [heq, ← Option.some.inj hrows]
    rfl
  · rename_i heq
    rw [heq, ← Option.some.inj hrows]
    rfl
  · simp at hrows

/-- The rows of the records, from the record at a position on. -/
def recordRows (env : JoinedExport) (position : Nat) : List Cells → List Cells
  | [] => []
  | record :: rest =>
      recordRow env record (position + 1) :: recordRows env (position + 1) rest

theorem tableRows_cons (output : JoinedOutput) (outputs : List JoinedOutput) (table : String) :
    tableRows (output :: outputs) table = tableRows [output] table ++ tableRows outputs table := by
  unfold tableRows
  rw [List.flatMap_cons, List.flatMap_singleton]

/-- The loop over the records leaves the rows of their items and one row for each of them. -/
theorem exportRecords_tables (env : JoinedExport) (hsurvey : '=' ∉ form.surveyName.toList)
    {records : List Cells} (hfits : RecordsFit form records) (recordAt : Nat → Cells)
    (position : Nat) {indices : List (String × Nat)} {counts : String → Nat}
    (hcounts : CountsAt indices counts)
    (hat : ∀ place record, records[place]? = some record → recordAt (position + place) = record) :
    ∃ outputs, env.exportRecords form.surveyName (position + 1) indices records = .ok outputs ∧
      tableRows outputs form.surveyName = recordRows env position records ∧
      ∀ table, table ≠ form.surveyName → tableRows outputs table =
        (ofGroup ItemRow.table
          (itemRowsOfRecords form.surveyName position counts records) table).map
            (writtenRow env recordAt) := by
  induction records generalizing position indices counts with
  | nil => exact ⟨[], rfl, rfl, fun _ _ => rfl⟩
  | cons record rest ih =>
      obtain ⟨hrecord, hrest⟩ := List.forall_mem_cons.mp hfits
      obtain ⟨output, indices', hjoin, hcounts', hholds⟩ := dictToJoinedExport_joins env
        hrecord.1 (.dict record) 0 form.surveyName (position + 1) ⟨position, []⟩
        counts indices hrecord isRowName_surveyName hcounts
      have hplain : ∀ key ∈ Dict.keys output, '=' ∉ key.toList := by
        intro key hkey
        by_cases heq : key = form.surveyName
        · rw [heq]
          exact hsurvey
        · exact (hholds.tables key hkey heq).plain
      have hitems : ∀ row ∈ itemRowsOfDict form.surveyName (position + 1) ⟨position, []⟩ counts
          record, RowFits form 0 row ∧ row.address.record = position :=
        fun row hrow => ⟨rows_table.2.1 _ _ _ _ _ _ hrecord.1 hrecord.2 row hrow,
          itemRowsOfDict_record record _ _ _ _ row hrow⟩
      have hat' : ∀ place record, rest[place]? = some record →
          recordAt (position + 1 + place) = record := by
        intro place record hplace
        rw [Nat.add_assoc, Nat.add_comm 1]
        exact hat (place + 1) record hplace
      obtain ⟨outputs, hexport, hrecords, htables⟩ := ih hrest (position + 1) hcounts' hat'
      refine ⟨Dict.insert (decodeMongoEncodedSectionNames output) form.surveyName
        (.row (recordRow env record (position + 1))) :: outputs, ?_, ?_, fun table hne => ?_⟩
      · unfold JoinedExport.exportRecords
        exact bind_eq_ok.mpr ⟨_, hjoin, bind_eq_ok.mpr
          ⟨_, attachMeta_eq hrecord.1 hholds hplain (position + 1), bind_eq_ok.mpr
            ⟨_, hexport, rfl⟩⟩⟩
      · rw [tableRows_cons, hrecords]
        unfold tableRows
        rw [List.flatMap_singleton, Dict.get?_insert, if_pos rfl]
        rfl
      · rw [tableRows_cons, htables table hne,
          written_attachMeta (hat 0 record rfl) hholds hplain hitems hne, itemRowsOfRecords,
          ofGroup_append, List.map_append]
        rfl

/-! ### The tables join -/

/-- The answers of a record or an item: its parts that are no repeats, with their cells. -/
def itemAnswers (env : JoinedExport) (record : Cells) : PyValue → Except PyError Cells
  | .dict items => (items.filter isOwnCell).mapM fun item => do
      return (item.1, decodeValue (← env.exportCell record items item.1 item.2))
  | _ => .ok []

/-- The table of what is at an address. -/
def tableName (surveyName : String) (address : ItemAddress) : String :=
  match address.path.getLast? with
  | some step => step.1
  | none => surveyName

/-- The tables of records join. The rows of each table are numbered; a record has the row of
its position; an item has the row with its number, which says the number of the record or item
around it and has the answers of the item; each row of a repeat is the row of one item; and what
a row says of its parent is true of one row. -/
structure JoinedTables (env : JoinedExport) (surveyName : String) (records : List Cells)
    (outputs : List JoinedOutput) : Prop where
  indices : ∀ table, (tableRows outputs table).map (fun row => Dict.get? row "_index") =
    (List.range' 1 (tableRows outputs table).length).map fun number : Nat =>
      some (PyValue.int number)
  record_row : ∀ place record, records[place]? = some record → ∃ answers,
    itemAnswers env record (.dict record) = .ok answers ∧
    (tableRows outputs surveyName)[place]? =
      some (Dict.insert (Dict.insert answers "_index" (.int (place + 1 : Nat)))
        "_parent_index" (.int (-1)))
  record_count : (tableRows outputs surveyName).length = records.length
  item_row : ∃ number : ItemAddress → Nat, (∀ place, number ⟨place, []⟩ = place + 1) ∧
    (∀ container key position value, dataAt records (container.item key position) = some value →
      ∃ record answers, records[container.record]? = some record ∧
        itemAnswers env record value = .ok answers ∧
        (tableRows outputs key)[number (container.item key position) - 1]? =
          some ([("_index", .int (number (container.item key position))),
            ("_parent_index", .int (number container)),
            ("_parent_table_name", .str (tableName surveyName container))] ++ answers)) ∧
    ∀ table, table ≠ surveyName → ∀ place < (tableRows outputs table).length,
      ∃! address, tableName surveyName address = table ∧ (dataAt records address).isSome ∧
        number address = place + 1
  parents : ∀ table, table ≠ surveyName → ∀ row ∈ tableRows outputs table,
    ∃ parentTable parentIndex,
      Dict.get? row "_parent_table_name" = some (.str parentTable) ∧
      Dict.get? row "_parent_index" = some (.int parentIndex) ∧
      ∃! place : Nat, ((tableRows outputs parentTable)[place]?.bind fun parent =>
        Dict.get? parent "_index") = some (PyValue.int parentIndex)

/-- The cells of the answers are what the export makes of them. -/
theorem itemAnswers_eq (env : JoinedExport) {record : Cells} (hrecord : DictFits form 0 record)
    {value : PyValue} (hvalue : ValueFits form depth value) :
    itemAnswers env record value = .ok (decodedCells (ownCells env record value)) := by
  cases value with
  | dict items =>
      unfold itemAnswers ownCells cellsOf decodedCells
      rw [mapM_eq_ok, List.map_map, List.forall₂_map_right_iff, List.forall₂_same]
      intro item hitem
      rw [exportCell_eq_cellOf env hrecord hvalue.1 (List.mem_filter.mp hitem).1]
      rfl
  | _ => rfl

/-- The row of an item has the columns of its numbers, and the answers behind them. -/
theorem writtenRow_eq (env : JoinedExport) (recordAt : Nat → Cells) (row : ItemRow) :
    writtenRow env recordAt row = [("_index", .int row.index),
        ("_parent_index", .int row.parentIndex), ("_parent_table_name", .str row.parentTable)] ++
      decodedCells (ownCells env (recordAt row.address.record) row.data) := rfl

theorem get?_recordRow (env : JoinedExport) (record : Cells) (index : Nat) :
    Dict.get? (recordRow env record index) "_index" = some (.int index) := by
  rw [recordRow, Dict.get?_insert, if_neg (by decide), Dict.get?_insert, if_pos rfl]

theorem length_recordRows (env : JoinedExport) (position : Nat) (records : List Cells) :
    (recordRows env position records).length = records.length := by
  induction records generalizing position with
  | nil => rfl
  | cons record rest ih => rw [recordRows, List.length_cons, List.length_cons, ih]

theorem getElem?_recordRows (env : JoinedExport) (position : Nat) (records : List Cells)
    (place : Nat) : (recordRows env position records)[place]? =
      records[place]?.map fun record => recordRow env record (position + place + 1) := by
  induction records generalizing position place with
  | nil => rfl
  | cons record rest ih =>
      cases place with
      | zero => rfl
      | succ place =>
          show (recordRows env (position + 1) rest)[place]? = _
          rw [ih, Nat.add_assoc position, Nat.add_comm 1]
          rfl

/-- The row with a number, if the rows are numbered. -/
theorem existsUnique_row {rows : List Cells} {number : Nat}
    (hindices : rows.map (fun row => Dict.get? row "_index") =
      (List.range' 1 rows.length).map fun number : Nat => some (PyValue.int number))
    (hpos : 1 ≤ number) (hle : number ≤ rows.length) :
    ∃! place : Nat, (rows[place]?.bind fun row => Dict.get? row "_index") =
      some (PyValue.int number) := by
  have hplace : ∀ place, place < rows.length →
      (rows[place]?.bind fun row => Dict.get? row "_index") =
        some (PyValue.int (place + 1 : Nat)) := by
    intro place hlt
    have hmap := congrArg (fun cells => cells[place]?) hindices
    simp only [List.getElem?_map, List.getElem?_eq_getElem hlt, Option.map_some,
      List.getElem?_range' hlt, Nat.one_mul] at hmap
    rw [List.getElem?_eq_getElem hlt, Option.bind_some, Option.some.inj hmap, Nat.add_comm]
  refine ⟨number - 1, ?_, fun place hrow => ?_⟩ <;> dsimp only at *
  · have hnumber : number - 1 + 1 = number := by omega
    have hrow := hplace (number - 1) (by omega)
    rw [hnumber] at hrow
    exact hrow
  · by_cases hlt : place < rows.length
    · rw [hplace place hlt] at hrow
      have heq : ((place + 1 : Nat) : Int) = number := PyValue.int.inj (Option.some.inj hrow)
      omega
    · rw [List.getElem?_eq_none (Nat.le_of_not_lt hlt)] at hrow
      exact absurd hrow (by simp)

/-! ### The numbers of the addresses -/

/-- The number of what is at an address: of an item that of its row, of a record that of its
position. -/
def numberIn (rows : List ItemRow) (address : ItemAddress) : Nat :=
  match rows.find? fun row => row.address = address with
  | some row => row.index
  | none => address.record + 1

theorem tableName_item (surveyName : String) (container : ItemAddress) (key : String)
    (position : Nat) : tableName surveyName (container.item key position) = key := by
  simp [tableName, ItemAddress.item, ItemAddress.follow]

theorem ItemAddress.item_inj {container container' : ItemAddress} {key key' : String}
    {position position' : Nat} (h : container.item key position = container'.item key' position') :
    container = container' := by
  obtain ⟨record, path⟩ := container
  obtain ⟨record', path'⟩ := container'
  simp only [item, follow, mk.injEq] at h
  rw [h.1, (List.append_inj' h.2 rfl).1]

/-- The address of a row is behind a record or the address of another row. -/
theorem exists_container {surveyName : String} {records : List Cells} {counts : String → Nat}
    {row : ItemRow} (hrow : row ∈ itemRowsOfRecords surveyName 0 counts records) :
    ∃ (container : ItemAddress) (position : Nat),
      row.address = container.item row.table position := by
  rcases itemRowsOfRecords_container _ _ _ _ row hrow with
    ⟨other, -, -, position, heq⟩ | ⟨parent, -, -, -, position, heq⟩
  · exact ⟨_, position, heq⟩
  · exact ⟨_, position, heq⟩

/-- A record has the number of its position. -/
theorem numberIn_record {surveyName : String} {records : List Cells} {counts : String → Nat}
    (place : Nat) :
    numberIn (itemRowsOfRecords surveyName 0 counts records) ⟨place, []⟩ = place + 1 := by
  unfold numberIn
  split
  · rename_i row hfind
    obtain ⟨container, position, heq⟩ := exists_container (List.mem_of_find?_eq_some hfind)
    have haddress : row.address = ⟨place, []⟩ := by
      simpa using List.find?_some hfind
    rw [haddress] at heq
    have hpath := congrArg ItemAddress.path heq
    simp [ItemAddress.item, ItemAddress.follow] at hpath
  · rfl

/-- An item has the number of its row. -/
theorem numberIn_row {rows : List ItemRow} (hnodup : (rows.map ItemRow.address).Nodup)
    {row : ItemRow} (hrow : row ∈ rows) : numberIn rows row.address = row.index := by
  unfold numberIn
  split
  · rename_i found hfind
    have haddress : found.address = row.address := by
      simpa using List.find?_some hfind
    rw [List.inj_on_of_nodup_map hnodup (List.mem_of_find?_eq_some hfind) hrow haddress]
  · rename_i hfind
    exact absurd (List.find?_eq_none.mp hfind row hrow) (by simp)

/-- What a row says of its parent is the table and the number of what is around the item. -/
theorem parent_eq {surveyName : String} {records : List Cells} {counts : String → Nat}
    (hnodup :
      ((itemRowsOfRecords surveyName 0 counts records).map ItemRow.address).Nodup)
    {row : ItemRow} (hrow : row ∈ itemRowsOfRecords surveyName 0 counts records)
    {container : ItemAddress} {key : String} {position : Nat}
    (haddress : row.address = container.item key position) :
    row.parentTable = tableName surveyName container ∧
      row.parentIndex = numberIn (itemRowsOfRecords surveyName 0 counts records) container := by
  rcases itemRowsOfRecords_container _ _ _ _ row hrow with
    ⟨other, htable, hindex, _, heq⟩ | ⟨parent, hparent, htable, hindex, _, heq⟩
  · obtain rfl := ItemAddress.item_inj (haddress.symm.trans heq)
    rw [numberIn_record]
    exact ⟨htable, hindex⟩
  · obtain rfl := ItemAddress.item_inj (haddress.symm.trans heq)
    obtain ⟨around, _, hplace⟩ := exists_container hparent
    rw [numberIn_row hnodup hparent, hplace, tableName_item]
    exact ⟨htable, hindex⟩

/-! ### The main theorem -/

/-- The items of the records of a form. -/
def formRows (form : RepeatForm) (records : List Cells) : List ItemRow :=
  itemRowsOfRecords form.surveyName 0 (fun _ => 0) records

/-- The tables have a row for each record, and the rows of the items. -/
structure HoldsTables (env : JoinedExport) (form : RepeatForm) (records : List Cells)
    (outputs : List JoinedOutput) : Prop where
  record_rows : tableRows outputs form.surveyName = recordRows env 0 records
  item_rows : ∀ table, table ≠ form.surveyName → tableRows outputs table =
    (ofGroup ItemRow.table (formRows form records) table).map
      (writtenRow env fun place => records.getD place [])

section Tables

variable {env : JoinedExport} {records : List Cells} {outputs : List JoinedOutput}

theorem formRows_numbered (form : RepeatForm) (records : List Cells) :
    NumberedRows (fun _ => 0) (formRows form records) :=
  itemRowsOfRecords_numbered _ _ _ _

theorem formRows_nodup (hfits : RecordsFit form records) :
    ((formRows form records).map ItemRow.address).Nodup :=
  itemRowsOfRecords_nodup _ _ _ hfits

/-- The rows of each table are numbered from one on. -/
theorem HoldsTables.indices (h : HoldsTables env form records outputs) (table : String) :
    (tableRows outputs table).map (fun row => Dict.get? row "_index") =
      (List.range' 1 (tableRows outputs table).length).map fun number : Nat =>
        some (PyValue.int number) := by
  by_cases htable : table = form.surveyName
  · rw [htable, h.record_rows]
    refine List.ext_getElem? fun place => ?_
    rw [List.getElem?_map, List.getElem?_map, getElem?_recordRows, length_recordRows]
    by_cases hlt : place < records.length
    · rw [List.getElem?_eq_getElem hlt, List.getElem?_range' hlt]
      show some (Dict.get? (recordRow env records[place] (0 + place + 1)) "_index") = _
      rw [get?_recordRow, Nat.zero_add, Nat.one_mul, Nat.add_comm]
      rfl
    · rw [List.getElem?_eq_none (Nat.le_of_not_lt hlt), List.getElem?_eq_none (by simpa using hlt)]
      rfl
  · rw [h.item_rows table htable, List.length_map, ← formRows_numbered form records table,
      List.map_map, List.map_map]
    rfl

/-- A record has the row of its position, with its answers. -/
theorem HoldsTables.record_row (h : HoldsTables env form records outputs)
    (hfits : RecordsFit form records) {place : Nat} {record : Cells}
    (hrecord : records[place]? = some record) : ∃ answers,
      itemAnswers env record (.dict record) = .ok answers ∧
      (tableRows outputs form.surveyName)[place]? =
        some (Dict.insert (Dict.insert answers "_index" (.int (place + 1 : Nat)))
          "_parent_index" (.int (-1))) := by
  have hfit := hfits record (List.mem_of_getElem? hrecord)
  refine ⟨_, itemAnswers_eq env hfit.1 hfit, ?_⟩
  rw [h.record_rows, getElem?_recordRows, hrecord, Nat.zero_add]
  rfl

/-- An item has the row with its number. -/
theorem HoldsTables.item_row (h : HoldsTables env form records outputs)
    (hfits : RecordsFit form records) {container : ItemAddress} {key : String} {position : Nat}
    {value : PyValue} (hvalue : dataAt records (container.item key position) = some value) :
    ∃ record answers, records[container.record]? = some record ∧
      itemAnswers env record value = .ok answers ∧
      (tableRows outputs key)[numberIn (formRows form records) (container.item key position) - 1]? =
        some ([("_index",
            .int (numberIn (formRows form records) (container.item key position))),
          ("_parent_index", .int (numberIn (formRows form records) container)),
          ("_parent_table_name", .str (tableName form.surveyName container))] ++ answers) := by
  -- The row of the item.
  obtain ⟨row, hrow, haddress, hdata⟩ := (mem_itemRowsOfRecords_iff form.surveyName 0 (fun _ => 0)
    hfits container.record (container.path ++ [(key, position)]) value).mpr ⟨by simp, hvalue⟩
  rw [Nat.zero_add] at haddress
  have haddress : row.address = container.item key position := haddress
  obtain ⟨around, place, hplace⟩ := exists_container hrow
  have htable : row.table = key := by
    have hname := congrArg (tableName form.surveyName) (hplace.symm.trans haddress)
    rw [tableName_item, tableName_item] at hname
    exact hname
  have hrowFits := itemRowsOfRecords_table 0 _ hfits row hrow
  obtain ⟨hparent, hindex⟩ : row.parentTable = tableName form.surveyName container ∧
      row.parentIndex = numberIn (formRows form records) container :=
    parent_eq (formRows_nodup hfits) hrow haddress
  have hnumber : numberIn (formRows form records) (container.item key position) = row.index :=
    haddress ▸ numberIn_row (formRows_nodup hfits) hrow
  -- The record that the item is in.
  obtain ⟨record, hrecord, -⟩ := Option.bind_eq_some_iff.mp hvalue
  have hfit := hfits record (List.mem_of_getElem? hrecord)
  refine ⟨record, _, hrecord, itemAnswers_eq env hfit.1 (hdata ▸ hrowFits.data), ?_⟩
  obtain ⟨spot, heq, hget⟩ := (formRows_numbered form records).getElem?_eq hrow
  have hspot : row.index - 1 = spot := by
    rw [heq]
    omega
  rw [hnumber, hspot, h.item_rows key (htable ▸ hrowFits.ne_surveyName), List.getElem?_map, ← htable,
    hget]
  show some (writtenRow env _ row) = _
  have hat : records.getD row.address.record [] = record := by
    rw [haddress]
    exact congrArg (fun found => found.getD []) hrecord
  rw [writtenRow_eq, ← hparent, ← hindex, hat, hdata]

/-- Each row of a repeat is the row of one item. -/
theorem HoldsTables.existsUnique_address (h : HoldsTables env form records outputs)
    (hfits : RecordsFit form records) {table : String} (htable : table ≠ form.surveyName)
    {place : Nat} (hlt : place < (tableRows outputs table).length) :
    ∃! address, tableName form.surveyName address = table ∧ (dataAt records address).isSome ∧
      numberIn (formRows form records) address = place + 1 := by
  rw [h.item_rows table htable, List.length_map] at hlt
  have hget := List.getElem?_eq_getElem hlt
  obtain ⟨hrow, hgroup⟩ := (mem_ofGroup ItemRow.table).mp (List.mem_of_getElem? hget)
  have hnumber := (formRows_numbered form records).number_eq hget
  generalize (ofGroup ItemRow.table (formRows form records) table)[place] = row at *
  have hname : ∀ row ∈ formRows form records, tableName form.surveyName row.address = row.table := by
    intro row hrow
    obtain ⟨around, position, hplace⟩ := exists_container hrow
    rw [hplace, tableName_item]
  refine ⟨row.address, ⟨(hname row hrow).trans hgroup, ?_, ?_⟩, ?_⟩
  · have hdata := (mem_itemRowsOfRecords_iff form.surveyName 0 (fun _ => 0) hfits
      row.address.record row.address.path row.data).mp ⟨row, hrow, by rw [Nat.zero_add], rfl⟩
    rw [hdata.2]
    rfl
  · rw [numberIn_row (formRows_nodup hfits) hrow, hnumber]
    omega
  · rintro address ⟨htable', hsome, hnumber'⟩
    -- The address leads to an item, for a record is in another table.
    have hpath : address.path ≠ [] := by
      intro hnil
      refine htable (htable'.symm.trans ?_)
      rw [tableName, hnil]
      rfl
    obtain ⟨value, hvalue⟩ := Option.isSome_iff_exists.mp hsome
    obtain ⟨row', hrow', haddress, -⟩ := (mem_itemRowsOfRecords_iff form.surveyName 0 (fun _ => 0)
      hfits address.record address.path value).mpr ⟨hpath, hvalue⟩
    rw [Nat.zero_add] at haddress
    have haddress : row'.address = address := haddress
    rw [← haddress, numberIn_row (formRows_nodup hfits) hrow'] at hnumber'
    rw [← haddress, hname row' hrow'] at htable'
    have hsame : row' = row :=
      (formRows_numbered form records).eq_of_number hrow' hrow (htable'.trans hgroup.symm)
        (by rw [hnumber', hnumber]; omega)
    rw [← haddress, hsame]

/-- What a row says of its parent is true of one row. -/
theorem HoldsTables.parents (h : HoldsTables env form records outputs)
    (hfits : RecordsFit form records) {table : String} (htable : table ≠ form.surveyName) {cells : Cells}
    (hcells : cells ∈ tableRows outputs table) :
    ∃ parentTable parentIndex,
      Dict.get? cells "_parent_table_name" = some (.str parentTable) ∧
      Dict.get? cells "_parent_index" = some (.int parentIndex) ∧
      ∃! place : Nat, ((tableRows outputs parentTable)[place]?.bind fun parent =>
        Dict.get? parent "_index") = some (PyValue.int parentIndex) := by
  rw [h.item_rows table htable] at hcells
  obtain ⟨row, hrow, rfl⟩ := List.mem_map.mp hcells
  refine ⟨row.parentTable, row.parentIndex, rfl, rfl, ?_⟩
  have hmem := ((mem_ofGroup ItemRow.table).mp hrow).1
  have hplace : 1 ≤ row.parentIndex ∧
      row.parentIndex ≤ (tableRows outputs row.parentTable).length := by
    rcases itemRowsOfRecords_container _ _ _ _ row hmem with
      ⟨other, hparent, hindex, _, heq⟩ | ⟨parent, hmem', hparent, hindex, _, heq⟩
    · have hbound := (itemRowsOfRecords_record _ _ _ _ row hmem).2
      rw [heq] at hbound
      rw [hindex, hparent, h.record_rows, length_recordRows]
      have hbound : other < 0 + records.length := hbound
      omega
    · have hne := (itemRowsOfRecords_table 0 _ hfits parent hmem').ne_surveyName
      obtain ⟨spot, hnumber, hget⟩ := (formRows_numbered form records).getElem?_eq hmem'
      have hlt := (List.getElem?_eq_some_iff.mp hget).1
      rw [hindex, hparent, h.item_rows _ hne, List.length_map, hnumber]
      omega
  exact existsUnique_row (h.indices row.parentTable) hplace.1 hplace.2

end Tables

/-- A dict without metadata lists. -/
theorem DictFits.of_plain {items : Cells} (hnodup : (Dict.keys items).Nodup)
    (hnames : ∀ item ∈ items, '=' ∉ item.1.toList ∧ item.1 ∉ indexColumns)
    (hplain : ∀ item ∈ items, isMetadataList item.1 = false)
    (hrepeats : ∀ item ∈ items, item.2.isList →
      form.repeatsAround item.1 = depth ∧ item.1 ≠ form.surveyName) :
    DictFits form depth items where
  keys_nodup := hnodup
  names := by
    intro key hkey
    obtain ⟨item, hitem, rfl⟩ := List.mem_map.mp hkey
    exact (hnames item hitem).1
  columns := by
    intro _ key hkey
    obtain ⟨item, hitem, rfl⟩ := List.mem_map.mp hkey
    exact (hnames item hitem).2
  repeats := fun key children hmem _ => hrepeats _ hmem rfl
  metadata := by
    intro item hitem
    have hkey := hplain item hitem
    constructor <;> intro heq <;> rw [heq] at hkey <;> exact absurd hkey (by decide)

/-- A form of families: children, and the toys of the children. -/
def familyForm : RepeatForm where
  surveyName := "family"
  repeatsAround := fun key => if key = "children/toys" then 1 else 0

/-- The records of two families. -/
def familyRecords : List Cells :=
  [[("name", .str "Ann"),
    ("children", .list [
      .dict [("children/toys", .list [.dict [("children/toys/kind", .str "kite")],
        .dict [("children/toys/kind", .str "ball")]]), ("children/name", .str "Bob")],
      .dict [("children/name", .str "Cid")]])],
   [("children", .list [.dict [("children/name", .str "Dan"),
      ("children/toys", .list [.dict [("children/toys/kind", .str "boat")]])]]),
    ("name", .str "Eve")]]

end Onadata.Proofs
