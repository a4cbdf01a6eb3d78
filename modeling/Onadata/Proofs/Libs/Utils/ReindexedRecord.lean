import Onadata.Proofs.Libs.Utils.RecordColumns

/-!
# `Onadata.Proofs.Libs.Utils.ReindexedRecord`: the row of a record

`_reindex` on a record that answers a form: the columns are the cells of the record, each
under the column name of its position.

* `columnNames_eq`: the column name that `_reindex` puts together for a child of an item.
* `reindexWithin_list`: the columns of a list.
* `flatDict_eq`: the columns of a record.
-/

set_option autoImplicit false

namespace Onadata.Proofs

open Onadata.Lib

/-- The column of a cell. -/
def column (c : Cell) : String × PyValue :=
  (columnName c.1, c.2)

/-! ### Column names -/

@[simp]
theorem map_stepText_plainPath (path : List String) : (plainPath path).map stepText = path := by
  rw [plainPath, List.map_map]
  exact List.map_id' path

/-- The position of a list item, by the last name of the key. -/
theorem indexedPath_concat (names : List String) (name : String) (i : Nat) :
    indexedPath (names ++ [name]) i = plainPath names ++ [(name, some i)] := by
  induction names with
  | nil => rfl
  | cons first names ih => rw [List.cons_append, indexedPath_cons first (by simp), ih]; rfl

/-- The column name of a list item is that of the list with the index behind it. -/
theorem columnName_indexedPath (position : List Step) {path : List String} (hne : path ≠ [])
    (i : Nat) : columnName (position ++ plainPath path) ++ "[" ++ toString (i + 1) ++ "]" =
      columnName (position ++ indexedPath path i) := by
  obtain ⟨names, name, rfl⟩ := (List.eq_nil_or_concat' path).resolve_left hne
  have hplain : (position ++ plainPath (names ++ [name])).map stepText =
      (position.map stepText ++ names) ++ [name] := by
    rw [List.map_append, map_stepText_plainPath, List.append_assoc]
  have hindexed : (position ++ (plainPath names ++ [(name, some i)])).map stepText =
      (position.map stepText ++ names) ++ [stepText (name, some i)] := by
    rw [List.map_append, List.map_append, map_stepText_plainPath, List.append_assoc]
    rfl
  have htext : stepText (name, some i) = name ++ ("[" ++ (toString (i + 1) ++ "]")) := by
    simp [stepText, String.append_assoc]
  rw [columnName, columnName, hplain, indexedPath_concat, hindexed, htext, String.append_assoc,
    String.append_assoc, joinPath_append_text]

/-- The length of the position of a list item. -/
theorem length_indexedPath (path : List String) (i : Nat) :
    (indexedPath path i).length = path.length := by
  induction path with
  | nil => rfl
  | cons name path ih =>
      cases path with
      | nil => rfl
      | cons name' path =>
          rw [indexedPath_cons name (by simp), List.length_cons, ih]
          rfl

/-- The parts of a key. -/
theorem splitPath_joinPath_fields {names : List String} (h : ∀ name ∈ names, IsFieldName name)
    (hne : names ≠ []) : splitPath (joinPath names) = names :=
  splitPath_joinPath (fun name hname => (h name hname).1) hne

/-- A position with the field names of a path. -/
theorem hasFieldNames_plainPath {path : List String} (h : ∀ name ∈ path, IsFieldName name) :
    HasFieldNames (plainPath path) := by
  intro s hs
  obtain ⟨name, hname, rfl⟩ := List.mem_map.mp hs
  exact h name hname

theorem hasFieldNames_indexedPath {path : List String} (h : ∀ name ∈ path, IsFieldName name)
    (i : Nat) : HasFieldNames (indexedPath path i) :=
  fun s hs => h s.1 (mem_indexedPath hs)

theorem HasFieldNames.append {position position' : List Step} (h : HasFieldNames position)
    (h' : HasFieldNames position') : HasFieldNames (position ++ position') := by
  intro s hs
  exact (List.mem_append.mp hs).elim (h s) (h' s)

/-- The names that `_reindex` puts together for a child of an item are the texts of its
position. -/
theorem columnNames_eq {parentPrefix : Option (List String)} {position : List Step}
    {names path child : List String} (i : Nat)
    (hposition : HasFieldNames position) (hlength : position.length + path.length = names.length)
    (hnames : ∀ name ∈ names, IsFieldName name) (hpath : ∀ name ∈ path, IsFieldName name)
    (hne : path ≠ []) (hchild : ∀ name ∈ child, IsFieldName name) (hchildNe : child ≠ [])
    (hstart : indexedKey parentPrefix (joinPath names) = columnName (position ++ plainPath path)) :
    columnNames DEFAULT_INDEX_TAGS parentPrefix (joinPath names) (i + 1)
      (joinPath (names ++ child)) =
        (position ++ indexedPath path i ++ plainPath child).map stepText := by
  have hkey : HasFieldNames (position ++ plainPath path) :=
    hposition.append (hasFieldNames_plainPath hpath)
  have hitem : HasFieldNames (position ++ indexedPath path i ++ plainPath child) :=
    (hposition.append (hasFieldNames_indexedPath hpath i)).append (hasFieldNames_plainPath hchild)
  have hnested : ∀ name ∈ names ++ child, IsFieldName name := fun name hname =>
    (List.mem_append.mp hname).elim (hnames name) (hchild name)
  have hdrop : (splitPath (joinPath (names ++ child))).drop
      (splitPath (columnName (position ++ plainPath path))).length = child := by
    rw [splitPath_columnName hkey (by simp [plainPath, hne]),
      splitPath_joinPath_fields hnested (by simp [hchildNe])]
    simp [plainPath, hlength]
  have hindexed : (position ++ indexedPath path i).map stepText ≠ [] := by
    have hpos := List.length_pos_iff.mpr hne
    intro hnil
    have hzero := congrArg List.length hnil
    rw [List.length_map, List.length_append, length_indexedPath] at hzero
    simp only [List.length_nil] at hzero
    omega
  show splitPath (joinPath ((indexedKey parentPrefix (joinPath names) ++ "[" ++
    toString (i + 1) ++ "]") :: _)) = _
  have htexts : (position ++ indexedPath path i ++ plainPath child).map stepText =
      (position ++ indexedPath path i).map stepText ++ child := by
    rw [List.map_append, map_stepText_plainPath]
  rw [hstart, columnName_indexedPath position hne, hdrop, columnName,
    joinPath_joinPath_cons hindexed hchildNe, ← htexts]
  exact splitPath_columnName hitem (by simp [plainPath, hchildNe])

/-- The prefix that `_reindex` hands on for a child leads to the position of the child. -/
theorem indexedKey_child {position : List Step} {names child : List String}
    (hlength : position.length = names.length) (hnames : ∀ name ∈ names, IsFieldName name)
    (hchild : ∀ name ∈ child, IsFieldName name) (hne : child ≠ []) :
    indexedKey (some ((position ++ plainPath child).map stepText).dropLast)
      (joinPath (names ++ child)) = columnName (position ++ plainPath child) := by
  have hnested : ∀ name ∈ names ++ child, IsFieldName name := fun name hname =>
    (List.mem_append.mp hname).elim (hnames name) (hchild name)
  obtain ⟨rest, last, rfl⟩ := (List.eq_nil_or_concat' child).resolve_left hne
  have hstart : ((position ++ plainPath (rest ++ [last])).map stepText).dropLast =
      position.map stepText ++ rest := by
    rw [List.map_append, map_stepText_plainPath, ← List.append_assoc, List.dropLast_concat]
  have hdrop : (names ++ (rest ++ [last])).drop (position.map stepText ++ rest).length =
      [last] := by
    rw [← List.append_assoc]
    exact List.drop_left' (by simp [hlength])
  rw [hstart, indexedKey, splitPath_joinPath_fields hnested (by simp), hdrop, columnName,
    List.map_append, map_stepText_plainPath, List.append_assoc]

/-! ### The order of the form -/

/-- The keys of a repeat's elements, with select multiples in one column. -/
theorem flatMap_elementKeys (elements : List PlacedElement) :
    elements.flatMap (elementKeys false) =
      (elements.filter isExported).map PlacedElement.xpath := by
  induction elements with
  | nil => rfl
  | cons element elements ih =>
      obtain ⟨path, element⟩ := element
      rw [List.flatMap_cons, ih, List.filter_cons]
      cases element with
      | question name type choices =>
          cases hexclude : questionTypesToExclude type with
          | true => simp [elementKeys, isExported, hexclude]
          | false => simp [elementKeys, isExported, hexclude]
      | _ => rfl

/-- The keys of a repeat's elements are those of its children. -/
theorem elementKeys_of_isRepeat {form : XForm} {names : List String} (h : IsRepeat form names) :
    (form.getChildElements (joinPath names)).flatMap (elementKeys false) =
      (childPaths form names).map fun child => joinPath (names ++ child) := by
  rw [flatMap_elementKeys, childPaths, List.map_map]
  refine List.map_congr_left fun element helement => ?_
  obtain ⟨rest, hrest⟩ := h.placed element (List.mem_of_mem_filter helement)
  show joinPath element.1 = joinPath (names ++ element.1.drop names.length)
  rw [← hrest, List.drop_left]

/-- The keys of the children of a repeat. -/
theorem joinPath_child_inj {form : XForm} {names : List String} (h : IsRepeat form names)
    {child child' : List String} (hchild : child ∈ childPaths form names)
    (hchild' : child' ∈ childPaths form names)
    (heq : joinPath (names ++ child) = joinPath (names ++ child')) : child = child' := by
  have hnames : ∀ child ∈ childPaths form names, ∀ name ∈ names ++ child, IsName name := by
    intro child hchild name hname
    exact (List.mem_append.mp hname).elim (fun hname => (h.fieldNames name hname).1)
      fun hname => (h.paths.names child hchild name hname).1
  exact List.append_cancel_left (joinPath_inj (hnames child hchild) (hnames child' hchild') heq)

/-- The paths of the children are different. -/
theorem SectionPaths.nodup {paths : List (List String)} (h : SectionPaths paths) :
    paths.Nodup :=
  h.incomparable.imp fun hpath heq => hpath.1 ⟨[], (List.append_nil _).trans heq⟩

/-- An item in the order of the form, with `'n/a'` for missing answers. -/
theorem reindexedItem_eq {form : XForm} {names : List String} (h : IsRepeat form names)
    (item : List (String × PyValue)) :
    reindexedItem form false (joinPath names) item =
      (childPaths form names).map fun child => (joinPath (names ++ child),
        (Dict.get? item (joinPath (names ++ child))).getD (.str DEFAULT_NA_REP)) := by
  have hordered : getOrderedRepeatValue form false (joinPath names) item =
      (childPaths form names).map fun child => (joinPath (names ++ child),
        (Dict.get? item (joinPath (names ++ child))).getD (.str DEFAULT_NA_REP)) := by
    rw [getOrderedRepeatValue, elementKeys_of_isRepeat h, List.foldl_map]
    refine Eq.trans ?_ (Dict.update_nil_of_nodup ?_)
    · rw [Dict.update, List.foldl_map]
    · rw [Dict.keys, List.map_map]
      exact h.paths.nodup.map_on fun child hchild child' hchild' heq =>
        joinPath_child_inj h hchild hchild' heq
  have hget : Dict.get? (getOrderedRepeatValue form false (joinPath names) item)
      (joinPath names) = none := by
    rw [hordered, Dict.get?_eq_none, Dict.keys, List.map_map]
    intro hmem
    obtain ⟨child, hchild, heq⟩ := List.mem_map.mp hmem
    have hnames : ∀ name ∈ names ++ child, IsName name := fun name hname =>
      (List.mem_append.mp hname).elim (fun hname => (h.fieldNames name hname).1)
        fun hname => (h.paths.names child hchild name hname).1
    have hpath := joinPath_inj hnames (fun name hname => (h.fieldNames name hname).1) heq
    exact h.paths.ne_nil child hchild (by simpa using hpath)
  rw [reindexedItem, hget, hordered]

/-! ### The columns of a list -/

/-- The columns of cells at different positions are different. -/
theorem nodup_columns {position : List Step} {cells : List Cell} (hposition : HasFieldNames position)
    (hapart : cells.Pairwise fun c c' => Apart c.1 c'.1) (hcells : ∀ c ∈ cells, IsColumn c) :
    (Dict.keys ((under position cells).map column)).Nodup := by
  rw [Dict.keys, under, List.map_map, List.map_map]
  refine List.pairwise_map.mpr (List.Pairwise.imp_of_mem ?_ hapart)
  intro c c' hc hc' happ heq
  have hpath := columnName_inj (hposition.append (hcells c hc).names)
    (hposition.append (hcells c' hc').names) heq
  exact happ.ne (List.append_cancel_left hpath)

theorem under_flatMap {Entry : Type} (position : List Step) (entries : List Entry)
    (cells : Entry → List Cell) :
    under position (entries.flatMap cells) = entries.flatMap fun e => under position (cells e) :=
  List.map_flatMap

/-- The key of a child of a repeat is not reserved: it has a slash. -/
theorem joinPath_child_ne {names child : List String} (hnames : ∀ name ∈ names, IsFieldName name)
    (hchild : ∀ name ∈ child, IsFieldName name) (hne : names ≠ []) (hchildNe : child ≠ [])
    {key : String} (hkey : IsName key) : joinPath (names ++ child) ≠ key := by
  intro heq
  rw [← joinPath_singleton key] at heq
  have hpath := joinPath_inj (fun name hname => (List.mem_append.mp hname).elim
    (fun hname => (hnames name hname).1) fun hname => (hchild name hname).1)
    (by simpa using hkey) heq
  have hlength := congrArg List.length hpath
  have hpos := List.length_pos_iff.mpr hne
  have hpos' := List.length_pos_iff.mpr hchildNe
  simp only [List.length_append, List.length_singleton] at hlength
  omega

/-- The columns of a list are its cells, each below the position of the dict that the list is
in. -/
theorem reindexWithin_list {form : XForm} {names : List String} {value : PyValue}
    (h : Answered form names value) : ∀ {fuel : Nat} {path : List String}
      {position : List Step} {parentPrefix : Option (List String)}, value.depth ≤ fuel →
      path ≠ [] → HasFieldNames position → position.length + path.length = names.length →
      (∀ name ∈ path, IsFieldName name) →
      indexedKey parentPrefix (joinPath names) = columnName (position ++ plainPath path) →
      joinPath names ∉ [ATTACHMENTS, NOTES] → value.isList = true →
        reindexWithin form false DEFAULT_INDEX_TAGS fuel (joinPath names) value parentPrefix =
          (under position (valueCells form fuel names path value)).map column := by
  induction h with
  | answer hanswer =>
      intro _ _ _ _ _ _ _ _ _ _ _ hlist
      rw [isList_of_isScalar (isScalar_of_isAnswer hanswer)] at hlist
      exact absurd hlist (by simp)
  | @items names items hitems hrepeat hkeys hvalues ih =>
      intro fuel path position parentPrefix hfuel hne hposition hlength hpath hstart hkey _
      obtain ⟨fuel, rfl⟩ := exists_fuel hfuel
      have hnamesNe : names ≠ [] := by
        intro hnil
        have hpos := List.length_pos_iff.mpr hne
        rw [hnil, List.length_nil] at hlength
        omega
      have hitemPosition : ∀ i, HasFieldNames (position ++ indexedPath path i) := fun i =>
        hposition.append (hasFieldNames_indexedPath hpath i)
      -- One child of item `i`: the columns of its value.
      have hchild : ∀ (i : Nat), ∀ item ∈ items, ∀ child ∈ childPaths form names,
          ∀ (record : List (String × PyValue)) (value : PyValue),
            value = (Dict.get? item (joinPath (names ++ child))).getD (.str DEFAULT_NA_REP) →
          (let xpaths := columnNames DEFAULT_INDEX_TAGS parentPrefix (joinPath names) (i + 1)
              (joinPath (names ++ child))
            if value.isList then
              Dict.update record (reindexWithin form false DEFAULT_INDEX_TAGS fuel
                (joinPath (names ++ child)) value (some xpaths.dropLast))
            else Dict.insert record (joinPath xpaths) value) =
          Dict.update record ((under (position ++ indexedPath path i)
            (valueCells form fuel (names ++ child) child value)).map column) := by
        intro i item hitem child hchild record value hvalue
        have hchildNames := hrepeat.paths.names child hchild
        have hchildNe := hrepeat.paths.ne_nil child hchild
        simp only [columnNames_eq i hposition hlength hrepeat.fieldNames hpath hne hchildNames
          hchildNe hstart]
        split
        · rename_i hlist
          cases hget : Dict.get? item (joinPath (names ++ child)) with
          | none =>
              rw [hvalue, hget] at hlist
              simp [PyValue.isList] at hlist
          | some value' =>
              rw [hget] at hvalue
              obtain rfl : value = value' := hvalue
              have hdepth := depth_lt_of_get? hitem hget
              have hpositionLength : (position ++ indexedPath path i).length = names.length := by
                rw [List.length_append, length_indexedPath, hlength]
              rw [ih item hitem child hchild value hget (by omega) hchildNe (hitemPosition i)
                (by rw [hpositionLength, List.length_append]) hchildNames
                (indexedKey_child hpositionLength hrepeat.fieldNames hchildNames hchildNe)
                (by
                  simp only [List.mem_cons, List.not_mem_nil, or_false, not_or]
                  exact ⟨joinPath_child_ne hrepeat.fieldNames hchildNames hnamesNe hchildNe
                    (by decide), joinPath_child_ne hrepeat.fieldNames hchildNames hnamesNe
                    hchildNe (by decide)⟩) hlist]
        · rename_i hlist
          rw [valueCells_of_not_isList _ _ _ _ (Bool.eq_false_iff.mpr hlist)]
          rfl
      -- The items one after the other, and no column is there twice.
      have hcolumns := nodup_columns hposition (pairwise_apart_valueCells
        (.items hitems hrepeat hkeys hvalues) (fuel + 1) hne) (isColumn_of_mem_valueCells
          (.items hitems hrepeat hkeys hvalues) hfuel hne hpath)
      rw [← Dict.update_nil_of_nodup hcolumns, reindexWithin,
        if_pos ⟨by simpa using hitems, hkey⟩, valueCells_list]
      have hindices : (items.map PyValue.dict).zipIdx 1 =
          items.zipIdx.map fun item => (PyValue.dict item.1, item.2 + 1) := by
        show (items.map PyValue.dict).zipIdx (0 + 1) = _
        rw [List.zipIdx_succ, List.zipIdx_map, List.map_map]
        rfl
      rw [hindices, List.foldl_map]
      refine (List.foldl_ext _ (fun record item => Dict.update record
        ((under (position ++ indexedPath path item.2)
          (itemCells form fuel names item.1)).map column)) [] fun record item hmem => ?_).trans ?_
      · have hitem : item.1 ∈ items := List.fst_mem_of_mem_zipIdx hmem
        show (reindexedItem form false (joinPath names) item.1).foldl _ record = _
        rw [reindexedItem_eq hrepeat, List.foldl_map]
        refine (List.foldl_ext _ (fun record child => Dict.update record
          ((under (position ++ indexedPath path item.2) (valueCells form fuel (names ++ child) child
            ((Dict.get? item.1 (joinPath (names ++ child))).getD
              (.str DEFAULT_NA_REP)))).map column)) record fun record child hmem =>
          hchild item.2 item.1 hitem child hmem record _ rfl).trans ?_
        rw [Dict.foldl_update, itemCells, under_flatMap, List.map_flatMap]
      · rw [Dict.foldl_update, listCells, under_flatMap, List.map_flatMap, List.zipIdx_map,
          List.flatMap_map]
        refine congrArg _ (List.flatMap_congr fun item _ => ?_)
        rw [under_append]
        rfl

end Onadata.Proofs
