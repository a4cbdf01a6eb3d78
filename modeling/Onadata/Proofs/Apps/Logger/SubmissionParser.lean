import Mathlib.Data.List.Induction
import Onadata.Lib.PyDict
import Onadata.Proofs.Apps.Logger.TextLeaves

/-!
# `Onadata.Proofs.Apps.Logger.SubmissionParser`: the parser loses nothing

The parser builds a nested dict and flattens it. Both steps keep the leaves.

* `xmlNodeToDict_leaves`: the nested dict has the leaves of the tree.
* `flattenValue_leaves`: the flat dict has the leaves of the nested one.
* `parse_leaves`: the two together.
-/

set_option autoImplicit false

namespace Onadata.Proofs

open Onadata.Lib

/-! ### Nested dicts -/

mutual

/-- The leaves of a value of the nested dict. `path` are the names from the root to it. -/
def leavesOf (path : List String) : PyValue → List Leaf
  | .str value => [⟨[], joinPath path.tail, value⟩]
  | .list items => leavesOfItems path 0 items
  | .dict items => leavesOfDict path items
  | _ => []

/-- The leaves of a nested dict. -/
def leavesOfDict (path : List String) : List (String × PyValue) → List Leaf
  | [] => []
  | (key, value) :: rest => leavesOf (path ++ [key]) value ++ leavesOfDict path rest

/-- The leaves of a list, from position `i` on. -/
def leavesOfItems (path : List String) (i : Nat) : List PyValue → List Leaf
  | [] => []
  | item :: rest =>
      (leavesOf path item).map (Leaf.inside (joinPath path.tail, i)) ++
        leavesOfItems path (i + 1) rest

end

/-- A value of the nested dict: texts, lists without lists, and dicts with different
names. -/
inductive Nested : PyValue → Prop
  | str (value : String) : Nested (.str value)
  | list {items : List PyValue} : (∀ item ∈ items, Nested item) →
      (∀ item ∈ items, item.isList = false) → Nested (.list items)
  | dict {items : List (String × PyValue)} : (Dict.keys items).Nodup →
      (∀ item ∈ items, IsName item.1) → (∀ item ∈ items, Nested item.2) → Nested (.dict items)

theorem leavesOfDict_eq_flatMap (path : List String) (items : List (String × PyValue)) :
    leavesOfDict path items = items.flatMap fun item => leavesOf (path ++ [item.1]) item.2 := by
  induction items with
  | nil => rfl
  | cons item items ih => rw [leavesOfDict, ih, List.flatMap_cons]

theorem leavesOfItems_eq_flatMap (path : List String) (i : Nat) (items : List PyValue) :
    leavesOfItems path i items = (items.zipIdx i).flatMap fun item =>
      (leavesOf path item.1).map (Leaf.inside (joinPath path.tail, item.2)) := by
  induction items generalizing i with
  | nil => rfl
  | cons item items ih => rw [leavesOfItems, ih, List.zipIdx_cons, List.flatMap_cons]

theorem flattenDictNestRepeats_eq_flatMap (path : List String)
    (items : List (String × PyValue)) :
    flattenDictNestRepeats path items =
      items.flatMap fun item => flattenValue (path ++ [item.1]) item.2 := by
  induction items with
  | nil => rfl
  | cons item items ih => rw [flattenDictNestRepeats, ih, List.flatMap_cons]

theorem flatLeavesOfDict_eq_flatMap (items : List (String × PyValue)) :
    flatLeavesOfDict items = items.flatMap fun item => flatLeaves item.1 item.2 := by
  induction items with
  | nil => rfl
  | cons item items ih => rw [flatLeavesOfDict, ih, List.flatMap_cons]

/-! ### Flattening -/

/-- What a value at `path` is flattened to: different paths below `path` with the leaves of
the value. -/
structure Flattened (path : List String) (value : PyValue)
    (pairs : List (List String × PyValue)) : Prop where
  below : ∀ pair ∈ pairs, path <+: pair.1
  names : ∀ pair ∈ pairs, ∀ name ∈ pair.1, IsName name
  nodup : (pairs.map (·.1)).Nodup
  leaves : (pairs.flatMap fun pair => flatLeaves (joinPath pair.1.tail) pair.2) =
    leavesOf path value

/-- Different paths below the root stay different as keys of a dict. -/
theorem Flattened.flatLeavesOfDict {path : List String} {value : PyValue}
    {pairs : List (List String × PyValue)} (h : Flattened path value pairs)
    (hpath : path ≠ []) : flatLeavesOfDict (collectPaths pairs) = leavesOf path value := by
  have hkeys : (Dict.keys (pairs.map fun pair => (joinPath pair.1.tail, pair.2))).Nodup := by
    rw [Dict.keys, List.map_map]
    refine List.Nodup.map_on ?_ (List.Nodup.of_map (·.1) h.nodup)
    intro pair hpair other hother heq
    -- The tails are the same by the key, the roots because both are below `path`.
    have htail : pair.1.tail = other.1.tail :=
      joinPath_inj (fun name hname => h.names pair hpair name (List.mem_of_mem_tail hname))
        (fun name hname => h.names other hother name (List.mem_of_mem_tail hname)) heq
    obtain ⟨root, rest, rfl⟩ := List.exists_cons_of_ne_nil hpath
    obtain ⟨below, hbelow⟩ := h.below pair hpair
    obtain ⟨below', hbelow'⟩ := h.below other hother
    have hpaths : pair.1 = other.1 := by
      rw [← hbelow, ← hbelow'] at htail ⊢
      exact congrArg (root :: ·) htail
    exact List.inj_on_of_nodup_map h.nodup hpair hother hpaths
  rw [collectPaths, ← List.foldl_map (f := fun pair : List String × PyValue =>
    (joinPath pair.1.tail, pair.2)) (g := fun d pair => Dict.insert d pair.1 pair.2),
    Dict.foldl_insert_of_nodup [] _ (by simpa using hkeys), List.nil_append,
    flatLeavesOfDict_eq_flatMap, List.flatMap_map]
  exact h.leaves

/-- A list whose items are flattened to dicts with their leaves. -/
theorem flattenItems_leaves (path : List String) (i : Nat) (items : List PyValue)
    (hitems : ∀ item ∈ items, ∃ d, flattenItem path item = .dict d ∧
      flatLeavesOfDict d = leavesOf path item) :
    flatLeavesOfList (joinPath path.tail) i (flattenItems path items) =
      leavesOfItems path i items := by
  induction items generalizing i with
  | nil => rfl
  | cons item items ih =>
      rw [List.forall_mem_cons] at hitems
      obtain ⟨d, hd, hleaves⟩ := hitems.1
      rw [flattenItems, hd, flatLeavesOfList, hleaves, ih (i + 1) hitems.2, leavesOfItems]

/-- A value of the nested dict is flattened without a loss. -/
theorem flattenValue_leaves {value : PyValue} (hvalue : Nested value) :
    ∀ path : List String, path ≠ [] → (∀ name ∈ path, IsName name) →
      Flattened path value (flattenValue path value) := by
  induction hvalue with
  | str value =>
      intro path hpath hnames
      refine ⟨by simp [flattenValue], ?_, by simp [flattenValue], ?_⟩
      · simpa [flattenValue] using hnames
      · simp [flattenValue, flatLeaves, leavesOf]
  | @dict items hnodup hkeys hnested ih =>
      intro path hpath hnames
      have hitem : ∀ item ∈ items, Flattened (path ++ [item.1]) item.2
          (flattenValue (path ++ [item.1]) item.2) := by
        intro item hmem
        refine ih item hmem (path ++ [item.1]) (by simp) fun name hname => ?_
        rcases List.mem_append.mp hname with hname | hname
        · exact hnames name hname
        · rw [List.mem_singleton.mp hname]
          exact hkeys item hmem
      rw [flattenValue, flattenDictNestRepeats_eq_flatMap]
      refine ⟨?_, ?_, ?_, ?_⟩
      · intro pair hpair
        obtain ⟨item, hmem, hpair⟩ := List.mem_flatMap.mp hpair
        exact (List.prefix_append path [item.1]).trans ((hitem item hmem).below pair hpair)
      · intro pair hpair
        obtain ⟨item, hmem, hpair⟩ := List.mem_flatMap.mp hpair
        exact (hitem item hmem).names pair hpair
      · rw [List.map_flatMap, List.nodup_flatMap]
        refine ⟨fun item hmem => (hitem item hmem).nodup, ?_⟩
        -- The paths of two items differ after `path`.
        refine (List.pairwise_map.mp hnodup).imp_of_mem fun {item other} hmem hother hne => ?_
        intro below hbelow hbelow'
        obtain ⟨pair, hpair, rfl⟩ := List.mem_map.mp hbelow
        obtain ⟨pair', hpair', heq⟩ := List.mem_map.mp hbelow'
        obtain ⟨rest, hrest⟩ := (hitem item hmem).below pair hpair
        obtain ⟨rest', hrest'⟩ := (hitem other hother).below pair' hpair'
        rw [heq, ← hrest, List.append_assoc, List.append_assoc] at hrest'
        have hcons := List.append_cancel_left hrest'
        exact hne (List.cons.inj hcons).1.symm
      · rw [List.flatMap_assoc, leavesOf, leavesOfDict_eq_flatMap]
        exact List.flatMap_congr fun item hmem => (hitem item hmem).leaves
  | @list items hnested hlists ih =>
      intro path hpath hnames
      refine ⟨by simp [flattenValue], ?_, by simp [flattenValue], ?_⟩
      · simpa [flattenValue] using hnames
      · have hitem : ∀ item ∈ items, ∃ d, flattenItem path item = .dict d ∧
            flatLeavesOfDict d = leavesOf path item := by
          intro item hmem
          have hflat := ih item hmem path hpath hnames
          cases hnested item hmem with
          | str value => exact ⟨_, rfl, by simp [flatLeavesOfDict, flatLeaves, leavesOf]⟩
          | dict _ _ _ => exact ⟨_, rfl, hflat.flatLeavesOfDict hpath⟩
          | list _ _ => exact absurd (hlists _ hmem) (by simp [PyValue.isList])
        rw [flattenValue, List.flatMap_singleton, flatLeaves, leavesOf]
        exact flattenItems_leaves path 0 items hitem

/-! ### From the tree to the nested dict -/

/-- The value of a name in the dict of `_xml_node_to_dict`: one child alone, or a list. -/
def combine (isList : Bool) : List PyValue → PyValue
  | [value] => if isList then .list [value] else value
  | values => .list values

/-- The children of an element with data, by their names. -/
def childValues (repeats : List String) (nodeNames : List String) :
    List XmlNode → List (String × PyValue)
  | [] => []
  | .element name children :: rest =>
      match xmlNodeToDict repeats false (nodeNames ++ [name.val]) (.element name children) with
      | none => childValues repeats nodeNames rest
      | some (_, value) => (name.val, value) :: childValues repeats nodeNames rest
  | _ :: rest => childValues repeats nodeNames rest

/-- The loop over plain children adds the ones with data. -/
theorem xmlChildrenToDict_eq_ok (repeats : List String) (encrypted : Bool)
    (nodeNames : List String) (value : List (String × PyValue)) (children : List XmlNode)
    (hplain : arePlain children = true) :
    xmlChildrenToDict repeats encrypted nodeNames value children =
      .ok ((childValues repeats nodeNames children).foldl
        (fun value child => addChild
          (isListNode repeats encrypted (xpathFromXmlNode (nodeNames ++ [child.1])) child.1)
          value child.1 child.2) value) := by
  induction children generalizing value with
  | nil => rfl
  | cons child children ih =>
      have hall := arePlain_iff.mp hplain
      rw [List.forall_mem_cons] at hall
      obtain ⟨⟨name, below, rfl⟩, -⟩ := hall.1
      have hrest : arePlain children = true := arePlain_iff.mpr hall.2
      rw [xmlChildrenToDict, childValues]
      cases xmlNodeToDict repeats false (nodeNames ++ [name.val]) (.element name below) with
      | none => exact ih value hrest
      | some item => exact ih _ hrest

/-- One more child of a name. -/
theorem addChild_eq_insert (isList : Bool) {value : List (String × PyValue)} {name : String}
    {values : List PyValue} (child : PyValue)
    (hget : Dict.get? value name =
      if values = [] then none else some (combine isList values))
    (hlists : ∀ v ∈ values, v.isList = false) :
    addChild isList value name child =
      Dict.insert value name (combine isList (values ++ [child])) := by
  match values with
  | [] =>
      rw [if_pos rfl] at hget
      rw [addChild, hget]
      rfl
  | [first] =>
      rw [if_neg (by simp)] at hget
      have hfirst : first.isList = false := hlists first List.mem_cons_self
      cases isList with
      | true =>
          rw [addChild, hget]
          rfl
      | false =>
          rw [addChild, hget]
          cases first with
          | list items => exact absurd hfirst (by simp [PyValue.isList])
          | _ => rfl
  | first :: second :: rest =>
      rw [if_neg (by simp)] at hget
      rw [addChild, hget]
      rfl

/-- The loop keeps for each name the values of its children, in order. -/
theorem get?_foldl_addChild (isList : String → Bool) (children : List (String × PyValue))
    (hlists : ∀ child ∈ children, child.2.isList = false) :
    let value := children.foldl
      (fun value child => addChild (isList child.1) value child.1 child.2) []
    (Dict.keys value).Nodup ∧ ∀ name, Dict.get? value name =
      if valuesOf children name = [] then none
      else some (combine (isList name) (valuesOf children name)) := by
  induction children using List.reverseRecOn with
  | nil => exact ⟨List.nodup_nil, fun name => rfl⟩
  | append_singleton children child ih =>
      obtain ⟨hnodup, hget⟩ := ih fun child hmem => hlists child (List.mem_append_left _ hmem)
      rw [List.foldl_append, List.foldl_cons, List.foldl_nil,
        addChild_eq_insert (isList child.1) child.2 (hget child.1) fun v hv =>
          hlists (child.1, v) (List.mem_append_left _ (mem_valuesOf.mp hv))]
      refine ⟨Dict.nodup_keys_insert hnodup _ _, fun name => ?_⟩
      rw [Dict.get?_insert, valuesOf_append_singleton]
      by_cases hname : name = child.1
      · rw [if_pos hname, if_pos hname.symm, if_neg (by simp), hname]
      · rw [if_neg hname, if_neg (Ne.symm hname)]
        exact hget name

/-- A value with the leaves of a subtree. -/
structure Faithful (path : List String) (value : PyValue) (leaves : List Leaf) : Prop where
  perm : (leavesOf path value).Perm leaves
  nested : Nested value
  notList : value.isList = false
  nonempty : leaves ≠ []

/-- The leaves of the value of a name, one child or several. -/
theorem leavesOf_combine (path : List String) (isList : Bool) {values : List PyValue}
    (hne : values ≠ []) : leavesOf path (combine isList values) =
      (values.zipIdx 0).flatMap fun item =>
        if isList || decide (2 ≤ values.length) then
          (leavesOf path item.1).map (Leaf.inside (joinPath path.tail, item.2))
        else leavesOf path item.1 := by
  match values with
  | [value] =>
      cases isList with
      | true => simp [combine, leavesOf, leavesOfItems_eq_flatMap]
      | false => simp [combine]
  | first :: second :: rest =>
      rw [combine, leavesOf, leavesOfItems_eq_flatMap]
      · simp
      · simp

/-- The dict of an element has the leaves of its children. -/
theorem leavesOfDict_perm_arrange (path : List String) (isList : String → Bool)
    (children : List (String × PyValue)) (hlists : ∀ child ∈ children, child.2.isList = false) :
    (leavesOfDict path (children.foldl
      (fun value child => addChild (isList child.1) value child.1 child.2) [])).Perm
        (arrange isList (fun name => joinPath (path ++ [name]).tail)
          (children.map fun child => (child.1, leavesOf (path ++ [child.1]) child.2))) := by
  obtain ⟨hnodup, hget⟩ := get?_foldl_addChild isList children hlists
  generalize children.foldl
    (fun value child => addChild (isList child.1) value child.1 child.2) [] = value
    at hnodup hget
  have hkeys : ∀ name, name ∈ Dict.keys value ↔ valuesOf children name ≠ [] := by
    intro name
    rw [← not_iff_not, ← Dict.get?_eq_none, hget, not_not]
    split
    · simp [*]
    · simp [*]
  have hvalue : leavesOfDict path value = (Dict.keys value).flatMap fun name =>
      leavesOf (path ++ [name]) (combine (isList name) (valuesOf children name)) := by
    rw [leavesOfDict_eq_flatMap, Dict.keys, List.flatMap_map]
    refine List.flatMap_congr fun item hitem => ?_
    have hitemValue := Dict.get?_of_mem hnodup hitem
    rw [hget, if_neg ((hkeys item.1).mp (List.mem_map_of_mem hitem))] at hitemValue
    rw [Option.some.inj hitemValue]
  rw [hvalue, arrange]
  refine List.Perm.trans (List.Perm.of_eq ?_) (flatMap_numberFrom_perm
    (fun name i leaves =>
      if isList name || decide (2 ≤ ((children.map fun child =>
        (child.1, leavesOf (path ++ [child.1]) child.2)).map (·.1)).count name) then
          leaves.map (Leaf.inside (joinPath (path ++ [name]).tail, i))
      else leaves) [] _ hnodup ?_).symm
  · refine List.flatMap_congr fun name hname => ?_
    rw [leavesOf_combine _ _ ((hkeys name).mp hname), length_valuesOf,
      valuesOf_map (fun name => leavesOf (path ++ [name])), List.map_map, List.zipIdx_map,
      List.flatMap_map]
    rfl
  · intro pair hpair
    obtain ⟨child, hchild, rfl⟩ := List.mem_map.mp hpair
    rw [hkeys, ne_eq, valuesOf_eq_nil, not_not]
    exact List.mem_map_of_mem hchild

/-- Children with the same leaves are arranged to the same leaves. -/
theorem arrange_perm (isList : String → Bool) (xpathOf : String → String)
    {children children' : List (String × List Leaf)}
    (h : List.Forall₂ (fun c c' => c.1 = c'.1 ∧ c.2.Perm c'.2) children children') :
    (arrange isList xpathOf children).Perm (arrange isList xpathOf children') := by
  have hnames : children.map (·.1) = children'.map (·.1) := by
    induction h with
    | nil => rfl
    | cons hfirst _ ih => rw [List.map_cons, List.map_cons, hfirst.1, ih]
  rw [arrange, arrange, hnames]
  generalize children'.map (·.1) = names
  generalize ([] : List String) = seen
  clear hnames
  induction h generalizing seen with
  | nil => exact List.Perm.refl _
  | @cons child child' _ _ hfirst _ ih =>
      obtain ⟨name, leaves⟩ := child
      obtain ⟨name', leaves'⟩ := child'
      obtain ⟨rfl, hleaves⟩ := hfirst
      rw [numberFrom, numberFrom, List.flatMap_cons, List.flatMap_cons]
      refine List.Perm.append ?_ (ih (name :: seen))
      split
      · exact hleaves.map _
      · exact hleaves

/-- Children with leaves have leaves. -/
theorem arrange_ne_nil (isList : String → Bool) (xpathOf : String → String)
    {children : List (String × List Leaf)} (hne : children ≠ [])
    (hleaves : ∀ child ∈ children, child.2 ≠ []) : arrange isList xpathOf children ≠ [] := by
  obtain ⟨child, rest, rfl⟩ := List.exists_cons_of_ne_nil hne
  have hchild := hleaves child List.mem_cons_self
  rw [arrange, numberFrom, List.flatMap_cons]
  intro hnil
  have hfirst := (List.append_eq_nil_iff.mp hnil).1
  split at hfirst
  · exact hchild (List.map_eq_nil_iff.mp hfirst)
  · exact hchild hfirst

/-- The dict of a plain internal node. -/
theorem xmlNodeToDict_internal (repeats : List String) (encrypted : Bool)
    (nodeNames : List String) (name : XmlName) {child : XmlNode} {children : List XmlNode}
    (h : arePlain (child :: children) = true) :
    xmlNodeToDict repeats encrypted nodeNames (.element name (child :: children)) =
      match (childValues repeats nodeNames (child :: children)).foldl
        (fun value child => addChild
          (isListNode repeats encrypted (xpathFromXmlNode (nodeNames ++ [child.1])) child.1)
          value child.1 child.2) [] with
      | [] => none
      | item :: value => some (name.val, .dict (item :: value)) := by
  have hloop := xmlChildrenToDict_eq_ok repeats encrypted nodeNames [] _ h
  obtain ⟨⟨_, _, rfl⟩, -⟩ := arePlain_iff.mp h child List.mem_cons_self
  rw [xmlNodeToDict, hloop]
  · generalize List.foldl _ _ _ = value
    cases value with
    | nil => rfl
    | cons item value => rfl
  · simp

/-- The value of a name is a value of the nested dict. -/
theorem nested_combine (isList : Bool) {values : List PyValue}
    (hnested : ∀ value ∈ values, Nested value)
    (hlists : ∀ value ∈ values, value.isList = false) : Nested (combine isList values) := by
  unfold combine
  split
  · split
    · exact .list hnested hlists
    · exact hnested _ List.mem_cons_self
  · exact .list hnested hlists

/-- The parser finds no data exactly where there is no leaf, and else a value with the
leaves. -/
def ParsesTo (nodeName : String) (nodeNames : List String) (leaves : List Leaf) :
    Option (String × PyValue) → Prop
  | none => leaves = []
  | some (key, value) => key = nodeName ∧ Faithful nodeNames value leaves

/-- The children with data are the ones with leaves. -/
theorem childValues_leaves (repeats : List String) (nodeNames : List String)
    {children : List XmlNode} (hplain : arePlain children = true)
    (ih : ∀ child ∈ children, ∀ (encrypted : Bool) (nodeNames : List String),
      ParsesTo child.nodeName nodeNames (treeLeaves repeats encrypted nodeNames child)
        (xmlNodeToDict repeats encrypted nodeNames child)) :
    List.Forall₂ (fun c c' => c.1 = c'.1 ∧ IsName c.1 ∧ Faithful (nodeNames ++ [c.1]) c.2 c'.2)
      (childValues repeats nodeNames children) (childrenLeaves repeats nodeNames children) := by
  induction children with
  | nil => exact .nil
  | cons child children ihChildren =>
      have hall := arePlain_iff.mp hplain
      rw [List.forall_mem_cons] at hall ih
      obtain ⟨⟨name, below, rfl⟩, -⟩ := hall.1
      have hrest := ihChildren (arePlain_iff.mpr hall.2) ih.2
      have hchild := ih.1 false (nodeNames ++ [name.val])
      rw [childValues, childrenLeaves]
      cases hparsed : xmlNodeToDict repeats false (nodeNames ++ [name.val])
          (.element name below) with
      | none =>
          have hempty : treeLeaves repeats false (nodeNames ++ [name.val])
              (.element name below) = [] := by
            rw [hparsed] at hchild
            exact hchild
          rw [if_pos hempty]
          exact hrest
      | some item =>
          rw [hparsed] at hchild
          rw [if_neg hchild.2.nonempty]
          exact .cons ⟨rfl, name.property, hchild.2⟩ hrest

/-- The dict of children with leaves has the leaves of the children. -/
theorem foldl_addChild_leaves {nodeName : String} (nodeNames : List String)
    (isList : String → Bool) {children : List (String × PyValue)}
    {leaves : List (String × List Leaf)}
    (h : List.Forall₂
      (fun c c' => c.1 = c'.1 ∧ IsName c.1 ∧ Faithful (nodeNames ++ [c.1]) c.2 c'.2)
      children leaves) :
    ParsesTo nodeName nodeNames
      (arrange isList (fun name => xpathFromXmlNode (nodeNames ++ [name])) leaves)
      (match children.foldl
        (fun value child => addChild (isList child.1) value child.1 child.2) [] with
      | [] => none
      | item :: value => some (nodeName, .dict (item :: value))) := by
  have hchildren : ∀ child ∈ children,
      IsName child.1 ∧ Nested child.2 ∧ child.2.isList = false :=
    ((List.forall₂_and_left _ _).mp (h.imp fun _ _ h =>
      ⟨⟨h.2.1, h.2.2.nested, h.2.2.notList⟩, h⟩)).1
  have hleaves : ∀ child ∈ leaves, child.2 ≠ [] :=
    ((List.forall₂_and_left _ _).mp (List.Forall₂.flip (h.imp fun _ _ h =>
      (⟨h.2.2.nonempty, trivial⟩ : _ ∧ True)))).1
  have hlists : ∀ child ∈ children, child.2.isList = false := fun child hchild =>
    (hchildren child hchild).2.2
  have hperm : (leavesOfDict nodeNames (children.foldl
      (fun value child => addChild (isList child.1) value child.1 child.2) [])).Perm
        (arrange isList (fun name => xpathFromXmlNode (nodeNames ++ [name])) leaves) := by
    refine (leavesOfDict_perm_arrange nodeNames isList children hlists).trans ?_
    refine arrange_perm isList _ (List.forall₂_map_left_iff.mpr (h.imp ?_))
    exact fun _ _ h => ⟨h.1, h.2.2.perm⟩
  obtain ⟨hnodup, hget⟩ := get?_foldl_addChild isList children hlists
  generalize hvalue : children.foldl
    (fun value child => addChild (isList child.1) value child.1 child.2) [] = value
    at hperm hnodup hget ⊢
  cases value with
  | nil => exact List.nil_perm.mp hperm
  | cons item value =>
      have hitems : ∀ other ∈ item :: value, valuesOf children other.1 ≠ [] ∧
          other.2 = combine (isList other.1) (valuesOf children other.1) := by
        intro other hother
        have hother := Dict.get?_of_mem hnodup hother
        rw [hget] at hother
        split at hother
        · exact absurd hother (by simp)
        · rename_i hne
          exact ⟨hne, (Option.some.inj hother).symm⟩
      refine ⟨rfl, hperm, .dict hnodup ?_ ?_, rfl, ?_⟩
      · intro other hother
        obtain ⟨v, hv⟩ := List.exists_mem_of_ne_nil _ (hitems other hother).1
        exact (hchildren _ (mem_valuesOf.mp hv)).1
      · intro other hother
        rw [(hitems other hother).2]
        refine nested_combine _ (fun v hv => ?_) fun v hv => ?_
        · exact (hchildren _ (mem_valuesOf.mp hv)).2.1
        · exact (hchildren _ (mem_valuesOf.mp hv)).2.2
      · refine arrange_ne_nil _ _ ?_ hleaves
        rintro rfl
        cases h
        simp at hvalue

/-- The nested dict of a plain tree has its leaves. The key of the one item is the name of
the node: the assertion of the loop holds. -/
theorem xmlNodeToDict_leaves (repeats : List String) (node : XmlNode)
    (hplain : isPlain node = true) : ∀ (encrypted : Bool) (nodeNames : List String),
    ParsesTo node.nodeName nodeNames (treeLeaves repeats encrypted nodeNames node)
      (xmlNodeToDict repeats encrypted nodeNames node) := by
  refine plain_induct (P := fun node => ∀ (encrypted : Bool) (nodeNames : List String),
    ParsesTo node.nodeName nodeNames (treeLeaves repeats encrypted nodeNames node)
      (xmlNodeToDict repeats encrypted nodeNames node)) ?_ ?_ ?_ node hplain
  · intro name encrypted nodeNames
    exact rfl
  · intro name value encrypted nodeNames
    exact ⟨rfl, List.Perm.refl _, .str value, rfl, by simp [treeLeaves]⟩
  · intro name child children hchildren ih encrypted nodeNames
    rw [treeLeaves_internal _ _ _ _ hchildren, xmlNodeToDict_internal _ _ _ _ hchildren]
    exact foldl_addChild_leaves nodeNames _ (childValues_leaves repeats nodeNames hchildren ih)

/-! ### The parser -/

/-- The flat dict of a submission holds its text leaves: the same texts with the same xpaths,
each in its own repeat instance at every depth, and the instances with a leaf in document
order. A submission without a text is refused as empty. -/
theorem parse_leaves (repeats : List String) (encrypted : Bool) (root : XmlNode)
    (hplain : isPlain root = true) :
    match parse repeats encrypted root with
    | .error _ => texts [root.nodeName] root = []
    | .ok flat =>
        ((flatLeavesOfDict flat).map Leaf.text).Perm (texts [root.nodeName] root) ∧
          (flatLeavesOfDict flat).Perm (treeLeaves repeats encrypted [root.nodeName] root) := by
  have hroot := xmlNodeToDict_leaves repeats root hplain encrypted [root.nodeName]
  have htexts := treeLeaves_map_text repeats root hplain encrypted [root.nodeName]
  have hname : IsName root.nodeName := by
    cases root with
    | element name children => exact name.property
    | _ => simp [isPlain] at hplain
  rw [parse]
  cases hparsed : xmlNodeToDict repeats encrypted [root.nodeName] root with
  | none =>
      rw [hparsed] at hroot
      rw [← htexts, show treeLeaves repeats encrypted [root.nodeName] root = [] from hroot]
      rfl
  | some item =>
      obtain ⟨key, value⟩ := item
      rw [hparsed] at hroot
      obtain ⟨rfl, hfaithful⟩ := hroot
      have hflat : flatLeavesOfDict (collectPaths
          (flattenDictNestRepeats [] [(root.nodeName, value)])) =
            leavesOf [root.nodeName] value := by
        have hflattened := flattenValue_leaves hfaithful.nested [root.nodeName] (by simp)
          (by simpa using hname)
        rw [flattenDictNestRepeats, flattenDictNestRepeats, List.append_nil]
        exact hflattened.flatLeavesOfDict (by simp)
      show _ ∧ _
      rw [hflat, ← htexts]
      exact ⟨hfaithful.perm.map _, hfaithful.perm⟩

/-- Two households, an empty one between them, and two photos in the second. -/
def householdXml : XmlNode :=
  let household (children : List XmlNode) : XmlNode :=
    .element ⟨"household", by decide⟩ children
  let leaf (name : XmlName) (value : String) : XmlNode := .element name [.text value]
  .element ⟨"data", by decide⟩
    [household [leaf ⟨"name", by decide⟩ "A"],
      household [.element ⟨"name", by decide⟩ []],
      household [leaf ⟨"name", by decide⟩ "B", leaf ⟨"photo", by decide⟩ "1.png",
        leaf ⟨"photo", by decide⟩ "2.png"]]

/-- The leaves of the households in their flat dict. -/
theorem parse_leaves_householdXml :
    ∃ flat, parse ["household"] false householdXml = .ok flat ∧
      (flatLeavesOfDict flat).Perm
        [⟨[("household", 0)], "household/name", "A"⟩,
          ⟨[("household", 1)], "household/name", "B"⟩,
          ⟨[("household", 1), ("household/photo", 0)], "household/photo", "1.png"⟩,
          ⟨[("household", 1), ("household/photo", 1)], "household/photo", "2.png"⟩] := by
  have hleaves := parse_leaves ["household"] false householdXml (by decide)
  exact ⟨_, rfl, hleaves.2⟩

end Onadata.Proofs
