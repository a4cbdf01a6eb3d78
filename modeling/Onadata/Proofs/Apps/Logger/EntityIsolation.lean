import Mathlib.Data.List.Basic
import Mathlib.Data.List.Nodup
import Onadata.Apps.Logger.XformInstanceParser
import Onadata.Lib.PyDict

/-!
# `Onadata.Proofs.Apps.Logger.EntityIsolation`: each entity has the data of its own group

`EntitiesIsolated` states what `get_entity_group_data` promises for a document. Texts that change
in one instance of a repeat do not change the data of an entity in another instance
(`Undisturbed`), and the data of an entity are the texts of the non-empty leaves of its group
(`ReadsLeaves`).

The first part holds of every document. An entity node is below a meta section, and its group is
the parent of that section. Either the other instance is outside the group, and then no node of the
group changes, or it is a meta section of the group itself, and then `collect` passes over it.

The second part depends on how the text of a leaf is written. A text with a CDATA section or a
comment in it is more than one node, and `get_entity_group_data` leaves such a field out.
`entitiesIsolated_iff`: the promise holds exactly of the documents where each text of a group is
one node.
-/

set_option autoImplicit false

namespace Onadata.Proofs

open Onadata.Lib

namespace EntityIsolation

/-! ### The leaves of a group -/

/-- An element without elements in it, with its names from the root on. -/
structure FieldLeaf where
  nodeNames : List String
  childNodes : List XmlNode

def isElement : XmlNode → Bool
  | .element _ _ => true
  | _ => false

/-- The text of a node that is not an element. -/
def characterData : XmlNode → Option String
  | .text value => some value
  | .cdata value => some value
  | _ => none

/-- The text of a leaf. -/
def FieldLeaf.text (leaf : FieldLeaf) : String :=
  String.join (leaf.childNodes.filterMap characterData)

/-- The xpath and the text of a leaf. -/
def FieldLeaf.pair (leaf : FieldLeaf) : String × String :=
  (xpathFromXmlNode leaf.nodeNames, leaf.text)

mutual

/-- The non-empty leaves of a node, outside the meta sections. A text node is never empty. -/
def fieldLeaves (nodeNames : List String) : XmlNode → List FieldLeaf
  | .element name children =>
      if isMetaTag name then []
      else if children.any isElement then childLeaves (nodeNames ++ [name.val]) children
      else if children.any fun child => (characterData child).isSome then
        [⟨nodeNames ++ [name.val], children⟩]
      else []
  | _ => []

/-- The non-empty leaves of the nodes. -/
def childLeaves (nodeNames : List String) : List XmlNode → List FieldLeaf
  | [] => []
  | child :: rest => fieldLeaves nodeNames child ++ childLeaves nodeNames rest

end

/-- The non-empty leaves of the group that holds the meta section of an entity. -/
def groupLeaves (document : List XmlNode) (entityNode : List Nat) : List FieldLeaf :=
  let groupNode := entityNode.dropLast.dropLast
  childLeaves (gatherParentNodeList document groupNode) (childNodesAt document groupNode)

/-- The text that `get_entity_group_data` reads from the child nodes of an element. -/
def ownText : List XmlNode → Option String
  | [child] => characterData child
  | _ => none

/-- What `get_entity_group_data` reads from a leaf. -/
def FieldLeaf.item (leaf : FieldLeaf) : Option (String × String) :=
  (ownText leaf.childNodes).map fun text => (xpathFromXmlNode leaf.nodeNames, text)

/-! ### Nodes of a document -/

/-- The node at a position below a node. -/
def nodeBelow : List Nat → XmlNode → Option XmlNode
  | [], node => some node
  | i :: position, node => node.childNodes[i]?.bind (nodeBelow position)

/-- The node at a position of a document. -/
def nodeAt (document : List XmlNode) : List Nat → Option XmlNode
  | [] => none
  | i :: position => document[i]?.bind (nodeBelow position)

/-- The node with another one at a position below it. -/
def replaceBelow (changed : XmlNode) : List Nat → XmlNode → XmlNode
  | [], _ => changed
  | i :: position, .element name children =>
      .element name (children.modify i (replaceBelow changed position))
  | _ :: _, node => node

/-- The document with another node at a position. -/
def replaceAt (changed : XmlNode) (document : List XmlNode) : List Nat → List XmlNode
  | [] => document
  | i :: position => document.modify i (replaceBelow changed position)

mutual

/-- A node without its texts. -/
def shape : XmlNode → XmlNode
  | .element name children => .element name (shapes children)
  | .text _ => .text ""
  | .cdata _ => .cdata ""
  | .comment _ => .comment ""

/-- The nodes without their texts. -/
def shapes : List XmlNode → List XmlNode
  | [] => []
  | node :: rest => shape node :: shapes rest

end

/-- Two instances of a repeat: different elements with the same xpath. -/
def DifferentInstances (document : List XmlNode) (instance₁ instance₂ : List Nat) : Prop :=
  instance₁ ≠ instance₂ ∧ (nodeAt document instance₁).isSome ∧
    (nodeAt document instance₂).isSome ∧
    gatherParentNodeList document instance₁ = gatherParentNodeList document instance₂

end EntityIsolation

open EntityIsolation

/-- Other texts in one instance of a repeat leave the entity nodes, and the data of the entities in
another instance, as they are. -/
def Undisturbed (document : List XmlNode) : Prop :=
  ∀ (instance₁ instance₂ entityNode : List Nat) (node changed : XmlNode),
    DifferentInstances document instance₁ instance₂ → nodeAt document instance₁ = some node →
    shape changed = shape node → entityNode ∈ getEntityNodesFromXml document →
    instance₂ <+: entityNode →
      getEntityNodesFromXml (replaceAt changed document instance₁) =
          getEntityNodesFromXml document ∧
        getEntityGroupData (replaceAt changed document instance₁) entityNode =
          getEntityGroupData document entityNode

/-- The data of each entity are the pairs of its group, if their xpaths are different. -/
def ReadsLeaves (document : List XmlNode) : Prop :=
  ∀ entityNode ∈ getEntityNodesFromXml document,
    (Dict.keys ((groupLeaves document entityNode).map FieldLeaf.pair)).Nodup →
      getEntityGroupData document entityNode = (groupLeaves document entityNode).map FieldLeaf.pair

/-- What `get_entity_group_data` promises for the entities of a document. -/
def EntitiesIsolated (document : List XmlNode) : Prop :=
  Undisturbed document ∧ ReadsLeaves document

/-- The text of each leaf in the group of an entity is one node. -/
def WholeTexts (document : List XmlNode) : Prop :=
  ∀ entityNode ∈ getEntityNodesFromXml document,
    (Dict.keys ((groupLeaves document entityNode).map FieldLeaf.pair)).Nodup →
      ∀ leaf ∈ groupLeaves document entityNode, leaf.childNodes.length = 1

namespace EntityIsolation

/-! ### The data of a group -/

/-- A list without elements holds no field. -/
theorem collectFields_of_noElement (nodeNames : List String) (groupData : List (String × String))
    {nodes : List XmlNode} (h : nodes.any isElement = false) :
    collectFields nodeNames groupData nodes = groupData := by
  induction nodes generalizing groupData with
  | nil => rfl
  | cons node rest ih =>
      rw [List.any_cons, Bool.or_eq_false_iff] at h
      rw [collectFields, ih _ h.2]
      cases node with
      | element name children => cases h.1
      | text value => rfl
      | cdata value => rfl
      | comment value => rfl

/-- The text of an element with one is a leaf's. -/
theorem isElement_of_ownText {children : List XmlNode} {text : String}
    (h : ownText children = some text) :
    children.any isElement = false ∧
      (children.any fun child => (characterData child).isSome) = true ∧
      children.filterMap characterData = [text] := by
  match children with
  | [.text _] | [.cdata _] =>
      cases h
      exact ⟨rfl, rfl, rfl⟩
  | [.element _ _] | [.comment _] => cases h

theorem collectField_element (nodeNames : List String) (groupData : List (String × String))
    (name : XmlName) (children : List XmlNode) :
    collectField nodeNames groupData (.element name children) =
      if isMetaTag name then groupData
      else (ownText children).elim (collectFields (nodeNames ++ [name.val]) groupData children)
        (Dict.insert groupData (xpathFromXmlNode (nodeNames ++ [name.val]))) := by
  rw [collectField.eq_def]
  match children with
  | [] => rfl
  | [child] => cases child <;> rfl
  | child :: _ :: _ => cases child <;> rfl

mutual

theorem collectField_eq (nodeNames : List String) (groupData : List (String × String))
    (node : XmlNode) :
    collectField nodeNames groupData node =
      Dict.update groupData ((fieldLeaves nodeNames node).filterMap FieldLeaf.item) := by
  match node with
  | .element name children =>
      rw [collectField_element, fieldLeaves]
      by_cases hmeta : isMetaTag name = true
      · rw [if_pos hmeta, if_pos hmeta]
        rfl
      rw [if_neg hmeta, if_neg hmeta]
      cases htext : ownText children with
      | some text =>
          have ⟨helement, hsome, _⟩ := isElement_of_ownText htext
          rw [if_neg (by simp [helement]), if_pos hsome]
          simp [FieldLeaf.item, htext, Dict.update]
      | none =>
          rw [Option.elim_none]
          by_cases helement : children.any isElement = true
          · rw [if_pos helement, collectFields_eq]
          -- a leaf whose text is not one node
          · rw [if_neg helement, collectFields_of_noElement _ _ (by simpa using helement)]
            split
            · simp [FieldLeaf.item, htext, Dict.update]
            · rfl
  | .text _ | .cdata _ | .comment _ => rfl

theorem collectFields_eq (nodeNames : List String) (groupData : List (String × String))
    (nodes : List XmlNode) :
    collectFields nodeNames groupData nodes =
      Dict.update groupData ((childLeaves nodeNames nodes).filterMap FieldLeaf.item) := by
  match nodes with
  | [] => rfl
  | node :: rest =>
      rw [collectFields, collectField_eq, collectFields_eq, childLeaves, List.filterMap_append,
        Dict.update_append]

end

/-- A leaf has no element in it and a text. -/
def IsLeaf (leaf : FieldLeaf) : Prop :=
  leaf.childNodes.any isElement = false ∧
    (leaf.childNodes.any fun child => (characterData child).isSome) = true

mutual

theorem isLeaf_of_mem_fieldLeaves {nodeNames : List String} {node : XmlNode} {leaf : FieldLeaf}
    (h : leaf ∈ fieldLeaves nodeNames node) : IsLeaf leaf := by
  match node with
  | .element name children =>
      rw [fieldLeaves] at h
      split at h
      · cases h
      · split at h
        · exact isLeaf_of_mem_childLeaves h
        · rename_i helement
          split at h
          · rename_i htext
            cases List.mem_singleton.mp h
            exact ⟨by simpa using helement, htext⟩
          · cases h
  | .text _ | .cdata _ | .comment _ => cases h

theorem isLeaf_of_mem_childLeaves {nodeNames : List String} {nodes : List XmlNode}
    {leaf : FieldLeaf} (h : leaf ∈ childLeaves nodeNames nodes) : IsLeaf leaf := by
  match nodes with
  | [] => cases h
  | node :: rest =>
      rw [childLeaves] at h
      cases List.mem_append.mp h with
      | inl h => exact isLeaf_of_mem_fieldLeaves h
      | inr h => exact isLeaf_of_mem_childLeaves h

end

/-- A leaf is read exactly when its text is one node. -/
theorem item_eq {leaf : FieldLeaf} (h : IsLeaf leaf) :
    leaf.item = if leaf.childNodes.length = 1 then some leaf.pair else none := by
  unfold FieldLeaf.item FieldLeaf.pair FieldLeaf.text
  have htext := h.2
  cases hnodes : leaf.childNodes with
  | nil => rfl
  | cons child rest =>
      cases rest with
      | nil =>
          rw [hnodes] at htext
          have hsome : (characterData child).isSome = true := by simpa using htext
          have ⟨text, htext⟩ := Option.isSome_iff_exists.mp hsome
          simp [ownText, htext, String.join]
      | cons second rest => rw [if_neg (by simp), ownText.eq_def]; rfl

/-- `get_entity_group_data` reads the leaves whose text is one node. -/
theorem getEntityGroupData_eq (document : List XmlNode) (entityNode : List Nat) :
    getEntityGroupData document entityNode =
      Dict.update [] (((groupLeaves document entityNode).filter fun leaf =>
        leaf.childNodes.length = 1).map FieldLeaf.pair) := by
  unfold getEntityGroupData
  rw [collectFields_eq]
  refine congrArg (Dict.update []) ?_
  show (groupLeaves document entityNode).filterMap FieldLeaf.item = _
  rw [← List.filterMap_eq_map, List.filterMap_filter]
  refine List.filterMap_congr (fun leaf hleaf => ?_)
  rw [item_eq (isLeaf_of_mem_childLeaves hleaf)]
  by_cases hone : leaf.childNodes.length = 1 <;> simp [hone]

theorem map_filter_eq_map_iff {α β : Type} {l : List α} {p : α → Bool} {f : α → β} :
    (l.filter p).map f = l.map f ↔ ∀ x ∈ l, p x = true := by
  constructor
  · intro h
    have hlength := congrArg List.length h
    rw [List.length_map, List.length_map] at hlength
    exact List.length_filter_eq_length_iff.mp hlength
  · intro h
    rw [List.filter_eq_self.mpr h]

theorem readsLeaves_iff (document : List XmlNode) :
    ReadsLeaves document ↔ WholeTexts document := by
  unfold ReadsLeaves WholeTexts
  refine forall₃_congr (fun entityNode hentity hdistinct => ?_)
  have hkeys : (Dict.keys (((groupLeaves document entityNode).filter fun leaf =>
      leaf.childNodes.length = 1).map FieldLeaf.pair)).Nodup :=
    hdistinct.sublist ((List.filter_sublist.map _).map _)
  rw [getEntityGroupData_eq, Dict.update_nil_of_nodup hkeys, map_filter_eq_map_iff]
  exact forall₂_congr (fun leaf _ => decide_eq_true_iff)

/-! ### The entity nodes do not depend on the texts -/

theorem shapes_eq_map (nodes : List XmlNode) : shapes nodes = nodes.map shape := by
  induction nodes with
  | nil => rfl
  | cons node rest ih => rw [shapes, ih, List.map_cons]

theorem isEntity_shape (node : XmlNode) : isEntity (shape node) = isEntity node := by
  cases node <;> rfl

theorem metaEntities_shapes (position : List Nat) (i : Nat) (nodes : List XmlNode) :
    metaEntities position i (shapes nodes) = metaEntities position i nodes := by
  induction nodes generalizing i with
  | nil => rfl
  | cons node rest ih => rw [shapes, metaEntities, metaEntities, isEntity_shape, ih]

mutual

theorem collectEntities_shape (position : List Nat) (node : XmlNode) :
    collectEntities position (shape node) = collectEntities position node := by
  match node with
  | .element name children =>
      rw [shape, collectEntities, collectEntities, metaEntities_shapes,
        collectChildEntities_shapes]
  | .text _ | .cdata _ | .comment _ => rfl

theorem collectChildEntities_shapes (position : List Nat) (i : Nat) (nodes : List XmlNode) :
    collectChildEntities position i (shapes nodes) = collectChildEntities position i nodes := by
  match nodes with
  | [] => rfl
  | node :: rest =>
      rw [shapes, collectChildEntities, collectChildEntities, collectEntities_shape,
        collectChildEntities_shapes]

end

/-- A change of one node that keeps its shape keeps the shape of the list. -/
theorem shapes_modify {nodes : List XmlNode} {i : Nat} {change : XmlNode → XmlNode}
    (h : ∀ node, nodes[i]? = some node → shape (change node) = shape node) :
    shapes (nodes.modify i change) = shapes nodes := by
  rw [shapes_eq_map, shapes_eq_map]
  refine List.ext_getElem? (fun j => ?_)
  rw [List.getElem?_map, List.getElem?_map]
  by_cases hij : i = j
  · subst hij
    rw [List.getElem?_modify_eq]
    cases hnode : nodes[i]? with
    | none => rfl
    | some node => exact congrArg some (h node hnode)
  · rw [List.getElem?_modify_ne _ _ hij]

theorem shape_replaceBelow {changed node below : XmlNode} {position : List Nat}
    (hnode : nodeBelow position node = some below) (hchanged : shape changed = shape below) :
    shape (replaceBelow changed position node) = shape node := by
  induction position generalizing node with
  | nil =>
      cases hnode
      exact hchanged
  | cons i position ih =>
      match node with
      | .element name children =>
          rw [replaceBelow, shape, shape, shapes_modify]
          intro child hchild
          refine ih ?_
          rw [nodeBelow, XmlNode.childNodes, hchild] at hnode
          exact hnode
      | .text _ | .cdata _ | .comment _ => rfl

/-- Other texts in a node of a document keep its shape. -/
theorem shapes_replaceAt {document : List XmlNode} {changed node : XmlNode} {position : List Nat}
    (hnode : nodeAt document position = some node) (hchanged : shape changed = shape node) :
    shapes (replaceAt changed document position) = shapes document := by
  cases position with
  | nil => rfl
  | cons i position =>
      refine shapes_modify (fun child hchild => shape_replaceBelow ?_ hchanged)
      rw [nodeAt, hchild] at hnode
      exact hnode

theorem getEntityNodesFromXml_of_shapes {document document' : List XmlNode}
    (h : shapes document' = shapes document) :
    getEntityNodesFromXml document' = getEntityNodesFromXml document := by
  unfold getEntityNodesFromXml
  rw [← collectChildEntities_shapes [] 0 document', h, collectChildEntities_shapes]

/-! ### Below a meta section -/

/-- The position of a node below a meta section of the nodes. -/
def InMeta (nodes : List XmlNode) (position : List Nat) : Prop :=
  ∃ (group : List Nat) (metaIndex entityIndex : Nat) (name : XmlName) (children : List XmlNode),
    position = group ++ [metaIndex, entityIndex] ∧
    (childNodesAt nodes group)[metaIndex]? = some (.element name children) ∧
    isMetaTag name = true

theorem childNodesAt_cons {nodes : List XmlNode} {i : Nat} {node : XmlNode} (position : List Nat)
    (h : nodes[i]? = some node) :
    childNodesAt nodes (i :: position) = childNodesAt node.childNodes position := by
  rw [childNodesAt, h]

theorem InMeta.cons {nodes : List XmlNode} {i : Nat} {node : XmlNode} {position : List Nat}
    (hnode : nodes[i]? = some node) (h : InMeta node.childNodes position) :
    InMeta nodes (i :: position) := by
  have ⟨group, metaIndex, entityIndex, name, children, hposition, hmeta, htag⟩ := h
  refine ⟨i :: group, metaIndex, entityIndex, name, children, ?_, ?_, htag⟩
  · rw [hposition, List.cons_append]
  · rw [childNodesAt_cons group hnode]
    exact hmeta

theorem mem_metaEntities {position entityNode : List Nat} {i : Nat} {nodes : List XmlNode}
    (h : entityNode ∈ metaEntities position i nodes) :
    ∃ j, entityNode = position ++ [j] := by
  induction nodes generalizing i with
  | nil => cases h
  | cons node rest ih =>
      rw [metaEntities] at h
      cases List.mem_append.mp h with
      | inl h =>
          split at h
          · exact ⟨i, List.mem_singleton.mp h⟩
          · cases h
      | inr h => exact ih h

mutual

theorem inMeta_of_mem_collectEntities {position entityNode : List Nat} {node : XmlNode}
    (nodes : List XmlNode) (i : Nat) (hnode : nodes[i]? = some node)
    (h : entityNode ∈ collectEntities (position ++ [i]) node) :
    ∃ below, entityNode = position ++ below ∧ InMeta nodes below := by
  match node with
  | .element name children =>
      rw [collectEntities] at h
      split at h
      · rename_i hmeta
        have ⟨j, hj⟩ := mem_metaEntities h
        refine ⟨[i, j], ?_, [], i, j, name, children, rfl, hnode, hmeta⟩
        rw [hj, List.append_assoc]
        rfl
      · have ⟨below, hbelow, hin⟩ := inMeta_of_mem_collectChildEntities children 0 (by simp) h
        refine ⟨i :: below, ?_, InMeta.cons hnode hin⟩
        rw [hbelow, List.append_assoc]
        rfl
  | .text _ | .cdata _ | .comment _ => cases h

/-- An entity node is below a meta section. `rest` are the nodes from index `i` on. -/
theorem inMeta_of_mem_collectChildEntities {position entityNode : List Nat}
    {rest : List XmlNode} (nodes : List XmlNode) (i : Nat) (hrest : nodes.drop i = rest)
    (h : entityNode ∈ collectChildEntities position i rest) :
    ∃ below, entityNode = position ++ below ∧ InMeta nodes below := by
  match rest with
  | [] => cases h
  | node :: rest =>
      have hnode : nodes[i]? = some node := by
        rw [← List.head?_drop, hrest, List.head?_cons]
      have hdrop : nodes.drop (i + 1) = rest := by
        rw [← List.tail_drop, hrest, List.tail_cons]
      rw [collectChildEntities] at h
      cases List.mem_append.mp h with
      | inl h => exact inMeta_of_mem_collectEntities nodes i hnode h
      | inr h => exact inMeta_of_mem_collectChildEntities nodes (i + 1) hdrop h

end

/-! ### A document with another node at a position -/

/-- Both names and positions of a document go on below a node. -/
theorem gatherParentNodeList_append (nodes : List XmlNode) (position position' : List Nat) :
    gatherParentNodeList nodes (position ++ position') =
      gatherParentNodeList nodes position ++
        gatherParentNodeList (childNodesAt nodes position) position' := by
  induction position generalizing nodes with
  | nil => rfl
  | cons i position ih =>
      rw [List.cons_append, gatherParentNodeList, gatherParentNodeList, childNodesAt]
      cases nodes[i]? with
      | some node =>
          show node.nodeName :: gatherParentNodeList node.childNodes (position ++ position') = _
          rw [ih]
          rfl
      | none => cases position' <;> rfl

theorem nodeName_shape (node : XmlNode) : (shape node).nodeName = node.nodeName := by
  cases node <;> rfl

theorem childNodes_shape (node : XmlNode) : (shape node).childNodes = shapes node.childNodes := by
  cases node <;> rfl

/-- The names on the way to a node do not depend on the texts. -/
theorem gatherParentNodeList_shapes (nodes : List XmlNode) (position : List Nat) :
    gatherParentNodeList (shapes nodes) position = gatherParentNodeList nodes position := by
  induction position generalizing nodes with
  | nil => rfl
  | cons i position ih =>
      rw [gatherParentNodeList, gatherParentNodeList, shapes_eq_map, List.getElem?_map]
      cases nodes[i]? with
      | none => rfl
      | some node =>
          show (shape node).nodeName :: gatherParentNodeList (shape node).childNodes position = _
          rw [nodeName_shape, childNodes_shape, ih]

theorem gatherParentNodeList_of_shapes {document document' : List XmlNode}
    (h : shapes document' = shapes document) (position : List Nat) :
    gatherParentNodeList document' position = gatherParentNodeList document position := by
  rw [← gatherParentNodeList_shapes document', h, gatherParentNodeList_shapes]

theorem childNodes_replaceBelow (changed node : XmlNode) (i : Nat) (position : List Nat) :
    (replaceBelow changed (i :: position) node).childNodes =
      replaceAt changed node.childNodes (i :: position) := by
  cases node with
  | element name children => rfl
  | _ => exact (List.modify_nil ..).symm

/-- Below the group, another node at a position of the document is another node at the rest of the
position. -/
theorem childNodesAt_replaceAt_append (changed : XmlNode) (document : List XmlNode)
    (group : List Nat) (i : Nat) (rest : List Nat) :
    childNodesAt (replaceAt changed document (group ++ i :: rest)) group =
      replaceAt changed (childNodesAt document group) (i :: rest) := by
  induction group generalizing document with
  | nil => rfl
  | cons j group ih =>
      have hcons : ∃ k position, group ++ i :: rest = k :: position := by
        cases group <;> exact ⟨_, _, rfl⟩
      have ⟨k, position, hposition⟩ := hcons
      show childNodesAt (document.modify j (replaceBelow changed (group ++ i :: rest))) _ = _
      rw [childNodesAt, childNodesAt, List.getElem?_modify_eq]
      cases document[j]? with
      | none => exact (List.modify_nil ..).symm
      | some node =>
          show childNodesAt (replaceBelow changed (group ++ i :: rest) node).childNodes group = _
          rw [hposition, childNodes_replaceBelow, ← hposition, ih]

/-- The child nodes at a position that is neither above nor below the changed one stay. -/
theorem childNodesAt_replaceAt_of_apart {changed : XmlNode} (document : List XmlNode)
    {position group : List Nat} (habove : ¬ position <+: group) (hbelow : ¬ group <+: position) :
    childNodesAt (replaceAt changed document position) group = childNodesAt document group := by
  induction group generalizing document position with
  | nil => exact absurd List.nil_prefix hbelow
  | cons j group ih =>
      match position with
      | [] => exact absurd List.nil_prefix habove
      | [i] =>
          have hne : i ≠ j := by
            intro hij
            exact habove (hij ▸ List.cons_prefix_cons.mpr ⟨rfl, List.nil_prefix⟩)
          show childNodesAt (document.modify i _) _ = _
          rw [childNodesAt, childNodesAt, List.getElem?_modify_ne _ _ hne]
      | i :: k :: position =>
          show childNodesAt (document.modify i _) _ = _
          rw [childNodesAt, childNodesAt]
          by_cases hij : i = j
          · subst hij
            rw [List.cons_prefix_cons] at habove hbelow
            rw [List.getElem?_modify_eq]
            cases document[i]? with
            | none => rfl
            | some node =>
                show childNodesAt (replaceBelow changed (k :: position) node).childNodes group = _
                rw [childNodes_replaceBelow]
                exact ih _ (fun h => habove ⟨rfl, h⟩) (fun h => hbelow ⟨rfl, h⟩)
          · rw [List.getElem?_modify_ne _ _ hij]

/-! ### The leaves do not depend on the meta sections -/

theorem childLeaves_modify {nodeNames : List String} {nodes : List XmlNode} {i : Nat}
    {change : XmlNode → XmlNode}
    (h : ∀ node, nodes[i]? = some node →
      fieldLeaves nodeNames (change node) = fieldLeaves nodeNames node) :
    childLeaves nodeNames (nodes.modify i change) = childLeaves nodeNames nodes := by
  induction nodes generalizing i with
  | nil => cases i <;> rfl
  | cons node rest ih =>
      cases i with
      | zero =>
          show childLeaves nodeNames (change node :: rest) = _
          rw [childLeaves, childLeaves, h node rfl]
      | succ i =>
          show childLeaves nodeNames (node :: rest.modify i change) = _
          rw [childLeaves, childLeaves, ih h]

/-- A meta section has no leaf, whatever is in it. -/
theorem fieldLeaves_of_meta {nodeNames : List String} {node : XmlNode}
    (h : isMetaTag node.nodeName = true) : fieldLeaves nodeNames node = [] := by
  cases node with
  | element name children =>
      rw [fieldLeaves]
      exact if_pos h
  | text value => rfl
  | cdata value => rfl
  | comment value => rfl

/-! ### Texts in another instance -/

theorem length_gatherParentNodeList_nodeBelow {position : List Nat} {node below : XmlNode}
    (h : nodeBelow position node = some below) :
    (gatherParentNodeList node.childNodes position).length = position.length := by
  induction position generalizing node with
  | nil => rfl
  | cons i position ih =>
      rw [nodeBelow] at h
      rw [gatherParentNodeList]
      cases hchild : node.childNodes[i]? with
      | none =>
          rw [hchild] at h
          cases h
      | some child =>
          rw [hchild] at h
          exact congrArg (· + 1) (ih h)

/-- A node of a document has as many names on the way to it as indices. -/
theorem length_gatherParentNodeList {document : List XmlNode} {position : List Nat}
    (h : (nodeAt document position).isSome = true) :
    (gatherParentNodeList document position).length = position.length := by
  cases position with
  | nil => rfl
  | cons i position =>
      rw [nodeAt] at h
      rw [gatherParentNodeList]
      cases hnode : document[i]? with
      | none =>
          rw [hnode] at h
          cases h
      | some node =>
          rw [hnode] at h
          have ⟨below, hbelow⟩ := Option.isSome_iff_exists.mp h
          exact congrArg (· + 1) (length_gatherParentNodeList_nodeBelow hbelow)

/-- The first name on the way from a group to a node is that of the child on the way. -/
theorem nodeName_eq_of_gatherParentNodeList {nodes : List XmlNode} {i j : Nat}
    {position position' : List Nat} {node node' : XmlNode}
    (h : gatherParentNodeList nodes (i :: position) = gatherParentNodeList nodes (j :: position'))
    (hnode : nodes[i]? = some node) (hnode' : nodes[j]? = some node') :
    node.nodeName = node'.nodeName := by
  rw [gatherParentNodeList, gatherParentNodeList, hnode, hnode'] at h
  exact (List.cons.inj h).1

theorem nodeName_of_shape {node changed : XmlNode} (h : shape changed = shape node) :
    changed.nodeName = node.nodeName := by
  rw [← nodeName_shape changed, h, nodeName_shape]

theorem childNodesAt_shapes (nodes : List XmlNode) (position : List Nat) :
    childNodesAt (shapes nodes) position = shapes (childNodesAt nodes position) := by
  induction position generalizing nodes with
  | nil => rfl
  | cons i position ih =>
      rw [childNodesAt, childNodesAt, shapes_eq_map, List.getElem?_map]
      cases nodes[i]? with
      | none => rfl
      | some node =>
          show childNodesAt (shape node).childNodes position = _
          rw [childNodes_shape, ih]

/-- A change that keeps the shape of the nodes keeps the shape of the node on the way. -/
theorem shape_of_shapes_replaceAt {changed child : XmlNode} {nodes : List XmlNode} {i : Nat}
    {rest : List Nat} (h : shapes (replaceAt changed nodes (i :: rest)) = shapes nodes)
    (hchild : nodes[i]? = some child) : shape (replaceBelow changed rest child) = shape child := by
  have hat := congrArg (·[i]?) h
  rw [replaceAt, shapes_eq_map, shapes_eq_map] at hat
  simp only [List.getElem?_map, List.getElem?_modify_eq, hchild] at hat
  exact Option.some.inj hat

/-- The leaves of a group stay when texts change in another instance. -/
theorem groupLeaves_replaceAt {document : List XmlNode} {instance₁ instance₂ entityNode : List Nat}
    {node changed : XmlNode} (hinstances : DifferentInstances document instance₁ instance₂)
    (hnode : nodeAt document instance₁ = some node) (hchanged : shape changed = shape node)
    (hentity : InMeta document entityNode) (hin : instance₂ <+: entityNode) :
    groupLeaves (replaceAt changed document instance₁) entityNode =
      groupLeaves document entityNode := by
  have ⟨hne, hnode₁, hnode₂, hnames⟩ := hinstances
  have ⟨group, metaIndex, entityIndex, name, children, hposition, hmeta, htag⟩ := hentity
  have hshapes := shapes_replaceAt hnode hchanged
  have hlength : instance₁.length = instance₂.length := by
    rw [← length_gatherParentNodeList hnode₁, hnames, length_gatherParentNodeList hnode₂]
  have hout : ¬ instance₁ <+: entityNode := by
    intro h
    have hpre := List.prefix_of_prefix_length_le h hin (Nat.le_of_eq hlength)
    exact hne (hpre.eq_of_length hlength)
  have hgroup : entityNode.dropLast.dropLast = group := by
    rw [hposition]
    simp
  have hgroupIn : group <+: entityNode := by
    rw [hposition]
    exact List.prefix_append ..
  unfold groupLeaves
  rw [hgroup]
  show childLeaves (gatherParentNodeList _ group) _ = childLeaves _ _
  rw [gatherParentNodeList_of_shapes hshapes]
  by_cases hbelow : group <+: instance₁
  · -- the other instance is in the group: both are in meta sections of it
    have ⟨below, hbelow⟩ := hbelow
    cases below with
    | nil => exact absurd (by rw [← hbelow, List.append_nil]; exact hgroupIn) hout
    | cons i rest =>
        have hmetaIn : group ++ [metaIndex] <+: instance₂ := by
          refine @List.prefix_of_prefix_length_le _ _ _ entityNode ?_ hin ?_
          · rw [hposition]
            exact ⟨[entityIndex], by simp⟩
          · rw [← hlength, ← hbelow]
            simp
        have ⟨rest', hrest'⟩ := hmetaIn
        rw [← hbelow, ← hrest', List.append_assoc, gatherParentNodeList_append,
          gatherParentNodeList_append] at hnames
        have hbelowNames := List.append_cancel_left hnames
        rw [← hbelow, childNodesAt_replaceAt_append]
        refine childLeaves_modify (fun child hchild => ?_)
        have hname := nodeName_eq_of_gatherParentNodeList hbelowNames hchild hmeta
        have hchildTag : isMetaTag child.nodeName = true := by
          rw [hname]
          exact htag
        have hshape : (replaceBelow changed rest child).nodeName = child.nodeName := by
          refine nodeName_of_shape (shape_of_shapes_replaceAt ?_ hchild)
          rw [← childNodesAt_replaceAt_append, ← childNodesAt_shapes, hbelow, hshapes,
            childNodesAt_shapes]
        rw [fieldLeaves_of_meta hchildTag, fieldLeaves_of_meta (by rw [hshape]; exact hchildTag)]
  · refine congrArg _ (childNodesAt_replaceAt_of_apart document ?_ hbelow)
    exact fun habove => hout (habove.trans hgroupIn)

theorem inMeta_of_mem_getEntityNodes {document : List XmlNode} {entityNode : List Nat}
    (h : entityNode ∈ getEntityNodesFromXml document) : InMeta document entityNode := by
  have ⟨below, hbelow, hin⟩ := inMeta_of_mem_collectChildEntities document 0 rfl h
  rw [hbelow, List.nil_append]
  exact hin

theorem undisturbed (document : List XmlNode) : Undisturbed document := by
  intro instance₁ instance₂ entityNode node changed hinstances hnode hchanged hentity hin
  refine ⟨getEntityNodesFromXml_of_shapes (shapes_replaceAt hnode hchanged), ?_⟩
  rw [getEntityGroupData_eq, getEntityGroupData_eq,
    groupLeaves_replaceAt hinstances hnode hchanged (inMeta_of_mem_getEntityNodes hentity) hin]

end EntityIsolation

/-- The entities of a document are isolated from each other and read their groups exactly when the
text of each leaf in such a group is one node. -/
theorem entitiesIsolated_iff (document : List XmlNode) :
    EntitiesIsolated document ↔ WholeTexts document := by
  unfold EntitiesIsolated
  rw [readsLeaves_iff]
  exact and_iff_right (undisturbed document)

/-! ### A text with a CDATA section -/

/-- A submission with a species that is written in two parts. -/
def splitSpecies : List XmlNode :=
  [.element ⟨"registration", by decide⟩
    [.element ⟨"species", by decide⟩ [.text "purple", .cdata "heart"],
      .element ⟨"meta", by decide⟩ [.element ⟨"entity", by decide⟩ []]]]

/-- The species is left out. -/
theorem not_entitiesIsolated_split : ¬ EntitiesIsolated splitSpecies := by
  intro h
  have hdata := h.2 [0, 1, 0] (by decide +kernel) (by decide +kernel)
  revert hdata
  decide +kernel

end Onadata.Proofs
