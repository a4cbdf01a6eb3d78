import Onadata.Apps.Logger.XformInstanceParser
import Onadata.Lib.Grouping

/-!
# `Onadata.Proofs.Apps.Logger.TextLeaves`: the text leaves of a submission

What a submission tree holds: the text of its leaves, each with its xpath and with the
repeat instances that it is in. The same for the flat dict of the parser.

* `treeLeaves`: the leaves of a tree. An instance is named by its xpath and its position
  among the instances with a leaf, in document order.
* `flatLeaves`: the leaves of a flat dict. An instance is named by its key and its position
  in the list.
* `plain_induct`: induction over the trees without mixed content.
* `treeLeaves_map`: without the instances, the leaves of a tree are its texts.
-/

set_option autoImplicit false

namespace Onadata.Proofs

open Onadata.Lib

/-- A text with its xpath below the root. `address` are the list items that it is in, from
the outermost on. -/
structure Leaf where
  address : List (String × Nat)
  xpath : String
  value : String
  deriving DecidableEq, Repr

/-- A leaf of a list item. -/
def Leaf.inside (item : String × Nat) (leaf : Leaf) : Leaf :=
  { leaf with address := item :: leaf.address }

/-! ### The leaves of a tree -/

/-- The leaves of the children with a leaf, in document order. The children of a name are
list items if the name makes lists or if it is there more than once. -/
def arrange (isList : String → Bool) (xpathOf : String → String)
    (children : List (String × List Leaf)) : List Leaf :=
  (numberFrom [] children).flatMap fun item =>
    if isList item.1 || decide (2 ≤ (children.map (·.1)).count item.1) then
      item.2.2.map (Leaf.inside (xpathOf item.1, item.2.1))
    else item.2.2

mutual

/-- The text leaves of a node. `nodeNames` are the names from the root to the node. -/
def treeLeaves (repeats : List String) (encrypted : Bool) (nodeNames : List String) :
    XmlNode → List Leaf
  | .element _ [] => []
  | .element _ [.text value] => [⟨[], xpathFromXmlNode nodeNames, value⟩]
  | .element _ (child :: children) =>
      arrange
        (fun name => isListNode repeats encrypted (xpathFromXmlNode (nodeNames ++ [name])) name)
        (fun name => xpathFromXmlNode (nodeNames ++ [name]))
        (childrenLeaves repeats nodeNames (child :: children))
  | _ => []

/-- The children with a leaf, by their names. -/
def childrenLeaves (repeats : List String) (nodeNames : List String) :
    List XmlNode → List (String × List Leaf)
  | [] => []
  | .element name children :: rest =>
      let leaves := treeLeaves repeats false (nodeNames ++ [name.val]) (.element name children)
      if leaves = [] then childrenLeaves repeats nodeNames rest
      else (name.val, leaves) :: childrenLeaves repeats nodeNames rest
  | _ :: rest => childrenLeaves repeats nodeNames rest

end

mutual

/-- The texts below a node with their xpaths, in document order. -/
def texts (nodeNames : List String) : XmlNode → List (String × String)
  | .element _ [] => []
  | .element _ [.text value] => [(xpathFromXmlNode nodeNames, value)]
  | .element _ (child :: children) => childrenTexts nodeNames (child :: children)
  | _ => []

/-- The texts below the children. -/
def childrenTexts (nodeNames : List String) : List XmlNode → List (String × String)
  | [] => []
  | .element name children :: rest =>
      texts (nodeNames ++ [name.val]) (.element name children) ++ childrenTexts nodeNames rest
  | _ :: rest => childrenTexts nodeNames rest

end

/-! ### The leaves of a flat dict -/

mutual

/-- The leaves of the value of a key: a text, or a list of flat dicts. -/
def flatLeaves (key : String) : PyValue → List Leaf
  | .str value => [⟨[], key, value⟩]
  | .list items => flatLeavesOfList key 0 items
  | _ => []

/-- The leaves of a flat dict. -/
def flatLeavesOfDict : List (String × PyValue) → List Leaf
  | [] => []
  | (key, value) :: rest => flatLeaves key value ++ flatLeavesOfDict rest

/-- The leaves of a list, from position `i` on. -/
def flatLeavesOfList (key : String) (i : Nat) : List PyValue → List Leaf
  | [] => []
  | .dict items :: rest =>
      (flatLeavesOfDict items).map (Leaf.inside (key, i)) ++ flatLeavesOfList key (i + 1) rest
  | _ :: rest => flatLeavesOfList key (i + 1) rest

end

/-! ### Trees without mixed content -/

mutual

/-- Each element has no child, one text, or only elements. -/
def isPlain : XmlNode → Bool
  | .element _ [] => true
  | .element _ [.text _] => true
  | .element _ (child :: children) => arePlain (child :: children)
  | _ => false

/-- The children are plain elements. -/
def arePlain : List XmlNode → Bool
  | [] => true
  | .element name children :: rest => isPlain (.element name children) && arePlain rest
  | _ :: _ => false

end

/-- The children are plain elements if each of them is one. -/
theorem arePlain_iff {children : List XmlNode} :
    arePlain children = true ↔
      ∀ child ∈ children, (∃ name below, child = .element name below) ∧ isPlain child = true := by
  induction children with
  | nil => simp [arePlain]
  | cons child children ih =>
      cases child with
      | element name below => simp [arePlain, ih]
      | text value => simp [arePlain]
      | cdata value => simp [arePlain]
      | comment value => simp [arePlain]

/-- Induction over plain trees: no child, one text, or plain elements. -/
theorem plain_induct {P : XmlNode → Prop} (empty : ∀ name, P (.element name []))
    (text : ∀ name value, P (.element name [.text value]))
    (internal : ∀ name child children, arePlain (child :: children) = true →
      (∀ c ∈ child :: children, P c) → P (.element name (child :: children))) :
    ∀ node, isPlain node = true → P node
  | .element name [], _ => empty name
  | .element name (child :: children), hplain => by
      by_cases htext : ∃ value, child :: children = [.text value]
      · obtain ⟨value, heq⟩ := htext
        rw [heq]
        exact text name value
      · have hchildren : arePlain (child :: children) = true := by
          cases child with
          | text value =>
              cases children with
              | nil => exact absurd ⟨value, rfl⟩ htext
              | cons _ _ => simpa [isPlain] using hplain
          | element _ _ => simpa [isPlain] using hplain
          | cdata _ => simpa [isPlain] using hplain
          | comment _ => simpa [isPlain] using hplain
        refine internal name child children hchildren fun c hc => ?_
        have hsmaller : sizeOf c < sizeOf (XmlNode.element name (child :: children)) := by
          have := List.sizeOf_lt_of_mem hc
          simp only [XmlNode.element.sizeOf_spec]
          omega
        exact plain_induct empty text internal c (arePlain_iff.mp hchildren c hc).2
  | .text _, hplain => by simp [isPlain] at hplain
  | .cdata _, hplain => by simp [isPlain] at hplain
  | .comment _, hplain => by simp [isPlain] at hplain
termination_by node => sizeOf node

/-- The leaves below a plain internal node. -/
theorem treeLeaves_internal (repeats : List String) (encrypted : Bool)
    (nodeNames : List String) (name : XmlName) {child : XmlNode} {children : List XmlNode}
    (h : arePlain (child :: children) = true) :
    treeLeaves repeats encrypted nodeNames (.element name (child :: children)) =
      arrange
        (fun name => isListNode repeats encrypted (xpathFromXmlNode (nodeNames ++ [name])) name)
        (fun name => xpathFromXmlNode (nodeNames ++ [name]))
        (childrenLeaves repeats nodeNames (child :: children)) := by
  obtain ⟨⟨_, _, rfl⟩, -⟩ := arePlain_iff.mp h child List.mem_cons_self
  rw [treeLeaves]
  simp

/-- The texts below a plain internal node. -/
theorem texts_internal (nodeNames : List String) (name : XmlName) {child : XmlNode}
    {children : List XmlNode} (h : arePlain (child :: children) = true) :
    texts nodeNames (.element name (child :: children)) =
      childrenTexts nodeNames (child :: children) := by
  obtain ⟨⟨_, _, rfl⟩, -⟩ := arePlain_iff.mp h child List.mem_cons_self
  rw [texts]
  simp

/-! ### Leaves without their instances -/

/-- The xpath and the text of a leaf. -/
def Leaf.text (leaf : Leaf) : String × String :=
  (leaf.xpath, leaf.value)

/-- Without the instances, the children's leaves are in document order. -/
theorem arrange_map_text (isList : String → Bool) (xpathOf : String → String)
    (children : List (String × List Leaf)) :
    (arrange isList xpathOf children).map Leaf.text =
      children.flatMap fun child => child.2.map Leaf.text := by
  rw [arrange, List.map_flatMap, ← flatMap_numberFrom (List.map Leaf.text) [] children]
  refine List.flatMap_congr fun item _ => ?_
  split
  · rw [List.map_map]
    rfl
  · rfl

/-- Without the instances, the leaves of a plain tree are its texts. -/
theorem treeLeaves_map_text (repeats : List String) (node : XmlNode)
    (hplain : isPlain node = true) : ∀ (encrypted : Bool) (nodeNames : List String),
    (treeLeaves repeats encrypted nodeNames node).map Leaf.text = texts nodeNames node := by
  refine plain_induct (P := fun node => ∀ (encrypted : Bool) (nodeNames : List String),
    (treeLeaves repeats encrypted nodeNames node).map Leaf.text = texts nodeNames node)
    ?_ ?_ ?_ node hplain
  · intro name encrypted nodeNames
    rfl
  · intro name value encrypted nodeNames
    rfl
  · intro name child children hchildren ih encrypted nodeNames
    rw [treeLeaves_internal _ _ _ _ hchildren, texts_internal _ _ hchildren, arrange_map_text]
    have hall := arePlain_iff.mp hchildren
    generalize child :: children = nodes at hall ih
    induction nodes with
    | nil => rfl
    | cons node nodes ihNodes =>
        rw [List.forall_mem_cons] at hall ih
        obtain ⟨⟨below, grand, rfl⟩, -⟩ := hall.1
        have hnode := ih.1 false (nodeNames ++ [below.val])
        rw [childrenLeaves, childrenTexts, ← hnode]
        split
        · rename_i hempty
          rw [hempty, ihNodes hall.2 ih.2]
          rfl
        · rw [List.flatMap_cons, ihNodes hall.2 ih.2]

end Onadata.Proofs
