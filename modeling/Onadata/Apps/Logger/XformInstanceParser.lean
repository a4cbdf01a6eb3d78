import Onadata.Lib.PyValue
import Onadata.Lib.SlashPath

/-!
# `Onadata.Apps.Logger.XformInstanceParser`: what is read from the submission XML

`_xml_node_to_dict`, `_flatten_dict_nest_repeats`, `XFormInstanceParser.parse`,
`get_entity_nodes_from_xml` and `get_entity_group_data` of `apps/logger/xform_instance_parser.py`,
on the DOM of a submission. A document is the list of the child nodes of its `Document` node. A
node has no link to its parent here: it is named by its position, the indices in `childNodes` on
the way from the document to it, and the position of `parentNode` is `dropLast` of it.

Left out: `clean_and_parse_xml`, which makes the DOM from the text, and the attributes.
-/

set_option autoImplicit false

namespace Onadata

open Onadata.Lib

/-- The name of an XML element: not empty and without a slash. -/
abbrev XmlName := { name : String // IsName name }

/-- A node of the DOM. -/
inductive XmlNode
  | element (name : XmlName) (children : List XmlNode)
  | text (value : String)
  | cdata (value : String)
  | comment (value : String)
  deriving Repr

/-- `node.nodeName`. -/
def XmlNode.nodeName : XmlNode → String
  | .element name _ => name
  | .text _ => "#text"
  | .cdata _ => "#cdata-section"
  | .comment _ => "#comment"

/-- `InstanceEmptyError`. -/
inductive InstanceEmptyError
  | emptyInstance
  deriving DecidableEq, Repr

/-- `xpath_from_xml_node`, from the names of the nodes on the way from the root. -/
def xpathFromXmlNode (nodeNames : List String) : String :=
  joinPath nodeNames.tail

/-! ### From XML to a nested dict -/

/-- The children with this name and xpath make a list in `_xml_node_to_dict`. The photos of an
encrypted form are all named `media`. -/
def isListNode (repeats : List String) (encrypted : Bool) (childXpath childName : String) :
    Bool :=
  decide (childXpath ∈ repeats) || (encrypted && decide (childName = "media"))

/-- A child in the loop of `_xml_node_to_dict`. If the value of a name is a list, the child
goes to its end. -/
def addChild (isList : Bool) (value : List (String × PyValue)) (childName : String)
    (childValue : PyValue) : List (String × PyValue) :=
  match Dict.get? value childName with
  | none => Dict.insert value childName (if isList then .list [childValue] else childValue)
  | some (.list items) => Dict.insert value childName (.list (items ++ [childValue]))
  -- A name that makes lists has a list from its first child on.
  | some nodeValue => Dict.insert value childName (.list [nodeValue, childValue])

mutual

/-- `_xml_node_to_dict`: the one item of the dict, its key being the name of the node.
`nodeNames` are the names from the root to the node. -/
def xmlNodeToDict (repeats : List String) (encrypted : Bool) (nodeNames : List String) :
    XmlNode → Option (String × PyValue)
  | .element _ [] => none
  | .element name [.text value] => some (name, .str value)
  | .element name (child :: children) =>
      match xmlChildrenToDict repeats encrypted nodeNames [] (child :: children) with
      | .error cdata => some (name, .str cdata)
      | .ok [] => none
      | .ok (item :: value) => some (name, .dict (item :: value))
  -- The other nodes have no children.
  | _ => none

/-- The loop of `_xml_node_to_dict` over the children. A CDATA section ends it with its
text. -/
def xmlChildrenToDict (repeats : List String) (encrypted : Bool) (nodeNames : List String)
    (value : List (String × PyValue)) :
    List XmlNode → Except String (List (String × PyValue))
  | [] => .ok value
  | .cdata text :: _ => .error text
  | .element name children :: rest =>
      let childNames := nodeNames ++ [name.val]
      match xmlNodeToDict repeats false childNames (.element name children) with
      | none => xmlChildrenToDict repeats encrypted nodeNames value rest
      | some (_, childValue) =>
          let isList := isListNode repeats encrypted (xpathFromXmlNode childNames) name
          xmlChildrenToDict repeats encrypted nodeNames
            (addChild isList value name childValue) rest
  | _ :: rest => xmlChildrenToDict repeats encrypted nodeNames value rest

end

/-! ### From the nested dict to a flat one -/

/-- `d["/".join(path[1:])] = value` for every path and value. -/
def collectPaths (pairs : List (List String × PyValue)) : List (String × PyValue) :=
  pairs.foldl (fun d pair => Dict.insert d (joinPath pair.1.tail) pair.2) []

mutual

/-- The value of one key in `_flatten_dict_nest_repeats`. -/
def flattenValue (path : List String) : PyValue → List (List String × PyValue)
  | .dict items => flattenDictNestRepeats path items
  | .list items => [(path, .list (flattenItems path items))]
  | value => [(path, value)]

/-- `_flatten_dict_nest_repeats`: the pairs of a path and a value. -/
def flattenDictNestRepeats (path : List String) :
    List (String × PyValue) → List (List String × PyValue)
  | [] => []
  | (key, value) :: rest => flattenValue (path ++ [key]) value ++ flattenDictNestRepeats path rest

/-- The items of a list in `_flatten_dict_nest_repeats`. -/
def flattenItems (path : List String) : List PyValue → List PyValue
  | [] => []
  | item :: rest => flattenItem path item :: flattenItems path rest

/-- One item of a list: a dict of its own. -/
def flattenItem (path : List String) : PyValue → PyValue
  | .dict items => .dict (collectPaths (flattenDictNestRepeats path items))
  | value => .dict [(joinPath path.tail, value)]

end

/-- `XFormInstanceParser.parse`: the flat dict of `to_flat_dict`. `repeats` are the xpaths of
the repeats of the form, and `encrypted` says that the form is or was encrypted. -/
def parse (repeats : List String) (encrypted : Bool) (root : XmlNode) :
    Except InstanceEmptyError (List (String × PyValue)) :=
  match xmlNodeToDict repeats encrypted [root.nodeName] root with
  | none => throw .emptyInstance
  | some item => return collectPaths (flattenDictNestRepeats [] [item])

/-- `node.childNodes`. -/
def XmlNode.childNodes : XmlNode → List XmlNode
  | .element _ children => children
  | _ => []

/-- `node.childNodes`, for the node at a position below the nodes. -/
def childNodesAt : List XmlNode → List Nat → List XmlNode
  | nodes, [] => nodes
  | nodes, i :: position =>
      match nodes[i]? with
      | none => []
      | some node => childNodesAt node.childNodes position

/-- `_gather_parent_node_list`, for the node at a position below the nodes. -/
def gatherParentNodeList : List XmlNode → List Nat → List String
  | _, [] => []
  | nodes, i :: position =>
      match nodes[i]? with
      | none => []
      | some node => node.nodeName :: gatherParentNodeList node.childNodes position

/-- The tag names of a meta section. -/
def isMetaTag (tagName : String) : Bool :=
  decide (tagName.toLower = "meta" ∨ tagName.toLower = "orx:meta")

/-- `is_entity`. -/
def isEntity : XmlNode → Bool
  | .element name _ => decide (name.val.toLower = "entity" ∨ name.val.toLower = "orx:entity")
  | _ => false

/-- The entities in the child nodes of a meta section, from index `i` on. -/
def metaEntities (position : List Nat) (i : Nat) : List XmlNode → List (List Nat)
  | [] => []
  | node :: rest =>
      (if isEntity node then [position ++ [i]] else []) ++ metaEntities position (i + 1) rest

mutual

/-- A turn of the loop of `collect` in `get_entity_nodes_from_xml`. -/
def collectEntities (position : List Nat) : XmlNode → List (List Nat)
  | .element name children =>
      if isMetaTag name then metaEntities position 0 children
      else collectChildEntities position 0 children
  | _ => []

/-- The loop of `collect` in `get_entity_nodes_from_xml`, from index `i` on. -/
def collectChildEntities (position : List Nat) (i : Nat) : List XmlNode → List (List Nat)
  | [] => []
  | child :: rest =>
      collectEntities (position ++ [i]) child ++ collectChildEntities position (i + 1) rest

end

/-- `get_entity_nodes_from_xml`. -/
def getEntityNodesFromXml (document : List XmlNode) : List (List Nat) :=
  collectChildEntities [] 0 document

mutual

/-- A turn of the loop of `collect` in `get_entity_group_data`. `nodeNames` are the names from the
root to the parent of the node. -/
def collectField (nodeNames : List String) (groupData : List (String × String)) :
    XmlNode → List (String × String)
  | .element name children =>
      if isMetaTag name then groupData
      else
        match children with
        | [.text nodeValue] | [.cdata nodeValue] =>
            Dict.insert groupData (xpathFromXmlNode (nodeNames ++ [name.val])) nodeValue
        | _ => collectFields (nodeNames ++ [name.val]) groupData children
  | _ => groupData

/-- The loop of `collect` in `get_entity_group_data`. -/
def collectFields (nodeNames : List String) (groupData : List (String × String)) :
    List XmlNode → List (String × String)
  | [] => groupData
  | child :: rest => collectFields nodeNames (collectField nodeNames groupData child) rest

end

/-- `get_entity_group_data`, for the entity node at a position. -/
def getEntityGroupData (document : List XmlNode) (entityNode : List Nat) :
    List (String × String) :=
  -- entity -> meta -> group holding the entity
  let groupNode := entityNode.dropLast.dropLast
  collectFields (gatherParentNodeList document groupNode) [] (childNodesAt document groupNode)

end Onadata
