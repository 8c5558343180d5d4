import Mathlib.Data.List.Basic

/-
  XML documents as node trees, and the absolute child paths
  that a location step of XPath selects.

  A path `/a/b/c` selects, in document order, every element
  reached from the document through children named `a`, then
  `b`, then `c`.  A node has a content of its own exactly
  when it is not an element, as in libxml2.

  Main declarations:
    * `Xml.Node`
    * `Xml.Node.ownText`
    * `Xml.Document.select`
    * `Xml.Node.attribute?`
-/

------------------------------------------------------------
-- Nodes
------------------------------------------------------------

namespace Xml

/- Element, text and comment nodes. -/
inductive Node where
| element
    (name : String)
    (attributes : List (String × String))
    (children : List Node)
| text (content : String)
| comment (content : String)

namespace Node

/- The name libxml2 gives to a node. -/
def name : Node → String
| .element name _ _ => name
| .text _ => "text"
| .comment _ => "comment"

/- The children of a node. -/
def children : Node → List Node
| .element _ _ children => children
| .text _ => []
| .comment _ => []

/- The node's own content, absent for elements. -/
def content : Node → Option String
| .element _ _ _ => none
| .text content => some content
| .comment content => some content

def text? : Node → Option String
| .element _ _ _ => none
| .text content => some content
| .comment _ => none

/-
  The text of a node: its text nodes in order, without the
  comments between them.
-/
def ownText (node : Node) : String :=
  String.join (node.children.filterMap text?)

/- The node is an element with the given name. -/
def isElementNamed
    (wanted : String) :
    Node → Bool
| .element name _ _ => name == wanted
| .text _ => false
| .comment _ => false

/- The first attribute with the given name. -/
def attribute?
    (wanted : String) :
    Node → Option String
| .element _ attributes _ =>
    attributes.lookup wanted
| .text _ => none
| .comment _ => none

/- The child elements with the given name, in order. -/
def childrenNamed
    (wanted : String)
    (node : Node) : List Node :=
  node.children.filter (isElementNamed wanted)

end Node

end Xml

------------------------------------------------------------
-- Documents And Child Paths
------------------------------------------------------------

namespace Xml

/- A parsed document: its top-level nodes in order. -/
structure Document where
  nodes : List Node

namespace Document

/- Follow child steps from a list of nodes. -/
def selectFrom :
    List String → List Node → List Node
| [], nodes => nodes
| step :: steps, nodes =>
    selectFrom steps
      (nodes.flatMap (Node.childrenNamed step))

/- All nodes on an absolute child path. -/
def select
    (doc : Document)
    (path : List String) : List Node :=
  selectFrom path [.element "" [] doc.nodes]

end Document

end Xml
