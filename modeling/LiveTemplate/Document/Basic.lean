import LiveTemplate.Document.Node
import LiveTemplate.Document.Places
import LiveTemplate.Forest.Basic

/-!
# Documents

A document is a forest of nodes.  A node that was just created, or that was detached, is the root of
a tree of its own.  Whatever is asked of a node that is gone does nothing.
-/

namespace LiveTemplate

/-- A forest of nodes and the places where they stand. -/
structure Document where
  nodes : Forest NodeId NodeData := .nil
  places : Places := .empty

namespace Document

instance : Inhabited Document := ⟨{}⟩

/-- Whether a node is in the document. -/
def contains (document : Document) (node : NodeId) : Bool :=
  document.nodes.contains node

/-- The data of a node. -/
def data? (document : Document) (node : NodeId) : Option NodeData :=
  document.nodes.label? node

/-- The number of nodes, attached or not. -/
def size (document : Document) : Nat :=
  document.nodes.size

/-- The parent of a node. -/
def parent? (document : Document) (node : NodeId) : Option NodeId :=
  document.nodes.parent? node

/-- The children of a node in order. -/
def children (document : Document) (node : NodeId) : List NodeId :=
  document.nodes.childrenOf node

/-- The nodes above a node, the parent first. -/
def ancestors (document : Document) (node : NodeId) : List NodeId :=
  document.nodes.ancestors node

/-- A node and everything below it, each node before its children. -/
def walk (document : Document) (node : NodeId) : List NodeId :=
  document.nodes.walk node

/-- Create a detached node. -/
def insert (document : Document) (data : NodeData) : NodeId × Document :=
  (document.places.next,
    { nodes := document.nodes ++ .leaf document.places.next data
      places := document.places.take })

/-- Change the data of a node. -/
def modify (document : Document) (node : NodeId) (change : NodeData → NodeData) : Document :=
  { document with nodes := document.nodes.modify node change }

/-- Make a node the root of a tree of its own. -/
def detach (document : Document) (node : NodeId) : Document :=
  { document with nodes := document.nodes.prune node ++ document.nodes.subtree node }

/-- Whether one node is another or stands below it. -/
def isWithin (document : Document) (node other : NodeId) : Bool :=
  (document.nodes.subtree other).contains node

/-- Move a node to the end of another's children.  A node is never moved under itself. -/
def appendChild (document : Document) (parent node : NodeId) : Document :=
  if document.contains parent && document.contains node && !document.isWithin parent node then
    let moved := document.nodes.subtree node
    { document with nodes := (document.nodes.prune node).modifyUnder parent (· ++ moved) }
  else
    document

/-- Create a node at the end of another's children. -/
def insertChild (document : Document) (parent : NodeId) (data : NodeData) : NodeId × Document :=
  let (node, document) := document.insert data
  (node, document.appendChild parent node)

/-- Put trees directly after a node, under the same parent.  Beside a node without a parent, or if
the node is gone, they stand by themselves. -/
def placeAfter (document : Document) (reference : NodeId) (trees : Forest NodeId NodeData) :
    Document :=
  if document.contains reference then
    { document with nodes := document.nodes.insertAfter reference trees }
  else
    { document with nodes := document.nodes ++ trees }

/-- Move a node directly after another.  If that one has no parent, or is the node itself, the node
is only detached.  A node is never moved under itself. -/
def insertAfter (document : Document) (reference node : NodeId) : Document :=
  if document.contains reference && document.contains node then
    if reference = node then document.detach node
    else if document.isWithin reference node then document
    else
      let moved := document.nodes.subtree node
      { document with nodes := (document.nodes.prune node).insertAfter reference moved }
  else
    document

/-- Remove a node and everything below it.  The places are vacated level by level.  The data of the
node is returned. -/
def remove (document : Document) (node : NodeId) : Option NodeData × Document :=
  (document.data? node,
    { nodes := document.nodes.prune node
      places := document.places.vacateAll (document.nodes.subtree node).levels.flatten })

/-- Remove nodes one after the other. -/
def removeAll (document : Document) (nodes : List NodeId) : Document :=
  nodes.foldl (fun document node => (document.remove node).2) document

/-- The path of an event: its target and the nodes above it, or nothing if the target is gone. -/
def bubblePath (document : Document) (target : NodeId) : List NodeId :=
  if document.contains target then target :: document.ancestors target else []

end Document

end LiveTemplate
