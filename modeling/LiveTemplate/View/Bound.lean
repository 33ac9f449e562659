import LiveTemplate.Document.Basic
import LiveTemplate.Reactive.Data

/-!
# Bound nodes

What a render has built is kept as a forest of bound nodes.  A bound node owns the document node
that it created and a ledger of the registrations that it made.  Tearing a node down ends every
registration and removes every document node of the node and of all nodes below it.
-/

namespace LiveTemplate

/-- The kinds of bound nodes. -/
inductive BoundKind where
  | element
  | text
  /-- A directive: an anchor, registrations along its path, and what it shows. -/
  | switch
  /-- A followed collection: an anchor, a registration, and one child for each item. -/
  | list
  /-- Fragments side by side, without a document node of their own. -/
  | group
  /-- Registrations along the rest of a path. -/
  | watch
  /-- A view with a scope of its own. -/
  | view
deriving DecidableEq, Repr

/-- What a bound node was built for: a model, a controller, and the number of views around it. -/
structure Scope where
  model : ModelId
  controller : ControllerId
  depth : Nat := 0
deriving DecidableEq, Repr

/-- A bound node.  `part` says what it is. -/
structure BoundNode (Part : Type) where
  part : Part
  /-- The element, the text or the anchor that it created. -/
  dom : Option NodeId := none
  ledger : List Subscription := []
  scope : Scope

/-- Parts of a given sort have a kind. -/
class HasBoundKind (Part : Type) where
  kind : Part → BoundKind

instance : HasBoundKind BoundKind := ⟨id⟩

/-- The kind of a bound node. -/
def BoundNode.kind {Part : Type} [HasBoundKind Part] (node : BoundNode Part) : BoundKind :=
  HasBoundKind.kind node.part

/-- Bound nodes in order. -/
abbrev BoundForest (Part : Type) : Type := Forest BoundId (BoundNode Part)

namespace BoundForest

variable {Part : Type}

/-- All registrations held by the nodes. -/
def ledger (forest : BoundForest Part) : List Subscription :=
  forest.entries.flatMap fun entry => entry.2.ledger

/-- All document nodes that belong to the nodes, what is below a node before what is its own. -/
def shown : BoundForest Part → List NodeId
  | .nil => []
  | .cons _ node children rest => shown children ++ node.dom.toList ++ shown rest

/-- The document nodes that stand side by side for the nodes, in order.  What is below an element is
not among them. -/
def flat [HasBoundKind Part] : BoundForest Part → List NodeId
  | .nil => []
  | .cons _ node children rest =>
    (match node.kind with
      | .element | .text => node.dom.toList
      | .watch => []
      | .switch | .list => node.dom.toList ++ flat children
      | .group | .view => flat children) ++ flat rest

/-- The last document node that the nodes have put beside each other. -/
def last? [HasBoundKind Part] : BoundForest Part → Option NodeId
  | .nil => none
  | .cons _ node children rest =>
    (last? rest).or
      (match node.kind with
        | .element | .text => node.dom
        | .watch => none
        | .switch | .list => (last? children).or node.dom
        | .group | .view => last? children)

end BoundForest

/-- The bound nodes of one render and the number of the next one. -/
structure BoundTree (Part : Type) where
  nodes : BoundForest Part := .nil
  next : Nat := 0

namespace BoundTree

variable {Part : Type}

/-- Whether a node is there. -/
def contains (tree : BoundTree Part) (id : BoundId) : Bool :=
  tree.nodes.contains id

/-- A node by number. -/
def get? (tree : BoundTree Part) (id : BoundId) : Option (BoundNode Part) :=
  tree.nodes.label? id

/-- The number of nodes. -/
def size (tree : BoundTree Part) : Nat :=
  tree.nodes.size

/-- The children of a node in order. -/
def children (tree : BoundTree Part) (id : BoundId) : List BoundId :=
  tree.nodes.childrenOf id

/-- Add a node without a parent. -/
def insert (tree : BoundTree Part) (node : BoundNode Part) : BoundId × BoundTree Part :=
  (⟨tree.next⟩, { nodes := tree.nodes ++ .leaf ⟨tree.next⟩ node, next := tree.next + 1 })

/-- Put nodes among the children of another, in front of position `index` or at the end. -/
def graftAt (tree : BoundTree Part) (parent : BoundId) (index : Nat) (nodes : BoundForest Part) :
    BoundTree Part :=
  { tree with nodes := tree.nodes.modifyUnder parent (·.insertAt index nodes) }

/-- Put nodes after the children of another. -/
def graft (tree : BoundTree Part) (parent : BoundId) (nodes : BoundForest Part) : BoundTree Part :=
  { tree with nodes := tree.nodes.modifyUnder parent (· ++ nodes) }

/-- Add a node among the children of another, in front of position `index` or at the end.  If the
parent is gone, the node has none. -/
def adoptAt (tree : BoundTree Part) (parent : BoundId) (index : Nat) (node : BoundNode Part) :
    BoundId × BoundTree Part :=
  if tree.contains parent then
    (⟨tree.next⟩, { tree.graftAt parent index (.leaf ⟨tree.next⟩ node) with next := tree.next + 1 })
  else
    tree.insert node

/-- Add a node as the last child of another. -/
def adopt (tree : BoundTree Part) (parent : BoundId) (node : BoundNode Part) :
    BoundId × BoundTree Part :=
  tree.adoptAt parent (tree.children parent).length node

/-- Note a registration in the ledger of a node.  If the node is gone, the registration is ended at
once. -/
def record (tree : BoundTree Part) (owner : BoundId) (subscription : Subscription) (data : Data) :
    BoundTree Part × Data :=
  if tree.contains owner then
    ({ tree with nodes := tree.nodes.modify owner fun node =>
        { node with ledger := node.ledger ++ [subscription] } }, data)
  else
    (tree, data.cancel subscription)

/-- Take a node and everything below it away: end the registrations, remove the document nodes. -/
def teardown (tree : BoundTree Part) (id : BoundId) (data : Data) (document : Document) :
    BoundTree Part × Data × Document :=
  let removed : BoundForest Part := tree.nodes.subtree id
  ({ tree with nodes := tree.nodes.prune id }, data.cancelAll removed.ledger,
    document.removeAll removed.shown)

/-- The number of registrations held by a node and everything below it. -/
def subscriptionCount (tree : BoundTree Part) (id : BoundId) : Nat :=
  (BoundForest.ledger (tree.nodes.subtree id)).length

/-- The number of nodes at and below a node. -/
def boundCount (tree : BoundTree Part) (id : BoundId) : Nat :=
  (tree.nodes.subtree id).size

/-- The last document node that a node has put beside others. -/
def lastNode [HasBoundKind Part] (tree : BoundTree Part) (id : BoundId) : Option NodeId :=
  BoundForest.last? (tree.nodes.subtree id)

/-- The last document node of several nodes, looking from the end. -/
def lastOf [HasBoundKind Part] (tree : BoundTree Part) (ids : List BoundId) : Option NodeId :=
  ids.reverse.findSome? tree.lastNode

end BoundTree

end LiveTemplate
