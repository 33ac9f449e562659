import LiveTemplate.Template.Syntax
import LiveTemplate.View.Bound

/-!
# Parts of a template that are shown

The bound nodes of a render remember the piece of template that they were built from.  An observer
that names a bound node finds there what it has to bring up to date.
-/

namespace LiveTemplate

/-- A directive: a rule for the value of a path, and a body. -/
structure Directive where
  rule : Template.Rule
  path : Template.Path
  body : List Template.Node

/-- What a bound node of a render is. -/
inductive Part where
  | element (attributes : List Template.Attribute)
  | text (content : Template.Expression)
  /-- A directive.  `shown` is the decision of a condition when it was last taken. -/
  | switch (directive : Directive) (shown : Option Bool)
  /-- A collection, each item of which is shown by the body. -/
  | list (collection : CollectionId) (body : List Template.Node)
  | group
  /-- The rest of the path in position `slot` of the node above. -/
  | watch (slot : Nat)
  | view (name : String)

/-- The kind of a part. -/
def Part.kind : Part → BoundKind
  | .element _ => .element
  | .text _ => .text
  | .switch .. => .switch
  | .list .. => .list
  | .group => .group
  | .watch _ => .watch
  | .view _ => .view

instance : HasBoundKind Part := ⟨Part.kind⟩

/-- Where a document node shows a value. -/
inductive Display where
  | attribute (name : String)
  | style (name : String)
  | text
deriving DecidableEq, Repr

/-- The text of an attribute for a value; nothing and false remove the attribute. -/
def attributeText (contents : Contents) : Value → Option String
  | .null => none
  | .bool false => none
  | value => some (value.displayText contents)

/-- Show a value. -/
def Display.show (display : Display) (contents : Contents) (value : Value) (data : NodeData) :
    NodeData :=
  match display with
  | .attribute name => data.setAttribute name (attributeText contents value)
  | .style name => data.setStyle name (attributeText contents value)
  | .text => data.setText (value.displayText contents)

/-- The path that a part shows in position `slot`, and where. -/
def Part.shown? (part : Part) (slot : Nat) : Option (Template.Path × Display) :=
  match part with
  | .text (.bound path) => some (path, .text)
  | .element attributes =>
    match attributes[slot]? with
    | some (.property name (.bound path)) => some (path, .attribute name)
    | some (.style name (.bound path)) => some (path, .style name)
    | _ => none
  | _ => none

/-- The bound nodes of a render. -/
abbrev Bindings : Type := BoundForest Part

/-- The label of a directive once its decision has been taken. -/
def BoundNode.decided (node : BoundNode Part) (decision : Option Bool) :
    BoundNode Part :=
  match node.part with
  | .switch directive _ => { node with part := .switch directive decision }
  | _ => node

/-- What a directive shows: its children, apart from those that watch its path. -/
def BoundTree.shownBy (tree : BoundTree Part) (switch : BoundId) : List BoundId :=
  (tree.children switch).filter fun child =>
    match tree.get? child with
    | some node => node.kind != .watch
    | none => false

/-- The node that watches the rest of the path in position `slot` of a bound node. -/
def BoundTree.watcher? (tree : BoundTree Part) (owner : BoundId) (slot : Nat) : Option BoundId :=
  (tree.children owner).find? fun child =>
    match tree.get? child with
    | some ⟨.watch position, _, _, _⟩ => position == slot
    | _ => false

end LiveTemplate
