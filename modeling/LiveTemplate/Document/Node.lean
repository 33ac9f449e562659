import LiveTemplate.Event
import LiveTemplate.Pairs
import LiveTemplate.Text.Blank

/-!
# What a document node holds

A node is an element, a text or an anchor, which marks a position and is not seen.  Attributes and
style properties keep the order in which they were first set.
-/

namespace LiveTemplate

/-- The kinds of nodes. -/
inductive NodeKind where
  | element (tag : String)
  | text (content : String)
  | anchor (label : Option String)
deriving DecidableEq, Repr

/-- The data of one node. -/
structure NodeData where
  kind : NodeKind
  attributes : List (String × String) := []
  styles : List (String × String) := []
  /-- Listeners with the names of their events, in order of registration. -/
  listeners : List (String × Listener) := []
deriving DecidableEq, Repr

namespace NodeData

/-- An element without attributes. -/
def element (tag : String) : NodeData := { kind := .element tag }

/-- A text. -/
def text (content : String) : NodeData := { kind := .text content }

/-- A position mark. -/
def anchor (label : Option String) : NodeData := { kind := .anchor label }

/-- The tag of an element. -/
def tag? (data : NodeData) : Option String :=
  match data.kind with
  | .element tag => some tag
  | _ => none

/-- Whether the node is an anchor. -/
def isAnchor (data : NodeData) : Bool :=
  match data.kind with
  | .anchor _ => true
  | _ => false

/-- The content of a text node. -/
def content? (data : NodeData) : Option String :=
  match data.kind with
  | .text content => some content
  | _ => none

/-- The value of an attribute. -/
def attribute? (data : NodeData) (name : String) : Option String :=
  data.attributes.lookup name

/-- The value of a style property. -/
def style? (data : NodeData) (name : String) : Option String :=
  data.styles.lookup name

/-- Set or remove an attribute. -/
def setAttribute (data : NodeData) (name : String) (value : Option String) : NodeData :=
  { data with attributes := Pairs.assign data.attributes name value }

/-- Set or remove a style property. -/
def setStyle (data : NodeData) (name : String) (value : Option String) : NodeData :=
  { data with styles := Pairs.assign data.styles name value }

/-- Change the content of a text node; other nodes stay as they are. -/
def setText (data : NodeData) (content : String) : NodeData :=
  match data.kind with
  | .text _ => { data with kind := .text content }
  | _ => data

/-- Add a listener for an event. -/
def listen (data : NodeData) (event : String) (listener : Listener) : NodeData :=
  { data with listeners := data.listeners ++ [(event, listener)] }

/-- The listeners for an event, in order of registration. -/
def listenersFor (data : NodeData) (event : String) : List Listener :=
  (data.listeners.filter (·.1 == event)).map Prod.snd

/-- Whether a word occurs in the attribute `class`. -/
def hasClass (data : NodeData) (word : String) : Bool :=
  match data.attribute? "class" with
  | some classes => (Text.words classes.toList).any fun found => String.ofList found == word
  | none => false

end NodeData

end LiveTemplate
