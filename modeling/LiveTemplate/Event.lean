import LiveTemplate.Reactive.Value

/-!
# Events and listeners

An event is fired at a node and travels to the nodes above it.  Those it meets may prevent its
default action and may stop it from travelling on.
-/

namespace LiveTemplate

/-- An event on its way. -/
structure Event where
  name : String
  /-- The node that the event was fired at. -/
  target : NodeId
  /-- The node whose listeners run. -/
  current : NodeId
  /-- What whoever fired the event had to say. -/
  detail : Value := .null
  prevented : Bool := false
  stopped : Bool := false

namespace Event

/-- A new event at a node. -/
def fired (name : String) (target : NodeId) : Event :=
  { name, target, current := target }

/-- Prevent the default action. -/
def prevent (event : Event) : Event :=
  { event with prevented := true }

/-- Let the event travel no further than the current node. -/
def stop (event : Event) : Event :=
  { event with stopped := true }

end Event

/-- What listens to events at a node. -/
inductive Listener where
  | client (hook : Hook)
  /-- The event attribute in position `slot` of the element that the bound node `owner` shows. -/
  | action (render : RenderId) (owner : BoundId) (slot : Nat)
deriving DecidableEq, Repr

end LiveTemplate
