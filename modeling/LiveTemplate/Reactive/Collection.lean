import LiveTemplate.Reactive.Channel
import LiveTemplate.Reactive.Value

/-!
# Collections

A collection is an observable list of values.  Each mutation is described by one `Change`, which is
applied to the list and then reported to the subscribers.  A mutation of a position that does not
exist is no change at all.
-/

namespace LiveTemplate

/-- A change of a list of values. -/
inductive Change where
  | insert (index : Nat) (item : Value)
  | remove (index : Nat) (item : Value)
  | update (index : Nat) (item : Value)
  | replace (items : List Value)
deriving Repr

/-- The list after a change. -/
def Change.apply : Change → List Value → List Value
  | .insert index item, items => items.insertIdx index item
  | .remove index _, items => items.eraseIdx index
  | .update index item, items => items.set index item
  | .replace items, _ => items

/-- A mutation of a collection as it is asked for. -/
inductive Mutation where
  /-- Insert at a position; a position past the end appends. -/
  | insert (index : Nat) (item : Value)
  | push (item : Value)
  /-- Remove the first item that is equal. -/
  | remove (item : Value)
  | removeAt (index : Nat)
  | update (index : Nat) (item : Value)
  | replace (items : List Value)
deriving Repr

/-- The position of the first item that is equal. -/
def indexOf? (items : List Value) (item : Value) : Option Nat :=
  items.findIdx? (·.same item)

/-- The removal at a position that exists. -/
def removal? (items : List Value) (index : Nat) : Option Change :=
  items[index]?.map (.remove index)

/-- The change that a mutation makes to a list, if it makes any. -/
def Mutation.change? (mutation : Mutation) (items : List Value) : Option Change :=
  match mutation with
  | .insert index item => some (.insert (min index items.length) item)
  | .push item => some (.insert items.length item)
  | .remove item => (indexOf? items item).bind (removal? items)
  | .removeAt index => removal? items index
  | .update index item => if index < items.length then some (.update index item) else none
  | .replace items => some (.replace items)

/-- An observable list. -/
structure Collection (Callback : Type) where
  items : List Value := []
  channel : Channel Callback := {}

end LiveTemplate
