import LiveTemplate.Identity

/-!
# Observers

Who is told about a change: the client, or a part of a render.  A render's observers only name the
part that they serve; what is to be done is read off the part itself, and nothing is done once the
part is gone.
-/

namespace LiveTemplate

/-- A registration that follows one step of a property path for a render. -/
structure PathObserver where
  render : RenderId
  /-- The bound node that holds the registration. -/
  owner : BoundId
  /-- The bound node whose path is followed. -/
  root : BoundId
  /-- Which of that node's paths it is. -/
  slot : Nat
  /-- The segments that come after the one observed. -/
  rest : List String
deriving DecidableEq, Repr

/-- Who is told the new value of a property. -/
inductive ValueObserver where
  | client (hook : Hook)
  | path (observer : PathObserver)
deriving DecidableEq, Repr

/-- Who is told about a change of a collection. -/
inductive ChangeObserver where
  | client (hook : Hook)
  /-- A directive is built anew as long as `content`, what it shows, is there. -/
  | rebuild (render : RenderId) (content directive : BoundId)
  /-- A list follows the change item by item. -/
  | splice (render : RenderId) (list : BoundId)
deriving DecidableEq, Repr

end LiveTemplate
