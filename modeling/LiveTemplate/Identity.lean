/-!
# Identities

Objects that are shared and changed are referred to by number.  Each kind of object has its own kind
of number, and a number is never given out twice.  A document node is referred to by two numbers.
-/

namespace LiveTemplate

structure ModelId where
  index : Nat
deriving DecidableEq, Repr

structure CollectionId where
  index : Nat
deriving DecidableEq, Repr

structure DocumentId where
  index : Nat
deriving DecidableEq, Repr

/-- A node of one document: the place where it stands, and how many nodes stood there before it. -/
structure NodeId where
  place : Nat
  generation : Nat
deriving DecidableEq, Repr

structure RegistryId where
  index : Nat
deriving DecidableEq, Repr

structure ControllerId where
  index : Nat
deriving DecidableEq, Repr

structure RenderId where
  index : Nat
deriving DecidableEq, Repr

/-- A bound node of one arena. -/
structure BoundId where
  index : Nat
deriving DecidableEq, Repr

/-- A piece of behaviour that the client of the library supplies. -/
structure Hook where
  index : Nat
deriving DecidableEq, Repr

/-- A registration on one channel.  Registrations are numbered from zero on each channel. -/
abbrev SubscriptionId : Type := Nat

end LiveTemplate
