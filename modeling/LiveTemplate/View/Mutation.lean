import LiveTemplate.View.React

/-!
# Changing models and collections

A change is made first and announced afterwards, to the client's callbacks and to renders in the
order in which they registered.  A callback of the client may make further changes; each of them is
announced before the rest of the first announcement.
-/

namespace LiveTemplate.World

variable {Client : Type}

/-- Tell an observer the new value of a property. -/
def tell (behaviour : Behaviour Client) (value : Value) (observer : ValueObserver)
    (world : World Client) : World Client :=
  match observer with
  | .client hook => behaviour.value hook value world
  | .path observer => world.react behaviour observer value

/-- Tell an observer a change of a collection.  What is no longer there does not react. -/
def tellChange (behaviour : Behaviour Client) (change : Change) (observer : ChangeObserver)
    (world : World Client) : World Client :=
  match observer with
  | .client hook => behaviour.change hook change world
  | .rebuild render content directive =>
    if world.isLive render content then world.rebuild behaviour render directive else world
  | .splice render list => world.splice behaviour render list change

/-- Set a declared property and announce its value. -/
def set (behaviour : Behaviour Client) (world : World Client) (model : ModelId)
    (property : String) (value : Value) : Except ModelError (World Client) := do
  let data ← world.data.put model property value
  return notify (fun world => (world.data.model model).channel (changeChannel property))
    (tell behaviour value) { world with data }

/-- Make a change of a collection and announce it. -/
def change (behaviour : Behaviour Client) (world : World Client) (collection : CollectionId)
    (change : Change) : World Client :=
  let data := world.data.modifyCollection collection fun collection =>
    { collection with items := change.apply collection.items }
  notify (fun world => (world.data.collection collection).channel) (tellChange behaviour change)
    { world with data }

/-- Carry out a mutation of a collection.  The change that was made, if any, is returned. -/
def mutate (behaviour : Behaviour Client) (world : World Client) (collection : CollectionId)
    (mutation : Mutation) : Option Change × World Client :=
  match mutation.change? (world.data.collection collection).items with
  | some change => (some change, world.change behaviour collection change)
  | none => (none, world)

end LiveTemplate.World
