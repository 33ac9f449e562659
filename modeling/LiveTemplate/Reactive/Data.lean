import LiveTemplate.Reactive.Collection
import LiveTemplate.Reactive.Model
import LiveTemplate.Reactive.Observer
import LiveTemplate.Store
import LiveTemplate.Template.Path

/-!
# All models and collections

Models refer to each other and to collections by number; `Data` holds them all.  A property path is
followed from a model through the raw values of its inner segments, which must be models; its last
segment is read either raw or as it is displayed.
-/

namespace LiveTemplate

/-- Every model and every collection. -/
structure Data where
  models : Store (Model ValueObserver) := {}
  collections : Store (Collection ChangeObserver) := {}

namespace Data

instance : Inhabited Data := ⟨{}⟩

/-- A model by number. -/
def model (data : Data) (id : ModelId) : Model ValueObserver :=
  (data.models.get? id.index).getD {}

/-- A collection by number. -/
def collection (data : Data) (id : CollectionId) : Collection ChangeObserver :=
  (data.collections.get? id.index).getD {}

/-- The items of all collections. -/
def contents (data : Data) : Contents :=
  ⟨data.collections.items.map (·.items)⟩

/-- Change one model. -/
def modifyModel (data : Data) (id : ModelId)
    (change : Model ValueObserver → Model ValueObserver) : Data :=
  { data with models := data.models.modify id.index change }

/-- Change one collection. -/
def modifyCollection (data : Data) (id : CollectionId)
    (change : Collection ChangeObserver → Collection ChangeObserver) : Data :=
  { data with collections := data.collections.modify id.index change }

/-- Add a model. -/
def addModel (data : Data) (model : Model ValueObserver) : ModelId × Data :=
  (⟨data.models.next⟩, { data with models := data.models.add model })

/-- Add a collection with the given items. -/
def addCollection (data : Data) (items : List Value) : CollectionId × Data :=
  (⟨data.collections.next⟩, { data with collections := data.collections.add { items := items } })

/-- The raw value of a model's property. -/
def get (data : Data) (id : ModelId) (property : String) : Value :=
  (data.model id).get property

/-- The value of a model's property as it is displayed. -/
def display (data : Data) (id : ModelId) (property : String) : Value :=
  (data.model id).display data.contents property

/-- The model that the given segments lead to, each of which must hold a model. -/
def follow (data : Data) (id : ModelId) : List String → Option ModelId
  | [] => some id
  | segment :: later =>
    match data.get id segment with
    | .model next => data.follow next later
    | _ => none

/-- The raw value at the end of a path; `null` if the path leads nowhere. -/
def resolveRaw (data : Data) (id : ModelId) (path : Template.Path) : Value :=
  match data.follow id path.init with
  | some holder => data.get holder path.last
  | none => .null

/-- The displayed value at the end of a path; `null` if the path leads nowhere. -/
def resolve (data : Data) (id : ModelId) (path : Template.Path) : Value :=
  match data.follow id path.init with
  | some holder => data.display holder path.last
  | none => .null

/-- Store a value, if the property is declared.  Nobody is told yet. -/
def put (data : Data) (id : ModelId) (property : String) (value : Value) :
    Except ModelError Data :=
  if (data.model id).declares property then .ok (data.modifyModel id (·.put property value))
  else .error (.undeclaredProperty property)

end Data

/-- What a registration was made on. -/
inductive Source where
  | model (id : ModelId) (channel : String)
  | collection (id : CollectionId)
deriving DecidableEq, Repr

/-- The name of the channel of a registration; that of a collection is called `structure`. -/
def Source.channel : Source → String
  | .model _ channel => channel
  | .collection _ => "structure"

/-- A registration that can be ended later. -/
structure Subscription where
  source : Source
  id : SubscriptionId
deriving DecidableEq, Repr

namespace Data

/-- Register an observer on a channel of a model. -/
def subscribe (data : Data) (id : ModelId) (channel : String) (observer : ValueObserver) :
    Subscription × Data :=
  (⟨.model id channel, ((data.model id).channel channel).next⟩,
    data.modifyModel id (·.subscribe channel observer))

/-- Register an observer on a collection. -/
def subscribeChanges (data : Data) (id : CollectionId) (observer : ChangeObserver) :
    Subscription × Data :=
  (⟨.collection id, (data.collection id).channel.next⟩,
    data.modifyCollection id fun collection =>
      { collection with channel := collection.channel.subscribe observer })

/-- End a registration. -/
def cancel (data : Data) (subscription : Subscription) : Data :=
  match subscription.source with
  | .model id channel => data.modifyModel id (·.unsubscribe channel subscription.id)
  | .collection id =>
    data.modifyCollection id fun collection =>
      { collection with channel := collection.channel.unsubscribe subscription.id }

/-- End registrations one after the other. -/
def cancelAll (data : Data) (subscriptions : List Subscription) : Data :=
  subscriptions.foldl cancel data

end Data

end LiveTemplate
