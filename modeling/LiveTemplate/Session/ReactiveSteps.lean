import LiveTemplate.Session.Inspection
import LiveTemplate.Session.Report
import LiveTemplate.View.Mutation

/-!
# Steps on models, collections and channels
-/

namespace LiveTemplate.Session.ReactiveSteps

variable (behaviour : Behaviour Book) (step : Step)

/-- Change the event at hand. -/
def onEvent (change : Event → Event) : Script Datum := do
  let event ← Script.expect "event" (← get).event
  modify fun turn => { turn with event := some (change event) }
  return .null

/-- Names in an answer. -/
def reportNames (schema : Schema) : Datum :=
  .list (schema.names.map .text)

/-- Keep a schema. -/
def keepSchema : Script Datum := do
  let schema ← step.schema "fields"
  let id ← step.text "id"
  Script.modifyBook fun book => { book with schemas := Pairs.set book.schemas id schema }
  return reportNames schema

/-- Make a model from a kept schema or from declarations. -/
def makeModel : Script Datum := do
  let schema ←
    if (step.present? "schema").isSome then step.named "schema" "schema" Book.schemas
    else step.schema "fields"
  let id ← step.text "id"
  let model := Model.ofSchema schema
  let model := if step.flag "plain" then model.unformatted else model
  let model ← Script.actOnData (·.addModel model)
  Script.modifyBook fun book => { book with models := Pairs.set book.models id model }
  return reportNames schema

/-- Set a property; `answer` is given if the model accepts it. -/
def setProperty (model : ModelId) (property : String) (value : Value) (answer : Datum) :
    Script Datum := do
  match (← Script.world).set behaviour model property value with
  | .ok world =>
    Script.modifyWorld fun _ => world
    return answer
  | .error error => return reportModelError error

/-- Set a property to a value. -/
def setValue : Script Datum := do
  let model ← step.actingModel "model"
  let property ← step.text "prop"
  let value ← step.value "value"
  setProperty behaviour model property value .null

/-- Add to a property, which counts as zero unless it is a number. -/
def addTo : Script Datum := do
  let model ← step.actingModel "model"
  let property ← step.text "prop"
  let amount ←
    match ← step.value "by" with
    | .number amount => pure amount
    | _ => Script.reject "by"
  let current :=
    match (← Script.data).get model property with
    | .number current => current
    | _ => 0
  let value := Value.number (current + amount)
  setProperty behaviour model property value (← report value)

/-- Set a property to the opposite truth value. -/
def toggle : Script Datum := do
  let model ← step.actingModel "model"
  let property ← step.text "prop"
  let data ← Script.data
  let value := Value.bool (!(data.get model property).isTruthy data.contents)
  setProperty behaviour model property value (← report value)

/-- Read a property of a model. -/
def readProperty (look : Data → ModelId → String → Datum) : Script Datum := do
  let model ← step.actingModel "model"
  let property ← step.text "prop"
  return look (← Script.data) model property

/-- Keep the number of a registration under the name of its subscriber. -/
def keepSubscription (name : String) (id : SubscriptionId) : Script Datum := do
  Script.modifyBook fun book =>
    { book with subscriptions := Pairs.set book.subscriptions name id }
  return .null

/-- The name of a new subscriber and how it reacts. -/
def subscriber : Script (String × Hook) := do
  let name ← step.text "sub"
  return (name, ← Script.remember (← step.reaction (.subscriber name)))

/-- Subscribe to a channel of a model. -/
def subscribe : Script Datum := do
  let model ← step.model "model"
  let channel ← step.text "channel"
  let (name, hook) ← subscriber step
  let subscription ← Script.actOnData (·.subscribe model channel (.client hook))
  keepSubscription name subscription.id

/-- The number of a registration that was kept. -/
def keptSubscription (entry : String) : Script SubscriptionId :=
  step.named entry "sub" Book.subscriptions

/-- End a registration on a channel of a model. -/
def unsubscribe : Script Datum := do
  let model ← step.model "model"
  let channel ← step.text "channel"
  let id ← keptSubscription step "sub"
  Script.modifyData (·.cancel ⟨.model model channel, id⟩)
  return .null

/-- Count the subscribers of a channel of a model. -/
def countSubscribers : Script Datum := do
  let model ← step.model "model"
  let channel ← step.text "channel"
  return .natural (((← Script.data).model model).channel channel).size

/-- Make a channel that belongs to no model. -/
def makeChannel : Script Datum := do
  let name ← step.text "channel"
  Script.modifyBook fun book =>
    { book with
      lines := book.lines.add {}
      channels := Pairs.set book.channels name book.lines.next }
  return .null

/-- A channel that belongs to no model. -/
def channel : Script Nat :=
  step.named "channel" "channel" Book.channels

/-- Subscribe to a channel that belongs to no model. -/
def subscribeToChannel : Script Datum := do
  let index ← channel step
  let (name, hook) ← subscriber step
  let id := ((← Script.book).line index).next
  Script.modifyBook (·.modifyLine index (·.subscribe hook))
  keepSubscription name id

/-- End a registration on a channel that belongs to no model. -/
def unsubscribeFromChannel : Script Datum := do
  let index ← channel step
  let id ← keptSubscription step "sub"
  let found := ((← Script.book).line index).isSubscribed id
  Script.modifyBook (·.modifyLine index (·.unsubscribe id))
  return .bool found

/-- Whether a registration on a channel that belongs to no model is in force. -/
def isSubscribedToChannel : Script Datum := do
  let index ← channel step
  let id ← keptSubscription step "sub"
  return .bool (((← Script.book).line index).isSubscribed id)

/-- The size of a channel that belongs to no model. -/
def channelSize : Script Datum := do
  let size := ((← Script.book).line (← channel step)).size
  return .list [.natural size, .bool (size == 0)]

/-- Notify the subscribers of a channel that belongs to no model. -/
def notifyChannel : Script Datum := do
  let index ← channel step
  let value ← step.value "value"
  Script.modifyWorld (notify (fun world => world.client.line index)
    fun hook world => behaviour.value hook value world)
  return .null

/-- Compare two registrations: whether they have the same number, and whether the first has the
smaller one. -/
def compareSubscriptions : Script Datum := do
  let first ← keptSubscription step "a"
  let second ← keptSubscription step "b"
  return .list [.bool (first == second), .bool (decide (first < second))]

/-- Make a collection. -/
def makeCollection : Script Datum := do
  let items ←
    if (step.present? "items").isSome then step.values "items" else pure []
  let id ← step.text "id"
  let collection ← Script.actOnData (·.addCollection items)
  Script.modifyBook fun book =>
    { book with collections := Pairs.set book.collections id collection }
  return .null

/-- The items of a collection. -/
def itemsOf (collection : CollectionId) : Script (List Value) :=
  return (← Script.data).contents.items collection

/-- Carry out a mutation of a collection. -/
def mutate (collection : CollectionId) (mutation : Mutation) : Script (Option Change) :=
  Script.act (·.mutate behaviour collection mutation)

/-- Insert an item. -/
def insertItem : Script Datum := do
  let collection ← step.collection "coll"
  let index ← step.position "index"
  let item ← step.value "item"
  let _ ← mutate behaviour collection (.insert index item)
  return .null

/-- Append an item. -/
def pushItem : Script Datum := do
  let collection ← step.collection "coll"
  let item ← step.value "item"
  let _ ← mutate behaviour collection (.push item)
  return .null

/-- An item, which may be the model that an action was run for. -/
def actingItem : Script Value := do
  match ← step.datum "item" with
  | .text "$model" => return .model (← step.actingModel "item")
  | _ => step.value "item"

/-- Remove an item; the answer is where it was. -/
def removeItem : Script Datum := do
  let collection ← step.collection "coll"
  let item ← actingItem step
  match ← mutate behaviour collection (.remove item) with
  | some (.remove index _) => return .natural index
  | _ => return .null

/-- The position of an item. -/
def findItem : Script Datum := do
  let collection ← step.collection "coll"
  let item ← step.value "item"
  return reportPosition (indexOf? (← itemsOf collection) item)

/-- Remove the item at a position; the answer is the item. -/
def removeItemAt : Script Datum := do
  let collection ← step.collection "coll"
  let index ← step.position "index"
  match ← mutate behaviour collection (.removeAt index) with
  | some (.remove _ item) => return reportFound (← Script.book) (some item)
  | _ => return .list []

/-- Replace the item at a position; the answer is the old one. -/
def updateItem : Script Datum := do
  let collection ← step.collection "coll"
  let index ← step.position "index"
  let item ← step.value "item"
  let old := (← itemsOf collection)[index]?
  let _ ← mutate behaviour collection (.update index item)
  return reportFound (← Script.book) old

/-- The item at a position. -/
def itemAt : Script Datum := do
  let collection ← step.collection "coll"
  let index ← step.position "index"
  return reportFound (← Script.book) (← itemsOf collection)[index]?

/-- Replace all items. -/
def replaceItems : Script Datum := do
  let collection ← step.collection "coll"
  let items ← step.values "items"
  let _ ← mutate behaviour collection (.replace items)
  return .null

/-- All items with their number. -/
def listItems : Script Datum := do
  let items ← itemsOf (← step.collection "coll")
  return .record [
    ("items", .list (reportValues (← Script.book) items)), ("len", .natural items.length),
    ("empty", .bool items.isEmpty)]

/-- Whether two names mean the same collection. -/
def sameCollection : Script Datum := do
  let first ← step.collection "a"
  let second ← step.collection "b"
  return .bool (first == second)

/-- Subscribe to a collection. -/
def subscribeToCollection : Script Datum := do
  let collection ← step.collection "coll"
  let (name, hook) ← subscriber step
  let subscription ← Script.actOnData (·.subscribeChanges collection (.client hook))
  keepSubscription name subscription.id

/-- End a registration on a collection. -/
def unsubscribeFromCollection : Script Datum := do
  let collection ← step.collection "coll"
  let id ← keptSubscription step "sub"
  Script.modifyData (·.cancel ⟨.collection collection, id⟩)
  return .null

/-- Report everything about a value. -/
def aboutValue : Script Datum := do
  let value ← step.value "a"
  let other ←
    match step.entry? "b" with
    | none => pure none
    | some _ => some <$> step.value "b"
  return reportAbout (← Script.book) (← Script.data).contents value other

/-- Write something out for inspection. -/
def inspect : Script Datum := do
  let id ← step.text "id"
  let world ← Script.world
  let contents := world.data.contents
  let text ←
    match ← step.text "of" with
    | "registry" => pure (inspectRegistry (world.registry Book.registry))
    | "renderer" =>
      pure (inspectRenderer (world.registry Book.registry) world.client.config)
    | "schema" => inspectSchema <$> Script.expect "schema" (world.client.schemas.lookup id)
    | "model" => do
      let model ← step.model "id"
      pure (inspectModel contents (world.data.model model))
    | "coll" => inspectCollection contents <$> step.collection "id"
    | "channel" => do
      let index ← Script.expect "channel" (world.client.channels.lookup id)
      pure (inspectChannel (world.client.line index))
    | "controller" => do
      let controller ← Script.expect "controller" (world.client.controllers.lookup id)
      pure (inspectController (world.controllers.get controller))
    | "value" => do
      let value ← step.value "value"
      pure (inspectValue (← Script.data).contents value)
    | _ => Script.reject "of"
  return .text text

/-- The script for a step of a given name, if it is one of these. -/
def script? (name : String) : Option (Script Datum) :=
  match name with
  | "log" => some (step.datum "text")
  | "stop" => some (onEvent Event.stop)
  | "prevent" => some (onEvent Event.prevent)
  | "schema" => some (keepSchema step)
  | "model" => some (makeModel step)
  | "get" => some (do
      let book ← Script.book
      readProperty step fun data model property => reportValue book (data.get model property))
  | "display" => some (do
      let book ← Script.book
      readProperty step fun data model property => reportValue book (data.display model property))
  | "declares" => some (do
      let model ← step.model "model"
      let property ← step.text "prop"
      return .bool (((← Script.data).model model).declares property))
  | "set" => some (setValue behaviour step)
  | "add" => some (addTo behaviour step)
  | "toggle" => some (toggle behaviour step)
  | "change_channel" => some (do return .text (changeChannel (← step.text "prop")))
  | "subscribe" => some (subscribe step)
  | "unsubscribe" => some (unsubscribe step)
  | "subscriber_count" => some (countSubscribers step)
  | "channel" => some (makeChannel step)
  | "ch_subscribe" => some (subscribeToChannel step)
  | "ch_unsubscribe" => some (unsubscribeFromChannel step)
  | "ch_is_subscribed" => some (isSubscribedToChannel step)
  | "ch_len" => some (channelSize step)
  | "ch_notify" => some (notifyChannel behaviour step)
  | "same_sub" => some (compareSubscriptions step)
  | "coll" => some (makeCollection step)
  | "insert" => some (insertItem behaviour step)
  | "push" => some (pushItem behaviour step)
  | "remove" => some (removeItem behaviour step)
  | "index_of" => some (findItem step)
  | "remove_at" => some (removeItemAt behaviour step)
  | "update" => some (updateItem behaviour step)
  | "at" => some (itemAt step)
  | "replace" => some (replaceItems behaviour step)
  | "items" => some (listItems step)
  | "ptr_eq" => some (sameCollection step)
  | "coll_subscribe" => some (subscribeToCollection step)
  | "coll_unsubscribe" => some (unsubscribeFromCollection step)
  | "value" => some (aboutValue step)
  | "debug" => some (inspect step)
  | _ => none

end LiveTemplate.Session.ReactiveSteps
