import LiveTemplate.Document.Html
import LiveTemplate.Proofs.Upkeep.Runs
import LiveTemplate.View.Dispatch
import LiveTemplate.View.Mount

/-!
# Clients that work by name

A client gives names to the registrations, controllers, renders and nodes that it makes, and all it
knows of them is what it is told and what it asks.  What it does when it is told something is a
program, which may depend on everything that it has been told so far.  Calls end because callbacks
are nested to a given depth only; whatever is nested less deeply is not affected by that.

All renders of such a client share one document.
-/

namespace LiveTemplate

/-! ## Values that are there -/

mutual

/-- Whether every model and every collection that a value refers to is there. -/
def Value.inside (models collections : Nat) : Value → Bool
  | .null | .bool _ | .number _ | .text _ => true
  | .list items => insideAll models collections items
  | .model id => decide (id.index < models)
  | .collection id => decide (id.index < collections)

def Value.insideAll (models collections : Nat) : List Value → Bool
  | [] => true
  | item :: later => item.inside models collections && insideAll models collections later

end

mutual

theorem Value.inside_iff {models collections : Nat} :
    ∀ value : Value, value.inside models collections = true ↔ value.Within models collections
  | .null => by simp [inside, Within.null]
  | .bool value => by simp [inside, Within.bool]
  | .number value => by simp [inside, Within.number]
  | .text value => by simp [inside, Within.text]
  | .list items => by
      rw [inside, insideAll_iff items]
      constructor
      · exact .list
      · intro within
        cases within with
        | list within => exact within
  | .model id => by
      rw [inside, decide_eq_true_iff]
      constructor
      · exact .model
      · intro within
        cases within with
        | model within => exact within
  | .collection id => by
      rw [inside, decide_eq_true_iff]
      constructor
      · exact .collection
      · intro within
        cases within with
        | collection within => exact within

theorem Value.insideAll_iff {models collections : Nat} : ∀ items : List Value,
    insideAll models collections items = true ↔ ∀ item ∈ items, item.Within models collections
  | [] => by simp [insideAll]
  | item :: later => by
      rw [insideAll, Bool.and_eq_true, inside_iff item, insideAll_iff later, List.forall_mem_cons]

end

instance (data : Data) (value : Value) : Decidable (data.Refers value) :=
  decidable_of_iff _ value.inside_iff

/-- The values that a mutation hands over. -/
def Mutation.handed : Mutation → List Value
  | .insert _ item | .push item | .update _ item => [item]
  | .remove _ | .removeAt _ => []
  | .replace items => items

/-! ## What a client may say -/

/-- How a client points at a node: one that it made, the root element of a render, or one beside
these. -/
inductive Spot where
  | made (name : String)
  | root (render : String)
  | child (above : Spot) (index : Nat)
  | parent (below : Spot)

/-- What a client may ask. -/
inductive Question where
  | property (model : ModelId) (property : String)
  | shown (model : ModelId) (property : String)
  | items (collection : CollectionId)
  | html (spot : Spot)
  | subscriptions (render : String)
  | bounds (render : String)
  | failure (render : String)

/-- What it may be answered. -/
inductive Answer where
  | value (value : Value)
  | values (values : List Value)
  | text (text : String)
  | count (count : Nat)
  | failure (error : Option RenderError)

/-- A change of one document node. -/
inductive Edit where
  | attribute (name : String) (value : Option String)
  | style (name : String) (value : Option String)
  | text (content : String)
  | listen (event : String) (hook : Hook)

def Edit.apply : Edit → NodeData → NodeData
  | .attribute name value, data => data.setAttribute name value
  | .style name value, data => data.setStyle name value
  | .text content, data => data.setText content
  | .listen event hook, data => data.listen event (.client hook)

/-- What a client may do. -/
inductive Deed where
  | note (answer : Answer)
  | addModel (schema : Schema)
  | addCollection (items : List Value)
  | set (model : ModelId) (property : String) (value : Value)
  | mutate (collection : CollectionId) (mutation : Mutation)
  | subscribe (name : String) (model : ModelId) (channel : String) (hook : Hook)
  | subscribeChanges (name : String) (collection : CollectionId) (hook : Hook)
  | cancel (name : String)
  | addController (name : String) (table : Option (List (String × Hook)))
  | dropController (name : String)
  | addRegistry
  | addView (registry : RegistryId) (name : String) (template : Template)
  | addFactory (registry : RegistryId) (name : String) (factory : Hook)
  | mount (name : String) (registry : RegistryId) (config : RenderConfig) (template : Template)
      (model : ModelId) (controller : String)
  | mountView (name : String) (registry : RegistryId) (config : RenderConfig) (view : String)
      (model : ModelId)
  | unmount (name : String)
  | create (name : String) (kind : NodeKind)
  | append (parent child : Spot)
  | insertAfter (reference node : Spot)
  | detach (spot : Spot)
  | remove (spot : Spot)
  | edit (spot : Spot) (edit : Edit)
  | dispatch (spot : Spot) (event : String) (detail : Value)
  | handle (controller action : String) (spot : Spot) (event : String) (detail : Value)
      (model : ModelId)

/-- What a client does: deeds, one after the other, between which it may ask and go by the answer. -/
inductive Program where
  | done
  | act (deed : Deed) (later : Program)
  | ask (question : Question) (later : Answer → Program)

/-- What a call may return. -/
inductive Returned where
  | set (error : Option ModelError)
  | change (change : Option Change)
  | event (handled prevented stopped : Bool)

/-- What a client has been told, or has noted itself. -/
inductive Entry where
  | told (hook : Hook) (value : Value)
  | changed (hook : Hook) (change : Change)
  | heard (hook : Hook) (event : String) (detail : Value) (prevented : Bool)
  | acted (hook : Hook) (event : String) (detail : Value) (prevented : Bool) (model : ModelId)
  | returned (result : Returned)
  | noted (answer : Answer)

/-- What there was to be seen after a deed. -/
structure Moment where
  deed : Deed
  log : List Entry
  answer : Question → Answer

/-- What a client keeps: what it was told, in order, what its names stand for, and how things stood
after each of its deeds.  It does not go by the latter. -/
structure Journal where
  log : List Entry := []
  course : List Moment := []
  registrations : List (String × Subscription) := []
  controllers : List (String × ControllerId) := []
  renders : List (String × RenderId) := []
  failures : List (String × Option RenderError) := []
  nodes : List (String × NodeId) := []

/-- The document that all renders share. -/
def place : DocumentId := ⟨0⟩

namespace World

/-! ## What the client sees -/

/-- The node that the client points at. -/
def spot? (world : World Journal) : Spot → Option NodeId
  | .made name => world.client.nodes.lookup name
  | .root name =>
    (world.client.renders.lookup name).bind fun id => (world.render? id).map (·.node)
  | .child above index =>
    (world.spot? above).bind fun node => ((world.document place).children node)[index]?
  | .parent below => (world.spot? below).bind (world.document place).parent?

def answer (world : World Journal) : Question → Answer
  | .property model property => .value (world.data.get model property)
  | .shown model property => .value (world.data.display model property)
  | .items collection => .values (world.data.collection collection).items
  | .html spot => .text ((world.spot? spot).elim "" (world.document place).html)
  | .subscriptions name => .count ((world.client.renders.lookup name).elim 0 world.subscriptionCount)
  | .bounds name => .count ((world.client.renders.lookup name).elim 0 world.boundCount)
  | .failure name => .failure (world.client.failures.lookup name).join

/-! ## What the client does -/

/-- Go on to log something. -/
def note (world : World Journal) (entry : Entry) : World Journal :=
  { world with client := { world.client with log := world.client.log ++ [entry] } }

/-- An event comes with two nodes, which the client may point at from then on. -/
def meet (world : World Journal) (event : Event) : World Journal :=
  { world with
    client := { world.client with
      nodes := Pairs.set (Pairs.set world.client.nodes "target" event.target) "current"
        event.current } }

/-- An event has gone its way. -/
def noteEvent (world : World Journal) (handled : Bool) (event : Event) : World Journal :=
  world.note (.returned (.event handled event.prevented event.stopped))

/-- Keep what a name stands for from now on. -/
def keepRender (world : World Journal) (name : String) :
    Except RenderError RenderId → World Journal
  | .ok id =>
    { world with
      client := { world.client with
        renders := Pairs.set world.client.renders name id
        failures := Pairs.set world.client.failures name none } }
  | .error error =>
    { world with
      client := { world.client with
        failures := Pairs.set world.client.failures name (some error) } }

def keepController (world : World Journal) (name : String) (id : ControllerId) : World Journal :=
  { world with
    client := { world.client with controllers := Pairs.set world.client.controllers name id } }

def keepRegistration (world : World Journal) (name : String) (subscription : Subscription) :
    World Journal :=
  { world with
    client := { world.client with
      registrations := Pairs.set world.client.registrations name subscription } }

/-- Change the document around a node that the client points at. -/
def editAt (world : World Journal) (spot : Spot) (change : NodeId → Document → Document) :
    World Journal :=
  match world.spot? spot with
  | some node => world.modifyDocument place (change node)
  | none => world

/-- One deed of the client.  Nothing is done with models, collections and names that are not there. -/
def enact (behaviour : Behaviour Journal) (world : World Journal) : Deed → World Journal
  | .note answer => world.note (.noted answer)
  | .addModel schema =>
    if ∀ field ∈ schema, world.data.Refers field.initial then
      { world with data := (world.data.addModel (.ofSchema schema)).2 }
    else world
  | .addCollection items =>
    if ∀ item ∈ items, world.data.Refers item then
      { world with data := (world.data.addCollection items).2 }
    else world
  | .set model property value =>
    if world.data.Refers value then
      match world.set behaviour model property value with
      | .ok world => world.note (.returned (.set none))
      | .error error => world.note (.returned (.set (some error)))
    else world
  | .mutate collection mutation =>
    if ∀ item ∈ mutation.handed, world.data.Refers item then
      let (change, world) := world.mutate behaviour collection mutation
      world.note (.returned (.change change))
    else world
  | .subscribe name model channel hook =>
    if model.index < world.data.models.next then
      let (subscription, data) := world.data.subscribe model channel (.client hook)
      { world with data }.keepRegistration name subscription
    else world
  | .subscribeChanges name collection hook =>
    if collection.index < world.data.collections.next then
      let (subscription, data) := world.data.subscribeChanges collection (.client hook)
      { world with data }.keepRegistration name subscription
    else world
  | .cancel name =>
    match world.client.registrations.lookup name with
    | some subscription => { world with data := world.data.cancel subscription }
    | none => world
  | .addController name table =>
    let (id, world) := world.createController (table.elim .inert (.actions · none))
    world.keepController name id
  | .dropController name =>
    { world with
      client := { world.client with controllers := Pairs.erase world.client.controllers name } }
  | .addRegistry => { world with registries := world.registries.add {} }
  | .addView registry name template => world.modifyRegistry registry (·.addView name template)
  | .addFactory registry name factory => world.modifyRegistry registry (·.addFactory name factory)
  | .mount name registry config template model controller =>
    match world.client.controllers.lookup controller with
    | some controller =>
      if model.index < world.data.models.next then
        let (outcome, world) := world.mount behaviour place registry config template model controller
        world.keepRender name outcome
      else world
    | none => world
  | .mountView name registry config view model =>
    if model.index < world.data.models.next then
      let (outcome, world) := world.mountView behaviour place registry config view model
      world.keepRender name outcome
    else world
  | .unmount name =>
    match world.client.renders.lookup name with
    | some id => world.unmount id
    | none => world
  | .create name kind =>
    let (node, document) := (world.document place).insert { kind }
    { world.setDocument place document with
      client := { world.client with nodes := Pairs.set world.client.nodes name node } }
  | .append parent child =>
    match world.spot? parent with
    | some parent => world.editAt child fun child document => document.appendChild parent child
    | none => world
  | .insertAfter reference node =>
    match world.spot? reference with
    | some reference => world.editAt node fun node document => document.insertAfter reference node
    | none => world
  | .detach spot => world.editAt spot fun node document => document.detach node
  | .remove spot => world.editAt spot fun node document => (document.remove node).2
  | .edit spot edit => world.editAt spot fun node document => document.modify node edit.apply
  | .dispatch spot event detail =>
    match world.spot? spot with
    | some node =>
      let (event, world) := world.dispatch behaviour place { Event.fired event node with detail }
      world.noteEvent true event
    | none => world
  | .handle controller action spot event detail model =>
    match world.client.controllers.lookup controller, world.spot? spot with
    | some controller, some node =>
      let ((handled, event), world) :=
        world.handle behaviour controller action { Event.fired event node with detail } model
      world.noteEvent handled event
    | _, _ => world

/-- Keep how things stand after a deed. -/
def record (world : World Journal) (deed : Deed) : World Journal :=
  { world with
    client := { world.client with
      course := world.client.course ++ [⟨deed, world.client.log, world.answer⟩] } }

/-- Do what a program says. -/
def perform (behaviour : Behaviour Journal) : Program → World Journal → World Journal
  | .done, world => world
  | .act deed later, world => perform behaviour later ((world.enact behaviour deed).record deed)
  | .ask question later, world => perform behaviour (later (world.answer question)) world

end World

/-- What a client does when it is told something, by all that it has been told up to then: what it
does, whether it prevents and stops an event, and what its factories' controllers know. -/
structure Script where
  respond : Hook → List Entry → Program
  verdict : Hook → List Entry → Bool × Bool
  supply : Hook → List Entry → List (String × Hook)

namespace Script

/-- The client does nothing, except that its factories give fresh controllers. -/
def idle (script : Script) : Behaviour Journal where
  value _ _ world := world
  change _ _ world := world
  listen _ event world := (event, world)
  act _ event _ world := (event, world)
  build _ hook controllers client :=
    (⟨controllers.next⟩, controllers.add (.actions (script.supply hook client.log) none), client)
  keeps world := world.client.controllers.map Prod.snd

/-- The client is told something, logs it and responds.  What it is told meanwhile is up to `inner`. -/
def respondTo (script : Script) (inner : Behaviour Journal) (hook : Hook) (entry : Entry)
    (world : World Journal) : World Journal :=
  let world := world.note entry
  world.perform inner (script.respond hook world.client.log)

/-- The same for an event, which may be prevented and stopped. -/
def respondToEvent (script : Script) (inner : Behaviour Journal) (hook : Hook) (entry : Entry)
    (event : Event) (world : World Journal) : Event × World Journal :=
  let after := script.respondTo inner hook entry (world.meet event)
  let (prevents, stops) := script.verdict hook after.client.log
  let event := if prevents then event.prevent else event
  (if stops then event.stop else event, after)

/-- What the client does in calls that are nested no deeper than given. -/
def play (script : Script) : Nat → Behaviour Journal
  | 0 => script.idle
  | depth + 1 =>
    { script.idle with
      value := fun hook value => script.respondTo (script.play depth) hook (.told hook value)
      change := fun hook change => script.respondTo (script.play depth) hook (.changed hook change)
      listen := fun hook event =>
        script.respondToEvent (script.play depth) hook
          (.heard hook event.name event.detail event.prevented) event
      act := fun hook event model =>
        script.respondToEvent (script.play depth) hook
          (.acted hook event.name event.detail event.prevented model) event }

end Script

/-! ## Leaving renders out -/

/-- The deed creates a hidden render or takes one down. -/
def Deed.concerns (hidden : String → Bool) : Deed → Bool
  | .mount name .. | .mountView name .. | .unmount name => hidden name
  | _ => false

/-- The program without the creation and the teardown of hidden renders. -/
def Program.without (hidden : String → Bool) : Program → Program
  | .done => .done
  | .act deed later =>
    if deed.concerns hidden then later.without hidden else .act deed (later.without hidden)
  | .ask question later => .ask question fun answer => (later answer).without hidden

/-- The same in everything that the client does. -/
def Script.without (script : Script) (hidden : String → Bool) : Script :=
  { script with respond := fun hook log => (script.respond hook log).without hidden }

/-- The client does not point at nodes of hidden renders. -/
def Spot.Spares (hidden : String → Bool) : Spot → Prop
  | .made _ => True
  | .root name => hidden name = false
  | .child above _ => above.Spares hidden
  | .parent below => below.Spares hidden

/-- The client does not ask for a hidden render. -/
def Question.Spares (hidden : String → Bool) : Question → Prop
  | .html spot => spot.Spares hidden
  | .subscriptions name | .bounds name | .failure name => hidden name = false
  | _ => True

/-- The client names no node of a hidden render, and such a render and no other has a root controller
of its own. -/
def Deed.Spares (hidden own : String → Bool) : Deed → Prop
  | .mount name _ _ _ _ controller => hidden name = own controller
  | .append first second | .insertAfter first second => first.Spares hidden ∧ second.Spares hidden
  | .detach spot | .remove spot | .edit spot _ | .dispatch spot _ _ | .handle _ _ spot _ _ _ =>
    spot.Spares hidden
  | _ => True

def Program.Spares (hidden own : String → Bool) : Program → Prop
  | .done => True
  | .act deed later => deed.Spares hidden own ∧ later.Spares hidden own
  | .ask question later =>
    question.Spares hidden ∧ ∀ answer, (later answer).Spares hidden own

def Script.Spares (script : Script) (hidden own : String → Bool) : Prop :=
  ∀ hook log, (script.respond hook log).Spares hidden own

end LiveTemplate
