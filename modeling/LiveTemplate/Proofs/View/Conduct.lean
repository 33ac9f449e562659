import LiveTemplate.Proofs.View.Mounting
import LiveTemplate.View.Dispatch

/-!
# Conduct

What may happen to a world: finite sequences of calls of the library, where every piece of client
code that runs during a call, be it a callback, a listener or an action, may itself make such calls
before the first one goes on.  Client code is held to what it could do to a library that is used by
reference: the values that it hands over refer to models and collections that are there, it ends
only registrations of its own, and it leaves alone the document nodes of renders.
-/

namespace LiveTemplate

/-- A document is changed by others: nodes may come, go and move, but not those that were created for
the given render. -/
structure Document.Respects (document edited : Document) (render : Render) : Prop where
  subtree : (edited.nodes.subtree render.node).shape = (document.nodes.subtree render.node).shape
  created : ∀ node ∈ render.created, node ∈ edited.nodes.names → node ∈ document.nodes.names
  issued : ∀ node, document.places.Issued node → edited.places.Issued node

namespace World

variable {Client : Type}

mutual

/-- Calls one after the other. -/
inductive Conduct : World Client → World Client → Prop where
  | done (world : World Client) : Conduct world world
  | next {world middle after : World Client} (call : Call world middle)
      (rest : Conduct middle after) : Conduct world after

/-- One call, together with the calls that client code makes while it is in progress. -/
inductive Call : World Client → World Client → Prop where
  | set {behaviour : Behaviour Client} {world after : World Client} {data : Data} {model : ModelId}
      {property : String} {value : Value} (refers : world.data.Refers value)
      (stored : world.data.put model property value = .ok data)
      (told : Told behaviour model property value
        ((data.model model).channel (changeChannel property)).subscribers { world with data })
      (set : world.set behaviour model property value = .ok after) : Call world after
  | mutate {behaviour : Behaviour Client} {world : World Client} {data : Data}
      {collection : CollectionId} {mutation : Mutation} {change : Change}
      (made : mutation.change? (world.data.collection collection).items = some change)
      (refers : world.data.RefersIn change)
      (stored : data = world.data.modifyCollection collection fun collection =>
        { collection with items := change.apply collection.items })
      (told : ToldChange behaviour collection change
        (data.collection collection).channel.subscribers { world with data }) :
      Call world (world.mutate behaviour collection mutation).2
  | mount {behaviour : Behaviour Client} {world : World Client} {document : DocumentId}
      {registry : RegistryId} {config : RenderConfig} {template : Template} {model : ModelId}
      {controller : ControllerId} (there : document.index < world.documents.next)
      (inside : model.index < world.data.models.next) :
      Call world (world.mount behaviour document registry config template model controller).2
  | unmount {world : World Client} (id : RenderId) : Call world (world.unmount id)
  | dispatch {behaviour : Behaviour Client} {world : World Client} {document : DocumentId}
      {event : Event}
      (travels : Travels behaviour document ((world.document document).bubblePath event.target) event
        world) : Call world (world.dispatch behaviour document event).2
  | handle {behaviour : Behaviour Client} {world : World Client} {id : ControllerId}
      {action : String} {event : Event} {model : ModelId}
      (handles : Handles behaviour id action event model world) :
      Call world (world.handle behaviour id action event model).2
  | subscribe {world : World Client} {model : ModelId} (channel : String) (hook : Hook)
      (inside : model.index < world.data.models.next) :
      Call world { world with data := (world.data.subscribe model channel (.client hook)).2 }
  | subscribeChanges {world : World Client} {collection : CollectionId} (hook : Hook)
      (inside : collection.index < world.data.collections.next) :
      Call world { world with data := (world.data.subscribeChanges collection (.client hook)).2 }
  | cancel {world : World Client} {subscription : Subscription}
      (own : ∀ observer, world.data.Holds subscription observer → observer.owner? = none) :
      Call world { world with data := world.data.cancel subscription }
  | addModel {world : World Client} {schema : Schema}
      (refers : ∀ field ∈ schema, world.data.Refers field.initial) :
      Call world { world with data := (world.data.addModel (.ofSchema schema)).2 }
  | addCollection {world : World Client} {items : List Value}
      (refers : ∀ item ∈ items, world.data.Refers item) :
      Call world { world with data := (world.data.addCollection items).2 }
  | addDocument (world : World Client) :
      Call world { world with documents := world.documents.add {} }
  | edit {world : World Client} {place : DocumentId} {document edited : Document}
      (stored : world.documents.get? place.index = some document) (sound : edited.Sound)
      (respects : ∀ id render, world.render? id = some render → render.document = place →
        document.Respects edited render) :
      Call world (world.setDocument place edited)
  /-- Registries, controllers and what the client keeps for itself. -/
  | other {world after : World Client} (data : after.data = world.data)
      (documents : after.documents = world.documents) (renders : after.renders = world.renders) :
      Call world after

/-- What client code does while observers are told a value. -/
inductive Told : Behaviour Client → ModelId → String → Value →
    List (SubscriptionId × ValueObserver) → World Client → Prop where
  | done {behaviour : Behaviour Client} {model : ModelId} {property : String} {value : Value}
      (world : World Client) : Told behaviour model property value [] world
  | passed {behaviour : Behaviour Client} {world : World Client} {model : ModelId}
      {property : String} {value : Value} {id : SubscriptionId} {observer : ValueObserver}
      {later : List (SubscriptionId × ValueObserver)}
      (gone : ((world.data.model model).channel (changeChannel property)).isSubscribed id = false)
      (rest : Told behaviour model property value later world) :
      Told behaviour model property value ((id, observer) :: later) world
  | client {behaviour : Behaviour Client} {world : World Client} {model : ModelId}
      {property : String} {value : Value} {id : SubscriptionId} {hook : Hook}
      {later : List (SubscriptionId × ValueObserver)}
      (there : ((world.data.model model).channel (changeChannel property)).isSubscribed id = true)
      (acts : Conduct world (behaviour.value hook value world))
      (rest : Told behaviour model property value later (behaviour.value hook value world)) :
      Told behaviour model property value ((id, .client hook) :: later) world
  | render {behaviour : Behaviour Client} {world : World Client} {model : ModelId}
      {property : String} {value : Value} {id : SubscriptionId}
      {later : List (SubscriptionId × ValueObserver)} (observer : PathObserver)
      (there : ((world.data.model model).channel (changeChannel property)).isSubscribed id = true)
      (rest : Told behaviour model property value later (world.react behaviour observer value)) :
      Told behaviour model property value ((id, .path observer) :: later) world

/-- What client code does while observers are told a change. -/
inductive ToldChange : Behaviour Client → CollectionId → Change →
    List (SubscriptionId × ChangeObserver) → World Client → Prop where
  | done {behaviour : Behaviour Client} {collection : CollectionId} {change : Change}
      (world : World Client) : ToldChange behaviour collection change [] world
  | passed {behaviour : Behaviour Client} {world : World Client} {collection : CollectionId}
      {change : Change} {id : SubscriptionId} {observer : ChangeObserver}
      {later : List (SubscriptionId × ChangeObserver)}
      (gone : (world.data.collection collection).channel.isSubscribed id = false)
      (rest : ToldChange behaviour collection change later world) :
      ToldChange behaviour collection change ((id, observer) :: later) world
  | client {behaviour : Behaviour Client} {world : World Client} {collection : CollectionId}
      {change : Change} {id : SubscriptionId} {hook : Hook}
      {later : List (SubscriptionId × ChangeObserver)}
      (there : (world.data.collection collection).channel.isSubscribed id = true)
      (acts : Conduct world (behaviour.change hook change world))
      (rest : ToldChange behaviour collection change later (behaviour.change hook change world)) :
      ToldChange behaviour collection change ((id, .client hook) :: later) world
  | render {behaviour : Behaviour Client} {world : World Client} {collection : CollectionId}
      {change : Change} {id : SubscriptionId} {observer : ChangeObserver}
      {later : List (SubscriptionId × ChangeObserver)}
      (there : (world.data.collection collection).channel.isSubscribed id = true)
      (own : (Observer.change observer).owner? ≠ none)
      (rest : ToldChange behaviour collection change later
        (world.tellChange behaviour change observer)) :
      ToldChange behaviour collection change ((id, observer) :: later) world

/-- What client code does while an event travels. -/
inductive Travels : Behaviour Client → DocumentId → List NodeId → Event → World Client → Prop where
  | done {behaviour : Behaviour Client} {document : DocumentId} (event : Event)
      (world : World Client) : Travels behaviour document [] event world
  | gone {behaviour : Behaviour Client} {document : DocumentId} {node : NodeId}
      {above : List NodeId} {event : Event} {world : World Client}
      (absent : (world.document document).data? node = none)
      (rest : Travels behaviour document above event world) :
      Travels behaviour document (node :: above) event world
  | there {behaviour : Behaviour Client} {document : DocumentId} {node : NodeId}
      {above : List NodeId} {event heard : Event} {world after : World Client} {data : NodeData}
      (found : (world.document document).data? node = some data)
      (hears : HearsAll behaviour ((data.listenersFor event.name).map fun listener =>
        (listener, world.controllerOf? listener)) { event with current := node } world)
      (result : hearAll behaviour ((data.listenersFor event.name).map fun listener =>
        (listener, world.controllerOf? listener)) { event with current := node } world =
          (heard, after))
      (rest : heard.stopped = false → Travels behaviour document above heard after) :
      Travels behaviour document (node :: above) event world

/-- What client code does while listeners run. -/
inductive HearsAll : Behaviour Client → List (Listener × Option ControllerId) → Event →
    World Client → Prop where
  | done {behaviour : Behaviour Client} (event : Event) (world : World Client) :
      HearsAll behaviour [] event world
  | next {behaviour : Behaviour Client} {listener : Listener} {controller : Option ControllerId}
      {later : List (Listener × Option ControllerId)} {event heard : Event}
      {world after : World Client}
      (hears : Hears behaviour listener event { world with
        engaged := controller.toList ++ later.filterMap Prod.snd ++ world.engaged })
      (result : world.engaging (controller.toList ++ later.filterMap Prod.snd)
        (fun world => world.hear behaviour listener event) = (heard, after))
      (rest : HearsAll behaviour later heard after) :
      HearsAll behaviour ((listener, controller) :: later) event world

/-- What client code does while one listener runs. -/
inductive Hears : Behaviour Client → Listener → Event → World Client → Prop where
  | client {behaviour : Behaviour Client} {hook : Hook} {event : Event} {world : World Client}
      (acts : Conduct world (behaviour.listen hook event world).2) :
      Hears behaviour (.client hook) event world
  | gone {behaviour : Behaviour Client} {render : RenderId} {owner : BoundId} {slot : Nat}
      {event : Event} {world : World Client}
      (absent : world.eventAttribute? render owner slot = none) :
      Hears behaviour (.action render owner slot) event world
  | action {behaviour : Behaviour Client} {render : RenderId} {owner : BoundId} {slot : Nat}
      {event : Event} {world : World Client} {scope : Scope} {action : String} {prevents : Bool}
      (found : world.eventAttribute? render owner slot = some (scope, action, prevents))
      (handles : Handles behaviour scope.controller action (if prevents then event.prevent else event)
        scope.model world) :
      Hears behaviour (.action render owner slot) event world

/-- What client code does while a controller handles an action. -/
inductive Handles : Behaviour Client → ControllerId → String → Event → ModelId → World Client →
    Prop where
  | unknown {behaviour : Behaviour Client} {id : ControllerId} {action : String} {event : Event}
      {model : ModelId} {world : World Client}
      (nobody : world.handler? behaviour action (world.controllers.next + 1) id = none) :
      Handles behaviour id action event model world
  | known {behaviour : Behaviour Client} {id : ControllerId} {action : String} {event : Event}
      {model : ModelId} {world : World Client} {chain : List ControllerId} {hook : Hook}
      (found : world.handler? behaviour action (world.controllers.next + 1) id = some (chain, hook))
      (acts : Conduct { world with engaged := id :: chain ++ world.engaged }
        (behaviour.act hook event model
          { world with engaged := id :: chain ++ world.engaged }).2) :
      Handles behaviour id action event model world

end

end World

end LiveTemplate
