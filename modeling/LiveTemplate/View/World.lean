import LiveTemplate.View.Config
import LiveTemplate.View.Controller
import LiveTemplate.View.Part
import LiveTemplate.View.Registry

/-!
# The world that renders live in

The world holds the models and collections, the documents that are shown, the registries, the
controllers and the renders, together with whatever the client keeps for itself.  The client also
supplies behaviour: callbacks, event listeners, controller actions and controller factories, each of
which is a function of the world.  A render's own reactions are not behaviour but data, so the only
unknown code that ever runs is the client's.
-/

namespace LiveTemplate

/-- What one showing of a template has built, and where. -/
structure Render where
  document : DocumentId
  registry : RegistryId
  config : RenderConfig
  tree : BoundTree Part
  /-- The group at the top of the bound nodes. -/
  root : BoundId
  /-- The root element in the document. -/
  node : NodeId
  /-- Every document node that was ever built for it, whether or not it is still there. -/
  created : List NodeId := []

/-- Everything that can change. -/
structure World (Client : Type) where
  data : Data := {}
  documents : Store Document := {}
  registries : Store Registry := {}
  controllers : Controllers := {}
  renders : Store Render := {}
  /-- Controllers that are at work at the moment. -/
  engaged : List ControllerId := []
  /-- Failures to bring a render up to date.  They are reported and stop nothing. -/
  failures : List (RenderId × RenderError) := []
  client : Client

/-- The behaviour that the client supplies. -/
structure Behaviour (Client : Type) where
  /-- A callback on a channel of a model is told a value. -/
  value : Hook → Value → World Client → World Client
  /-- A callback on a collection is told a change. -/
  change : Hook → Change → World Client → World Client
  /-- A listener hears an event. -/
  listen : Hook → Event → World Client → Event × World Client
  /-- A controller runs an action for an event and a model. -/
  act : Hook → Event → ModelId → World Client → Event × World Client
  /-- A factory is told which controllers are in use and gives one.  It reaches only controllers and
  the client's own state. -/
  build : (ControllerId → Bool) → Hook → Controllers → Client →
    ControllerId × Controllers × Client
  /-- The controllers that the client itself keeps in use. -/
  keeps : World Client → List ControllerId

namespace World

variable {Client : Type}

/-- A document by number. -/
def document (world : World Client) (id : DocumentId) : Document :=
  (world.documents.get? id.index).getD {}

/-- Replace a document. -/
def setDocument (world : World Client) (id : DocumentId) (document : Document) : World Client :=
  { world with documents := world.documents.modify id.index fun _ => document }

/-- Change a document. -/
def modifyDocument (world : World Client) (id : DocumentId) (change : Document → Document) :
    World Client :=
  { world with documents := world.documents.modify id.index change }

/-- A registry by number. -/
def registry (world : World Client) (id : RegistryId) : Registry :=
  (world.registries.get? id.index).getD {}

/-- Change a registry. -/
def modifyRegistry (world : World Client) (id : RegistryId) (change : Registry → Registry) :
    World Client :=
  { world with registries := world.registries.modify id.index change }

/-- A render by number. -/
def render? (world : World Client) (id : RenderId) : Option Render :=
  world.renders.get? id.index

/-- Change a render. -/
def modifyRender (world : World Client) (id : RenderId) (change : Render → Render) :
    World Client :=
  { world with renders := world.renders.modify id.index change }

/-- Change the bound nodes of a render. -/
def modifyTree (world : World Client) (id : RenderId)
    (change : BoundTree Part → BoundTree Part) : World Client :=
  world.modifyRender id fun render => { render with tree := change render.tree }

/-- A live bound node of a render. -/
def bound? (world : World Client) (id : RenderId) (node : BoundId) : Option (BoundNode Part) :=
  (world.render? id).bind (·.tree.get? node)

/-- Whether a bound node of a render is live. -/
def isLive (world : World Client) (id : RenderId) (node : BoundId) : Bool :=
  (world.bound? id node).isSome

/-- Add a controller. -/
def createController (world : World Client) (controller : Controller) :
    ControllerId × World Client :=
  let (id, controllers) := world.controllers.create controller
  (id, { world with controllers })

/-- Tear a bound node of a render down. -/
def teardown (world : World Client) (id : RenderId) (node : BoundId) : World Client :=
  match world.render? id with
  | none => world
  | some render =>
    let (tree, data, document) :=
      render.tree.teardown node world.data (world.document render.document)
    ({ world with data }.setDocument render.document document).modifyTree id fun _ => tree

/-- Whether a controller is in use: the client keeps it, it is at work, or a live bound node was
built with it. -/
def inUse (behaviour : Behaviour Client) (world : World Client) (id : ControllerId) : Bool :=
  (behaviour.keeps world).contains id || world.engaged.contains id ||
    world.renders.toList.any fun render =>
      render.tree.nodes.entries.any fun entry => entry.2.scope.controller == id

/-- The client's factories during a building.  Controllers made in the meantime are in use. -/
def factories (behaviour : Behaviour Client) (world : World Client) :
    Hook → Controllers → Client → ControllerId × Controllers × Client :=
  behaviour.build fun id =>
    world.inUse behaviour id || decide (world.controllers.next ≤ id.index)

end World

end LiveTemplate
