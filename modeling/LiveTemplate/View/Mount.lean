import LiveTemplate.Template.Parse
import LiveTemplate.View.React

/-!
# Mounting templates

A template is mounted for a model in a document.  Its root element stands by itself until someone
attaches it.  Before anything is built, every view that may be needed is looked up.
-/

namespace LiveTemplate.World

variable {Client : Type}

/-- A render of which only the group at the top is there. -/
def newRender (world : World Client) (document : DocumentId) (registry : RegistryId)
    (config : RenderConfig) (scope : Scope) : Render :=
  let (root, tree) := BoundTree.insert {} { part := .group, scope }
  { document, registry, config, tree, root, node := (world.document document).places.next }

/-- Put what has been built below the group at the top of a render. -/
def establish (world : World Client) (id : RenderId) (growth : Growth) : World Client :=
  world.modifyRender id fun render =>
    { render with
      tree := render.tree.graft render.root growth.bound
      created := growth.page.names }

/-- Add a render and build its root element. -/
def raise (behaviour : Behaviour Client) (world : World Client) (render : Render)
    (template : Template) (scope : Scope) : Growth × World Client :=
  let id : RenderId := ⟨world.renders.next⟩
  let (growth, world) := { world with renders := world.renders.add render }.grow behaviour id render
    fun site => site.node site.viewIn template.root scope
  (growth, world.establish id growth)

/-- Put the root element into the document, as a tree of its own. -/
def present (world : World Client) (render : Render) (growth : Growth) : World Client :=
  world.modifyDocument render.document fun document =>
    { document with nodes := document.nodes ++ growth.page }

/-- Give up what could not be finished: its registrations end, and the places of its document nodes
are vacated. -/
def abandon (world : World Client) (id : RenderId) (render : Render) (growth : Growth) :
    World Client :=
  (world.teardown id render.root).modifyDocument render.document fun document =>
    { document with places := document.places.vacateAll (BoundForest.shown growth.bound) }

/-- Mount a template.  The root controller is told once everything is there.  If building fails, the
document keeps its nodes. -/
def mount (behaviour : Behaviour Client) (world : World Client) (document : DocumentId)
    (registry : RegistryId) (config : RenderConfig) (template : Template) (model : ModelId)
    (controller : ControllerId) : Except RenderError RenderId × World Client :=
  match (world.registry registry).missingView? template with
  | some name => (.error (.unknownView name), world)
  | none =>
    let id : RenderId := ⟨world.renders.next⟩
    let scope : Scope := { model, controller }
    let render := world.newRender document registry config scope
    let (growth, world) := world.raise behaviour render template scope
    match growth.failure with
    | some error => (.error error, world.abandon id render growth)
    | none =>
      let world := world.present render growth
      (.ok id, { world with
        controllers := world.controllers.attach controller ⟨model, render.node, none⟩ })

/-- Mount the template of a source. -/
def mountSource (behaviour : Behaviour Client) (world : World Client) (document : DocumentId)
    (registry : RegistryId) (config : RenderConfig) (source : String) (model : ModelId)
    (controller : ControllerId) : Except RenderError RenderId × World Client :=
  match Template.parse source with
  | .error error => (.error (.parse error), world)
  | .ok template => world.mount behaviour document registry config template model controller

/-- A new controller for a view: one from its factory, or one that knows nothing. -/
def controllerFor (behaviour : Behaviour Client) (world : World Client) (registry : RegistryId)
    (name : String) : ControllerId × World Client :=
  match (world.registry registry).factory? name with
  | some factory =>
    let (id, controllers, client) :=
      world.factories behaviour factory world.controllers world.client
    (id, { world with controllers, client })
  | none => world.createController .inert

/-- Mount a registered view. -/
def mountView (behaviour : Behaviour Client) (world : World Client) (document : DocumentId)
    (registry : RegistryId) (config : RenderConfig) (name : String) (model : ModelId) :
    Except RenderError RenderId × World Client :=
  match (world.registry registry).view? name with
  | none => (.error (.unknownView name), world)
  | some template =>
    let (controller, world) := world.controllerFor behaviour registry name
    world.mount behaviour document registry config template model controller

/-- Take a render down: end its registrations and remove its nodes from the document. -/
def unmount (world : World Client) (id : RenderId) : World Client :=
  match world.render? id with
  | some render => world.teardown id render.root
  | none => world

/-- Whether a render is still there. -/
def isMounted (world : World Client) (id : RenderId) : Bool :=
  match world.render? id with
  | some render => world.isLive id render.root
  | none => false

/-- The number of registrations that a render holds. -/
def subscriptionCount (world : World Client) (id : RenderId) : Nat :=
  match world.render? id with
  | some render => render.tree.subscriptionCount render.root
  | none => 0

/-- The number of bound nodes of a render. -/
def boundCount (world : World Client) (id : RenderId) : Nat :=
  match world.render? id with
  | some render => render.tree.boundCount render.root
  | none => 0

end LiveTemplate.World
