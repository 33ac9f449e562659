import LiveTemplate.Document.Html
import LiveTemplate.Session.Report
import LiveTemplate.View.Dispatch

/-!
# Steps on views, controllers and renders
-/

namespace LiveTemplate.Session.ViewSteps

variable (behaviour : Behaviour Book) (step : Step)

/-- The effects of named actions. -/
def readActions (entry : String) : Script (List (String × List Datum)) := do
  let actions ← Script.expect entry (← step.datum entry).record?
  actions.mapM fun (name, effects) =>
    return (name, ← Script.expect entry effects.list?)

/-- A template that was kept, or that is written out. -/
def readTemplate : Script (Except Template.ParseError Template) := do
  if (step.present? "template").isSome then
    return .ok (← step.named "template" "template" Book.templates)
  else
    return Template.parse (← step.text "source")

/-- Use a template that was kept or is written out; one that cannot be read is the answer. -/
def withTemplate (use : Template → Script Datum) : Script Datum := do
  match ← readTemplate step with
  | .ok template => use template
  | .error error => return parseErrorAnswer error

/-- Use a source as a template. -/
def withSource (use : Template → Script Datum) : Script Datum := do
  match Template.parse (← step.text "source") with
  | .ok template => use template
  | .error error => return parseErrorAnswer error

/-- Register a view in a registry. -/
def addView (registry : RegistryId) (name : String) (template : Template) : Script Datum := do
  Script.modifyWorld (·.modifyRegistry registry (·.addView name template))
  return .null

/-- Register the view of a source. -/
def registerView (registry : RegistryId) : Script Datum := do
  let name ← step.text "name"
  withSource step (addView registry name)

/-- Register a template as a view. -/
def registerTemplate : Script Datum := do
  let name ← step.text "name"
  withTemplate step (addView Book.registry name)

/-- Keep the template of a source. -/
def keepTemplate : Script Datum :=
  withSource step fun template => do
    let id ← step.text "id"
    Script.modifyBook fun book => { book with templates := Pairs.set book.templates id template }
    return .null

/-- Look a view up: whether it is there, and its root. -/
def lookUpView : Script Datum := do
  let name ← step.text "name"
  let view := ((← Script.world).registry Book.registry).view? name
  return .list [
    .bool view.isSome, (view.map fun template => nodeAnswer template.root).getD .null]

/-- Look up every view that a template may need. -/
def validate : Script Datum :=
  withTemplate step fun template => do
    match ((← Script.world).registry Book.registry).missingView? template with
    | some name => return reportRenderError (.unknownView name)
    | none => return .null

/-- Make a controller with actions. -/
def makeController : Script Datum := do
  let id ← step.text "id"
  let actions ← readActions step "actions"
  let table ← actions.mapM fun (name, effects) =>
    return (name, ← Script.remember { role := .action name id, effects })
  let controller ← Script.act (·.createController (.actions table none))
  Script.modifyBook fun book =>
    { book with controllers := Pairs.set book.controllers id controller }
  return .null

/-- Let go of a controller; the answer is whether it was kept. -/
def dropController : Script Datum := do
  let id ← step.text "id"
  let found := ((← Script.book).controllers.lookup id).isSome
  Script.modifyBook fun book => { book with controllers := Pairs.erase book.controllers id }
  return .bool found

/-- Register a factory in a registry. -/
def addFactory (registry : RegistryId) (view : String) (role : Role) : Script Datum := do
  let hook ← Script.remember { role }
  Script.modifyWorld (·.modifyRegistry registry (·.addFactory view hook))
  return .null

/-- Register a factory.  A controller that it is to share need not be there yet. -/
def registerFactory : Script Datum := do
  let view ← step.text "view"
  let supply ←
    if (step.present? "shared").isSome then Supply.named <$> step.text "shared"
    else if (step.present? "actions").isSome then Supply.fresh <$> readActions step "actions"
    else pure .inert
  addFactory Book.registry view (.factory view supply)

/-- Ask for the controller of a view; the answer is whether there is a factory. -/
def lookUpController : Script Datum := do
  let view ← step.text "view"
  let found := (((← Script.world).registry Book.registry).factory? view).isSome
  if found then
    let _ ← Script.act (·.controllerFor behaviour Book.registry view)
    return .bool true
  else return .bool false

/-- What a controller was told when its view was shown. -/
def links : Script Datum := do
  let controller ← step.controller behaviour "id"
  let world ← Script.world
  match (world.controllers.get controller).links? with
  | none => return .null
  | some links =>
    let view ← Script.reportNode links.view
    return .record [
      ("model", reportModel world.client links.model), ("view", view),
      ("parent", (links.parent.map fun parent =>
        Datum.bool (world.inUse behaviour parent)).getD .null)]

/-- A controller that may be missing; then one that knows nothing takes its place. -/
def controllerOrInert : Script ControllerId := do
  if (step.present? "controller").isSome then step.controller behaviour "controller"
  else Script.act (·.createController .inert)

/-- Let a controller handle an action for a new event. -/
def handle : Script Datum := do
  let node ← step.node "node"
  let name ← step.text "event"
  let model ← step.model "model"
  let controller ← controllerOrInert behaviour step
  let action ← step.text "action"
  let (handled, event) ←
    Script.act (·.handle behaviour controller action (Event.fired name node) model)
  return .list [.bool handled, ← reportEvent event]

/-- Resolve a path, for display and raw. -/
def resolve : Script Datum := do
  let model ← step.model "model"
  let path := Template.Path.ofText (← step.text "path")
  let data ← Script.data
  return .list [← report (data.resolve model path), ← report (data.resolveRaw model path)]

/-- What is to be mounted. -/
inductive Mounting where
  | view (name : String)
  | template (template : Template)
  | source (source : String)

/-- What is to be mounted: a view, a kept template or a source. -/
def readMounting : Script Mounting := do
  if (step.present? "view").isSome then return .view (← step.text "view")
  else if (step.present? "template").isSome then
    return .template (← step.named "template" "template" Book.templates)
  else return .source (← step.text "source")

/-- Mount something in a document.  A view brings its own controller. -/
def mountIn (document : DocumentId) (registry : RegistryId) (config : RenderConfig)
    (mounting : Mounting) (model : ModelId) (controller : ControllerId) :
    Script (Except RenderError RenderId) :=
  Script.act fun world =>
    match mounting with
    | .view name => world.mountView behaviour document registry config name model
    | .template template =>
      world.mount behaviour document registry config template model controller
    | .source source =>
      world.mountSource behaviour document registry config source model controller

/-- The root element of a render. -/
def rootOf (render : RenderId) : Script (Option NodeId) :=
  return ((← Script.world).render? render).map (·.node)

/-- Mount something in the session's document under a name.  What was mounted under it before is
taken down afterwards. -/
def mount : Script Datum := do
  let model ← step.model "model"
  let mounting ← readMounting step
  let controller ← controllerOrInert behaviour step
  let id ← step.text "id"
  let config := (← Script.book).config
  match ← mountIn behaviour Book.document Book.registry config mounting model controller with
  | .error error => return reportRenderError error
  | .ok render =>
    if let some node ← rootOf render then Script.giveName id node
    let former := (← Script.book).renders.lookup id
    Script.modifyBook fun book => { book with renders := Pairs.set book.renders id render }
    if let some former := former then Script.modifyWorld (·.unmount former)
    return .null

/-- Take a render down; the answer is whether it is still there. -/
def teardown : Script Datum := do
  let render ← step.named "id" "render" Book.renders
  Script.modifyWorld (·.unmount render)
  return .bool ((← Script.world).isMounted render)

/-- Let go of a render, which takes it down; the answer is whether it was kept. -/
def drop : Script Datum := do
  let id ← step.text "id"
  match (← Script.book).renders.lookup id with
  | none => return .bool false
  | some render =>
    Script.modifyBook fun book => { book with renders := Pairs.erase book.renders id }
    Script.modifyWorld (·.unmount render)
    return .bool true

/-- The settings of the session. -/
def config : Script Datum := do
  let config := (← Script.book).config
  return .list [
    .natural config.maxViewDepth, .bool config.inheritsController,
    reportText config.anchorLabel]

/-- The script for a step of a given name, if it is one of these. -/
def script? (name : String) : Option (Script Datum) :=
  match name with
  | "render.config" => some config
  | "render.view" => some (registerView step Book.registry)
  | "render.template" => some (keepTemplate step)
  | "render.register_template" => some (registerTemplate step)
  | "render.lookup_view" => some (lookUpView step)
  | "render.validate" => some (validate step)
  | "render.controller" => some (makeController step)
  | "render.drop_controller" => some (dropController step)
  | "render.view_controller" => some (registerFactory step)
  | "render.lookup_controller" => some (lookUpController behaviour step)
  | "render.links" => some (links behaviour step)
  | "render.handle" => some (handle behaviour step)
  | "render.resolve" => some (resolve step)
  | "render.mount" => some (mount behaviour step)
  | "render.teardown" => some (teardown step)
  | "render.drop" => some (drop step)
  | _ => none

end LiveTemplate.Session.ViewSteps
