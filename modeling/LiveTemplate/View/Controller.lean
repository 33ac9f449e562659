import LiveTemplate.Identity
import LiveTemplate.Store

/-!
# Controllers

A controller receives the actions of event attributes.  It runs the actions that it knows; others go
to the controller of the enclosing view that it was attached with, as long as that one is in use.
-/

namespace LiveTemplate

/-- What a controller is told when its view has been shown. -/
structure ControllerLinks where
  model : ModelId
  /-- The root element of the view. -/
  view : NodeId
  /-- The controller of the enclosing view. -/
  parent : Option ControllerId
deriving DecidableEq, Repr

/-- A controller: one that knows nothing, or one with named actions. -/
inductive Controller where
  | inert
  | actions (table : List (String × Hook)) (links : Option ControllerLinks)
deriving Repr

/-- All controllers. -/
abbrev Controllers : Type := Store Controller

namespace Controller

/-- Keep the links of the latest showing. -/
def attach (links : ControllerLinks) : Controller → Controller
  | .inert => .inert
  | .actions table _ => .actions table (some links)

/-- The behaviour of a named action. -/
def action? (controller : Controller) (name : String) : Option Hook :=
  match controller with
  | .inert => none
  | .actions table _ => table.lookup name

/-- The links of the latest showing. -/
def links? : Controller → Option ControllerLinks
  | .inert => none
  | .actions _ links => links

/-- The controller that unknown actions are handed to. -/
def parent? (controller : Controller) : Option ControllerId :=
  controller.links?.bind (·.parent)

end Controller

namespace Controllers

/-- A controller by number. -/
def get (controllers : Controllers) (id : ControllerId) : Controller :=
  (controllers.get? id.index).getD .inert

/-- Add a controller. -/
def create (controllers : Controllers) (controller : Controller) : ControllerId × Controllers :=
  (⟨controllers.next⟩, controllers.add controller)

/-- Tell a controller that its view has been shown. -/
def attach (controllers : Controllers) (id : ControllerId) (links : ControllerLinks) :
    Controllers :=
  controllers.modify id.index (·.attach links)

end Controllers

end LiveTemplate
