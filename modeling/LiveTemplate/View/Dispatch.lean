import LiveTemplate.View.World

/-!
# Events on their way

An event travels from its target to the nodes above it, as they stood when it was fired.  At each
node that is still there, the listeners registered at that moment run, all of them; then the event
goes on unless it was stopped.

An event attribute hands the event to the controller of its element, which runs the action or hands
it to the controller of the enclosing view.  Controllers stay in use while one of their actions runs
or while the event still has to reach one of their elements at the current node.
-/

namespace LiveTemplate.World

variable {Client : Type}

/-- The controllers from the given one to the first that knows an action, and what that one does.
The way leads to controllers of enclosing views, as long as they are in use; `length` bounds it. -/
def handler? (behaviour : Behaviour Client) (world : World Client) (action : String) :
    Nat → ControllerId → Option (List ControllerId × Hook)
  | 0, _ => none
  | length + 1, id =>
    let controller := world.controllers.get id
    match controller.action? action with
    | some hook => some ([id], hook)
    | none =>
      match controller.parent? with
      | some parent =>
        if world.inUse behaviour parent then
          (world.handler? behaviour action length parent).map fun (chain, hook) =>
            (id :: chain, hook)
        else none
      | none => none

/-- Hold on to controllers while something is done. -/
def engaging {Result : Type} (world : World Client) (controllers : List ControllerId)
    (act : World Client → Result × World Client) : Result × World Client :=
  let (result, after) := act { world with engaged := controllers ++ world.engaged }
  (result, { after with engaged := world.engaged })

/-- Let a controller handle an action.  Whether any controller knew it is returned. -/
def handle (behaviour : Behaviour Client) (world : World Client) (id : ControllerId)
    (action : String) (event : Event) (model : ModelId) : (Bool × Event) × World Client :=
  match world.handler? behaviour action (world.controllers.next + 1) id with
  | none => ((false, event), world)
  | some (chain, hook) =>
    world.engaging (id :: chain) fun world =>
      let (event, world) := behaviour.act hook event model world
      ((true, event), world)

/-- The scope, the action and the prevention of the default action that an event attribute of a live
element stands for. -/
def eventAttribute? (world : World Client) (render : RenderId) (owner : BoundId) (slot : Nat) :
    Option (Scope × String × Bool) :=
  match world.bound? render owner with
  | some ⟨.element attributes, _, _, scope⟩ =>
    match attributes[slot]? with
    | some (.event _ action prevents) => some (scope, action, prevents)
    | _ => none
  | _ => none

/-- The controller that a listener holds on to. -/
def controllerOf? (world : World Client) (listener : Listener) : Option ControllerId :=
  match listener with
  | .client _ => none
  | .action render owner slot => (world.eventAttribute? render owner slot).map (·.1.controller)

/-- Run one listener. -/
def hear (behaviour : Behaviour Client) (world : World Client) (listener : Listener)
    (event : Event) : Event × World Client :=
  match listener with
  | .client hook => behaviour.listen hook event world
  | .action render owner slot =>
    match world.eventAttribute? render owner slot with
    | none => (event, world)
    | some (scope, action, prevents) =>
      let event := if prevents then event.prevent else event
      let ((_, event), world) := world.handle behaviour scope.controller action event scope.model
      (event, world)

/-- Run listeners one after the other, each given with the controller that it holds on to. -/
def hearAll (behaviour : Behaviour Client) :
    List (Listener × Option ControllerId) → Event → World Client → Event × World Client
  | [], event, world => (event, world)
  | (listener, controller) :: later, event, world =>
    let (event, world) := world.engaging (controller.toList ++ later.filterMap Prod.snd)
      fun world => world.hear behaviour listener event
    hearAll behaviour later event world

/-- Let an event travel along nodes. -/
def travel (behaviour : Behaviour Client) (document : DocumentId) :
    List NodeId → Event → World Client → Event × World Client
  | [], event, world => (event, world)
  | node :: above, event, world =>
    match (world.document document).data? node with
    | none => travel behaviour document above event world
    | some data =>
      let listeners := (data.listenersFor event.name).map fun listener =>
        (listener, world.controllerOf? listener)
      let (event, world) := hearAll behaviour listeners { event with current := node } world
      if event.stopped then (event, world) else travel behaviour document above event world

/-- Fire an event in a document. -/
def dispatch (behaviour : Behaviour Client) (world : World Client) (document : DocumentId)
    (event : Event) : Event × World Client :=
  travel behaviour document ((world.document document).bubblePath event.target) event world

end LiveTemplate.World
