import LiveTemplate.Proofs.Upkeep.Runs

/-!
# Events during runs

Listeners and controller actions take part in runs like callbacks.  When an event is dispatched, at
the top or by client code in the middle of something else, the calls that listeners and actions make
come one after the other, and that is a run.
-/

namespace LiveTemplate.World

variable {Client : Type} {rule : Rule Client} {behaviour : Behaviour Client} {pending : Notices}
  {world after : World Client}

/-- What an action does when a controller handles it is a run, if a controller knows it. -/
def Handling (rule : Rule Client) (behaviour : Behaviour Client) (pending : Notices)
    (id : ControllerId) (action : String) (event : Event) (model : ModelId) (world : World Client) :
    Prop :=
  ∀ chain hook, world.handler? behaviour action (world.controllers.next + 1) id = some (chain, hook) →
    Run rule pending { world with engaged := id :: chain ++ world.engaged }
      (behaviour.act hook event model { world with engaged := id :: chain ++ world.engaged }).2

/-- What a listener does is a run. -/
def Hearing (rule : Rule Client) (behaviour : Behaviour Client) (pending : Notices) (event : Event)
    (world : World Client) : Listener → Prop
  | .client hook => Run rule pending world (behaviour.listen hook event world).2
  | .action render owner slot =>
    ∀ scope action prevents, world.eventAttribute? render owner slot = some (scope, action, prevents) →
      Handling rule behaviour pending scope.controller action
        (if prevents then event.prevent else event) scope.model world

/-- What listeners do, one after the other, are runs. -/
def HearingAll (rule : Rule Client) (behaviour : Behaviour Client) (pending : Notices) :
    List (Listener × Option ControllerId) → Event → World Client → Prop
  | [], _, _ => True
  | (listener, controller) :: later, event, world =>
    let kept := controller.toList ++ later.filterMap Prod.snd
    let result := world.engaging kept fun world => world.hear behaviour listener event
    Hearing rule behaviour pending event { world with engaged := kept ++ world.engaged } listener ∧
      HearingAll rule behaviour pending later result.1 result.2

/-- What listeners do while an event travels are runs. -/
def Travelling (rule : Rule Client) (behaviour : Behaviour Client) (pending : Notices)
    (document : DocumentId) : List NodeId → Event → World Client → Prop
  | [], _, _ => True
  | node :: above, event, world =>
    match (world.document document).data? node with
    | none => Travelling rule behaviour pending document above event world
    | some data =>
      let listeners := (data.listenersFor event.name).map fun listener =>
        (listener, world.controllerOf? listener)
      let result := hearAll behaviour listeners { event with current := node } world
      HearingAll rule behaviour pending listeners { event with current := node } world ∧
        (result.1.stopped = false →
          Travelling rule behaviour pending document above result.1 result.2)

/-- It does not matter who is at work. -/
theorem engaging_run {Result : Type} {act : World Client → Result × World Client}
    {controllers : List ControllerId}
    (acts : Run rule pending { world with engaged := controllers ++ world.engaged }
      (act { world with engaged := controllers ++ world.engaged }).2) :
    Run rule pending world (world.engaging controllers act).2 := by
  have engaged : Step rule pending world { world with engaged := controllers ++ world.engaged } :=
    .other rfl rfl rfl rfl rfl
  have done : Step rule pending (act { world with engaged := controllers ++ world.engaged }).2
      (world.engaging controllers act).2 := .other rfl rfl rfl rfl rfl
  exact .next engaged (acts.trans (.next done (.done pending _)))

theorem Handling.run {id : ControllerId} {action : String} {event : Event} {model : ModelId}
    (handling : Handling rule behaviour pending id action event model world) :
    Run rule pending world (world.handle behaviour id action event model).2 := by
  unfold World.handle
  split
  · exact .done pending world
  · rename_i chain hook found
    exact engaging_run (handling chain hook found)

theorem Hearing.run {event : Event} {listener : Listener}
    (hearing : Hearing rule behaviour pending event world listener) :
    Run rule pending world (world.hear behaviour listener event).2 := by
  cases listener with
  | client hook => exact hearing
  | action render owner slot =>
      unfold World.hear
      dsimp only
      split
      · exact .done pending world
      · rename_i scope action prevents found
        exact (hearing scope action prevents found).run

theorem HearingAll.run {listeners : List (Listener × Option ControllerId)} {event : Event}
    (hearing : HearingAll rule behaviour pending listeners event world) :
    Run rule pending world (hearAll behaviour listeners event world).2 := by
  induction listeners generalizing event world with
  | nil => exact .done pending world
  | cons first later induction => exact (engaging_run hearing.1.run).trans (induction hearing.2)

theorem Travelling.run {document : DocumentId} {path : List NodeId} {event : Event}
    (travelling : Travelling rule behaviour pending document path event world) :
    Run rule pending world (travel behaviour document path event world).2 := by
  induction path generalizing event world with
  | nil => exact .done pending world
  | cons node above induction =>
      unfold Travelling at travelling
      unfold World.travel
      split
      · rename_i absent
        rw [absent] at travelling
        exact induction travelling
      · rename_i data found
        rw [found] at travelling
        obtain ⟨hearing, further⟩ := travelling
        dsimp only
        split
        · exact hearing.run
        · rename_i goes
          exact hearing.run.trans (induction (further (by simpa using goes)))

/-- Dispatching an event is a run. -/
theorem dispatch_run {document : DocumentId} {event : Event}
    (travelling : Travelling rule behaviour pending document
      ((world.document document).bubblePath event.target) event world) :
    Run rule pending world (world.dispatch behaviour document event).2 :=
  travelling.run

end LiveTemplate.World
