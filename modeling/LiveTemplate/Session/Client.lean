import LiveTemplate.Session.ArenaSteps
import LiveTemplate.Session.DocumentSteps
import LiveTemplate.Session.PilotSteps
import LiveTemplate.Session.ReactiveSteps
import LiveTemplate.Session.ViewSteps

/-!
# The session as a client

The session's callbacks, listeners, actions and factories note what they were told.  Then they run
their effects, which may set off further ones.  Effects are nested only so deep: the behaviour of
one level runs effects with the behaviour of the level below, and at the lowest level none are run.
-/

namespace LiveTemplate.Session

/-- Carry out a step with a behaviour.  The answer to a step that cannot be carried out names what
is wrong with it. -/
def perform (behaviour : Behaviour Book) (step : Step) (turn : Turn) : Datum × Turn :=
  let script : Script Datum := do
    let name ← step.text "do"
    match
      (ReactiveSteps.script? behaviour step name).or <|
      (DocumentSteps.script? behaviour step name).or <|
      (ViewSteps.script? behaviour step name).or <|
      (PilotSteps.script? behaviour step name).or <|
      ArenaSteps.script? step name with
    | some script => script
    | none => Script.reject name
  match (script.run.run turn : Except String Datum × Turn) with
  | (.ok answer, turn) => (answer, turn)
  | (.error what, turn) => (badInput what, turn)

/-- Note something in the log. -/
def Turn.note (turn : Turn) (entry : Datum) : Turn :=
  { turn with world := { turn.world with client := turn.world.client.note entry } }

/-- Carry out effects, noting the answer to each. -/
def performAll (behaviour : Behaviour Book) (effects : List Step) (turn : Turn) : Turn :=
  effects.foldl (fun turn step =>
    let (answer, turn) := perform behaviour step turn
    turn.note (.list [(step.entry? "do").getD .null, answer])) turn

/-- A turn with one of the number of times used up that a piece of behaviour has effects. -/
def Turn.useUp (turn : Turn) (hook : Hook) : Turn :=
  let book := turn.world.client
  let reactions := book.reactions.modify hook.index fun reaction =>
    { reaction with remaining := reaction.remaining.map (· - 1) }
  { turn with world := { turn.world with client := { book with reactions } } }

/-- Run the effects of a piece of behaviour.  Without a behaviour to run them with, this is only
noted. -/
def runEffects (inner : Option (Behaviour Book)) (hook : Hook) (turn : Turn) : Turn :=
  match turn.world.client.reactions.get? hook.index with
  | none => turn
  | some reaction =>
    if reaction.remaining = some 0 then turn
    else
      let turn := turn.useUp hook
      match inner with
      | none => turn.note (.text "too deep")
      | some behaviour => performAll behaviour reaction.effects turn

/-- What a piece of behaviour belongs to. -/
def roleOf (book : Book) (hook : Hook) : Option Role :=
  (book.reactions.get? hook.index).map Reaction.role

/-- Note what a subscriber was told and run its effects. -/
def hearNews (inner : Option (Behaviour Book)) (hook : Hook) (news : Book → Datum)
    (world : World Book) : World Book :=
  match roleOf world.client hook with
  | some (.subscriber name) =>
    let entry := .record [("sub", .text name), ("got", news world.client)]
    (runEffects inner hook ({ world : Turn }.note entry)).world
  | _ => world

/-- Note an event that a listener heard and run its effects. -/
def hearEvent (inner : Option (Behaviour Book)) (hook : Hook) (event : Event)
    (world : World Book) : Event × World Book :=
  match roleOf world.client hook with
  | some (.listener text) =>
    let noting : Script Unit := do
      Script.note (.record [("listener", text), ("event", ← reportEvent event)])
    let (_, turn) := (noting.run.run { world, event := some event } : Except String Unit × Turn)
    let turn := runEffects inner hook turn
    (turn.event.getD event, turn.world)
  | _ => (event, world)

/-- Note an action with its event and its model and run its effects. -/
def runAction (inner : Option (Behaviour Book)) (hook : Hook) (event : Event) (model : ModelId)
    (world : World Book) : Event × World Book :=
  match roleOf world.client hook with
  | some (.action name controller) =>
    let book := world.client
    let entry := .record [
      ("action", .text name), ("by", .text controller), ("model", reportModel book model),
      ("event", .text event.name), ("detail", reportValue book event.detail)]
    let turn : Turn := { world, event := some event, model := some model }
    let turn := runEffects inner hook (turn.note entry)
    (turn.event.getD event, turn.world)
  | _ => (event, world)

/-- Make a controller for a view, whose name tells how many its factories have made. -/
def makeController (view : String) (actions : List (String × List Datum))
    (controllers : Controllers) (book : Book) : String × ControllerId × Controllers × Book :=
  let count := (book.makings.lookup view).getD 0 + 1
  let name := view ++ "#" ++ toString count
  let (table, book) := actions.foldl (fun (table, book) (action, effects) =>
    let (hook, book) := book.remember { role := .action action name, effects }
    (table ++ [(action, hook)], book)) (([] : List (String × Hook)), book)
  let (id, controllers) := controllers.create (.actions table none)
  (name, id, controllers,
    { book with
      makings := Pairs.set book.makings view count
      made := Pairs.set book.made name id })

/-- Call a factory.  Unless it only supplies a controller, this is noted.  In place of a controller
that is not there, one that knows nothing is given. -/
def callFactory (inUse : ControllerId → Bool) (hook : Hook) (controllers : Controllers)
    (book : Book) : ControllerId × Controllers × Book :=
  let noting (view : String) (name : Datum) (book : Book) : Book :=
    book.note (.record [("factory", .text view), ("id", name)])
  match roleOf book hook with
  | some (.supplier id) => (id, controllers, book)
  | some (.factory view (.named name)) =>
    let (id, controllers) :=
      match book.controller? inUse name with
      | some id => (id, controllers)
      | none => controllers.create .inert
    (id, controllers, noting view (.text name) book)
  | some (.factory view (.fresh actions)) =>
    let (name, id, controllers, book) := makeController view actions controllers book
    (id, controllers, noting view (.text name) book)
  | some (.factory view .inert) =>
    let (id, controllers) := controllers.create .inert
    (id, controllers, noting view .null book)
  | _ =>
    let (id, controllers) := controllers.create .inert
    (id, controllers, book)

/-- The behaviour whose effects are run with another behaviour, or not at all. -/
def behaviourOver (inner : Option (Behaviour Book)) : Behaviour Book where
  value hook value := hearNews inner hook fun book => reportValue book value
  change hook change := hearNews inner hook fun book => reportChange book change
  listen := hearEvent inner
  act := runAction inner
  build := callFactory
  keeps := keeps

/-- The behaviour of a session in which effects may be nested to a given depth. -/
def behaviourOfDepth : Nat → Behaviour Book
  | 0 => behaviourOver none
  | depth + 1 => behaviourOver (some (behaviourOfDepth depth))

/-- How deep effects may be nested. -/
def effectDepth : Nat := 6

/-- The behaviour with which the steps of a session are carried out. -/
def behaviour : Behaviour Book :=
  behaviourOfDepth effectDepth

end LiveTemplate.Session
