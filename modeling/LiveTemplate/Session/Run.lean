import LiveTemplate.Session.Client

/-!
# Running sessions

A session answers every step with its result, with what was noted while it was carried out, and with
the state in which it left everything.
-/

namespace LiveTemplate.Session

/-- The HTML of a render, empty once it is gone. -/
def renderHtml (world : World Book) (id : RenderId) : String :=
  match world.render? id with
  | some render => (world.document render.document).html render.node
  | none => ""

/-- The state of a render. -/
def renderState (world : World Book) (id : RenderId) : Datum :=
  .record [
    ("live", .bool (world.isMounted id)), ("html", .text (renderHtml world id)),
    ("subs", .natural (world.subscriptionCount id)),
    ("bound", .natural (world.boundCount id))]

/-- The state of a collection: the numbers of its items and of its subscribers. -/
def collectionState (world : World Book) (id : CollectionId) : Datum :=
  let collection := world.data.collection id
  .list [.natural collection.items.length, .natural collection.channel.size]

/-- The state of a pilot: the size of its document, its registrations, and everything it has ever
mounted. -/
def pilotState (world : World Book) (desk : PilotDesk) : Datum :=
  let document := world.document desk.pilot.document
  .record [
    ("dom", .natural document.size), ("subs", .natural (desk.pilot.subscriptionCount world)),
    ("html", .list (desk.roots.map fun root => .text (document.html root)))]

/-- An entry for named objects, absent if there are none. -/
def stateEntry {Item : Type} (name : String) (items : List (String × Item))
    (state : Item → Datum) : List (String × Datum) :=
  if items.isEmpty then []
  else [(name, .record (items.map fun item => (item.1, state item.2)))]

/-- The state of a session. -/
def state (world : World Book) : Datum :=
  let book := world.client
  .record (
    [("dom", .natural (world.document Book.document).size)] ++
    stateEntry "renders" book.renders (renderState world) ++
    stateEntry "models" book.models
      (fun model => .natural (world.data.model model).totalSubscribers) ++
    stateEntry "colls" book.collections (collectionState world) ++
    match book.pilot with
    | some desk => [("pilot", pilotState world desk)]
    | none => [])

/-- Carry out one step of a session and answer it. -/
def answerStep (world : World Book) (step : Step) : Datum × World Book :=
  let world := { world with client := { world.client with log := [] } }
  let (result, turn) := perform behaviour step { world }
  (.record [
    ("r", result), ("log", .list turn.world.client.log.reverse), ("state", state turn.world)],
    turn.world)

/-- Carry out the steps of a session and answer each. -/
def answerSteps : World Book → List Step → List Datum
  | _, [] => []
  | world, step :: later =>
    let (answer, world) := answerStep world step
    answer :: answerSteps world later

/-- The settings that are given, each with its usual value if it is not. -/
def readConfig (config : Datum) : RenderConfig :=
  { maxViewDepth := ((config.entry? "max_view_depth").bind Datum.position?).getD 32
    inheritsController := ((config.entry? "inherit_controller").bind Datum.bool?).getD true
    anchorLabel := (config.entry? "anchor_label").bind Datum.text? }

/-- Run a session. -/
def runSession (config : RenderConfig) (steps : List Step) : Datum :=
  .list (answerSteps (openingWorld config) steps)

/-- Answer by a script in a world of its own. -/
def answerAlone (script : Script Datum) : Datum :=
  let turn : Turn := { world := openingWorld {} }
  match (script.run.run turn : Except String Datum × Turn).1 with
  | .ok answer => answer
  | .error what => badInput what

/-- Mount a source for a new model and take it down again.  The answer is the HTML and the number of
registrations left on the model. -/
def renderOnce (request : Step) : Script Datum := do
  let schema ← request.schema "fields"
  let source ← request.text "source"
  let model ← Script.actOnData (·.addModel (.ofSchema schema))
  let controller ← Script.act (·.createController .inert)
  let mounted ← Script.act
    (·.mountSource behaviour Book.document Book.registry {} source model controller)
  match mounted with
  | .error error => return reportRenderError error
  | .ok render =>
    let html := renderHtml (← Script.world) render
    Script.modifyWorld (·.unmount render)
    let left := ((← Script.data).model model).totalSubscribers
    return .record [("html", .text html), ("subs", .natural left)]

end LiveTemplate.Session
