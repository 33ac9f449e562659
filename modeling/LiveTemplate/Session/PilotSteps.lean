import LiveTemplate.Session.ViewSteps

/-!
# Steps on the pilot
-/

namespace LiveTemplate.Session.PilotSteps

variable (behaviour : Behaviour Book) (step : Step)

/-- The pilot. -/
def desk : Script PilotDesk := do
  Script.expect "pilot" (← Script.book).pilot

/-- Change the pilot. -/
def modifyDesk (change : PilotDesk → PilotDesk) : Script Unit :=
  Script.modifyBook fun book => { book with pilot := book.pilot.map change }

/-- The name of a node of the pilot's document. -/
def reportNode (node : NodeId) : Script Datum := do
  let (name, nodes) := (← desk).nodes.nameOf node
  modifyDesk fun desk => { desk with nodes }
  return .text name

/-- The name of a node, if there is one. -/
def reportNode? : Option NodeId → Script Datum
  | some node => reportNode node
  | none => return .null

/-- The pilot's document. -/
def document : Script Document := do
  return (← Script.world).document (← desk).pilot.document

/-- A node of the pilot's document: a name, or the position among the elements with a tag. -/
def node : Script NodeId := do
  let desk ← desk
  match ← step.datum "node" with
  | .text name => Script.expect "node" (desk.nodes.nodes.lookup name)
  | .record query =>
    let query : Step := .record query
    let tag ← query.text "tag"
    let nth ←
      match query.present? "nth" with
      | none => pure 0
      | some nth => Script.expect "nth" nth.position?
    Script.expect "nth" ((desk.pilot.findAll (← Script.world) tag)[nth]?)
  | _ => Script.reject "node"

/-- Start with a new pilot; what the old one had mounted is taken down. -/
def start : Script Datum := do
  let book ← Script.book
  let config := if step.flag "default" then {} else book.config
  let former := book.pilot
  let pilot ← Script.act (·.newPilot config)
  match former with
  | none => Script.modifyBook fun book => { book with pilot := some { pilot } }
  | some former =>
    modifyDesk fun desk => { desk with pilot }
    Script.modifyWorld (·.unmountAll former.pilot)
  return .null

/-- Mount something; the answer is its root. -/
def mount : Script Datum := do
  let pilot := (← desk).pilot
  let model ← step.model "model"
  let mounting ← ViewSteps.readMounting step
  let controller ← ViewSteps.controllerOrInert behaviour step
  match ← ViewSteps.mountIn behaviour pilot.document pilot.registry pilot.config mounting model
      controller with
  | .error error => return reportRenderError error
  | .ok render =>
    let root ← ViewSteps.rootOf render
    modifyDesk fun desk =>
      { desk with
        pilot := { desk.pilot with mounted := desk.pilot.mounted ++ [render] }
        roots := desk.roots ++ root.toList }
    reportNode? root

/-- Take everything down. -/
def teardown : Script Datum := do
  let pilot := (← desk).pilot
  modifyDesk fun desk => { desk with pilot := { desk.pilot with mounted := [] } }
  Script.modifyWorld (·.unmountAll pilot)
  return .null

/-- Register a view. -/
def registerView : Script Datum := do
  ViewSteps.registerView step (← desk).pilot.registry

/-- Register a factory that gives the same controller each time. -/
def registerFactory : Script Datum := do
  let registry := (← desk).pilot.registry
  let controller ← step.controller behaviour "shared"
  ViewSteps.addFactory registry (← step.text "view") (.supplier controller)

/-- Find elements by tag: the first, and all of them. -/
def find : Script Datum := do
  let pilot := (← desk).pilot
  let tag ← step.text "tag"
  let world ← Script.world
  let first ← reportNode? (pilot.find? world tag)
  let all ← (pilot.findAll world tag).mapM reportNode
  return .list [first, .list all]

/-- Find a node by an attribute. -/
def findByAttribute : Script Datum := do
  let pilot := (← desk).pilot
  let name ← step.text "name"
  let value ← step.text "value"
  reportNode? (pilot.findByAttribute? (← Script.world) name value)

/-- Fire an event; the answer is the event after its way. -/
def fire (name : String) (node : NodeId) : Script Datum := do
  let document := (← desk).pilot.document
  let event ← Script.act (·.dispatch behaviour document (Event.fired name node))
  let target ← reportNode event.target
  let current ← reportNode event.current
  return reportEventWith (← Script.book) event target current

/-- Click the first element with a tag. -/
def clickTag : Script Datum := do
  let pilot := (← desk).pilot
  let tag ← step.text "tag"
  match pilot.find? (← Script.world) tag with
  | some node => fire behaviour "click" node
  | none => return .null

/-- The script for a step of a given name, if it is one of these. -/
def script? (name : String) : Option (Script Datum) :=
  match name with
  | "pilot.new" => some (start step)
  | "pilot.mount" => some (mount behaviour step)
  | "pilot.teardown" => some teardown
  | "pilot.view" => some (registerView step)
  | "pilot.view_controller" => some (registerFactory behaviour step)
  | "pilot.find" => some (find step)
  | "pilot.find_by_attribute" => some (findByAttribute step)
  | "pilot.text" => some (do return .text ((← document).textContent (← node step)))
  | "pilot.html" => some (do return .text ((← document).html (← node step)))
  | "pilot.click" => some (do fire behaviour "click" (← node step))
  | "pilot.fire" => some (do
      let target ← node step
      fire behaviour (← step.text "event") target)
  | "pilot.click_tag" => some (clickTag behaviour step)
  | _ => none

end LiveTemplate.Session.PilotSteps
