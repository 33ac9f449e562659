import LiveTemplate.Document.Html
import LiveTemplate.Document.Query
import LiveTemplate.Session.Report
import LiveTemplate.View.Dispatch

/-!
# Steps on the document
-/

namespace LiveTemplate.Session.DocumentSteps

variable (behaviour : Behaviour Book) (step : Step)

/-- The data of a new node: a text, an anchor or an element. -/
def newData : Script NodeData := do
  match ← step.text? "kind" with
  | none => return .element (← step.text "tag")
  | some "text" => return .text (← step.text "text")
  | some "anchor" => return .anchor (← step.text? "label")
  | some _ => Script.reject "kind"

/-- Attributes in the order in which they are set. -/
def newAttributes (data : NodeData) : List Datum → Script NodeData
  | [] => return data
  | .list [.text name, .text value] :: later =>
    newAttributes (data.setAttribute name (some value)) later
  | _ :: _ => Script.reject "attrs"

/-- The data of a new node with its attributes. -/
def newDataWithAttributes : Script NodeData := do
  let data ← newData step
  newAttributes data ((← step.list? "attrs").getD [])

/-- Create a node without a parent. -/
def create (data : NodeData) : Script Datum := do
  let name ← step.text "as"
  let node ← Script.actOnDocument (·.insert data)
  Script.giveName name node
  return .null

/-- Create a node under another. -/
def createUnder : Script Datum := do
  let parent ← step.node "parent"
  let data ← newDataWithAttributes step
  let name ← step.text "as"
  let node ← Script.actOnDocument (·.insertChild parent data)
  Script.giveName name node
  return .null

/-- Move a node to the end of another's children. -/
def append : Script Datum := do
  let parent ← step.node "parent"
  let node ← step.node "node"
  Script.modifyDocument (·.appendChild parent node)
  return .null

/-- Move a node to the place after another. -/
def insertAfter : Script Datum := do
  let reference ← step.node "ref"
  let node ← step.node "node"
  Script.modifyDocument (·.insertAfter reference node)
  return .null

/-- Take a node out of its parent's children. -/
def detach : Script Datum := do
  let node ← step.node "node"
  Script.modifyDocument (·.detach node)
  return .null

/-- Remove a node; the answer is what it held. -/
def remove : Script Datum := do
  let node ← step.node "node"
  let data ← Script.actOnDocument (·.remove node)
  return (data.map reportData).getD .null

/-- Set or remove a named text of a node. -/
def setNamed (set : NodeData → String → Option String → NodeData) : Script Datum := do
  let node ← step.node "node"
  let name ← step.text "name"
  let value ← step.optionalText "value"
  Script.modifyDocument (·.modify node fun data => set data name value)
  return .null

/-- Set the content of a text. -/
def setText : Script Datum := do
  let node ← step.node "node"
  let content ← step.text "text"
  Script.modifyDocument (·.modify node (·.setText content))
  return .null

/-- Add a listener. -/
def listen : Script Datum := do
  let node ← step.node "node"
  let event ← step.text "event"
  let text ← step.datum "text"
  let hook ← Script.remember (← step.reaction (.listener text))
  Script.modifyDocument (·.modify node (·.listen event (.client hook)))
  return .null

/-- Everything about a node. -/
def info : Script Datum := do
  let node ← step.node "node"
  let document ← Script.document
  match document.data? node with
  | none => return .null
  | some data =>
    let parent ← Script.reportNode? (document.parent? node)
    let children ← Script.reportNodes (document.children node)
    let ancestors ← Script.reportNodes (document.ancestors node)
    return .record [
      ("data", reportData data), ("tag", reportText data.tag?), ("anchor", .bool data.isAnchor),
      ("parent", parent), ("children", children), ("ancestors", ancestors),
      ("listeners", .natural data.listeners.length)]

/-- A named text of a node. -/
def getNamed (get : NodeData → String → Option String) : Script Datum := do
  let node ← step.node "node"
  let name ← step.text "name"
  return reportText (((← Script.document).data? node).bind (get · name))

/-- Whether a node has a word in its class. -/
def hasClass : Script Datum := do
  let node ← step.node "node"
  let word ← step.text "class"
  return (((← Script.document).data? node).map fun data => .bool (data.hasClass word)).getD .null

/-- Ask the document something about a node. -/
def ask (answer : Document → NodeId → Script Datum) : Script Datum := do
  let node ← step.node "node"
  answer (← Script.document) node

/-- The number of listeners for an event. -/
def countListeners : Script Datum := do
  let node ← step.node "node"
  let event ← step.text "event"
  return .natural
    ((((← Script.document).data? node).map (·.listenersFor event)).getD []).length

/-- Nodes with their data. -/
def walk (document : Document) (node : NodeId) : Script Datum := do
  let entries ← (document.nodes.subtree node).entries.mapM fun (found, data) =>
    return .list [← Script.reportNode found, reportData data]
  return .list entries

/-- Find nodes by tag, class, kind or attribute. -/
def query : Script Datum := do
  let node ← step.node "node"
  let document ← Script.document
  if (step.present? "tag").isSome then
    let tag ← step.text "tag"
    let first ← Script.reportNode? (document.queryByTag node tag)
    return .list [first, ← Script.reportNodes (document.queryAllByTag node tag)]
  else if (step.present? "class").isSome then
    let word ← step.text "class"
    Script.reportNodes (document.queryAll node (·.hasClass word))
  else if (step.present? "kind").isSome then
    let kind ← step.text "kind"
    Script.reportNodes (document.queryAll node fun data =>
      if kind == "anchor" then data.isAnchor else data.tag?.isNone)
  else
    match ← step.list "attr" with
    | [.text name, .text value] =>
      Script.reportNode? (document.queryByAttribute node name value)
    | _ => Script.reject "attr"

/-- Fire an event; the answer is the event after its way. -/
def dispatch : Script Datum := do
  let node ← step.node "node"
  let name ← step.text "event"
  let detail ←
    if (step.present? "detail").isSome then step.value "detail" else pure .null
  let event ← Script.act (·.dispatch behaviour Book.document { Event.fired name node with detail })
  reportEvent event

/-- The script for a step of a given name, if it is one of these. -/
def script? (name : String) : Option (Script Datum) :=
  match name with
  | "dom.create" => some (do create step (← newData step))
  | "dom.insert" => some (do create step (← newDataWithAttributes step))
  | "dom.insert_child" => some (createUnder step)
  | "dom.append" => some (append step)
  | "dom.insert_after" => some (insertAfter step)
  | "dom.detach" => some (detach step)
  | "dom.remove" => some (remove step)
  | "dom.set_attr" => some (setNamed step NodeData.setAttribute)
  | "dom.set_style" => some (setNamed step NodeData.setStyle)
  | "dom.set_text" => some (setText step)
  | "dom.listen" => some (listen step)
  | "dom.info" => some (info step)
  | "dom.attr" => some (getNamed step NodeData.attribute?)
  | "dom.style" => some (getNamed step NodeData.style?)
  | "dom.has_class" => some (hasClass step)
  | "dom.contains" => some (ask step fun document node =>
      return .bool (document.contains node))
  | "dom.len" => some (do
      let size := (← Script.document).size
      return .list [.natural size, .bool (size == 0)])
  | "dom.parent" => some (ask step fun document node =>
      Script.reportNode? (document.parent? node))
  | "dom.children" => some (ask step fun document node =>
      Script.reportNodes (document.children node))
  | "dom.ancestors" => some (ask step fun document node =>
      Script.reportNodes (document.ancestors node))
  | "dom.bubble_path" => some (ask step fun document node =>
      Script.reportNodes (document.bubblePath node))
  | "dom.text_content" => some (ask step fun document node =>
      return .text (document.textContent node))
  | "dom.html" => some (ask step fun document node => return .text (document.html node))
  | "dom.listeners" => some (countListeners step)
  | "dom.walk" => some (ask step walk)
  | "dom.query" => some (query step)
  | "dom.dispatch" => some (dispatch behaviour step)
  | _ => none

end LiveTemplate.Session.DocumentSteps
