import LiveTemplate.Session.Book

/-!
# Scripts

A step of a session is carried out by a script.  It works on the world and may concern an event and
a model, if it is an effect of a listener or of an action.  A script that cannot be carried out
names what is wrong with the step, and keeps what it has done so far.
-/

namespace LiveTemplate.Session

/-- Where a step is carried out. -/
structure Turn where
  world : World Book
  /-- The event at hand. -/
  event : Option Event := none
  /-- The model that an action was run for. -/
  model : Option ModelId := none

/-- What is done in a turn: it gives a result or names what is wrong. -/
abbrev Script : Type → Type := ExceptT String (StateM Turn)

namespace Script

/-- Give up; `what` is wrong. -/
def reject {Result : Type} (what : String) : Script Result :=
  throw what

/-- What was found, or else `what` is wrong. -/
def expect {Result : Type} (what : String) : Option Result → Script Result
  | some result => return result
  | none => reject what

/-- The world. -/
def world : Script (World Book) :=
  return (← get).world

/-- Change the world. -/
def modifyWorld (change : World Book → World Book) : Script Unit :=
  modify fun turn => { turn with world := change turn.world }

/-- Do something that changes the world and has a result. -/
def act {Result : Type} (change : World Book → Result × World Book) : Script Result :=
  modifyGet fun turn =>
    let (result, world) := change turn.world
    (result, { turn with world })

/-- The session's own state. -/
def book : Script Book :=
  return (← world).client

/-- Change the session's own state. -/
def modifyBook (change : Book → Book) : Script Unit :=
  modifyWorld fun world => { world with client := change world.client }

/-- The models and collections. -/
def data : Script Data :=
  return (← world).data

/-- Change the models and collections, with a result. -/
def actOnData {Result : Type} (change : Data → Result × Data) : Script Result :=
  act fun world =>
    let (result, data) := change world.data
    (result, { world with data })

/-- Change the models and collections. -/
def modifyData (change : Data → Data) : Script Unit :=
  modifyWorld fun world => { world with data := change world.data }

/-- The session's document. -/
def document : Script Document :=
  return (← world).document Book.document

/-- Change the session's document. -/
def modifyDocument (change : Document → Document) : Script Unit :=
  modifyWorld (·.modifyDocument Book.document change)

/-- Change the session's document, with a result. -/
def actOnDocument {Result : Type} (change : Document → Result × Document) : Script Result :=
  act fun world =>
    let (result, document) := change (world.document Book.document)
    (result, world.setDocument Book.document document)

/-- The name of a node of the session's document. -/
def nameOf (node : NodeId) : Script String :=
  act fun world =>
    let (name, nodes) := world.client.nodes.nameOf node
    (name, { world with client := { world.client with nodes } })

/-- The name of a node of the session's document in an answer. -/
def reportNode (node : NodeId) : Script Datum :=
  return .text (← nameOf node)

/-- The name of a node, if there is one. -/
def reportNode? : Option NodeId → Script Datum
  | some node => reportNode node
  | none => return .null

/-- The names of nodes. -/
def reportNodes (nodes : List NodeId) : Script Datum :=
  return .list (← nodes.mapM reportNode)

/-- Give a node of the session's document a name. -/
def giveName (name : String) (node : NodeId) : Script Unit :=
  modifyBook fun book => { book with nodes := book.nodes.give name node }

/-- Remember a piece of behaviour. -/
def remember (reaction : Reaction) : Script Hook :=
  act fun world =>
    let (hook, book) := world.client.remember reaction
    (hook, { world with client := book })

/-- Note something in the log. -/
def note (entry : Datum) : Script Unit :=
  modifyBook (·.note entry)

end Script

end LiveTemplate.Session
