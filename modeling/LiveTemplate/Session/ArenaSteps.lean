import LiveTemplate.Session.Report

/-!
# Steps on bound nodes that belong to no render
-/

namespace LiveTemplate.Session.ArenaSteps

variable (step : Step)

/-- The kinds of bound nodes by name. -/
def kindNamed : String → Option BoundKind
  | "element" => some .element
  | "text" => some .text
  | "switch" => some .switch
  | "list" => some .list
  | "group" => some .group
  | "watch" => some .watch
  | "view" => some .view
  | _ => none

/-- The heading under which a kind is reported. -/
def kindHeading : BoundKind → String
  | .element => "Element"
  | .text => "Text"
  | .switch => "Switch"
  | .list => "List"
  | .group => "Group"
  | .watch => "Watch"
  | .view => "View"

/-- A bound node that was given a name. -/
def bound (entry : String) : Script BoundId :=
  step.named entry "bound" Book.bound

/-- Change the arena, with a result. -/
def actOnArena {Result : Type}
    (change : BoundTree BoundKind → Result × BoundTree BoundKind) : Script Result :=
  Script.act fun world =>
    let (result, arena) := change world.client.arena
    (result, { world with client := { world.client with arena } })

/-- A new bound node and its name.  Its controller knows nothing. -/
def newNode : Script (BoundNode BoundKind × String) := do
  let part ← Script.expect "kind" (kindNamed (← step.text "kind"))
  let dom ←
    match ← step.datum "node" with
    | .null => pure none
    | _ => some <$> step.node "node"
  let model ← step.model "model"
  let name ← step.text "as"
  let controller ← Script.act (·.createController .inert)
  return ({ part, dom, scope := { model, controller } }, name)

/-- Give a bound node a name. -/
def giveName (name : String) (id : BoundId) : Script Datum := do
  Script.modifyBook fun book => { book with bound := Pairs.set book.bound name id }
  return .null

/-- Add a node without a parent. -/
def insert : Script Datum := do
  let (node, name) ← newNode step
  giveName name (← actOnArena (·.insert node))

/-- Add a node as the last child of another. -/
def adopt : Script Datum := do
  let parent ← bound step "parent"
  let (node, name) ← newNode step
  giveName name (← actOnArena (·.adopt parent node))

/-- Add a node among the children of another. -/
def adoptAt : Script Datum := do
  let parent ← bound step "parent"
  let index ← step.position "index"
  let (node, name) ← newNode step
  giveName name (← actOnArena (·.adoptAt parent index node))

/-- What a registration was made on. -/
def source : Script Source := do
  if (step.present? "coll").isSome then return .collection (← step.collection "coll")
  else return .model (← step.model "model") (← step.text "channel")

/-- Note a registration in the ledger of a node. -/
def record : Script Datum := do
  let source ← source step
  let owner ← bound step "id"
  let id ← step.named "sub" "sub" Book.subscriptions
  Script.modifyWorld fun world =>
    let (arena, data) := world.client.arena.record owner ⟨source, id⟩ world.data
    { world with data, client := { world.client with arena } }
  return .null

/-- Tear a node down; the answer is the size of what remains. -/
def teardown : Script Datum := do
  let id ← bound step "id"
  Script.modifyWorld fun world =>
    let (arena, data, document) :=
      world.client.arena.teardown id world.data (world.document Book.document)
    { world with data, client := { world.client with arena } }.setDocument Book.document document
  let size := (← Script.book).arena.size
  return .list [.natural size, .bool (size == 0)]

/-- The last document node of several nodes. -/
def lastOf : Script Datum := do
  let ids ← (← step.list "ids").mapM fun datum => do
    let name ← Script.expect "ids" datum.text?
    Script.expect "bound" ((← Script.book).bound.lookup name)
  Script.reportNode? ((← Script.book).arena.lastOf ids)

/-- Everything about a node. -/
def info : Script Datum := do
  let id ← bound step "id"
  let book ← Script.book
  let arena := book.arena
  let name (id : BoundId) : Datum := reportText (Book.nameAmong? book.bound id)
  let node ←
    match arena.get? id with
    | none => pure Datum.null
    | some node => do
      let dom ← Script.reportNode? node.dom
      pure (.record [
        ("kind", .text (kindHeading node.part)), ("dom", dom),
        ("parent", ((arena.nodes.parent? id).map name).getD .null),
        ("ledger", .list (node.ledger.map fun entry => .text entry.source.channel)),
        ("depth", .natural node.scope.depth), ("model", reportModel book node.scope.model)])
  let last ← Script.reportNode? (arena.lastNode id)
  return .record [
    ("node", node), ("contains", .bool (arena.contains id)), ("last", last),
    ("children", .list ((arena.children id).map name)),
    ("subs", .natural (arena.subscriptionCount id)), ("count", .natural (arena.boundCount id)),
    ("len", .natural arena.size)]

/-- The script for a step of a given name, if it is one of these. -/
def script? (name : String) : Option (Script Datum) :=
  match name with
  | "bound.insert" => some (insert step)
  | "bound.adopt" => some (adopt step)
  | "bound.adopt_at" => some (adoptAt step)
  | "bound.record" => some (record step)
  | "bound.teardown" => some (teardown step)
  | "bound.last_of" => some (lastOf step)
  | "bound.info" => some (info step)
  | _ => none

end LiveTemplate.Session.ArenaSteps
