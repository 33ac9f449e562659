import LiveTemplate.Session.Datum
import LiveTemplate.View.Pilot

/-!
# What a session keeps

A session is a client of the library.  It keeps objects under names, it says in which words document
nodes are reported, and it remembers how its callbacks, listeners, actions and factories react: they
note what they were told and then run effects, which are steps of the session themselves.
-/

namespace LiveTemplate.Session

/-- The names of the nodes of one document. -/
structure NodeNames where
  /-- What invented names start with. -/
  mark : String
  /-- The node that a name refers to; the latest one counts. -/
  nodes : List (String × NodeId) := []
  /-- The name that a node is reported by; the first one counts. -/
  names : List (NodeId × String) := []
  /-- How many names have been invented. -/
  invented : Nat := 0

namespace NodeNames

/-- Give a node a name. -/
def give (names : NodeNames) (name : String) (node : NodeId) : NodeNames :=
  { names with
    nodes := Pairs.set names.nodes name node
    names := names.names ++ [(node, name)] }

/-- The name of a node, which is invented if there is none yet. -/
def nameOf (names : NodeNames) (node : NodeId) : String × NodeNames :=
  match names.names.lookup node with
  | some name => (name, names)
  | none =>
    let name := names.mark ++ toString (names.invented + 1)
    (name, { names.give name node with invented := names.invented + 1 })

end NodeNames

/-- What a factory of the session's own registry gives. -/
inductive Supply where
  /-- The controller that has a name at the time. -/
  | named (name : String)
  /-- A new controller with these actions and their effects. -/
  | fresh (actions : List (String × List Datum))
  | inert
deriving Repr

/-- What a piece of the session's behaviour belongs to. -/
inductive Role where
  | subscriber (name : String)
  | listener (text : Datum)
  | action (name controller : String)
  | factory (view : String) (supply : Supply)
  /-- A factory of the pilot's registry.  It gives the same controller each time, which it keeps in
  use, and nothing is noted. -/
  | supplier (controller : ControllerId)
deriving Repr

/-- A piece of behaviour: whom it serves and the effects that it has, for the number of times that
remain or for ever. -/
structure Reaction where
  role : Role
  effects : List Datum := []
  remaining : Option Nat := none
deriving Repr

/-- A pilot with the names of its nodes and all roots that were ever mounted.  Both outlast the
pilot.  The next one has a document of its own, in which a node that is referred to like a former
one goes by the same name. -/
structure PilotDesk where
  pilot : Pilot
  nodes : NodeNames := { mark := "p" }
  roots : List NodeId := []

/-- What a session keeps. -/
structure Book where
  config : RenderConfig := {}
  /-- What was noted during the current step, the latest first. -/
  log : List Datum := []
  reactions : Store Reaction := {}
  models : List (String × ModelId) := []
  collections : List (String × CollectionId) := []
  /-- Channels that belong to no model, and their names. -/
  lines : Store (Channel Hook) := {}
  channels : List (String × Nat) := []
  subscriptions : List (String × SubscriptionId) := []
  schemas : List (String × Schema) := []
  templates : List (String × Template) := []
  /-- Controllers that the session keeps in use. -/
  controllers : List (String × ControllerId) := []
  /-- Controllers that factories made, which stay in use only as long as something needs them. -/
  made : List (String × ControllerId) := []
  /-- How many controllers the factories of a view have made. -/
  makings : List (String × Nat) := []
  renders : List (String × RenderId) := []
  nodes : NodeNames := { mark := "n" }
  pilot : Option PilotDesk := none
  /-- Bound nodes that belong to no render. -/
  arena : BoundTree BoundKind := {}
  bound : List (String × BoundId) := []

namespace Book

/-- The number of the session's own document. -/
def document : DocumentId := ⟨0⟩

/-- The number of the session's own registry. -/
def registry : RegistryId := ⟨0⟩

/-- Note something in the log. -/
def note (book : Book) (entry : Datum) : Book :=
  { book with log := entry :: book.log }

/-- Remember a piece of behaviour. -/
def remember (book : Book) (reaction : Reaction) : Hook × Book :=
  (⟨book.reactions.next⟩, { book with reactions := book.reactions.add reaction })

/-- A channel that belongs to no model. -/
def line (book : Book) (index : Nat) : Channel Hook :=
  (book.lines.get? index).getD {}

/-- Change a channel that belongs to no model. -/
def modifyLine (book : Book) (index : Nat) (change : Channel Hook → Channel Hook) : Book :=
  { book with lines := book.lines.modify index change }

/-- The smaller of two names, where there may be none yet. -/
def smaller (best : Option String) (name : String) : Option String :=
  match best with
  | none => some name
  | some best => some (if name < best then name else best)

/-- The smallest name under which an object is known. -/
def nameAmong? {Id : Type} [DecidableEq Id] (names : List (String × Id)) (id : Id) :
    Option String :=
  ((names.filter fun entry => entry.2 = id).map Prod.fst).foldl smaller none

/-- The smallest name under which an object is known; a question mark if it has none. -/
def nameAmong {Id : Type} [DecidableEq Id] (names : List (String × Id)) (id : Id) : String :=
  (nameAmong? names id).getD "?"

/-- The controller of a name: one that the session keeps, or one that a factory made and that is in
use. -/
def controller? (book : Book) (inUse : ControllerId → Bool) (name : String) :
    Option ControllerId :=
  (book.controllers.lookup name).or ((book.made.lookup name).filter inUse)

/-- The controllers that the factories of a registry keep in use. -/
def suppliedBy (book : Book) (registry : Registry) : List ControllerId :=
  registry.factories.filterMap fun factory =>
    match (book.reactions.get? factory.2.index).map Reaction.role with
    | some (.supplier controller) => some controller
    | _ => none

end Book

/-- The controllers that the session keeps in use: those it has a handle on, and those that the
factories of its pilot's registry give. -/
def keeps (world : World Book) : List ControllerId :=
  let book := world.client
  book.controllers.map Prod.snd ++
    match book.pilot with
    | some desk => book.suppliedBy (world.registry desk.pilot.registry)
    | none => []

/-- The world before the first step: one empty document and one empty registry. -/
def openingWorld (config : RenderConfig) : World Book :=
  { documents := ⟨#[{}]⟩
    registries := ⟨#[{}]⟩
    client := { config } }

end LiveTemplate.Session
