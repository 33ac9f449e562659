import LiveTemplate.View.World

/-!
# Building what a template calls for

Template nodes are built against a scope.  The result is a piece of document and the bound nodes for
it, in the order of the template, still standing by themselves; the registrations have been made.
Building reads models but changes none.

A failure ends the building.  What was built before it is kept in the result, so that whoever asked
can show it or tear it down.
-/

namespace LiveTemplate

open Template (Node Attribute Expression Path Rule)

/-- What has been built: document trees, the bound nodes for them, and why building ended early. -/
structure Growth where
  page : Forest NodeId NodeData := .nil
  bound : Bindings := .nil
  failure : Option RenderError := none

namespace Growth

/-- Nothing was to be built. -/
def empty : Growth := {}

/-- Building came to an end at once. -/
def failed (error : RenderError) : Growth := { failure := some error }

/-- One growth beside another. -/
def beside (first second : Growth) : Growth :=
  { page := first.page ++ second.page
    bound := first.bound ++ second.bound
    failure := second.failure }

/-- Put all bound nodes of a growth below a new one. -/
def within (growth : Growth) (id : BoundId) (node : BoundNode Part) : Growth :=
  { growth with bound := .cons id node growth.bound .nil }

end Growth

/-- What building changes: registrations, controllers, the client's own state, the places of the
document, and the number of the next bound node. -/
structure BuildState (Client : Type) where
  data : Data
  controllers : Controllers
  client : Client
  places : Places
  nextBound : Nat

/-- A step of building. -/
abbrev Build (Client : Type) : Type → Type := StateM (BuildState Client)

/-- Where building takes place: for which render, with which settings, views and factories. -/
structure Site (Client : Type) where
  render : RenderId
  config : RenderConfig
  registry : Registry
  build : Hook → Controllers → Client → ControllerId × Controllers × Client

namespace Build

variable {Client : Type}

/-- A place for a new document node. -/
def newNode : Build Client NodeId :=
  modifyGet fun state => (state.places.next, { state with places := state.places.take })

/-- The number of a new bound node. -/
def newBound : Build Client BoundId :=
  modifyGet fun state => (⟨state.nextBound⟩, { state with nextBound := state.nextBound + 1 })

/-- Ask something of the models and collections. -/
def ask {Answer : Type} (question : Data → Answer) : Build Client Answer := do
  return question (← get).data

/-- Observe a property of a model. -/
def observe (model : ModelId) (property : String) (observer : PathObserver) :
    Build Client Subscription :=
  modifyGet fun state =>
    let (subscription, data) := state.data.subscribe model (changeChannel property) (.path observer)
    (subscription, { state with data })

/-- Observe a collection. -/
def observeChanges (collection : CollectionId) (observer : ChangeObserver) :
    Build Client Subscription :=
  modifyGet fun state =>
    let (subscription, data) := state.data.subscribeChanges collection observer
    (subscription, { state with data })

/-- Get a controller from a factory. -/
def callFactory (site : Site Client) (factory : Hook) : Build Client ControllerId :=
  modifyGet fun state =>
    let (id, controllers, client) := site.build factory state.controllers state.client
    (id, { state with controllers, client })

/-- Add a controller that knows nothing. -/
def newInert : Build Client ControllerId :=
  modifyGet fun state =>
    let (id, controllers) := state.controllers.create .inert
    (id, { state with controllers })

/-- Tell a controller that its view has been shown. -/
def attach (controller : ControllerId) (links : ControllerLinks) : Build Client Unit :=
  modify fun state => { state with controllers := state.controllers.attach controller links }

end Build

namespace Site

variable {Client : Type}

/-- Follow the rest of a path for `root`, starting from the value that its earlier segments have led
to.  Each model on the way is observed by a bound node of its own, the innermost first. -/
def watch (site : Site Client) (root : BoundId) (slot : Nat) (scope : Scope) (value : Value) :
    List String → Build Client Bindings
  | [] => return .nil
  | segment :: rest => do
    match value with
    | .model model =>
      let id ← Build.newBound
      let next ← Build.ask fun data => data.get model segment
      let deeper ← site.watch root slot scope next rest
      let subscription ← Build.observe model segment ⟨site.render, id, root, slot, rest⟩
      let node : BoundNode Part :=
        { part := .watch slot, ledger := [subscription], scope := { scope with model } }
      return .cons id node deeper .nil
    | _ => return .nil

/-- Follow a path of the bound node `root`: first what lies beyond its first segment, then that
segment, whose registration is `root`'s own. -/
def follow (site : Site Client) (root : BoundId) (slot : Nat) (scope : Scope) (path : Path) :
    Build Client (Subscription × Bindings) := do
  let value ← Build.ask fun data => data.get scope.model path.head
  let watches ← site.watch root slot scope value path.tail
  let subscription ←
    Build.observe scope.model path.head ⟨site.render, root, root, slot, path.tail⟩
  return (subscription, watches)

/-- The value to be shown for an expression, with the registrations that keep it up to date. -/
def evaluate (site : Site Client) (root : BoundId) (slot : Nat) (scope : Scope) :
    Expression → Build Client (Value × List Subscription × Bindings)
  | .literal text => return (.text text, [], .nil)
  | .bound path => do
    let value ← Build.ask fun data => data.resolve scope.model path
    let (subscription, watches) ← site.follow root slot scope path
    return (value, [subscription], watches)

/-- Build an element's attributes from position `slot` on into its data. -/
def attributes (site : Site Client) (root : BoundId) (scope : Scope) (slot : Nat)
    (entries : List Attribute) (data : NodeData) :
    Build Client (NodeData × List Subscription × Bindings) :=
  match entries with
  | [] => return (data, [], .nil)
  | entry :: later => do
    let (data, ledger, watches) ←
      match entry with
      | .property name expression => do
        let (value, ledger, watches) ← site.evaluate root slot scope expression
        let contents ← Build.ask Data.contents
        pure ((Display.attribute name).show contents value data, ledger, watches)
      | .style name expression => do
        let (value, ledger, watches) ← site.evaluate root slot scope expression
        let contents ← Build.ask Data.contents
        pure ((Display.style name).show contents value data, ledger, watches)
      | .event name _ _ =>
        pure (data.listen name (.action site.render root slot), [], .nil)
    let (data, laterLedger, laterWatches) ← site.attributes root scope (slot + 1) later data
    return (data, ledger ++ laterLedger, watches ++ laterWatches)

/-- Build a text. -/
def text (site : Site Client) (scope : Scope) (content : Expression) : Build Client Growth := do
  let node ← Build.newNode
  let id ← Build.newBound
  let (value, ledger, watches) ← site.evaluate id 0 scope content
  let contents ← Build.ask Data.contents
  let bound : BoundNode Part := { part := .text content, dom := some node, ledger, scope }
  return {
    page := .leaf node (Display.text.show contents value (.text ""))
    bound := .cons id bound watches .nil }

/-- The scope of an item: the item itself if it is a model, else the enclosing one. -/
def itemScope (scope : Scope) : Value → Scope
  | .model model => { scope with model }
  | _ => scope

/-- The items for which a body is shown: those of a list or a collection, a truthy value itself, or
none. -/
def itemsOf (contents : Contents) : Value → List Value
  | .list items => items
  | .collection id => contents.items id
  | value => if value.isTruthy contents then [value] else []

/-- Build a body for one item. -/
def item (body : Scope → Build Client Growth) (scope : Scope) (value : Value) :
    Build Client Growth := do
  let id ← Build.newBound
  let growth ← body (itemScope scope value)
  return growth.within id { part := .group, scope := itemScope scope value }

/-- Build a body for each of several items, up to a failure. -/
def items (body : Scope → Build Client Growth) (scope : Scope) :
    List Value → Build Client Growth
  | [] => return .empty
  | value :: later => do
    let growth ← item body scope value
    if growth.failure.isSome then return growth
    else return growth.beside (← items body scope later)

/-- Observe the collection of a list once its items have been built. -/
def observeList (site : Site Client) (list : BoundId) (collection : CollectionId)
    (growth : Growth) : Build Client (List Subscription) :=
  if growth.failure.isSome then return []
  else return [← Build.observeChanges collection (.splice site.render list)]

/-- Build a collection that is followed item by item. -/
def list (site : Site Client) (body : Scope → Build Client Growth) (source : List Node)
    (scope : Scope) (collection : CollectionId) : Build Client Growth := do
  let anchor ← Build.newNode
  let id ← Build.newBound
  let values ← Build.ask fun data => data.contents.items collection
  let growth ← items body scope values
  let ledger ← site.observeList id collection growth
  let bound : BoundNode Part :=
    { part := .list collection source, dom := some anchor, ledger, scope }
  return {
    page := .cons anchor (.anchor site.config.anchorLabel) .nil growth.page
    bound := .cons id bound growth.bound .nil
    failure := growth.failure }

/-- The decision of a condition on a value; other rules decide nothing. -/
def decision (contents : Contents) (rule : Rule) (value : Value) : Option Bool :=
  match rule with
  | .showIf => some (value.isTruthy contents)
  | .showUnless => some (!value.isTruthy contents)
  | _ => none

/-- Observe the items of a value that are shown by a directive, if they can change. -/
def observeItems (site : Site Client) (switch group : BoundId) :
    Value → Build Client (List Subscription)
  | .collection collection => do
    return [← Build.observeChanges collection (.rebuild site.render group switch)]
  | _ => return []

/-- Build what the directive of the bound node `switch` shows for a value, with the registrations
that the group around it holds. -/
def filling (site : Site Client) (view : Scope → ModelId → String → Build Client Growth)
    (body : Scope → Build Client Growth) (switch group : BoundId) (directive : Directive)
    (scope : Scope) (contents : Contents) (value : Value) :
    Build Client (List Subscription × Growth) :=
  match directive.rule with
  | .showIf => do
    return ([], ← if value.isTruthy contents then body scope else pure .empty)
  | .showUnless => do
    return ([], ← if value.isTruthy contents then pure .empty else body scope)
  | .each => do
    let ledger ← site.observeItems switch group value
    return (ledger, ← items body scope (itemsOf contents value))
  | .collection =>
    match value with
    | .collection collection => do
      return ([], ← site.list body directive.body scope collection)
    | other => do
      return ([], ← items body scope (itemsOf contents other))
  | .view name =>
    match value with
    | .model model => do
      return ([], ← view scope model name)
    | _ => return ([], .empty)

/-- Build what the directive of the bound node `switch` calls for at the moment, as one group. -/
def content (site : Site Client) (view : Scope → ModelId → String → Build Client Growth)
    (body : Scope → Build Client Growth) (switch : BoundId) (directive : Directive)
    (scope : Scope) : Build Client Growth := do
  let value ← Build.ask fun data => data.resolveRaw scope.model directive.path
  let contents ← Build.ask Data.contents
  let id ← Build.newBound
  let (ledger, growth) ← site.filling view body switch id directive scope contents value
  return growth.within id { part := .group, ledger, scope }

/-- Build a directive: an anchor, the registrations along its path, and what it shows. -/
def directive (site : Site Client) (view : Scope → ModelId → String → Build Client Growth)
    (body : Scope → Build Client Growth) (directive : Directive) (scope : Scope) :
    Build Client Growth := do
  let anchor ← Build.newNode
  let id ← Build.newBound
  let (subscription, watches) ← site.follow id 0 scope directive.path
  let shown ← Build.ask fun data =>
    decision data.contents directive.rule (data.resolveRaw scope.model directive.path)
  let growth ← site.content view body id directive scope
  let bound : BoundNode Part :=
    { part := .switch directive shown, dom := some anchor, ledger := [subscription], scope }
  return {
    page := .cons anchor (.anchor site.config.anchorLabel) .nil growth.page
    bound := .cons id bound (watches ++ growth.bound) .nil
    failure := growth.failure }

mutual

/-- Build one node.  `view` shows a view for a model. -/
def node (site : Site Client) (view : Scope → ModelId → String → Build Client Growth) :
    Node → Scope → Build Client Growth
  | .element tag entries children _, scope => do
    let node ← Build.newNode
    let id ← Build.newBound
    let (data, ledger, watches) ← site.attributes id scope 0 entries (.element tag)
    let growth ← site.nodes view children scope
    let bound : BoundNode Part := { part := .element entries, dom := some node, ledger, scope }
    return {
      page := .cons node data growth.page .nil
      bound := .cons id bound (watches ++ growth.bound) .nil
      failure := growth.failure }
  | .text content, scope => site.text scope content
  | .directive rule path body, scope =>
    site.directive view (site.nodes view body) ⟨rule, path, body⟩ scope
  | .view name, scope => view scope scope.model name

/-- Build nodes in order, up to a failure. -/
def nodes (site : Site Client) (view : Scope → ModelId → String → Build Client Growth) :
    List Node → Scope → Build Client Growth
  | [], _ => return .empty
  | first :: later, scope => do
    let growth ← site.node view first scope
    if growth.failure.isSome then return growth
    else return growth.beside (← site.nodes view later scope)

end

/-- The controller of a view that is shown in a scope, and whether it came from a factory: one from
the view's factory; else the enclosing one, or one that knows nothing if the settings say so. -/
def viewController (site : Site Client) (scope : Scope) (name : String) :
    Build Client (ControllerId × Bool) := do
  match site.registry.factory? name with
  | some factory => return (← Build.callFactory site factory, true)
  | none =>
    if site.config.inheritsController then return (scope.controller, false)
    else return (← Build.newInert, false)

/-- Tell a controller that is fresh from its factory what its view is, once that is there. -/
def introduce (fresh : Bool) (controller : ControllerId) (model : ModelId)
    (parent : ControllerId) (growth : Growth) : Build Client Unit :=
  match fresh, growth.failure, growth.page.roots.head? with
  | true, none, some root => Build.attach controller ⟨model, root, some parent⟩
  | _, _, _ => return

/-- Show a view for a model.  At most `room` more views may be nested. -/
def view (site : Site Client) : Nat → Scope → ModelId → String → Build Client Growth
  | 0, _, _, name => return .failed (.viewDepthExceeded name site.config.maxViewDepth)
  | room + 1, scope, model, name => do
    match site.registry.view? name with
    | none => return .failed (.unknownView name)
    | some template =>
      let (controller, fresh) ← site.viewController scope name
      let inner : Scope := ⟨model, controller, scope.depth + 1⟩
      let id ← Build.newBound
      let growth ← site.node (site.view room) template.root inner
      introduce fresh controller model scope.controller growth
      return growth.within id { part := .view name, scope := inner }

/-- Show a view within a scope, as deep as the settings allow. -/
def viewIn (site : Site Client) (scope : Scope) : ModelId → String → Build Client Growth :=
  site.view (site.config.maxViewDepth - scope.depth) scope

/-- Build the body of a directive. -/
def body (site : Site Client) (source : List Node) (scope : Scope) : Build Client Growth :=
  site.nodes site.viewIn source scope

end Site

end LiveTemplate
