import LiveTemplate.View.Build

/-!
# Keeping renders up to date

A render reacts to a change of a property or of a collection.  A text or an attribute is shown anew
in place.  A directive tears down what it shows and builds it again.  A list follows a change item
by item and leaves the other items alone.

Reactions run no code of the client but its controller factories, so none of them sets a property or
changes a collection.
-/

namespace LiveTemplate

namespace World

variable {Client : Type}

/-- Where building takes place for a render. -/
def site (behaviour : Behaviour Client) (world : World Client) (id : RenderId)
    (render : Render) : Site Client :=
  ⟨id, render.config, world.registry render.registry, world.factories behaviour⟩

/-- What building for a render starts from. -/
def buildState (world : World Client) (render : Render) : BuildState Client :=
  { data := world.data
    controllers := world.controllers
    client := world.client
    places := (world.document render.document).places
    nextBound := render.tree.next }

/-- Build something for a render.  New nodes take places of its document and are numbered on from
those of its tree; the result is not put into either of them. -/
def grow {Result : Type} (behaviour : Behaviour Client) (world : World Client) (id : RenderId)
    (render : Render) (steps : Site Client → Build Client Result) : Result × World Client :=
  let (result, after) := (steps (world.site behaviour id render)).run (world.buildState render)
  let world :=
    { world with
      data := after.data
      controllers := after.controllers
      client := after.client }
  (result,
    (world.modifyDocument render.document fun document =>
      { document with places := after.places }).modifyTree id fun tree =>
        { tree with next := after.nextBound })

/-- Put what has been built into the document after `reference`, and its bound nodes into the tree
as `graft` says.  What was built before a failure is put there too, and the failure is noted. -/
def plant (world : World Client) (id : RenderId) (render : Render) (reference : NodeId)
    (growth : Growth) (graft : Bindings → BoundTree Part → BoundTree Part) : World Client :=
  let world := world.modifyDocument render.document (·.placeAfter reference growth.page)
  let noted := growth.failure.toList.map fun failure => (id, failure)
  { world with failures := world.failures ++ noted }.modifyRender id fun render =>
    { render with
      tree := graft growth.bound render.tree
      created := render.created ++ growth.page.names }

/-- Tear several bound nodes of a render down. -/
def teardownAll (world : World Client) (id : RenderId) (nodes : List BoundId) : World Client :=
  nodes.foldl (fun world node => world.teardown id node) world

/-- Keep the decision of a directive. -/
def settle (world : World Client) (id : RenderId) (switch : BoundId) (decision : Option Bool) :
    World Client :=
  world.modifyTree id fun tree =>
    { tree with nodes := tree.nodes.modify switch (·.decided decision) }

/-- Build what a directive shows, after its anchor. -/
def fill (behaviour : Behaviour Client) (world : World Client) (id : RenderId) (render : Render)
    (switch : BoundId) (directive : Directive) (scope : Scope) (anchor : NodeId) : World Client :=
  let (growth, world) := world.grow behaviour id render fun site =>
    site.content site.viewIn (site.body directive.body) switch directive scope
  world.plant id render anchor growth fun bound tree => tree.graft switch bound

/-- Build what a directive shows anew.  A condition whose decision has not changed is left alone. -/
def rebuild (behaviour : Behaviour Client) (world : World Client) (id : RenderId)
    (switch : BoundId) : World Client :=
  match world.render? id, world.bound? id switch with
  | some render, some ⟨.switch directive shown, some anchor, _, scope⟩ =>
    let value := world.data.resolveRaw scope.model directive.path
    let decision := Site.decision world.data.contents directive.rule value
    if decision.isSome && decision == shown then world
    else
      ((world.teardownAll id (render.tree.shownBy switch)).settle id switch decision).fill
        behaviour id render switch directive scope anchor
  | _, _ => world

/-- Bring what a bound node shows in position `slot` up to date. -/
def refresh (behaviour : Behaviour Client) (world : World Client) (id : RenderId) (root : BoundId)
    (slot : Nat) : World Client :=
  match world.render? id, world.bound? id root with
  | some render, some node =>
    match node.part.shown? slot, node.dom with
    | some (path, display), some dom =>
      let value := world.data.resolve node.scope.model path
      world.modifyDocument render.document
        (·.modify dom (display.show world.data.contents value))
    | _, _ => if node.kind == .switch then world.rebuild behaviour id root else world
  | _, _ => world

/-- Follow the rest of a path from a value on. -/
def link (behaviour : Behaviour Client) (world : World Client) (render : Render)
    (observer : PathObserver) (scope : Scope) (value : Value) : World Client :=
  let (watches, world) := world.grow behaviour observer.render render fun site =>
    site.watch observer.root observer.slot scope value observer.rest
  world.modifyTree observer.render fun tree => tree.graft observer.owner watches

/-- Follow the rest of a path anew from a new value on. -/
def relink (behaviour : Behaviour Client) (world : World Client) (observer : PathObserver)
    (value : Value) : World Client :=
  match world.render? observer.render, world.bound? observer.render observer.owner with
  | some render, some owner =>
    (world.teardownAll observer.render
      (render.tree.watcher? observer.owner observer.slot).toList).link behaviour render observer
        owner.scope value
  | _, _ => world

/-- React to a new value of an observed property. -/
def react (behaviour : Behaviour Client) (world : World Client) (observer : PathObserver)
    (value : Value) : World Client :=
  if world.isLive observer.render observer.owner then
    let world :=
      if observer.rest.isEmpty then world else world.relink behaviour observer value
    world.refresh behaviour observer.render observer.root observer.slot
  else world

/-- Show items in a list, in front of position `index`. -/
def showItems (behaviour : Behaviour Client) (world : World Client) (id : RenderId)
    (list : BoundId) (index : Nat) (items : List Value) : World Client :=
  match world.render? id, world.bound? id list with
  | some render, some ⟨.list _ body, some anchor, _, scope⟩ =>
    let before := (render.tree.children list).take index
    let reference := (render.tree.lastOf before).getD anchor
    let (growth, world) := world.grow behaviour id render fun site =>
      Site.items (site.body body) scope items
    world.plant id render reference growth fun bound tree => tree.graftAt list index bound
  | _, _ => world

/-- What a list shows: a bound node for each item. -/
def itemsShown (world : World Client) (id : RenderId) (list : BoundId) : List BoundId :=
  match world.render? id, world.bound? id list with
  | some render, some ⟨.list .., _, _, _⟩ => render.tree.children list
  | _, _ => []

/-- Take the item at a position out of a list. -/
def hideItem (world : World Client) (id : RenderId) (list : BoundId) (index : Nat) :
    World Client :=
  world.teardownAll id (world.itemsShown id list)[index]?.toList

/-- Take all items out of a list. -/
def hideItems (world : World Client) (id : RenderId) (list : BoundId) : World Client :=
  world.teardownAll id (world.itemsShown id list)

/-- Let a list follow a change of its collection. -/
def splice (behaviour : Behaviour Client) (world : World Client) (id : RenderId) (list : BoundId)
    (change : Change) : World Client :=
  match change with
  | .insert index item => world.showItems behaviour id list index [item]
  | .remove index _ => world.hideItem id list index
  | .update index item => (world.hideItem id list index).showItems behaviour id list index [item]
  | .replace items => (world.hideItems id list).showItems behaviour id list 0 items

end World

end LiveTemplate
