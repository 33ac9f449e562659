import LiveTemplate.Proofs.Build.Steps
import LiveTemplate.Proofs.Meaning.Chains
import LiveTemplate.Proofs.Reactive.Spelling
import LiveTemplate.Proofs.Upkeep.Mounted

/-!
# How a mounting ends

A mounting always ends.  Where all views are registered, it fails if and only if views are shown too
deeply in each other, and no view that it shows is deeper than allowed.  A mounting that fails leaves
no trace: neither in a document, nor on a channel, nor on the root controller.
-/

namespace LiveTemplate

open Template (Node)
open BoundForest (account)

/-! ## Views in each other -/

/-- How many views are live in each other. -/
def BoundForest.viewDepth : Bindings → Nat
  | .nil => 0
  | .cons _ node below beside =>
    max (viewDepth below + if node.kind = .view then 1 else 0) (viewDepth beside)

/-- A task that stands so many views deep. -/
inductive Task.Deep (depth : Nat) : Task → Prop where
  | node {source : Node} {model : ModelId} : Deep depth (.node source model depth)
  | content {shows : List Task} {observed : List CollectionId} (deep : ∀ task ∈ shows, Deep depth task) :
      Deep depth (.content shows observed)
  | item {body : List Node} {value : Value} {model : ModelId} : Deep depth (.item body value model depth)
  | list {collection : CollectionId} {body : List Node} {model : ModelId} :
      Deep depth (.list collection body model depth)

theorem Directive.shows_deep (directive : Directive) (contents : Contents) (model : ModelId)
    (depth : Nat) (value : Value) :
    ∀ task ∈ directive.shows contents model depth value, task.Deep depth := by
  have nodes : ∀ task ∈ directive.body.map (Task.node · model depth), task.Deep depth := by
    intro task member
    obtain ⟨node, _, rfl⟩ := List.mem_map.1 member
    exact .node
  have items : ∀ values : List Value,
      ∀ task ∈ values.map (Task.item directive.body · model depth), task.Deep depth := by
    intro values task member
    obtain ⟨item, _, rfl⟩ := List.mem_map.1 member
    exact .item
  unfold Directive.shows
  split
  · split
    · exact nodes
    · simp
  · split
    · simp
    · exact nodes
  · exact items _
  · split
    · intro task member
      obtain rfl := List.mem_singleton.1 member
      exact .list
    · exact items _
  · split
    · intro task member
      obtain rfl := List.mem_singleton.1 member
      exact .node
    · simp

section Depth

variable {frame : Frame} {standing : Standing} {root name : BoundId} {way : Nat → List String}
  {task : Task} {tasks full inner : List Task} {node : BoundNode Part} {forest below : Bindings}
  {depth : Nat}

/-- What a bound node calls for stands as deep as the node, or one deeper if it is a view. -/
theorem Local.deep (here : Local frame standing root name task node below full)
    (deep : task.Deep depth) (allowed : depth ≤ frame.limit) :
    ∃ inner, (∀ other ∈ full, other.Deep inner) ∧ inner ≤ frame.limit ∧
      frame.limit - inner + (if node.kind = .view then 1 else 0) ≤ frame.limit - depth := by
  have nodes : ∀ (sources : List Node) (model : ModelId) (depth : Nat),
      ∀ other ∈ sources.map (Task.node · model depth), other.Deep depth := by
    intro sources model depth other member
    obtain ⟨source, _, rfl⟩ := List.mem_map.1 member
    exact .node
  have items : ∀ (values : List Value) (body : List Node) (model : ModelId) (depth : Nat),
      ∀ other ∈ values.map (Task.item body · model depth), other.Deep depth := by
    intro values body model depth other member
    obtain ⟨value, _, rfl⟩ := List.mem_map.1 member
    exact .item
  cases here with
  | element =>
      cases deep
      exact ⟨depth, nodes _ _ _, allowed, le_rfl⟩
  | text =>
      cases deep
      exact ⟨depth, nofun, allowed, le_rfl⟩
  | @switch directive _ _ _ model _ _ _ _ _ _ possible =>
      cases deep
      obtain ⟨contents, value, same⟩ := possible
      have shows := congrArg (·.2.1) same
      obtain rfl : _ = directive.shows contents model depth value := shows
      exact ⟨depth, List.forall_mem_singleton.2 (.content (directive.shows_deep _ _ _ _)), allowed, le_rfl⟩
  | view found room =>
      cases deep
      refine ⟨depth + 1, List.forall_mem_singleton.2 .node, room, ?_⟩
      show frame.limit - (depth + 1) + 1 ≤ frame.limit - depth
      omega
  | content =>
      cases deep with
      | content deep => exact ⟨depth, deep, allowed, le_rfl⟩
  | item =>
      cases deep
      exact ⟨depth, nodes _ _ _, allowed, le_rfl⟩
  | list | unfinished =>
      cases deep
      exact ⟨depth, items _ _ _ _, allowed, le_rfl⟩

/-- Views are in each other as deep as there is room below their tasks at the most. -/
theorem Fits.viewDepth_le (fits : Fits frame standing root way tasks forest)
    (deep : ∀ task ∈ tasks, task.Deep depth) (allowed : depth ≤ frame.limit) :
    BoundForest.viewDepth forest ≤ frame.limit - depth := by
  induction fits generalizing depth with
  | nil => exact Nat.zero_le _
  | watch ahead linked inside others below beside =>
      exact Nat.max_le.2 ⟨below nofun allowed, beside deep allowed⟩
  | cons proper here covers inside others below beside =>
      obtain ⟨first, later⟩ := List.forall_mem_cons.1 deep
      obtain ⟨inner, called, within, room⟩ := here.deep first allowed
      have lower := below (fun task member => called task (covers.subset member)) within
      exact Nat.max_le.2 ⟨(Nat.add_le_add_right lower _).trans room, beside later allowed⟩

end Depth

/-! ## What is left behind -/

/-- Factories give controllers that nobody uses, and leave those alone that somebody uses. -/
structure Behaviour.Fresh {Client : Type} (behaviour : Behaviour Client) : Prop where
  unused : ∀ (inUse : ControllerId → Bool) (factory : Hook) (controllers : Controllers)
    (client : Client) (id : ControllerId), inUse id = true → id.index < controllers.next →
      (behaviour.build inUse factory controllers client).1 ≠ id
  kept : ∀ (inUse : ControllerId → Bool) (factory : Hook) (controllers : Controllers)
    (client : Client) (id : ControllerId), inUse id = true → id.index < controllers.next →
      id.index < (behaviour.build inUse factory controllers client).2.1.next ∧
        (behaviour.build inUse factory controllers client).2.1.get? id.index =
          controllers.get? id.index

namespace Data

variable {data other : Data}

theorem subscribe_prefix (data : Data) (id : ModelId) (channel : String) (observer : ValueObserver)
    (source : Source) :
    data.observers source <+: (data.subscribe id channel observer).2.observers source := by
  by_cases inside : id.index < data.models.next
  · rw [(subscribe_registers channel observer inside).observers]
    exact List.prefix_append _ _
  · cases source with
    | model model name =>
        have same : (data.subscribe id channel observer).2.model model = data.model model :=
          modifyModel_of_absent _ inside model
        rw [observers, observers, same]
    | collection => exact List.prefix_refl _

theorem subscribeChanges_prefix (data : Data) (id : CollectionId) (observer : ChangeObserver)
    (source : Source) :
    data.observers source <+: (data.subscribeChanges id observer).2.observers source := by
  by_cases inside : id.index < data.collections.next
  · rw [(subscribeChanges_registers observer inside).observers]
    exact List.prefix_append _ _
  · cases source with
    | model => exact List.prefix_refl _
    | collection collection =>
        have same : (data.subscribeChanges id observer).2.collection collection =
            data.collection collection := modifyCollection_of_absent _ inside collection
        rw [observers, observers, same]

/-- If whatever came ends again, whoever was registered is registered as before. -/
theorem Extends.observers_of_cancels {last : Data} {render : RenderId} {account : Account}
    (extends_ : data.Extends render other account) (sound : data.Sound)
    (grown : ∀ source, data.observers source <+: other.observers source)
    (cancels : other.Cancels last (account.map Prod.fst)) (source : Source) :
    last.observers source = data.observers source := by
  have distinct := (extends_.sound sound).distinct source
  obtain ⟨fresh, same⟩ := grown source
  rw [cancels.observers, ← same, List.filter_append]
  rw [← same, List.map_append] at distinct
  have apart := (List.nodup_append.1 distinct).2.2
  have kept : (data.observers source).filter
      (fun entry => decide (⟨source, entry.1⟩ ∉ account.map Prod.fst)) = data.observers source := by
    refine List.filter_eq_self.2 fun entry member => decide_eq_true fun gone => ?_
    obtain ⟨⟨_, owner⟩, noted, rfl⟩ := List.mem_map.1 gone
    have late := (extends_.noted _ _ noted).1
    exact absurd (sound.below ⟨source, entry.1⟩ entry.2 member) (not_lt.2 late)
  have gone : fresh.filter
      (fun entry => decide (⟨source, entry.1⟩ ∉ account.map Prod.fst)) = [] := by
    refine List.filter_eq_nil_iff.2 fun entry member => ?_
    have held : other.Holds ⟨source, entry.1⟩ entry.2 := by
      show entry ∈ other.observers source
      rw [← same]
      exact List.mem_append_right _ member
    rcases extends_.made _ _ held with early | ⟨owner, _, noted⟩
    · exact (apart _ (List.mem_map_of_mem early) _ (List.mem_map_of_mem member) rfl).elim
    · simpa using ⟨owner, noted⟩
  rw [kept, gone, List.append_nil]

end Data

/-- What building leaves as it was: whoever was registered stays registered, in front of all others,
and a controller that is in use stays as it is. -/
structure BuildState.Spares {Client : Type} (id : ControllerId) (before after : BuildState Client) :
    Prop where
  observers : ∀ source, before.data.observers source <+: after.data.observers source
  controller : id.index < before.controllers.next → id.index < after.controllers.next ∧
    after.controllers.get? id.index = before.controllers.get? id.index

/-- Building spares a controller that is in use, if factories give fresh ones. -/
theorem Behaviour.Fresh.permits {Client : Type} {behaviour : Behaviour Client}
    (fresh : behaviour.Fresh) {inUse : ControllerId → Bool} {id : ControllerId}
    (used : inUse id = true) {site : Site Client} (build : site.build = behaviour.build inUse) :
    site.Permits (BuildState.Spares id) where
  refl := fun _ => ⟨fun _ => List.prefix_refl _, fun inside => ⟨inside, rfl⟩⟩
  trans := by
    intro first second third one other
    refine ⟨fun source => (one.observers source).trans (other.observers source), fun inside => ?_⟩
    obtain ⟨there, same⟩ := one.controller inside
    obtain ⟨beyond, also⟩ := other.controller there
    exact ⟨beyond, also.trans same⟩
  node := fun _ => ⟨fun _ => List.prefix_refl _, fun inside => ⟨inside, rfl⟩⟩
  bound := fun _ => ⟨fun _ => List.prefix_refl _, fun inside => ⟨inside, rfl⟩⟩
  observe := fun state model property observer _ =>
    ⟨state.data.subscribe_prefix _ _ _, fun inside => ⟨inside, rfl⟩⟩
  observeChanges := fun state collection observer _ =>
    ⟨state.data.subscribeChanges_prefix _ _, fun inside => ⟨inside, rfl⟩⟩
  create := by
    refine fun state => ⟨fun _ => List.prefix_refl _, fun inside => ?_⟩
    show id.index < (state.controllers.add .inert).next ∧ (state.controllers.add .inert).get? _ = _
    rw [Store.next_add, Store.get?_add, if_neg (by omega)]
    exact ⟨by omega, rfl⟩
  call := by
    refine fun state factory => ⟨fun _ => List.prefix_refl _, fun inside => ?_⟩
    rw [Site.called, build]
    exact fresh.kept inUse factory state.controllers state.client id used inside
  introduce := by
    intro state later factory links grown
    refine ⟨grown.observers, fun inside => ?_⟩
    have within := fresh.kept inUse factory state.controllers state.client id used inside
    have grown := grown.controller
    rw [Site.called, build] at grown
    obtain ⟨beyond, same⟩ := grown within.1
    have apart : id.index ≠ (site.given factory state).index := by
      intro equal
      apply fresh.unused inUse factory state.controllers state.client id used inside
      rw [← build]
      cases id
      exact congrArg ControllerId.mk equal.symm
    show id.index < (later.controllers.modify _ _).next ∧ (later.controllers.modify _ _).get? _ = _
    rw [Store.next_modify, Store.get?_modify, if_neg apart]
    exact ⟨beyond, same.trans within.2⟩

namespace World

variable {Client : Type} {world after : World Client} {place : DocumentId} {registry : RegistryId}
  {config : RenderConfig} {template : Template}

/-- Raising a template spares its controller. -/
theorem raise_spares {behaviour : Behaviour Client} (fresh : behaviour.Fresh) (world : World Client)
    (place : DocumentId) (registry : RegistryId) (config : RenderConfig) (template : Template)
    (scope : Scope) (known : scope.controller.index < world.controllers.next) :
    (∀ source, world.data.observers source <+:
        (world.raise behaviour (world.newRender place registry config scope)
          template scope).2.data.observers source) ∧
      (world.raise behaviour (world.newRender place registry config scope)
          template scope).2.controllers.get? scope.controller.index =
        world.controllers.get? scope.controller.index := by
  set render := world.newRender place registry config scope with new
  set begun : World Client := { world with renders := world.renders.add render }
  have used : begun.inUse behaviour scope.controller = true := by
    have there : render ∈ begun.renders.toList := by simp [begun, Store.add, Store.toList]
    have top : (render.root, { part := .group, scope }) ∈ render.tree.nodes.entries :=
      List.mem_singleton_self _
    refine Bool.or_eq_true_iff.2 (.inr (List.any_eq_true.2 ⟨render, there, ?_⟩))
    exact List.any_eq_true.2 ⟨_, top, beq_self_eq_true _⟩
  have taken : (begun.inUse behaviour scope.controller ||
      decide (begun.controllers.next ≤ scope.controller.index)) = true := by
    rw [used, Bool.true_or]
  have permits : (begun.site behaviour world.nextRender render).Permits
      (BuildState.Spares scope.controller) := fresh.permits taken rfl
  obtain ⟨state, run, data, controllers⟩ : ∃ state,
      Build.Runs ((begun.site behaviour world.nextRender render).node
          (begun.site behaviour world.nextRender render).viewIn template.root scope)
        (begun.buildState render) (world.raise behaviour render template scope).1 state ∧
      (world.raise behaviour render template scope).2.data = state.data ∧
      (world.raise behaviour render template scope).2.controllers = state.controllers :=
    ⟨_, rfl, rfl, rfl⟩
  have spares := permits.element (fun scope => permits.view _ scope) template.root scope _ _ _ run
  rw [data, controllers]
  exact ⟨spares.observers, (spares.controller known).2⟩

/-- What a mounting that failed has not changed: the nodes of all documents, the registrations on all
channels and collections, and the root controller. -/
structure Unmarked (world after : World Client) (controller : ControllerId) : Prop where
  nodes : ∀ place, (after.document place).nodes = (world.document place).nodes
  observers : ∀ source, after.data.observers source = world.data.observers source
  controller : after.controllers.get? controller.index = world.controllers.get? controller.index

/-- A mounting that fails leaves no trace. -/
theorem mount_unmarked {behaviour : Behaviour Client} (fresh : behaviour.Fresh) (sound : world.Sound)
    (there : place.index < world.documents.next) {model : ModelId}
    (inside : model.index < world.data.models.next) {controller : ControllerId}
    (known : controller.index < world.controllers.next) {error : RenderError}
    (failed : world.mount behaviour place registry config template model controller =
      (.error error, after)) :
    world.Unmarked after controller := by
  unfold mount at failed
  split at failed
  · obtain ⟨_, rfl⟩ := Prod.mk.inj failed
    exact ⟨fun _ => rfl, fun _ => rfl, rfl⟩
  · have modelled : ({ model, controller } : Scope).model.index < world.data.models.next := inside
    obtain ⟨document, state, run⟩ :=
      exists_raised behaviour sound registry config template there modelled
    obtain ⟨grown, same⟩ := raise_spares fresh world place registry config template
      { model, controller } known
    dsimp only at failed
    generalize world.raise behaviour _ template _ = result at run grown same failed
    obtain ⟨growth, raised⟩ := result
    dsimp only at run grown same failed
    split at failed
    · obtain ⟨_, rfl⟩ := Prod.mk.inj failed
      obtain ⟨places, _, documents, cancels, _⟩ := run.abandoned sound
      refine ⟨fun other => ?_, run.extends.observers_of_cancels sound.data grown cancels, ?_⟩
      · rw [nextRender] at documents
        rw [World.document, World.document, documents, Store.get?_modify]
        split
        · rename_i here
          rw [here, run.stored]
          rfl
        · rfl
      · rw [← same, abandon, teardown]
        split <;> rfl
    · cases failed

/-- Where all views are registered, a mounting fails only because views are nested too deeply. -/
theorem mount_fails_deep (behaviour : Behaviour Client) (sound : world.Sound) {model : ModelId}
    (inside : model.index < world.data.models.next) {controller : ControllerId}
    (complete : (world.registry registry).missingView? template = none) {error : RenderError}
    (failed : world.mount behaviour place registry config template model controller =
      (.error error, after)) : ∃ name depth, error = .viewDepthExceeded name depth := by
  obtain ⟨frame, own, _, proper⟩ :=
    Registry.exists_frame complete False.elim world.nextRender config False
  obtain ⟨_, _, _, _, serves⟩ :=
    raise_serves behaviour sound place { model, controller } rfl inside own proper
  rw [mount, complete] at failed
  dsimp only at failed
  split at failed
  · rename_i reason
    obtain ⟨same, _⟩ := Prod.mk.inj failed
    obtain rfl := Except.error.inj same
    exact serves.failure _ reason
  · cases failed

/-- Where all views are registered, a mounting fails if and only if a chain of views is longer than
allowed.  What is mounted shows no view more deeply in others. -/
theorem mount_iff_nests (behaviour : Behaviour Client) (sound : world.Sound)
    (there : place.index < world.documents.next) {model : ModelId}
    (inside : model.index < world.data.models.next) (controller : ControllerId)
    (complete : (world.registry registry).Complete template) :
    let result := world.mount behaviour place registry config template model controller
    let nests := (world.setting registry config).Nests (config.maxViewDepth + 1) template.root model
    ((∃ name depth, result.1 = .error (.viewDepthExceeded name depth)) ↔ nests) ∧
      (¬ nests → ∃ id render, result.1 = .ok id ∧ result.2.render? id = some render ∧
        BoundForest.viewDepth render.tree.nodes ≤ config.maxViewDepth) := by
  intro result nests
  have drawn : (world.setting registry config).template config.maxViewDepth template model = none ↔
      nests := Setting.template_eq_none complete config.maxViewDepth model
  have succeeds : ¬ nests → ∃ id after, result = (.ok id, after) := by
    intro shallow
    obtain ⟨picture, found⟩ := Option.ne_none_iff_exists'.1 (mt drawn.1 shallow)
    exact exists_mount behaviour sound place controller inside complete.missingView? found
  refine ⟨⟨?_, fun deep => ?_⟩, fun shallow => ?_⟩
  · rintro ⟨name, depth, failed⟩
    by_contra shallow
    obtain ⟨id, after, same⟩ := succeeds shallow
    rw [same] at failed
    cases failed
  · cases mounted : result.1 with
    | ok id =>
        obtain ⟨_, _, _, picture⟩ := mount_picture behaviour sound registry config template
          controller there inside (show result = (.ok id, result.2) from Prod.ext mounted rfl)
        rw [drawn.2 deep] at picture
        cases picture
    | error error =>
        obtain ⟨name, depth, rfl⟩ := mount_fails_deep behaviour sound inside complete.missingView?
          (show result = (.error error, result.2) from Prod.ext mounted rfl)
        exact ⟨name, depth, rfl⟩
  · obtain ⟨id, after, same⟩ := succeeds shallow
    obtain ⟨frame, render, own, _, _, _, upholds⟩ :=
      mount_upholds behaviour sound there inside same False.elim False fun _ => []
    rw [same]
    refine ⟨id, render, rfl, own.render ▸ upholds.known, ?_⟩
    have deep : ∀ task ∈ [Task.content [.node template.root model 0] []], task.Deep 0 :=
      List.forall_mem_singleton.2 (.content (List.forall_mem_singleton.2 .node))
    have least := upholds.fits.viewDepth_le deep (Nat.zero_le _)
    rwa [own.limit, Nat.sub_zero] at least

/-- Mounting a template ends, whatever views it refers to and whatever models refer to each other, as
long as no collection contains itself: all texts are spelled to their ends.  Where all views are
registered, it fails if and only if it would show a chain of views that is longer than allowed, and
otherwise no view is more deeply in others.  If it fails, it leaves no trace. -/
theorem Conduct.mount_ends {client : Client} (conduct : Conduct { client } world)
    {behaviour : Behaviour Client} (fresh : behaviour.Fresh) (acyclic : world.data.contents.Acyclic)
    (there : place.index < world.documents.next) (registry : RegistryId) (config : RenderConfig)
    (template : Template) {model : ModelId} (inside : model.index < world.data.models.next)
    {controller : ControllerId} (known : controller.index < world.controllers.next) :
    let result := world.mount behaviour place registry config template model controller
    let nests := (world.setting registry config).Nests (config.maxViewDepth + 1) template.root model
    (∀ value : Value, value.Spells world.data.contents (value.displayText world.data.contents)) ∧
      ((world.registry registry).Complete template →
        ((∃ name depth, result.1 = .error (.viewDepthExceeded name depth)) ↔ nests) ∧
          (¬ nests → ∃ id render, result.1 = .ok id ∧ result.2.render? id = some render ∧
            BoundForest.viewDepth render.tree.nodes ≤ config.maxViewDepth)) ∧
      ∀ error, result.1 = .error error → world.Unmarked result.2 controller :=
  ⟨world.data.contents.displayText_spells acyclic,
    mount_iff_nests behaviour conduct.sound there inside controller,
    fun _ failed => mount_unmarked fresh conduct.sound there inside known (Prod.ext failed rfl)⟩

/-! ## A winding staircase

A view that shows itself is given up at the first step that is not allowed.
-/

/-- A step of the stairs, with the next step in it. -/
def stair : Template :=
  ⟨"li", [], [.text (.bound ⟨"name", []⟩), .view "stair"], 1⟩

/-- The stairs, which have no end. -/
def stairs : Template :=
  ⟨"ul", [], [.view "stair"], 1⟩

/-- Client code that does nothing but make a new controller for every view. -/
def hiring : Behaviour Unit where
  value := fun _ _ world => world
  change := fun _ _ world => world
  listen := fun _ event world => (event, world)
  act := fun _ event _ world => (event, world)
  build := fun _ _ controllers client =>
    ((controllers.create (.actions [] none)).1, (controllers.create (.actions [] none)).2, client)
  keeps := fun _ => []

/-- A model with a name, an empty document, the view of a step with its factory, and a controller. -/
def landing : World Unit :=
  { prepared with
    registries := ({} : Store Registry).add { views := [("stair", stair)], factories := [("stair", ⟨0⟩)] }
    controllers := ({} : Controllers).add (.actions [] none) }

theorem hiring_fresh : hiring.Fresh where
  unused := by
    rintro inUse factory controllers client id _ inside rfl
    exact Nat.lt_irrefl _ inside
  kept := by
    intro inUse factory controllers client id _ inside
    show id.index < (controllers.add _).next ∧ (controllers.add _).get? _ = _
    rw [Store.next_add, Store.get?_add, if_neg (Nat.ne_of_lt inside)]
    exact ⟨Nat.lt_succ_of_lt inside, rfl⟩

theorem complete_stairs : (landing.registry ⟨0⟩).Complete stairs := by
  have only : ∀ name, (landing.registry ⟨0⟩).Reaches stairs name → name = "stair" := by
    intro name reached
    induction reached with
    | direct refers => exact List.mem_singleton.1 refers
    | through reached found refers same =>
        subst same
        obtain rfl := Option.some.inj (found.symm.trans (show _ = some stair from rfl))
        exact List.mem_singleton.1 refers
  intro name reached
  obtain rfl := only name reached
  exact ⟨stair, rfl⟩

/-- Three steps are one more than allowed, so that the stairs cannot be mounted, and nothing is left of
the steps that were built. -/
theorem mount_ends_stairs : Conduct { client := () } landing ∧ hiring.Fresh ∧
    landing.data.contents.Acyclic ∧ (landing.registry ⟨0⟩).Complete stairs ∧
    (∃ name depth, (landing.mount hiring ⟨0⟩ ⟨0⟩ { maxViewDepth := 2 } stairs ⟨0⟩ ⟨0⟩).1 =
      .error (.viewDepthExceeded name depth)) ∧
    landing.Unmarked (landing.mount hiring ⟨0⟩ ⟨0⟩ { maxViewDepth := 2 } stairs ⟨0⟩ ⟨0⟩).2 ⟨0⟩ := by
  have conduct : Conduct { client := () } landing :=
    conduct_prepared.trans (.next (@Call.other _ _ landing rfl rfl rfl) (.done _))
  have acyclic : landing.data.contents.Acyclic := by
    intro id chain
    obtain ⟨inner, contains, _⟩ := Relation.TransGen.head'_iff.1 chain
    have none : landing.data.contents.lists.size ≤ id.index := by
      rw [Data.contents_size]
      exact Nat.zero_le _
    rw [Contents.Contains, Contents.items_of_absent none] at contains
    cases contains
  obtain ⟨_, ends, unmarked⟩ := conduct.mount_ends hiring_fresh acyclic (Nat.lt_succ_self 0) ⟨0⟩
    { maxViewDepth := 2 } stairs (Nat.lt_succ_self 0) (Nat.lt_succ_self 0)
  have step : ∀ count, (landing.setting ⟨0⟩ { maxViewDepth := 2 }).Nests count (.view "stair") ⟨0⟩ := by
    intro count
    induction count with
    | zero => exact .nothing
    | succ count induction =>
        exact .view rfl rfl (.inside (List.mem_cons_of_mem _ (List.mem_singleton_self _)) induction)
  obtain ⟨name, depth, failed⟩ :=
    (ends complete_stairs).1.2 (.inside (List.mem_singleton_self _) (step 3))
  exact ⟨conduct, hiring_fresh, acyclic, complete_stairs, ⟨name, depth, failed⟩, unmarked _ failed⟩

end World

end LiveTemplate
