import LiveTemplate.Proofs.Command.Firing
import LiveTemplate.Proofs.Meaning.Lookups

/-!
# Views that were checked are there

A template is checked before it is shown, but its render looks views up as long as it lives: whenever a
condition is fulfilled, an item comes or a path leads to another model.  As long as the views of its
registry stay as they are, none is missing then.  What carries this from one reaction to the next are the
bound nodes: the views that they may have to show are among those that were checked.
-/

namespace LiveTemplate.World

open BoundForest (AllKnown)

variable {Client : Type} {behaviour : Behaviour Client} {world after : World Client}
  {known : String → Prop} {registry : RegistryId} {id : RenderId}

/-- A render has its views from the registry, and its bound nodes mention known views only. -/
def Knows (world : World Client) (known : String → Prop) (registry : RegistryId) (id : RenderId) : Prop :=
  ∃ render, world.render? id = some render ∧ render.registry = registry ∧
    AllKnown known render.tree.nodes

/-- Failures may have been noted in the meantime, but none because a view of the render was missing. -/
def NoneMissing (world after : World Client) (id : RenderId) : Prop :=
  ∃ more, after.failures = world.failures ++ more ∧ ∀ name, (id, .unknownView name) ∉ more

/-- A render still mentions known views only, and none was missing.  Registries are as before. -/
structure Minds (world after : World Client) (known : String → Prop) (registry : RegistryId)
    (id : RenderId) : Prop where
  knows : after.Knows known registry id
  registries : after.registries = world.registries
  missing : world.NoneMissing after id

theorem Knows.place (knows : world.Knows known registry id) {render : Render}
    (there : world.render? id = some render) : render.registry = registry := by
  obtain ⟨found, also, place, _⟩ := knows
  obtain rfl := Option.some.inj (there.symm.trans also)
  exact place

theorem Knows.mentioned (knows : world.Knows known registry id) {name : BoundId} {node : BoundNode Part}
    (found : world.bound? id name = some node) {view : String} (mentions : node.part.Mentions view) :
    known view := by
  obtain ⟨render, there, _, inside⟩ := knows
  rw [bound?, there] at found
  obtain ⟨below, has⟩ := Forest.exists_has_of_label? found
  exact BoundForest.allKnown_iff.1 inside name node below has view mentions

theorem NoneMissing.of_failures (same : after.failures = world.failures) : world.NoneMissing after id :=
  ⟨[], by rw [same, List.append_nil], fun _ => List.not_mem_nil⟩

theorem NoneMissing.trans {last : World Client} (first : world.NoneMissing after id)
    (second : after.NoneMissing last id) : world.NoneMissing last id := by
  obtain ⟨early, noted, quiet⟩ := first
  obtain ⟨late, also, still⟩ := second
  refine ⟨early ++ late, by rw [also, noted, List.append_assoc], fun name member => ?_⟩
  rcases List.mem_append.1 member with before | later
  · exact quiet name before
  · exact still name later

theorem registry_of_registries (same : after.registries = world.registries) :
    after.registry registry = world.registry registry := by
  rw [World.registry, same, World.registry]

theorem Minds.trans {last : World Client} (first : world.Minds after known registry id)
    (second : after.Minds last known registry id) : world.Minds last known registry id :=
  ⟨second.knows, second.registries.trans first.registries, first.missing.trans second.missing⟩

section Reactions

variable (knows : world.Knows known registry id)

include knows

/-- What has to be checked when one render changes, be it this one or another. -/
theorem Minds.of_change {other : RenderId} {change : Render → Render}
    (here : after.render? id =
      if id = other then (world.render? id).map change else world.render? id)
    (place : ∀ render, (change render).registry = render.registry)
    (nodes : ∀ render, id = other → AllKnown known render.tree.nodes →
      AllKnown known (change render).tree.nodes)
    (registries : after.registries = world.registries) (missing : world.NoneMissing after id) :
    world.Minds after known registry id := by
  obtain ⟨render, there, from_, inside⟩ := knows
  refine ⟨?_, registries, missing⟩
  rw [there] at here
  split at here
  · rename_i same
    exact ⟨change render, here, (place render).trans from_, nodes render same inside⟩
  · exact ⟨render, here, from_, inside⟩

/-- No render changes. -/
theorem Minds.aside (renders : after.renders = world.renders)
    (registries : after.registries = world.registries) (failures : after.failures = world.failures) :
    world.Minds after known registry id := by
  refine ⟨?_, registries, .of_failures failures⟩
  rwa [Knows, render?, renders]

theorem Minds.refl : world.Minds world known registry id :=
  .aside knows rfl rfl rfl

theorem modifyTree_minds (other : RenderId) {change : BoundTree Part → BoundTree Part}
    (keeps : ∀ tree, id = other → AllKnown known tree.nodes → AllKnown known (change tree).nodes) :
    world.Minds (world.modifyTree other change) known registry id :=
  .of_change knows (render?_modifyTree world other id change) (fun _ => rfl)
    (fun render same inside => keeps render.tree same inside) rfl (.of_failures rfl)

theorem teardown_minds (other : RenderId) (node : BoundId) :
    world.Minds (world.teardown other node) known registry id := by
  obtain ⟨registries, failures, _⟩ := teardown_others world other node
  exact .of_change knows (render?_teardown world other id node) (fun _ => rfl)
    (fun _ _ inside => inside.prune node) registries (.of_failures failures)

theorem teardownAll_minds (other : RenderId) (nodes : List BoundId) :
    world.Minds (world.teardownAll other nodes) known registry id := by
  induction nodes generalizing world with
  | nil => exact .refl knows
  | cons first later induction =>
      have early := teardown_minds knows other first
      exact early.trans (induction early.knows)

theorem settle_minds (other : RenderId) (switch : BoundId) (decision : Option Bool) :
    world.Minds (world.settle other switch decision) known registry id :=
  modifyTree_minds knows other fun _ _ inside => inside.decided switch decision

/-! ## Building -/

theorem grow_minds {Result : Type} (other : RenderId) (render : Render)
    (steps : Site Client → Build Client Result) :
    world.Minds (world.grow behaviour other render steps).2 known registry id := by
  obtain ⟨state, run⟩ := exists_grown behaviour world other render steps
  exact .of_change knows (run.render? id) (fun _ => rfl) (fun _ _ inside => inside) run.registries
    (.of_failures run.failures)

omit knows in
theorem grow_knows {render : Render} {steps : Site Client → Build Client Growth}
    (closed : (world.registry registry).Closed known) (place : render.registry = registry)
    (builds : ∀ site : Site Client, site.registry.Closed known → Site.Knows known (steps site))
    (other : RenderId) : (world.grow behaviour other render steps).1.Knows known := by
  obtain ⟨state, run⟩ := exists_grown behaviour world other render steps
  have same : (world.site behaviour other render).registry = world.registry registry :=
    congrArg world.registry place
  exact builds _ (same ▸ closed) _ _ _ run.runs

theorem plant_minds {other : RenderId} (render : Render) (reference : NodeId) {growth : Growth}
    {graft : Bindings → BoundTree Part → BoundTree Part} (grows : id = other → growth.Knows known)
    (keeps : ∀ bound tree, AllKnown known bound → AllKnown known tree.nodes →
      AllKnown known (graft bound tree).nodes) :
    world.Minds (world.plant other render reference growth graft) known registry id := by
  refine .of_change knows (render?_modifyRender _ other id _) (fun _ => rfl)
    (fun _ same inside => keeps _ _ (grows same).bound inside) rfl ⟨_, rfl, fun name member => ?_⟩
  obtain ⟨failure, failed, same⟩ := List.mem_map.1 member
  obtain ⟨rfl, rfl⟩ := Prod.mk.inj same
  exact (grows rfl).failure name (Option.mem_toList.1 failed)

/-- Something is built and put below a bound node. -/
theorem built_minds (closed : (world.registry registry).Closed known) {other : RenderId}
    {render : Render} (place : id = other → render.registry = registry)
    (steps : Site Client → Build Client Growth)
    (builds : id = other → ∀ site : Site Client, site.registry.Closed known →
      Site.Knows known (steps site))
    (graft : Bindings → BoundTree Part → BoundTree Part)
    (keeps : ∀ bound tree, AllKnown known bound → AllKnown known tree.nodes →
      AllKnown known (graft bound tree).nodes) (reference : NodeId) :
    world.Minds ((world.grow behaviour other render steps).2.plant other render reference
      (world.grow behaviour other render steps).1 graft) known registry id := by
  have early : world.Minds (world.grow behaviour other render steps).2 known registry id :=
    grow_minds knows other render steps
  exact early.trans (plant_minds early.knows render reference
    (fun same => grow_knows closed (place same) (builds same) other) keeps)

/-! ## Following data -/

theorem fill_minds (closed : (world.registry registry).Closed known) {other : RenderId}
    {render : Render} (place : id = other → render.registry = registry) {directive : Directive}
    (own : id = other → ∀ name, (Part.switch directive none).Mentions name → known name)
    (switch : BoundId) (scope : Scope) (anchor : NodeId) :
    world.Minds (world.fill behaviour other render switch directive scope anchor) known registry id := by
  unfold fill
  refine built_minds knows closed place
    (fun site => site.content site.viewIn (site.body directive.body) switch directive scope)
    (fun same site closed => ?_) (fun bound tree => tree.graft switch bound)
    (fun bound tree built inside => ?_) anchor
  · refine Site.content_knows (fun scope model name => Site.viewIn_knows closed scope model name)
      (own same) (Site.body_knows closed fun node member name mentions => own same name ?_)
    exact .inBody member mentions
  · exact inside.modifyUnder switch fun _ below => below.append built

theorem rebuild_minds (closed : (world.registry registry).Closed known) (other : RenderId)
    (switch : BoundId) : world.Minds (world.rebuild behaviour other switch) known registry id := by
  unfold rebuild
  split
  · rename_i render directive shown anchor ledger scope there found
    dsimp only
    split
    · exact .refl knows
    · generalize Site.decision _ _ _ = decision
      have torn := teardownAll_minds knows other (render.tree.shownBy switch)
      have early := torn.trans (settle_minds torn.knows other switch decision)
      refine early.trans (fill_minds early.knows ?_ ?_ ?_ switch scope anchor)
      · rwa [registry_of_registries early.registries]
      · rintro rfl
        exact knows.place there
      · rintro rfl name mentions
        exact knows.mentioned found mentions
  · exact .refl knows

theorem refresh_minds (closed : (world.registry registry).Closed known) (other : RenderId)
    (root : BoundId) (slot : Nat) :
    world.Minds (world.refresh behaviour other root slot) known registry id := by
  unfold refresh
  split
  · split
    · exact .aside knows rfl rfl rfl
    · split
      · exact rebuild_minds knows closed other root
      · exact .refl knows
  · exact .refl knows

theorem link_minds (render : Render) (observer : PathObserver) (scope : Scope) (value : Value) :
    world.Minds (world.link behaviour render observer scope value) known registry id := by
  unfold link
  obtain ⟨state, run⟩ := exists_grown behaviour world observer.render render fun site =>
    site.watch observer.root observer.slot scope value observer.rest
  have watching := Site.watch_watches run.runs
  have early := @grow_minds _ behaviour _ _ _ _ knows _ observer.render render fun site =>
    site.watch observer.root observer.slot scope value observer.rest
  exact early.trans (modifyTree_minds early.knows observer.render fun _ _ inside =>
    inside.modifyUnder observer.owner fun _ below => below.append watching.allKnown)

theorem relink_minds (observer : PathObserver) (value : Value) :
    world.Minds (world.relink behaviour observer value) known registry id := by
  unfold relink
  split
  · rename_i render owner there found
    have early := teardownAll_minds knows observer.render
      (render.tree.watcher? observer.owner observer.slot).toList
    exact early.trans (link_minds early.knows render observer owner.scope value)
  · exact .refl knows

theorem react_minds (closed : (world.registry registry).Closed known) (observer : PathObserver)
    (value : Value) : world.Minds (world.react behaviour observer value) known registry id := by
  unfold react
  split
  · dsimp only
    split
    · exact refresh_minds knows closed _ _ _
    · have early : world.Minds (world.relink behaviour observer value) known registry id :=
        relink_minds knows observer value
      refine early.trans (refresh_minds early.knows ?_ _ _ _)
      rwa [registry_of_registries early.registries]
  · exact .refl knows

theorem showItems_minds (closed : (world.registry registry).Closed known) (other : RenderId)
    (list : BoundId) (index : Nat) (items : List Value) :
    world.Minds (world.showItems behaviour other list index items) known registry id := by
  unfold showItems
  split
  · rename_i render collection body anchor ledger scope there found
    refine built_minds knows closed ?_ (fun site => Site.items (site.body body) scope items)
      (fun same site closed => ?_) (fun bound tree => tree.graftAt list index bound)
      (fun bound tree built inside => ?_) _
    · rintro rfl
      exact knows.place there
    · subst same
      exact Site.items_knows (Site.body_knows closed fun node member name mentions =>
        knows.mentioned found ⟨node, member, mentions⟩)
    · exact inside.modifyUnder list fun _ below => below.insertAt built index
  · exact .refl knows

theorem splice_minds (closed : (world.registry registry).Closed known) (other : RenderId)
    (list : BoundId) (change : Change) :
    world.Minds (world.splice behaviour other list change) known registry id := by
  have hidden (gone : List BoundId) := teardownAll_minds knows other gone
  have exchanged (gone : List BoundId) (index : Nat) (items : List Value) :
      world.Minds ((world.teardownAll other gone).showItems behaviour other list index items) known
        registry id := by
    refine (hidden gone).trans (showItems_minds (hidden gone).knows ?_ other list index items)
    rwa [registry_of_registries (hidden gone).registries]
  cases change with
  | insert index item => exact showItems_minds knows closed other list index [item]
  | remove index item => exact hidden _
  | update index item => exact exchanged _ index [item]
  | replace items => exact exchanged _ 0 items

theorem tellChange_minds (closed : (world.registry registry).Closed known) (change : Change)
    {observer : ChangeObserver} (own : (Observer.change observer).owner? ≠ none) :
    world.Minds (world.tellChange behaviour change observer) known registry id := by
  cases observer with
  | client hook => exact (own rfl).elim
  | rebuild other content directive =>
      unfold tellChange
      dsimp only
      split
      · exact rebuild_minds knows closed other directive
      · exact .refl knows
  | splice other list => exact splice_minds knows closed other list change

theorem establish_minds {other : RenderId} {growth : Growth}
    (grows : id = other → growth.Knows known) :
    world.Minds (world.establish other growth) known registry id :=
  .of_change knows (render?_modifyRender world other id _) (fun _ => rfl)
    (fun _ same inside => inside.modifyUnder _ fun _ below => below.append (grows same).bound) rfl
    (.of_failures rfl)

theorem Knows.add (render : Render) :
    Knows { world with renders := world.renders.add render } known registry id := by
  obtain ⟨found, there, place, inside⟩ := knows
  have old : id.index ≠ world.renders.next := Nat.ne_of_lt (Store.lt_next_of_get? there)
  refine ⟨found, ?_, place, inside⟩
  rw [render?, Store.get?_add, if_neg old]
  exact there

end Reactions

/-! ## Mounting -/

section Mounting

variable {place : DocumentId} {views : RegistryId} {config : RenderConfig} {template : Template}
  {model : ModelId} {controller : ControllerId} {scope : Scope} {name : String}

/-- A new render mentions no views before something is built. -/
theorem knows_newRender (known : String → Prop) (world : World Client) (place : DocumentId)
    (registry : RegistryId) (config : RenderConfig) (scope : Scope) :
    Knows { world with renders := world.renders.add (world.newRender place registry config scope) }
      known registry world.nextRender := by
  refine ⟨world.newRender place registry config scope, ?_, rfl, ?_⟩
  · rw [render?, Store.get?_add]
    exact if_pos rfl
  · exact .single (fun _ => False.elim) .nil

/-- A render that is added changes itself only. -/
theorem raise_minds {render : Render}
    (knows : Knows { world with renders := world.renders.add render } known registry id)
    (grows : id = world.nextRender → (world.raise behaviour render template scope).1.Knows known) :
    world.Minds (world.raise behaviour render template scope).2 known registry id := by
  have early := @grow_minds _ behaviour _ _ _ _ knows _ world.nextRender render fun site =>
    site.node site.viewIn template.root scope
  have late := early.trans (establish_minds early.knows grows)
  exact ⟨late.knows, late.registries, late.missing⟩

theorem raise_knows {render : Render} (closed : (world.registry registry).Closed known)
    (place : render.registry = registry) (own : ∀ name, template.root.Mentions name → known name) :
    (world.raise behaviour render template scope).1.Knows known := by
  have begun : (World.registry { world with renders := world.renders.add render } registry).Closed
    known := closed
  exact grow_knows begun place (fun site closed => Site.node_knows site
    (fun scope model name => Site.viewIn_knows closed scope model name) template.root scope own) _

/-- Mounting a template, whether or not it succeeds, does not concern other renders. -/
theorem mount_minds (knows : world.Knows known registry id) (place : DocumentId) (views : RegistryId)
    (config : RenderConfig) (template : Template) (model : ModelId) (controller : ControllerId) :
    world.Minds (world.mount behaviour place views config template model controller).2 known registry
      id := by
  have apart : id ≠ world.nextRender := by
    obtain ⟨_, there, _⟩ := knows
    exact ne_nextRender (Option.isSome_iff_exists.2 ⟨_, there⟩)
  unfold mount
  split
  · exact .refl knows
  · have raised := @raise_minds _ behaviour _ _ _ _ template { model, controller } _
      (knows.add (world.newRender place views config { model, controller })) fun same => (apart same).elim
    dsimp only
    generalize world.raise behaviour _ template _ = result at raised
    split
    · have torn := raised.trans (teardown_minds raised.knows world.nextRender
        (world.newRender place views config { model, controller }).root)
      exact torn.trans (.aside torn.knows rfl rfl rfl)
    · exact raised.trans (.aside raised.knows rfl rfl rfl)

/-- A template is refused for a missing view exactly if the check finds it, and then nothing happens. -/
theorem mount_unknownView_iff :
    world.mount behaviour place registry config template model controller =
        (.error (.unknownView name), after) ↔
      (world.registry registry).missingView? template = some name ∧ after = world := by
  unfold mount
  cases missing : (world.registry registry).missingView? template with
  | some found => simp [eq_comm]
  | none =>
      have grown := @raise_knows _ behaviour world _ registry template { model, controller }
        (world.newRender place registry config { model, controller })
        (Registry.closed_of_missingView? missing) rfl fun _ => .direct
      dsimp only
      generalize world.raise behaviour _ template _ = result at grown
      refine ⟨fun mount => ?_, fun refused => nomatch refused.1⟩
      split at mount
      · rename_i error failed
        obtain rfl : error = .unknownView name := by simpa using congrArg Prod.fst mount
        exact (grown.failure name failed).elim
      · cases congrArg Prod.fst mount

/-- A render that has been mounted mentions views that were checked. -/
theorem mount_knows
    (mount : world.mount behaviour place registry config template model controller = (.ok id, after)) :
    ((world.registry registry).Closed ((world.registry registry).Needs template)) ∧
      world.Minds after ((world.registry registry).Needs template) registry id := by
  unfold World.mount at mount
  cases missing : (world.registry registry).missingView? template with
  | some found => simp [missing] at mount
  | none =>
      have closed := Registry.closed_of_missingView? missing
      have grown := @raise_knows _ behaviour world _ registry template { model, controller }
        (world.newRender place registry config { model, controller }) closed rfl fun _ => .direct
      have raised := @raise_minds _ behaviour _ _ _ _ template { model, controller } _
        (knows_newRender ((world.registry registry).Needs template) world place registry config
          { model, controller }) fun _ => grown
      simp only [missing] at mount
      generalize world.raise behaviour _ template _ = result at mount raised
      split at mount
      · cases congrArg Prod.fst mount
      · obtain ⟨named, rfl⟩ := Prod.mk.inj mount
        obtain rfl := Except.ok.inj named
        exact ⟨closed, raised.trans (.aside raised.knows rfl rfl rfl)⟩

/-- A source is refused for a missing view exactly if its template is. -/
theorem mountSource_unknownView_iff {source : String} :
    world.mountSource behaviour place registry config source model controller =
        (.error (.unknownView name), after) ↔
      ∃ template, Template.parse source = .ok template ∧
        (world.registry registry).missingView? template = some name ∧ after = world := by
  unfold mountSource
  cases Template.parse source with
  | error error => simp
  | ok template => simp [mount_unknownView_iff]

/-- A new controller concerns neither data nor documents nor renders. -/
theorem controllerFor_others (behaviour : Behaviour Client) (world : World Client) (registry : RegistryId)
    (view : String) :
    (world.controllerFor behaviour registry view).2.data = world.data ∧
      (world.controllerFor behaviour registry view).2.documents = world.documents ∧
      (world.controllerFor behaviour registry view).2.renders = world.renders ∧
      (world.controllerFor behaviour registry view).2.registries = world.registries := by
  unfold controllerFor
  split <;> exact ⟨rfl, rfl, rfl, rfl⟩

/-- A registered view is refused if it is not there itself or if its template is refused.  Then a
controller may have been made for it, but nothing else. -/
theorem mountView_unknownView {view : String}
    (refused : world.mountView behaviour place registry config view model =
      (.error (.unknownView name), after)) :
    after.data = world.data ∧ after.documents = world.documents ∧ after.renders = world.renders ∧
      (world.registry registry).view? name = none := by
  unfold mountView at refused
  split at refused
  · rename_i absent
    cases refused
    exact ⟨rfl, rfl, rfl, absent⟩
  · rename_i template _
    obtain ⟨data, documents, renders, registries⟩ := controllerFor_others behaviour world registry view
    generalize world.controllerFor behaviour registry view = made
      at data documents renders registries refused
    obtain ⟨missing, rfl⟩ := mount_unknownView_iff.1 refused
    rw [registry_of_registries registries] at missing
    exact ⟨data, documents, renders, (Registry.missingView?_eq_some missing).2⟩

end Mounting

/-! ## Whatever happens -/

section Stories

variable {appointed : Option ControllerId} {start : World Client} {passed : List (Passage Client)}

/-- Whatever happens, a render still mentions known views only, and none is missing. -/
theorem Episode.minds (episode : Episode behaviour world appointed after)
    (closed : (world.registry registry).Closed known) (knows : world.Knows known registry id) :
    after.Knows known registry id ∧ world.NoneMissing after id := by
  have kept (minds : world.Minds after known registry id) := And.intro minds.knows minds.missing
  cases episode with
  | move | addDocument | edit => exact kept (.aside knows rfl rfl rfl)
  | react observer => exact kept (react_minds knows closed observer _)
  | follow _ own => exact kept (tellChange_minds knows closed _ own)
  | @mount _ place views config template model controller _ _ _ mount
  | @fail _ place views config template model controller _ _ _ mount =>
      have minds := @mount_minds _ behaviour _ _ _ _ knows place views config template model controller
      rw [mount] at minds
      exact kept minds
  | unmount other =>
      refine kept ?_
      unfold World.unmount
      split
      · exact teardown_minds knows other _
      · exact .refl knows
  | other data documents renders failures =>
      exact ⟨by rwa [Knows, render?, renders], .of_failures failures⟩

theorem Story.minds (story : Story behaviour start passed world)
    (closed : ∀ passage ∈ passed, (passage.world.registry registry).Closed known)
    (knows : start.Knows known registry id) :
    world.Knows known registry id ∧ start.NoneMissing world id := by
  induction story with
  | done => exact ⟨knows, .of_failures rfl⟩
  | next story episode induction =>
      obtain ⟨here, early⟩ := induction fun passage member =>
        closed passage (List.mem_cons_of_mem _ member)
      obtain ⟨there, late⟩ := episode.minds (closed _ List.mem_cons_self) here
      exact ⟨there, early.trans late⟩

end Stories

/-- The check of a template ends, however views refer to each other.  It succeeds exactly if all views
that are needed are registered, and otherwise it names one that is needed and is not.  A template is
refused for a missing view exactly if the check names it, and then nothing was built and nothing is
registered; the same goes for a source, and for a registered view but for its controller.  If a template
has been mounted, no view was missing, and whatever happens afterwards, as long as the views of its
registry stay as they are, none is missing for its render, which may have to show checked views only. -/
theorem views_complete (behaviour : Behaviour Client) (world : World Client) (place : DocumentId)
    (registry : RegistryId) (config : RenderConfig) (template : Template) (model : ModelId)
    (controller : ControllerId) :
    let views := world.registry registry
    (∀ answer, views.Searches [] template.viewNames answer ↔ views.missingView? template = answer) ∧
    (views.missingView? template = none ↔
      ∀ name, views.Needs template name → ∃ view, views.view? name = some view) ∧
    (∀ name, views.missingView? template = some name →
      views.Needs template name ∧ views.view? name = none) ∧
    (∀ name after, world.mount behaviour place registry config template model controller =
        (.error (.unknownView name), after) ↔
      views.missingView? template = some name ∧ after = world) ∧
    (∀ source name after, world.mountSource behaviour place registry config source model controller =
        (.error (.unknownView name), after) ↔
      ∃ parsed, Template.parse source = .ok parsed ∧ views.missingView? parsed = some name ∧
        after = world) ∧
    (∀ view name after, world.mountView behaviour place registry config view model =
        (.error (.unknownView name), after) →
      after.data = world.data ∧ after.documents = world.documents ∧ after.renders = world.renders ∧
        views.view? name = none) ∧
    ∀ id shown passed after,
      world.mount behaviour place registry config template model controller = (.ok id, shown) →
      Story behaviour shown passed after →
      (∀ passage ∈ passed, (passage.world.registry registry).views = views.views) →
      world.NoneMissing after id ∧ after.Knows (views.Needs template) registry id := by
  intro views
  refine ⟨fun _ => Registry.searches_iff, Registry.missingView?_eq_none,
    fun _ => Registry.missingView?_eq_some, fun _ _ => mount_unknownView_iff,
    fun _ _ _ => mountSource_unknownView_iff, fun _ _ _ => mountView_unknownView, ?_⟩
  intro id shown passed after mount story unchanged
  obtain ⟨closed, minds⟩ := mount_knows mount
  obtain ⟨knows, missing⟩ :=
    story.minds (fun passage member => closed.of_views (unchanged passage member)) minds.knows
  exact ⟨minds.missing.trans missing, knows⟩

/-- The slip is looked up when its folder is opened, and it is there.  If it has been replaced in the
meantime by one that shows what is not registered, that is missing.  A folder for something that is not
registered is refused, although it is closed. -/
theorem views_complete_opened :
    filed.mount counting ⟨0⟩ ⟨0⟩ {} folder ⟨0⟩ ⟨0⟩ = (.ok ⟨0⟩, shelved) ∧
    Story counting shelved [⟨asked, none⟩, ⟨shelved, none⟩] opened ∧
    (filed.registry ⟨0⟩).Needs folder "slip" ∧
    filed.NoneMissing opened ⟨0⟩ ∧ opened.Knows ((filed.registry ⟨0⟩).Needs folder) ⟨0⟩ ⟨0⟩ ∧
    ((asked.modifyRegistry ⟨0⟩ (·.addView "slip" ⟨"p", [], [.view "sheet"], 1⟩)).react counting
      ⟨⟨0⟩, ⟨2⟩, ⟨2⟩, 0, []⟩ (.bool true)).failures = [(⟨0⟩, .unknownView "sheet")] ∧
    filed.mount counting ⟨0⟩ ⟨0⟩ {} ⟨"p", [], [.directive .showIf ⟨"open", []⟩ [.view "sheet"]], 1⟩
      ⟨0⟩ ⟨0⟩ = (.error (.unknownView "sheet"), filed) := by
  have registries := (mount_knows mount_shelved).2.registries
  have unchanged : ∀ passage ∈ [(⟨asked, none⟩ : Passage Nat), ⟨shelved, none⟩],
      (passage.world.registry ⟨0⟩).views = (filed.registry ⟨0⟩).views := by
    intro passage member
    have same : passage.world.registries = filed.registries := by
      rcases List.mem_pair.1 member with rfl | rfl <;> exact registries
    rw [registry_of_registries same]
  obtain ⟨missing, knows⟩ := (views_complete counting filed ⟨0⟩ ⟨0⟩ {} folder ⟨0⟩ ⟨0⟩).2.2.2.2.2.2
    _ _ _ _ mount_shelved story_opened unchanged
  refine ⟨mount_shelved, story_opened, .direct ?_, missing, knows, ?_, ?_⟩
  · exact .inElement List.mem_cons_self (.inBody List.mem_cons_self (.view "slip"))
  · rw [asked, shelved, mount, missingView?_slip rfl]
    decide +kernel
  · have absent : (filed.registry ⟨0⟩).view? "sheet" = none := rfl
    refine ((views_complete counting filed ⟨0⟩ ⟨0⟩ {} _ ⟨0⟩ ⟨0⟩).2.2.2.1 _ _).2 ⟨?_, rfl⟩
    exact Registry.searches_iff.1 (@Registry.Searches.unknown _ _ [] _ List.not_mem_nil absent)

end LiveTemplate.World
