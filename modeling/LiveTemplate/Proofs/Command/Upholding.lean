import LiveTemplate.Proofs.Command.Building
import LiveTemplate.Proofs.View.Company

/-!
# Reactions keep the ranks

A render that is brought up to date tears down, relabels and builds.  What is left keeps its ranks, and
what is built is put below a live bound node, in ranks under that node's controller.  The controllers that
were there are left as they are, except that the root controller of a new render is told of it.
-/

namespace LiveTemplate

open BoundForest (Ranked ranked_append)

variable {Client : Type}

/-- The factory of a registry for a view gives a controller, whoever is in use. -/
def Behaviour.Gives (behaviour : Behaviour Client) (registry : Registry) (name : String)
    (controller : ControllerId) : Prop :=
  ∃ inUse, registry.Gives (behaviour.build inUse) name controller

/-- The bound nodes of a render stand in ranks under one controller, and views are inside. -/
structure BoundForest.Led (posted : BoundId → BoundNode Part → ControllerId → Prop)
    (chief : ControllerId) (nodes : Bindings) : Prop where
  tops : ∀ entry ∈ nodes.crown, entry.2.kind ≠ .view
  ranked : Ranked posted chief nodes

/-- The roster of one render, with the registry that its views come from and its root controller. -/
structure Staff extends Roster where
  render : RenderId
  registry : RegistryId
  chief : ControllerId

/-- The roster holds what is true in the world of views with the numbers from `start` on. -/
structure Staff.Takes (staff : Staff) (behaviour : Behaviour Client) (world : World Client)
    (start : Nat) : Prop where
  given : ∀ (id : BoundId) name controller, start ≤ id.index →
    behaviour.Gives (world.registry staff.registry) name controller → staff.given id name controller
  vacant : ∀ (id : BoundId) name, start ≤ id.index →
    (world.registry staff.registry).factory? name = none → staff.vacant id name
  kept : ∀ (id : BoundId) controller, start ≤ id.index → ¬ staff.lent id controller

section Takes

variable {staff : Staff} {behaviour : Behaviour Client} {world after : World Client} {start : Nat}

theorem Staff.Takes.later (takes : staff.Takes behaviour world start)
    (registries : after.registries = world.registries) : staff.Takes behaviour after start := by
  have same : after.registry staff.registry = world.registry staff.registry := by
    rw [World.registry, registries, World.registry]
  exact ⟨same ▸ takes.given, same ▸ takes.vacant, takes.kept⟩

theorem Staff.Takes.covers (takes : staff.Takes behaviour world start) {render : Render}
    (id : RenderId) (registry : render.registry = staff.registry)
    (inherits : render.config.inheritsController = staff.inherits) :
    staff.Covers (world.site behaviour id render) start := by
  have same : (world.site behaviour id render).registry = world.registry staff.registry :=
    congrArg world.registry registry
  exact ⟨inherits.symm, fun id name controller new gives =>
    takes.given id name controller new ⟨_, same ▸ gives⟩, same ▸ takes.vacant, takes.kept⟩

end Takes

namespace World

variable {world after : World Client} {staff : Staff} {behaviour : Behaviour Client} {start : Nat}
  {id : RenderId} {render current : Render}

/-- How many numbers have been given to bound nodes of a render. -/
def numbered (world : World Client) (id : RenderId) : Nat :=
  ((world.render? id).map (·.tree.next)).getD 0

theorem numbered_of_render? (known : world.render? id = some render) :
    world.numbered id = render.tree.next := by
  rw [numbered, known]
  rfl

/-- The root controller is at the top, and unless something could not be built, everything in the render
stands in ranks under it. -/
structure Staffed (world : World Client) (staff : Staff) : Prop where
  chief : ∃ controller, world.controllers.get? staff.chief.index = some controller ∧
    controller.parent? = none
  place : ∀ render, world.render? staff.render = some render →
    render.registry = staff.registry ∧ render.config.inheritsController = staff.inherits
  ranked : (∀ error, (staff.render, error) ∉ world.failures) → ∀ render,
    world.render? staff.render = some render →
      BoundForest.Led (staff.Posted world.controllers) staff.chief render.tree.nodes

theorem Staffed.known (staffed : world.Staffed staff) :
    staff.chief.index < world.controllers.next := by
  obtain ⟨_, stored, _⟩ := staffed.chief
  exact Store.lt_next_of_get? stored

/-- The world goes on, and a render stays in its place.  What is gone from it does not come back. -/
structure Lasts (world after : World Client) (id : RenderId) : Prop where
  present : (world.render? id).isSome = true → (after.render? id).isSome = true
  numbering : world.numbered id ≤ after.numbered id
  lasting : ∀ name : BoundId, name.index < world.numbered id → after.isLive id name = true →
    world.isLive id name = true

theorem Lasts.of_same (here : after.render? id = world.render? id) : world.Lasts after id where
  present := fun present => here ▸ present
  numbering := by rw [numbered, numbered, here]
  lasting := fun name _ live => by rwa [isLive, bound?, here] at live

theorem Lasts.trans {last : World Client} (first : world.Lasts after id) (second : after.Lasts last id) :
    world.Lasts last id where
  present := fun present => second.present (first.present present)
  numbering := first.numbering.trans second.numbering
  lasting := fun name old live =>
    first.lasting name old (second.lasting name (old.trans_le first.numbering) live)

/-- The render keeps its ranks. -/
structure Retains (world after : World Client) (staff : Staff) : Prop
    extends World.Lasts world after staff.render where
  failures : world.failures <+: after.failures
  staffed : world.Staffed staff → after.Staffed staff

theorem Retains.refl (world : World Client) (staff : Staff) : world.Retains world staff :=
  ⟨.of_same rfl, List.prefix_refl _, fun staffed => staffed⟩

theorem Retains.trans {last : World Client} (first : world.Retains after staff)
    (second : after.Retains last staff) : world.Retains last staff :=
  ⟨first.toLasts.trans second.toLasts, first.failures.trans second.failures,
    fun staffed => second.staffed (first.staffed staffed)⟩

theorem isLive_iff (known : world.render? id = some render) {name : BoundId} :
    world.isLive id name = true ↔ name ∈ render.tree.nodes.names := by
  rw [isLive, bound?, known]
  exact Forest.label?_isSome_iff

/-- What has to be checked when a render changes while controllers may come. -/
theorem Retains.of_change {change : Render → Render}
    (here : after.render? staff.render = (world.render? staff.render).map change)
    (place : ∀ render, (change render).registry = render.registry ∧
      (change render).config = render.config)
    (next : ∀ render, world.render? staff.render = some render →
      render.tree.next ≤ (change render).tree.next)
    (names : ∀ render, world.render? staff.render = some render →
      ∀ name ∈ (change render).tree.nodes.names,
        name ∈ render.tree.nodes.names ∨ render.tree.next ≤ name.index)
    (failures : world.failures <+: after.failures)
    (controllers : world.controllers.Extends after.controllers)
    (led : world.Staffed staff → (∀ error, (staff.render, error) ∉ after.failures) → ∀ render,
      world.render? staff.render = some render →
        BoundForest.Led (staff.Posted world.controllers) staff.chief render.tree.nodes →
          BoundForest.Led (staff.Posted after.controllers) staff.chief
            (change render).tree.nodes) : world.Retains after staff := by
  cases known : world.render? staff.render with
  | none =>
      rw [known, Option.map_none] at here
      refine ⟨.of_same (here.trans known.symm), failures, fun staffed => ⟨?_, ?_, ?_⟩⟩
      · obtain ⟨controller, stored, parent⟩ := staffed.chief
        exact ⟨controller, controllers.of_get? stored, parent⟩
      · simp [here]
      · simp [here]
  | some render =>
      rw [known, Option.map_some] at here
      refine ⟨⟨fun _ => by rw [here]; rfl, ?_, ?_⟩, failures, fun staffed => ⟨?_, ?_, ?_⟩⟩
      · rw [numbered_of_render? known, numbered_of_render? here]
        exact next render known
      · intro name old live
        rw [numbered_of_render? known] at old
        rw [isLive_iff here] at live
        rw [isLive_iff known]
        exact (names render known name live).resolve_right (by omega)
      · obtain ⟨controller, stored, parent⟩ := staffed.chief
        exact ⟨controller, controllers.of_get? stored, parent⟩
      · intro changed also
        obtain rfl := Option.some.inj (here.symm.trans also)
        rw [(place render).1, (place render).2]
        exact staffed.place render known
      · intro quiet changed also
        obtain rfl := Option.some.inj (here.symm.trans also)
        refine led staffed quiet render known (staffed.ranked (fun error noted => ?_) render known)
        exact quiet error (failures.subset noted)

/-- Another render is concerned. -/
theorem Retains.aside (here : after.render? staff.render = world.render? staff.render)
    (failures : world.failures <+: after.failures)
    (controllers : world.controllers.Extends after.controllers) : world.Retains after staff := by
  refine @Retains.of_change _ _ _ _ (fun render => render) ?_ (fun _ => ⟨rfl, rfl⟩) (fun _ _ => le_rfl)
    (fun _ _ _ member => .inl member) failures controllers fun _ _ _ _ led => ?_
  · rw [here, Option.map_id']
  · exact ⟨led.tops, led.ranked.extended controllers⟩

/-! ## Tearing down and relabelling -/

theorem teardown_others (world : World Client) (id : RenderId) (node : BoundId) :
    (world.teardown id node).registries = world.registries ∧
      (world.teardown id node).failures = world.failures ∧
      (world.teardown id node).controllers = world.controllers := by
  unfold teardown
  split <;> exact ⟨rfl, rfl, rfl⟩

theorem teardown_retains (world : World Client) (staff : Staff) (id : RenderId) (node : BoundId) :
    world.Retains (world.teardown id node) staff := by
  obtain ⟨_, failures, controllers⟩ := teardown_others world id node
  have here := render?_teardown world id staff.render node
  have extended : world.controllers.Extends (world.teardown id node).controllers :=
    controllers ▸ .refl _
  split at here
  · refine .of_change here (fun _ => ⟨rfl, rfl⟩) (fun _ _ => le_rfl) (fun render _ name member => ?_)
      (failures ▸ List.prefix_refl _) extended fun _ _ render _ led => ⟨?_, ?_⟩
    · dsimp only at member
      rw [Forest.prune_eq_without] at member
      exact .inl ((Forest.names_without_sublist _ _).subset member)
    · exact fun entry member =>
        led.tops entry ((Forest.crown_prune_sublist _ _).subset member)
    · rw [Forest.prune_eq_without]
      exact (led.ranked.without _).extended extended
  · exact .aside here (failures ▸ List.prefix_refl _) extended

theorem teardownAll_retains (world : World Client) (staff : Staff) (id : RenderId)
    (nodes : List BoundId) : world.Retains (world.teardownAll id nodes) staff := by
  induction nodes generalizing world with
  | nil => exact .refl world staff
  | cons first later induction =>
      exact (teardown_retains world staff id first).trans (induction (world.teardown id first))

theorem teardownAll_registries (world : World Client) (id : RenderId) (nodes : List BoundId) :
    (world.teardownAll id nodes).registries = world.registries := by
  induction nodes generalizing world with
  | nil => rfl
  | cons first later induction =>
      exact (induction (world.teardown id first)).trans (teardown_others world id first).1

theorem decided_view {node : BoundNode Part} (decision : Option Bool) (name : String)
    (part : node.part = .view name) : (node.decided decision).part = .view name := by
  unfold BoundNode.decided
  rw [part]
  exact part

theorem settle_retains (world : World Client) (staff : Staff) (id : RenderId) (switch : BoundId)
    (decision : Option Bool) : world.Retains (world.settle id switch decision) staff := by
  have here := render?_modifyTree world id staff.render fun tree =>
    { tree with nodes := tree.nodes.modify switch (·.decided decision) }
  have same (node : BoundNode Part) := decided_same node decision
  split at here
  · refine .of_change here (fun _ => ⟨rfl, rfl⟩) (fun _ _ => le_rfl) (fun render _ name member => ?_)
      (List.prefix_refl _) (.refl _) fun _ _ render _ led => ⟨fun entry member => ?_, ?_⟩
    · exact .inl (by rwa [← Forest.names_modify render.tree.nodes switch])
    · rw [Forest.crown_modify] at member
      obtain ⟨former, listed, rfl⟩ := List.mem_map.1 member
      dsimp only
      split
      · rw [(same _).1]
        exact led.tops former listed
      · exact led.tops former listed
    · exact led.ranked.modify switch (fun node => (same node).2.2.2) fun id node outer posted =>
        posted.relabel (same node).2.2.2 (same node).1 fun name => decided_view decision name
  · exact .aside here (List.prefix_refl _) (.refl _)

/-! ## Building -/

theorem mem_names_modifyUnder {forest : Bindings} {target : BoundId} {change : Bindings → Bindings}
    {added : List BoundId}
    (adds : ∀ below, ∀ name ∈ (change below).names, name ∈ below.names ∨ name ∈ added) :
    ∀ name ∈ (forest.modifyUnder target change).names, name ∈ forest.names ∨ name ∈ added := by
  induction forest with
  | nil => exact fun _ member => .inl member
  | cons id node below rest inner beside =>
      intro name member
      simp only [Forest.modifyUnder, Forest.names_cons, List.mem_cons, List.mem_append] at member ⊢
      rcases member with rfl | member | member
      · exact .inl (.inl rfl)
      · split at member
        · exact (adds below name member).imp_left fun old => .inr (.inl old)
        · exact (inner name member).imp_left fun old => .inr (.inl old)
      · exact (beside name member).imp_left fun old => .inr (.inr old)

/-- Bound nodes that were built for the controller of a live node come below that one. -/
theorem grafted_retains {grown : World Client} {state : BuildState Client} {bound page : _}
    {parent : BoundId} {node : BoundNode Part} {below : Bindings}
    {change : Bindings → Bindings} {created : Render → List NodeId} (sound : world.Sound)
    (known : world.render? id = some current)
    (has : Forest.Has current.tree.nodes parent node below)
    (grows : Build.Grows id (world.buildState current) state [] page bound)
    (entries : ∀ below, (change below).entries.Perm (below.entries ++ bound.entries))
    (here : ∀ other, grown.render? other = if other = id then (world.render? other).map fun render =>
      { render with
        tree := ⟨render.tree.nodes.modifyUnder parent change, state.nextBound⟩
        created := created render } else world.render? other)
    (failures : world.failures <+: grown.failures)
    (controllers : grown.controllers = state.controllers)
    (extended : world.controllers.Extends state.controllers)
    (ranked : id = staff.render → world.Staffed staff →
      (∀ error, (staff.render, error) ∉ grown.failures) →
      node.scope.controller.index < world.controllers.next → ∀ below,
        Ranked (staff.Posted state.controllers) node.scope.controller below →
        Ranked (staff.Posted state.controllers) node.scope.controller (change below)) :
    world.Retains grown staff := by
  have there := here staff.render
  split at there
  · rename_i same
    subst same
    obtain ⟨_, _, own⟩ := sound.renders _ current known
    refine .of_change there (fun _ => ⟨rfl, rfl⟩) ?_ ?_ failures (controllers ▸ extended) ?_
    · intro render also
      obtain rfl := Option.some.inj (known.symm.trans also)
      exact grows.makes.numbering
    · intro render also name member
      obtain rfl := Option.some.inj (known.symm.trans also)
      refine (mem_names_modifyUnder (fun below name listed => ?_) name member).imp_right fun new =>
        (grows.makes.numbered name new).1
      have both := ((entries below).map Prod.fst).subset listed
      rwa [List.map_append, List.mem_append] at both
    · -- The only place that changes is below the parent, whose controller is the one to stand under.
      intro staffed quiet render also led
      obtain rfl := Option.some.inj (known.symm.trans also)
      refine ⟨fun entry member => led.tops entry (by simpa using member), ?_⟩
      have inside := (led.ranked.known staffed.known _ has.mem_entries).2
      rw [controllers]
      refine (led.ranked.extended extended).modifyUnder fun label under member lower => ?_
      obtain ⟨deeper, found⟩ := Forest.has_iff_mem_entries.2 member
      obtain ⟨rfl, _⟩ := has.unique own.distinct found
      exact ranked rfl staffed quiet inside under lower
  · exact .aside there failures (controllers ▸ extended)

theorem grow_controllers {Result : Type} {steps : Site Client → Build Client Result}
    {state : BuildState Client} (run : Grown behaviour world id render steps
      (world.grow behaviour id render steps).1 (world.grow behaviour id render steps).2 state) :
    (world.grow behaviour id render steps).2.controllers = state.controllers := by
  rw [← (Prod.mk.inj run.runs).2]
  rfl

/-- The renders after something has been built. -/
theorem Grown.render? {Result : Type} {steps : Site Client → Build Client Result} {result : Result}
    {grown : World Client} {state : BuildState Client}
    (run : Grown behaviour world id current steps result grown state) (other : RenderId) :
    grown.render? other = if other = id then (world.render? other).map fun render =>
      { render with tree := { render.tree with next := state.nextBound } } else world.render? other := by
  rw [← render?_modifyRender world id other, World.render?, run.renders]
  rfl

/-- The renders after bound nodes that were built have come below another, and perhaps document nodes with
them. -/
theorem Grown.grafted_render? {Result : Type} {steps : Site Client → Build Client Result}
    {result : Result} {grown grafted : World Client} {state : BuildState Client} {parent : BoundId}
    {change : Bindings → Bindings} (run : Grown behaviour world id current steps result grown state)
    (created : Render → List NodeId)
    (renders : grafted.renders = grown.renders.modify id.index fun render =>
      { render with
        tree := { render.tree with nodes := render.tree.nodes.modifyUnder parent change }
        created := created render }) (other : RenderId) :
    grafted.render? other = if other = id then (world.render? other).map fun render =>
      { render with
        tree := ⟨render.tree.nodes.modifyUnder parent change, state.nextBound⟩
        created := created { render with tree := { render.tree with next := state.nextBound } } }
      else world.render? other := by
  have former := run.render? other
  rw [World.render?, renders]
  show (grown.modifyRender id _).render? other = _
  rw [render?_modifyRender, former]
  split
  · rw [Option.map_map]
    rfl
  · rfl

/-- What has been built for the controller of a live node comes below that one; a failure is noted. -/
theorem plant_retains (hires : behaviour.Hires) (sound : world.Sound)
    (takes : staff.Takes behaviour world start) (started : start ≤ world.numbered staff.render)
    (known : world.render? id = some current) {parent : BoundId} {node : BoundNode Part}
    {below : Bindings} (has : Forest.Has current.tree.nodes parent node below) {reference : NodeId}
    {steps : Site Client → Build Client Growth} {growth : Growth} {grown : World Client}
    {state : BuildState Client} (run : Grown behaviour world id current steps growth grown state)
    (controllers : grown.controllers = state.controllers)
    (passes : ∀ site, HiresFresh site.build → Build.Respects BuildState.Precedes (steps site))
    (ranks : ∀ site, HiresFresh site.build → staff.Covers site start →
      Site.Ranks staff.toRoster start node.scope.controller (steps site))
    (grows : Build.Grows id (world.buildState current) state [] growth.page growth.bound)
    {change : Bindings → Bindings}
    (entries : ∀ below, (change below).entries.Perm (below.entries ++ growth.bound.entries))
    (inserts : ∀ posted outer below, Ranked posted outer below → Ranked posted outer growth.bound →
      Ranked posted outer (change below)) :
    world.Retains (grown.plant id current reference growth fun _ tree =>
      { tree with nodes := tree.nodes.modifyUnder parent change }) staff := by
  have passed := passes _ (hires _) _ _ _ run.runs
  refine grafted_retains sound known has grows entries (run.grafted_render? _ rfl) ?_
    controllers passed.controllers ?_
  · show world.failures <+: grown.failures ++ _
    rw [run.failures]
    exact List.prefix_append _ _
  · rintro rfl staffed quiet inside below lower
    have succeeded : growth.failure = none := by
      cases failed : growth.failure with
      | none => rfl
      | some error =>
          refine (quiet error ?_).elim
          show _ ∈ grown.failures ++ growth.failure.toList.map _
          rw [failed]
          exact List.mem_append_right _ (List.mem_singleton_self _)
    obtain ⟨registry, inherits⟩ := staffed.place current known
    have built := ranks _ (hires _) (takes.covers staff.render registry inherits) _ _ _ run.runs
      (started.trans (numbered_of_render? known).le) inside succeeded
    exact inserts _ _ _ lower built

section Reactions

variable (hires : behaviour.Hires) (sound : world.Sound)
  (takes : staff.Takes behaviour world start) (started : start ≤ world.numbered staff.render)

include hires sound takes started

theorem fill_retains (known : world.render? id = some current) (alike : Alike render current)
    {switch : BoundId} {directive : Directive} {shown : Option Bool} {anchor : NodeId}
    {ledger : List Subscription} {scope : Scope} {below : Bindings}
    (has : Forest.Has current.tree.nodes switch ⟨.switch directive shown, some anchor, ledger, scope⟩
      below) : world.Retains (world.fill behaviour id render switch directive scope anchor) staff := by
  obtain ⟨_, _, own⟩ := sound.renders id current known
  have inside : scope.model.index < world.data.models.next := own.scopes _ has.mem_entries
  unfold fill
  rw [grow_alike alike]
  obtain ⟨after, run⟩ := exists_grown behaviour world id current fun site =>
    site.content site.viewIn (site.body directive.body) switch directive scope
  obtain ⟨grows, _⟩ := Site.content_grows
    (fun scope => (world.site behaviour id current).view_grows _ scope)
    (body_grower _ directive.body) run.runs sound.data inside
  have controllers := grow_controllers run
  generalize world.grow behaviour id current _ = result at run grows controllers ⊢
  obtain ⟨growth, grown⟩ := result
  show world.Retains (grown.plant id render anchor growth _) staff
  rw [plant_congr alike.document]
  exact plant_retains hires sound takes started known has run controllers
    (fun _ hires => hires.permits.content (Site.body_passes hires _) (Site.viewIn_passes hires) switch
      directive scope)
    (fun _ hires covers => Site.content_ranks (Site.viewIn_ranks hires covers)
      (Site.body_ranks hires covers _) (Site.body_passes hires _) hires.permits switch directive scope)
    grows (fun below => by rw [Forest.entries_append])
    fun _ _ _ lower built => ranked_append.2 ⟨lower, built⟩

theorem rebuild_retains (id : RenderId) (switch : BoundId) :
    world.Retains (world.rebuild behaviour id switch) staff := by
  unfold rebuild
  split
  · rename_i render directive shown anchor ledger scope known found
    dsimp only
    split
    · exact .refl world staff
    · obtain ⟨_, below, also, _, has⟩ := bound?_has sound found
      obtain rfl := Option.some.inj (known.symm.trans also)
      generalize Site.decision _ _ _ = decision
      obtain ⟨cleared, _, _, current, alike, labelled, _⟩ := cleared_kept sound known has decision
      have early := (teardownAll_retains world staff id (render.tree.shownBy switch)).trans
        (settle_retains _ staff id switch decision)
      exact early.trans (fill_retains hires cleared.sound (takes.later (teardownAll_registries ..))
        (started.trans early.numbering) current alike labelled)
  · exact .refl world staff

theorem showItems_retains (id : RenderId) (list : BoundId) (index : Nat) {items : List Value}
    (refers : ∀ item ∈ items, world.data.Refers item) :
    world.Retains (world.showItems behaviour id list index items) staff := by
  unfold showItems
  split
  · rename_i render collection body anchor ledger scope known found
    obtain ⟨_, below, also, _, has⟩ := bound?_has sound found
    obtain rfl := Option.some.inj (known.symm.trans also)
    obtain ⟨_, _, own⟩ := sound.renders id render known
    have inside : scope.model.index < world.data.models.next := own.scopes _ has.mem_entries
    obtain ⟨after, run⟩ := exists_grown behaviour world id render fun site =>
      Site.items (site.body body) scope items
    have grows := Site.items_grows (body_grower (world.site behaviour id render) body) run.runs
      sound.data inside refers
    have controllers := grow_controllers run
    dsimp only
    generalize world.grow behaviour id render _ = result at run grows controllers ⊢
    obtain ⟨growth, grown⟩ := result
    exact plant_retains hires sound takes started known has run controllers
      (fun _ hires => hires.permits.items (Site.body_passes hires _) scope items)
      (fun _ hires covers => Site.items_ranks (Site.body_ranks hires covers _)
        (Site.body_passes hires _) hires.permits scope items)
      grows (fun below => insertAt_entries below growth.bound index)
      fun _ _ _ lower built => lower.insertAt index built
  · exact .refl world staff

theorem splice_retains (id : RenderId) (list : BoundId) {change : Change}
    (refers : world.data.RefersIn change) :
    world.Retains (world.splice behaviour id list change) staff := by
  have hidden (gone : List BoundId) := teardownAll_retains world staff id gone
  cases change with
  | insert index item =>
      exact showItems_retains hires sound takes started id list index fun other member => by
        rwa [List.mem_singleton.1 member]
  | remove index item => exact hidden _
  | update index item =>
      have kept := hideItem_kept sound id list index
      have early : world.Retains (world.hideItem id list index) staff := hidden _
      show world.Retains ((world.hideItem id list index).showItems behaviour id list index [item]) staff
      exact early.trans (showItems_retains hires kept.sound (takes.later (teardownAll_registries ..))
        (started.trans early.numbering) id list index fun other member => by
          rw [List.mem_singleton.1 member]
          exact kept.agrees.refers.2 refers)
  | replace items =>
      have kept := hideItems_kept sound id list
      have early : world.Retains (world.hideItems id list) staff := hidden _
      exact early.trans (showItems_retains hires kept.sound (takes.later (teardownAll_registries ..))
        (started.trans early.numbering) id list 0 fun other member =>
          kept.agrees.refers.2 (refers other member))

theorem tellChange_retains {change : Change} (refers : world.data.RefersIn change)
    {observer : ChangeObserver} (own : (Observer.change observer).owner? ≠ none) :
    world.Retains (world.tellChange behaviour change observer) staff := by
  cases observer with
  | client hook => exact (own rfl).elim
  | rebuild id content directive =>
      unfold tellChange
      dsimp only
      split
      · exact rebuild_retains hires sound takes started id directive
      · exact .refl world staff
  | splice id list => exact splice_retains hires sound takes started id list refers

theorem refresh_retains (id : RenderId) (root : BoundId) (slot : Nat) :
    world.Retains (world.refresh behaviour id root slot) staff := by
  unfold refresh
  split
  · split
    · exact .aside rfl (List.prefix_refl _) (.refl _)
    · split
      · exact rebuild_retains hires sound takes started id root
      · exact .refl world staff
  · exact .refl world staff

omit takes started in
/-- A path is followed by nodes that are no views. -/
theorem link_retains {observer : PathObserver} {node : BoundNode Part} {below : Bindings} {value : Value}
    (known : world.render? observer.render = some current) (alike : Alike render current)
    (has : Forest.Has current.tree.nodes observer.owner node below)
    (refers : world.data.Refers value) :
    world.Retains (world.link behaviour render observer node.scope value) staff := by
  unfold link
  rw [grow_alike alike]
  obtain ⟨after, run⟩ := exists_grown behaviour world observer.render current fun site =>
    site.watch observer.root observer.slot node.scope value observer.rest
  obtain ⟨grows, _⟩ := Site.watch_grows run.runs sound.data refers
  have plain := Site.watch_plain run.runs
  have passed := (hires _).permits.watch observer.root observer.slot node.scope value observer.rest _ _ _
    run.runs
  have controllers := grow_controllers run
  generalize world.grow behaviour observer.render current _ = result at run grows plain controllers ⊢
  obtain ⟨watches, grown⟩ := result
  exact grafted_retains sound known has grows (fun below => by rw [Forest.entries_append])
    (run.grafted_render? (·.created) rfl) (run.failures ▸ List.prefix_refl _) controllers
    passed.controllers fun _ _ _ _ below lower =>
      ranked_append.2 ⟨lower, BoundForest.ranked_of_plain plain⟩

omit takes started in
theorem relink_retains (observer : PathObserver) {value : Value} (refers : world.data.Refers value) :
    world.Retains (world.relink behaviour observer value) staff := by
  unfold relink
  split
  · rename_i render owner known found
    obtain ⟨_, below, also, distinct, has⟩ := bound?_has sound found
    obtain rfl := Option.some.inj (known.symm.trans also)
    have watching := sound.watcher? known has observer.slot
    generalize (render.tree.watcher? observer.owner observer.slot).toList = kids at watching ⊢
    have torn := teardownAll_kept sound fun kid member => (watching kid member).2
    have current := render?_teardownAll world observer.render observer.render kids
    rw [if_pos rfl, known, Option.map_some] at current
    have left := has.without_below distinct fun kid member => (watching kid member).1
    exact (teardownAll_retains world staff observer.render kids).trans (link_retains hires torn.sound
      current ⟨rfl, rfl, rfl, rfl⟩ left (torn.agrees.refers.2 refers))
  · exact .refl world staff

theorem react_retains (observer : PathObserver) {value : Value} (refers : world.data.Refers value) :
    world.Retains (world.react behaviour observer value) staff := by
  unfold react
  split
  · dsimp only
    split
    · exact refresh_retains hires sound takes started ..
    · have kept := relink_kept behaviour sound observer refers
      have early := @relink_retains _ _ staff _ hires sound observer value refers
      have registries := (relink_concerns behaviour sound observer refers).registries
      exact early.trans (refresh_retains hires kept.sound (takes.later registries)
        (started.trans early.numbering) ..)
  · exact .refl world staff

end Reactions

end World

end LiveTemplate
