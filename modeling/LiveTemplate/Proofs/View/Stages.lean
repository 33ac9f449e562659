import LiveTemplate.Proofs.Forest.Regrowth
import LiveTemplate.Proofs.View.Progress
import LiveTemplate.Proofs.View.Reachable

/-!
# What a reaction comes to

A reaction exchanges one bound node of a render: what is below the node is put in the place of what
was there.  Each kind of reaction is described by that exchange and by what was built on the way.
Nothing but the render itself is concerned.
-/

namespace LiveTemplate

namespace Document

variable {document : Document} {node : NodeId} {found : NodeData}

theorem Sound.data?_eq (sound : document.Sound) (member : (node, found) ∈ document.nodes.entries) :
    document.data? node = some found := by
  obtain ⟨_, has⟩ := Forest.has_iff_mem_entries.2 member
  exact has.label?_eq sound.distinct

end Document

namespace World

open BoundForest (skeleton shown)

variable {Client : Type} {world middle after : World Client} {id : RenderId}
  {render current changed : Render} {behaviour : Behaviour Client}

/-- Nothing but one render is concerned. -/
structure Concerns (world after : World Client) (id : RenderId) : Prop where
  kept : world.Kept after
  data : world.data.Recalls after.data
  there : ∀ other, other ≠ id → after.render? other = world.render? other
  looks : ∀ other render, other ≠ id → world.render? other = some render →
    ∀ node ∈ render.created, ∀ found, (after.document render.document).data? node = some found →
      (world.document render.document).data? node = some found
  registries : after.registries = world.registries
  failures : world.failures <+: after.failures

theorem Concerns.refl (sound : world.Sound) (id : RenderId) : world.Concerns world id :=
  ⟨.refl sound, .refl _, fun _ _ => rfl, fun _ _ _ _ _ _ _ there => there, rfl, List.prefix_refl _⟩

theorem Concerns.trans {last : World Client} (first : world.Concerns after id)
    (second : after.Concerns last id) : world.Concerns last id where
  kept := first.kept.trans second.kept
  data := first.data.trans second.data
  there := fun other differs => (second.there other differs).trans (first.there other differs)
  looks := fun other render differs known node made found there =>
    first.looks other render differs known node made found
      (second.looks other render differs ((first.there other differs).trans known) node made found
        there)
  registries := second.registries.trans first.registries
  failures := first.failures.trans second.failures

theorem Progress.concerns (progress : world.Progress after id render changed) (sound : world.Sound)
    (tidy : after.Sound) : world.Concerns after id where
  kept := ⟨tidy, progress.agrees⟩
  data := progress.data
  there := progress.there
  looks := by
    intro other another _ known node made found there
    obtain ⟨document, stored, own⟩ := sound.renders other another known
    refine (progress.documents another.document).data node found ?_ there
    rw [document_eq stored]
    exact own.mirrors.issued node made
  registries := progress.registries
  failures := progress.failures

/-! ## Built on the way -/

/-- Building for a render starts on the way from a world. -/
structure Building (world : World Client) (id : RenderId) (render : Render) (site : Site Client)
    (before : BuildState Client) : Prop where
  config : site.config = render.config
  registry : site.registry = world.registry render.registry
  own : site.render = id
  sound : before.data.Sound
  agrees : world.data.Agrees before.data
  numbers : ∀ source, world.data.nextNumber source ≤ before.data.nextNumber source
  places : ∀ dom, (world.document render.document).places.Issued dom → before.places.Issued dom
  next : render.tree.next ≤ before.nextBound

/-- Something was built for a render on the way from one world to another, and it is there. -/
structure Built {Result : Type} (world after : World Client) (id : RenderId) (render : Render)
    (steps : Site Client → Build Client Result) (result : Result) (page : Forest NodeId NodeData) :
    Prop where
  runs : ∃ site before later, world.Building id render site before ∧
    Build.Runs (steps site) before result later ∧ after.data = later.data
  shown : ∀ dom data, (dom, data) ∈ page.entries →
    (after.document render.document).data? dom = some data

theorem Built.later {Result : Type} {steps : Site Client → Build Client Result} {result : Result}
    {page : Forest NodeId NodeData} (progress : world.Progress middle id render current)
    (built : Built middle after id current steps result page) :
    Built world after id render steps result page where
  runs := by
    obtain ⟨site, before, later, building, runs, data⟩ := built.runs
    refine ⟨site, before, later, ⟨?_, ?_, building.own, building.sound, ?_, ?_, ?_, ?_⟩, runs, data⟩
    · exact building.config.trans progress.same.config
    · rw [building.registry, World.registry, progress.registries, progress.same.registry]
      rfl
    · exact progress.agrees.trans building.agrees
    · exact fun source => (progress.data.numbers source).trans (building.numbers source)
    · intro dom issued
      apply building.places
      rw [progress.same.document]
      exact (progress.documents render.document).issued dom issued
    · exact progress.numbering.trans building.next
  shown := by
    rw [← progress.same.document]
    exact built.shown

theorem Grown.building {Result : Type} {steps : Site Client → Build Client Result} {result : Result}
    {grown : World Client} {later : BuildState Client}
    (run : Grown behaviour world id render steps result grown later) (sound : world.Sound)
    (data : after.data = grown.data) :
    ∃ site before later, world.Building id render site before ∧
      Build.Runs (steps site) before result later ∧ after.data = later.data :=
  ⟨_, _, _, ⟨rfl, rfl, rfl, sound.data, .refl _, fun _ => le_rfl, fun _ given => given, le_rfl⟩,
    run.runs, data.trans run.data⟩

/-- Why building ended early has been noted. -/
def Notes (world after : World Client) (id : RenderId) (growth : Growth) : Prop :=
  ∀ error, growth.failure = some error →
    (id, error) ∈ after.failures.drop world.failures.length

theorem Notes.later {growth : Growth} (progress : world.failures <+: middle.failures)
    (notes : middle.Notes after id growth) : world.Notes after id growth := by
  intro error failed
  have listed := notes error failed
  rw [← Nat.sub_add_cancel progress.length_le, Nat.add_comm, ← List.drop_drop] at listed
  exact List.mem_of_mem_drop listed

/-! ## A path is followed anew -/

theorem link_stages (behaviour : Behaviour Client) (sound : world.Sound) {observer : PathObserver}
    {scope : Scope} {value : Value} (known : world.render? observer.render = some current)
    (alike : Alike render current) (refers : world.data.Refers value) :
    ∃ watches changed, world.Progress (world.link behaviour render observer scope value)
        observer.render current changed ∧
      changed.tree.nodes = current.tree.nodes.edit observer.owner (fun node => node) (· ++ watches) ∧
      Built world (world.link behaviour render observer scope value) observer.render current
        (fun site => site.watch observer.root observer.slot scope value observer.rest) watches
        .nil := by
  unfold link
  rw [grow_alike alike]
  obtain ⟨after, run⟩ := exists_grown behaviour world observer.render current fun site =>
    site.watch observer.root observer.slot scope value observer.rest
  obtain ⟨grows, _⟩ := Site.watch_grows run.runs sound.data refers
  exact ⟨_, _, run.graft_progress sound known grows, Forest.modifyUnder_eq_edit ..,
    run.building sound rfl, fun _ _ member => nomatch member⟩

theorem relink_stages (behaviour : Behaviour Client) (sound : world.Sound) {observer : PathObserver}
    {value : Value} (known : world.render? observer.render = some render) {owner : BoundNode Part}
    {below : Bindings} (has : Forest.Has render.tree.nodes observer.owner owner below)
    (refers : world.data.Refers value) :
    ∃ watches changed, world.Progress (world.relink behaviour observer value) observer.render render
        changed ∧
      changed.tree.nodes = render.tree.nodes.edit observer.owner (fun node => node) (fun below =>
        below.without (render.tree.watcher? observer.owner observer.slot).toList ++ watches) ∧
      Built world (world.relink behaviour observer value) observer.render render
        (fun site => site.watch observer.root observer.slot owner.scope value observer.rest) watches
        .nil := by
  obtain ⟨_, _, own⟩ := sound.renders _ render known
  have found : world.bound? observer.render observer.owner = some owner := by
    rw [bound?, known]
    exact has.label?_eq own.distinct
  unfold relink
  rw [known, found]
  have watching := sound.watcher? known has observer.slot
  dsimp only
  generalize (render.tree.watcher? observer.owner observer.slot).toList = kids at watching ⊢
  have torn := teardownAll_kept sound fun kid member => (watching kid member).2
  have early := teardownAll_progress sound known fun kid member => (watching kid member).2
  obtain ⟨watches, changed, late, nodes, built⟩ := link_stages behaviour torn.sound early.here
    (@Alike.mk render _ rfl rfl rfl rfl) (torn.agrees.refers.2 refers)
  refine ⟨watches, changed, early.trans late, ?_, built.later early⟩
  rw [nodes]
  show Forest.edit (Forest.without render.tree.nodes kids) _ _ _ = _
  rw [Forest.without_eq_edit own.distinct has fun kid member => (watching kid member).1,
    Forest.edit_edit]
  rfl

/-! ## A directive is built anew -/

section Grown

variable {grown : World Client} {later : BuildState Client} {growth : Growth}
  {steps : Site Client → Build Client Growth} {parent : BoundId} {reference : NodeId}
  {change : Bindings → Bindings}

theorem mem_plant_failures {graft : Bindings → BoundTree Part → BoundTree Part}
    (failures : grown.failures = world.failures) :
    world.Notes (grown.plant id render reference growth graft) id growth := by
  intro error failed
  have noted : (grown.plant id render reference growth graft).failures =
      grown.failures ++ growth.failure.toList.map fun failure => (id, failure) := rfl
  rw [noted, failures, List.drop_left, failed]
  exact List.mem_singleton_self _

/-- The document after what has been built is put there. -/
theorem Grown.plant_document (run : Grown behaviour world id render steps growth grown later)
    {document : Document} (stored : world.documents.get? render.document.index = some document)
    (there : reference ∈ document.nodes.names) (graft : Bindings → BoundTree Part → BoundTree Part) :
    (grown.plant id render reference growth graft).documents.get? render.document.index =
      some ⟨document.nodes.insertAfter reference growth.page, later.places⟩ := by
  show (grown.documents.modify _ _).get? _ = _
  rw [run.documents, Store.modify_modify, Store.get?_modify, if_pos rfl, stored]
  simp [Document.placeAfter, Document.contains, Forest.contains_iff_mem.2 there]

/-- What has been built is put in its places. -/
theorem Grown.plant_stages (run : Grown behaviour world id render steps growth grown later)
    (sound : world.Sound) (known : world.render? id = some render)
    (grows : Build.Grows id (world.buildState render) later [] growth.page growth.bound)
    (inside : ∀ document, world.documents.get? render.document.index = some document →
      reference ∈ document.nodes.names)
    (kept : world.Kept (grown.plant id render reference growth fun _ tree =>
      { tree with nodes := tree.nodes.modifyUnder parent change })) :
    ∃ changed, world.Progress (grown.plant id render reference growth fun _ tree =>
        { tree with nodes := tree.nodes.modifyUnder parent change }) id render changed ∧
      changed.tree.nodes = render.tree.nodes.edit parent (fun node => node) change ∧
      Built world (grown.plant id render reference growth fun _ tree =>
        { tree with nodes := tree.nodes.modifyUnder parent change }) id render steps growth
        growth.page ∧
      world.Notes (grown.plant id render reference growth fun _ tree =>
        { tree with nodes := tree.nodes.modifyUnder parent change }) id growth := by
  obtain ⟨document, stored, _⟩ := sound.renders id render known
  have there := inside document stored
  have documentSound := sound.documents _ _ stored
  refine ⟨_, run.plant_progress sound known grows inside, Forest.modifyUnder_eq_edit ..,
    ⟨run.building sound rfl, ?_⟩, mem_plant_failures run.failures⟩
  intro dom data member
  have placed := run.plant_document stored there fun _ tree =>
    { tree with nodes := tree.nodes.modifyUnder parent change }
  rw [document_eq placed]
  refine (kept.sound.documents _ _ placed).data?_eq ?_
  exact (Forest.entries_insertAfter_perm documentSound.distinct there).symm.subset
    (List.mem_append_right _ member)

end Grown

/-- The document node of a live bound node is in the document. -/
theorem Sound.dom_inside (sound : world.Sound) (known : world.render? id = some render)
    {name : BoundId} {node : BoundNode Part} {dom : NodeId}
    (member : (name, node) ∈ render.tree.nodes.entries) (own : node.dom = some dom) :
    dom ∈ render.created ∧ ∀ document, world.documents.get? render.document.index = some document →
      dom ∈ document.nodes.names := by
  obtain ⟨document, stored, mine⟩ := sound.renders id render known
  have inSkeleton : dom ∈ (skeleton render.tree.nodes).names :=
    BoundForest.mem_skeleton.2 (BoundForest.mem_shown.2 ⟨_, member, own⟩)
  refine ⟨mine.mirrors.covered inSkeleton, fun other also => ?_⟩
  obtain rfl := Option.some.inj (stored.symm.trans also)
  exact mine.mirrors.subset (sound.documents _ _ stored) inSkeleton

theorem fill_stages (behaviour : Behaviour Client) (sound : world.Sound)
    (known : world.render? id = some current) (alike : Alike render current) {switch : BoundId}
    {directive : Directive} {shown : Option Bool} {anchor : NodeId} {ledger : List Subscription}
    {scope : Scope} {below : Bindings}
    (has : Forest.Has current.tree.nodes switch ⟨.switch directive shown, some anchor, ledger, scope⟩
      below) (only : Site.OnlyWatches below) :
    ∃ growth changed,
      world.Progress (world.fill behaviour id render switch directive scope anchor) id current
        changed ∧
      changed.tree.nodes = current.tree.nodes.edit switch (fun node => node) (· ++ growth.bound) ∧
      Built world (world.fill behaviour id render switch directive scope anchor) id current
        (fun site => site.content site.viewIn (site.body directive.body) switch directive scope)
        growth growth.page ∧
      world.Notes (world.fill behaviour id render switch directive scope anchor) id growth := by
  have kept := fill_kept behaviour sound known alike has only
  obtain ⟨_, inside⟩ := sound.dom_inside known has.mem_entries rfl
  obtain ⟨_, _, own⟩ := sound.renders id current known
  have reaches : scope.model.index < world.data.models.next := own.scopes _ has.mem_entries
  unfold fill at kept ⊢
  rw [grow_alike alike] at kept ⊢
  obtain ⟨after, run⟩ := exists_grown behaviour world id current fun site =>
    site.content site.viewIn (site.body directive.body) switch directive scope
  obtain ⟨grows, _⟩ := Site.content_grows
    (fun scope => (world.site behaviour id current).view_grows _ scope)
    (body_grower _ directive.body) run.runs sound.data reaches
  generalize world.grow behaviour id current _ = result at run grows kept ⊢
  obtain ⟨growth, grown⟩ := result
  dsimp only at run grows kept ⊢
  rw [plant_congr alike.document] at kept ⊢
  exact ⟨growth, run.plant_stages sound known grows inside kept⟩

/-- A condition whose decision has not changed is left alone; what any other directive has shown is
replaced. -/
theorem rebuild_stages (behaviour : Behaviour Client) (sound : world.Sound)
    (known : world.render? id = some render) {switch : BoundId} {directive : Directive}
    {shown : Option Bool} {anchor : NodeId} {ledger : List Subscription} {scope : Scope}
    {below : Bindings}
    (has : Forest.Has render.tree.nodes switch ⟨.switch directive shown, some anchor, ledger, scope⟩
      below) :
    ∃ decision, decision = Site.decision world.data.contents directive.rule
        (world.data.resolveRaw scope.model directive.path) ∧
      (world.rebuild behaviour id switch = world ∧ shown.isSome = true ∧ decision = shown ∨
        ∃ growth changed, world.Progress (world.rebuild behaviour id switch) id render changed ∧
          changed.tree.nodes = render.tree.nodes.edit switch (·.decided decision) (fun below =>
            (below.keep fun node => node.kind == .watch) ++ growth.bound) ∧
          Built world (world.rebuild behaviour id switch) id render
            (fun site => site.content site.viewIn (site.body directive.body) switch directive scope)
            growth growth.page ∧
          world.Notes (world.rebuild behaviour id switch) id growth) := by
  obtain ⟨_, _, own⟩ := sound.renders _ render known
  have found : world.bound? id switch = some ⟨.switch directive shown, some anchor, ledger, scope⟩ := by
    rw [bound?, known]
    exact has.label?_eq own.distinct
  refine ⟨_, rfl, ?_⟩
  unfold rebuild
  rw [known, found]
  dsimp only
  generalize Site.decision _ _ _ = decision
  split
  · rename_i same
    obtain ⟨decided, rfl⟩ : decision.isSome = true ∧ decision = shown := by simpa using same
    exact .inl ⟨rfl, decided, rfl⟩
  · obtain ⟨inside, only⟩ := shownBy_spec own.distinct has
    have kids := shownBy_eq own.distinct has
    generalize render.tree.shownBy switch = gone at inside only kids ⊢
    have spares : ∀ kid ∈ gone, world.Spares id kid := fun kid member =>
      sound.spares_below known has rfl (by simp [BoundNode.kind, HasBoundKind.kind, Part.kind])
        (inside member)
    have torn := teardownAll_kept sound spares
    have first := teardownAll_progress sound known spares
    have second := settle_progress torn.sound first.here switch decision
    have settled := settle_kept torn.sound first.here switch decision
    have stays := has.without_below own.distinct inside
    have left : (render.tree.nodes.without gone).names.Nodup :=
      own.distinct.sublist (Forest.names_without_sublist ..)
    have apart : switch ∉ (below.without gone).names := (List.nodup_cons.1 (stays.nodup left)).1
    have labelled := stays.modify switch (·.decided decision)
    rw [if_pos rfl, Forest.modify_eq_self apart] at labelled
    obtain ⟨growth, changed, third, nodes, built, notes⟩ := fill_stages behaviour settled.sound
      second.here (@Alike.mk render _ rfl rfl rfl rfl) labelled only
    have early := first.trans second
    refine .inr ⟨growth, changed, early.trans third, ?_, built.later early,
      notes.later early.failures⟩
    rw [nodes]
    show Forest.edit (Forest.modify (Forest.without render.tree.nodes gone) switch _) _ _ _ = _
    rw [Forest.modify_eq_edit left, Forest.without_eq_edit own.distinct has inside,
      Forest.edit_edit, Forest.edit_edit]
    refine Forest.edit_congr own.distinct has rfl ?_
    show below.without gone ++ growth.bound = _
    rw [kids, ← Forest.without_eq_keep (Forest.Has.nodup has own.distinct).of_cons]
    rfl

/-! ## A list follows a change -/

/-- Items are built, and their document nodes are put after one that is there. -/
theorem showItems_planted (behaviour : Behaviour Client) (sound : world.Sound)
    (known : world.render? id = some render) {list : BoundId} {collection : CollectionId}
    {body : List Template.Node} {anchor : NodeId} {ledger : List Subscription} {scope : Scope}
    {below : Bindings}
    (has : Forest.Has render.tree.nodes list ⟨.list collection body, some anchor, ledger, scope⟩
      below) (index : Nat) {items : List Value} (refers : ∀ item ∈ items, world.data.Refers item) :
    ∃ growth reference, growth.page.shape = skeleton growth.bound ∧
      ((world.showItems behaviour id list index items).document render.document).nodes =
        (world.document render.document).nodes.insertAfter reference growth.page ∧
      ∃ changed, world.Progress (world.showItems behaviour id list index items) id render changed ∧
        changed.tree.nodes = render.tree.nodes.edit list (fun node => node)
          (Forest.insertAt · index growth.bound) ∧
        Built world (world.showItems behaviour id list index items) id render
          (fun site => Site.items (site.body body) scope items) growth growth.page ∧
        world.Notes (world.showItems behaviour id list index items) id growth := by
  have kept := showItems_kept behaviour sound id list index refers
  obtain ⟨document, stored, own⟩ := sound.renders id render known
  have found : world.bound? id list = some ⟨.list collection body, some anchor, ledger, scope⟩ := by
    rw [bound?, known]
    exact has.label?_eq own.distinct
  unfold showItems at kept ⊢
  rw [known, found] at kept ⊢
  have reaches : scope.model.index < world.data.models.next := own.scopes _ has.mem_entries
  have regularBelow := Forest.Everywhere.below own.regular has
  obtain ⟨after, run⟩ := exists_grown behaviour world id render fun site =>
    Site.items (site.body body) scope items
  have grows := Site.items_grows (body_grower (world.site behaviour id render) body) run.runs
    sound.data reaches refers
  dsimp only at kept ⊢
  generalize world.grow behaviour id render _ = result at run grows kept ⊢
  obtain ⟨growth, grown⟩ := result
  have kind : BoundNode.kind (⟨.list collection body, some anchor, ledger, scope⟩ : BoundNode Part) ≠
      .element := by
    simp [BoundNode.kind, HasBoundKind.kind, Part.kind]
  obtain ⟨member, _⟩ := skeleton_insertAt own.distinct
    (own.shown_nodup (sound.documents _ _ stored)) regularBelow has rfl kind index growth.bound
  have there := own.mirrors.subset (sound.documents _ _ stored)
    (BoundForest.mem_skeleton.2 (BoundForest.shown_has_subset has member))
  refine ⟨growth, (render.tree.lastOf ((render.tree.children list).take index)).getD anchor,
    grows.shape, ?_, run.plant_stages sound known grows (fun other also => ?_) kept⟩
  · rw [document_eq (run.plant_document stored there _), document_eq stored]
  · obtain rfl := Option.some.inj (stored.symm.trans also)
    exact there

theorem showItems_stages (behaviour : Behaviour Client) (sound : world.Sound)
    (known : world.render? id = some render) {list : BoundId} {collection : CollectionId}
    {body : List Template.Node} {anchor : NodeId} {ledger : List Subscription} {scope : Scope}
    {below : Bindings}
    (has : Forest.Has render.tree.nodes list ⟨.list collection body, some anchor, ledger, scope⟩
      below) (index : Nat) {items : List Value} (refers : ∀ item ∈ items, world.data.Refers item) :
    ∃ growth changed,
      world.Progress (world.showItems behaviour id list index items) id render changed ∧
      changed.tree.nodes = render.tree.nodes.edit list (fun node => node)
        (Forest.insertAt · index growth.bound) ∧
      Built world (world.showItems behaviour id list index items) id render
        (fun site => Site.items (site.body body) scope items) growth growth.page ∧
      world.Notes (world.showItems behaviour id list index items) id growth := by
  obtain ⟨growth, _, _, _, stages⟩ := showItems_planted behaviour sound known has index refers
  exact ⟨growth, stages⟩

theorem itemsShown_eq (sound : world.Sound) (known : world.render? id = some render) {list : BoundId}
    {collection : CollectionId} {body : List Template.Node} {dom : Option NodeId}
    {ledger : List Subscription} {scope : Scope} {below : Bindings}
    (has : Forest.Has render.tree.nodes list ⟨.list collection body, dom, ledger, scope⟩ below) :
    world.itemsShown id list = below.roots := by
  obtain ⟨_, _, own⟩ := sound.renders id render known
  have found : world.bound? id list = some ⟨.list collection body, dom, ledger, scope⟩ := by
    rw [bound?, known]
    exact has.label?_eq own.distinct
  unfold itemsShown
  rw [known, found]
  simp only [BoundTree.children_eq own.distinct has]

theorem teardownItems_stages (sound : world.Sound) (known : world.render? id = some render)
    {list : BoundId} {collection : CollectionId} {body : List Template.Node} {dom : Option NodeId}
    {ledger : List Subscription} {scope : Scope} {below : Bindings}
    (has : Forest.Has render.tree.nodes list ⟨.list collection body, dom, ledger, scope⟩ below)
    {gone : List BoundId} (inside : gone ⊆ below.roots) :
    world.Kept (world.teardownAll id gone) ∧
      world.Progress (world.teardownAll id gone) id render (sparing render gone) ∧
      (sparing render gone).tree.nodes =
        render.tree.nodes.edit list (fun node => node) (·.without gone) := by
  obtain ⟨_, _, own⟩ := sound.renders id render known
  rw [← itemsShown_eq sound known has] at inside
  have spares : ∀ kid ∈ gone, world.Spares id kid := fun kid member =>
    itemsShown_spares sound id list kid (inside member)
  refine ⟨teardownAll_kept sound spares, teardownAll_progress sound known spares, ?_⟩
  rw [itemsShown_eq sound known has] at inside
  exact Forest.without_eq_edit own.distinct has fun kid member =>
    Forest.roots_subset_names _ (inside member)

/-- Items are taken out of a list and others are put in. -/
theorem exchange_stages (behaviour : Behaviour Client) (sound : world.Sound)
    (known : world.render? id = some render) {list : BoundId} {collection : CollectionId}
    {body : List Template.Node} {anchor : NodeId} {ledger : List Subscription} {scope : Scope}
    {below : Bindings}
    (has : Forest.Has render.tree.nodes list ⟨.list collection body, some anchor, ledger, scope⟩
      below) {gone : List BoundId} (inside : gone ⊆ below.roots) (index : Nat) {items : List Value}
    (refers : ∀ item ∈ items, world.data.Refers item) :
    ∃ growth changed,
      world.Progress ((world.teardownAll id gone).showItems behaviour id list index items) id render
        changed ∧
      changed.tree.nodes = render.tree.nodes.edit list (fun node => node) (fun below =>
        (below.without gone).insertAt index growth.bound) ∧
      Built world ((world.teardownAll id gone).showItems behaviour id list index items) id render
        (fun site => Site.items (site.body body) scope items) growth growth.page ∧
      world.Notes ((world.teardownAll id gone).showItems behaviour id list index items) id growth := by
  obtain ⟨_, _, own⟩ := sound.renders id render known
  obtain ⟨torn, first, nodes⟩ := teardownItems_stages sound known has inside
  have left : Forest.Has (sparing render gone).tree.nodes list
      ⟨.list collection body, some anchor, ledger, scope⟩ (below.without gone) := by
    rw [nodes]
    exact has.edit own.distinct _ _
  obtain ⟨growth, changed, second, more, built, notes⟩ := showItems_stages behaviour torn.sound
    first.here left index fun item member => torn.agrees.refers.2 (refers item member)
  refine ⟨growth, changed, first.trans second, ?_, built.later first, notes.later first.failures⟩
  rw [more, nodes, Forest.edit_edit]
  rfl

end World

namespace Change

/-- What a change takes out of what is shown for the items. -/
def gone {Item : Type} (change : Change) (shown : List Item) : List Item :=
  match change with
  | .insert .. => []
  | .remove index _ | .update index _ => shown[index]?.toList
  | .replace _ => shown

/-- Where a change puts items. -/
def place : Change → Nat
  | .insert index _ | .remove index _ | .update index _ => index
  | .replace _ => 0

/-- The items that a change puts in. -/
def fresh : Change → List Value
  | .insert _ item | .update _ item => [item]
  | .remove .. => []
  | .replace items => items

theorem gone_subset {Item : Type} (change : Change) (shown : List Item) :
    change.gone shown ⊆ shown := by
  cases change with
  | insert => exact List.nil_subset _
  | remove index _ | update index _ =>
      intro item member
      exact List.mem_of_getElem? (Option.mem_toList.1 member)
  | replace => exact List.Subset.refl _

end Change

theorem Data.RefersIn.fresh {data : Data} {change : Change} (refers : data.RefersIn change) :
    ∀ item ∈ change.fresh, data.Refers item := by
  cases change with
  | insert _ item | update _ item =>
      intro other member
      rw [List.mem_singleton.1 member]
      exact refers
  | remove => exact fun _ member => nomatch member
  | replace items => exact refers

theorem Forest.insertAt_nil {Name Label : Type} (forest : Forest Name Label) (index : Nat) :
    forest.insertAt index .nil = forest :=
  take_append_drop forest index

namespace World

open BoundForest (skeleton shown)

variable {Client : Type} {world after : World Client} {id : RenderId} {render changed : Render}

/-- No items are built. -/
theorem built_no_items (behaviour : Behaviour Client) (sound : world.Sound) (render : Render)
    (body : List Template.Node) (scope : Scope) :
    Built world world id render (fun site => Site.items (site.body body) scope []) .empty
      Growth.empty.page where
  runs := by
    refine ⟨world.site behaviour id render, world.buildState render, world.buildState render,
      ⟨rfl, rfl, rfl, sound.data, .refl _, fun _ => le_rfl, fun _ given => given, le_rfl⟩, ?_, rfl⟩
    rw [Site.items, Build.runs_pure]
    exact ⟨rfl, rfl⟩
  shown := nofun

/-- What one group, or none, shows is removed from the document with it. -/
theorem teardownAll_document {document : Document} (known : world.render? id = some render)
    (stored : world.documents.get? render.document.index = some document) {gone : List BoundId}
    (few : gone.length ≤ 1) : ((world.teardownAll id gone).document render.document).nodes =
      document.nodes.without (gone.flatMap fun group => shown (render.tree.nodes.subtree group)) := by
  cases gone with
  | nil =>
      rw [List.flatMap_nil, Forest.without_nil_names]
      exact congrArg Document.nodes (document_eq stored)
  | cons group later =>
      obtain rfl : later = [] := List.length_eq_zero_iff.1 (by simpa using few)
      obtain ⟨_, documents⟩ := teardown_of_render? known group
      have edited := document_modify stored documents render.document
      rw [if_pos rfl, document_eq stored] at edited
      show ((world.teardown id group).document render.document).nodes = _
      rw [edited, Document.nodes_removeAll]
      simp

section Splice

variable {list : BoundId} {collection : CollectionId} {body : List Template.Node} {anchor : NodeId}
  {ledger : List Subscription} {scope : Scope} {below : Bindings} {change : Change}

/-- What a change takes out of a list and puts into it stands where the list is. -/
theorem edit_gone (sound : world.Sound) (known : world.render? id = some render)
    (has : Forest.Has render.tree.nodes list ⟨.list collection body, some anchor, ledger, scope⟩ below)
    (bound : Bindings) : render.tree.nodes.edit list (fun node => node) (fun below =>
      (below.without (change.gone below.roots)).insertAt change.place bound) =
        render.tree.nodes.edit list (fun node => node) (fun other =>
          (other.without (change.gone below.roots)).insertAt change.place bound) := by
  obtain ⟨_, _, own⟩ := sound.renders id render known
  exact Forest.edit_congr own.distinct has rfl rfl

/-- A list lets an item go or shows another, or both.  The document loses what the group that goes has
shown, and gets what the one that comes shows. -/
theorem splice_planted (behaviour : Behaviour Client) (sound : world.Sound)
    (known : world.render? id = some render)
    (has : Forest.Has render.tree.nodes list ⟨.list collection body, some anchor, ledger, scope⟩ below)
    (refers : world.data.RefersIn change) (single : ∀ items, change ≠ .replace items) :
    ∃ growth reference, growth.page.shape = skeleton growth.bound ∧
      ((world.splice behaviour id list change).document render.document).nodes =
        ((world.document render.document).nodes.without ((change.gone below.roots).flatMap fun group =>
          shown (render.tree.nodes.subtree group))).insertAfter reference growth.page ∧
      ∃ changed, world.Progress (world.splice behaviour id list change) id render changed ∧
        changed.tree.nodes = render.tree.nodes.edit list (fun node => node) (fun below =>
          (below.without (change.gone below.roots)).insertAt change.place growth.bound) ∧
        Built world (world.splice behaviour id list change) id render
          (fun site => Site.items (site.body body) scope change.fresh) growth growth.page ∧
        world.Notes (world.splice behaviour id list change) id growth := by
  obtain ⟨document, stored, own⟩ := sound.renders id render known
  have listed := itemsShown_eq sound known has
  obtain ⟨torn, first, nodes⟩ :=
    teardownItems_stages sound known has (change.gone_subset below.roots)
  have few : (change.gone below.roots).length ≤ 1 := by
    cases change with
    | insert => exact Nat.zero_le _
    | remove index _ | update index _ => exact Option.length_toList_le
    | replace items => exact (single items rfl).elim
  simp only [edit_gone sound known has]
  rw [document_eq stored, ← teardownAll_document known stored few]
  have left : Forest.Has (sparing render (change.gone below.roots)).tree.nodes list
      ⟨.list collection body, some anchor, ledger, scope⟩
      (below.without (change.gone below.roots)) := by
    rw [nodes]
    exact has.edit own.distinct _ _
  obtain ⟨growth, reference, shape, planted, changed, second, more, built, notes⟩ :=
    showItems_planted behaviour torn.sound first.here left change.place fun item member =>
      torn.agrees.refers.2 (refers.fresh item member)
  rw [nodes, Forest.edit_edit] at more
  have progress := first.trans second
  have made := built.later first
  have noted := notes.later first.failures
  cases change with
  | insert index item => exact ⟨growth, reference, shape, planted, changed, progress, more, made, noted⟩
  | remove index item =>
      have same : world.splice behaviour id list (.remove index item) =
          world.teardownAll id (Change.gone (.remove index item) below.roots) := by
        rw [splice, hideItem, listed]
        rfl
      rw [same]
      refine ⟨.empty, anchor, rfl, ?_, _, first, ?_,
        (built_no_items behaviour torn.sound _ body scope).later first, nofun⟩
      · exact (Forest.insertAfter_nil _ _).symm
      · rw [nodes]
        simp only [Growth.empty, Forest.insertAt_nil]
  | update index item =>
      have same : world.splice behaviour id list (.update index item) =
          (world.teardownAll id (Change.gone (.update index item) below.roots)).showItems behaviour id
            list index [item] := by
        rw [splice, hideItem, listed]
        rfl
      rw [same]
      exact ⟨growth, reference, shape, planted, changed, progress, more, made, noted⟩
  | replace items => exact (single items rfl).elim

/-- A list lets some items go and shows others. -/
theorem splice_stages (behaviour : Behaviour Client) (sound : world.Sound)
    (known : world.render? id = some render)
    (has : Forest.Has render.tree.nodes list ⟨.list collection body, some anchor, ledger, scope⟩ below)
    (refers : world.data.RefersIn change) :
    ∃ growth changed,
      world.Progress (world.splice behaviour id list change) id render changed ∧
      changed.tree.nodes = render.tree.nodes.edit list (fun node => node) (fun below =>
        (below.without (change.gone below.roots)).insertAt change.place growth.bound) ∧
      Built world (world.splice behaviour id list change) id render
        (fun site => Site.items (site.body body) scope change.fresh) growth growth.page ∧
      world.Notes (world.splice behaviour id list change) id growth := by
  by_cases single : ∀ items, change ≠ .replace items
  · obtain ⟨growth, _, _, _, stages⟩ := splice_planted behaviour sound known has refers single
    exact ⟨growth, stages⟩
  · obtain ⟨items, rfl⟩ : ∃ items, change = .replace items := by simpa using single
    have same : world.splice behaviour id list (.replace items) =
        (world.teardownAll id (Change.gone (.replace items) below.roots)).showItems behaviour id
          list 0 items := by
      rw [splice, hideItems, itemsShown_eq sound known has]
      rfl
    simp only [edit_gone sound known has]
    rw [same]
    exact exchange_stages behaviour sound known has (Change.gone_subset _ _) 0 refers.fresh

end Splice

/-! ## Reactions concern one render -/

theorem modifyNode_concerns (sound : world.Sound) (known : world.render? id = some render)
    {name : BoundId} {node : BoundNode Part} {dom : NodeId}
    (member : (name, node) ∈ render.tree.nodes.entries) (own : node.dom = some dom)
    (change : NodeData → NodeData) :
    world.Concerns (world.modifyDocument render.document (·.modify dom change)) id where
  kept := modifyNode_kept sound ..
  data := .refl _
  there := fun _ _ => rfl
  looks := by
    intro other another differs also node made found there
    obtain ⟨mine, _⟩ := sound.dom_inside known member own
    by_cases shared : another.document = render.document
    · have apart := sound.apart other id another render differs also known shared
      have elsewhere : node ≠ dom := fun same => apart made (same ▸ mine)
      obtain ⟨document, stored, _⟩ := sound.renders other another also
      rw [document_eq stored]
      rw [shared] at stored there
      have edited : (world.modifyDocument render.document (·.modify dom change)).documents.get?
          render.document.index = some (document.modify dom change) := by
        rw [modifyDocument, Store.get?_modify, if_pos rfl, stored]
        rfl
      rw [document_eq edited, Document.data?_modify, if_neg elsewhere] at there
      exact there
    · have away : another.document.index ≠ render.document.index := fun same =>
        shared (by cases h : another.document; cases h' : render.document; simp_all)
      rw [World.document, modifyDocument, Store.get?_modify, if_neg away] at there
      exact there
  registries := rfl
  failures := List.prefix_refl _

/-- A path is followed anew where there is a bound node that follows it. -/
theorem relink_cases (behaviour : Behaviour Client) (sound : world.Sound) (observer : PathObserver)
    (value : Value) : world.relink behaviour observer value = world ∨ ∃ render owner below,
      world.render? observer.render = some render ∧
        Forest.Has render.tree.nodes observer.owner owner below := by
  unfold relink
  split
  · rename_i render owner known found
    obtain ⟨_, below, also, _, has⟩ := bound?_has sound found
    obtain rfl := Option.some.inj (known.symm.trans also)
    exact .inr ⟨render, owner, below, known, has⟩
  · exact .inl rfl

/-- What is shown is built anew where there is a directive. -/
theorem rebuild_cases (behaviour : Behaviour Client) (sound : world.Sound) (id : RenderId)
    (switch : BoundId) : world.rebuild behaviour id switch = world ∨
      ∃ render directive shown anchor ledger scope below, world.render? id = some render ∧
        Forest.Has render.tree.nodes switch ⟨.switch directive shown, some anchor, ledger, scope⟩
          below := by
  unfold rebuild
  split
  · rename_i render directive shown anchor ledger scope known found
    obtain ⟨_, below, also, _, has⟩ := bound?_has sound found
    obtain rfl := Option.some.inj (known.symm.trans also)
    exact .inr ⟨render, directive, shown, anchor, ledger, scope, below, known, has⟩
  · exact .inl rfl

theorem rebuild_concerns (behaviour : Behaviour Client) (sound : world.Sound) (id : RenderId)
    (switch : BoundId) : world.Concerns (world.rebuild behaviour id switch) id := by
  have kept := rebuild_kept behaviour sound id switch
  rcases rebuild_cases behaviour sound id switch with same | ⟨_, _, _, _, _, _, _, known, has⟩
  · rw [same]
    exact .refl sound id
  · obtain ⟨_, _, unchanged | ⟨_, _, progress, _⟩⟩ := rebuild_stages behaviour sound known has
    · rw [unchanged.1]
      exact .refl sound id
    · exact progress.concerns sound kept.sound

theorem relink_concerns (behaviour : Behaviour Client) (sound : world.Sound)
    (observer : PathObserver) {value : Value} (refers : world.data.Refers value) :
    world.Concerns (world.relink behaviour observer value) observer.render := by
  have kept := relink_kept behaviour sound observer refers
  rcases relink_cases behaviour sound observer value with same | ⟨_, _, _, known, has⟩
  · rw [same]
    exact .refl sound _
  · obtain ⟨_, _, progress, _⟩ := relink_stages behaviour sound known has refers
    exact progress.concerns sound kept.sound

theorem refresh_concerns (behaviour : Behaviour Client) (sound : world.Sound) (id : RenderId)
    (root : BoundId) (slot : Nat) : world.Concerns (world.refresh behaviour id root slot) id := by
  unfold refresh
  split
  · rename_i render node known found
    split
    · rename_i path display dom shown own
      obtain ⟨_, below, also, _, has⟩ := bound?_has sound found
      obtain rfl := Option.some.inj (known.symm.trans also)
      exact modifyNode_concerns sound known has.mem_entries own _
    · split
      · exact rebuild_concerns behaviour sound id root
      · exact .refl sound id
  · exact .refl sound id

theorem react_concerns (behaviour : Behaviour Client) (sound : world.Sound)
    (observer : PathObserver) {value : Value} (refers : world.data.Refers value) :
    world.Concerns (world.react behaviour observer value) observer.render := by
  unfold react
  split
  · dsimp only
    split
    · exact refresh_concerns behaviour sound ..
    · have first := relink_concerns behaviour sound observer refers
      exact first.trans (refresh_concerns behaviour first.kept.sound ..)
  · exact .refl sound _

/-- Where there is no list, nothing follows a change. -/
theorem splice_absent (behaviour : Behaviour Client) {list : BoundId} (change : Change)
    (absent : ¬ ∃ render collection body dom ledger scope, world.render? id = some render ∧
      world.bound? id list = some ⟨.list collection body, dom, ledger, scope⟩) :
    world.splice behaviour id list change = world := by
  have nothing : world.itemsShown id list = [] := by
    unfold itemsShown
    split
    · rename_i known found
      exact (absent ⟨_, _, _, _, _, _, known, found⟩).elim
    · rfl
  have still : ∀ index items, world.showItems behaviour id list index items = world := by
    intro index items
    unfold showItems
    split
    · rename_i known found
      exact (absent ⟨_, _, _, _, _, _, known, found⟩).elim
    · rfl
  cases change <;> simp [splice, hideItem, hideItems, nothing, teardownAll, still]

/-- A change is followed where there is a list. -/
theorem splice_cases (behaviour : Behaviour Client) (sound : world.Sound) (id : RenderId)
    (list : BoundId) (change : Change) : world.splice behaviour id list change = world ∨
      ∃ render collection body anchor ledger scope below, world.render? id = some render ∧
        Forest.Has render.tree.nodes list ⟨.list collection body, some anchor, ledger, scope⟩
          below := by
  by_cases there : ∃ render collection body dom ledger scope, world.render? id = some render ∧
      world.bound? id list = some ⟨.list collection body, dom, ledger, scope⟩
  · obtain ⟨render, collection, body, dom, ledger, scope, known, found⟩ := there
    obtain ⟨_, below, also, _, has⟩ := bound?_has sound found
    obtain rfl := Option.some.inj (known.symm.trans also)
    obtain ⟨_, _, own⟩ := sound.renders id render known
    have anchored : dom.isSome = true := Forest.Everywhere.at own.regular has
    obtain ⟨anchor, rfl⟩ := Option.isSome_iff_exists.1 anchored
    exact .inr ⟨render, collection, body, anchor, ledger, scope, below, known, has⟩
  · exact .inl (splice_absent behaviour change there)

theorem splice_concerns (behaviour : Behaviour Client) (sound : world.Sound) (id : RenderId)
    (list : BoundId) {change : Change} (refers : world.data.RefersIn change) :
    world.Concerns (world.splice behaviour id list change) id := by
  rcases splice_cases behaviour sound id list change with same | ⟨_, _, _, _, _, _, _, known, has⟩
  · rw [same]
    exact .refl sound id
  · obtain ⟨_, _, progress, _⟩ := splice_stages behaviour sound known has refers
    exact progress.concerns sound (splice_kept behaviour sound id list refers).sound

theorem tellChange_concerns (behaviour : Behaviour Client) (sound : world.Sound) {change : Change}
    (refers : world.data.RefersIn change) {observer : ChangeObserver} {id : RenderId} {owner : BoundId}
    (own : (Observer.change observer).owner? = some (id, owner)) :
    world.Concerns (world.tellChange behaviour change observer) id := by
  cases observer with
  | client hook => cases own
  | rebuild render content directive =>
      obtain ⟨rfl, rfl⟩ : render = id ∧ content = owner := by simpa [Observer.owner?] using own
      unfold tellChange
      dsimp only
      split
      · exact rebuild_concerns behaviour sound render directive
      · exact .refl sound _
  | splice render list =>
      obtain ⟨rfl, rfl⟩ : render = id ∧ list = owner := by simpa [Observer.owner?] using own
      exact splice_concerns behaviour sound render list refers

end World

end LiveTemplate
