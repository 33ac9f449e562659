import LiveTemplate.Proofs.Reactive.Change
import LiveTemplate.Proofs.View.Planting
import LiveTemplate.View.Mutation

/-!
# Reactions keep the world sound

Every reaction of a render is a sequence of tearing down, relabelling, building and planting.  Each
of these keeps the world sound, whoever the observer is.
-/

namespace LiveTemplate

namespace World

open BoundForest (account skeleton shown AllRegular)

variable {Client : Type} {world after : World Client} {id : RenderId} {render : Render}

/-- Only data, documents and renders matter. -/
theorem Sound.of_eq (sound : world.Sound) (data : after.data = world.data)
    (documents : after.documents = world.documents) (renders : after.renders = world.renders) :
    after.Sound where
  data := data ▸ sound.data
  documents := documents ▸ sound.documents
  renders := by
    simpa only [render?, renders, documents, data] using sound.renders
  apart := by
    simpa only [render?, renders] using sound.apart
  owners := by
    rw [data, renders]
    exact sound.owners

/-- A document is edited so that everything in it is mirrored as before. -/
theorem Sound.of_edit {place : DocumentId} {edit : Document → Document} (sound : world.Sound)
    (data : after.data = world.data) (renders : after.renders = world.renders)
    (documents : after.documents = world.documents.modify place.index edit)
    (tidy : ∀ document, world.documents.get? place.index = some document → (edit document).Sound)
    (mirrors : ∀ id render document, world.render? id = some render → render.document = place →
      world.documents.get? place.index = some document →
      document.Mirrors render.node render.created (skeleton render.tree.nodes) →
      (edit document).Mirrors render.node render.created (skeleton render.tree.nodes)) :
    after.Sound where
  data := data ▸ sound.data
  documents := by
    intro index found there
    rw [documents, Store.get?_modify] at there
    split at there
    · rename_i same
      obtain ⟨document, stored, rfl⟩ := Option.map_eq_some_iff.1 there
      exact tidy document (same ▸ stored)
    · exact sound.documents index found there
  renders := by
    intro id render known
    rw [render?, renders] at known
    obtain ⟨document, stored, own⟩ := sound.renders id render known
    by_cases here : render.document = place
    · subst here
      refine ⟨edit document, ?_, ?_⟩
      · rw [documents, Store.get?_modify, if_pos rfl, stored]
        rfl
      · rw [data]
        exact own.of_aside le_rfl (fun balanced => balanced)
          (mirrors id render document known rfl stored)
    · refine ⟨document, ?_, data ▸ own⟩
      rw [documents, Store.get?_modify, if_neg, stored]
      intro same
      exact here (by cases h : render.document; cases place; simp_all)
  apart := by
    simpa only [render?, renders] using sound.apart
  owners := by
    rw [data, renders]
    exact sound.owners

/-- A bound node gets another label that agrees with the old one in all that the invariant sees. -/
theorem Sound.relabel (sound : world.Sound) (known : world.render? id = some render)
    {node : BoundId} {change : BoundNode Part → BoundNode Part}
    (same : ∀ node, (change node).kind = node.kind ∧ (change node).dom = node.dom)
    (ledger : ∀ node, (change node).ledger = node.ledger)
    (scope : ∀ node, (change node).scope = node.scope) :
    (world.modifyTree id fun tree =>
      { tree with nodes := tree.nodes.modify node change }).Sound := by
  obtain ⟨document, stored, own⟩ := sound.renders id render known
  have bones : skeleton (render.tree.nodes.modify node change) = skeleton render.tree.nodes :=
    BoundForest.skeleton_modify fun node _ _ => same node
  have changed : Render.Sound id
      { render with tree.nodes := render.tree.nodes.modify node change } world.data document := by
    refine ⟨by simpa using own.distinct, by simpa using own.numbered, ?_,
      own.regular.modify same, ?_, ?_, ?_⟩
    · rcases own.rooted with none | ⟨group, element, top, below, rest, rooted⟩
      · exact .inl (by simp [none, Forest.modify])
      · exact .inr ⟨_, _, top, _, _, rooted.modify same⟩
    · rintro ⟨name, label⟩ member
      obtain ⟨below, has⟩ := Forest.has_iff_mem_entries.2 member
      obtain ⟨mark, former, old, rfl, _⟩ := Forest.has_modify has
      have bound := own.scopes _ old.mem_entries
      by_cases here : name = node
      · simpa [here, scope] using bound
      · simpa [here] using bound
    · rw [BoundForest.account_modify fun node _ _ => ledger node]
      exact own.balanced
    · rw [bones]
      exact own.mirrors
  have changes : world.Changes
      (world.modifyTree id fun tree => { tree with nodes := tree.nodes.modify node change }) id render
      { render with tree.nodes := render.tree.nodes.modify node change } document document :=
    { known
      stored
      data := sound.data
      models := le_rfl
      others := fun _ _ _ balanced => balanced
      owners := fun _ _ holds => .inl holds
      tidy := sound.documents _ _ stored
      aside := fun _ _ _ _ mirrors => mirrors
      place := rfl
      created := fun _ member => .inl member
      sound := changed
      documents := (Store.modify_eq_self stored rfl).symm
      renders := Store.modify_congr known rfl }
  exact sound.of_changes changes

theorem bound?_has {node : BoundId} {label : BoundNode Part} (sound : world.Sound)
    (found : world.bound? id node = some label) :
    ∃ render below, world.render? id = some render ∧ render.tree.nodes.names.Nodup ∧
      Forest.Has render.tree.nodes node label below := by
  unfold bound? at found
  obtain ⟨render, known, there⟩ := Option.bind_eq_some_iff.1 found
  obtain ⟨_, _, own⟩ := sound.renders id render known
  obtain ⟨below, has⟩ := Forest.exists_has_of_label? there
  exact ⟨render, below, known, own.distinct, has⟩

/-- What is below a directive or a list is not the root element. -/
theorem Sound.spares_below {parent name : BoundId} {node : BoundNode Part} {below : Bindings}
    (sound : world.Sound) (known : world.render? id = some render)
    (has : Forest.Has render.tree.nodes parent node below) (owns : node.dom.isSome = true)
    (kind : node.kind ≠ .element) (member : name ∈ below.names) : world.Spares id name := by
  intro another group element top under rest also rooted
  rw [known] at also
  obtain rfl : render = another := Option.some.inj also
  obtain ⟨_, _, own⟩ := sound.renders id render known
  obtain ⟨_, _, _, notTop, _, _⟩ := rooted.parts own.distinct
  have inside := rooted.has_below has owns kind
  rintro rfl
  exact notTop (inside.sublist.subset (List.mem_cons_of_mem _ member))

/-- A watching node is not the root element. -/
theorem Sound.spares_watch {name : BoundId} {node : BoundNode Part} (sound : world.Sound)
    (known : world.render? id = some render) (found : render.tree.get? name = some node)
    (kind : node.kind = .watch) : world.Spares id name := by
  intro another group element top under rest also rooted
  rw [known] at also
  obtain rfl : render = another := Option.some.inj also
  obtain ⟨_, _, own⟩ := sound.renders id render known
  rintro rfl
  have top : Forest.Has render.tree.nodes name element under := by
    rw [rooted.nodes]
    exact .inr (.inl (Forest.has_of_root ..))
  have label := top.label?_eq own.distinct
  rw [BoundTree.get?, label] at found
  obtain rfl : element = node := Option.some.inj found
  rw [rooted.kind] at kind
  cases kind

/-- A sound world in which everything reads as before. -/
structure Kept (world after : World Client) : Prop where
  sound : after.Sound
  agrees : world.data.Agrees after.data

theorem Kept.refl (sound : world.Sound) : world.Kept world :=
  ⟨sound, .refl _⟩

theorem Kept.trans {last : World Client} (first : world.Kept after) (second : after.Kept last) :
    world.Kept last :=
  ⟨second.sound, first.agrees.trans second.agrees⟩

theorem teardownAll_kept (sound : world.Sound) {nodes : List BoundId}
    (spares : ∀ node ∈ nodes, world.Spares id node) : world.Kept (world.teardownAll id nodes) := by
  obtain ⟨_, cancels⟩ := data_teardownAll world id nodes
  exact ⟨sound.teardownAll spares, cancels.agrees⟩

theorem watcher?_eq_some {tree : BoundTree Part} {owner watcher : BoundId} {slot : Nat}
    (found : tree.watcher? owner slot = some watcher) :
    watcher ∈ tree.children owner ∧
      ∃ node, tree.get? watcher = some node ∧ node.part = .watch slot := by
  have member := List.mem_of_find?_eq_some found
  have holds := List.find?_some found
  refine ⟨member, ?_⟩
  split at holds
  · rename_i position dom ledger scope equal
    simp only [beq_iff_eq] at holds
    exact ⟨_, equal, by rw [holds]⟩
  · cases holds

/-- The watching node that is replaced when a path is followed anew. -/
theorem Sound.watcher? {owner : BoundNode Part} {below : Bindings} {name : BoundId}
    (sound : world.Sound) (known : world.render? id = some render)
    (has : Forest.Has render.tree.nodes name owner below) (slot : Nat) :
    ∀ kid ∈ (render.tree.watcher? name slot).toList, kid ∈ below.names ∧ world.Spares id kid := by
  intro kid member
  obtain ⟨_, _, own⟩ := sound.renders id render known
  obtain ⟨child, node, there, part⟩ := watcher?_eq_some (Option.mem_toList.1 member)
  rw [BoundTree.children_eq own.distinct has] at child
  refine ⟨Forest.roots_subset_names _ child, sound.spares_watch known there ?_⟩
  simp [BoundNode.kind, HasBoundKind.kind, part, Part.kind]

/-- Another record of the render, of which only its place, settings and numbering count. -/
structure Alike (render current : Render) : Prop where
  document : render.document = current.document
  registry : render.registry = current.registry
  config : render.config = current.config
  next : render.tree.next = current.tree.next

theorem grow_alike {Result : Type} {behaviour : Behaviour Client} {current : Render}
    {steps : Site Client → Build Client Result} (alike : Alike render current) :
    world.grow behaviour id render steps = world.grow behaviour id current steps :=
  grow_congr alike.document alike.registry alike.config alike.next

theorem link_kept (behaviour : Behaviour Client) (sound : world.Sound) {current : Render}
    {observer : PathObserver} {scope : Scope} {value : Value}
    (known : world.render? observer.render = some current) (alike : Alike render current)
    (member : observer.owner ∈ current.tree.nodes.names) (refers : world.data.Refers value) :
    world.Kept (world.link behaviour render observer scope value) := by
  unfold link
  rw [grow_alike alike]
  obtain ⟨after, run⟩ := exists_grown behaviour world observer.render current fun site =>
    site.watch observer.root observer.slot scope value observer.rest
  obtain ⟨grows, only⟩ := Site.watch_grows run.runs sound.data refers
  exact ⟨sound.graft known run member grows only, run.data ▸ grows.agrees⟩

theorem relink_kept (behaviour : Behaviour Client) (sound : world.Sound) (observer : PathObserver)
    {value : Value} (refers : world.data.Refers value) :
    world.Kept (world.relink behaviour observer value) := by
  unfold relink
  split
  · rename_i render owner known found
    obtain ⟨_, below, also, distinct, has⟩ := bound?_has sound found
    obtain rfl := Option.some.inj (known.symm.trans also)
    have watching := sound.watcher? known has observer.slot
    generalize (render.tree.watcher? observer.owner observer.slot).toList = kids at watching ⊢
    have torn := teardownAll_kept sound fun kid member => (watching kid member).2
    have current := render?_teardownAll world observer.render observer.render kids
    rw [if_pos rfl, known, Option.map_some] at current
    have left := has.without_below distinct fun kid member => (watching kid member).1
    exact torn.trans (link_kept behaviour torn.sound current ⟨rfl, rfl, rfl, rfl⟩ left.mem
      (torn.agrees.refers.2 refers))
  · exact .refl sound

/-! ## Directives -/

theorem plant_congr {growth : Growth} {reference : NodeId} {current : Render}
    {graft : Bindings → BoundTree Part → BoundTree Part}
    (document : render.document = current.document) :
    world.plant id render reference growth graft = world.plant id current reference growth graft := by
  simp only [plant, document]

/-- What a directive shows are the children that do not watch its path. -/
theorem shownBy_eq {tree : BoundTree Part} {switch : BoundId} {node : BoundNode Part}
    {below : Bindings} (distinct : tree.nodes.names.Nodup)
    (has : Forest.Has tree.nodes switch node below) :
    tree.shownBy switch =
      (below.crown.filter fun entry => entry.2.kind != .watch).map Prod.fst := by
  rw [BoundTree.shownBy, BoundTree.children_eq distinct has, ← Forest.map_fst_crown, List.filter_map]
  congr 1
  refine List.filter_congr fun entry member => ?_
  obtain ⟨deeper, inside⟩ := Forest.has_iff_mem_entries.2 (Forest.crown_subset_entries _ member)
  simp only [Function.comp_apply, BoundTree.get?, (has.trans inside).label?_eq distinct]

/-- What a directive shows is below it, and apart from it only watching nodes are. -/
theorem shownBy_spec {tree : BoundTree Part} {switch : BoundId} {node : BoundNode Part}
    {below : Bindings} (distinct : tree.nodes.names.Nodup)
    (has : Forest.Has tree.nodes switch node below) :
    tree.shownBy switch ⊆ below.names ∧ Site.OnlyWatches (below.without (tree.shownBy switch)) := by
  rw [shownBy_eq distinct has]
  constructor
  · intro kid member
    obtain ⟨entry, listed, rfl⟩ := List.mem_map.1 member
    exact List.mem_map_of_mem (Forest.crown_subset_entries _ (List.mem_filter.1 listed).1)
  · rintro ⟨name, label⟩ member
    rw [Forest.crown_without, List.mem_filter] at member
    obtain ⟨inCrown, spared⟩ := member
    by_contra other
    exact of_decide_eq_true spared
      (List.mem_map_of_mem (List.mem_filter.2 ⟨inCrown, by simpa using other⟩))

theorem skeleton_eq_nil_of_onlyWatches {bound : Bindings} (only : Site.OnlyWatches bound)
    (regular : AllRegular bound) : skeleton bound = .nil := by
  induction bound with
  | nil => rfl
  | cons name node children rest _ beside =>
      obtain ⟨here, _, later⟩ := regular
      have kind : node.kind = .watch := only (name, node) (by simp [Forest.crown])
      simp only [BoundForest.Regular, kind] at here
      have tail := beside (fun entry member => only entry (List.mem_cons_of_mem _ member)) later
      simp [BoundForest.around_of_none here.1, here.2, tail]

theorem decided_same (node : BoundNode Part) (decision : Option Bool) :
    (node.decided decision).kind = node.kind ∧ (node.decided decision).dom = node.dom ∧
      (node.decided decision).ledger = node.ledger ∧
      (node.decided decision).scope = node.scope := by
  unfold BoundNode.decided
  split
  · rename_i directive shown equal
    simp [BoundNode.kind, HasBoundKind.kind, equal, Part.kind]
  · simp

theorem settle_kept (sound : world.Sound) (known : world.render? id = some render)
    (switch : BoundId) (decision : Option Bool) :
    world.Kept (world.settle id switch decision) where
  sound := sound.relabel known
    (fun node => ⟨(decided_same node decision).1, (decided_same node decision).2.1⟩)
    (fun node => (decided_same node decision).2.2.1) fun node => (decided_same node decision).2.2.2
  agrees := .refl _

theorem body_grower (site : Site Client) (source : List Template.Node) (scope : Scope) :
    Site.Grower site.render scope.model (site.body source scope) :=
  Site.nodes_grows site (fun scope => site.view_grows _ scope) source scope

theorem fill_kept (behaviour : Behaviour Client) (sound : world.Sound) {current : Render}
    (known : world.render? id = some current) (alike : Alike render current) {switch : BoundId}
    {directive : Directive} {shown : Option Bool} {anchor : NodeId} {ledger : List Subscription}
    {scope : Scope} {below : Bindings}
    (has : Forest.Has current.tree.nodes switch ⟨.switch directive shown, some anchor, ledger, scope⟩
      below) (only : Site.OnlyWatches below) :
    world.Kept (world.fill behaviour id render switch directive scope anchor) := by
  obtain ⟨_, _, own⟩ := sound.renders id current known
  have inside : scope.model.index < world.data.models.next := own.scopes _ has.mem_entries
  unfold fill
  rw [grow_alike alike]
  obtain ⟨after, run⟩ := exists_grown behaviour world id current fun site =>
    site.content site.viewIn (site.body directive.body) switch directive scope
  obtain ⟨grows, group, lower, single⟩ := Site.content_grows
    (fun scope => (world.site behaviour id current).view_grows _ scope)
    (body_grower _ directive.body) run.runs sound.data inside
  have regularBelow := Forest.Everywhere.below own.regular has
  have empty := skeleton_eq_nil_of_onlyWatches only regularBelow
  refine ⟨?_, run.data ▸ grows.agrees⟩
  generalize world.grow behaviour id current _ = result at run grows single ⊢
  obtain ⟨growth, grown⟩ := result
  show (grown.plant id render anchor growth _).Sound
  rw [plant_congr alike.document]
  refine Sound.plant (· ++ growth.bound) sound known run has rfl
    (by simp [BoundNode.kind, HasBoundKind.kind, Part.kind]) grows (fun below => by rw [Forest.entries_append]) ⟨⟨rfl, ?_⟩,
      BoundForest.allRegular_append.2 ⟨regularBelow, grows.regular⟩⟩ ?_ ?_
  · rw [Forest.crown_append, List.filter_append, only.filter_eq_nil, List.nil_append, single]
    exact List.length_filter_le _ _
  · simp [BoundForest.shown]
  · simp [BoundNode.around, BoundNode.kind, HasBoundKind.kind, Part.kind, empty,
      Forest.insertAfter]

/-- Before a directive is built anew, what it has shown is torn down and its decision is kept.  Only
watching nodes are left below it. -/
theorem cleared_kept (sound : world.Sound) (known : world.render? id = some render)
    {switch : BoundId} {directive : Directive} {shown : Option Bool} {anchor : NodeId}
    {ledger : List Subscription} {scope : Scope} {below : Bindings}
    (has : Forest.Has render.tree.nodes switch ⟨.switch directive shown, some anchor, ledger, scope⟩
      below) (decision : Option Bool) :
    world.Kept ((world.teardownAll id (render.tree.shownBy switch)).settle id switch decision) ∧
      ∃ current under,
        ((world.teardownAll id (render.tree.shownBy switch)).settle id switch decision).render? id =
          some current ∧ Alike render current ∧
        Forest.Has current.tree.nodes switch
          ⟨.switch directive decision, some anchor, ledger, scope⟩ under ∧
        Site.OnlyWatches under := by
  obtain ⟨_, _, own⟩ := sound.renders id render known
  obtain ⟨inside, only⟩ := shownBy_spec own.distinct has
  generalize render.tree.shownBy switch = kids at inside only ⊢
  have torn := teardownAll_kept sound fun kid member =>
    sound.spares_below known has rfl (by simp [BoundNode.kind, HasBoundKind.kind, Part.kind])
      (inside member)
  have left := render?_teardownAll world id id kids
  rw [if_pos rfl, known, Option.map_some] at left
  have settled := settle_kept torn.sound left switch decision
  have current := render?_modifyTree (world.teardownAll id kids) id id fun tree =>
    { tree with nodes := tree.nodes.modify switch (·.decided decision) }
  rw [if_pos rfl, left, Option.map_some] at current
  have stays := has.without_below own.distinct inside
  have apart : switch ∉ (below.without kids).names := by
    obtain ⟨_, _, own⟩ := torn.sound.renders id _ left
    exact (List.nodup_cons.1 (stays.nodup own.distinct)).1
  have labelled := stays.modify switch (·.decided decision)
  rw [if_pos rfl, Forest.modify_eq_self apart] at labelled
  exact ⟨torn.trans settled, _, _, current, ⟨rfl, rfl, rfl, rfl⟩, labelled, only⟩

theorem rebuild_kept (behaviour : Behaviour Client) (sound : world.Sound) (id : RenderId)
    (switch : BoundId) : world.Kept (world.rebuild behaviour id switch) := by
  unfold rebuild
  split
  · rename_i render directive shown anchor ledger scope known found
    dsimp only
    split
    · exact .refl sound
    · obtain ⟨_, below, also, _, has⟩ := bound?_has sound found
      obtain rfl := Option.some.inj (known.symm.trans also)
      obtain ⟨cleared, _, _, current, alike, labelled, only⟩ := cleared_kept sound known has
        (Site.decision world.data.contents directive.rule
          (world.data.resolveRaw scope.model directive.path))
      exact cleared.trans (fill_kept behaviour cleared.sound current alike labelled only)
  · exact .refl sound

/-! ## Texts and attributes -/

theorem modifyNode_kept (sound : world.Sound) (place : DocumentId) (node : NodeId)
    (change : NodeData → NodeData) :
    world.Kept (world.modifyDocument place (·.modify node change)) where
  sound := sound.of_edit rfl rfl rfl
    (fun _ stored => (sound.documents _ _ stored).modify node change)
    fun _ _ _ _ _ _ mirrors => mirrors.modify node change
  agrees := .refl _

theorem refresh_kept (behaviour : Behaviour Client) (sound : world.Sound) (id : RenderId)
    (root : BoundId) (slot : Nat) : world.Kept (world.refresh behaviour id root slot) := by
  unfold refresh
  split
  · split
    · exact modifyNode_kept sound ..
    · split
      · exact rebuild_kept behaviour sound id root
      · exact .refl sound
  · exact .refl sound

theorem react_kept (behaviour : Behaviour Client) (sound : world.Sound) (observer : PathObserver)
    {value : Value} (refers : world.data.Refers value) :
    world.Kept (world.react behaviour observer value) := by
  unfold react
  split
  · dsimp only
    split
    · exact refresh_kept behaviour sound ..
    · have linked := relink_kept behaviour sound observer refers
      exact linked.trans (refresh_kept behaviour linked.sound ..)
  · exact .refl sound

/-! ## Lists -/

theorem insertAt_entries (forest trees : Bindings) (index : Nat) :
    (Forest.insertAt forest index trees).entries.Perm (forest.entries ++ trees.entries) := by
  have parts := congrArg Forest.entries (Forest.take_append_drop forest index)
  rw [Forest.entries_append] at parts
  rw [Forest.insertAt, Forest.entries_append, Forest.entries_append, ← parts, List.append_assoc]
  exact List.Perm.append_left _ List.perm_append_comm

/-- Items are put after the last document node of those in front of them. -/
theorem skeleton_insertAt {tree : BoundTree Part} {list : BoundId} {node : BoundNode Part}
    {below : Bindings} {anchor : NodeId} (distinct : tree.nodes.names.Nodup)
    (single : (shown tree.nodes).Nodup) (regular : AllRegular below)
    (has : Forest.Has tree.nodes list node below) (own : node.dom = some anchor)
    (kind : node.kind ≠ .element) (index : Nat) (bound : Bindings) :
    (tree.lastOf ((tree.children list).take index)).getD anchor ∈ shown (.cons list node below .nil) ∧
      skeleton (.cons list node (Forest.insertAt below index bound) .nil) =
        (skeleton (.cons list node below .nil)).insertAfter
          ((tree.lastOf ((tree.children list).take index)).getD anchor) (skeleton bound) := by
  have divided := Forest.take_append_drop below index
  have children : (tree.children list).take index = (below.take index).roots := by
    rw [BoundTree.children_eq distinct has, Forest.roots_take]
  have front : AllRegular (below.take index) := by
    rw [← divided] at regular
    exact (BoundForest.allRegular_append.1 regular).1
  have last : tree.lastOf ((tree.children list).take index) =
      (skeleton (below.take index)).roots.getLast? := by
    rw [children, BoundTree.lastOf_roots distinct, BoundForest.last?_eq_getLast? front,
      BoundForest.flat_eq_roots front]
    intro name label lower found
    refine has.trans ?_
    rw [← divided]
    exact Forest.has_append.2 (.inl found)
  have bones : skeleton (.cons list node below .nil) =
      .cons anchor () .nil (skeleton (below.take index)) ++ skeleton (below.drop index) := by
    simp only [BoundForest.skeleton_cons, BoundForest.around_of_other kind own,
      BoundForest.skeleton_nil, Forest.append_nil, Forest.cons_append]
    rw [← BoundForest.skeleton_append, divided]
  have names : (skeleton (.cons list node below .nil)).names.Nodup :=
    (BoundForest.names_skeleton_perm _).nodup_iff.2 (single.sublist (BoundForest.shown_has_sublist has))
  have root : (Forest.cons anchor () .nil (skeleton (below.take index))).roots.getLast? =
      some ((tree.lastOf ((tree.children list).take index)).getD anchor) := by
    rw [last, Forest.roots, List.getLast?_cons]
  constructor
  · rw [← BoundForest.mem_skeleton, bones, Forest.names_append]
    exact List.mem_append_left _ (Forest.roots_subset_names _ (List.mem_of_getLast? root))
  · rw [bones, Forest.insertAfter_last (bones ▸ names) root]
    simp [Forest.insertAt, BoundForest.around_of_other kind own]

theorem showItems_kept (behaviour : Behaviour Client) (sound : world.Sound) (id : RenderId)
    (list : BoundId) (index : Nat) {items : List Value}
    (refers : ∀ item ∈ items, world.data.Refers item) :
    world.Kept (world.showItems behaviour id list index items) := by
  unfold showItems
  split
  · rename_i render collection body anchor ledger scope known found
    obtain ⟨_, below, also, distinct, has⟩ := bound?_has sound found
    obtain rfl := Option.some.inj (known.symm.trans also)
    obtain ⟨_, stored, own⟩ := sound.renders id render known
    have inside : scope.model.index < world.data.models.next := own.scopes _ has.mem_entries
    have regularBelow := Forest.Everywhere.below own.regular has
    obtain ⟨after, run⟩ := exists_grown behaviour world id render fun site =>
      Site.items (site.body body) scope items
    have grows := Site.items_grows (body_grower (world.site behaviour id render) body) run.runs
      sound.data inside refers
    dsimp only
    refine ⟨?_, run.data ▸ grows.agrees⟩
    generalize world.grow behaviour id render _ = result at run grows ⊢
    obtain ⟨growth, grown⟩ := result
    have kind : BoundNode.kind (⟨.list collection body, some anchor, ledger, scope⟩ : BoundNode Part) ≠
        .element := by
      simp [BoundNode.kind, HasBoundKind.kind, Part.kind]
    obtain ⟨member, placed⟩ := skeleton_insertAt distinct
      (own.shown_nodup (sound.documents _ _ stored)) regularBelow has rfl kind index growth.bound
    refine Sound.plant (Forest.insertAt · index growth.bound) sound known run has rfl kind grows
      (fun below => insertAt_entries below growth.bound index) ⟨rfl, ?_⟩ member placed
    rw [Forest.insertAt]
    rw [← Forest.take_append_drop below index] at regularBelow
    obtain ⟨front, back⟩ := BoundForest.allRegular_append.1 regularBelow
    exact BoundForest.allRegular_append.2
      ⟨front, BoundForest.allRegular_append.2 ⟨grows.regular, back⟩⟩
  · exact .refl sound

theorem itemsShown_spares (sound : world.Sound) (id : RenderId) (list : BoundId) :
    ∀ item ∈ world.itemsShown id list, world.Spares id item := by
  unfold itemsShown
  split
  · rename_i render collection body dom ledger scope known found
    obtain ⟨_, below, also, distinct, has⟩ := bound?_has sound found
    obtain rfl := Option.some.inj (known.symm.trans also)
    obtain ⟨_, _, own⟩ := sound.renders id render known
    intro item member
    rw [BoundTree.children_eq distinct has] at member
    exact sound.spares_below known has (Forest.Everywhere.at own.regular has)
      (by simp [BoundNode.kind, HasBoundKind.kind, Part.kind])
      (Forest.roots_subset_names _ member)
  · simp

theorem hideItem_kept (sound : world.Sound) (id : RenderId) (list : BoundId) (index : Nat) :
    world.Kept (world.hideItem id list index) := by
  refine teardownAll_kept sound fun item member => itemsShown_spares sound id list item ?_
  exact List.mem_of_getElem? (Option.mem_toList.1 member)

theorem hideItems_kept (sound : world.Sound) (id : RenderId) (list : BoundId) :
    world.Kept (world.hideItems id list) :=
  teardownAll_kept sound (itemsShown_spares sound id list)

theorem splice_kept (behaviour : Behaviour Client) (sound : world.Sound) (id : RenderId)
    (list : BoundId) {change : Change} (refers : world.data.RefersIn change) :
    world.Kept (world.splice behaviour id list change) := by
  cases change with
  | insert index item =>
      show world.Kept (world.showItems behaviour id list index [item])
      refine showItems_kept behaviour sound id list index fun other member => ?_
      rw [List.mem_singleton.1 member]
      exact refers
  | remove index item => exact hideItem_kept sound id list index
  | update index item =>
      have hidden := hideItem_kept sound id list index
      have shown : (world.hideItem id list index).Kept
          ((world.hideItem id list index).showItems behaviour id list index [item]) := by
        refine showItems_kept behaviour hidden.sound id list index fun other member => ?_
        rw [List.mem_singleton.1 member, hidden.agrees.refers]
        exact refers
      exact hidden.trans shown
  | replace items =>
      have hidden := hideItems_kept sound id list
      have shown : (world.hideItems id list).Kept
          ((world.hideItems id list).showItems behaviour id list 0 items) := by
        refine showItems_kept behaviour hidden.sound id list 0 fun item member => ?_
        rw [hidden.agrees.refers]
        exact refers item member
      exact hidden.trans shown

end World

end LiveTemplate
