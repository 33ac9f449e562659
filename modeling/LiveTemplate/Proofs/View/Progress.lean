import LiveTemplate.Proofs.Reactive.Recall
import LiveTemplate.Proofs.View.Reactions

/-!
# How a render goes on

Tearing down, relabelling, building and planting change one render and its registrations.  Whatever
of the render is still there afterwards was there before, and so it is with document nodes and with
registrations.  No other render is concerned.
-/

namespace LiveTemplate

/-- What is left of the nodes that had been given out looks as before. -/
structure Document.Recalls (document edited : Document) : Prop where
  issued : ∀ node, document.places.Issued node → edited.places.Issued node
  data : ∀ node found, document.places.Issued node → edited.data? node = some found →
    document.data? node = some found

namespace Document

variable {document edited : Document}

theorem Recalls.refl (document : Document) : document.Recalls document :=
  ⟨fun _ => id, fun _ _ _ => id⟩

theorem Recalls.trans {last : Document} (first : document.Recalls edited)
    (second : edited.Recalls last) : document.Recalls last where
  issued := fun node given => second.issued node (first.issued node given)
  data := fun node found given there =>
    first.data node found given (second.data node found (first.issued node given) there)

/-- Nodes have come and gone, but none has been changed. -/
theorem Recalls.of_entries (sound : document.Sound)
    (issued : ∀ node, document.places.Issued node → edited.places.Issued node)
    (entries : ∀ entry ∈ edited.nodes.entries, entry ∈ document.nodes.entries ∨
      ¬ document.places.Issued entry.1) : document.Recalls edited where
  issued := issued
  data := by
    intro node found given there
    obtain ⟨_, has⟩ := Forest.exists_has_of_label? there
    have old := (entries _ has.mem_entries).resolve_right fun fresh => fresh given
    obtain ⟨_, former⟩ := Forest.has_iff_mem_entries.2 old
    exact former.label?_eq sound.distinct

theorem recalls_removeAll (sound : document.Sound) (gone : List NodeId) :
    document.Recalls (document.removeAll gone) := by
  refine .of_entries sound (fun node given => (issued_removeAll document gone node).2 given) ?_
  rintro ⟨node, found⟩ member
  left
  rw [nodes_removeAll] at member
  obtain ⟨_, has⟩ := Forest.has_iff_mem_entries.2 member
  obtain ⟨data, below, former⟩ := Forest.exists_has
    ((Forest.names_without_sublist _ gone).subset has.mem)
  have kept := former.without sound.distinct has.mem
  have distinct := sound.distinct.sublist (Forest.names_without_sublist document.nodes gone)
  obtain ⟨rfl, _⟩ := has.unique distinct kept
  exact former.mem_entries

end Document

/-- A render is the one that it was, apart from its bound nodes.  More may have been created for
it. -/
structure Render.Continues (changed render : Render) : Prop where
  document : changed.document = render.document
  registry : changed.registry = render.registry
  config : changed.config = render.config
  root : changed.root = render.root
  node : changed.node = render.node

theorem Render.Continues.refl (render : Render) : render.Continues render :=
  ⟨rfl, rfl, rfl, rfl, rfl⟩

theorem Render.Continues.trans {first second third : Render} (later : third.Continues second)
    (early : second.Continues first) : third.Continues first :=
  ⟨later.document.trans early.document, later.registry.trans early.registry,
    later.config.trans early.config, later.root.trans early.root, later.node.trans early.node⟩

namespace World

variable {Client : Type} {world after : World Client} {id : RenderId} {render changed : Render}

/-- A render goes on, and nothing else that is read changes. -/
structure Progress (world after : World Client) (id : RenderId) (render changed : Render) : Prop where
  agrees : world.data.Agrees after.data
  data : world.data.Recalls after.data
  documents : ∀ place, (world.document place).Recalls (after.document place)
  elsewhere : ∀ place, place ≠ render.document → after.document place = world.document place
  known : world.render? id = some render
  here : after.render? id = some changed
  there : ∀ other, other ≠ id → after.render? other = world.render? other
  same : changed.Continues render
  created : render.created ⊆ changed.created
  numbering : render.tree.next ≤ changed.tree.next
  registries : after.registries = world.registries
  failures : world.failures <+: after.failures

theorem Progress.refl (known : world.render? id = some render) :
    world.Progress world id render render :=
  ⟨.refl _, .refl _, fun _ => .refl _, fun _ _ => rfl, known, known, fun _ _ => rfl, .refl _,
    List.Subset.refl _, le_rfl, rfl, List.prefix_refl _⟩

theorem Progress.trans {last : World Client} {further : Render}
    (first : world.Progress after id render changed)
    (second : after.Progress last id changed further) : world.Progress last id render further where
  agrees := first.agrees.trans second.agrees
  data := first.data.trans second.data
  documents := fun place => (first.documents place).trans (second.documents place)
  elsewhere := fun place other =>
    (second.elsewhere place (first.same.document ▸ other)).trans (first.elsewhere place other)
  known := first.known
  here := second.here
  there := fun other differs => (second.there other differs).trans (first.there other differs)
  same := second.same.trans first.same
  created := List.Subset.trans first.created second.created
  numbering := first.numbering.trans second.numbering
  registries := second.registries.trans first.registries
  failures := first.failures.trans second.failures

theorem document_modify {place : DocumentId} {document edited : Document}
    (stored : world.documents.get? place.index = some document)
    (documents : after.documents = world.documents.modify place.index fun _ => edited)
    (other : DocumentId) :
    after.document other = if other = place then edited else world.document other := by
  simp only [World.document, documents, Store.get?_modify]
  by_cases same : other = place
  · simp [same, stored]
  · have differs : other.index ≠ place.index := fun equal => same (by cases other; cases place; simp_all)
    simp [same, differs]

/-- The render and its document are exchanged for others. -/
theorem Progress.of_exchange {document edited : Document} (known : world.render? id = some render)
    (stored : world.documents.get? render.document.index = some document)
    (agrees : world.data.Agrees after.data) (data : world.data.Recalls after.data)
    (documents : after.documents = world.documents.modify render.document.index fun _ => edited)
    (recalls : document.Recalls edited)
    (renders : after.renders = world.renders.modify id.index fun _ => changed)
    (same : changed.Continues render) (created : render.created ⊆ changed.created)
    (numbering : render.tree.next ≤ changed.tree.next)
    (registries : after.registries = world.registries)
    (failures : world.failures <+: after.failures) : world.Progress after id render changed where
  agrees := agrees
  data := data
  documents := by
    intro place
    rw [document_modify stored documents]
    split
    · rename_i here
      rw [here, document_eq stored]
      exact recalls
    · exact .refl _
  elsewhere := by
    intro place other
    rw [document_modify stored documents, if_neg other]
  known := known
  here := by
    rw [render?] at known ⊢
    rw [renders, Store.get?_modify, if_pos rfl, known]
    rfl
  there := by
    intro other differs
    have apart : other.index ≠ id.index := fun equal => differs (by cases other; cases id; simp_all)
    rw [render?, renders, Store.get?_modify, if_neg apart, render?]
  same := same
  created := created
  numbering := numbering
  registries := registries
  failures := failures

theorem teardown_progress (sound : world.Sound) (known : world.render? id = some render)
    (node : BoundId) : world.Progress (world.teardown id node) id render (pruned render node) := by
  obtain ⟨document, stored, _⟩ := sound.renders id render known
  obtain ⟨data, documents⟩ := teardown_of_render? known node
  have cancels := Data.cancelAll_cancels world.data
    (BoundForest.ledger (render.tree.nodes.subtree node))
  rw [← data] at cancels
  rw [document_eq stored] at documents
  refine .of_exchange known stored cancels.agrees cancels.recalls documents
    (Document.recalls_removeAll (sound.documents _ _ stored) _) ?_ ⟨rfl, rfl, rfl, rfl, rfl⟩
    (List.Subset.refl _) le_rfl ?_ ?_
  · simp only [World.teardown, known]
    exact Store.modify_congr known rfl
  · simp only [World.teardown, known]
    rfl
  · simp only [World.teardown, known]
    exact List.prefix_refl _

theorem teardownAll_progress (sound : world.Sound) (known : world.render? id = some render)
    {nodes : List BoundId} (spares : ∀ node ∈ nodes, world.Spares id node) :
    world.Progress (world.teardownAll id nodes) id render (sparing render nodes) := by
  induction nodes generalizing world render with
  | nil =>
      have whole : sparing render [] = render := by simp [sparing, Forest.without_nil_names]
      rw [whole]
      exact .refl known
  | cons first later induction =>
      have here := spares first List.mem_cons_self
      have progress := teardown_progress sound known first
      have further := induction (sound.teardown here) progress.here fun node member =>
        (spares node (List.mem_cons_of_mem _ member)).teardown sound here
      have both : sparing (pruned render first) later = sparing render (first :: later) := by
        simp [sparing, pruned, Forest.prune_eq_without, Forest.without_without]
      rw [both] at further
      exact progress.trans further

/-- A directive is given another decision. -/
theorem settle_progress (sound : world.Sound) (known : world.render? id = some render)
    (switch : BoundId) (decision : Option Bool) :
    world.Progress (world.settle id switch decision) id render
      { render with tree.nodes := render.tree.nodes.modify switch (·.decided decision) } := by
  obtain ⟨document, stored, _⟩ := sound.renders id render known
  exact .of_exchange known stored (.refl _) (.refl _) (Store.modify_eq_self stored rfl).symm (.refl _)
    (Store.modify_congr known rfl) ⟨rfl, rfl, rfl, rfl, rfl⟩ (List.Subset.refl _) le_rfl rfl
    (List.prefix_refl _)

section Grown

variable {behaviour : Behaviour Client} {grown : World Client} {after : BuildState Client}
  {parent : BoundId}

/-- Bound nodes without document nodes are put below a bound node. -/
theorem Grown.graft_progress {steps : Site Client → Build Client Bindings} {watches : Bindings}
    (run : Grown behaviour world id render steps watches grown after) (sound : world.Sound)
    (known : world.render? id = some render)
    (grows : Build.Grows id (world.buildState render) after [] .nil watches) :
    world.Progress (grown.modifyTree id fun tree => tree.graft parent watches) id render
      { render with
        tree := ⟨render.tree.nodes.modifyUnder parent (· ++ watches), after.nextBound⟩ } := by
  obtain ⟨document, stored, _⟩ := sound.renders id render known
  have kept : document.Recalls { document with places := after.places } := by
    refine ⟨fun node given => ?_, fun _ _ _ there => there⟩
    rw [grows.makes.issued, buildState, document_eq stored]
    exact .inl given
  refine .of_exchange known stored (run.data ▸ grows.agrees) (run.data ▸ grows.makes.data.recalls) ?_
    kept ?_ ⟨rfl, rfl, rfl, rfl, rfl⟩ (List.Subset.refl _) grows.makes.numbering run.registries
    (run.failures ▸ List.prefix_refl _)
  · exact run.documents.trans (Store.modify_congr stored rfl)
  · show grown.renders.modify _ _ = _
    rw [run.renders, Store.modify_modify]
    exact Store.modify_congr known rfl

/-- What has been built is put below a bound node and into the document. -/
theorem Grown.plant_progress {steps : Site Client → Build Client Growth} {growth : Growth}
    {reference : NodeId} {change : Bindings → Bindings}
    (run : Grown behaviour world id render steps growth grown after) (sound : world.Sound)
    (known : world.render? id = some render)
    (grows : Build.Grows id (world.buildState render) after [] growth.page growth.bound)
    (inside : ∀ document, world.documents.get? render.document.index = some document →
      reference ∈ document.nodes.names) :
    world.Progress (grown.plant id render reference growth fun _ tree =>
        { tree with nodes := tree.nodes.modifyUnder parent change }) id render
      { render with
        tree := ⟨render.tree.nodes.modifyUnder parent change, after.nextBound⟩
        created := render.created ++ growth.page.names } := by
  obtain ⟨document, stored, _⟩ := sound.renders id render known
  have documentSound := sound.documents _ _ stored
  have there := inside document stored
  have issued := grows.makes.issued
  have fresh := grows.makes.fresh
  simp only [buildState, document_eq stored] at issued fresh
  have kept : document.Recalls
      ⟨document.nodes.insertAfter reference growth.page, after.places⟩ := by
    apply Document.Recalls.of_entries documentSound
    · exact fun node given => (issued node).2 (.inl given)
    · rintro ⟨node, found⟩ member
      have listed := (Forest.entries_insertAfter_perm documentSound.distinct there).subset member
      rcases List.mem_append.1 listed with old | new
      · exact .inl old
      · exact .inr (fresh node (List.mem_map_of_mem new))
  refine .of_exchange known stored (run.data ▸ grows.agrees) (run.data ▸ grows.makes.data.recalls) ?_
    kept ?_ ⟨rfl, rfl, rfl, rfl, rfl⟩ (List.subset_append_left ..) grows.makes.numbering
    run.registries ?_
  · show grown.documents.modify _ _ = _
    rw [run.documents, Store.modify_modify]
    refine Store.modify_congr stored ?_
    simp [Document.placeAfter, Document.contains, Forest.contains_iff_mem.2 there]
  · show grown.renders.modify _ _ = _
    rw [run.renders, Store.modify_modify]
    exact Store.modify_congr known rfl
  · show world.failures <+: grown.failures ++ _
    rw [run.failures]
    exact List.prefix_append _ _

end Grown

end World

end LiveTemplate
