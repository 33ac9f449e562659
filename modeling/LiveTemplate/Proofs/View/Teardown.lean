import LiveTemplate.Proofs.View.Soundness
import LiveTemplate.View.React

/-!
# Tearing down

A bound node that is torn down goes with everything below it, its registrations end, and its
document nodes go.  The world stays sound as long as the root element is not torn down alone.
-/

namespace LiveTemplate

open BoundForest (account skeleton shown AllRegular)

namespace World

variable {Client : Type} {world : World Client} {id : RenderId} {render : Render}

theorem render?_modifyRender (world : World Client) (id other : RenderId)
    (change : Render → Render) :
    (world.modifyRender id change).render? other =
      if other = id then (world.render? other).map change else world.render? other := by
  simp only [render?, modifyRender, Store.get?_modify]
  by_cases same : other = id
  · simp [same]
  · have differs : other.index ≠ id.index := fun equal => same (by cases other; cases id; simp_all)
    simp [same, differs]

theorem render?_modifyTree (world : World Client) (id other : RenderId)
    (change : BoundTree Part → BoundTree Part) :
    (world.modifyTree id change).render? other =
      if other = id then (world.render? other).map fun render =>
        { render with tree := change render.tree }
      else world.render? other :=
  render?_modifyRender ..

theorem document_eq {world : World Client} {place : DocumentId} {document : Document}
    (stored : world.documents.get? place.index = some document) :
    world.document place = document := by
  rw [World.document, stored, Option.getD_some]

/-- The root element is some other node. -/
def Spares (world : World Client) (id : RenderId) (node : BoundId) : Prop :=
  ∀ render group element top below rest, world.render? id = some render →
    render.Rooted group element top below rest → node ≠ top

theorem Sound.spares_root (sound : world.Sound) (known : world.render? id = some render) :
    world.Spares id render.root := by
  intro another group element top below rest also rooted
  obtain rfl := Option.some.inj (known.symm.trans also)
  obtain ⟨_, _, own⟩ := sound.renders id render known
  exact (rooted.parts own.distinct).1

theorem render?_teardown (world : World Client) (id other : RenderId) (node : BoundId) :
    (world.teardown id node).render? other =
      if other = id then (world.render? other).map fun render =>
        { render with tree := { render.tree with nodes := render.tree.nodes.prune node } }
      else world.render? other := by
  unfold teardown
  cases known : world.render? id with
  | none =>
      by_cases same : other = id
      · simp [same, known]
      · simp [same]
  | some render =>
      dsimp only [setDocument]
      rw [render?_modifyTree]
      by_cases same : other = id
      · subst same
        have still : ∀ (data : Data) (documents : Store Document),
            World.render? { world with data, documents } other = some render :=
          fun _ _ => known
        simp only [if_true, still, Option.map_some, BoundTree.teardown]
      · rw [if_neg same, if_neg same]
        rfl

theorem data_teardown (world : World Client) (id : RenderId) (node : BoundId) :
    ∃ gone, world.data.Cancels (world.teardown id node).data gone := by
  unfold teardown
  split
  · exact ⟨[], .nil _⟩
  · exact ⟨_, Data.cancelAll_cancels _ _⟩

theorem teardown_of_render? (known : world.render? id = some render) (node : BoundId) :
    (world.teardown id node).data =
        world.data.cancelAll (BoundForest.ledger (render.tree.nodes.subtree node)) ∧
      (world.teardown id node).documents = world.documents.modify render.document.index fun _ =>
        (world.document render.document).removeAll (shown (render.tree.nodes.subtree node)) := by
  simp only [teardown, known]
  exact ⟨rfl, rfl⟩

/-- The account of what is torn down and of what is left. -/
theorem account_subtree_perm {nodes : Bindings} (distinct : nodes.names.Nodup) (node : BoundId) :
    (account nodes).Perm (account (nodes.subtree node) ++ account (nodes.prune node)) := by
  by_cases member : node ∈ nodes.names
  · obtain ⟨label, below, has⟩ := Forest.exists_has member
    rw [has.subtree_eq distinct]
    exact BoundForest.account_prune_perm distinct has
  · rw [Forest.subtree_eq_nil_of_not_mem member, Forest.prune_eq_self member]
    exact .refl _

/-- The render without one bound node and all that is below it. -/
def pruned (render : Render) (node : BoundId) : Render :=
  { render with tree := { render.tree with nodes := render.tree.nodes.prune node } }

theorem pruned_sound {data other : Data} {document : Document} {node : BoundId}
    (sound : render.Sound id data document) (documentSound : document.Sound)
    (cancels : data.Cancels other
      ((account (render.tree.nodes.subtree node)).map Prod.fst))
    (spares : ∀ group element top below rest, render.Rooted group element top below rest →
      node ≠ top) :
    (pruned render node).Sound id other
      (document.removeAll (shown (render.tree.nodes.subtree node))) := by
  have single := sound.shown_nodup documentSound
  have names : (render.tree.nodes.prune node).names.Sublist render.tree.nodes.names := by
    rw [Forest.prune_eq_without]
    exact Forest.names_without_sublist ..
  refine ⟨sound.distinct.sublist names, fun name member => sound.numbered name (names.subset member),
    ?_, sound.regular.prune node, fun entry member => ?_,
    (sound.balanced.perm (account_subtree_perm sound.distinct node)).cancelled cancels, ?_⟩
  · rcases sound.rooted with none | ⟨group, element, top, below, rest, rooted⟩
    · exact .inl (by simp [pruned, none, Forest.prune])
    · by_cases atRoot : node = render.root
      · refine .inl ?_
        simp [pruned, rooted.nodes, Forest.prune, atRoot]
      · exact .inr ⟨group, element, top, _, _, rooted.prune atRoot
          (spares group element top below rest rooted) render.tree.next render.created⟩
  · obtain ⟨deeper, has⟩ := Forest.has_iff_mem_entries.2 member
    obtain ⟨former, old, _⟩ := Forest.has_prune has
    rw [cancels.agrees.models]
    exact sound.scopes _ old.mem_entries
  · have mirrors := sound.mirrors.removeAll documentSound fun name member =>
      BoundForest.mem_skeleton.2 (BoundForest.shown_subtree_subset _ sound.distinct node member)
    rwa [← BoundForest.skeleton_prune sound.distinct single] at mirrors

theorem Sound.teardown (sound : world.Sound) {node : BoundId}
    (spares : world.Spares id node) : (world.teardown id node).Sound := by
  cases known : world.render? id with
  | none => simpa [World.teardown, known] using sound
  | some render =>
      obtain ⟨document, stored, own⟩ := sound.renders id render known
      have documentSound := sound.documents _ _ stored
      obtain ⟨data, documents⟩ := teardown_of_render? known node
      rw [document_eq stored] at documents
      have cancels := Data.cancelAll_cancels world.data
        (BoundForest.ledger (render.tree.nodes.subtree node))
      rw [← data, ← BoundForest.map_fst_account] at cancels
      have divided := own.balanced.perm (account_subtree_perm own.distinct node)
      have changes : world.Changes (world.teardown id node) id render (pruned render node) document
          (document.removeAll (shown (render.tree.nodes.subtree node))) :=
        { known
          stored
          data := cancels.sound sound.data
          models := cancels.agrees.models.ge
          others := fun other account differs balanced =>
            balanced.aside differs sound.data
              (fun subscription owner member =>
                divided.held subscription owner (List.mem_append_left _ member)) cancels
          owners := fun subscription observer holds => .inl (cancels.holds.1 holds).1
          tidy := documentSound.removeAll _
          aside := fun node created skeleton apart mirrors =>
            own.mirrors.removeAll_aside mirrors documentSound apart fun name member =>
              BoundForest.mem_skeleton.2
                (BoundForest.shown_subtree_subset _ own.distinct _ member)
          place := rfl
          created := fun node member => .inl member
          sound := pruned_sound own documentSound cancels fun group element top below rest rooted =>
            spares render group element top below rest known rooted
          documents
          renders := by
            simp only [World.teardown, known]
            exact Store.modify_congr known rfl }
      exact sound.of_changes changes

theorem Spares.teardown {node other : BoundId} (sound : world.Sound) (spares : world.Spares id node)
    (also : world.Spares id other) : (world.teardown id other).Spares id node := by
  intro render group element top below rest known rooted
  rw [render?_teardown, if_pos rfl] at known
  obtain ⟨former, before, rfl⟩ := Option.map_eq_some_iff.1 known
  obtain ⟨document, _, own⟩ := sound.renders id former before
  rcases own.rooted with none | ⟨group', element', top', below', rest', rooted'⟩
  · have nodes := rooted.nodes
    simp [none, Forest.prune] at nodes
  · have nodes := rooted.nodes
    have notTop := also former group' element' top' below' rest' before rooted'
    by_cases atRoot : former.root = other
    · simp [rooted'.nodes, Forest.prune, atRoot] at nodes
    · simp only [rooted'.nodes, Forest.prune, if_neg atRoot, if_neg (Ne.symm notTop),
        Forest.cons.injEq] at nodes
      obtain ⟨_, _, ⟨rfl, _⟩, _⟩ := nodes
      exact spares former group' element' top' below' rest' before rooted'

theorem Sound.teardownAll (sound : world.Sound) {nodes : List BoundId}
    (spares : ∀ node ∈ nodes, world.Spares id node) : (world.teardownAll id nodes).Sound := by
  induction nodes generalizing world with
  | nil => exact sound
  | cons first later induction =>
      have here := spares first (by simp)
      exact induction (sound.teardown here) fun node member =>
        (spares node (List.mem_cons_of_mem _ member)).teardown sound here

/-- The render without several bound nodes and all that is below them. -/
def sparing (render : Render) (gone : List BoundId) : Render :=
  { render with tree := { render.tree with nodes := render.tree.nodes.without gone } }

theorem render?_teardownAll (world : World Client) (id other : RenderId) (nodes : List BoundId) :
    (world.teardownAll id nodes).render? other =
      if other = id then (world.render? other).map fun render => sparing render nodes
      else world.render? other := by
  induction nodes generalizing world with
  | nil =>
      simp only [teardownAll, List.foldl_nil, sparing, Forest.without_nil_names]
      cases world.render? other <;> simp
  | cons first later induction =>
      rw [teardownAll, List.foldl_cons]
      refine (induction (world.teardown id first)).trans ?_
      rw [render?_teardown]
      by_cases same : other = id
      · simp only [if_pos same, Option.map_map]
        cases world.render? other with
        | none => rfl
        | some render =>
            simp [sparing, Forest.prune_eq_without, Forest.without_without]
      · simp only [if_neg same]

theorem data_teardownAll (world : World Client) (id : RenderId) (nodes : List BoundId) :
    ∃ gone, world.data.Cancels (world.teardownAll id nodes).data gone := by
  induction nodes generalizing world with
  | nil => exact ⟨[], .nil _⟩
  | cons first later induction =>
      obtain ⟨gone, cancels⟩ := data_teardown world id first
      obtain ⟨more, others⟩ := induction (world.teardown id first)
      exact ⟨gone ++ more, cancels.trans others⟩

end World

end LiveTemplate
