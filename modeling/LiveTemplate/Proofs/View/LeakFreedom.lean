import LiveTemplate.Proofs.Reactive.Census
import LiveTemplate.Proofs.View.Reachable
import Mathlib.Logic.Relation

/-!
# No registration is lost

In every world that can be reached, the registrations that were made for a render are those in the
ledgers of its live bound nodes, and all of these are below its root.  So taking the render down
leaves nothing of it behind.
-/

namespace LiveTemplate

open BoundForest (account skeleton shown)

/-- Every node is reached from a root through lists of children. -/
theorem Forest.reachable_from_roots {Name Label : Type} [DecidableEq Name]
    {forest trees : Forest Name Label} (distinct : forest.names.Nodup)
    (inside : ∀ name label below, Has trees name label below → Has forest name label below)
    {name : Name} (member : name ∈ trees.names) :
    ∃ root ∈ trees.roots,
      Relation.ReflTransGen (fun parent child => child ∈ forest.childrenOf parent) root name := by
  induction trees with
  | nil => simp at member
  | cons first label children rest within beside =>
      simp only [names_cons, List.mem_cons, List.mem_append] at member
      have here := inside first label children (has_of_root ..)
      rcases member with rfl | member | member
      · exact ⟨name, List.mem_cons_self, .refl⟩
      · obtain ⟨root, child, path⟩ := within (fun _ _ _ has => inside _ _ _ (.inr (.inl has))) member
        refine ⟨first, List.mem_cons_self, .head ?_ path⟩
        rwa [childrenOf, here.under_eq distinct]
      · obtain ⟨root, also, path⟩ := beside (fun _ _ _ has => inside _ _ _ (.inr (.inr has))) member
        exact ⟨root, List.mem_cons_of_mem _ also, path⟩

namespace World

variable {Client : Type} {world after : World Client} {id : RenderId} {render : Render}

/-- What is registered for a render, and what its live bound nodes have noted. -/
structure Accounts (world : World Client) (id : RenderId) (render : Render) : Prop where
  /-- Every live bound node is below the root. -/
  reachable : ∀ node, world.isLive id node = true → Relation.ReflTransGen
    (fun parent child => child ∈ render.tree.children parent) render.root node
  /-- All registrations of the render together are all ledgers together. -/
  ledgers : (world.data.registrationsFor id).Perm (BoundForest.ledger render.tree.nodes)
  /-- So they are on each channel and on each collection. -/
  channels : ∀ source,
    (((world.data.registrationsOn source).filter fun entry => entry.2.isFor id).map Prod.fst).Perm
      ((BoundForest.ledger render.tree.nodes).filter fun subscription =>
        subscription.source = source)
  /-- No registration is noted twice, in one ledger or in two. -/
  once : (BoundForest.ledger render.tree.nodes).Nodup
  /-- Each of them is noted by one live bound node, which is the one that it was made for. -/
  holder : ∀ subscription observer owner, world.data.Holds subscription observer →
    observer.owner? = some (id, owner) →
      ∀ node, (∃ label, world.bound? id node = some label ∧ subscription ∈ label.ledger) ↔
        node = owner
  /-- The number of registrations that the render reports. -/
  count : world.subscriptionCount id = (world.data.registrationsFor id).length

theorem bound?_iff (sound : world.Sound) (known : world.render? id = some render) {node : BoundId}
    {label : BoundNode Part} :
    world.bound? id node = some label ↔ (node, label) ∈ render.tree.nodes.entries := by
  obtain ⟨_, _, own⟩ := sound.renders id render known
  rw [bound?, known]
  constructor
  · intro found
    obtain ⟨below, has⟩ := Forest.exists_has_of_label? found
    exact has.mem_entries
  · intro member
    obtain ⟨below, has⟩ := Forest.has_iff_mem_entries.2 member
    exact has.label?_eq own.distinct

/-- The roots of trees of a render are live bound nodes. -/
theorem Sound.roots_forall₂ {Item : Type} {related : BoundNode Part → Item → Prop}
    {items : List Item} (sound : world.Sound) (known : world.render? id = some render)
    {trees : Bindings} (inside : trees.entries ⊆ render.tree.nodes.entries)
    (all : List.Forall₂ (fun entry item => related entry.2 item) trees.crown items) :
    List.Forall₂ (fun root item => ∃ node, world.bound? id root = some node ∧ related node item)
      (Forest.roots trees) items := by
  rw [← Forest.map_fst_crown, List.forall₂_map_left_iff]
  have listed := (List.forall₂_and_left _ _).2 ⟨fun _ member => member, all⟩
  refine listed.imp fun entry item here => ⟨entry.2, ?_, here.2⟩
  exact (bound?_iff sound known).2 (inside (Forest.crown_subset_entries trees here.1))

/-- What stands below a live bound node are its live children. -/
theorem Sound.children_forall₂ {Item : Type} {related : BoundNode Part → Item → Prop}
    {items : List Item} (sound : world.Sound) (known : world.render? id = some render)
    {name : BoundId} {label : BoundNode Part} {below : Bindings}
    (has : Forest.Has render.tree.nodes name label below)
    (all : List.Forall₂ (fun entry item => related entry.2 item) below.crown items) :
    List.Forall₂ (fun child item => ∃ node, world.bound? id child = some node ∧ related node item)
      (render.tree.children name) items := by
  obtain ⟨_, _, own⟩ := sound.renders id render known
  rw [BoundTree.children_eq own.distinct has]
  exact sound.roots_forall₂ known has.entries_subset all

/-- The tree at the root is all there is. -/
theorem subtree_root (sound : world.Sound) (known : world.render? id = some render) :
    render.tree.nodes.subtree render.root = render.tree.nodes := by
  obtain ⟨_, _, own⟩ := sound.renders id render known
  rcases own.rooted with none | ⟨group, element, top, below, rest, rooted⟩
  · rw [none]
    rfl
  · rw [rooted.nodes]
    simp [Forest.subtree]

theorem Sound.accounts (sound : world.Sound) (known : world.render? id = some render) :
    world.Accounts id render := by
  obtain ⟨document, stored, own⟩ := sound.renders id render known
  have ledgers : (world.data.registrationsFor id).Perm (BoundForest.ledger render.tree.nodes) := by
    rw [← BoundForest.map_fst_account]
    exact own.balanced.perm_registrationsFor sound.data
  have once := ledgers.nodup_iff.1 (sound.data.registrationsFor_nodup id)
  refine ⟨fun node live => ?_, ledgers, fun source => ?_, once,
    fun subscription observer owner holds owned node => ?_, ?_⟩
  · have member : node ∈ render.tree.nodes.names := by
      rw [isLive, bound?, known] at live
      exact Forest.label?_isSome_iff.1 live
    obtain ⟨root, top, path⟩ :=
      Forest.reachable_from_roots own.distinct (fun _ _ _ has => has) member
    rcases own.rooted with none | ⟨group, element, first, below, rest, rooted⟩
    · simp [none] at member
    · rw [rooted.nodes] at top
      obtain rfl : root = render.root := by simpa [Forest.roots] using top
      exact path
  · refine (List.perm_ext_iff_of_nodup
      ((sound.data.registrationsOn_nodup source).sublist (List.filter_sublist.map _))
      (once.filter _)).2 fun subscription => ?_
    rw [List.mem_filter, ← ledgers.mem_iff, Data.mem_registrationsFor, List.mem_map]
    simp only [List.mem_filter, Observer.isFor_iff, decide_eq_true_eq]
    constructor
    · rintro ⟨⟨_, observer⟩, ⟨listed, owner, owned⟩, rfl⟩
      obtain ⟨here, holds⟩ := Data.mem_registrationsOn.1 listed
      exact ⟨⟨observer, owner, holds, owned⟩, here⟩
    · rintro ⟨⟨observer, owner, holds, owned⟩, here⟩
      exact ⟨(subscription, observer), ⟨Data.mem_registrationsOn.2 ⟨here, holds⟩, owner, owned⟩, rfl⟩
  · have noted := own.balanced.complete _ _ _ holds owned
    constructor
    · rintro ⟨label, found, listed⟩
      have also := BoundForest.mem_account.2 ⟨label, (bound?_iff sound known).1 found, listed⟩
      exact congrArg Prod.snd (List.inj_on_of_nodup_map own.balanced.distinct also noted rfl)
    · rintro rfl
      obtain ⟨label, member, listed⟩ := BoundForest.mem_account.1 noted
      exact ⟨label, (bound?_iff sound known).2 member, listed⟩
  · rw [subscriptionCount, known]
    show (BoundForest.ledger (render.tree.nodes.subtree render.root)).length = _
    rw [subtree_root sound known, ledgers.length_eq]

/-- Where nothing is, nothing can be torn down. -/
theorem teardown_of_nil (sound : world.Sound) (known : world.render? id = some render)
    (nothing : render.tree.nodes = .nil) (node : BoundId) : world.teardown id node = world := by
  obtain ⟨document, stored, _⟩ := sound.renders id render known
  have tree : { render.tree with nodes := render.tree.nodes.prune node } = render.tree := by
    rw [nothing, Forest.prune, ← nothing]
  have torn : render.tree.teardown node world.data (world.document render.document) =
      (render.tree, world.data, document) := by
    rw [BoundTree.teardown, tree, nothing, document_eq stored]
    rfl
  have renders : world.renders.modify id.index (fun other => { other with tree := render.tree }) =
      world.renders := Store.modify_eq_self known rfl
  have documents : world.documents.modify render.document.index (fun _ => document) =
      world.documents := Store.modify_eq_self stored rfl
  simp only [teardown, known, torn, setDocument, modifyTree, modifyRender, renders, documents]

/-- What is left of a render that has been taken down: nothing. -/
structure Vanished (world : World Client) (id : RenderId) (render : Render) : Prop where
  registrations : ∀ subscription observer, world.data.Holds subscription observer →
    observer.isFor id = false
  document : ∀ node ∈ render.created, (world.document render.document).contains node = false
  again : world.unmount id = world

theorem Sound.vanished (sound : world.Sound) (known : world.render? id = some render) :
    (world.unmount id).Vanished id render := by
  have after : (world.unmount id).Sound := (unmount_sequel sound id).sound
  have unmounted : world.unmount id = world.teardown id render.root := by
    rw [unmount, known]
  have gone : (world.unmount id).render? id = some (pruned render render.root) := by
    rw [unmounted, render?_teardown, if_pos rfl, known]
    rfl
  have nothing : (pruned render render.root).tree.nodes = .nil := by
    obtain ⟨_, _, own⟩ := sound.renders id render known
    rcases own.rooted with none | ⟨group, element, top, below, rest, rooted⟩
    · simp [pruned, none, Forest.prune]
    · simp [pruned, rooted.nodes, Forest.prune]
  obtain ⟨document, stored, own⟩ := after.renders id _ gone
  have place : (world.unmount id).document render.document = document := document_eq stored
  refine ⟨fun subscription observer holds => ?_, fun node made => ?_, ?_⟩
  · by_contra unlike
    obtain ⟨owner, owned⟩ := Observer.isFor_iff.1 (by simpa using unlike)
    have noted := own.balanced.complete _ _ _ holds owned
    simp [nothing] at noted
  · rw [place, Document.contains, Forest.contains_eq_false_iff]
    intro inside
    have left := own.mirrors.present node made inside
    simp [nothing] at left
  · rw [unmount, gone]
    exact teardown_of_nil after gone nothing _

/-- Whatever has happened, the ledgers of a render are exact, and taking it down leaves no trace. -/
theorem Conduct.ledgers_exact {client : Client} (conduct : Conduct { client } world)
    (known : world.render? id = some render) :
    world.Accounts id render ∧ (world.unmount id).Vanished id render :=
  ⟨conduct.sound.accounts known, conduct.sound.vanished known⟩

theorem ledgers_exact_greeted : ∃ render, greeted.render? ⟨0⟩ = some render ∧
    greeted.subscriptionCount ⟨0⟩ = 2 ∧ greeted.Accounts ⟨0⟩ render ∧
      (greeted.unmount ⟨0⟩).Vanished ⟨0⟩ render := by
  obtain ⟨render, known, count⟩ := render?_greeted
  exact ⟨render, known, count, conduct_greeted.ledgers_exact known⟩

end World

end LiveTemplate
