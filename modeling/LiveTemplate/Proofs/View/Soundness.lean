import LiveTemplate.Proofs.Bound.Edit
import LiveTemplate.Proofs.Bound.Ledger
import LiveTemplate.Proofs.Document.Mirror
import LiveTemplate.View.World

/-!
# Sound worlds

A render is sound if its bound nodes hang together below its root, hold exactly the registrations
that were made for it, and are mirrored by its document.  A world is sound if its data, its
documents and its renders are, and if no two renders have created the same document node.
-/

namespace LiveTemplate

open BoundForest (account skeleton shown AllRegular)

/-- All bound nodes are below one group, whose first child is the root element.  Beside that one
there is nothing but what has no document nodes. -/
structure Render.Rooted (render : Render) (group element : BoundNode Part) (top : BoundId)
    (below rest : Bindings) : Prop where
  nodes : render.tree.nodes = .cons render.root group (.cons top element below rest) .nil
  bare : group.dom = none
  kind : element.kind = .element
  dom : element.dom = some render.node
  beside : skeleton rest = .nil

/-- The invariant of one render. -/
structure Render.Sound (id : RenderId) (render : Render) (data : Data) (document : Document) :
    Prop where
  distinct : render.tree.nodes.names.Nodup
  numbered : ∀ node ∈ render.tree.nodes.names, node.index < render.tree.next
  rooted : render.tree.nodes = .nil ∨
    ∃ group element top below rest, render.Rooted group element top below rest
  regular : AllRegular render.tree.nodes
  scopes : ∀ entry ∈ render.tree.nodes.entries, entry.2.scope.model.index < data.models.next
  balanced : data.Balanced id (account render.tree.nodes)
  mirrors : document.Mirrors render.node render.created (skeleton render.tree.nodes)

/-- The invariant of the world. -/
structure World.Sound {Client : Type} (world : World Client) : Prop where
  data : world.data.Sound
  documents : ∀ id document, world.documents.get? id = some document → document.Sound
  renders : ∀ id render, world.render? id = some render →
    ∃ document, world.documents.get? render.document.index = some document ∧
      render.Sound id world.data document
  apart : ∀ id other render another, id ≠ other → world.render? id = some render →
    world.render? other = some another → render.document = another.document →
    render.created.Disjoint another.created
  owners : ∀ subscription observer id owner, world.data.Holds subscription observer →
    observer.owner? = some (id, owner) → id.index < world.renders.next

namespace Render

variable {id : RenderId} {render : Render} {data : Data} {document : Document}

theorem Sound.shown_nodup (sound : render.Sound id data document) (documentSound : document.Sound) :
    (shown render.tree.nodes).Nodup :=
  (BoundForest.names_skeleton_perm _).nodup_iff.1 (sound.mirrors.skeleton_nodup documentSound)

/-- Only data that was read differently, or registrations of the render, matter to it. -/
theorem Sound.of_aside {other : Data} {changed : Document} (sound : render.Sound id data document)
    (models : data.models.next ≤ other.models.next)
    (balanced : data.Balanced id (account render.tree.nodes) →
      other.Balanced id (account render.tree.nodes))
    (mirrors : document.Mirrors render.node render.created (skeleton render.tree.nodes) →
      changed.Mirrors render.node render.created (skeleton render.tree.nodes)) :
    render.Sound id other changed where
  distinct := sound.distinct
  numbered := sound.numbered
  rooted := sound.rooted
  regular := sound.regular
  scopes := fun entry member => (sound.scopes entry member).trans_le models
  balanced := balanced sound.balanced
  mirrors := mirrors sound.mirrors

section Rooted

variable {group element node : BoundNode Part} {top name : BoundId} {below rest inner : Bindings}

/-- What has a document node and is no element is below the root element. -/
theorem Rooted.has_below (rooted : render.Rooted group element top below rest)
    (has : Forest.Has render.tree.nodes name node inner) (own : node.dom.isSome = true)
    (other : node.kind ≠ .element) : Forest.Has below name node inner := by
  rw [rooted.nodes] at has
  rcases has with ⟨_, rfl, _⟩ | (⟨_, rfl, _⟩ | found | found) | found
  · simp [rooted.bare] at own
  · exact (other rooted.kind).elim
  · exact found
  · rw [BoundForest.skeleton_eq_nil_iff.1 rooted.beside _ found.mem_entries] at own
    simp at own
  · exact found.elim

theorem Rooted.parts (rooted : render.Rooted group element top below rest)
    (distinct : render.tree.nodes.names.Nodup) :
    render.root ≠ top ∧ render.root ∉ below.names ∧ render.root ∉ rest.names ∧
      top ∉ below.names ∧ top ∉ rest.names ∧ below.names.Disjoint rest.names := by
  rw [rooted.nodes] at distinct
  obtain ⟨notInside, _, distinctInside, _, _⟩ := Forest.distinct_parts distinct
  obtain ⟨notBelow, notRest, _, _, apart⟩ := Forest.distinct_parts distinctInside
  simp only [Forest.names_cons, List.mem_cons, List.mem_append, not_or] at notInside
  exact ⟨notInside.1, notInside.2.1, notInside.2.2, notBelow, notRest, apart⟩

theorem Rooted.skeleton_eq (rooted : render.Rooted group element top below rest) :
    skeleton render.tree.nodes = .cons render.node () (skeleton below) .nil := by
  simp [rooted.nodes, BoundForest.around_of_none rooted.bare,
    BoundForest.around_of_element rooted.kind rooted.dom, rooted.beside]

theorem Rooted.prune (rooted : render.Rooted group element top below rest) {target : BoundId}
    (notRoot : target ≠ render.root) (notTop : target ≠ top) (next : Nat) (created : List NodeId) :
    Rooted { render with tree := ⟨render.tree.nodes.prune target, next⟩, created } group element top
      (below.prune target) (rest.prune target) where
  nodes := by simp [rooted.nodes, Forest.prune, Ne.symm notRoot, Ne.symm notTop]
  bare := rooted.bare
  kind := rooted.kind
  dom := rooted.dom
  beside := by
    have bare := BoundForest.skeleton_eq_nil_iff.1 rooted.beside
    refine BoundForest.skeleton_eq_nil_iff.2 fun entry member => ?_
    obtain ⟨deeper, has⟩ := Forest.has_iff_mem_entries.2 member
    obtain ⟨former, old, _⟩ := Forest.has_prune has
    exact bare _ old.mem_entries

theorem Rooted.modify (rooted : render.Rooted group element top below rest) {target : BoundId}
    {change : BoundNode Part → BoundNode Part}
    (same : ∀ node, (change node).kind = node.kind ∧ (change node).dom = node.dom) :
    Rooted { render with tree.nodes := render.tree.nodes.modify target change }
      (if render.root = target then change group else group)
      (if top = target then change element else element) top
      (below.modify target change) (rest.modify target change) where
  nodes := by simp [rooted.nodes, Forest.modify]
  bare := by split <;> simp [same, rooted.bare]
  kind := by split <;> simp [same, rooted.kind]
  dom := by split <;> simp [same, rooted.dom]
  beside := by
    rw [BoundForest.skeleton_modify fun node _ _ => same node]
    exact rooted.beside

/-- An edit below a node that is below the root element. -/
theorem Rooted.modifyUnder_below (rooted : render.Rooted group element top below rest)
    (distinct : render.tree.nodes.names.Nodup) {parent : BoundId} (inside : parent ∈ below.names)
    (change : Bindings → Bindings) (next : Nat) (created : List NodeId) :
    Rooted { render with tree := ⟨render.tree.nodes.modifyUnder parent change, next⟩, created }
      group element top (below.modifyUnder parent change) rest where
  nodes := by
    obtain ⟨_, notRoot, _, notTop, _, apart⟩ := rooted.parts distinct
    have differs : render.root ≠ parent := fun same => notRoot (same ▸ inside)
    have differsTop : top ≠ parent := fun same => notTop (same ▸ inside)
    have absent : parent ∉ rest.names := fun other => apart inside other
    simp [rooted.nodes, Forest.modifyUnder, differs, differsTop,
      Forest.modifyUnder_eq_self absent]
  bare := rooted.bare
  kind := rooted.kind
  dom := rooted.dom
  beside := rooted.beside

/-- What has no document nodes may be put below any node. -/
theorem Rooted.graft (rooted : render.Rooted group element top below rest) (parent : BoundId)
    {watches : Bindings} (bare : skeleton watches = .nil) (next : Nat) (created : List NodeId) :
    ∃ under beside, Rooted { render with
      tree := ⟨render.tree.nodes.modifyUnder parent (· ++ watches), next⟩, created }
      group element top under beside := by
  have kept : ∀ forest : Bindings, skeleton forest = .nil →
      skeleton (forest.modifyUnder parent (· ++ watches)) = .nil := by
    intro forest none
    rw [BoundForest.skeleton_modifyUnder_same, none]
    simp [bare]
  by_cases atRoot : render.root = parent
  · refine ⟨below, rest ++ watches, ?_, rooted.bare, rooted.kind, rooted.dom, ?_⟩
    · simp [rooted.nodes, Forest.modifyUnder, atRoot]
    · simp [rooted.beside, bare]
  · refine ⟨if top = parent then below ++ watches else below.modifyUnder parent (· ++ watches),
      rest.modifyUnder parent (· ++ watches), ?_, rooted.bare, rooted.kind, rooted.dom, ?_⟩
    · simp [rooted.nodes, Forest.modifyUnder, atRoot]
    · exact kept rest rooted.beside

end Rooted

end Render

namespace World

variable {Client : Type} {world after : World Client} {id : RenderId}
  {render changed : Render} {document edited : Document}

/-- What has to be checked when one render comes or changes, together with its document and its
registrations. -/
structure Updates (world after : World Client) (id : RenderId) (changed : Render)
    (document edited : Document) : Prop where
  stored : world.documents.get? changed.document.index = some document
  data : after.data.Sound
  models : world.data.models.next ≤ after.data.models.next
  others : ∀ other account, other ≠ id → world.data.Balanced other account →
    after.data.Balanced other account
  owners : ∀ subscription observer, after.data.Holds subscription observer →
    world.data.Holds subscription observer ∨ ∃ owner, observer.owner? = some (id, owner)
  tidy : edited.Sound
  documents : after.documents = world.documents.modify changed.document.index fun _ => edited
  here : after.render? id = some changed
  there : ∀ other, other ≠ id → after.render? other = world.render? other
  next : world.renders.next ≤ after.renders.next
  apart : ∀ other another, other ≠ id → world.render? other = some another →
    changed.document = another.document → changed.created.Disjoint another.created
  aside : ∀ other another, other ≠ id → world.render? other = some another →
    another.document = changed.document →
    document.Mirrors another.node another.created (skeleton another.tree.nodes) →
    edited.Mirrors another.node another.created (skeleton another.tree.nodes)
  sound : changed.Sound id after.data edited

theorem Sound.of_updates (sound : world.Sound)
    (updates : world.Updates after id changed document edited) : after.Sound where
  data := updates.data
  documents := by
    intro index found there
    rw [updates.documents, Store.get?_modify] at there
    split at there
    · rename_i same
      rw [same, updates.stored] at there
      obtain rfl : edited = found := by simpa using there
      exact updates.tidy
    · exact sound.documents index found there
  renders := by
    intro other another there
    by_cases same : other = id
    · subst same
      obtain rfl : changed = another := Option.some.inj (updates.here.symm.trans there)
      refine ⟨edited, ?_, updates.sound⟩
      rw [updates.documents, Store.get?_modify, if_pos rfl, updates.stored]
      rfl
    · rw [updates.there other same] at there
      obtain ⟨held, known, old⟩ := sound.renders other another there
      by_cases shared : another.document = changed.document
      · obtain rfl : document = held := by
          have both := updates.stored
          rw [← shared, known] at both
          exact (Option.some.inj both).symm
        refine ⟨edited, ?_, old.of_aside updates.models (updates.others other _ same)
          (updates.aside other another same there shared)⟩
        rw [updates.documents, Store.get?_modify, shared, if_pos rfl, updates.stored]
        rfl
      · refine ⟨held, ?_, old.of_aside updates.models (updates.others other _ same)
          fun mirrors => mirrors⟩
        rw [updates.documents, Store.get?_modify, if_neg, known]
        intro equal
        exact shared (by cases h : another.document; cases h' : changed.document; simp_all)
  apart := by
    intro first second render₁ render₂ differs there₁ there₂ shared
    by_cases atFirst : first = id
    · subst atFirst
      obtain rfl : changed = render₁ := Option.some.inj (updates.here.symm.trans there₁)
      rw [updates.there second (Ne.symm differs)] at there₂
      exact updates.apart second render₂ (Ne.symm differs) there₂ shared
    · rw [updates.there first atFirst] at there₁
      by_cases atSecond : second = id
      · subst atSecond
        obtain rfl : changed = render₂ := Option.some.inj (updates.here.symm.trans there₂)
        exact List.disjoint_symm (updates.apart first render₁ differs there₁ shared.symm)
      · rw [updates.there second atSecond] at there₂
        exact sound.apart first second render₁ render₂ differs there₁ there₂ shared
  owners := by
    intro subscription observer other owner holds owned
    rcases updates.owners subscription observer holds with old | ⟨own, theirs⟩
    · exact (sound.owners subscription observer other owner old owned).trans_le updates.next
    · obtain ⟨rfl, rfl⟩ : id = other ∧ own = owner := by simpa [theirs] using owned
      exact Store.lt_next_of_get? updates.here

/-- What has to be checked when one render, its document and its registrations change. -/
structure Changes (world after : World Client) (id : RenderId) (render changed : Render)
    (document edited : Document) : Prop where
  known : world.render? id = some render
  stored : world.documents.get? render.document.index = some document
  data : after.data.Sound
  models : world.data.models.next ≤ after.data.models.next
  others : ∀ other account, other ≠ id → world.data.Balanced other account →
    after.data.Balanced other account
  owners : ∀ subscription observer, after.data.Holds subscription observer →
    world.data.Holds subscription observer ∨ ∃ owner, observer.owner? = some (id, owner)
  tidy : edited.Sound
  aside : ∀ node created skeleton, render.created.Disjoint created →
    document.Mirrors node created skeleton → edited.Mirrors node created skeleton
  place : changed.document = render.document
  created : ∀ node ∈ changed.created, node ∈ render.created ∨ ¬ document.places.Issued node
  sound : changed.Sound id after.data edited
  documents : after.documents = world.documents.modify render.document.index fun _ => edited
  renders : after.renders = world.renders.modify id.index fun _ => changed

theorem Sound.of_changes (sound : world.Sound)
    (changes : world.Changes after id render changed document edited) : after.Sound := by
  have known := changes.known
  have place := changes.place
  have distinct : ∀ other another, other ≠ id → world.render? other = some another →
      render.document = another.document → render.created.Disjoint another.created :=
    fun other another differs there shared =>
      sound.apart id other render another (Ne.symm differs) known there shared
  have updates : world.Updates after id changed document edited :=
    { stored := place ▸ changes.stored
      data := changes.data
      models := changes.models
      others := changes.others
      owners := changes.owners
      tidy := changes.tidy
      documents := place ▸ changes.documents
      here := by
        rw [render?] at known ⊢
        rw [changes.renders, Store.get?_modify, if_pos rfl, known]
        rfl
      there := by
        intro other differs
        have apart : other.index ≠ id.index := fun same =>
          differs (by cases other; cases id; simp_all)
        rw [render?, changes.renders, Store.get?_modify, if_neg apart, render?]
      next := by
        rw [changes.renders, Store.next_modify]
      apart := by
        intro other another differs there shared node made also
        rcases changes.created node made with old | new
        · exact distinct other another differs there (place ▸ shared) old also
        · obtain ⟨held, stored, old⟩ := sound.renders other another there
          have both := changes.stored
          rw [← place, shared, stored] at both
          obtain rfl : held = document := Option.some.inj both
          exact new (old.mirrors.issued node also)
      aside := fun other another differs there shared =>
        changes.aside _ _ _ (distinct other another differs there (place ▸ shared.symm))
      sound := changes.sound }
  exact sound.of_updates updates

end World

end LiveTemplate
