import LiveTemplate.Proofs.View.LeakFreedom

/-!
# The order of the document

In every world that can be reached, the document nodes of a render stand as its bound nodes say: the
children of an element are what its bound children have put side by side, in their order, and of
everything that was ever created for the render only the nodes of live bound nodes are left.
-/

namespace LiveTemplate

namespace BoundForest

variable {forest trees : BoundForest Part}

/-- An element stands in the skeleton over the skeleton of its children. -/
theorem has_skeleton {name : BoundId} {node : BoundNode Part} {below : BoundForest Part}
    {dom : NodeId} (has : Forest.Has forest name node below) (kind : node.kind = .element)
    (own : node.dom = some dom) : (skeleton forest).Has dom () (skeleton below) := by
  induction forest with
  | nil => exact has.elim
  | cons first label children rest inside beside =>
      rw [skeleton_cons]
      rcases has with ⟨rfl, rfl, rfl⟩ | found | found
      · refine Forest.has_append.2 (.inl ?_)
        rw [around_of_element kind own]
        exact Forest.has_of_root ..
      · refine Forest.has_append.2 (.inl ?_)
        have deeper := inside found
        cases outer : label.dom with
        | none => rwa [around_of_none outer]
        | some other =>
            by_cases also : label.kind = .element
            · rw [around_of_element also outer]
              exact .inr (.inl deeper)
            · rw [around_of_other also outer]
              exact .inr (.inr deeper)
      · exact Forest.has_append.2 (.inr (beside found))

/-- No document node belongs to two bound nodes. -/
theorem shown_single {first second : BoundId} {node other : BoundNode Part}
    {below under : BoundForest Part} {dom : NodeId} (single : (shown forest).Nodup)
    (has : Forest.Has forest first node below) (also : Forest.Has forest second other under)
    (own : node.dom = some dom) (ownToo : other.dom = some dom) : first = second := by
  have listed : ∀ {trees inner : BoundForest Part} {name : BoundId} {label : BoundNode Part},
      Forest.Has trees name label inner → label.dom = some dom → dom ∈ shown trees :=
    fun found holds => mem_shown.2 ⟨_, found.mem_entries, holds⟩
  induction forest with
  | nil => exact has.elim
  | cons name label children rest inside beside =>
      obtain ⟨singleInside, singleBeside, away, apart⟩ := shown_parts single
      rcases has with ⟨rfl, rfl, rfl⟩ | found | found <;>
        rcases also with ⟨rfl, rfl, rfl⟩ | foundToo | foundToo
      · rfl
      · exact ((away dom own).1 (listed foundToo ownToo)).elim
      · exact ((away dom own).2 (listed foundToo ownToo)).elim
      · exact ((away dom ownToo).1 (listed found own)).elim
      · exact inside singleInside found foundToo
      · exact (apart (listed found own) (listed foundToo ownToo)).elim
      · exact ((away dom ownToo).2 (listed found own)).elim
      · exact (apart (listed foundToo ownToo) (listed found own)).elim
      · exact beside singleBeside found foundToo

/-- What trees put side by side is what each of them does, one after the other. -/
theorem flat_eq_flatMap (distinct : forest.names.Nodup)
    (inside : ∀ name node below, Forest.Has trees name node below →
      Forest.Has forest name node below) :
    flat trees = trees.roots.flatMap fun root => flat (forest.subtree root) := by
  induction trees with
  | nil => rfl
  | cons first node children rest _ beside =>
      have here := inside first node children (Forest.has_of_root ..)
      have later := beside fun name label below has => inside name label below (.inr (.inr has))
      rw [Forest.roots, List.flatMap_cons, ← later, here.subtree_eq distinct]
      simp [flat]

end BoundForest

namespace World

open BoundForest (account skeleton shown)

variable {Client : Type} {world : World Client} {id : RenderId} {render : Render}

/-- How the document of a render stands to its bound nodes. -/
structure Ordered (world : World Client) (id : RenderId) (render : Render) : Prop where
  /-- The children of an element are what its bound children have put side by side. -/
  elements : ∀ name node, world.bound? id name = some node → node.kind = .element →
    ∃ dom, node.dom = some dom ∧
      (world.document render.document).children dom =
        (render.tree.children name).flatMap fun child =>
          BoundForest.flat (render.tree.nodes.subtree child)
  /-- Elements, texts, directives and lists have a document node, the others have none. -/
  owns : ∀ name node, world.bound? id name = some node →
    (node.dom.isSome = true ↔
      node.kind = .element ∨ node.kind = .text ∨ node.kind = .switch ∨ node.kind = .list)
  /-- What was created and is still there belongs to a live bound node, and the other way round. -/
  present : ∀ dom, dom ∈ render.created ∧ (world.document render.document).contains dom = true ↔
    ∃ name node, world.bound? id name = some node ∧ node.dom = some dom
  /-- No two bound nodes have one document node. -/
  single : ∀ first second node other dom, world.bound? id first = some node →
    world.bound? id second = some other → node.dom = some dom → other.dom = some dom →
      first = second
  /-- A directive shows one thing at a time. -/
  switches : ∀ name node, world.bound? id name = some node → node.kind = .switch →
    (render.tree.shownBy name).length ≤ 1
  /-- Looking for the last document node from the end finds it. -/
  last : ∀ name, render.tree.lastNode name =
    (BoundForest.flat (render.tree.nodes.subtree name)).getLast?

theorem bound?_iff_has (sound : world.Sound) (known : world.render? id = some render)
    {name : BoundId} {node : BoundNode Part} :
    world.bound? id name = some node ↔ ∃ below, Forest.Has render.tree.nodes name node below := by
  rw [bound?_iff sound known, Forest.has_iff_mem_entries]

theorem Sound.ordered (sound : world.Sound) (known : world.render? id = some render) :
    world.Ordered id render := by
  obtain ⟨document, stored, own⟩ := sound.renders id render known
  have documentSound := sound.documents _ _ stored
  have regular : ∀ {name node below}, Forest.Has render.tree.nodes name node below →
      BoundForest.Regular node below := fun has => Forest.Everywhere.at own.regular has
  refine ⟨fun name node found kind => ?_, fun name node found => ?_, fun dom => ?_,
    fun first second node other dom found also holds holdsToo => ?_, fun name node found kind => ?_,
    fun name => ?_⟩
  · obtain ⟨below, has⟩ := (bound?_iff_has sound known).1 found
    have owns : node.dom.isSome = true := by
      simpa [BoundForest.Regular, kind] using regular has
    obtain ⟨dom, holds⟩ := Option.isSome_iff_exists.1 owns
    refine ⟨dom, holds, ?_⟩
    have bones := BoundForest.has_skeleton has kind holds
    rw [← own.mirrors.shape] at bones
    obtain ⟨data, inner, there, _, shape⟩ := Forest.exists_has_of_map bones
    have standing := there.of_subtree documentSound.distinct
    calc (world.document render.document).children dom
      _ = inner.roots := by
          rw [document_eq stored, Document.children, Forest.childrenOf,
            standing.under_eq documentSound.distinct]
      _ = (skeleton below).roots := by
          rw [shape, Forest.roots_map]
      _ = BoundForest.flat below :=
          (BoundForest.flat_eq_roots (Forest.Everywhere.below own.regular has)).symm
      _ = below.roots.flatMap fun child => BoundForest.flat (render.tree.nodes.subtree child) :=
          BoundForest.flat_eq_flatMap own.distinct fun _ _ _ inside => has.trans inside
      _ = _ := by
          rw [BoundTree.children_eq own.distinct has]
  · obtain ⟨below, has⟩ := (bound?_iff_has sound known).1 found
    have here := regular has
    cases kind : node.kind <;> simp_all [BoundForest.Regular]
  · rw [document_eq stored, Document.contains, Forest.contains_iff_mem]
    have listed : (∃ name node, world.bound? id name = some node ∧ node.dom = some dom) ↔
        dom ∈ shown render.tree.nodes := by
      rw [BoundForest.mem_shown, Prod.exists]
      simp only [bound?_iff sound known]
    rw [listed, ← BoundForest.mem_skeleton]
    constructor
    · rintro ⟨made, inside⟩
      exact own.mirrors.present dom made inside
    · intro member
      exact ⟨own.mirrors.covered member, own.mirrors.subset documentSound member⟩
  · obtain ⟨_, has⟩ := (bound?_iff_has sound known).1 found
    obtain ⟨_, hasToo⟩ := (bound?_iff_has sound known).1 also
    exact BoundForest.shown_single (own.shown_nodup documentSound) has hasToo holds holdsToo
  · obtain ⟨below, has⟩ := (bound?_iff_has sound known).1 found
    have here := regular has
    simp only [BoundForest.Regular, kind] at here
    rw [shownBy_eq own.distinct has, List.length_map]
    exact here.2
  · by_cases member : name ∈ render.tree.nodes.names
    · obtain ⟨node, below, has⟩ := Forest.exists_has member
      rw [BoundTree.lastNode, has.subtree_eq own.distinct]
      exact BoundForest.last?_eq_getLast?
        ⟨regular has, Forest.Everywhere.below own.regular has, trivial⟩
    · rw [BoundTree.lastNode, Forest.subtree_eq_nil_of_not_mem member]
      rfl

/-- Whatever has happened, the document of a render is in the order of its bound nodes. -/
theorem Conduct.document_ordered {client : Client} (conduct : Conduct { client } world)
    (known : world.render? id = some render) : world.Ordered id render :=
  conduct.sound.ordered known

theorem document_ordered_greeted :
    ∃ render, greeted.render? ⟨0⟩ = some render ∧ greeted.Ordered ⟨0⟩ render := by
  obtain ⟨render, known, _⟩ := render?_greeted
  exact ⟨render, known, conduct_greeted.document_ordered known⟩

end World

end LiveTemplate
