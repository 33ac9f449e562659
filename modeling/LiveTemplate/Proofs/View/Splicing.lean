import LiveTemplate.Proofs.View.ListAlignment
import LiveTemplate.Proofs.View.DocumentOrder

/-!
# A list exchanges a group

A list that is told of a change takes out the group of the item that has gone, and puts in one for the
item that has come.  In the document, what it shows stands together, after its anchor.
-/

namespace LiveTemplate

/-- What a change takes out of a list stands at its place. -/
theorem Change.split {Item : Type} {change : Change} {items : List Value} {shown : List Item}
    (within : change.Within items) (same : shown.length = items.length) :
    ∃ front back, shown = front ++ (change.gone shown ++ back) ∧ front.length = change.place := by
  have here : ∀ index, index < items.length → ∃ front back,
      shown = front ++ (shown[index]?.toList ++ back) ∧ front.length = index := by
    intro index inside
    rw [← same] at inside
    refine ⟨shown.take index, shown.drop (index + 1), ?_, ?_⟩
    · rw [List.getElem?_eq_getElem inside, Option.toList, List.singleton_append,
        List.cons_getElem_drop_succ, List.take_append_drop]
    · rw [List.length_take, Nat.min_eq_left inside.le]
  cases change with
  | insert index item =>
      have inside : index ≤ items.length := within
      refine ⟨shown.take index, shown.drop index, ?_, ?_⟩
      · rw [gone, List.nil_append, List.take_append_drop]
      · rw [List.length_take, same, Nat.min_eq_left inside, place]
  | remove index _ => exact here index within
  | update index _ => exact here index within
  | replace items => exact ⟨[], [], by simp [gone], rfl⟩

/-- An item is shown by one group, in its own scope. -/
theorem Site.items_single {Client : Type} {body : Scope → Build Client Growth} {scope : Scope}
    {value : Value} {before after : BuildState Client} {growth : Growth}
    (run : Build.Runs (Site.items body scope [value]) before growth after) :
    ∃ name below, growth.bound =
      .cons name { part := .group, scope := Site.itemScope scope value } below .nil := by
  simp only [items, item, Build.runs_bind, Build.runs_newBound, Build.runs_pure] at run
  obtain ⟨_, _, ⟨_, _, ⟨rfl, rfl⟩, inner, _, _, rfl, rfl⟩, rest⟩ := run
  refine ⟨⟨before.nextBound⟩, inner.bound, ?_⟩
  split at rest
  · obtain ⟨rfl, _⟩ := Build.runs_pure.1 rest
    rfl
  · obtain ⟨_, _, later, last⟩ := Build.runs_bind.1 rest
    obtain ⟨rfl, _⟩ := Build.runs_pure.1 later
    obtain ⟨rfl, _⟩ := Build.runs_pure.1 last
    rfl

namespace BoundForest

variable {forest trees below : Bindings} {name : BoundId} {node : BoundNode Part} {dom : NodeId}

/-- What belongs to trees is what belongs to each of them, one after the other. -/
theorem shown_eq_flatMap (distinct : forest.names.Nodup)
    (inside : ∀ name node below, Forest.Has trees name node below →
      Forest.Has forest name node below) :
    shown trees = trees.roots.flatMap fun root => shown (forest.subtree root) := by
  induction trees with
  | nil => rfl
  | cons first node children rest _ beside =>
      have here := inside first node children (Forest.has_of_root ..)
      have later := beside fun name label below has => inside name label below (.inr (.inr has))
      rw [Forest.roots, List.flatMap_cons, ← later, here.subtree_eq distinct]
      simp [shown]

theorem flat_cons (name : BoundId) (node : BoundNode Part) (children rest : Bindings) :
    flat (.cons name node children rest) = flat (.cons name node children .nil) ++ flat rest := by
  simp [flat]

/-- What a list shows stands beside its anchor, at the top or directly below an element. -/
theorem flat_list (regular : AllRegular forest) (has : Forest.Has forest name node below)
    (kind : node.kind = .list) (own : node.dom = some dom) :
    (∃ before behind, flat forest = before ++ dom :: (flat below ++ behind)) ∨
      ∃ upper element inner, Forest.Has forest upper element inner ∧ element.kind = .element ∧
        ∃ before behind, flat inner = before ++ dom :: (flat below ++ behind) := by
  induction forest with
  | nil => exact has.elim
  | cons first label children rest inside beside =>
      obtain ⟨here, within, later⟩ := regular
      rcases has with ⟨rfl, rfl, rfl⟩ | found | found
      · refine .inl ⟨[], flat rest, ?_⟩
        simp [flat, kind, own]
      · have filled : skeleton children ≠ .nil := by
          intro none
          rw [skeleton_eq_nil_iff.1 none _ found.mem_entries] at own
          cases own
        rcases inside within found with ⟨before, behind, split⟩ | ⟨upper, element, inner, there, is⟩
        · have side : ∀ early, flat (.cons first label children rest) =
              early ++ (flat children ++ flat rest) → ∃ before behind,
                flat (.cons first label children rest) = before ++ dom :: (flat below ++ behind) := by
            intro early whole
            refine ⟨early ++ before, behind ++ flat rest, ?_⟩
            rw [whole, split]
            simp
          cases sort : label.kind with
          | element =>
              exact .inr ⟨first, label, children, Forest.has_of_root .., sort, before, behind, split⟩
          | text | watch =>
              simp only [Regular, sort] at here
              exact (filled here.2).elim
          | switch | list => exact .inl (side label.dom.toList (by simp [flat, sort]))
          | group | view => exact .inl (side [] (by simp [flat, sort]))
        · exact .inr ⟨upper, element, inner, .inr (.inl there), is⟩
      · rcases beside later found with ⟨before, behind, split⟩ | ⟨upper, element, inner, there, is⟩
        · refine .inl ⟨flat (.cons first label children .nil) ++ before, behind, ?_⟩
          rw [flat_cons, split, List.append_assoc]
        · exact .inr ⟨upper, element, inner, .inr (.inr there), is⟩

end BoundForest

namespace World

open BoundForest (skeleton shown flat)

variable {Client : Type} {world after : World Client} {id : RenderId} {render changed : Render}
  {list : BoundId} {node : BoundNode Part} {below : Bindings} {document : Document}

/-- What an element shows are the children of its document node. -/
theorem Sound.children_element (sound : world.Sound) (known : world.render? id = some render)
    {upper : BoundId} {element : BoundNode Part}
    (has : Forest.Has render.tree.nodes upper element below) (kind : element.kind = .element) :
    ∃ dom, (world.document render.document).children dom = flat below := by
  obtain ⟨_, _, own⟩ := sound.renders id render known
  obtain ⟨dom, _, same⟩ := (sound.ordered known).elements upper element
    ((bound?_iff_has sound known).2 ⟨below, has⟩) kind
  refine ⟨dom, ?_⟩
  rw [same, BoundTree.children_eq own.distinct has]
  exact (BoundForest.flat_eq_flatMap own.distinct fun _ _ _ => has.trans).symm

/-- In the document, what a list shows stands directly after its anchor. -/
theorem Sound.list_placed (sound : world.Sound) (known : world.render? id = some render)
    (has : Forest.Has render.tree.nodes list node below) (kind : node.kind = .list) {anchor : NodeId}
    (own : node.dom = some anchor) : ∃ element before behind,
      (world.document render.document).children element =
        before ++ anchor :: (flat below ++ behind) := by
  obtain ⟨_, _, mine⟩ := sound.renders id render known
  obtain empty | ⟨group, top, first, inner, rest, rooted⟩ := mine.rooted
  · rw [empty] at has
    exact has.elim
  · have whole : Forest.Has render.tree.nodes first top inner := by
      rw [rooted.nodes]
      exact .inr (.inl (Forest.has_of_root ..))
    have deep := rooted.has_below has (by simp [own]) (by simp [kind])
    rcases BoundForest.flat_list (Forest.Everywhere.below mine.regular whole) deep kind own with
      ⟨before, behind, split⟩ | ⟨upper, element, under, there, sort, before, behind, split⟩
    · obtain ⟨dom, children⟩ := sound.children_element known whole rooted.kind
      exact ⟨dom, before, behind, children.trans split⟩
    · obtain ⟨dom, children⟩ := sound.children_element known (whole.trans there) sort
      exact ⟨dom, before, behind, children.trans split⟩

/-! ## One list is told of a change -/

/-- What is built for one item, or for none, is a group for each. -/
theorem items_groups {body : Scope → Build Client Growth} {scope : Scope} {items : List Value}
    {before later : BuildState Client} {growth : Growth}
    (run : Build.Runs (Site.items body scope items) before growth later) (few : items.length ≤ 1) :
    List.Forall₂ (fun entry item => entry.2.part = .group ∧
      entry.2.scope.model = item.modelOr scope.model) growth.bound.crown items := by
  cases items with
  | nil =>
      obtain ⟨rfl, _⟩ := Build.runs_pure.1 run
      exact .nil
  | cons item further =>
      obtain rfl : further = [] := List.length_eq_zero_iff.1 (by simpa using few)
      obtain ⟨name, below, made⟩ := Site.items_single run
      rw [made]
      exact .cons ⟨rfl, (Site.itemScope_spec scope item).2⟩ .nil

/-- A list exchanges a group for another, and in the document what the one has shown for what the other
shows. -/
theorem splice_exchanges (behaviour : Behaviour Client) (sound : world.Sound)
    (known : world.render? id = some render) {collection : CollectionId} {body : List Template.Node}
    {anchor : NodeId} {ledger : List Subscription} {scope : Scope} {change : Change}
    (has : Forest.Has render.tree.nodes list ⟨.list collection body, some anchor, ledger, scope⟩ below)
    (refers : world.data.RefersIn change) (single : ∀ items, change ≠ .replace items)
    {front back : List BoundId} (split : below.roots = front ++ (change.gone below.roots ++ back))
    (place : front.length = change.place) :
    ∃ changed news, (world.splice behaviour id list change).render? id = some changed ∧
      (∃ inner, Forest.Has changed.tree.nodes list ⟨.list collection body, some anchor, ledger, scope⟩
        inner ∧ inner.roots = front ++ (news ++ back)) ∧
      (∀ group ∈ news, render.tree.next ≤ group.index) ∧
      (world.splice behaviour id list change).Aligned id scope.model news change.fresh ∧
      ((world.splice behaviour id list change).document render.document).nodes.without
          (news.flatMap fun group => shown (changed.tree.nodes.subtree group)) =
        (world.document render.document).nodes.without ((change.gone below.roots).flatMap fun group =>
          shown (render.tree.nodes.subtree group)) := by
  obtain ⟨document, stored, own⟩ := sound.renders id render known
  have documentSound := sound.documents _ _ stored
  have tidy := (splice_kept behaviour sound id list refers).sound
  obtain ⟨growth, reference, shape, planted, changed, progress, nodes, built, _⟩ :=
    splice_planted behaviour sound known has refers single
  obtain ⟨site, before, later, building, runs, _⟩ := built.runs
  have reaches : scope.model.index < world.data.models.next := own.scopes _ has.mem_entries
  have grows := Site.items_grows (body_grower site body) runs building.sound
    (building.agrees.models.symm ▸ reaches) fun item member =>
      building.agrees.refers.2 (refers.fresh item member)
  obtain ⟨_, _, late⟩ := tidy.renders id changed progress.here
  have here : Forest.Has changed.tree.nodes list ⟨.list collection body, some anchor, ledger, scope⟩
      ((below.without (change.gone below.roots)).insertAt change.place growth.bound) := by
    rw [nodes]
    exact has.edit own.distinct (fun node => node) fun below =>
      (below.without (change.gone below.roots)).insertAt change.place growth.bound
  have inside : ∀ name node inner, Forest.Has growth.bound name node inner →
      Forest.Has changed.tree.nodes name node inner := fun name node inner found =>
    here.trans (Forest.has_insertAt.2 (.inr found))
  have distinct := (has.nodup own.distinct).of_cons.sublist below.roots_sublist_names
  have few : change.fresh.length ≤ 1 := by
    cases change with
    | replace items => exact (single items rfl).elim
    | _ => simp [Change.fresh]
  refine ⟨changed, growth.bound.roots, progress.here, ⟨_, here, ?_⟩, ?_, ?_, ?_⟩
  · rw [← place]
    exact Forest.roots_exchanged distinct split growth.bound
  · intro group member
    exact building.next.trans
      (grows.makes.numbered group (Forest.roots_subset_names _ member)).1
  · apply tidy.roots_forall₂ progress.here ?_ (items_groups runs few)
    rintro ⟨name, node⟩ member
    obtain ⟨inner, found⟩ := Forest.has_iff_mem_entries.2 member
    exact (inside name node inner found).mem_entries
  · rw [planted, ← BoundForest.shown_eq_flatMap late.distinct inside]
    apply Forest.without_insertAfter
    · intro dom member
      rwa [← Forest.names_shape, shape, BoundForest.mem_skeleton] at member
    · intro dom member comes
      have given := documentSound.issued dom ((Forest.names_without_sublist ..).subset
        (document_eq stored ▸ member))
      rw [← BoundForest.mem_skeleton, ← shape, Forest.names_shape] at comes
      exact grows.makes.fresh dom comes (building.places dom (document_eq stored ▸ given))

end World

end LiveTemplate
