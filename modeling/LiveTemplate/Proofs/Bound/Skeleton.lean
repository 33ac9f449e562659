import LiveTemplate.Proofs.Forest.Graft
import LiveTemplate.View.Part

/-!
# The document nodes of bound nodes

The skeleton of a bound forest is the piece of document that belongs to it: the document node of an
element stands over those of its children, and all others stand side by side.  For a regular forest,
its roots are the nodes that `BoundForest.flat` lists.  Edits of the bound forest are edits of the
skeleton.
-/

namespace LiveTemplate

variable {Part : Type}

theorem BoundTree.children_eq {tree : BoundTree Part} {name : BoundId} {node : BoundNode Part}
    {below : BoundForest Part} (distinct : tree.nodes.names.Nodup)
    (has : Forest.Has tree.nodes name node below) : tree.children name = below.roots := by
  rw [BoundTree.children, Forest.childrenOf, has.under_eq distinct]

namespace BoundForest

theorem mem_shown {forest : BoundForest Part} {dom : NodeId} :
    dom ∈ shown forest ↔ ∃ entry ∈ forest.entries, entry.2.dom = some dom := by
  induction forest with
  | nil => simp [shown, Forest.entries]
  | cons id node children rest inside beside =>
      simp only [shown, List.mem_append, inside, beside, Option.mem_toList, Forest.entries,
        List.mem_cons, or_and_right, exists_or, exists_eq_left]
      constructor
      · rintro ((inside | own) | beside)
        · exact .inr (.inl inside)
        · exact .inl own
        · exact .inr (.inr beside)
      · rintro (own | inside | beside)
        · exact .inl (.inr own)
        · exact .inl (.inl inside)
        · exact .inr beside

@[simp] theorem shown_append (first second : BoundForest Part) :
    shown (first ++ second) = shown first ++ shown second := by
  induction first with
  | nil => rfl
  | cons id node children rest _ induction => simp [shown, induction]

theorem shown_has_sublist {forest below : BoundForest Part} {id : BoundId} {node : BoundNode Part}
    (has : Forest.Has forest id node below) :
    (shown (.cons id node below .nil)).Sublist (shown forest) := by
  induction forest with
  | nil => exact has.elim
  | cons name label children rest inside beside =>
      rw [shown, shown]
      rcases has with ⟨rfl, rfl, rfl⟩ | found | found
      · exact List.Sublist.append_left (List.nil_sublist _) _
      · have early := inside found
        rw [shown] at early
        exact early.trans ((List.sublist_append_left ..).trans (List.sublist_append_left ..))
      · have late := beside found
        rw [shown] at late
        exact late.trans (List.sublist_append_right ..)

theorem shown_has_subset {forest below : BoundForest Part} {id : BoundId} {node : BoundNode Part}
    (has : Forest.Has forest id node below) : shown (.cons id node below .nil) ⊆ shown forest :=
  (shown_has_sublist has).subset

theorem shown_subtree_subset (forest : BoundForest Part) (distinct : forest.names.Nodup)
    (id : BoundId) : shown (forest.subtree id) ⊆ shown forest := by
  by_cases member : id ∈ forest.names
  · obtain ⟨node, below, has⟩ := Forest.exists_has member
    rw [has.subtree_eq distinct]
    exact shown_has_subset has
  · simp [Forest.subtree_eq_nil_of_not_mem member, shown]

theorem shown_parts {id : BoundId} {node : BoundNode Part} {children rest : BoundForest Part}
    (single : (shown (.cons id node children rest)).Nodup) :
    (shown children).Nodup ∧ (shown rest).Nodup ∧
      (∀ dom, node.dom = some dom → dom ∉ shown children ∧ dom ∉ shown rest) ∧
      (shown children).Disjoint (shown rest) := by
  simp only [shown, List.nodup_append', List.disjoint_append_left] at single
  obtain ⟨⟨inside, _, apart⟩, beside, away, own⟩ := single
  refine ⟨inside, beside, fun dom holds => ⟨fun member => ?_, fun member => ?_⟩, away⟩
  · exact apart member (by simp [holds])
  · exact own (by simp [holds]) member

end BoundForest

variable {Part : Type} [HasBoundKind Part]

/-- The document node of a bound node together with what belongs to its children. -/
def BoundNode.around (node : BoundNode Part) (below : Forest NodeId Unit) : Forest NodeId Unit :=
  match node.dom with
  | none => below
  | some dom => if node.kind = .element then .cons dom () below .nil else .cons dom () .nil below

namespace BoundForest

/-- The document nodes of a bound forest. -/
def skeleton : BoundForest Part → Forest NodeId Unit
  | .nil => .nil
  | .cons _ node children rest => node.around (skeleton children) ++ skeleton rest

/-- A node has a document node exactly if its kind has one; texts and watching nodes have no
document nodes below them; a directive shows one thing at a time. -/
def Regular (node : BoundNode Part) (below : BoundForest Part) : Prop :=
  match node.kind with
  | .element | .list => node.dom.isSome = true
  | .text => node.dom.isSome = true ∧ skeleton below = .nil
  | .switch =>
    node.dom.isSome = true ∧
      (below.crown.filter fun entry => entry.2.kind != .watch).length ≤ 1
  | .group | .view => node.dom = none
  | .watch => node.dom = none ∧ skeleton below = .nil

/-- Every node is regular. -/
def AllRegular (forest : BoundForest Part) : Prop :=
  Forest.Everywhere (fun _ node below => Regular node below) forest

@[simp] theorem skeleton_nil : skeleton (.nil : BoundForest Part) = .nil := rfl

@[simp] theorem skeleton_cons (id : BoundId) (node : BoundNode Part)
    (children rest : BoundForest Part) :
    skeleton (.cons id node children rest) = node.around (skeleton children) ++ skeleton rest :=
  rfl

@[simp] theorem skeleton_append (first second : BoundForest Part) :
    skeleton (first ++ second) = skeleton first ++ skeleton second := by
  induction first with
  | nil => rfl
  | cons id node children rest _ induction => simp [induction, Forest.append_assoc]

theorem around_of_none {node : BoundNode Part} {below : Forest NodeId Unit}
    (none : node.dom = none) : node.around below = below := by
  simp [BoundNode.around, none]

theorem around_of_element {node : BoundNode Part} {below : Forest NodeId Unit} {dom : NodeId}
    (kind : node.kind = .element) (own : node.dom = some dom) :
    node.around below = .cons dom () below .nil := by
  simp [BoundNode.around, own, kind]

theorem around_of_other {node : BoundNode Part} {below : Forest NodeId Unit} {dom : NodeId}
    (kind : node.kind ≠ .element) (own : node.dom = some dom) :
    node.around below = .cons dom () .nil below := by
  simp [BoundNode.around, own, kind]

theorem names_around_perm (node : BoundNode Part) (below : Forest NodeId Unit) :
    (node.around below).names.Perm (below.names ++ node.dom.toList) := by
  cases own : node.dom with
  | none => simp [around_of_none own]
  | some dom =>
      have same : (node.around below).names = dom :: below.names := by
        by_cases kind : node.kind = .element
        · simp [around_of_element kind own]
        · simp [around_of_other kind own]
      rw [same]
      exact (List.perm_append_singleton dom below.names).symm

/-- The skeleton has the document nodes of all bound nodes. -/
theorem names_skeleton_perm (forest : BoundForest Part) :
    (skeleton forest).names.Perm (shown forest) := by
  induction forest with
  | nil => exact .nil
  | cons id node children rest inside beside =>
      simp only [skeleton_cons, Forest.names_append, shown]
      exact ((names_around_perm node _).trans (inside.append_right _)).append beside

theorem mem_skeleton {forest : BoundForest Part} {dom : NodeId} :
    dom ∈ (skeleton forest).names ↔ dom ∈ shown forest :=
  (names_skeleton_perm forest).mem_iff

theorem shown_eq_nil_iff {forest : BoundForest Part} :
    shown forest = [] ↔ skeleton forest = .nil := by
  constructor
  · intro none
    have empty : (skeleton forest).names = [] := by
      simpa [none] using names_skeleton_perm forest
    cases found : skeleton forest with
    | nil => rfl
    | cons => simp [found] at empty
  · intro none
    simpa [none] using names_skeleton_perm forest

/-! ## Side by side -/

/-- What stands side by side for the nodes are the roots of the skeleton. -/
theorem flat_eq_roots {forest : BoundForest Part} (regular : AllRegular forest) :
    flat forest = (skeleton forest).roots := by
  induction forest with
  | nil => rfl
  | cons id node children rest inside beside =>
      obtain ⟨here, within, later⟩ := regular
      simp only [flat, skeleton_cons, Forest.roots_append, inside within, beside later]
      congr 1
      cases own : node.dom with
      | none =>
          cases kind : node.kind <;> simp_all [Regular, around_of_none, Forest.roots]
      | some dom =>
          cases kind : node.kind with
          | element => simp [around_of_element kind own, Forest.roots]
          | text =>
              have none : skeleton children = .nil := by simp_all [Regular]
              simp [around_of_other (by simp [kind]) own, Forest.roots, none]
          | switch => simp [around_of_other (by simp [kind]) own, Forest.roots]
          | list => simp [around_of_other (by simp [kind]) own, Forest.roots]
          | group => simp [Regular, kind, own] at here
          | view => simp [Regular, kind, own] at here
          | watch => simp [Regular, kind, own] at here

/-- Looking from the end finds the last root of the skeleton. -/
theorem last?_eq_getLast? {forest : BoundForest Part} (regular : AllRegular forest) :
    last? forest = (flat forest).getLast? := by
  induction forest with
  | nil => rfl
  | cons id node children rest inside beside =>
      obtain ⟨here, within, later⟩ := regular
      simp only [last?, flat, List.getLast?_append, inside within, beside later]
      congr 1
      cases own : node.dom with
      | none => cases kind : node.kind <;> simp_all [Regular]
      | some dom => cases kind : node.kind <;> simp [List.getLast?_cons]

theorem last?_cons (id : BoundId) (node : BoundNode Part) (children rest : BoundForest Part) :
    last? (.cons id node children rest) = (last? rest).or (last? (.cons id node children .nil)) := by
  simp [last?]

end BoundForest

/-- Looking for the last document node of trees side by side, from the end. -/
theorem BoundTree.lastOf_roots {tree : BoundTree Part} {trees : BoundForest Part}
    (distinct : tree.nodes.names.Nodup)
    (inside : ∀ name label below, Forest.Has trees name label below →
      Forest.Has tree.nodes name label below) :
    tree.lastOf (Forest.roots trees) = BoundForest.last? trees := by
  induction trees with
  | nil => rfl
  | cons name node children rest _ beside =>
      have later := beside fun name label below has => inside name label below (.inr (.inr has))
      have here := inside name node children (Forest.has_of_root ..)
      rw [BoundForest.last?_cons, ← later]
      simp [lastOf, Forest.roots, List.findSome?_append, lastNode, here.subtree_eq distinct]

end LiveTemplate
