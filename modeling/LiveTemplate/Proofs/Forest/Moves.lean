import LiveTemplate.Proofs.Forest.Family
import LiveTemplate.Proofs.Forest.Graft
import LiveTemplate.Proofs.Forest.Survival

/-!
# Moves within a forest

A tree is taken out of a forest and put to the end, under another node, or after another node.  What
the lists of children are then follows from what they were.
-/

namespace LiveTemplate.Forest

variable {Name Label : Type} [DecidableEq Name] {forest below trees : Forest Name Label}
  {node name target : Name} {label mark : Label}

/-! ## Trees side by side -/

section Beside

variable {first second : Forest Name Label}

theorem label?_append (first second : Forest Name Label) (name : Name) :
    (first ++ second).label? name = (first.label? name).or (second.label? name) := by
  induction first with
  | nil => rfl
  | cons other mark children rest _ beside =>
      rw [cons_append, label?, label?, beside]
      split
      · rfl
      · rw [Option.or_assoc]

theorem childrenOf_append_left (outside : name ∉ second.names) :
    (first ++ second).childrenOf name = first.childrenOf name := by
  induction first with
  | nil => exact childrenOf_eq_nil outside
  | cons other mark children rest _ beside =>
      rw [childrenOf, childrenOf, cons_append, under, under]
      split
      · rfl
      · split
        · rfl
        · exact beside

theorem ancestors_append_left (outside : name ∉ second.names) :
    (first ++ second).ancestors name = first.ancestors name := by
  induction first with
  | nil => exact ancestors_eq_nil outside
  | cons other mark children rest _ beside =>
      rw [cons_append, ancestors, ancestors]
      split
      · rfl
      · split
        · rfl
        · exact beside

end Beside

/-! ## Taking a tree out -/

theorem roots_prune (distinct : forest.names.Nodup) (node : Name) :
    (forest.prune node).roots = forest.roots.erase node := by
  induction forest with
  | nil => rfl
  | cons first mark children rest _ beside =>
      obtain ⟨_, notBeside, _, distinctBeside, _⟩ := distinct_parts distinct
      by_cases here : first = node
      · subst here
        rw [prune, if_pos rfl, prune_eq_self notBeside, roots, List.erase_cons_head]
      · have other : ¬ (first == node) = true := by simpa using here
        rw [prune, if_neg here, roots, roots, beside distinctBeside, List.erase_cons_tail other]

/-- A tree and what is left without it are the whole forest. -/
theorem entries_detached (distinct : forest.names.Nodup) (has : forest.Has node label below) :
    ((forest.prune node).entries ++ (forest.subtree node).entries).Perm forest.entries := by
  obtain ⟨before, after, whole, -, -, pruned⟩ := exists_split distinct has
  have tree : (forest.subtree node).entries = (node, label) :: below.entries := by
    rw [has.subtree_eq distinct, entries]
    simp [entries]
  rw [whole, pruned, tree, List.append_assoc]
  exact List.perm_append_comm.append_left before

theorem names_detached (distinct : forest.names.Nodup) (has : forest.Has node label below) :
    ((forest.prune node).names ++ (forest.subtree node).names).Perm forest.names := by
  rw [names, names, names, ← List.map_append]
  exact (entries_detached distinct has).map Prod.fst

theorem nodup_prune (distinct : forest.names.Nodup) (node : Name) :
    (forest.prune node).names.Nodup := by
  rw [prune_eq_without]
  exact distinct.sublist (names_without_sublist ..)

/-- Where a node stands when a tree is taken out: nowhere, outside of the tree, or in it. -/
theorem outside_or_inside (distinct : forest.names.Nodup) (has : forest.Has node label below)
    (name : Name) : name ∉ forest.names ∨
      (∃ mark former, forest.Has name mark former ∧
        (forest.prune node).Has name mark (former.prune node)) ∨
      ∃ mark inner, forest.Has name mark inner ∧ (forest.subtree node).Has name mark inner ∧
        node ∉ inner.names := by
  by_cases present : name ∈ forest.names
  · rcases List.mem_append.1 ((names_detached distinct has).mem_iff.2 present) with out | within
    · obtain ⟨mark, former, found⟩ := exists_has present
      have left := out
      rw [prune_eq_without] at left
      have kept := found.without distinct left
      rw [← prune_eq_without, ← prune_eq_without] at kept
      exact .inr (.inl ⟨mark, former, found, kept⟩)
    · obtain ⟨mark, inner, found⟩ := exists_has within
      refine .inr (.inr ⟨mark, inner, found.of_subtree distinct, found, fun member => ?_⟩)
      rw [has.subtree_eq distinct] at found
      have apart := (List.nodup_cons.1 (has.nodup distinct)).1
      rcases found with ⟨_, _, rfl⟩ | found | found
      · exact apart member
      · exact apart (found.sublist.subset (List.mem_cons_of_mem _ member))
      · exact found.elim
  · exact .inl present

theorem mem_names_prune (distinct : forest.names.Nodup) (has : forest.Has node label below) :
    name ∈ (forest.prune node).names ↔ name ∈ forest.names ∧ name ∉ (forest.subtree node).names := by
  have whole := names_detached distinct has
  have apart := (List.nodup_append'.1 (whole.nodup_iff.2 distinct)).2.2
  rw [← whole.mem_iff, List.mem_append]
  constructor
  · exact fun out => ⟨.inl out, fun within => apart out within⟩
  · exact fun ⟨either, notWithin⟩ => either.resolve_right notWithin

/-! ## Putting a tree somewhere -/

/-- A node keeps its place when trees are put under another, and has them last below it if they are
put under the node itself. -/
theorem Has.modifyUnder_append (distinct : forest.names.Nodup) (has : forest.Has name mark below) :
    (forest.modifyUnder target (· ++ trees)).Has name mark
      (if name = target then below ++ trees else below.modifyUnder target (· ++ trees)) := by
  have lower : ∀ {forest : Forest Name Label}, forest.Has name mark below → target ∉ forest.names →
      name ≠ target ∧ target ∉ below.names := fun has absent =>
    ⟨fun same => absent (same ▸ has.mem),
      fun member => absent (has.sublist.subset (List.mem_cons_of_mem _ member))⟩
  induction forest with
  | nil => exact has.elim
  | cons first sign children rest inside beside =>
      obtain ⟨notInside, notBeside, distinctInside, distinctBeside, -⟩ := distinct_parts distinct
      by_cases here : first = target
      · subst here
        rw [Forest.modifyUnder, if_pos rfl]
        rcases has with ⟨rfl, rfl, rfl⟩ | found | found
        · rw [if_pos rfl]
          exact has_of_root ..
        · obtain ⟨other, absent⟩ := lower found notInside
          rw [if_neg other, modifyUnder_eq_self absent]
          exact .inr (.inl (has_append.2 (.inl found)))
        · obtain ⟨other, absent⟩ := lower found notBeside
          rw [if_neg other, modifyUnder_eq_self absent, modifyUnder_eq_self notBeside]
          exact .inr (.inr found)
      · rw [Forest.modifyUnder, if_neg here]
        rcases has with ⟨rfl, rfl, rfl⟩ | found | found
        · rw [if_neg here]
          exact has_of_root ..
        · exact .inr (.inl (inside distinctInside found))
        · exact .inr (.inr (beside distinctBeside found))

/-- Trees that are put under a node are there. -/
theorem has_modifyUnder_append (member : target ∈ forest.names) (has : trees.Has name mark below) :
    (forest.modifyUnder target (· ++ trees)).Has name mark below := by
  induction forest with
  | nil => simp at member
  | cons first sign children rest inside beside =>
      rw [Forest.modifyUnder]
      by_cases here : first = target
      · rw [if_pos here]
        exact .inr (.inl (has_append.2 (.inr has)))
      · rw [names_cons, List.mem_cons, List.mem_append] at member
        rw [if_neg here]
        rcases member with same | within | later
        · exact (here same.symm).elim
        · exact .inr (.inl (inside within))
        · exact .inr (.inr (beside later))

/-- Trees that are put after a node are there. -/
theorem has_insertAfter (member : target ∈ forest.names) (has : trees.Has name mark below) :
    (forest.insertAfter target trees).Has name mark below := by
  induction forest with
  | nil => simp at member
  | cons first sign children rest inside beside =>
      rw [insertAfter]
      by_cases here : first = target
      · rw [if_pos here]
        exact .inr (.inr (has_append.2 (.inl has)))
      · rw [names_cons, List.mem_cons, List.mem_append] at member
        rw [if_neg here]
        rcases member with same | within | later
        · exact (here same.symm).elim
        · exact .inr (.inl (inside within))
        · exact .inr (.inr (beside later))

theorem entries_modifyUnder_append (distinct : forest.names.Nodup) (member : target ∈ forest.names) :
    (forest.modifyUnder target (· ++ trees)).entries.Perm (forest.entries ++ trees.entries) := by
  obtain ⟨label, below, has⟩ := exists_has member
  obtain ⟨before, after, whole, under, -, -⟩ := exists_split distinct has
  have same : (forest.modifyUnder target (· ++ trees)).entries =
      (before ++ (target, label) :: below.entries) ++ (trees.entries ++ after) := by
    simp [under, entries_append]
  have also : forest.entries ++ trees.entries =
      (before ++ (target, label) :: below.entries) ++ (after ++ trees.entries) := by
    simp [whole]
  rw [same, also]
  exact List.perm_append_comm.append_left _

/-- A list with further members after a given one. -/
def placedAfter (reference : Name) (placed : List Name) : List Name → List Name
  | [] => []
  | first :: later =>
    if first = reference then first :: (placed ++ later)
    else first :: placedAfter reference placed later

theorem placedAfter_append {reference : Name} {before : List Name} (absent : reference ∉ before)
    (placed after : List Name) :
    placedAfter reference placed (before ++ reference :: after) =
      before ++ reference :: (placed ++ after) := by
  induction before with
  | nil => rw [List.nil_append, placedAfter, if_pos rfl, List.nil_append]
  | cons first later induction =>
      obtain ⟨other, apart⟩ := List.ne_and_not_mem_of_not_mem_cons absent
      rw [List.cons_append, placedAfter, if_neg (Ne.symm other), induction apart, List.cons_append]

theorem placedAfter_eq_self {reference : Name} {members : List Name} (absent : reference ∉ members)
    (placed : List Name) : placedAfter reference placed members = members := by
  induction members with
  | nil => rfl
  | cons first later induction =>
      obtain ⟨other, apart⟩ := List.ne_and_not_mem_of_not_mem_cons absent
      rw [placedAfter, if_neg (Ne.symm other), induction apart]

theorem roots_insertAfter (forest : Forest Name Label) (target : Name) (trees : Forest Name Label) :
    (forest.insertAfter target trees).roots = placedAfter target trees.roots forest.roots := by
  induction forest with
  | nil => rfl
  | cons first mark children rest _ beside =>
      rw [insertAfter, roots, placedAfter]
      split
      · rw [roots, roots_append]
      · rw [roots, beside]

/-! ## Moving a tree -/

section Moving

variable (distinct : forest.names.Nodup) (has : forest.Has node label below)

include distinct has

theorem roots_subtree : (forest.subtree node).roots = [node] := by
  rw [has.subtree_eq distinct]
  rfl

/-- A tree that is put to the end leaves its parent's children. -/
theorem childrenOf_detached (name : Name) :
    (forest.prune node ++ forest.subtree node).childrenOf name =
      (forest.childrenOf name).erase node := by
  have moved : (forest.prune node ++ forest.subtree node).names.Perm forest.names := by
    rw [names_append]
    exact names_detached distinct has
  have apart := moved.nodup_iff.2 distinct
  rcases outside_or_inside distinct has name with absent | ⟨mark, former, found, kept⟩ |
      ⟨mark, inner, found, within, clear⟩
  · rw [childrenOf_eq_nil absent, childrenOf_eq_nil fun member => absent (moved.mem_iff.1 member)]
    rfl
  · rw [found.childrenOf_eq distinct, (has_append.2 (.inl kept)).childrenOf_eq apart,
      roots_prune (found.nodup distinct).of_cons]
  · rw [found.childrenOf_eq distinct, (has_append.2 (.inr within)).childrenOf_eq apart,
      List.erase_of_not_mem fun root => clear (inner.roots_subset_names root)]

/-- A tree that is put under another node is still there. -/
theorem entries_appended (member : target ∈ (forest.prune node).names) :
    ((forest.prune node).modifyUnder target (· ++ forest.subtree node)).entries.Perm
      forest.entries := by
  have left := nodup_prune distinct node
  exact (entries_modifyUnder_append left member).trans (entries_detached distinct has)

/-- A tree that is put under a node is the last one there, and leaves its parent's children. -/
theorem childrenOf_appended (member : target ∈ (forest.prune node).names) (name : Name) :
    ((forest.prune node).modifyUnder target (· ++ forest.subtree node)).childrenOf name =
      if name = target then (forest.childrenOf name).erase node ++ [node]
      else (forest.childrenOf name).erase node := by
  have outside := (mem_names_prune distinct has).1 member
  have moved := (entries_appended distinct has member).map Prod.fst
  have apart := moved.nodup_iff.2 distinct
  have left := nodup_prune distinct node
  rcases outside_or_inside distinct has name with absent | ⟨mark, former, found, kept⟩ |
      ⟨mark, inner, found, within, clear⟩
  · have other : name ≠ target := fun same => absent (same ▸ outside.1)
    rw [childrenOf_eq_nil absent, childrenOf_eq_nil fun member => absent (moved.mem_iff.1 member),
      if_neg other]
    rfl
  · have there := (kept.modifyUnder_append left).childrenOf_eq apart
    rw [there, found.childrenOf_eq distinct, ← roots_prune (found.nodup distinct).of_cons]
    split
    · rw [roots_append, roots_subtree distinct has]
    · rw [roots_modifyUnder]
  · have other : name ≠ target := fun same => outside.2 (same ▸ within.mem)
    rw [found.childrenOf_eq distinct, (has_modifyUnder_append member within).childrenOf_eq apart,
      if_neg other, List.erase_of_not_mem fun root => clear (inner.roots_subset_names root)]

/-- A tree that is put after a node is still there. -/
theorem entries_placed (member : target ∈ (forest.prune node).names) :
    ((forest.prune node).insertAfter target (forest.subtree node)).entries.Perm forest.entries := by
  have left := nodup_prune distinct node
  exact (entries_insertAfter_perm left member).trans (entries_detached distinct has)

/-- A tree that is put after a node is directly after it among its parent's children, and leaves its
own parent's children. -/
theorem childrenOf_placed (member : target ∈ (forest.prune node).names) (name : Name) :
    ((forest.prune node).insertAfter target (forest.subtree node)).childrenOf name =
      placedAfter target [node] ((forest.childrenOf name).erase node) := by
  have outside := (mem_names_prune distinct has).1 member
  have moved := (entries_placed distinct has member).map Prod.fst
  have apart := moved.nodup_iff.2 distinct
  have left := nodup_prune distinct node
  rcases outside_or_inside distinct has name with absent | ⟨mark, former, found, kept⟩ |
      ⟨mark, inner, found, within, clear⟩
  · rw [childrenOf_eq_nil absent, childrenOf_eq_nil fun member => absent (moved.mem_iff.1 member)]
    rfl
  · rw [found.childrenOf_eq distinct, (kept.insertAfter left).childrenOf_eq apart,
      roots_insertAfter, roots_subtree distinct has, roots_prune (found.nodup distinct).of_cons]
  · have absent : target ∉ inner.roots.erase node := fun root => by
      have below := inner.roots_subset_names (List.mem_of_mem_erase root)
      exact outside.2 (within.sublist.subset (List.mem_cons_of_mem _ below))
    rw [found.childrenOf_eq distinct, (has_insertAfter member within).childrenOf_eq apart,
      placedAfter_eq_self absent,
      List.erase_of_not_mem fun root => clear (inner.roots_subset_names root)]

end Moving

end LiveTemplate.Forest
