import LiveTemplate.Proofs.Forest.Regrowth

/-!
# A leaf that is put in, a tree that is taken out

What a forest says of its nodes when one new leaf is put under a node, and when a node is taken out with
everything below it: the labels and the children of all others are what they were, apart from the
one list of children in which the leaf is put, or from which the node is taken.
-/

namespace LiveTemplate.Forest

variable {Name Label : Type} {forest below : Forest Name Label}
  {target node name upper new : Name} {label mark : Label}

/-- The position in front of which a leaf is put is cut to the number of trees. -/
theorem roots_insertAt_leaf (index : Nat) : (forest.insertAt index (leaf new label)).roots =
    forest.roots.insertIdx (min index forest.roots.length) new := by
  have whole : (forest.insertAt index (leaf new label)).roots =
      forest.roots.take index ++ new :: forest.roots.drop index := by
    rw [insertAt, roots_append, roots_append, roots_take, roots_drop]
    rfl
  rw [whole]
  clear whole
  generalize forest.roots = roots
  induction roots generalizing index with
  | nil => simp
  | cons first later induction =>
      cases index with
      | zero => rfl
      | succ index =>
          have shift : min (index + 1) (first :: later).length = min index later.length + 1 := by
            rw [List.length_cons, Nat.add_min_add_right]
          rw [shift, List.insertIdx_succ_cons, List.take_succ_cons, List.drop_succ_cons,
            List.cons_append, induction]

variable [DecidableEq Name]

/-! ## Above and below -/

/-- Parents are told by the lists of children. -/
theorem parent?_congr {other : Forest Name Label} {lower : Name} (distinct : forest.names.Nodup)
    (also : other.names.Nodup)
    (same : ∀ upper, name ∈ forest.childrenOf upper ↔ lower ∈ other.childrenOf upper) :
    forest.parent? name = other.parent? lower :=
  Option.ext fun upper => by
    rw [parent?_eq_some distinct, parent?_eq_some also, same]

/-- The nodes above a node are found by climbing. -/
theorem mem_ancestors_iff (distinct : forest.names.Nodup) : upper ∈ forest.ancestors name ↔
    Relation.TransGen (fun lower upper => forest.parent? lower = some upper) name upper := by
  constructor
  · -- Each parent has one node less above it.
    obtain ⟨height, bound⟩ : ∃ height, (forest.ancestors name).length = height := ⟨_, rfl⟩
    induction height generalizing name with
    | zero =>
        rw [List.length_eq_zero_iff.1 bound]
        exact fun nowhere => nomatch nowhere
    | succ height induction =>
        intro above
        cases parent : forest.parent? name with
        | none =>
            rw [parent?, List.head?_eq_none_iff] at parent
            rw [parent] at above
            cases above
        | some middle =>
            have whole := ancestors_of_parent? distinct parent
            rw [whole, List.length_cons, Nat.succ_inj] at bound
            rw [whole] at above
            rcases List.mem_cons.1 above with rfl | above
            · exact .single parent
            · exact .head parent (induction bound above)
  · intro climb
    induction climb using Relation.TransGen.head_induction_on with
    | single parent =>
        rw [ancestors_of_parent? distinct parent]
        exact List.mem_cons_self
    | head parent _ above =>
        rw [ancestors_of_parent? distinct parent]
        exact List.mem_cons_of_mem _ above

theorem Has.walk_eq (distinct : forest.names.Nodup) (has : forest.Has node label below) :
    forest.walk node = node :: below.names := by
  rw [walk, has.subtree_eq distinct, names_cons, names_nil, List.append_nil]

/-- What is not there has no tree. -/
theorem mem_names_of_walked (inside : name ∈ forest.walk node) : node ∈ forest.names := by
  by_contra absent
  rw [walk, subtree_eq_nil_of_not_mem absent] at inside
  cases inside

/-- A node that is there has in its tree itself and the nodes that have it above them. -/
theorem mem_walk_of_mem (distinct : forest.names.Nodup) (present : node ∈ forest.names) :
    name ∈ forest.walk node ↔ name = node ∨ node ∈ forest.ancestors name := by
  by_cases there : name ∈ forest.names
  · exact mem_walk distinct there
  · refine iff_of_false (fun inside => there ?_) (not_or.2 ⟨?_, ?_⟩)
    · obtain ⟨_, _, has⟩ := exists_has inside
      exact (has.of_subtree distinct).mem
    · rintro rfl
      exact there present
    · rw [ancestors_eq_nil there]
      exact List.not_mem_nil

/-- A node's tree is what is reached from it by going from parents to children. -/
theorem mem_walk_iff (distinct : forest.names.Nodup) (present : node ∈ forest.names) :
    name ∈ forest.walk node ↔
      Relation.ReflTransGen (fun upper lower => lower ∈ forest.childrenOf upper) node name := by
  have down : Relation.ReflTransGen (fun upper lower => lower ∈ forest.childrenOf upper) node name ↔
      Relation.ReflTransGen (fun lower upper => forest.parent? lower = some upper) name node := by
    rw [← Relation.reflTransGen_swap]
    refine iff_of_eq (congrArg (Relation.ReflTransGen · name node) ?_)
    funext lower upper
    exact propext (parent?_eq_some distinct).symm
  have climb : Relation.ReflTransGen (fun lower upper => forest.parent? lower = some upper) name node ↔
      name = node ∨ node ∈ forest.ancestors name := by
    rw [Relation.reflTransGen_iff_eq_or_transGen, mem_ancestors_iff distinct, eq_comm]
  rw [down, climb, mem_walk_of_mem distinct present]

/-! ## A tree that is taken out -/

section Pruned

variable (distinct : forest.names.Nodup) (has : forest.Has node label below)

include distinct has

/-- What is left without a tree is what was outside of it. -/
theorem has_outside {former : Forest Name Label} (outside : name ∉ forest.walk node)
    (found : forest.Has name mark former) :
    (forest.prune node).Has name mark (former.prune node) := by
  have left := (mem_names_prune distinct has).2 ⟨found.mem, outside⟩
  rw [prune_eq_without] at left
  have kept := found.without distinct left
  rwa [← prune_eq_without, ← prune_eq_without] at kept

theorem label?_prune (outside : name ∉ forest.walk node) :
    (forest.prune node).label? name = forest.label? name := by
  have left := nodup_prune distinct node
  by_cases present : name ∈ forest.names
  · obtain ⟨mark, former, found⟩ := exists_has present
    rw [found.label?_eq distinct, (has_outside distinct has outside found).label?_eq left]
  · have absent : name ∉ (forest.prune node).names := fun member =>
      present ((mem_names_prune distinct has).1 member).1
    rw [← label?_isSome_iff, Bool.not_eq_true, Option.isSome_eq_false_iff, Option.isNone_iff_eq_none]
      at present absent
    rw [present, absent]

theorem childrenOf_prune (outside : name ∉ forest.walk node) :
    (forest.prune node).childrenOf name = (forest.childrenOf name).erase node := by
  have left := nodup_prune distinct node
  by_cases present : name ∈ forest.names
  · obtain ⟨mark, former, found⟩ := exists_has present
    rw [found.childrenOf_eq distinct, (has_outside distinct has outside found).childrenOf_eq left,
      roots_prune (found.nodup distinct).of_cons]
  · rw [childrenOf_eq_nil present, childrenOf_eq_nil fun member =>
      present ((mem_names_prune distinct has).1 member).1]
    rfl

theorem parent?_prune (outside : name ∉ forest.walk node) :
    (forest.prune node).parent? name = forest.parent? name := by
  have left := nodup_prune distinct node
  have self : name ≠ node := by
    rintro rfl
    rw [has.walk_eq distinct] at outside
    exact outside List.mem_cons_self
  refine parent?_congr left distinct fun upper => ?_
  by_cases inside : upper ∈ forest.walk node
  · -- What is below a node of the tree is in the tree.
    have absent : upper ∉ (forest.prune node).names := fun member =>
      ((mem_names_prune distinct has).1 member).2 inside
    rw [childrenOf_eq_nil absent]
    refine iff_of_false List.not_mem_nil fun child => outside ?_
    rw [mem_walk_iff distinct has.mem] at inside ⊢
    exact inside.tail child
  · rw [childrenOf_prune distinct has inside, List.mem_erase_of_ne self]

end Pruned

/-! ## A leaf that is put in -/

theorem label?_grown {grown : Forest Name Label} (distinct : forest.names.Nodup)
    (fresh : new ∉ forest.names) (entries : grown.entries.Perm ((new, label) :: forest.entries)) :
    grown.label? name = if name = new then some label else forest.label? name := by
  have names : grown.names.Perm (new :: forest.names) := entries.map Prod.fst
  have apart : grown.names.Nodup := names.nodup_iff.2 (List.nodup_cons.2 ⟨fresh, distinct⟩)
  refine Option.ext fun mark => ?_
  rw [label?_eq_some_iff apart, entries.mem_iff, List.mem_cons, Prod.mk.injEq]
  split
  · rename_i here
    subst here
    rw [Option.some.injEq, or_iff_left fun member => fresh (List.mem_map_of_mem member),
      and_iff_right rfl, eq_comm]
  · rename_i other
    rw [label?_eq_some_iff distinct, or_iff_right fun same => other same.1]

section Adopted

variable (distinct : forest.names.Nodup) (fresh : new ∉ forest.names) (member : target ∈ forest.names)
  (index : Nat)

include distinct member

theorem entries_adopted : (forest.modifyUnder target (·.insertAt index (leaf new label))).entries.Perm
    ((new, label) :: forest.entries) := by
  obtain ⟨mark, below, has⟩ := exists_has member
  obtain ⟨before, after, whole, under, -, -⟩ := exists_split distinct has
  have parts : (below.insertAt index (leaf new label)).entries.Perm ((new, label) :: below.entries) := by
    have split := congrArg entries (take_append_drop below index)
    rw [entries_append] at split
    rw [insertAt, entries_append, entries_append, ← split]
    exact List.perm_middle
  rw [under, whole]
  refine .trans ?_ List.perm_middle
  refine List.Perm.append_left before (.trans ?_ (.swap ..))
  exact (parts.append_right after).cons _

theorem names_adopted : (forest.modifyUnder target (·.insertAt index (leaf new label))).names.Perm
    (new :: forest.names) :=
  (entries_adopted distinct member index).map Prod.fst

include fresh

theorem nodup_adopted : (forest.modifyUnder target (·.insertAt index (leaf new label))).names.Nodup :=
  (names_adopted distinct member index).nodup_iff.2 (List.nodup_cons.2 ⟨fresh, distinct⟩)

theorem childrenOf_adopted (name : Name) :
    (forest.modifyUnder target (·.insertAt index (leaf new label))).childrenOf name =
      if name = target then
        (forest.childrenOf name).insertIdx (min index (forest.childrenOf name).length) new
      else forest.childrenOf name := by
  have apart : (forest.modifyUnder target (·.insertAt index (leaf new label))).names.Nodup :=
    nodup_adopted distinct fresh member index
  have names : (forest.modifyUnder target (·.insertAt index (leaf new label))).names.Perm
      (new :: forest.names) := names_adopted distinct member index
  by_cases present : name ∈ (forest.modifyUnder target (·.insertAt index (leaf new label))).names
  · obtain ⟨mark, after, found⟩ := exists_has present
    rw [found.childrenOf_eq apart]
    rcases has_modifyUnder found with ⟨former, old, other, rfl⟩ | ⟨former, old, rfl, rfl⟩ |
      ⟨sign, former, old, inner⟩
    · rw [if_neg other, roots_modifyUnder, old.childrenOf_eq distinct]
    · rw [if_pos rfl, old.childrenOf_eq distinct, roots_insertAt_leaf]
    · rcases has_insertAt.1 inner with deeper | ⟨rfl, rfl, rfl⟩ | none | none
      · have other : name ≠ target := fun same =>
          (List.nodup_cons.1 (old.nodup distinct)).1 (same ▸ deeper.mem)
        rw [if_neg other, (old.trans deeper).childrenOf_eq distinct]
      · have other : new ≠ target := fun same => fresh (same ▸ member)
        rw [if_neg other, childrenOf_eq_nil fresh]
        rfl
      · exact none.elim
      · exact none.elim
  · have absent : name ∉ forest.names := fun there =>
      present (names.mem_iff.2 (List.mem_cons_of_mem _ there))
    have other : name ≠ target := fun same => absent (same ▸ member)
    rw [if_neg other, childrenOf_eq_nil present, childrenOf_eq_nil absent]

theorem label?_adopted (name : Name) :
    (forest.modifyUnder target (·.insertAt index (leaf new label))).label? name =
      if name = new then some label else forest.label? name :=
  label?_grown distinct fresh (entries_adopted distinct member index)

theorem parent?_adopted (name : Name) :
    (forest.modifyUnder target (·.insertAt index (leaf new label))).parent? name =
      if name = new then some target else forest.parent? name := by
  have apart : (forest.modifyUnder target (·.insertAt index (leaf new label))).names.Nodup :=
    nodup_adopted distinct fresh member index
  have mem_inserted : ∀ upper, name ∈ (forest.childrenOf upper).insertIdx
      (min index (forest.childrenOf upper).length) new ↔ name = new ∨ name ∈ forest.childrenOf upper :=
    fun upper => List.mem_insertIdx (Nat.min_le_right ..)
  refine Option.ext fun upper => ?_
  rw [parent?_eq_some apart, childrenOf_adopted distinct fresh member]
  by_cases here : name = new
  · subst here
    have unlisted : name ∉ forest.childrenOf upper := fun child =>
      fresh (mem_names_of_childrenOf distinct child).2
    rw [if_pos rfl, Option.some.injEq]
    split
    · rename_i same
      exact iff_of_true ((mem_inserted upper).2 (.inl rfl)) same.symm
    · rename_i other
      exact iff_of_false unlisted fun same => other same.symm
  · rw [if_neg here, parent?_eq_some distinct]
    split
    · rw [mem_inserted, or_iff_right here]
    · rfl

end Adopted

omit [DecidableEq Name] in
theorem entries_beside (forest : Forest Name Label) (new : Name) (label : Label) :
    (forest ++ leaf new label).entries.Perm ((new, label) :: forest.entries) := by
  rw [entries_append]
  exact List.perm_append_singleton ..

section Beside

variable (distinct : forest.names.Nodup) (fresh : new ∉ forest.names)

include distinct fresh

omit [DecidableEq Name] in
theorem nodup_beside : (forest ++ leaf new label).names.Nodup := by
  have names : (forest ++ leaf new label).names.Perm (new :: forest.names) :=
    (entries_beside forest new label).map Prod.fst
  exact names.nodup_iff.2 (List.nodup_cons.2 ⟨fresh, distinct⟩)

theorem label?_beside (name : Name) : (forest ++ leaf new label).label? name =
    if name = new then some label else forest.label? name :=
  label?_grown distinct fresh (entries_beside forest new label)

theorem childrenOf_beside (name : Name) :
    (forest ++ leaf new label).childrenOf name = forest.childrenOf name := by
  by_cases here : name = new
  · subst here
    have has : (forest ++ leaf name label).Has name label nil :=
      has_append.2 (.inr (has_of_root ..))
    rw [has.childrenOf_eq (nodup_beside distinct fresh), childrenOf_eq_nil fresh]
    rfl
  · refine childrenOf_append_left ?_
    rw [leaf_names, List.mem_singleton]
    exact here

theorem parent?_beside (name : Name) :
    (forest ++ leaf new label).parent? name = forest.parent? name :=
  parent?_congr (nodup_beside distinct fresh) distinct fun upper => by
    rw [childrenOf_beside distinct fresh]

end Beside

end LiveTemplate.Forest
