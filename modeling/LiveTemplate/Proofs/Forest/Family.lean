import LiveTemplate.Proofs.Forest.Edit
import Mathlib.Logic.Relation

/-!
# Parents and children

In a forest whose names are distinct, a node is the parent of another exactly if the other is one of
its children, and the nodes above a node are those that have it below them.
-/

namespace LiveTemplate.Forest

variable {Name Label : Type}

theorem roots_sublist_names (forest : Forest Name Label) : forest.roots.Sublist forest.names := by
  induction forest with
  | nil => exact .slnil
  | cons name label children rest _ beside =>
      rw [roots, names_cons]
      exact (beside.trans (List.sublist_append_right ..)).cons_cons name

section Search

variable [DecidableEq Name] {forest below children rest : Forest Name Label} {name upper : Name}
  {label : Label}

theorem Has.childrenOf_eq (distinct : forest.names.Nodup) (has : forest.Has name label below) :
    forest.childrenOf name = below.roots := by
  rw [childrenOf, has.under_eq distinct]

theorem childrenOf_eq_nil (absent : name ∉ forest.names) : forest.childrenOf name = [] := by
  rw [childrenOf]
  induction forest with
  | nil => rfl
  | cons first mark children rest inside beside =>
      simp only [names_cons, List.mem_cons, List.mem_append, not_or] at absent
      simp only [under, if_neg (Ne.symm absent.1), contains_eq_false_iff.2 absent.2.1,
        Bool.false_eq_true, if_false]
      exact beside absent.2.2

theorem mem_childrenOf (distinct : forest.names.Nodup) : name ∈ forest.childrenOf upper ↔
    ∃ label below, forest.Has upper label below ∧ name ∈ below.roots := by
  constructor
  · intro member
    by_cases present : upper ∈ forest.names
    · obtain ⟨label, below, has⟩ := exists_has present
      exact ⟨label, below, has, has.childrenOf_eq distinct ▸ member⟩
    · rw [childrenOf_eq_nil present] at member
      cases member
  · rintro ⟨label, below, has, root⟩
    rwa [has.childrenOf_eq distinct]

theorem nodup_childrenOf (distinct : forest.names.Nodup) (name : Name) :
    (forest.childrenOf name).Nodup := by
  by_cases present : name ∈ forest.names
  · obtain ⟨label, below, has⟩ := exists_has present
    rw [has.childrenOf_eq distinct]
    exact (has.nodup distinct).of_cons.sublist below.roots_sublist_names
  · rw [childrenOf_eq_nil present]
    exact .nil

/-- Nothing is a child of itself, or of a node that is gone, and no child is gone. -/
theorem mem_names_of_childrenOf (distinct : forest.names.Nodup)
    (child : name ∈ forest.childrenOf upper) : upper ∈ forest.names ∧ name ∈ forest.names := by
  obtain ⟨label, below, has, root⟩ := (mem_childrenOf distinct).1 child
  exact ⟨has.mem, has.sublist.subset (List.mem_cons_of_mem _ (below.roots_subset_names root))⟩

/-! ## Above a node -/

theorem ancestors_self (name : Name) (label : Label) (children rest : Forest Name Label) :
    (cons name label children rest).ancestors name = [] := by
  rw [ancestors, if_pos rfl]

theorem ancestors_inside {first : Name} (other : first ≠ name) (inside : name ∈ children.names)
    (label : Label) (rest : Forest Name Label) :
    (cons first label children rest).ancestors name = children.ancestors name ++ [first] := by
  rw [ancestors, if_neg other, if_pos (contains_iff_mem.2 inside)]

theorem ancestors_beside {first : Name} (other : first ≠ name) (outside : name ∉ children.names)
    (label : Label) (rest : Forest Name Label) :
    (cons first label children rest).ancestors name = rest.ancestors name := by
  rw [ancestors, if_neg other, contains_eq_false_iff.2 outside]
  rfl

theorem ancestors_eq_nil (absent : name ∉ forest.names) : forest.ancestors name = [] := by
  induction forest with
  | nil => rfl
  | cons first mark children rest inside beside =>
      simp only [names_cons, List.mem_cons, List.mem_append, not_or] at absent
      rw [ancestors_beside (Ne.symm absent.1) absent.2.1]
      exact beside absent.2.2

/-- The nodes above a node are those that have it below them. -/
theorem mem_ancestors (distinct : forest.names.Nodup) : upper ∈ forest.ancestors name ↔
    ∃ label below, forest.Has upper label below ∧ name ∈ below.names := by
  induction forest with
  | nil => simp [ancestors, Has]
  | cons first mark children rest inside beside =>
      obtain ⟨notInside, notBeside, distinctInside, distinctBeside, apart⟩ := distinct_parts distinct
      have deeper : ∀ {forest below : Forest Name Label} {label : Label},
          forest.Has upper label below → name ∈ below.names → name ∈ forest.names :=
        fun has member => has.sublist.subset (List.mem_cons_of_mem _ member)
      by_cases here : first = name
      · subst here
        rw [ancestors_self]
        refine iff_of_false List.not_mem_nil ?_
        rintro ⟨label, below, ⟨_, _, rfl⟩ | found | found, member⟩
        · exact notInside member
        · exact notInside (deeper found member)
        · exact notBeside (deeper found member)
      · by_cases within : name ∈ children.names
        · rw [ancestors_inside here within, List.mem_append, inside distinctInside,
            List.mem_singleton]
          constructor
          · rintro (⟨label, below, found, member⟩ | rfl)
            · exact ⟨label, below, .inr (.inl found), member⟩
            · exact ⟨mark, children, has_of_root .., within⟩
          · rintro ⟨label, below, ⟨rfl, _, _⟩ | found | found, member⟩
            · exact .inr rfl
            · exact .inl ⟨label, below, found, member⟩
            · exact (apart within (deeper found member)).elim
        · rw [ancestors_beside here within, beside distinctBeside]
          constructor
          · rintro ⟨label, below, found, member⟩
            exact ⟨label, below, .inr (.inr found), member⟩
          · rintro ⟨label, below, ⟨_, _, rfl⟩ | found | found, member⟩
            · exact (within member).elim
            · exact (within (deeper found member)).elim
            · exact ⟨label, below, found, member⟩

theorem ancestors_root (distinct : forest.names.Nodup) (root : name ∈ forest.roots) :
    forest.ancestors name = [] := by
  refine List.eq_nil_iff_forall_not_mem.2 fun upper above => ?_
  obtain ⟨label, below, has, member⟩ := (mem_ancestors distinct).1 above
  clear above
  induction forest with
  | nil => exact has.elim
  | cons first mark children rest inside beside =>
      obtain ⟨notInside, notBeside, distinctInside, distinctBeside, apart⟩ := distinct_parts distinct
      have lower : ∀ {forest : Forest Name Label}, forest.Has upper label below →
          name ∈ forest.names := fun has => has.sublist.subset (List.mem_cons_of_mem _ member)
      rcases List.mem_cons.1 root with rfl | later
      · rcases has with ⟨_, _, rfl⟩ | found | found
        · exact notInside member
        · exact notInside (lower found)
        · exact notBeside (lower found)
      · have here := rest.roots_subset_names later
        rcases has with ⟨_, _, rfl⟩ | found | found
        · exact apart member here
        · exact apart (lower found) here
        · exact beside distinctBeside later found

/-- Above a child stand the parent and what is above that. -/
theorem Has.ancestors_child (distinct : forest.names.Nodup) (has : forest.Has upper label below)
    (child : name ∈ below.roots) : forest.ancestors name = upper :: forest.ancestors upper := by
  have member := below.roots_subset_names child
  have lower : ∀ {forest : Forest Name Label}, forest.Has upper label below →
      name ∈ forest.names := fun has => has.sublist.subset (List.mem_cons_of_mem _ member)
  induction forest with
  | nil => exact has.elim
  | cons first mark children rest inside beside =>
      obtain ⟨notInside, notBeside, distinctInside, distinctBeside, apart⟩ := distinct_parts distinct
      rcases has with ⟨rfl, _, rfl⟩ | found | found
      · have other : first ≠ name := fun same => notInside (same ▸ member)
        rw [ancestors_inside other member, ancestors_root distinctInside child, ancestors_self]
        rfl
      · have here := lower found
        have other : first ≠ name := fun same => notInside (same ▸ here)
        have above : first ≠ upper := fun same => notInside (same ▸ found.mem)
        rw [ancestors_inside other here, ancestors_inside above found.mem,
          inside distinctInside found, List.cons_append]
      · have here := lower found
        have other : first ≠ name := fun same => notBeside (same ▸ here)
        have above : first ≠ upper := fun same => notBeside (same ▸ found.mem)
        rw [ancestors_beside other fun within => apart within here,
          ancestors_beside above fun within => apart within found.mem, beside distinctBeside found]

omit [DecidableEq Name] in
/-- Each node is a root or a child. -/
theorem root_or_child (present : name ∈ forest.names) : name ∈ forest.roots ∨
    ∃ upper label below, forest.Has upper label below ∧ name ∈ below.roots := by
  induction forest with
  | nil => simp at present
  | cons first mark children rest inside beside =>
      rw [names_cons, List.mem_cons, List.mem_append] at present
      rcases present with rfl | within | later
      · exact .inl List.mem_cons_self
      · rcases inside within with root | ⟨upper, label, below, found, child⟩
        · exact .inr ⟨first, mark, children, has_of_root .., root⟩
        · exact .inr ⟨upper, label, below, .inr (.inl found), child⟩
      · rcases beside later with root | ⟨upper, label, below, found, child⟩
        · exact .inl (List.mem_cons_of_mem _ root)
        · exact .inr ⟨upper, label, below, .inr (.inr found), child⟩

/-- A node is the parent of its children. -/
theorem parent?_eq_some (distinct : forest.names.Nodup) :
    forest.parent? name = some upper ↔ name ∈ forest.childrenOf upper := by
  constructor
  · intro parent
    by_cases present : name ∈ forest.names
    · rcases root_or_child present with root | ⟨other, label, below, has, child⟩
      · rw [parent?, ancestors_root distinct root] at parent
        cases parent
      · rw [parent?, has.ancestors_child distinct child] at parent
        cases parent
        exact (mem_childrenOf distinct).2 ⟨label, below, has, child⟩
    · rw [parent?, ancestors_eq_nil present] at parent
      cases parent
  · intro member
    obtain ⟨label, below, has, child⟩ := (mem_childrenOf distinct).1 member
    rw [parent?, has.ancestors_child distinct child]
    rfl

theorem ancestors_of_parent? (distinct : forest.names.Nodup)
    (parent : forest.parent? name = some upper) :
    forest.ancestors name = upper :: forest.ancestors upper := by
  obtain ⟨label, below, has, child⟩ :=
    (mem_childrenOf distinct).1 ((parent?_eq_some distinct).1 parent)
  exact has.ancestors_child distinct child

/-- Going from parent to parent never leads back. -/
theorem parents_irreflexive (distinct : forest.names.Nodup) (name : Name) :
    ¬ Relation.TransGen (fun lower upper => forest.parent? lower = some upper) name name := by
  have shorter : ∀ {lower upper : Name},
      Relation.TransGen (fun lower upper => forest.parent? lower = some upper) lower upper →
        (forest.ancestors upper).length < (forest.ancestors lower).length := by
    intro lower upper steps
    have one : ∀ {lower upper : Name}, forest.parent? lower = some upper →
        (forest.ancestors upper).length < (forest.ancestors lower).length := by
      intro lower upper parent
      rw [ancestors_of_parent? distinct parent]
      exact Nat.lt_succ_self _
    induction steps with
    | single parent => exact one parent
    | tail _ parent induction => exact Nat.lt_trans (one parent) induction
  exact fun steps => Nat.lt_irrefl _ (shorter steps)

end Search

end LiveTemplate.Forest
