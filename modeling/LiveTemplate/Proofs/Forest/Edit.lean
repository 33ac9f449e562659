import LiveTemplate.Proofs.Forest.Basic

/-!
# Edits of a forest

What taking nodes out, changing a label, changing what is below a node, and putting trees after a
node do to the other nodes.  `exists_split` places all of these edits at one point of the sequence
of entries.
-/

namespace LiveTemplate.Forest

variable {Name Label Other : Type}

section Search

variable [DecidableEq Name]

/-! ## Taking nodes out -/

/-- The forest without the named nodes and everything below them. -/
def without (forest : Forest Name Label) (gone : List Name) : Forest Name Label :=
  match forest with
  | nil => nil
  | cons name label children rest =>
    if name ∈ gone then rest.without gone
    else cons name label (children.without gone) (rest.without gone)

theorem prune_eq_without (forest : Forest Name Label) (target : Name) :
    forest.prune target = forest.without [target] := by
  induction forest with
  | nil => rfl
  | cons name label children rest inside beside => simp [prune, without, inside, beside]

@[simp] theorem without_nil_names (forest : Forest Name Label) : forest.without [] = forest := by
  induction forest with
  | nil => rfl
  | cons name label children rest inside beside => simp [without, inside, beside]

theorem without_without (forest : Forest Name Label) (first second : List Name) :
    (forest.without first).without second = forest.without (first ++ second) := by
  induction forest with
  | nil => rfl
  | cons name label children rest inside beside =>
      by_cases early : name ∈ first
      · simp [without, early, beside]
      · by_cases late : name ∈ second
        · simp [without, early, late, beside]
        · simp [without, early, late, inside, beside]

/-- Taking nodes out one after the other takes them all out. -/
theorem foldl_prune (forest : Forest Name Label) (gone : List Name) :
    gone.foldl prune forest = forest.without gone := by
  induction gone generalizing forest with
  | nil => simp
  | cons name gone induction =>
      rw [List.foldl_cons, induction, prune_eq_without, without_without, List.singleton_append]

theorem without_append (first second : Forest Name Label) (gone : List Name) :
    (first ++ second).without gone = first.without gone ++ second.without gone := by
  induction first with
  | nil => rfl
  | cons name label children rest _ induction =>
      by_cases here : name ∈ gone <;> simp [without, here, induction]

theorem shape_without (forest : Forest Name Label) (gone : List Name) :
    (forest.without gone).shape = forest.shape.without gone := by
  induction forest with
  | nil => rfl
  | cons name label children rest inside beside =>
      by_cases here : name ∈ gone <;> simp [without, here, inside, beside]

theorem without_eq_self {forest : Forest Name Label} {gone : List Name}
    (apart : ∀ name ∈ forest.names, name ∉ gone) : forest.without gone = forest := by
  induction forest with
  | nil => rfl
  | cons name label children rest inside beside =>
      have here : name ∉ gone := apart name (by simp)
      have within := inside fun other member => apart other (by simp [member])
      have later := beside fun other member => apart other (by simp [member])
      simp [without, here, within, later]

theorem without_eq_nil {forest : Forest Name Label} {gone : List Name}
    (covered : forest.names ⊆ gone) : forest.without gone = nil := by
  induction forest with
  | nil => rfl
  | cons name label children rest _ beside =>
      have here : name ∈ gone := covered (by simp)
      have later := beside fun other member => covered (by simp [member])
      simp [without, here, later]

theorem prune_eq_self {forest : Forest Name Label} {target : Name}
    (absent : target ∉ forest.names) : forest.prune target = forest := by
  rw [prune_eq_without]
  refine without_eq_self fun name member same => absent ?_
  rwa [← List.mem_singleton.1 same]

theorem names_without_sublist (forest : Forest Name Label) (gone : List Name) :
    (forest.without gone).names.Sublist forest.names := by
  induction forest with
  | nil => simp [without]
  | cons name label children rest inside beside =>
      by_cases here : name ∈ gone
      · simp only [without, if_pos here, names_cons]
        exact (beside.trans (List.sublist_append_right ..)).cons name
      · simp only [without, if_neg here, names_cons]
        exact (inside.append beside).cons_cons name

theorem crown_without (forest : Forest Name Label) (gone : List Name) :
    (forest.without gone).crown = forest.crown.filter fun entry => decide (entry.1 ∉ gone) := by
  induction forest with
  | nil => rfl
  | cons name label children rest _ beside =>
      by_cases here : name ∈ gone <;> simp [without, crown, here, beside]

theorem not_mem_of_mem_without {forest : Forest Name Label} {gone : List Name} {name : Name}
    (member : name ∈ (forest.without gone).names) : name ∉ gone := by
  induction forest with
  | nil => simp [without] at member
  | cons first label children rest inside beside =>
      by_cases here : first ∈ gone
      · rw [without, if_pos here] at member
        exact beside member
      · simp only [without, if_neg here, names_cons, List.mem_cons, List.mem_append] at member
        rcases member with rfl | found | found
        · exact here
        · exact inside found
        · exact beside found

/-- A node that is left keeps what is left below it. -/
theorem Has.without {forest below : Forest Name Label} {gone : List Name} {name : Name}
    {label : Label} (distinct : forest.names.Nodup) (has : forest.Has name label below)
    (left : name ∈ (forest.without gone).names) :
    (forest.without gone).Has name label (below.without gone) := by
  induction forest with
  | nil => exact has.elim
  | cons first mark children rest inside beside =>
      obtain ⟨notInside, notBeside, distinctInside, distinctBeside, apart⟩ :=
        distinct_parts distinct
      have subInside := (names_without_sublist children gone).subset
      have subBeside := (names_without_sublist rest gone).subset
      by_cases here : first ∈ gone
      · simp only [Forest.without, if_pos here] at left ⊢
        rcases has with ⟨rfl, _, _⟩ | found | found
        · exact (notBeside (subBeside left)).elim
        · exact (apart found.mem (subBeside left)).elim
        · exact beside distinctBeside found left
      · simp only [Forest.without, if_neg here, names_cons, List.mem_cons,
          List.mem_append] at left ⊢
        rcases has with ⟨rfl, rfl, rfl⟩ | found | found
        · exact has_of_root ..
        · rcases left with rfl | left | left
          · exact (notInside found.mem).elim
          · exact .inr (.inl (inside distinctInside found left))
          · exact (apart found.mem (subBeside left)).elim
        · rcases left with rfl | left | left
          · exact (notBeside found.mem).elim
          · exact (apart (subInside left) found.mem).elim
          · exact .inr (.inr (beside distinctBeside found left))

/-- A node is left if neither it nor any node above it is taken out. -/
theorem mem_names_without {forest : Forest Name Label} {gone : List Name} {name : Name}
    (member : name ∈ forest.names)
    (spared : ∀ upper label below, forest.Has upper label below →
      name ∈ upper :: below.names → upper ∉ gone) :
    name ∈ (forest.without gone).names := by
  induction forest with
  | nil => simp at member
  | cons first mark children rest inside beside =>
      simp only [names_cons, List.mem_cons, List.mem_append] at member
      have sparedInside : ∀ upper label below, children.Has upper label below →
          name ∈ upper :: below.names → upper ∉ gone :=
        fun upper label below found => spared upper label below (.inr (.inl found))
      have sparedBeside : ∀ upper label below, rest.Has upper label below →
          name ∈ upper :: below.names → upper ∉ gone :=
        fun upper label below found => spared upper label below (.inr (.inr found))
      by_cases here : first ∈ gone
      · rw [Forest.without, if_pos here]
        rcases member with rfl | found | found
        · exact (spared _ _ _ (has_of_root ..) (by simp) here).elim
        · exact (spared _ _ _ (has_of_root ..) (by simp [found]) here).elim
        · exact beside found sparedBeside
      · simp only [Forest.without, if_neg here, names_cons, List.mem_cons, List.mem_append]
        rcases member with rfl | found | found
        · exact .inl rfl
        · exact .inr (.inl (inside found sparedInside))
        · exact .inr (.inr (beside found sparedBeside))

/-! ## Changing one place -/

theorem modify_eq_self {forest : Forest Name Label} {target : Name} {change : Label → Label}
    (absent : target ∉ forest.names) : forest.modify target change = forest := by
  induction forest with
  | nil => rfl
  | cons name label children rest inside beside =>
      simp only [names_cons, List.mem_cons, List.mem_append, not_or] at absent
      simp [modify, Ne.symm absent.1, inside absent.2.1, beside absent.2.2]

theorem modifyUnder_eq_self {forest : Forest Name Label} {target : Name}
    {change : Forest Name Label → Forest Name Label} (absent : target ∉ forest.names) :
    forest.modifyUnder target change = forest := by
  induction forest with
  | nil => rfl
  | cons name label children rest inside beside =>
      simp only [names_cons, List.mem_cons, List.mem_append, not_or] at absent
      simp [modifyUnder, Ne.symm absent.1, inside absent.2.1, beside absent.2.2]

@[simp] theorem names_modify (forest : Forest Name Label) (target : Name)
    (change : Label → Label) : (forest.modify target change).names = forest.names := by
  induction forest with
  | nil => rfl
  | cons name label children rest inside beside => simp [modify, inside, beside]

@[simp] theorem roots_modify (forest : Forest Name Label) (target : Name)
    (change : Label → Label) : (forest.modify target change).roots = forest.roots := by
  induction forest with
  | nil => rfl
  | cons name label children rest _ beside => simp [modify, roots, beside]

@[simp] theorem shape_modify (forest : Forest Name Label) (target : Name)
    (change : Label → Label) : (forest.modify target change).shape = forest.shape := by
  induction forest with
  | nil => rfl
  | cons name label children rest inside beside => simp [modify, inside, beside]

theorem label?_modify (forest : Forest Name Label) (target : Name) (change : Label → Label)
    (name : Name) : (forest.modify target change).label? name =
      if name = target then (forest.label? name).map change else forest.label? name := by
  induction forest with
  | nil => simp [modify, label?]
  | cons first mark children rest below beside =>
      by_cases same : name = target
      · subst same
        by_cases here : first = name
        · simp [modify, label?, here]
        · simp only [modify, label?, below, beside, if_neg here, if_true]
          cases children.label? name <;> rfl
      · by_cases here : first = name
        · subst here
          simp [modify, label?, same]
        · simp [modify, label?, below, beside, here, same]

@[simp] theorem contains_modify (forest : Forest Name Label) (target : Name)
    (change : Label → Label) (name : Name) :
    (forest.modify target change).contains name = forest.contains name := by
  rw [Bool.eq_iff_iff, contains_iff_mem, contains_iff_mem, names_modify]

theorem childrenOf_modify (forest : Forest Name Label) (target : Name) (change : Label → Label)
    (name : Name) : (forest.modify target change).childrenOf name = forest.childrenOf name := by
  rw [childrenOf, childrenOf]
  induction forest with
  | nil => rfl
  | cons first label children rest inside beside =>
      by_cases here : first = name
      · simp [modify, under, here]
      · cases within : children.contains name <;> simp [modify, under, here, within, inside, beside]

theorem ancestors_modify (forest : Forest Name Label) (target : Name) (change : Label → Label)
    (name : Name) : (forest.modify target change).ancestors name = forest.ancestors name := by
  induction forest with
  | nil => rfl
  | cons first label children rest inside beside =>
      by_cases here : first = name
      · simp [modify, ancestors, here]
      · cases within : children.contains name <;>
          simp [modify, ancestors, here, within, inside, beside]

@[simp] theorem crown_modifyUnder (forest : Forest Name Label) (target : Name)
    (change : Forest Name Label → Forest Name Label) :
    (forest.modifyUnder target change).crown = forest.crown := by
  induction forest with
  | nil => rfl
  | cons name label children rest _ beside => simp [modifyUnder, crown, beside]

@[simp] theorem roots_modifyUnder (forest : Forest Name Label) (target : Name)
    (change : Forest Name Label → Forest Name Label) :
    (forest.modifyUnder target change).roots = forest.roots := by
  rw [← map_fst_crown, crown_modifyUnder, map_fst_crown]

theorem crown_prune_sublist (forest : Forest Name Label) (target : Name) :
    (forest.prune target).crown.Sublist forest.crown := by
  induction forest with
  | nil => simp [prune]
  | cons name label children rest _ beside =>
      by_cases here : name = target
      · simp only [prune, if_pos here]
        exact beside.cons _
      · simp only [prune, if_neg here]
        exact beside.cons_cons _

theorem crown_modify (forest : Forest Name Label) (target : Name) (change : Label → Label) :
    (forest.modify target change).crown =
      forest.crown.map fun entry =>
        (entry.1, if entry.1 = target then change entry.2 else entry.2) := by
  induction forest with
  | nil => rfl
  | cons name label children rest _ beside => simp [modify, crown, beside]

/-- The edits of one node in the sequence of entries. -/
theorem exists_split {forest below : Forest Name Label} {target : Name} {label : Label}
    (distinct : forest.names.Nodup) (has : forest.Has target label below) :
    ∃ before after,
      forest.entries = before ++ ((target, label) :: below.entries ++ after) ∧
      (∀ change, (forest.modifyUnder target change).entries =
        before ++ ((target, label) :: (change below).entries ++ after)) ∧
      (∀ change, (forest.modify target change).entries =
        before ++ ((target, change label) :: below.entries ++ after)) ∧
      (forest.prune target).entries = before ++ after := by
  induction forest with
  | nil => exact has.elim
  | cons name mark children rest inside beside =>
      obtain ⟨notInside, notBeside, distinctInside, distinctBeside, apart⟩ :=
        distinct_parts distinct
      rcases has with ⟨rfl, rfl, rfl⟩ | found | found
      · refine ⟨[], rest.entries, by simp [entries], fun change => ?_, fun change => ?_, ?_⟩
        · simp [modifyUnder, entries, modifyUnder_eq_self notBeside]
        · simp [modify, entries, modify_eq_self notInside, modify_eq_self notBeside]
        · simp [prune, prune_eq_self notBeside]
      · obtain ⟨before, after, whole, under, relabelled, pruned⟩ := inside distinctInside found
        have different : name ≠ target := fun same => notInside (same ▸ found.mem)
        have absent : target ∉ rest.names := fun member => apart found.mem member
        refine ⟨(name, mark) :: before, after ++ rest.entries, by simp [entries, whole],
          fun change => ?_, fun change => ?_, ?_⟩
        · simp [modifyUnder, entries, different, under, modifyUnder_eq_self absent]
        · simp [modify, entries, different, relabelled, modify_eq_self absent]
        · simp [prune, entries, different, pruned, prune_eq_self absent]
      · obtain ⟨before, after, whole, under, relabelled, pruned⟩ := beside distinctBeside found
        have different : name ≠ target := fun same => notBeside (same ▸ found.mem)
        have absent : target ∉ children.names := fun member => apart member found.mem
        refine ⟨(name, mark) :: (children.entries ++ before), after, by simp [entries, whole],
          fun change => ?_, fun change => ?_, ?_⟩
        · simp [modifyUnder, entries, different, under, modifyUnder_eq_self absent]
        · simp [modify, entries, different, relabelled, modify_eq_self absent]
        · simp [prune, entries, different, pruned, prune_eq_self absent]

end Search

end LiveTemplate.Forest
