import LiveTemplate.Proofs.Forest.Edit

/-!
# Nodes after an edit

Where the nodes of an edited forest come from, and what holds everywhere in it.  Then what becomes
of a forest when trees are put after one of its nodes.
-/

namespace LiveTemplate.Forest

variable {Name Label : Type} [DecidableEq Name]

theorem has_modifyUnder {forest below : Forest Name Label} {target name : Name} {label : Label}
    {change : Forest Name Label → Forest Name Label}
    (has : (forest.modifyUnder target change).Has name label below) :
    (∃ former, forest.Has name label former ∧ name ≠ target ∧
        below = former.modifyUnder target change) ∨
      (∃ former, forest.Has target label former ∧ name = target ∧ below = change former) ∨
      ∃ mark former, forest.Has target mark former ∧ (change former).Has name label below := by
  induction forest with
  | nil => exact has.elim
  | cons first mark children rest inside beside =>
      simp only [modifyUnder] at has
      rcases has with ⟨rfl, rfl, rfl⟩ | found | found
      · by_cases here : first = target
        · subst here
          exact .inr (.inl ⟨children, has_of_root .., rfl, by simp⟩)
        · exact .inl ⟨children, has_of_root .., here, by simp [here]⟩
      · by_cases here : first = target
        · subst here
          rw [if_pos rfl] at found
          exact .inr (.inr ⟨mark, children, has_of_root .., found⟩)
        · rw [if_neg here] at found
          rcases inside found with ⟨former, old, different, rfl⟩ | ⟨former, old, same, rfl⟩ |
            ⟨sign, former, old, new⟩
          · exact .inl ⟨former, .inr (.inl old), different, rfl⟩
          · exact .inr (.inl ⟨former, .inr (.inl old), same, rfl⟩)
          · exact .inr (.inr ⟨sign, former, .inr (.inl old), new⟩)
      · rcases beside found with ⟨former, old, different, rfl⟩ | ⟨former, old, same, rfl⟩ |
          ⟨sign, former, old, new⟩
        · exact .inl ⟨former, .inr (.inr old), different, rfl⟩
        · exact .inr (.inl ⟨former, .inr (.inr old), same, rfl⟩)
        · exact .inr (.inr ⟨sign, former, .inr (.inr old), new⟩)

theorem has_modify {forest below : Forest Name Label} {target name : Name} {label : Label}
    {change : Label → Label} (has : (forest.modify target change).Has name label below) :
    ∃ mark former, forest.Has name mark former ∧
      label = (if name = target then change mark else mark) ∧
      below = former.modify target change := by
  induction forest with
  | nil => exact has.elim
  | cons first mark children rest inside beside =>
      rcases has with ⟨rfl, rfl, rfl⟩ | found | found
      · exact ⟨mark, children, has_of_root .., rfl, rfl⟩
      · obtain ⟨sign, former, old, equal, same⟩ := inside found
        exact ⟨sign, former, .inr (.inl old), equal, same⟩
      · obtain ⟨sign, former, old, equal, same⟩ := beside found
        exact ⟨sign, former, .inr (.inr old), equal, same⟩

theorem has_prune {forest below : Forest Name Label} {target name : Name} {label : Label}
    (has : (forest.prune target).Has name label below) :
    ∃ former, forest.Has name label former ∧ name ≠ target ∧ below = former.prune target := by
  induction forest with
  | nil => exact has.elim
  | cons first mark children rest inside beside =>
      by_cases here : first = target
      · rw [prune, if_pos here] at has
        obtain ⟨former, old, different, same⟩ := beside has
        exact ⟨former, .inr (.inr old), different, same⟩
      · rw [prune, if_neg here] at has
        rcases has with ⟨rfl, rfl, rfl⟩ | found | found
        · exact ⟨children, has_of_root .., here, rfl⟩
        · obtain ⟨former, old, different, same⟩ := inside found
          exact ⟨former, .inr (.inl old), different, same⟩
        · obtain ⟨former, old, different, same⟩ := beside found
          exact ⟨former, .inr (.inr old), different, same⟩

theorem Has.modify {forest below : Forest Name Label} {name : Name} {label : Label}
    (has : forest.Has name label below) (target : Name) (change : Label → Label) :
    (forest.modify target change).Has name (if name = target then change label else label)
      (below.modify target change) := by
  induction forest with
  | nil => exact has.elim
  | cons first mark children rest inside beside =>
      rcases has with ⟨rfl, rfl, rfl⟩ | found | found
      · exact has_of_root ..
      · exact .inr (.inl (inside found))
      · exact .inr (.inr (beside found))

section Everywhere

variable {holds : Name → Label → Forest Name Label → Prop} {forest : Forest Name Label}
  {target : Name}

theorem Everywhere.modifyUnder {change : Forest Name Label → Forest Name Label}
    (all : forest.Everywhere holds)
    (above : ∀ name label below, forest.Has name label below → name ≠ target →
      holds name label below → holds name label (below.modifyUnder target change))
    (there : ∀ label below, forest.Has target label below →
      holds target label (change below) ∧ (change below).Everywhere holds) :
    (forest.modifyUnder target change).Everywhere holds := by
  refine everywhere_iff.2 fun name label below has => ?_
  rcases has_modifyUnder has with ⟨former, old, different, rfl⟩ | ⟨former, old, rfl, rfl⟩ |
    ⟨mark, former, old, new⟩
  · exact above name label former old different (all.at old)
  · exact (there label former old).1
  · exact (there mark former old).2.at new

theorem Everywhere.prune (all : forest.Everywhere holds)
    (fewer : ∀ name label below, forest.Has name label below →
      holds name label below → holds name label (below.prune target)) :
    (forest.prune target).Everywhere holds := by
  refine everywhere_iff.2 fun name label below has => ?_
  obtain ⟨former, old, _, rfl⟩ := has_prune has
  exact fewer name label former old (all.at old)

theorem Everywhere.modify {change : Label → Label} (all : forest.Everywhere holds)
    (other : ∀ name label below, forest.Has name label below → holds name label below →
      holds name (if name = target then change label else label)
        (below.modify target change)) :
    (forest.modify target change).Everywhere holds := by
  refine everywhere_iff.2 fun name label below has => ?_
  obtain ⟨mark, former, old, rfl, rfl⟩ := has_modify has
  exact other name mark former old (all.at old)

end Everywhere

/-! ## Trees put after a node -/

@[simp] theorem nil_insertAfter (target : Name) (trees : Forest Name Label) :
    (nil : Forest Name Label).insertAfter target trees = nil := rfl

/-- At the named node the trees come next. -/
theorem insertAfter_self (name : Name) (label : Label) (children rest trees : Forest Name Label) :
    (cons name label children rest).insertAfter name trees =
      cons name label children (trees ++ rest) :=
  if_pos rfl

/-- At another node they come further inside or later. -/
theorem insertAfter_of_ne {name target : Name} (different : name ≠ target) (label : Label)
    (children rest trees : Forest Name Label) :
    (cons name label children rest).insertAfter target trees =
      cons name label (children.insertAfter target trees) (rest.insertAfter target trees) :=
  if_neg different

theorem insertAfter_eq_self {forest trees : Forest Name Label} {target : Name}
    (absent : target ∉ forest.names) : forest.insertAfter target trees = forest := by
  induction forest with
  | nil => rfl
  | cons name label children rest inside beside =>
      simp only [names_cons, List.mem_cons, List.mem_append, not_or] at absent
      rw [insertAfter_of_ne (Ne.symm absent.1), inside absent.2.1, beside absent.2.2]

theorem insertAfter_append_right {first second trees : Forest Name Label} {target : Name}
    (absent : target ∉ first.names) :
    (first ++ second).insertAfter target trees = first ++ second.insertAfter target trees := by
  induction first with
  | nil => rfl
  | cons name label children rest _ beside =>
      simp only [names_cons, List.mem_cons, List.mem_append, not_or] at absent
      rw [cons_append, insertAfter_of_ne (Ne.symm absent.1), insertAfter_eq_self absent.2.1,
        beside absent.2.2, cons_append]

theorem insertAfter_append_left {first second trees : Forest Name Label} {target : Name}
    (member : target ∈ first.names) (absent : target ∉ second.names) :
    (first ++ second).insertAfter target trees = first.insertAfter target trees ++ second := by
  induction first with
  | nil => simp at member
  | cons name label children rest _ beside =>
      by_cases here : name = target
      · subst here
        rw [cons_append, insertAfter_self, insertAfter_self, cons_append, append_assoc]
      · rw [cons_append, insertAfter_of_ne here, insertAfter_of_ne here, cons_append]
        by_cases later : target ∈ rest.names
        · rw [beside later]
        · have away : target ∉ (rest ++ second).names := by simp [later, absent]
          rw [insertAfter_eq_self away, insertAfter_eq_self later]

/-- Trees put after the last of several trees stand between these and what follows. -/
theorem insertAfter_last {first second trees : Forest Name Label} {target : Name}
    (distinct : (first ++ second).names.Nodup) (last : first.roots.getLast? = some target) :
    (first ++ second).insertAfter target trees = first ++ (trees ++ second) := by
  induction first with
  | nil => simp [roots] at last
  | cons name label children rest _ beside =>
      obtain ⟨notInside, notBeside, _, distinctBeside, apart⟩ := distinct_parts distinct
      cases rest with
      | nil =>
          obtain rfl : name = target := by simpa [roots] using last
          exact insertAfter_self name label children second trees
      | cons other mark below later =>
          have lastLater : (cons other mark below later).roots.getLast? = some target := by
            simpa [roots, List.getLast?_cons_cons] using last
          have member : target ∈ (cons other mark below later).names :=
            roots_subset_names _ (List.mem_of_getLast? lastLater)
          have inRest : target ∈ (cons other mark below later ++ second).names := by
            rw [names_append]
            exact List.mem_append_left _ member
          have different : name ≠ target := fun same => notBeside (same ▸ inRest)
          have absent : target ∉ children.names := fun inside => apart inside inRest
          rw [cons_append, insertAfter_of_ne different, insertAfter_eq_self absent,
            beside distinctBeside lastLater, cons_append name]

theorem shape_insertAfter (forest trees : Forest Name Label) (target : Name) :
    (forest.insertAfter target trees).shape = forest.shape.insertAfter target trees.shape := by
  induction forest with
  | nil => rfl
  | cons name label children rest inside beside =>
      by_cases here : name = target
      · subst here
        simp only [insertAfter_self, shape_cons, shape_append]
      · rw [insertAfter_of_ne here, shape_cons, shape_cons, insertAfter_of_ne here, inside, beside]

theorem entries_insertAfter_perm {forest trees : Forest Name Label} {target : Name}
    (distinct : forest.names.Nodup) (member : target ∈ forest.names) :
    (forest.insertAfter target trees).entries.Perm (forest.entries ++ trees.entries) := by
  induction forest with
  | nil => simp at member
  | cons name label children rest inside beside =>
      obtain ⟨notInside, notBeside, distinctInside, distinctBeside, apart⟩ :=
        distinct_parts distinct
      by_cases here : name = target
      · subst here
        simp only [insertAfter_self, entries, entries_append, List.cons_append, List.append_assoc]
        exact ((List.perm_append_comm).append_left _).cons _
      · simp only [names_cons, List.mem_cons, List.mem_append, Ne.symm here, false_or] at member
        simp only [insertAfter_of_ne here, entries, List.cons_append]
        rcases member with found | found
        · have absent : target ∉ rest.names := fun other => apart found other
          rw [insertAfter_eq_self absent]
          refine (((inside distinctInside found).append_right _).cons _).trans ?_
          simp only [List.append_assoc]
          exact ((List.perm_append_comm).append_left _).cons _
        · have absent : target ∉ children.names := fun other => apart other found
          rw [insertAfter_eq_self absent]
          refine (((beside distinctBeside found).append_left _).cons _).trans ?_
          rw [List.append_assoc]

theorem names_insertAfter_perm {forest : Forest Name Label} {target : Name}
    (distinct : forest.names.Nodup) (member : target ∈ forest.names)
    (trees : Forest Name Label) :
    (forest.insertAfter target trees).names.Perm (forest.names ++ trees.names) := by
  rw [names, names, names, ← List.map_append]
  exact (entries_insertAfter_perm distinct member).map Prod.fst

theorem Has.insertAfter {forest below trees : Forest Name Label} {target name : Name}
    {label : Label} (distinct : forest.names.Nodup) (has : forest.Has name label below) :
    (forest.insertAfter target trees).Has name label (below.insertAfter target trees) := by
  induction forest with
  | nil => exact has.elim
  | cons first mark children rest inside beside =>
      obtain ⟨notInside, notBeside, distinctInside, distinctBeside, apart⟩ :=
        distinct_parts distinct
      by_cases here : first = target
      · subst here
        rw [insertAfter_self]
        rcases has with ⟨rfl, rfl, rfl⟩ | found | found
        · rw [insertAfter_eq_self notInside]
          exact has_of_root ..
        · have absent : first ∉ below.names := fun member =>
            notInside (found.sublist.subset (List.mem_cons_of_mem _ member))
          rw [insertAfter_eq_self absent]
          exact .inr (.inl found)
        · have absent : first ∉ below.names := fun member =>
            notBeside (found.sublist.subset (List.mem_cons_of_mem _ member))
          rw [insertAfter_eq_self absent]
          exact .inr (.inr (has_append.2 (.inr found)))
      · rw [insertAfter_of_ne here]
        rcases has with ⟨rfl, rfl, rfl⟩ | found | found
        · exact has_of_root ..
        · exact .inr (.inl (inside distinctInside found))
        · exact .inr (.inr (beside distinctBeside found))

end LiveTemplate.Forest
