import LiveTemplate.Proofs.Forest.Exchange
import LiveTemplate.Proofs.Forest.Moves

/-!
# What an exchange leaves of a forest

When a node gets another label and other trees below it, whatever is found afterwards is the node
itself, or stands in the new trees, or was there before and still has the same children.
-/

namespace LiveTemplate.Forest

variable {Name Label : Type} {forest below trees : Forest Name Label} {target name : Name}
  {mark : Label} {label : Label → Label} {change : Forest Name Label → Forest Name Label}

/-- What is found after trees have been inserted. -/
theorem has_insertAt {index : Nat} : (forest.insertAt index trees).Has name mark below ↔
    forest.Has name mark below ∨ trees.Has name mark below := by
  have whole := take_append_drop forest index
  rw [insertAt, has_append, has_append]
  constructor
  · intro found
    rw [← whole, has_append]
    rcases found with front | new | back
    · exact .inl (.inl front)
    · exact .inr new
    · exact .inl (.inr back)
  · intro found
    rw [← whole, has_append] at found
    rcases found with (front | back) | new
    · exact .inl front
    · exact .inr (.inr back)
    · exact .inr (.inl new)

theorem has_keep {kept : Label → Bool} (has : (forest.keep kept).Has name mark below) :
    forest.Has name mark below := by
  induction forest with
  | nil => exact has.elim
  | cons first sign children rest _ beside =>
      rw [keep] at has
      split at has
      · exact has.imp_right fun found => found.imp_right beside
      · exact .inr (.inr (beside has))

theorem roots_drop (forest : Forest Name Label) (index : Nat) :
    (forest.drop index).roots = forest.roots.drop index := by
  induction index generalizing forest with
  | zero => rfl
  | succ index induction =>
      cases forest with
      | nil => rfl
      | cons name label children rest => exact induction rest

section Search

variable [DecidableEq Name]

theorem roots_edit (forest : Forest Name Label) (target : Name) (label : Label → Label)
    (change : Forest Name Label → Forest Name Label) :
    (forest.edit target label change).roots = forest.roots := by
  induction forest with
  | nil => rfl
  | cons first sign children rest _ beside =>
      rw [edit]
      split <;> rw [roots, roots, beside]

theorem edit_eq_self (absent : target ∉ forest.names) : forest.edit target label change = forest := by
  induction forest with
  | nil => rfl
  | cons first sign children rest inside beside =>
      simp only [names_cons, List.mem_cons, List.mem_append, not_or] at absent
      rw [edit, if_neg (Ne.symm absent.1), inside absent.2.1, beside absent.2.2]

/-- What is found after an exchange. -/
theorem has_edit (has : (forest.edit target label change).Has name mark below) :
    (∃ former, forest.Has name mark former ∧ name ≠ target ∧
        below = former.edit target label change) ∨
      ∃ sign former, forest.Has target sign former ∧
        (name = target ∧ mark = label sign ∧ below = change former ∨
          (change former).Has name mark below) := by
  induction forest with
  | nil => exact has.elim
  | cons first sign children rest inside beside =>
      rw [edit] at has
      split at has
      · rename_i here
        rcases has with ⟨same, rfl, rfl⟩ | found | found
        · exact .inr ⟨sign, children, .inl ⟨here, rfl, rfl⟩, .inl ⟨same.symm.trans here, rfl, rfl⟩⟩
        · exact .inr ⟨sign, children, .inl ⟨here, rfl, rfl⟩, .inr found⟩
        · rcases beside found with ⟨former, old, apart⟩ | ⟨other, former, old, new⟩
          · exact .inl ⟨former, .inr (.inr old), apart⟩
          · exact .inr ⟨other, former, .inr (.inr old), new⟩
      · rename_i differs
        rcases has with ⟨rfl, rfl, rfl⟩ | found | found
        · exact .inl ⟨children, has_of_root .., differs, rfl⟩
        · rcases inside found with ⟨former, old, apart⟩ | ⟨other, former, old, new⟩
          · exact .inl ⟨former, .inr (.inl old), apart⟩
          · exact .inr ⟨other, former, .inr (.inl old), new⟩
        · rcases beside found with ⟨former, old, apart⟩ | ⟨other, former, old, new⟩
          · exact .inl ⟨former, .inr (.inr old), apart⟩
          · exact .inr ⟨other, former, .inr (.inr old), new⟩

/-- Taking whole trees out leaves the others as they are. -/
theorem has_without_roots {gone : List Name} (distinct : forest.names.Nodup)
    (inside : gone ⊆ forest.roots) (has : (forest.without gone).Has name mark below) :
    forest.Has name mark below := by
  have fewer := names_without_sublist forest gone
  obtain ⟨sign, former, old⟩ := exists_has (fewer.subset has.mem)
  have left := old.without distinct has.mem
  -- No root stands below another node.
  have apart : ∀ other ∈ former.names, other ∉ gone := by
    intro other member taken
    have above := (mem_ancestors distinct).2 ⟨_, _, old, member⟩
    rw [ancestors_root distinct (inside taken)] at above
    cases above
  rw [without_eq_self apart] at left
  obtain ⟨rfl, rfl⟩ := left.unique (distinct.sublist fewer) has
  exact old

/-! ## Above what is left -/

/-- A node that is there stands in the tree of another if it is that node or has it above it. -/
theorem mem_walk {upper : Name} (distinct : forest.names.Nodup) (there : name ∈ forest.names) :
    name ∈ forest.walk upper ↔ name = upper ∨ upper ∈ forest.ancestors name := by
  rw [walk, mem_ancestors distinct]
  by_cases present : upper ∈ forest.names
  · obtain ⟨label, below, has⟩ := exists_has present
    rw [has.subtree_eq distinct, names_cons, names_nil, List.append_nil, List.mem_cons]
    refine or_congr_right ⟨fun inside => ⟨label, below, has, inside⟩, ?_⟩
    rintro ⟨sign, other, also, inside⟩
    rwa [← (has.unique distinct also).2] at inside
  · rw [subtree_eq_nil_of_not_mem present]
    constructor
    · exact fun nowhere => nomatch nowhere
    · rintro (rfl | ⟨_, _, has, _⟩)
      · exact (present there).elim
      · exact (present has.mem).elim

theorem ancestors_append_right {first second : Forest Name Label} (outside : name ∉ first.names) :
    (first ++ second).ancestors name = second.ancestors name := by
  induction first with
  | nil => rfl
  | cons other sign children rest _ beside =>
      simp only [names_cons, List.mem_cons, List.mem_append, not_or] at outside
      rw [cons_append, ancestors_beside (Ne.symm outside.1) outside.2.1]
      exact beside outside.2.2

theorem ancestors_append_congr (first : Forest Name Label) {second third : Forest Name Label}
    (same : second.ancestors name = third.ancestors name) :
    (first ++ second).ancestors name = (first ++ third).ancestors name := by
  induction first with
  | nil => exact same
  | cons other sign children rest _ beside =>
      rw [cons_append, cons_append, ancestors, ancestors]
      split
      · rfl
      · split
        · rfl
        · exact beside

theorem ancestors_insertAt {index : Nat} (outside : name ∉ trees.names) :
    (forest.insertAt index trees).ancestors name = forest.ancestors name := by
  rw [insertAt, ancestors_append_congr _ (ancestors_append_right outside), take_append_drop]

/-- Above a node that is left everything is left. -/
theorem ancestors_without {gone : List Name} (distinct : forest.names.Nodup)
    (left : name ∈ (forest.without gone).names) :
    (forest.without gone).ancestors name = forest.ancestors name := by
  induction forest with
  | nil => rfl
  | cons first sign children rest inside beside =>
      obtain ⟨notInside, notBeside, distinctInside, distinctBeside, apart⟩ := distinct_parts distinct
      have subInside := (names_without_sublist children gone).subset
      have subBeside := (names_without_sublist rest gone).subset
      by_cases taken : first ∈ gone
      · rw [without, if_pos taken] at left ⊢
        have late := subBeside left
        have other : first ≠ name := fun same => notBeside (same ▸ late)
        rw [ancestors_beside other fun early => apart early late]
        exact beside distinctBeside left
      · rw [without, if_neg taken] at left ⊢
        by_cases here : first = name
        · subst here
          rw [ancestors_self, ancestors_self]
        · by_cases deep : name ∈ (children.without gone).names
          · rw [ancestors_inside here deep, ancestors_inside here (subInside deep),
              inside distinctInside deep]
          · have late : name ∈ (rest.without gone).names := by
              simpa [Ne.symm here, deep] using left
            rw [ancestors_beside here deep,
              ancestors_beside here fun early => apart early (subBeside late)]
            exact beside distinctBeside late

/-- Above a node that is left by an exchange stands what stood above it. -/
theorem ancestors_edit (distinct : forest.names.Nodup) (has : forest.Has target mark below)
    (left : name ∈ (forest.edit target label change).names)
    (inside : name ∈ (change below).names →
      name ∈ below.names ∧ (change below).ancestors name = below.ancestors name) :
    name ∈ forest.names ∧
      (forest.edit target label change).ancestors name = forest.ancestors name := by
  induction forest with
  | nil => exact has.elim
  | cons first sign children rest inner beside =>
      obtain ⟨notInside, notBeside, distinctInside, distinctBeside, apart⟩ := distinct_parts distinct
      by_cases here : first = name
      · subst here
        refine ⟨by simp, ?_⟩
        rw [edit]
        split <;> rw [ancestors_self, ancestors_self]
      · rcases has with ⟨rfl, rfl, rfl⟩ | found | found
        · rw [edit, if_pos rfl, edit_eq_self notBeside] at left ⊢
          by_cases deep : name ∈ (change children).names
          · obtain ⟨old, above⟩ := inside deep
            rw [ancestors_inside here deep, ancestors_inside here old, above]
            exact ⟨by simp [old], rfl⟩
          · have late : name ∈ rest.names := by
              simpa [Ne.symm here, deep] using left
            rw [ancestors_beside here deep, ancestors_beside here fun early => apart early late]
            exact ⟨by simp [late], rfl⟩
        · have differs : first ≠ target := fun same => notInside (same ▸ found.mem)
          have outside : target ∉ rest.names := fun late => apart found.mem late
          rw [edit, if_neg differs, edit_eq_self outside] at left ⊢
          by_cases deep : name ∈ (children.edit target label change).names
          · obtain ⟨old, above⟩ := inner distinctInside found deep
            rw [ancestors_inside here deep, ancestors_inside here old, above]
            exact ⟨by simp [old], rfl⟩
          · have late : name ∈ rest.names := by
              simpa [Ne.symm here, deep] using left
            rw [ancestors_beside here deep, ancestors_beside here fun early => apart early late]
            exact ⟨by simp [late], rfl⟩
        · have differs : first ≠ target := fun same => notBeside (same ▸ found.mem)
          have outside : target ∉ children.names := fun early => apart early found.mem
          rw [edit, if_neg differs, edit_eq_self outside] at left ⊢
          by_cases deep : name ∈ children.names
          · rw [ancestors_inside here deep, ancestors_inside here deep]
            exact ⟨by simp [deep], rfl⟩
          · have late : name ∈ (rest.edit target label change).names := by
              simpa [Ne.symm here, deep] using left
            obtain ⟨old, above⟩ := beside distinctBeside found late
            rw [ancestors_beside here deep, ancestors_beside here deep, above]
            exact ⟨by simp [old], rfl⟩

/-- Trees have gone as a whole, and others with new names have come. -/
structure Regrows (fresh : Name → Prop) (below regrown : Forest Name Label) : Prop where
  old : ∀ name mark inner, regrown.Has name mark inner → ¬ fresh name → below.Has name mark inner
  above : ∀ name ∈ regrown.names, ¬ fresh name → regrown.ancestors name = below.ancestors name

theorem regrows_without {fresh : Name → Prop} {gone : List Name} (distinct : below.names.Nodup)
    (inside : gone ⊆ below.roots) : Regrows fresh below (below.without gone) where
  old := fun _ _ _ has _ => has_without_roots distinct inside has
  above := fun _ left _ => ancestors_without distinct left

theorem regrows_keep {fresh : Name → Prop} (distinct : below.names.Nodup) (kept : Label → Bool) :
    Regrows fresh below (below.keep kept) where
  old := fun _ _ _ has _ => has_keep has
  above := by
    intro name left _
    rw [← without_eq_keep distinct] at left ⊢
    exact ancestors_without distinct left

theorem Regrows.insertAt {fresh : Name → Prop} {regrown : Forest Name Label}
    (regrows : Regrows fresh below regrown) (new : ∀ name ∈ trees.names, fresh name) (index : Nat) :
    Regrows fresh below (regrown.insertAt index trees) where
  old := by
    intro name mark inner has old
    rcases has_insertAt.1 has with stays | comes
    · exact regrows.old name mark inner stays old
    · exact (old (new name comes.mem)).elim
  above := by
    intro name member old
    obtain ⟨mark, inner, has⟩ := exists_has member
    have outside : name ∉ trees.names := fun comes => old (new name comes)
    rw [ancestors_insertAt outside]
    rcases has_insertAt.1 has with stays | comes
    · exact regrows.above name stays.mem old
    · exact (outside comes.mem).elim

theorem Regrows.append {fresh : Name → Prop} {regrown : Forest Name Label}
    (regrows : Regrows fresh below regrown) (new : ∀ name ∈ trees.names, fresh name) :
    Regrows fresh below (regrown ++ trees) where
  old := by
    intro name mark inner has old
    rcases has_append.1 has with stays | comes
    · exact regrows.old name mark inner stays old
    · exact (old (new name comes.mem)).elim
  above := by
    intro name member old
    have outside : name ∉ trees.names := fun comes => old (new name comes)
    rw [ancestors_append_left outside]
    refine regrows.above name ?_ old
    simpa [outside] using member

/-! ## Exchanged side by side -/

theorem roots_without (forest : Forest Name Label) (gone : List Name) :
    (forest.without gone).roots = forest.roots.filter (· ∉ gone) := by
  induction forest with
  | nil => rfl
  | cons name label children rest _ beside =>
      by_cases taken : name ∈ gone <;> simp [without, roots, taken, beside]

/-- Some trees side by side are exchanged for others. -/
theorem roots_exchanged {front gone back : List Name} (distinct : below.roots.Nodup)
    (split : below.roots = front ++ (gone ++ back)) (trees : Forest Name Label) :
    ((below.without gone).insertAt front.length trees).roots = front ++ (trees.roots ++ back) := by
  rw [split] at distinct
  obtain ⟨_, inner, apart⟩ := List.nodup_append'.1 distinct
  obtain ⟨_, _, separate⟩ := List.nodup_append'.1 inner
  have early : front.filter (· ∉ gone) = front := by
    apply List.filter_eq_self.2
    intro name member
    simpa using fun taken => apart member (List.mem_append_left _ taken)
  have late : back.filter (· ∉ gone) = back := by
    apply List.filter_eq_self.2
    intro name member
    simpa using fun taken => separate taken member
  have left : (below.without gone).roots = front ++ back := by
    rw [roots_without, split, List.filter_append, List.filter_append, early, late]
    simp
  rw [insertAt, roots_append, roots_append, roots_take, roots_drop, left, List.take_left,
    List.drop_left]

theorem insertAfter_nil (forest : Forest Name Label) (target : Name) :
    forest.insertAfter target nil = forest := by
  induction forest with
  | nil => rfl
  | cons name label children rest inside beside =>
      rw [insertAfter, inside, beside]
      split <;> rfl

/-- What was put after a node is taken out again. -/
theorem without_insertAfter {added : List Name} (covered : trees.names ⊆ added)
    (apart : ∀ name ∈ forest.names, name ∉ added) :
    (forest.insertAfter target trees).without added = forest := by
  induction forest with
  | nil => rfl
  | cons name label children rest inside beside =>
      have here : name ∉ added := apart name (by simp)
      have below : ∀ other ∈ children.names, other ∉ added := fun other member =>
        apart other (by simp [member])
      have later : ∀ other ∈ rest.names, other ∉ added := fun other member =>
        apart other (by simp [member])
      rw [insertAfter]
      split
      · rw [without, if_neg here, without_append, without_eq_nil covered, without_eq_self below,
          without_eq_self later, nil_append]
      · rw [without, if_neg here, inside below, beside later]

end Search

end LiveTemplate.Forest
