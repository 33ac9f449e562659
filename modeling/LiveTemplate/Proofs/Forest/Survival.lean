import LiveTemplate.Proofs.Forest.Graft

/-!
# What is left of a forest

A node is left when nodes are taken out exactly if neither it nor a node above it is among them.
-/

namespace LiveTemplate.Forest

variable {Name Label : Type} [DecidableEq Name]

private theorem spared_of_mem_without {forest below : Forest Name Label} {gone : List Name}
    {name upper : Name} {label : Label} (distinct : forest.names.Nodup)
    (left : name ∈ (forest.without gone).names) (has : forest.Has upper label below)
    (above : name ∈ upper :: below.names) : upper ∉ gone := by
  induction forest with
  | nil => exact has.elim
  | cons first mark children rest inside beside =>
      obtain ⟨notInside, notBeside, distinctInside, distinctBeside, apart⟩ :=
        distinct_parts distinct
      have subInside := (names_without_sublist children gone).subset
      have subBeside := (names_without_sublist rest gone).subset
      by_cases here : first ∈ gone
      · rw [Forest.without, if_pos here] at left
        have later := subBeside left
        rcases has with ⟨rfl, _, rfl⟩ | found | found
        · rcases List.mem_cons.1 above with rfl | above
          · exact (notBeside later).elim
          · exact (apart above later).elim
        · exact (apart (found.sublist.subset above) later).elim
        · exact beside distinctBeside left found
      · simp only [Forest.without, if_neg here, names_cons, List.mem_cons, List.mem_append] at left
        rcases has with ⟨rfl, _, _⟩ | found | found
        · exact here
        · have early := found.sublist.subset above
          rcases left with rfl | left | left
          · exact (notInside early).elim
          · exact inside distinctInside left found
          · exact (apart early (subBeside left)).elim
        · have late := found.sublist.subset above
          rcases left with rfl | left | left
          · exact (notBeside late).elim
          · exact (apart (subInside left) late).elim
          · exact beside distinctBeside left found

theorem mem_names_without_iff {forest : Forest Name Label} {gone : List Name} {name : Name}
    (distinct : forest.names.Nodup) :
    name ∈ (forest.without gone).names ↔ name ∈ forest.names ∧
      ∀ upper label below, forest.Has upper label below → name ∈ upper :: below.names →
        upper ∉ gone :=
  ⟨fun left => ⟨(names_without_sublist forest gone).subset left,
      fun _ _ _ has above => spared_of_mem_without distinct left has above⟩,
    fun ⟨member, spared⟩ => mem_names_without member spared⟩

/-- Nodes are taken out below a node that is left. -/
theorem Has.without_below {forest below : Forest Name Label} {gone : List Name} {name : Name}
    {label : Label} (distinct : forest.names.Nodup) (has : forest.Has name label below)
    (inside : gone ⊆ below.names) : (forest.without gone).Has name label (below.without gone) := by
  refine Has.without distinct has ((mem_names_without_iff distinct).2 ⟨has.mem, ?_⟩)
  intro upper mark lower found above taken
  obtain ⟨sign, deeper, there⟩ := exists_has (inside taken)
  obtain ⟨_, rfl⟩ := found.unique distinct (has.trans there)
  exact (List.nodup_cons.1 (has.nodup distinct)).1 (there.sublist.subset above)

theorem subtree_append_right {first second : Forest Name Label} {target : Name}
    (absent : target ∉ first.names) : (first ++ second).subtree target = second.subtree target := by
  induction first with
  | nil => rfl
  | cons name label children rest _ induction =>
      simp only [names_cons, List.mem_cons, List.mem_append, not_or] at absent
      obtain ⟨differs, notInside, notBeside⟩ := absent
      rw [cons_append, subtree, if_neg (Ne.symm differs), contains_eq_false_iff.2 notInside]
      exact induction notBeside

theorem subtree_append {first second : Forest Name Label} {target : Name}
    (distinct : (first ++ second).names.Nodup) :
    (first ++ second).subtree target = first.subtree target ++ second.subtree target := by
  have parts := names_append first second ▸ distinct
  rw [List.nodup_append'] at parts
  obtain ⟨distinctFirst, distinctSecond, apart⟩ := parts
  by_cases early : target ∈ first.names
  · obtain ⟨label, below, has⟩ := exists_has early
    rw [has.subtree_eq distinctFirst, subtree_eq_nil_of_not_mem fun late => apart early late,
      (has_append.2 (.inl has)).subtree_eq distinct, append_nil]
  · rw [subtree_eq_nil_of_not_mem early, nil_append, subtree_append_right early]

end LiveTemplate.Forest
