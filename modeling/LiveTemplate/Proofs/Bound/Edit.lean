import LiveTemplate.Proofs.Bound.Skeleton

/-!
# Edits of bound nodes

Taking a bound node out takes its document nodes out of the skeleton; putting bound nodes below
another puts their skeleton after one of its nodes.  A regular forest stays regular.
-/

namespace LiveTemplate.BoundForest

variable {Part : Type} [HasBoundKind Part]

theorem skeleton_eq_nil_iff {forest : BoundForest Part} :
    skeleton forest = .nil ↔ ∀ entry ∈ forest.entries, entry.2.dom = none := by
  rw [← shown_eq_nil_iff, List.eq_nil_iff_forall_not_mem]
  simp only [mem_shown, not_exists, not_and]
  constructor
  · intro none entry member
    exact Option.eq_none_iff_forall_ne_some.2 fun dom => none dom entry member
  · intro none dom entry member
    simp [none entry member]

theorem around_without {node : BoundNode Part} {below : Forest NodeId Unit} {gone : List NodeId}
    (apart : ∀ dom, node.dom = some dom → dom ∉ gone) :
    (node.around below).without gone = node.around (below.without gone) := by
  cases own : node.dom with
  | none => simp [around_of_none own]
  | some dom =>
      have left : dom ∉ gone := apart dom own
      by_cases kind : node.kind = .element
      · simp [around_of_element kind own, Forest.without, left]
      · simp [around_of_other kind own, Forest.without, left]

theorem around_insertAfter {node : BoundNode Part} {below trees : Forest NodeId Unit}
    {reference : NodeId} (apart : ∀ dom, node.dom = some dom → dom ≠ reference) :
    (node.around below).insertAfter reference trees =
      node.around (below.insertAfter reference trees) := by
  cases own : node.dom with
  | none => simp [around_of_none own]
  | some dom =>
      have left : dom ≠ reference := apart dom own
      by_cases kind : node.kind = .element
      · simp [around_of_element kind own, Forest.insertAfter_of_ne left]
      · simp [around_of_other kind own, Forest.insertAfter_of_ne left]

/-- Taking a bound node out takes out what it shows. -/
theorem skeleton_prune {forest : BoundForest Part} (distinct : forest.names.Nodup)
    (single : (shown forest).Nodup) (id : BoundId) :
    skeleton (forest.prune id) = (skeleton forest).without (shown (forest.subtree id)) := by
  induction forest with
  | nil => rfl
  | cons name node children rest inside beside =>
      obtain ⟨notInside, notBeside, distinctInside, distinctBeside, apart⟩ :=
        Forest.distinct_parts distinct
      obtain ⟨singleInside, singleBeside, own, away⟩ := shown_parts single
      by_cases here : name = id
      · subst here
        have covered : (node.around (skeleton children)).names ⊆
            shown (.cons name node children .nil) := by
          intro dom member
          have found := (names_around_perm node _).subset member
          simpa [shown, mem_skeleton] using found
        have spared : ∀ dom ∈ (skeleton rest).names, dom ∉ shown (.cons name node children .nil) := by
          intro dom member gone
          have later := mem_skeleton.1 member
          simp only [shown, List.append_nil, List.mem_append, Option.mem_toList] at gone
          rcases gone with gone | gone
          · exact away gone later
          · exact (own dom gone).2 later
        simp only [Forest.prune, Forest.subtree, if_true, Forest.prune_eq_self notBeside,
          skeleton_cons, Forest.without_append, Forest.without_eq_nil covered,
          Forest.without_eq_self spared, Forest.nil_append]
      · simp only [Forest.prune, Forest.subtree, if_neg here, skeleton_cons, Forest.without_append]
        by_cases found : id ∈ children.names
        · have absent : id ∉ rest.names := fun other => apart found other
          have within := shown_subtree_subset children distinctInside id
          rw [if_pos (Forest.contains_iff_mem.2 found), Forest.prune_eq_self absent,
            inside distinctInside singleInside,
            around_without fun dom holds gone => (own dom holds).1 (within gone)]
          congr 1
          refine (Forest.without_eq_self fun dom member gone => ?_).symm
          exact away (within gone) (mem_skeleton.1 member)
        · have within := shown_subtree_subset rest distinctBeside id
          rw [if_neg (by simp [Forest.contains_iff_mem, found]), Forest.prune_eq_self found,
            beside distinctBeside singleBeside,
            around_without fun dom holds gone => (own dom holds).2 (within gone)]
          congr 2
          refine (Forest.without_eq_self fun dom member gone => ?_).symm
          exact away (mem_skeleton.1 member) (within gone)

/-- Another label of the same kind and with the same document node leaves the skeleton alone. -/
theorem skeleton_modify {forest : BoundForest Part} {id : BoundId}
    {change : BoundNode Part → BoundNode Part}
    (same : ∀ node below, Forest.Has forest id node below →
      (change node).kind = node.kind ∧ (change node).dom = node.dom) :
    skeleton (forest.modify id change) = skeleton forest := by
  induction forest with
  | nil => rfl
  | cons name node children rest inside beside =>
      have within := inside fun node below has => same node below (.inr (.inl has))
      have later := beside fun node below has => same node below (.inr (.inr has))
      simp only [Forest.modify, skeleton_cons, within, later]
      congr 1
      by_cases here : name = id
      · have kept := same node children (.inl ⟨here, rfl, rfl⟩)
        simp [BoundNode.around, here, kept.1, kept.2]
      · simp [here]

/-- An edit that leaves the skeleton below one node alone leaves the whole alone. -/
theorem skeleton_modifyUnder_same {forest : BoundForest Part} {id : BoundId}
    {change : BoundForest Part → BoundForest Part}
    (same : ∀ node below, Forest.Has forest id node below → skeleton (change below) = skeleton below) :
    skeleton (forest.modifyUnder id change) = skeleton forest := by
  induction forest with
  | nil => rfl
  | cons name node children rest inside beside =>
      have within := inside fun node below has => same node below (.inr (.inl has))
      have later := beside fun node below has => same node below (.inr (.inr has))
      simp only [Forest.modifyUnder, skeleton_cons, later]
      by_cases here : name = id
      · rw [if_pos here, same node children (.inl ⟨here, rfl, rfl⟩)]
      · rw [if_neg here, within]

/-- An edit that puts trees after a document node of one bound node does so in the whole. -/
theorem skeleton_modifyUnder {forest below : BoundForest Part} {id : BoundId}
    {node : BoundNode Part} {change : BoundForest Part → BoundForest Part} {reference : NodeId}
    {trees : Forest NodeId Unit} (distinct : forest.names.Nodup) (single : (shown forest).Nodup)
    (has : Forest.Has forest id node below)
    (member : reference ∈ shown (.cons id node below .nil))
    (there : skeleton (.cons id node (change below) .nil) =
      (skeleton (.cons id node below .nil)).insertAfter reference trees) :
    skeleton (forest.modifyUnder id change) = (skeleton forest).insertAfter reference trees := by
  induction forest with
  | nil => exact has.elim
  | cons name label children rest inside beside =>
      obtain ⟨notInside, notBeside, distinctInside, distinctBeside, apart⟩ :=
        Forest.distinct_parts distinct
      obtain ⟨singleInside, singleBeside, own, away⟩ := shown_parts single
      rcases has with ⟨rfl, rfl, rfl⟩ | found | found
      · simp only [skeleton_cons, skeleton_nil, Forest.append_nil] at there
        have spared : reference ∉ (skeleton rest).names := by
          rw [mem_skeleton]
          intro later
          simp only [shown, List.append_nil, List.mem_append, Option.mem_toList] at member
          rcases member with member | member
          · exact away member later
          · exact (own reference member).2 later
        have present : reference ∈ (label.around (skeleton children)).names := by
          refine (names_around_perm label _).symm.subset ?_
          simpa [shown, mem_skeleton] using member
        rw [Forest.modifyUnder, if_pos rfl, Forest.modifyUnder_eq_self notBeside, skeleton_cons,
          there, skeleton_cons, Forest.insertAfter_append_left present spared]
      · have inChildren : reference ∈ shown children := shown_has_subset found member
        have different : name ≠ id := fun same => notInside (same ▸ found.mem)
        have absent : id ∉ rest.names := fun other => apart found.mem other
        have spared : reference ∉ (skeleton rest).names := fun later =>
          away inChildren (mem_skeleton.1 later)
        have present : reference ∈ (label.around (skeleton children)).names := by
          refine (names_around_perm label _).symm.subset ?_
          simp [mem_skeleton, inChildren]
        rw [Forest.modifyUnder, if_neg different, Forest.modifyUnder_eq_self absent, skeleton_cons,
          inside distinctInside singleInside found, skeleton_cons,
          Forest.insertAfter_append_left present spared, around_insertAfter]
        rintro dom holds rfl
        exact (own dom holds).1 inChildren
      · have inRest : reference ∈ shown rest := shown_has_subset found member
        have different : name ≠ id := fun same => notBeside (same ▸ found.mem)
        have absent : id ∉ children.names := fun other => apart other found.mem
        have spared : reference ∉ (label.around (skeleton children)).names := by
          intro present
          rcases List.mem_append.1 ((names_around_perm label _).subset present) with early | early
          · exact away (mem_skeleton.1 early) inRest
          · exact (own reference (by simpa using early)).2 inRest
        rw [Forest.modifyUnder, if_neg different, Forest.modifyUnder_eq_self absent, skeleton_cons,
          beside distinctBeside singleBeside found, skeleton_cons,
          Forest.insertAfter_append_right spared]

/-! ## Regular forests stay regular -/

@[simp] theorem allRegular_append {first second : BoundForest Part} :
    AllRegular (first ++ second) ↔ AllRegular first ∧ AllRegular second :=
  Forest.everywhere_append

theorem AllRegular.prune {forest : BoundForest Part} (regular : AllRegular forest) (id : BoundId) :
    AllRegular (forest.prune id) := by
  refine Forest.Everywhere.prune regular fun name node below _ here => ?_
  have bare : skeleton below = .nil → skeleton (below.prune id) = .nil := by
    intro none
    rw [skeleton_eq_nil_iff] at none ⊢
    rintro ⟨other, label⟩ member
    obtain ⟨deeper, has⟩ := Forest.has_iff_mem_entries.2 member
    obtain ⟨former, old, _, _⟩ := Forest.has_prune has
    exact none _ old.mem_entries
  cases kind : node.kind <;> simp only [Regular, kind] at here ⊢
  case text => exact ⟨here.1, bare here.2⟩
  case watch => exact ⟨here.1, bare here.2⟩
  case switch =>
      have fewer := ((Forest.crown_prune_sublist below id).filter fun entry =>
        entry.2.kind != .watch).length_le
      exact ⟨here.1, Nat.le_trans fewer here.2⟩
  all_goals exact here

theorem AllRegular.modify {forest : BoundForest Part} {id : BoundId}
    {change : BoundNode Part → BoundNode Part} (regular : AllRegular forest)
    (same : ∀ node, (change node).kind = node.kind ∧ (change node).dom = node.dom) :
    AllRegular (forest.modify id change) := by
  refine Forest.Everywhere.modify regular fun name node below _ here => ?_
  have kind : (if name = id then change node else node).kind = node.kind := by
    split <;> simp [same]
  have dom : (if name = id then change node else node).dom = node.dom := by
    split <;> simp [same]
  have bare : skeleton (below.modify id change) = skeleton below :=
    skeleton_modify fun node _ _ => same node
  have crown : ((below.modify id change).crown.filter fun entry => entry.2.kind != .watch).length =
      (below.crown.filter fun entry => entry.2.kind != .watch).length := by
    rw [Forest.crown_modify, List.filter_map, List.length_map]
    congr 2
    funext entry
    by_cases at_ : entry.1 = id <;> simp [at_, same]
  unfold Regular at here ⊢
  rw [kind, dom, bare, crown]
  exact here

theorem AllRegular.modifyUnder {forest : BoundForest Part} {id : BoundId}
    {change : BoundForest Part → BoundForest Part} (regular : AllRegular forest)
    (there : ∀ node below, Forest.Has forest id node below →
      Regular node (change below) ∧ AllRegular (change below))
    (bare : ∀ node below, Forest.Has forest id node below → node.dom = none →
      skeleton below = .nil → skeleton (change below) = .nil) :
    AllRegular (forest.modifyUnder id change) := by
  refine Forest.Everywhere.modifyUnder regular (fun name node below has _ here => ?_) there
  have empty : skeleton below = .nil → skeleton (below.modifyUnder id change) = .nil := by
    intro none
    rw [skeleton_modifyUnder_same, none]
    intro inner deeper found
    have inside := skeleton_eq_nil_iff.1 none
    have nothing : skeleton deeper = .nil := by
      refine skeleton_eq_nil_iff.2 fun entry member => ?_
      obtain ⟨_, lower⟩ := Forest.has_iff_mem_entries.2 member
      exact inside _ (found.trans lower).mem_entries
    rw [bare inner deeper (has.trans found) (inside _ found.mem_entries) nothing, nothing]
  cases kind : node.kind <;> simp only [Regular, kind] at here ⊢
  case text => exact ⟨here.1, empty here.2⟩
  case watch => exact ⟨here.1, empty here.2⟩
  case switch =>
      rw [Forest.crown_modifyUnder]
      exact here
  all_goals exact here

end LiveTemplate.BoundForest
