import LiveTemplate.Document.Basic
import LiveTemplate.Proofs.Forest.Survival

/-!
# Documents as mirrors

A document mirrors a skeleton at a node if the tree at that node has the shape of the skeleton and
no other node that was made for it is in the document.  Taking nodes of the skeleton out and putting
new ones in keeps this up, and leaves what mirrors something else alone.
-/

namespace LiveTemplate.Document

/-- Nodes are told apart, and all of them have been given out. -/
structure Sound (document : Document) : Prop where
  distinct : document.nodes.names.Nodup
  issued : ∀ node ∈ document.nodes.names, document.places.Issued node

/-- The tree at a node has the shape of a skeleton, and nothing else of what was created for it is
in the document. -/
structure Mirrors (document : Document) (node : NodeId) (created : List NodeId)
    (skeleton : Forest NodeId Unit) : Prop where
  shape : (document.nodes.subtree node).shape = skeleton
  covered : skeleton.names ⊆ created
  present : ∀ other ∈ created, other ∈ document.nodes.names → other ∈ skeleton.names
  own : node ∈ created
  issued : ∀ other ∈ created, document.places.Issued other

theorem nodes_removeAll (document : Document) (gone : List NodeId) :
    (document.removeAll gone).nodes = document.nodes.without gone := by
  rw [← Forest.foldl_prune]
  induction gone generalizing document with
  | nil => rfl
  | cons first later induction => exact induction (document.remove first).2

theorem issued_removeAll (document : Document) (gone : List NodeId) (node : NodeId) :
    (document.removeAll gone).places.Issued node ↔ document.places.Issued node := by
  induction gone generalizing document with
  | nil => rfl
  | cons first later induction =>
      exact (induction (document.remove first).2).trans (Places.issued_vacateAll_iff ..)

theorem Sound.removeAll {document : Document} (sound : document.Sound) (gone : List NodeId) :
    (document.removeAll gone).Sound where
  distinct := by
    rw [nodes_removeAll]
    exact sound.distinct.sublist (Forest.names_without_sublist ..)
  issued := by
    intro node member
    rw [issued_removeAll]
    rw [nodes_removeAll] at member
    exact sound.issued node ((Forest.names_without_sublist ..).subset member)

section Mirrors

variable {document : Document} {node : NodeId} {created : List NodeId}
  {skeleton : Forest NodeId Unit}

/-- Either nothing is left, or the tree stands there. -/
theorem Mirrors.cases (mirrors : document.Mirrors node created skeleton)
    (sound : document.Sound) :
    (node ∉ document.nodes.names ∧ skeleton = .nil) ∨
      ∃ data below, document.nodes.Has node data below ∧
        skeleton = .cons node () below.shape .nil := by
  by_cases member : node ∈ document.nodes.names
  · obtain ⟨data, below, has⟩ := Forest.exists_has member
    refine .inr ⟨data, below, has, ?_⟩
    rw [← mirrors.shape, has.subtree_eq sound.distinct, Forest.shape_cons, Forest.shape_nil]
  · refine .inl ⟨member, ?_⟩
    rw [← mirrors.shape, Forest.subtree_eq_nil_of_not_mem member, Forest.shape_nil]

/-- What is below a node of the skeleton belongs to the skeleton. -/
theorem Mirrors.closed (mirrors : document.Mirrors node created skeleton)
    (sound : document.Sound) {upper : NodeId} {label : NodeData}
    {below : Forest NodeId NodeData} (member : upper ∈ skeleton.names)
    (has : document.nodes.Has upper label below) : below.names ⊆ skeleton.names := by
  rcases mirrors.cases sound with ⟨_, rfl⟩ | ⟨data, tree, found, rfl⟩
  · simp at member
  · simp only [Forest.names_cons, Forest.names_shape, Forest.names_nil, List.append_nil,
      List.mem_cons] at member ⊢
    rcases member with rfl | member
    · rw [(has.unique sound.distinct found).2]
      exact List.subset_cons_self ..
    · obtain ⟨other, inner, inside⟩ := Forest.exists_has member
      rw [(has.unique sound.distinct (found.trans inside)).2]
      exact fun name deep =>
        List.mem_cons_of_mem _ (inside.sublist.subset (List.mem_cons_of_mem _ deep))

theorem Mirrors.skeleton_nodup (mirrors : document.Mirrors node created skeleton)
    (sound : document.Sound) : skeleton.names.Nodup := by
  rcases mirrors.cases sound with ⟨_, rfl⟩ | ⟨data, below, has, rfl⟩
  · exact .nil
  · simpa using has.nodup sound.distinct

theorem Mirrors.subset (mirrors : document.Mirrors node created skeleton)
    (sound : document.Sound) : skeleton.names ⊆ document.nodes.names := by
  rcases mirrors.cases sound with ⟨_, rfl⟩ | ⟨data, below, has, rfl⟩
  · simp
  · simpa using has.sublist.subset

/-- Nodes of the skeleton are taken out. -/
theorem Mirrors.removeAll (mirrors : document.Mirrors node created skeleton)
    (sound : document.Sound) {gone : List NodeId} (inside : gone ⊆ skeleton.names) :
    (document.removeAll gone).Mirrors node created (skeleton.without gone) := by
  have shape : (document.nodes.without gone |>.subtree node).shape = skeleton.without gone := by
    rcases mirrors.cases sound with ⟨absent, rfl⟩ | ⟨data, below, has, rfl⟩
    · rw [Forest.subtree_eq_nil_of_not_mem fun member =>
        absent ((Forest.names_without_sublist ..).subset member)]
      rfl
    · by_cases taken : node ∈ gone
      · rw [Forest.subtree_eq_nil_of_not_mem fun member =>
          Forest.not_mem_of_mem_without member taken]
        simp [Forest.without, taken]
      · have left : node ∈ (document.nodes.without gone).names := by
          refine (Forest.mem_names_without_iff sound.distinct).2 ⟨has.mem, ?_⟩
          intro upper label lower above member taken
          rcases List.mem_cons.1 member with rfl | member
          · contradiction
          · have within := mirrors.closed sound (inside taken) above member
            have single := above.nodup sound.distinct
            -- A node above the root of the tree would stand both above and below it.
            have upperInside := inside taken
            simp only [Forest.names_cons, Forest.names_shape, Forest.names_nil, List.append_nil,
              List.mem_cons] at upperInside
            rcases upperInside with rfl | upperInside
            · exact (List.nodup_cons.1 single).1 member
            · obtain ⟨mark, deeper, found⟩ := Forest.exists_has upperInside
              have same := (above.unique sound.distinct (has.trans found)).2
              subst same
              exact (List.nodup_cons.1 (has.nodup sound.distinct)).1
                (found.sublist.subset (List.mem_cons_of_mem _ member))
        rw [(Forest.Has.without sound.distinct has left).subtree_eq
          (sound.distinct.sublist (Forest.names_without_sublist ..))]
        simp [Forest.without, taken, Forest.shape_without]
  refine ⟨by rw [nodes_removeAll, shape],
    fun other member => mirrors.covered ((Forest.names_without_sublist ..).subset member), ?_, mirrors.own,
    fun other member => (issued_removeAll ..).2 (mirrors.issued other member)⟩
  intro other member left
  rw [nodes_removeAll] at left
  have survived := (Forest.mem_names_without_iff sound.distinct).1 left
  have before := mirrors.present other member survived.1
  refine (Forest.mem_names_without_iff (mirrors.skeleton_nodup sound)).2 ⟨before, ?_⟩
  intro upper label lower above member
  rw [← mirrors.shape] at above
  obtain ⟨mark, inner, found, _, rfl⟩ := Forest.exists_has_of_map above
  rw [Forest.names_map] at member
  refine survived.2 upper mark inner ?_ member
  rcases mirrors.cases sound with ⟨absent, rfl⟩ | ⟨data, below, has, rfl⟩
  · rw [Forest.subtree_eq_nil_of_not_mem absent] at found
    exact found.elim
  · rw [has.subtree_eq sound.distinct] at found
    rcases found with ⟨rfl, rfl, rfl⟩ | found | found
    · exact has
    · exact has.trans found
    · exact found.elim

/-- What is taken out below one mirror does not touch another. -/
theorem Mirrors.removeAll_aside {other : NodeId} {others : List NodeId}
    {frame : Forest NodeId Unit} (mirrors : document.Mirrors node created skeleton)
    (aside : document.Mirrors other others frame) (sound : document.Sound)
    (apart : created.Disjoint others) {gone : List NodeId} (inside : gone ⊆ skeleton.names) :
    (document.removeAll gone).Mirrors other others frame := by
  have spared : ∀ name ∈ frame.names, name ∉ gone := fun name member taken =>
    apart (mirrors.covered (inside taken)) (aside.covered member)
  refine ⟨?_, aside.covered, ?_, aside.own,
    fun name member => (issued_removeAll ..).2 (aside.issued name member)⟩
  · rw [nodes_removeAll]
    rcases aside.cases sound with ⟨absent, rfl⟩ | ⟨data, below, has, rfl⟩
    · rw [Forest.subtree_eq_nil_of_not_mem fun member =>
        absent ((Forest.names_without_sublist ..).subset member)]
      rfl
    · simp only [Forest.names_cons, Forest.names_shape, Forest.names_nil,
        List.append_nil] at spared
      have left : other ∈ (document.nodes.without gone).names := by
        refine (Forest.mem_names_without_iff sound.distinct).2 ⟨has.mem, ?_⟩
        intro upper label lower above member taken
        rcases List.mem_cons.1 member with rfl | member
        · exact spared other (by simp) taken
        · exact apart (mirrors.covered (mirrors.closed sound (inside taken) above member)) aside.own
      have kept : below.without gone = below :=
        Forest.without_eq_self fun name member => spared name (List.mem_cons_of_mem _ member)
      rw [(Forest.Has.without sound.distinct has left).subtree_eq
        (sound.distinct.sublist (Forest.names_without_sublist ..)), kept]
      rfl
  · intro name member left
    rw [nodes_removeAll] at left
    exact aside.present name member ((Forest.names_without_sublist ..).subset left)

/-! ## New nodes -/

/-- Nodes that had not been given out come to those that are there. -/
theorem Sound.grown {nodes page : Forest NodeId NodeData} {places : Places}
    (sound : document.Sound)
    (issued : ∀ name, places.Issued name ↔ document.places.Issued name ∨ name ∈ page.names)
    (fresh : ∀ name ∈ page.names, ¬ document.places.Issued name) (single : page.names.Nodup)
    (same : nodes.names.Perm (document.nodes.names ++ page.names)) :
    Document.Sound { nodes, places } where
  distinct := by
    rw [same.nodup_iff, List.nodup_append']
    exact ⟨sound.distinct, single, fun name old new => fresh name new (sound.issued name old)⟩
  issued := by
    intro name member
    rw [issued]
    exact (List.mem_append.1 (same.subset member)).imp_left (sound.issued name)

/-- New nodes are put after a node of the skeleton that is not its root. -/
theorem Mirrors.grown {page : Forest NodeId NodeData} {places : Places} {reference : NodeId}
    (mirrors : document.Mirrors node created skeleton) (sound : document.Sound)
    (issued : ∀ name, places.Issued name ↔ document.places.Issued name ∨ name ∈ page.names)
    (fresh : ∀ name ∈ page.names, ¬ document.places.Issued name) (single : page.names.Nodup)
    (member : reference ∈ skeleton.names) (inner : reference ≠ node) :
    Mirrors { nodes := document.nodes.insertAfter reference page, places } node
      (created ++ page.names) (skeleton.insertAfter reference page.shape) := by
  have there := mirrors.subset sound member
  have placed := Forest.names_insertAfter_perm sound.distinct there page
  have distinct := (sound.grown issued fresh single placed).distinct
  have names : (skeleton.insertAfter reference page.shape).names.Perm
      (skeleton.names ++ page.names) := by
    simpa using Forest.names_insertAfter_perm (mirrors.skeleton_nodup sound) member page.shape
  refine ⟨?_, ?_, ?_, List.mem_append_left _ mirrors.own, ?_⟩
  · rcases mirrors.cases sound with ⟨_, rfl⟩ | ⟨data, below, has, rfl⟩
    · simp at member
    · rw [(has.insertAfter sound.distinct).subtree_eq distinct]
      simp [Forest.insertAfter_of_ne (Ne.symm inner), Forest.shape_insertAfter]
  · intro name inside
    rcases List.mem_append.1 (names.subset inside) with old | new
    · exact List.mem_append_left _ (mirrors.covered old)
    · exact List.mem_append_right _ new
  · intro name made inside
    refine names.symm.subset (List.mem_append.2 ?_)
    rcases List.mem_append.1 (placed.subset inside) with old | new
    · rcases List.mem_append.1 made with early | late
      · exact .inl (mirrors.present name early old)
      · exact .inr late
    · exact .inr new
  · intro name made
    rw [issued]
    exact (List.mem_append.1 made).imp_left (mirrors.issued name)

/-- New nodes that are put below one mirror do not touch another. -/
theorem Mirrors.grown_aside {page : Forest NodeId NodeData} {places : Places}
    {reference other : NodeId} {others : List NodeId} {frame : Forest NodeId Unit}
    (mirrors : document.Mirrors node created skeleton)
    (aside : document.Mirrors other others frame) (sound : document.Sound)
    (issued : ∀ name, places.Issued name ↔ document.places.Issued name ∨ name ∈ page.names)
    (fresh : ∀ name ∈ page.names, ¬ document.places.Issued name) (single : page.names.Nodup)
    (apart : created.Disjoint others) (member : reference ∈ skeleton.names) :
    Mirrors { nodes := document.nodes.insertAfter reference page, places } other others frame := by
  have placed := Forest.names_insertAfter_perm sound.distinct
    (mirrors.subset sound member) page
  have distinct := (sound.grown issued fresh single placed).distinct
  have old : ∀ name ∈ others, name ∈ (document.nodes.insertAfter reference page).names →
      name ∈ document.nodes.names := by
    intro name made inside
    rcases List.mem_append.1 (placed.subset inside) with old | new
    · exact old
    · exact (fresh name new (aside.issued name made)).elim
  refine ⟨?_, aside.covered, fun name made inside => aside.present name made (old name made inside),
    aside.own, fun name made => (issued name).2 (.inl (aside.issued name made))⟩
  rcases aside.cases sound with ⟨absent, rfl⟩ | ⟨data, below, has, rfl⟩
  · rw [Forest.subtree_eq_nil_of_not_mem fun inside => absent (old other aside.own inside)]
    rfl
  · have away : reference ∉ below.names := by
      intro inside
      refine apart (mirrors.covered member) (aside.covered ?_)
      simp [inside]
    rw [(has.insertAfter sound.distinct).subtree_eq distinct, Forest.insertAfter_eq_self away]
    rfl

/-- Trees that stand by themselves do not touch what is there. -/
theorem Mirrors.added {page : Forest NodeId NodeData} {places : Places}
    (mirrors : document.Mirrors node created skeleton) (sound : document.Sound)
    (issued : ∀ name, places.Issued name ↔ document.places.Issued name ∨ name ∈ page.names)
    (fresh : ∀ name ∈ page.names, ¬ document.places.Issued name) (single : page.names.Nodup) :
    Mirrors { nodes := document.nodes ++ page, places } node created skeleton := by
  have placed : (document.nodes ++ page).names.Perm (document.nodes.names ++ page.names) := by
    rw [Forest.names_append]
  have distinct := (sound.grown issued fresh single placed).distinct
  have away : node ∉ page.names := fun inside => fresh node inside (mirrors.issued node mirrors.own)
  refine ⟨?_, mirrors.covered, fun name made inside => ?_, mirrors.own,
    fun name made => (issued name).2 (.inl (mirrors.issued name made))⟩
  · rw [Forest.subtree_append distinct, Forest.subtree_eq_nil_of_not_mem away, Forest.append_nil,
      mirrors.shape]
  · rw [Forest.names_append] at inside
    rcases List.mem_append.1 inside with old | new
    · exact mirrors.present name made old
    · exact (fresh name new (mirrors.issued name made)).elim

/-- A new tree is a mirror of its own shape. -/
theorem mirrors_added {data : NodeData} {below : Forest NodeId NodeData} {places : Places}
    (sound : document.Sound)
    (issued : ∀ name, places.Issued name ↔
      document.places.Issued name ∨ name ∈ (Forest.cons node data below .nil).names)
    (fresh : ∀ name ∈ (Forest.cons node data below .nil).names, ¬ document.places.Issued name)
    (single : (Forest.cons node data below .nil).names.Nodup) :
    Mirrors { nodes := document.nodes ++ .cons node data below .nil, places } node
      (Forest.cons node data below .nil).names (.cons node () below.shape .nil) := by
  have placed : (document.nodes ++ .cons node data below .nil).names.Perm
      (document.nodes.names ++ (Forest.cons node data below .nil).names) := by
    rw [Forest.names_append]
  have distinct := (sound.grown issued fresh single placed).distinct
  have has : (document.nodes ++ .cons node data below .nil).Has node data below :=
    Forest.has_append.2 (.inr (Forest.has_of_root ..))
  refine ⟨?_, by simp, fun name made _ => by simpa using made, by simp,
    fun name made => (issued name).2 (.inr made)⟩
  rw [has.subtree_eq distinct]
  rfl

/-! ## Other changes -/

/-- References that are given out without a node take nothing away. -/
theorem Mirrors.of_issued {places : Places} (mirrors : document.Mirrors node created skeleton)
    (issued : ∀ name, document.places.Issued name → places.Issued name) :
    Mirrors { document with places } node created skeleton :=
  ⟨mirrors.shape, mirrors.covered, mirrors.present, mirrors.own,
    fun name made => issued name (mirrors.issued name made)⟩

theorem Sound.of_issued {places : Places} (sound : document.Sound)
    (issued : ∀ name, document.places.Issued name → places.Issued name) :
    Sound { document with places } :=
  ⟨sound.distinct, fun name member => issued name (sound.issued name member)⟩

theorem Sound.modify (sound : document.Sound) (target : NodeId) (change : NodeData → NodeData) :
    (document.modify target change).Sound :=
  ⟨by simpa [Document.modify] using sound.distinct, by simpa [Document.modify] using sound.issued⟩

theorem data?_modify (document : Document) (target : NodeId) (change : NodeData → NodeData)
    (node : NodeId) : (document.modify target change).data? node =
      if node = target then (document.data? node).map change else document.data? node :=
  document.nodes.label?_modify target change node

theorem shape_subtree_modify (nodes : Forest NodeId NodeData) (node target : NodeId)
    (change : NodeData → NodeData) :
    ((nodes.modify target change).subtree node).shape = (nodes.subtree node).shape := by
  induction nodes with
  | nil => rfl
  | cons name data children rest inside beside =>
      have same := children.contains_modify target change node
      by_cases here : name = node
      · simp [Forest.modify, Forest.subtree, here]
      · by_cases found : children.contains node = true
        · simp [Forest.modify, Forest.subtree, here, same, found, inside]
        · simp [Forest.modify, Forest.subtree, here, same, found, beside]

/-- A change of a node's data leaves mirrors alone. -/
theorem Mirrors.modify (mirrors : document.Mirrors node created skeleton) (target : NodeId)
    (change : NodeData → NodeData) :
    (document.modify target change).Mirrors node created skeleton where
  shape := by rw [Document.modify, shape_subtree_modify, mirrors.shape]
  covered := mirrors.covered
  present := by simpa [Document.modify] using mirrors.present
  own := mirrors.own
  issued := mirrors.issued

end Mirrors

end LiveTemplate.Document
