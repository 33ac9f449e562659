import LiveTemplate.Proofs.Document.Mirror
import LiveTemplate.Proofs.Forest.Moves

/-!
# Edits of a document

Whatever is done to a document, its links agree: a node is the parent of another exactly if the other
is one of its children.  A node that is moved takes along what is below it, and nothing else is moved.
-/

namespace LiveTemplate.Document

/-- A call that changes which nodes there are or how they are put together. -/
inductive Operation where
  | insert (data : NodeData)
  | insertChild (parent : NodeId) (data : NodeData)
  | appendChild (parent node : NodeId)
  | insertAfter (reference node : NodeId)
  | detach (node : NodeId)
  | remove (node : NodeId)

/-- The document after a call. -/
def perform (document : Document) : Operation → Document
  | .insert data => (document.insert data).2
  | .insertChild parent data => (document.insertChild parent data).2
  | .appendChild parent node => document.appendChild parent node
  | .insertAfter reference node => document.insertAfter reference node
  | .detach node => document.detach node
  | .remove node => (document.remove node).2

/-- The document after calls, one after the other. -/
def performAll (document : Document) (operations : List Operation) : Document :=
  operations.foldl perform document

/-- What a call puts under another node: the node, and the one above it. -/
def placing? (document : Document) : Operation → Option (NodeId × NodeId)
  | .insertChild parent data =>
    let (node, document) := document.insert data
    if document.contains parent then some (node, parent) else none
  | .appendChild parent node =>
    if document.contains parent && document.contains node then some (node, parent) else none
  | .insertAfter reference node =>
    if document.contains reference && document.contains node && decide (reference ≠ node) then
      (document.parent? reference).map (node, ·)
    else none
  | .insert _ | .detach _ | .remove _ => none

/-- The call puts no node under itself or under one of the nodes below it. -/
def Admits (document : Document) (operation : Operation) : Prop :=
  ∀ node parent, document.placing? operation = some (node, parent) →
    parent ≠ node ∧ node ∉ document.ancestors parent

/-- None of the calls puts a node under itself or under one of the nodes below it. -/
def AdmitsAll (document : Document) : List Operation → Prop
  | [] => True
  | operation :: later =>
    document.Admits operation ∧ (document.perform operation).AdmitsAll later

instance (document : Document) (operation : Operation) : Decidable (document.Admits operation) :=
  match placed : document.placing? operation with
  | none => .isTrue fun _ _ other => nomatch placed.symm.trans other
  | some (node, parent) =>
    decidable_of_iff (parent ≠ node ∧ node ∉ document.ancestors parent) (by
      rw [Admits, placed]
      constructor
      · rintro apart _ _ ⟨⟩
        exact apart
      · exact fun all => all node parent rfl)

instance decidableAdmitsAll : (document : Document) → (operations : List Operation) →
    Decidable (document.AdmitsAll operations)
  | _, [] => .isTrue trivial
  | document, operation :: later =>
    have := decidableAdmitsAll (document.perform operation) later
    inferInstanceAs (Decidable (_ ∧ _))

/-- All that has changed is where a node stands: it has gone with all that is below it. -/
structure Moved (before after : Document) (node : NodeId) (parent : Option NodeId) : Prop where
  data : ∀ other, after.data? other = before.data? other
  parent : after.parent? node = parent
  others : ∀ other, other ≠ node → after.parent? other = before.parent? other
  children : ∀ other, (after.children other).erase node = (before.children other).erase node
  subtree : after.nodes.subtree node = before.nodes.subtree node

/-- All that has changed is that there is another node, without a parent and without children. -/
structure Created (before after : Document) (node : NodeId) (data : NodeData) : Prop where
  fresh : before.contains node = false
  data : after.data? node = some data
  parent : after.parent? node = none
  children : after.children node = []
  others : ∀ other, other ≠ node → after.data? other = before.data? other ∧
    after.parent? other = before.parent? other ∧ after.children other = before.children other

/-! ## Nodes are told apart -/

section Sound

variable {document after : Document} {node parent reference : NodeId}

theorem sound_empty : ({} : Document).Sound where
  distinct := .nil
  issued := nofun

theorem Sound.insert (sound : document.Sound) (data : NodeData) : (document.insert data).2.Sound where
  distinct := by
    rw [Document.insert, Forest.names_append, Forest.leaf_names, List.nodup_append']
    refine ⟨sound.distinct, List.nodup_singleton _, fun other member same => ?_⟩
    obtain rfl := List.mem_singleton.1 same
    exact document.places.not_issued_next (sound.issued _ member)
  issued := by
    intro other member
    rw [Document.insert, Forest.names_append, Forest.leaf_names, List.mem_append,
      List.mem_singleton] at member
    exact (document.places.issued_take_iff other).2 (member.imp_left (sound.issued other))

/-- The same nodes in other places. -/
theorem Sound.rearranged (sound : document.Sound)
    (same : after.nodes.entries.Perm document.nodes.entries) (places : after.places = document.places) :
    after.Sound := by
  have names : after.nodes.names.Perm document.nodes.names := same.map Prod.fst
  exact ⟨names.nodup_iff.2 sound.distinct, fun node member =>
    places ▸ sound.issued node (names.mem_iff.1 member)⟩

theorem contains_iff : document.contains node = true ↔ node ∈ document.nodes.names :=
  Forest.contains_iff_mem

theorem isWithin_iff (sound : document.Sound) (present : document.contains node = true) :
    document.isWithin reference node = true ↔
      reference = node ∨ node ∈ document.ancestors reference := by
  obtain ⟨label, below, has⟩ := Forest.exists_has (contains_iff.1 present)
  have tree := has.subtree_eq sound.distinct
  rw [isWithin, Forest.contains_iff_mem, tree, Forest.names_cons, Forest.names_nil, List.append_nil,
    List.mem_cons, ancestors, Forest.mem_ancestors sound.distinct]
  refine or_congr_right ⟨fun member => ⟨label, below, has, member⟩, ?_⟩
  rintro ⟨_, _, again, member⟩
  obtain ⟨-, rfl⟩ := has.unique sound.distinct again
  exact member

/-- A node that is not put under itself or below it is not put beside a node of its tree. -/
theorem Admits.appendChild (sound : document.Sound) (above : document.contains parent = true)
    (present : document.contains node = true) (admits : document.Admits (.appendChild parent node)) :
    document.isWithin parent node = false := by
  obtain ⟨other, apart⟩ := admits node parent (by simp [placing?, above, present])
  rw [← Bool.not_eq_true, isWithin_iff sound present]
  exact not_or.2 ⟨other, apart⟩

theorem Admits.insertAfter (sound : document.Sound) (beside : document.contains reference = true)
    (present : document.contains node = true) (other : reference ≠ node)
    (admits : document.Admits (.insertAfter reference node)) :
    document.isWithin reference node = false := by
  rw [← Bool.not_eq_true, isWithin_iff sound present]
  refine not_or.2 ⟨other, fun above => ?_⟩
  have places : document.placing? (.insertAfter reference node) =
      (document.parent? reference).map (node, ·) := by
    simp [placing?, beside, present, other]
  cases parent : document.parent? reference with
  | none =>
      rw [parent?, Forest.parent?, List.head?_eq_none_iff] at parent
      rw [ancestors, parent] at above
      cases above
  | some upper =>
      rw [parent] at places
      obtain ⟨apart, outside⟩ := admits node upper places
      rw [ancestors, Forest.ancestors_of_parent? sound.distinct parent] at above
      rcases List.mem_cons.1 above with same | above
      · exact apart same.symm
      · exact outside above

end Sound

/-! ## Moves -/

section Moves

variable {document after : Document} {node parent reference : NodeId} {other : Option NodeId}
  {label : NodeData} {below : Forest NodeId NodeData}

theorem data?_eq_some (sound : document.Sound) {data : NodeData} :
    document.data? node = some data ↔ (node, data) ∈ document.nodes.entries :=
  Forest.label?_eq_some_iff sound.distinct

/-- A node has moved if the same nodes are there, its tree is the same, and the lists of children
differ in the node only. -/
theorem Moved.of_children (sound : document.Sound) (also : after.Sound)
    (same : after.nodes.entries.Perm document.nodes.entries)
    (has : document.nodes.Has node label below) (there : after.nodes.Has node label below)
    (children : ∀ other, (after.children other).erase node = (document.children other).erase node)
    (place : ∀ upper, node ∈ after.children upper ↔ other = some upper) :
    Moved document after node other where
  data := by
    intro another
    refine Option.ext fun data => ?_
    rw [data?_eq_some also, data?_eq_some sound, same.mem_iff]
  parent := Option.ext fun upper => by
    rw [parent?, Forest.parent?_eq_some also.distinct]
    exact place upper
  others := by
    intro another differs
    refine Option.ext fun upper => ?_
    rw [parent?, parent?, Forest.parent?_eq_some also.distinct,
      Forest.parent?_eq_some sound.distinct]
    have member := congrArg (another ∈ ·) (children upper)
    simp only [List.mem_erase_of_ne differs, eq_iff_iff] at member
    exact member
  children := children
  subtree := by
    rw [has.subtree_eq sound.distinct, there.subtree_eq also.distinct]

/-- Taking a node out leaves it without a parent. -/
theorem moved_detach (sound : document.Sound) (present : document.contains node = true) :
    Moved document (document.detach node) node none := by
  obtain ⟨label, below, has⟩ := Forest.exists_has (contains_iff.1 present)
  have children : ∀ other, (document.detach node).children other =
      (document.children other).erase node := Forest.childrenOf_detached sound.distinct has
  have same : (document.detach node).nodes.entries.Perm document.nodes.entries := by
    rw [detach, Forest.entries_append]
    exact Forest.entries_detached sound.distinct has
  have there : (document.detach node).nodes.Has node label below := by
    refine Forest.has_append.2 (.inr ?_)
    rw [has.subtree_eq sound.distinct]
    exact Forest.has_of_root ..
  refine .of_children sound (sound.rearranged same rfl) same has there ?_ ?_
  · intro other
    have nodup : (document.children other).Nodup := Forest.nodup_childrenOf sound.distinct other
    rw [children, List.erase_of_not_mem nodup.not_mem_erase]
  · intro upper
    have nodup : (document.children upper).Nodup := Forest.nodup_childrenOf sound.distinct upper
    rw [children]
    exact iff_of_false nodup.not_mem_erase nofun

theorem appendChild_eq (above : document.contains parent = true)
    (present : document.contains node = true) (outside : document.isWithin parent node = false) :
    document.appendChild parent node =
      { document with
        nodes := (document.nodes.prune node).modifyUnder parent (· ++ document.nodes.subtree node) } := by
  rw [appendChild, above, present, outside]
  rfl

/-- A node that is put under another is the last one there. -/
theorem moved_appendChild (sound : document.Sound) (above : document.contains parent = true)
    (present : document.contains node = true) (outside : document.isWithin parent node = false) :
    (document.appendChild parent node).Sound ∧
      Moved document (document.appendChild parent node) node (some parent) ∧
        (document.appendChild parent node).children parent =
          (document.children parent).erase node ++ [node] := by
  obtain ⟨label, below, has⟩ := Forest.exists_has (contains_iff.1 present)
  have member : parent ∈ (document.nodes.prune node).names :=
    (Forest.mem_names_prune sound.distinct has).2
      ⟨contains_iff.1 above, Forest.contains_eq_false_iff.1 outside⟩
  have arranged := appendChild_eq above present outside
  have children : ∀ other, (document.appendChild parent node).children other =
      if other = parent then (document.children other).erase node ++ [node]
      else (document.children other).erase node := by
    rw [arranged]
    exact Forest.childrenOf_appended sound.distinct has member
  have same : (document.appendChild parent node).nodes.entries.Perm document.nodes.entries := by
    rw [arranged]
    exact Forest.entries_appended sound.distinct has member
  have there : (document.appendChild parent node).nodes.Has node label below := by
    rw [arranged]
    refine Forest.has_modifyUnder_append member ?_
    rw [has.subtree_eq sound.distinct]
    exact Forest.has_of_root ..
  have also : (document.appendChild parent node).Sound :=
    sound.rearranged same (by rw [arranged])
  have apart : ∀ other, node ∉ (document.children other).erase node := fun other =>
    (Forest.nodup_childrenOf sound.distinct other).not_mem_erase
  refine ⟨also, .of_children sound also same has there ?_ ?_, by rw [children, if_pos rfl]⟩
  · intro other
    rw [children]
    split
    · rw [List.erase_append_right _ (apart other)]
      simp
    · rw [List.erase_of_not_mem (apart other)]
  · intro upper
    rw [children]
    split
    · rename_i here
      simp [here]
    · rename_i differs
      exact iff_of_false (apart upper) fun same => differs (Option.some.inj same).symm

theorem insertAfter_eq (beside : document.contains reference = true)
    (present : document.contains node = true) (differs : reference ≠ node)
    (outside : document.isWithin reference node = false) :
    document.insertAfter reference node =
      { document with
        nodes := (document.nodes.prune node).insertAfter reference (document.nodes.subtree node) } := by
  rw [insertAfter, beside, present, outside]
  simp [differs]

section InsertAfter

variable (sound : document.Sound) (beside : document.contains reference = true)
  (present : document.contains node = true) (differs : reference ≠ node)
  (outside : document.isWithin reference node = false)

include sound beside present outside in
/-- A node that is not below another is still there without that one. -/
theorem mem_names_prune_of_outside : reference ∈ (document.nodes.prune node).names := by
  obtain ⟨_, _, has⟩ := Forest.exists_has (contains_iff.1 present)
  exact (Forest.mem_names_prune sound.distinct has).2
    ⟨contains_iff.1 beside, Forest.contains_eq_false_iff.1 outside⟩

include sound beside present differs outside

/-- The list in which the reference stands has the node after it; the others lack the node. -/
theorem children_insertAfter (other : NodeId) :
    (document.parent? reference = some other ∧ ∃ before after,
      (document.children other).erase node = before ++ reference :: after ∧
        (document.insertAfter reference node).children other =
          before ++ reference :: node :: after) ∨
    document.parent? reference ≠ some other ∧
      (document.insertAfter reference node).children other = (document.children other).erase node := by
  obtain ⟨_, _, has⟩ := Forest.exists_has (contains_iff.1 present)
  have member := mem_names_prune_of_outside sound beside present outside
  have children : (document.insertAfter reference node).children other =
      Forest.placedAfter reference [node] ((document.children other).erase node) := by
    rw [insertAfter_eq beside present differs outside]
    exact Forest.childrenOf_placed sound.distinct has member other
  have child : document.parent? reference = some other ↔
      reference ∈ (document.children other).erase node := by
    rw [List.mem_erase_of_ne differs]
    exact Forest.parent?_eq_some sound.distinct
  by_cases listed : reference ∈ (document.children other).erase node
  · obtain ⟨before, after, whole, first⟩ := List.eq_append_cons_of_mem listed
    refine .inl ⟨child.2 listed, before, after, whole, ?_⟩
    rw [children, whole, Forest.placedAfter_append first]
    rfl
  · refine .inr ⟨fun parent => listed (child.1 parent), ?_⟩
    rw [children, Forest.placedAfter_eq_self listed]

/-- A node that is put after another is directly after it under the same parent. -/
theorem moved_insertAfter : (document.insertAfter reference node).Sound ∧
    Moved document (document.insertAfter reference node) node (document.parent? reference) ∧
      ∀ parent, document.parent? reference = some parent → ∃ before after,
        (document.children parent).erase node = before ++ reference :: after ∧
          (document.insertAfter reference node).children parent =
            before ++ reference :: node :: after := by
  obtain ⟨label, below, has⟩ := Forest.exists_has (contains_iff.1 present)
  have member := mem_names_prune_of_outside sound beside present outside
  have arranged := insertAfter_eq beside present differs outside
  have same : (document.insertAfter reference node).nodes.entries.Perm document.nodes.entries := by
    rw [arranged]
    exact Forest.entries_placed sound.distinct has member
  have there : (document.insertAfter reference node).nodes.Has node label below := by
    rw [arranged]
    refine Forest.has_insertAfter member ?_
    rw [has.subtree_eq sound.distinct]
    exact Forest.has_of_root ..
  have also : (document.insertAfter reference node).Sound :=
    sound.rearranged same (by rw [arranged])
  have lists := children_insertAfter sound beside present differs outside
  have apart : ∀ other, node ∉ (document.children other).erase node := fun other =>
    (Forest.nodup_childrenOf sound.distinct other).not_mem_erase
  refine ⟨also, .of_children sound also same has there ?_ ?_, ?_⟩
  · intro other
    rcases lists other with ⟨_, before, after, former, later⟩ | ⟨_, later⟩
    · have absent := former ▸ apart other
      rw [former, later, List.erase_append_right _ fun early => absent (by simp [early])]
      simp [differs]
    · rw [later, List.erase_of_not_mem (apart other)]
  · intro upper
    rcases lists upper with ⟨parent, before, after, _, later⟩ | ⟨none, later⟩
    · rw [later]
      exact iff_of_true (by simp) parent
    · rw [later]
      exact iff_of_false (apart upper) none
  · intro parent found
    rcases lists parent with ⟨_, before, after, former, later⟩ | ⟨none, _⟩
    · exact ⟨before, after, former, later⟩
    · exact (none found).elim

end InsertAfter

end Moves

/-! ## Calls that do nothing, or only create a node -/

section Calls

variable {document : Document} {node parent reference : NodeId}

theorem detach_missing (missing : document.contains node = false) :
    document.detach node = document := by
  have absent := Forest.contains_eq_false_iff.1 missing
  rw [detach, Forest.prune_eq_self absent, Forest.subtree_eq_nil_of_not_mem absent, Forest.append_nil]

theorem remove_missing (missing : document.contains node = false) :
    document.remove node = (none, document) := by
  have absent := Forest.contains_eq_false_iff.1 missing
  have unlabelled : document.data? node = none := by
    rw [← Option.not_isSome_iff_eq_none, data?, Forest.label?_isSome_iff]
    exact absent
  rw [remove, unlabelled, Forest.prune_eq_self absent, Forest.subtree_eq_nil_of_not_mem absent]
  rfl

theorem appendChild_missing (missing : (document.contains parent && document.contains node) = false) :
    document.appendChild parent node = document := by
  rw [appendChild, missing]
  rfl

theorem insertAfter_missing
    (missing : (document.contains reference && document.contains node) = false) :
    document.insertAfter reference node = document := by
  rw [insertAfter, missing]
  rfl

theorem created_insert (sound : document.Sound) (data : NodeData) :
    Created document (document.insert data).2 (document.insert data).1 data := by
  have also := (sound.insert data).distinct
  have absent : document.places.next ∉ document.nodes.names := fun member =>
    document.places.not_issued_next (sound.issued _ member)
  have here : (document.insert data).2.nodes.Has document.places.next data .nil :=
    Forest.has_append.2 (.inr (Forest.has_of_root ..))
  have children : ∀ other, (document.insert data).2.children other = document.children other := by
    intro other
    by_cases present : other ∈ document.nodes.names
    · obtain ⟨label, below, has⟩ := Forest.exists_has present
      rw [Document.children, Document.children, has.childrenOf_eq sound.distinct,
        Forest.Has.childrenOf_eq also (Forest.has_append.2 (.inl has))]
    · rw [Document.children, Document.children, Forest.childrenOf_eq_nil present]
      by_cases new : other = document.places.next
      · rw [new, here.childrenOf_eq also]
        rfl
      · refine Forest.childrenOf_eq_nil ?_
        rw [Document.insert, Forest.names_append, Forest.leaf_names, List.mem_append,
          List.mem_singleton]
        exact not_or.2 ⟨present, new⟩
  refine ⟨Forest.contains_eq_false_iff.2 absent, here.label?_eq also, ?_, ?_, ?_⟩
  · rw [parent?, Forest.parent?, Forest.ancestors_root also]
    · rfl
    · rw [Document.insert, Forest.roots_append]
      exact List.mem_append_right _ List.mem_cons_self
  · rw [children]
    exact Forest.childrenOf_eq_nil absent
  · intro other differs
    refine ⟨Option.ext fun label => ?_, Option.ext fun upper => ?_, children other⟩
    · rw [data?_eq_some (sound.insert data), data?_eq_some sound, Document.insert,
        Forest.entries_append, List.mem_append]
      refine or_iff_left fun member => differs ?_
      exact congrArg Prod.fst (List.mem_singleton.1 member)
    · rw [parent?, parent?, Forest.parent?_eq_some also, Forest.parent?_eq_some sound.distinct]
      exact iff_of_eq (congrArg (other ∈ ·) (children upper))

/-- Under a missing node, a node is created and put nowhere. -/
theorem insertChild_missing {data : NodeData} (admits : document.Admits (.insertChild parent data))
    (missing : document.contains parent = false) :
    document.insertChild parent data = document.insert data := by
  have other : parent ≠ document.places.next := by
    rintro rfl
    have there : (document.insert data).2.contains document.places.next = true := by
      simp [contains_iff, Document.insert]
    have placed : document.placing? (.insertChild document.places.next data) =
        some (document.places.next, document.places.next) := if_pos there
    exact (admits _ _ placed).1 rfl
  have absent : (document.insert data).2.contains parent = false := by
    refine Forest.contains_eq_false_iff.2 ?_
    rw [Document.insert, Forest.names_append, Forest.leaf_names, List.mem_append,
      List.mem_singleton]
    exact not_or.2 ⟨Forest.contains_eq_false_iff.1 missing, other⟩
  rw [insertChild]
  refine Prod.ext rfl (appendChild_missing ?_)
  rw [absent]
  rfl

/-! ## Runs of calls -/

theorem Sound.appendChild (sound : document.Sound) (parent node : NodeId) :
    (document.appendChild parent node).Sound := by
  cases missing : document.contains parent && document.contains node
  · rw [appendChild_missing missing]
    exact sound
  · obtain ⟨above, present⟩ := Bool.and_eq_true_iff.1 missing
    cases outside : document.isWithin parent node
    · exact (moved_appendChild sound above present outside).1
    · rw [Document.appendChild, outside, Bool.not_true, Bool.and_false]
      exact sound

theorem Sound.detach (sound : document.Sound) (node : NodeId) : (document.detach node).Sound := by
  cases present : document.contains node
  · rw [detach_missing present]
    exact sound
  · obtain ⟨label, below, has⟩ := Forest.exists_has (contains_iff.1 present)
    refine sound.rearranged ?_ rfl
    rw [Document.detach, Forest.entries_append]
    exact Forest.entries_detached sound.distinct has

theorem Sound.insertAfter (sound : document.Sound) (reference node : NodeId) :
    (document.insertAfter reference node).Sound := by
  cases missing : document.contains reference && document.contains node
  · rw [insertAfter_missing missing]
    exact sound
  · obtain ⟨beside, present⟩ := Bool.and_eq_true_iff.1 missing
    by_cases same : reference = node
    · rw [Document.insertAfter, missing, if_pos rfl, if_pos same]
      exact sound.detach node
    · cases outside : document.isWithin reference node
      · exact (moved_insertAfter sound beside present same outside).1
      · rw [Document.insertAfter, missing, if_pos rfl, if_neg same, outside]
        exact sound

/-- A call keeps nodes apart. -/
theorem Sound.perform (sound : document.Sound) (operation : Operation) :
    (document.perform operation).Sound := by
  cases operation with
  | insert data => exact sound.insert data
  | insertChild parent data => exact (sound.insert data).appendChild parent _
  | appendChild parent node => exact sound.appendChild parent node
  | insertAfter reference node => exact sound.insertAfter reference node
  | detach node => exact sound.detach node
  | remove node => exact sound.removeAll [node]

theorem Sound.performAll (sound : document.Sound) (operations : List Operation) :
    (document.performAll operations).Sound := by
  induction operations generalizing document with
  | nil => exact sound
  | cons operation later induction => exact induction (sound.perform operation)

end Calls

/-- Parents and children agree, all of them are there, and no node stands above itself. -/
structure Linked (document : Document) : Prop where
  parent : ∀ upper lower,
    document.parent? lower = some upper ↔ lower ∈ document.children upper
  once : ∀ upper lower, lower ∈ document.children upper →
    (document.children upper).count lower = 1
  live : ∀ upper lower, lower ∈ document.children upper →
    document.contains upper = true ∧ document.contains lower = true
  acyclic : ∀ node,
    ¬ Relation.TransGen (fun lower upper => document.parent? lower = some upper) node node

theorem Sound.linked {document : Document} (sound : document.Sound) : document.Linked where
  parent _ _ := Forest.parent?_eq_some sound.distinct
  once upper _ member :=
    List.count_eq_one_of_mem (Forest.nodup_childrenOf sound.distinct upper) member
  live _ _ member :=
    (Forest.mem_names_of_childrenOf sound.distinct member).imp contains_iff.2 contains_iff.2
  acyclic := Forest.parents_irreflexive sound.distinct

/-- What the calls do that put a node somewhere, or that name a missing node. -/
structure Exact (document : Document) : Prop where
  append : ∀ parent node, document.contains parent = true → document.contains node = true →
    document.Admits (.appendChild parent node) →
      Moved document (document.appendChild parent node) node (some parent) ∧
        (document.appendChild parent node).children parent =
          (document.children parent).erase node ++ [node]
  after : ∀ reference node, reference ≠ node → document.contains reference = true →
    document.contains node = true → document.Admits (.insertAfter reference node) →
      Moved document (document.insertAfter reference node) node (document.parent? reference) ∧
        ∀ parent, document.parent? reference = some parent → ∃ before after,
          (document.children parent).erase node = before ++ reference :: after ∧
            (document.insertAfter reference node).children parent =
              before ++ reference :: node :: after
  detach : ∀ node, document.contains node = true →
    Moved document (document.detach node) node none
  create : ∀ data, Created document (document.insert data).2 (document.insert data).1 data
  appendMissing : ∀ parent node, (document.contains parent && document.contains node) = false →
    document.appendChild parent node = document
  afterMissing : ∀ reference node,
    (document.contains reference && document.contains node) = false →
      document.insertAfter reference node = document
  detachMissing : ∀ node, document.contains node = false → document.detach node = document
  removeMissing : ∀ node, document.contains node = false → document.remove node = (none, document)
  createMissing : ∀ parent data, document.Admits (.insertChild parent data) →
    document.contains parent = false →
      document.insertChild parent data = document.insert data

theorem Sound.exact {document : Document} (sound : document.Sound) : document.Exact where
  append _ _ above present admits :=
    (moved_appendChild sound above present (admits.appendChild sound above present)).2
  after _ _ differs beside present admits :=
    (moved_insertAfter sound beside present differs
      (admits.insertAfter sound beside present differs)).2
  detach _ present := moved_detach sound present
  create := created_insert sound
  appendMissing _ _ := appendChild_missing
  afterMissing _ _ := insertAfter_missing
  detachMissing _ := detach_missing
  removeMissing _ := remove_missing
  createMissing _ _ := insertChild_missing

end LiveTemplate.Document
