import LiveTemplate.Proofs.Bound.Ledger
import LiveTemplate.Proofs.Bound.Skeleton
import LiveTemplate.Proofs.Document.Mirror
import LiveTemplate.Proofs.Forest.Adoption
import LiveTemplate.Proofs.Reactive.Registration
import Mathlib.Algebra.GroupWithZero.Nat

/-!
# How bound nodes grow and go

Bound nodes are added by themselves or among the children of others, registrations are noted in their
ledgers, and nodes are torn down, in any order and under any numbers.  Parents and children agree all
the time, and tearing a node down takes the node and what is below it, and nothing else.
-/

namespace LiveTemplate

/-- A store of bound nodes with the data that they follow and the document in which they show. -/
structure Stage (Store : Type) where
  store : Store
  data : Data
  document : Document

namespace BoundTree

variable {Part : Type}

/-- A call that changes which bound nodes there are, or what one of them holds. -/
inductive Operation (Part : Type) where
  | insert (node : BoundNode Part)
  | adopt (parent : BoundId) (node : BoundNode Part)
  | adoptAt (parent : BoundId) (index : Nat) (node : BoundNode Part)
  | record (owner : BoundId) (subscription : Subscription)
  | teardown (id : BoundId)
  /-- Something else is done to the data and to the document. -/
  | elsewhere (data : Data) (document : Document)

/-- The tree, the data and the document after a call. -/
def perform (stage : Stage (BoundTree Part)) : Operation Part → Stage (BoundTree Part)
  | .insert node => { stage with store := (stage.store.insert node).2 }
  | .adopt parent node => { stage with store := (stage.store.adopt parent node).2 }
  | .adoptAt parent index node => { stage with store := (stage.store.adoptAt parent index node).2 }
  | .record owner subscription =>
    let (store, data) := stage.store.record owner subscription stage.data
    { stage with store, data }
  | .teardown id =>
    let (store, data, document) := stage.store.teardown id stage.data stage.document
    { store, data, document }
  | .elsewhere data document => { stage with data, document }

/-- The tree, the data and the document after calls, one after the other. -/
def performAll (stage : Stage (BoundTree Part)) (operations : List (Operation Part)) :
    Stage (BoundTree Part) :=
  operations.foldl perform stage

/-- The node directly above another. -/
def parent? (tree : BoundTree Part) (id : BoundId) : Option BoundId :=
  tree.nodes.parent? id

/-- A node and everything below it, each node before its children. -/
def walk (tree : BoundTree Part) (id : BoundId) : List BoundId :=
  tree.nodes.walk id

/-- The registrations in the ledger of a node. -/
def ledger (tree : BoundTree Part) (id : BoundId) : List Subscription :=
  ((tree.get? id).map BoundNode.ledger).getD []

/-- The document node of a node. -/
def dom? (tree : BoundTree Part) (id : BoundId) : Option NodeId :=
  (tree.get? id).bind BoundNode.dom

/-- One node is another or is reached from it by going from parents to children. -/
def Descends (tree : BoundTree Part) (upper lower : BoundId) : Prop :=
  Relation.ReflTransGen (fun upper lower => lower ∈ tree.children upper) upper lower

/-- Nodes are told apart, and all of their numbers have been given out. -/
structure Sound (tree : BoundTree Part) : Prop where
  distinct : tree.nodes.names.Nodup
  numbered : ∀ id ∈ tree.nodes.names, id.index < tree.next

/-! ## Nodes are told apart -/

section Sound

variable {tree : BoundTree Part} {id parent owner : BoundId} {node : BoundNode Part}

theorem contains_iff : tree.contains id = true ↔ id ∈ tree.nodes.names :=
  Forest.contains_iff_mem

theorem not_contains_iff : tree.contains id = false ↔ id ∉ tree.nodes.names :=
  Forest.contains_eq_false_iff

theorem sound_empty : ({} : BoundTree Part).Sound where
  distinct := .nil
  numbered := nofun

theorem Sound.fresh (sound : tree.Sound) : (⟨tree.next⟩ : BoundId) ∉ tree.nodes.names :=
  fun member => Nat.lt_irrefl _ (sound.numbered _ member)

/-- A new node takes the next number. -/
theorem Sound.grown (sound : tree.Sound) {nodes : BoundForest Part}
    (names : nodes.names.Perm (⟨tree.next⟩ :: tree.nodes.names)) :
    Sound { nodes, next := tree.next + 1 } where
  distinct := names.nodup_iff.2 (List.nodup_cons.2 ⟨sound.fresh, sound.distinct⟩)
  numbered := by
    intro id member
    rcases List.mem_cons.1 (names.mem_iff.1 member) with rfl | old
    · exact Nat.lt_succ_self _
    · exact Nat.lt_succ_of_lt (sound.numbered id old)

theorem Sound.insert (sound : tree.Sound) (node : BoundNode Part) : (tree.insert node).2.Sound :=
  sound.grown ((Forest.entries_beside ..).map Prod.fst)

theorem Sound.adoptAt (sound : tree.Sound) (parent : BoundId) (index : Nat) (node : BoundNode Part) :
    (tree.adoptAt parent index node).2.Sound := by
  rw [BoundTree.adoptAt]
  split
  · rename_i present
    exact sound.grown (Forest.names_adopted sound.distinct (contains_iff.1 present) index)
  · exact sound.insert node

theorem Sound.record (sound : tree.Sound) (owner : BoundId) (subscription : Subscription)
    (data : Data) : (tree.record owner subscription data).1.Sound := by
  rw [BoundTree.record]
  split
  · constructor
    · rw [Forest.names_modify]
      exact sound.distinct
    · rw [Forest.names_modify]
      exact sound.numbered
  · exact sound

theorem Sound.teardown (sound : tree.Sound) (id : BoundId) (data : Data) (document : Document) :
    (tree.teardown id data document).1.Sound where
  distinct := Forest.nodup_prune sound.distinct id
  numbered := by
    intro other member
    have left : other ∈ (tree.nodes.prune id).names := member
    rw [Forest.prune_eq_without] at left
    exact sound.numbered other ((Forest.names_without_sublist ..).subset left)

/-- A call keeps nodes apart. -/
theorem Sound.perform {stage : Stage (BoundTree Part)} (sound : stage.store.Sound)
    (operation : Operation Part) : (BoundTree.perform stage operation).store.Sound := by
  cases operation with
  | insert node => exact sound.insert node
  | adopt parent node => exact sound.adoptAt parent _ node
  | adoptAt parent index node => exact sound.adoptAt parent index node
  | record owner subscription => exact sound.record owner subscription stage.data
  | teardown id => exact sound.teardown id stage.data stage.document
  | elsewhere => exact sound

theorem Sound.performAll {stage : Stage (BoundTree Part)} (sound : stage.store.Sound)
    (operations : List (Operation Part)) : (BoundTree.performAll stage operations).store.Sound := by
  induction operations generalizing stage with
  | nil => exact sound
  | cons operation later induction => exact induction (sound.perform operation)

end Sound

/-! ## Links -/

/-- Parents and children agree, a node is in one list of children at most and stands there once, all
of them are there, and no node is above itself. -/
structure Linked (tree : BoundTree Part) : Prop where
  parent : ∀ upper lower, tree.parent? lower = some upper ↔ lower ∈ tree.children upper
  once : ∀ upper lower, lower ∈ tree.children upper → (tree.children upper).count lower = 1 ∧
    ∀ other, lower ∈ tree.children other → other = upper
  live : ∀ upper lower, lower ∈ tree.children upper →
    tree.contains upper = true ∧ tree.contains lower = true
  acyclic : ∀ id, ¬ Relation.TransGen (fun lower upper => tree.parent? lower = some upper) id id

theorem Sound.linked {tree : BoundTree Part} (sound : tree.Sound) : tree.Linked where
  parent _ _ := Forest.parent?_eq_some sound.distinct
  once := by
    intro upper lower member
    constructor
    · exact List.count_eq_one_of_mem (Forest.nodup_childrenOf sound.distinct upper) member
    · intro other also
      have here := (Forest.parent?_eq_some sound.distinct).2 member
      have there := (Forest.parent?_eq_some sound.distinct).2 also
      exact Option.some.inj (there.symm.trans here)
  live _ _ member :=
    (Forest.mem_names_of_childrenOf sound.distinct member).imp contains_iff.2 contains_iff.2
  acyclic := Forest.parents_irreflexive sound.distinct

/-! ## Tearing down -/

/-- What tearing down one node does: the node and what is below it are gone, and the others are what
they were; the registrations in the ledgers of those that are gone are ended, each as often as it is
noted there, and no other; their document nodes are removed. -/
structure Torn (tree : BoundTree Part) (id : BoundId) (data : Data) (document : Document)
    (after : BoundTree Part) (left : Data) (page : Document) : Prop where
  gone : ∀ other, after.contains other = true ↔
    tree.contains other = true ∧ ¬ tree.Descends id other
  nodes : ∀ other, ¬ tree.Descends id other → after.get? other = tree.get? other
  parents : ∀ other, ¬ tree.Descends id other → after.parent? other = tree.parent? other
  children : ∀ other, ¬ tree.Descends id other → after.children other =
    if tree.parent? id = some other then (tree.children other).erase id else tree.children other
  ended : ∃ ids : List BoundId, ids.Nodup ∧ (∀ other, other ∈ ids ↔ tree.Descends id other) ∧
    left = data.cancelAll (ids.flatMap tree.ledger) ∧
    data.Cancels left (ids.flatMap tree.ledger)
  hidden : ∀ other dom, tree.Descends id other → tree.dom? other = some dom →
    page.contains dom = false
  page : document.Sound → ∀ dom, page.contains dom = true ↔ document.contains dom = true ∧
    ∀ other upper, tree.Descends id other → tree.dom? other = some upper → dom ∉ document.walk upper

/-- The nodes at and below a node, each once, and how many registrations they hold. -/
structure Counted (tree : BoundTree Part) (id : BoundId) (ids : List BoundId) : Prop where
  once : ids.Nodup
  whole : ∀ other, other ∈ ids ↔ tree.Descends id other
  subscriptions : tree.subscriptionCount id = (ids.map fun other => (tree.ledger other).length).sum
  nodes : tree.boundCount id = ids.length

section Torn

variable {tree : BoundTree Part} {id other : BoundId} {node : BoundNode Part}
  {below : BoundForest Part}

theorem descends_iff (sound : tree.Sound) (present : tree.contains id = true) :
    tree.Descends id other ↔ other ∈ tree.walk id :=
  (Forest.mem_walk_iff sound.distinct (contains_iff.1 present)).symm

/-- The entries of a tree hold what is said of their numbers. -/
theorem Sound.get?_of_subtree (sound : tree.Sound) {entry : BoundId × BoundNode Part}
    (member : entry ∈ (tree.nodes.subtree id).entries) : tree.get? entry.1 = some entry.2 := by
  obtain ⟨_, inside⟩ := Forest.has_iff_mem_entries.2 member
  exact (inside.of_subtree sound.distinct).label?_eq sound.distinct

theorem ledger_subtree (sound : tree.Sound) (id : BoundId) :
    BoundForest.ledger (tree.nodes.subtree id) = (tree.walk id).flatMap tree.ledger := by
  rw [BoundForest.ledger, walk, Forest.walk, Forest.names, List.flatMap_map]
  apply List.flatMap_congr
  intro entry member
  rw [ledger, sound.get?_of_subtree member]
  rfl

theorem mem_shown_subtree (sound : tree.Sound) {dom : NodeId} :
    dom ∈ BoundForest.shown (tree.nodes.subtree id) ↔
      ∃ other ∈ tree.walk id, tree.dom? other = some dom := by
  rw [BoundForest.mem_shown]
  constructor
  · rintro ⟨entry, member, own⟩
    refine ⟨entry.1, List.mem_map_of_mem member, ?_⟩
    rw [dom?, sound.get?_of_subtree member, Option.bind_some]
    exact own
  · rintro ⟨other, member, own⟩
    obtain ⟨entry, inside, rfl⟩ := List.mem_map.1 member
    refine ⟨entry, inside, ?_⟩
    rw [dom?, sound.get?_of_subtree inside, Option.bind_some] at own
    exact own

theorem teardown_missing (missing : tree.contains id = false) (data : Data) (document : Document) :
    tree.teardown id data document = (tree, data, document) := by
  have absent := not_contains_iff.1 missing
  rw [teardown, Forest.prune_eq_self absent, Forest.subtree_eq_nil_of_not_mem absent]
  rfl

theorem names_subtree (tree : BoundTree Part) (id : BoundId) :
    (tree.nodes.subtree id).names = tree.walk id :=
  rfl

theorem nodup_walk (sound : tree.Sound) (present : tree.contains id = true) :
    (tree.walk id).Nodup := by
  obtain ⟨node, below, has⟩ := Forest.exists_has (contains_iff.1 present)
  rw [walk, has.walk_eq sound.distinct]
  exact has.nodup sound.distinct

theorem Sound.torn (sound : tree.Sound) (present : tree.contains id = true) (data : Data)
    (document : Document) : Torn tree id data document (tree.teardown id data document).1
      (tree.teardown id data document).2.1 (tree.teardown id data document).2.2 := by
  obtain ⟨node, below, has⟩ := Forest.exists_has (contains_iff.1 present)
  have inside : ∀ {other}, tree.Descends id other ↔ other ∈ tree.walk id :=
    descends_iff sound present
  have outside : ∀ {other}, ¬ tree.Descends id other → other ∉ tree.walk id :=
    fun apart within => apart (inside.2 within)
  constructor
  · intro other
    rw [contains_iff, contains_iff, inside]
    exact Forest.mem_names_prune sound.distinct has
  · exact fun other apart => Forest.label?_prune sound.distinct has (outside apart)
  · exact fun other apart => Forest.parent?_prune sound.distinct has (outside apart)
  · intro other apart
    have listed : (tree.teardown id data document).1.children other = (tree.children other).erase id :=
      Forest.childrenOf_prune sound.distinct has (outside apart)
    rw [listed]
    split
    · rfl
    · rename_i elsewhere
      exact List.erase_of_not_mem fun child => elsewhere ((sound.linked.parent other id).2 child)
  · refine ⟨tree.walk id, nodup_walk sound present, fun other => inside.symm, ?_, ?_⟩
    · rw [← ledger_subtree sound]
      rfl
    · rw [← ledger_subtree sound]
      exact Data.cancelAll_cancels ..
  · intro other dom within own
    have shown := (mem_shown_subtree sound).2 ⟨other, inside.1 within, own⟩
    apply Forest.contains_eq_false_iff.2
    rw [BoundTree.teardown, Document.nodes_removeAll]
    exact fun left => Forest.not_mem_of_mem_without left shown
  · intro told dom
    have left : dom ∈ (document.nodes.without (BoundForest.shown (tree.nodes.subtree id))).names ↔ _ :=
      Forest.mem_names_without_iff told.distinct
    rw [Document.contains, Document.contains, Forest.contains_iff_mem, Forest.contains_iff_mem,
      BoundTree.teardown, Document.nodes_removeAll, left]
    apply and_congr_right
    intro _
    constructor
    · intro spared other upper within own below
      obtain ⟨label, trees, found⟩ := Forest.exists_has (Forest.mem_names_of_walked below)
      rw [Document.walk, found.walk_eq told.distinct] at below
      exact spared upper label trees found below
        ((mem_shown_subtree sound).2 ⟨other, inside.1 within, own⟩)
    · intro spared upper label trees found below shown
      obtain ⟨other, within, own⟩ := (mem_shown_subtree sound).1 shown
      apply spared other upper (inside.2 within) own
      rw [Document.walk, found.walk_eq told.distinct]
      exact below

theorem Sound.counted (sound : tree.Sound) (present : tree.contains id = true) :
    Counted tree id (tree.walk id) where
  once := nodup_walk sound present
  whole _ := (descends_iff sound present).symm
  subscriptions := by
    rw [subscriptionCount, ledger_subtree sound, List.length_flatMap]
  nodes := by
    rw [boundCount, ← Forest.length_names, names_subtree]

theorem counts_missing (missing : tree.contains id = false) :
    tree.subscriptionCount id = 0 ∧ tree.boundCount id = 0 := by
  rw [subscriptionCount, boundCount,
    Forest.subtree_eq_nil_of_not_mem (not_contains_iff.1 missing)]
  exact ⟨rfl, rfl⟩

theorem record_missing (missing : tree.contains id = false) (subscription : Subscription)
    (data : Data) : tree.record id subscription data = (tree, data.cancel subscription) := by
  rw [record, missing]
  rfl

end Torn

/-- What the calls do that take nodes away, that count them, or that name a missing node. -/
structure Exact (tree : BoundTree Part) : Prop where
  teardown : ∀ id data document, tree.contains id = true →
    Torn tree id data document (tree.teardown id data document).1
      (tree.teardown id data document).2.1 (tree.teardown id data document).2.2
  teardownMissing : ∀ id data document, tree.contains id = false →
    tree.teardown id data document = (tree, data, document)
  counts : ∀ id, tree.contains id = true → ∃ ids, Counted tree id ids
  countsMissing : ∀ id, tree.contains id = false →
    tree.subscriptionCount id = 0 ∧ tree.boundCount id = 0
  recordMissing : ∀ owner subscription data, tree.contains owner = false →
    tree.record owner subscription data = (tree, data.cancel subscription)

theorem Sound.exact {tree : BoundTree Part} (sound : tree.Sound) : tree.Exact where
  teardown _ data document present := sound.torn present data document
  teardownMissing _ data document missing := teardown_missing missing data document
  counts id present := ⟨tree.walk id, sound.counted present⟩
  countsMissing _ := counts_missing
  recordMissing _ subscription data missing := record_missing missing subscription data

end BoundTree

end LiveTemplate
