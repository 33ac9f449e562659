import LiveTemplate.Proofs.Bound.Growth
import Mathlib.Logic.Function.Basic

/-!
# Bound nodes in a table

Bound nodes can be kept in a table, in which each has the number of its parent and the list of its
children's numbers.  Tearing down then goes from a node to its children by number, while the node itself
is already out of the table.  As long as no call names a number that has not been given out, the table
says what the tree says.
-/

namespace LiveTemplate

/-- What a table holds under the number of a bound node. -/
structure Arena.Entry (Part : Type) where
  node : BoundNode Part
  parent : Option BoundId := none
  children : List BoundId := []

/-- A table of bound nodes and the number of the next one. -/
structure Arena (Part : Type) where
  entries : BoundId → Option (Arena.Entry Part) := fun _ => none
  next : Nat := 0

namespace Arena

variable {Part : Type}

/-- Change an entry, if there is one. -/
def modify (arena : Arena Part) (id : BoundId) (change : Entry Part → Entry Part) : Arena Part :=
  { arena with entries := Function.update arena.entries id ((arena.entries id).map change) }

/-- Hold an entry under the next number. -/
def add (arena : Arena Part) (entry : Entry Part) : BoundId × Arena Part :=
  (⟨arena.next⟩,
    { entries := Function.update arena.entries ⟨arena.next⟩ (some entry), next := arena.next + 1 })

/-- Add a node without a parent. -/
def insert (arena : Arena Part) (node : BoundNode Part) : BoundId × Arena Part :=
  arena.add { node }

/-- Whether the parent is there is found out before the node has a number, and the parent's list is
changed after that. -/
def adoptAt (arena : Arena Part) (parent : BoundId) (index : Nat) (node : BoundNode Part) :
    BoundId × Arena Part :=
  let above := if (arena.entries parent).isSome then some parent else none
  let (id, arena) := arena.add { node, parent := above }
  (id, arena.modify parent fun entry =>
    { entry with children := entry.children.insertIdx (min index entry.children.length) id })

/-- Add a node as the last child of another. -/
def adopt (arena : Arena Part) (parent : BoundId) (node : BoundNode Part) : BoundId × Arena Part :=
  arena.adoptAt parent (((arena.entries parent).map fun entry => entry.children.length).getD 0) node

/-- Note a registration in a ledger, or end it at once. -/
def record (arena : Arena Part) (owner : BoundId) (subscription : Subscription) (data : Data) :
    Arena Part × Data :=
  match arena.entries owner with
  | some _ =>
    (arena.modify owner fun entry =>
      { entry with node := { entry.node with ledger := entry.node.ledger ++ [subscription] } }, data)
  | none => (arena, data.cancel subscription)

/-- Take an entry out of the table. -/
def remove (arena : Arena Part) (id : BoundId) : Arena Part :=
  { arena with entries := Function.update arena.entries id none }

/-- Take a number out of the list of a parent, if there is one in the table. -/
def unlink (arena : Arena Part) (parent : Option BoundId) (id : BoundId) : Arena Part :=
  match parent with
  | none => arena
  | some parent => arena.modify parent fun entry =>
      { entry with children := entry.children.filter (· != id) }

/-- Nodes are torn down one after the other.  A node goes out of the table, its ledger is ended, its
children are torn down, its document node is removed, and it is taken out of its parent's list.  A
number under which nothing is held is passed over. -/
inductive TearsDown : Stage (Arena Part) → List BoundId → Stage (Arena Part) → Prop where
  | done (stage : Stage (Arena Part)) : TearsDown stage [] stage
  | missing {stage after : Stage (Arena Part)} {id : BoundId} {later : List BoundId} :
      stage.store.entries id = none → TearsDown stage later after →
        TearsDown stage (id :: later) after
  | node {stage below after : Stage (Arena Part)} {id : BoundId} {later : List BoundId}
      {entry : Entry Part} :
      stage.store.entries id = some entry →
        TearsDown
          { stage with
            store := stage.store.remove id
            data := stage.data.cancelAll entry.node.ledger } entry.children below →
        TearsDown
          { below with
            store := below.store.unlink entry.parent id
            document := below.document.removeAll entry.node.dom.toList } later after →
        TearsDown stage (id :: later) after

/-- What nodes and all nodes below them weigh together. -/
inductive Weighs (arena : Arena Part) (weight : BoundNode Part → Nat) : List BoundId → Nat → Prop where
  | done : Weighs arena weight [] 0
  | missing {id : BoundId} {later : List BoundId} {total : Nat} :
      arena.entries id = none → Weighs arena weight later total →
        Weighs arena weight (id :: later) total
  | node {id : BoundId} {later : List BoundId} {entry : Entry Part} {below total : Nat} :
      arena.entries id = some entry → Weighs arena weight entry.children below →
        Weighs arena weight later total →
          Weighs arena weight (id :: later) (weight entry.node + below + total)

theorem entries_modify (arena : Arena Part) (id : BoundId) (change : Entry Part → Entry Part)
    (other : BoundId) : (arena.modify id change).entries other =
      if other = id then (arena.entries id).map change else arena.entries other :=
  Function.update_apply ..

theorem entries_add (arena : Arena Part) (entry : Entry Part) (id : BoundId) :
    (arena.add entry).2.entries id = if id = ⟨arena.next⟩ then some entry else arena.entries id :=
  Function.update_apply ..

theorem entries_remove (arena : Arena Part) (id other : BoundId) :
    (arena.remove id).entries other = if other = id then none else arena.entries other :=
  Function.update_apply ..

theorem entries_unlink (arena : Arena Part) (parent : Option BoundId) (id other : BoundId) :
    (arena.unlink parent id).entries other =
      if parent = some other then (arena.entries other).map fun entry =>
        { entry with children := entry.children.filter (· != id) }
      else arena.entries other := by
  cases parent with
  | none => rfl
  | some upper =>
      rw [unlink, entries_modify]
      by_cases here : other = upper
      · rw [if_pos here, here, if_pos rfl]
      · rw [if_neg here, if_neg fun same => here (Option.some.inj same).symm]

/-- What a call makes of the table, the data and the document. -/
def Performs (stage : Stage (Arena Part)) (operation : BoundTree.Operation Part)
    (after : Stage (Arena Part)) : Prop :=
  match operation with
  | .insert node => after = { stage with store := (stage.store.insert node).2 }
  | .adopt parent node => after = { stage with store := (stage.store.adopt parent node).2 }
  | .adoptAt parent index node =>
    after = { stage with store := (stage.store.adoptAt parent index node).2 }
  | .record owner subscription =>
    after = { stage with
      store := (stage.store.record owner subscription stage.data).1
      data := (stage.store.record owner subscription stage.data).2 }
  | .teardown id => TearsDown stage [id] after
  | .elsewhere data document => after = { stage with data, document }

/-- What calls make of them, one after the other. -/
def PerformsAll (stage : Stage (Arena Part)) (operations : List (BoundTree.Operation Part))
    (after : Stage (Arena Part)) : Prop :=
  match operations with
  | [] => after = stage
  | operation :: later => ∃ between, Performs stage operation between ∧ PerformsAll between later after

theorem TearsDown.unique {stage after other : Stage (Arena Part)} {ids : List BoundId}
    (tears : TearsDown stage ids after) (also : TearsDown stage ids other) : after = other := by
  induction tears generalizing other with
  | done =>
      cases also
      rfl
  | missing absent _ induction =>
      cases also with
      | missing _ tears => exact induction tears
      | node present => exact nomatch absent.symm.trans present
  | node present _ _ inside beside =>
      cases also with
      | missing absent => exact nomatch present.symm.trans absent
      | node again tears later =>
          cases present.symm.trans again
          cases inside tears
          exact beside later

theorem Weighs.unique {arena : Arena Part} {weight : BoundNode Part → Nat} {ids : List BoundId}
    {total other : Nat} (weighs : Weighs arena weight ids total)
    (also : Weighs arena weight ids other) : total = other := by
  induction weighs generalizing other with
  | done =>
      cases also
      rfl
  | missing absent _ induction =>
      cases also with
      | missing _ weighs => exact induction weighs
      | node present => exact nomatch absent.symm.trans present
  | node present _ _ inside beside =>
      cases also with
      | missing absent => exact nomatch present.symm.trans absent
      | node again weighs later =>
          cases present.symm.trans again
          rw [inside weighs, beside later]

/-! ## Trees in a table -/

/-- The table holds trees of bound nodes that have a common parent. -/
def Houses (arena : Arena Part) (parent : Option BoundId) : BoundForest Part → Prop
  | .nil => True
  | .cons id node children rest =>
    arena.entries id = some { node, parent, children := Forest.roots children } ∧
      Houses arena (some id) children ∧ Houses arena parent rest

/-- A table without the entries of some numbers. -/
def without (arena : Arena Part) (gone : List BoundId) : Arena Part :=
  gone.foldl remove arena

section Houses

variable {arena : Arena Part} {parent : Option BoundId}

theorem entries_without (arena : Arena Part) (gone : List BoundId) (id : BoundId) :
    (arena.without gone).entries id = if id ∈ gone then none else arena.entries id := by
  induction gone generalizing arena with
  | nil => rfl
  | cons first later induction =>
      have step : arena.without (first :: later) = (arena.remove first).without later := rfl
      rw [step, induction]
      rw [entries_remove]
      by_cases here : id = first
      · simp [here]
      · simp [here]

theorem next_unlink (arena : Arena Part) (parent : Option BoundId) (id : BoundId) :
    (arena.unlink parent id).next = arena.next := by
  cases parent with
  | none => rfl
  | some upper => rfl

theorem next_without (arena : Arena Part) (gone : List BoundId) :
    (arena.without gone).next = arena.next := by
  induction gone generalizing arena with
  | nil => rfl
  | cons first later induction => exact induction (arena.remove first)

theorem without_append (arena : Arena Part) (first second : List BoundId) :
    (arena.without first).without second = arena.without (first ++ second) :=
  List.foldl_append.symm

theorem Houses.without {trees : BoundForest Part} (houses : arena.Houses parent trees)
    {gone : List BoundId} (apart : trees.names.Disjoint gone) :
    (arena.without gone).Houses parent trees := by
  induction trees generalizing parent with
  | nil => trivial
  | cons id node children rest inside beside =>
      obtain ⟨here, below, later⟩ := houses
      simp only [Forest.names_cons, List.disjoint_cons_left, List.disjoint_append_left] at apart
      obtain ⟨spared, apartBelow, apartLater⟩ := apart
      refine ⟨?_, inside below apartBelow, beside later apartLater⟩
      rw [entries_without, if_neg spared, here]

/-- A parent that is not in the table has no list. -/
theorem unlink_missing (gone : ∀ upper, parent = some upper → arena.entries upper = none)
    (id : BoundId) : arena.unlink parent id = arena := by
  cases parent with
  | none => rfl
  | some upper =>
      have absent := gone upper rfl
      rw [unlink, modify, absent, Option.map_none, ← absent, Function.update_eq_self]

/-- The registrations of a tree end from the top down. -/
theorem cancelAll_cons (data : Data) (id : BoundId) (node : BoundNode Part)
    (children rest : BoundForest Part) :
    data.cancelAll (BoundForest.ledger (.cons id node children rest)) =
      ((data.cancelAll node.ledger).cancelAll (BoundForest.ledger children)).cancelAll
        (BoundForest.ledger rest) := by
  simp only [Data.cancelAll, BoundForest.ledger, Forest.entries, List.flatMap_cons,
    List.flatMap_append, List.foldl_append]

/-- The document nodes of a tree go from the bottom up. -/
theorem removeAll_cons (document : Document) (id : BoundId) (node : BoundNode Part)
    (children rest : BoundForest Part) :
    document.removeAll (BoundForest.shown (.cons id node children rest)) =
      ((document.removeAll (BoundForest.shown children)).removeAll node.dom.toList).removeAll
        (BoundForest.shown rest) := by
  simp only [Document.removeAll, BoundForest.shown, List.foldl_append]

/-- Trees whose parent is not in the table any more are torn down as a whole. -/
theorem tearsDown_trees {trees : BoundForest Part} {stage : Stage (Arena Part)}
    (houses : stage.store.Houses parent trees) (distinct : trees.names.Nodup)
    (gone : ∀ upper, parent = some upper → stage.store.entries upper = none) :
    TearsDown stage (Forest.roots trees)
      { store := stage.store.without trees.names
        data := stage.data.cancelAll (BoundForest.ledger trees)
        document := stage.document.removeAll (BoundForest.shown trees) } := by
  induction trees generalizing parent stage with
  | nil => exact .done stage
  | cons id node children rest inside beside =>
      obtain ⟨here, below, later⟩ := houses
      obtain ⟨notInside, notBeside, distinctInside, distinctBeside, apart⟩ :=
        Forest.distinct_parts distinct
      -- The node is out of the table when its children are torn down.
      have out : (stage.store.remove id).entries id = none := by
        rw [entries_remove, if_pos rfl]
      have within : (stage.store.remove id).Houses (some id) children :=
        below.without (List.disjoint_singleton.2 notInside)
      have first := @inside (some id)
        { stage with
          store := stage.store.remove id
          data := stage.data.cancelAll node.ledger } within distinctInside
        (fun upper same => Option.some.inj same ▸ out)
      -- The rest finds the table without the node and what was below it.
      have clear : ∀ upper, parent = some upper →
          (stage.store.without (id :: children.names)).entries upper = none := by
        intro upper same
        rw [entries_without, gone upper same, ite_self]
      have left : (stage.store.without (id :: children.names)).Houses parent rest := by
        apply later.without
        rw [List.disjoint_cons_right]
        exact ⟨notBeside, List.disjoint_comm.1 apart⟩
      have second := @beside parent
        { store := stage.store.without (id :: children.names)
          data := (stage.data.cancelAll node.ledger).cancelAll (BoundForest.ledger children)
          document := (stage.document.removeAll (BoundForest.shown children)).removeAll
            node.dom.toList } left distinctBeside clear
      have kept : ((stage.store.remove id).without children.names).unlink parent id =
          stage.store.without (id :: children.names) := unlink_missing clear id
      refine .node here first ?_
      rw [kept, cancelAll_cons, removeAll_cons, Forest.names_cons, ← List.cons_append, ← without_append]
      exact second

theorem weighs_trees {trees : BoundForest Part} (houses : arena.Houses parent trees)
    (weight : BoundNode Part → Nat) :
    Weighs arena weight (Forest.roots trees) (trees.entries.map fun entry => weight entry.2).sum := by
  induction trees generalizing parent with
  | nil => exact .done
  | cons id node children rest inside beside =>
      obtain ⟨here, below, later⟩ := houses
      rw [Forest.entries, List.map_cons, List.sum_cons, List.map_append, List.sum_append,
        ← Nat.add_assoc]
      exact .node here (inside below) (beside later)

end Houses

section Adopting

variable {arena : Arena Part} {parent : BoundId} (given : parent ≠ ⟨arena.next⟩) {index : Nat}
  {node : BoundNode Part}

include given

theorem entries_adoptAt (id : BoundId) : (arena.adoptAt parent index node).2.entries id =
    if id = ⟨arena.next⟩ then
      some { node, parent := if (arena.entries parent).isSome then some parent else none }
    else if id = parent then (arena.entries id).map fun entry => { entry with
      children := entry.children.insertIdx (min index entry.children.length) ⟨arena.next⟩ }
    else arena.entries id := by
  have stepped : (arena.adoptAt parent index node).2 = (arena.add
      { node, parent := if (arena.entries parent).isSome then some parent else none }).2.modify parent
        fun entry => { entry with
          children := entry.children.insertIdx (min index entry.children.length) ⟨arena.next⟩ } := rfl
  rw [stepped, entries_modify, entries_add, entries_add, if_neg given]
  by_cases here : id = parent
  · subst here
    rw [if_pos rfl, if_neg given, if_pos rfl]
  · rw [if_neg here, if_neg here]

theorem adoptAt_missing (absent : arena.entries parent = none) :
    arena.adoptAt parent index node = arena.insert node := by
  have entries : ∀ id, (arena.adoptAt parent index node).2.entries id =
      (arena.insert node).2.entries id := by
    intro id
    rw [entries_adoptAt given, insert, entries_add, absent]
    by_cases here : id = parent
    · rw [if_pos here, here, if_neg given, if_neg given, absent]
      rfl
    · rw [if_neg here]
      rfl
  refine Prod.ext rfl ?_
  rw [Arena.mk.injEq]
  exact ⟨funext entries, rfl⟩

end Adopting

end Arena

namespace BoundTree

variable {Part : Type} {tree : BoundTree Part} {id : BoundId}

/-- The table of a tree. -/
def arena (tree : BoundTree Part) : Arena Part where
  entries id := (tree.get? id).map fun node =>
    { node, parent := tree.parent? id, children := tree.children id }
  next := tree.next

@[simp] theorem next_arena (tree : BoundTree Part) : tree.arena.next = tree.next := rfl

/-- A tree with its table in its place. -/
def tabled (stage : Stage (BoundTree Part)) : Stage (Arena Part) :=
  { stage with store := stage.store.arena }

/-- A table is that of a tree if its entries are. -/
theorem eq_arena {arena : Arena Part} (entries : ∀ id, arena.entries id = tree.arena.entries id)
    (next : arena.next = tree.next) : arena = tree.arena := by
  cases arena
  simp only [BoundTree.arena, Arena.mk.injEq]
  exact ⟨funext entries, next⟩

theorem isSome_get? (tree : BoundTree Part) (id : BoundId) :
    (tree.get? id).isSome = tree.contains id := by
  rw [Bool.eq_iff_iff, get?, Forest.label?_isSome_iff, contains_iff]

theorem isSome_entries (tree : BoundTree Part) (id : BoundId) :
    (tree.arena.entries id).isSome = tree.contains id := by
  rw [← isSome_get?]
  exact Option.isSome_map ..

theorem entries_missing (missing : tree.contains id = false) : tree.arena.entries id = none := by
  rw [← Option.not_isSome_iff_eq_none, isSome_entries, missing]
  exact Bool.false_ne_true

theorem entries_of {found : Option (BoundNode Part)} {above : Option BoundId} {lower : List BoundId}
    (label : tree.get? id = found) (parent : tree.parent? id = above)
    (children : tree.children id = lower) : tree.arena.entries id =
      found.map fun node => { node, parent := above, children := lower } := by
  rw [← label, ← parent, ← children]
  rfl

theorem parent?_eq_none (absent : id ∉ tree.nodes.names) : tree.parent? id = none := by
  rw [parent?, Forest.parent?, Forest.ancestors_eq_nil absent]
  rfl

theorem children_eq_nil (absent : id ∉ tree.nodes.names) : tree.children id = [] :=
  Forest.childrenOf_eq_nil absent

theorem insert_arena (sound : tree.Sound) (node : BoundNode Part) :
    tree.arena.insert node = ((tree.insert node).1, (tree.insert node).2.arena) := by
  refine Prod.ext rfl (eq_arena (fun id => ?_) rfl)
  have label : (tree.insert node).2.get? id = if id = ⟨tree.next⟩ then some node else tree.get? id :=
    Forest.label?_beside sound.distinct sound.fresh id
  have parent : (tree.insert node).2.parent? id = tree.parent? id :=
    Forest.parent?_beside sound.distinct sound.fresh id
  have children : (tree.insert node).2.children id = tree.children id :=
    Forest.childrenOf_beside sound.distinct sound.fresh id
  rw [entries_of label parent children, Arena.insert, Arena.entries_add, next_arena]
  by_cases here : id = ⟨tree.next⟩
  · subst here
    rw [if_pos rfl, if_pos rfl, parent?_eq_none sound.fresh, children_eq_nil sound.fresh]
    rfl
  · rw [if_neg here, if_neg here]
    rfl

theorem adoptAt_arena (sound : tree.Sound) {parent : BoundId} (given : parent ≠ ⟨tree.next⟩)
    (index : Nat) (node : BoundNode Part) : tree.arena.adoptAt parent index node =
      ((tree.adoptAt parent index node).1, (tree.adoptAt parent index node).2.arena) := by
  cases present : tree.contains parent with
  | false =>
      have alone : tree.adoptAt parent index node = tree.insert node := by
        rw [adoptAt, present]
        rfl
      have absent : tree.arena.entries parent = none := entries_missing present
      rw [alone, ← insert_arena sound, Arena.adoptAt_missing given absent]
  | true =>
      have among : tree.adoptAt parent index node = (⟨tree.next⟩,
          { tree.graftAt parent index (.leaf ⟨tree.next⟩ node) with next := tree.next + 1 }) := by
        rw [adoptAt, present]
        rfl
      have member := contains_iff.1 present
      rw [among]
      refine Prod.ext rfl (eq_arena (fun id => ?_) rfl)
      have label : get? { tree.graftAt parent index (.leaf ⟨tree.next⟩ node) with
            next := tree.next + 1 } id = if id = ⟨tree.next⟩ then some node else tree.get? id :=
        Forest.label?_adopted sound.distinct sound.fresh member index id
      have above : parent? { tree.graftAt parent index (.leaf ⟨tree.next⟩ node) with
            next := tree.next + 1 } id = if id = ⟨tree.next⟩ then some parent else tree.parent? id :=
        Forest.parent?_adopted sound.distinct sound.fresh member index id
      have lower : children { tree.graftAt parent index (.leaf ⟨tree.next⟩ node) with
            next := tree.next + 1 } id = if id = parent then
              (tree.children id).insertIdx (min index (tree.children id).length) ⟨tree.next⟩
            else tree.children id :=
        Forest.childrenOf_adopted sound.distinct sound.fresh member index id
      rw [Arena.entries_adoptAt given, isSome_entries, present, if_pos rfl,
        entries_of label above lower]
      by_cases new : id = ⟨tree.next⟩
      · subst new
        have other : (⟨tree.next⟩ : BoundId) ≠ parent := Ne.symm given
        simp only [BoundTree.arena, if_true, if_neg other, children_eq_nil sound.fresh,
          Option.map_some]
      · rw [if_neg new, if_neg new]
        by_cases here : id = parent
        · subst here
          simp only [BoundTree.arena, if_true, if_neg given, Option.map_map, Function.comp_def]
        · simp only [BoundTree.arena, if_neg here, if_neg new]

theorem adopt_arena (sound : tree.Sound) {parent : BoundId} (given : parent ≠ ⟨tree.next⟩)
    (node : BoundNode Part) : tree.arena.adopt parent node =
      ((tree.adopt parent node).1, (tree.adopt parent node).2.arena) := by
  have last : ((tree.arena.entries parent).map fun entry => entry.children.length).getD 0 =
      (tree.children parent).length := by
    cases present : tree.contains parent with
    | false =>
        rw [entries_missing present, children_eq_nil (not_contains_iff.1 present)]
        rfl
    | true =>
        rw [← isSome_get?, Option.isSome_iff_exists] at present
        obtain ⟨found, label⟩ := present
        rw [entries_of label rfl rfl]
        rfl
  rw [Arena.adopt, last, adoptAt_arena sound given]
  rfl

theorem record_arena (tree : BoundTree Part) (owner : BoundId) (subscription : Subscription)
    (data : Data) : tree.arena.record owner subscription data =
      ((tree.record owner subscription data).1.arena, (tree.record owner subscription data).2) := by
  cases present : tree.contains owner with
  | false =>
      rw [record_missing present, Arena.record, entries_missing present]
  | true =>
      have noted : tree.record owner subscription data =
          ({ tree with nodes := tree.nodes.modify owner fun node =>
              { node with ledger := node.ledger ++ [subscription] } }, data) := by
        rw [record, present]
        rfl
      have held := present
      rw [← isSome_get?, Option.isSome_iff_exists] at held
      obtain ⟨found, label⟩ := held
      rw [noted, Arena.record, entries_of label rfl rfl, Option.map_some]
      refine Prod.ext (eq_arena (fun id => ?_) rfl) rfl
      dsimp only
      have mark : get? { tree with nodes := tree.nodes.modify owner fun node =>
            { node with ledger := node.ledger ++ [subscription] } } id =
          if id = owner then (tree.get? id).map fun node =>
            { node with ledger := node.ledger ++ [subscription] }
          else tree.get? id := Forest.label?_modify ..
      have above : parent? { tree with nodes := tree.nodes.modify owner fun node =>
            { node with ledger := node.ledger ++ [subscription] } } id = tree.parent? id :=
        congrArg List.head? (Forest.ancestors_modify ..)
      have lower : children { tree with nodes := tree.nodes.modify owner fun node =>
            { node with ledger := node.ledger ++ [subscription] } } id = tree.children id :=
        Forest.childrenOf_modify ..
      rw [entries_of mark above lower, Arena.entries_modify]
      by_cases here : id = owner
      · subst here
        rw [if_pos rfl, if_pos rfl, BoundTree.arena, Option.map_map, Option.map_map]
        rfl
      · rw [if_neg here, if_neg here]
        rfl

/-! ## Tearing down and counting over the table -/

/-- The table holds the trees that stand in a tree. -/
theorem houses_arena (sound : tree.Sound) {trees : BoundForest Part} {parent : Option BoundId}
    (parts : ∀ id node below, Forest.Has trees id node below → Forest.Has tree.nodes id node below)
    (above : ∀ id ∈ Forest.roots trees, tree.parent? id = parent) :
    tree.arena.Houses parent trees := by
  induction trees generalizing parent with
  | nil => trivial
  | cons id node children rest inside beside =>
      have has := parts id node children (Forest.has_of_root ..)
      have label : tree.get? id = some node := has.label?_eq sound.distinct
      have listed : tree.children id = Forest.roots children := has.childrenOf_eq sound.distinct
      refine ⟨entries_of label (above id List.mem_cons_self) listed, ?_, ?_⟩
      · refine inside (fun _ _ _ lower => parts _ _ _ (.inr (.inl lower))) fun lower root => ?_
        exact (sound.linked.parent id lower).2 (listed ▸ root)
      · refine beside (fun _ _ _ later => parts _ _ _ (.inr (.inr later))) fun lower root => ?_
        exact above lower (List.mem_cons_of_mem _ root)

theorem houses_subtree (sound : tree.Sound) (present : tree.contains id = true) :
    tree.arena.Houses (tree.parent? id) (tree.nodes.subtree id) := by
  obtain ⟨node, below, has⟩ := Forest.exists_has (contains_iff.1 present)
  refine houses_arena sound (fun _ _ _ inside => inside.of_subtree sound.distinct) ?_
  rw [Forest.roots_subtree sound.distinct has]
  intro other root
  rw [List.mem_singleton.1 root]

theorem weighs_iff (sound : tree.Sound) (present : tree.contains id = true)
    (weight : BoundNode Part → Nat) {total : Nat} : tree.arena.Weighs weight [id] total ↔
      total = ((tree.nodes.subtree id).entries.map fun entry => weight entry.2).sum := by
  obtain ⟨node, below, has⟩ := Forest.exists_has (contains_iff.1 present)
  have weighs := Arena.weighs_trees (houses_subtree sound present) weight
  rw [Forest.roots_subtree sound.distinct has] at weighs
  constructor
  · exact fun also => also.unique weighs
  · rintro rfl
    exact weighs

/-- The table counts the registrations and the nodes of the tree. -/
theorem counts_iff (sound : tree.Sound) (id : BoundId) {total : Nat} :
    (tree.arena.Weighs (fun node => node.ledger.length) [id] total ↔
      total = tree.subscriptionCount id) ∧
    (tree.arena.Weighs (fun _ => 1) [id] total ↔ total = tree.boundCount id) := by
  cases present : tree.contains id with
  | false =>
      have nothing : ∀ weight, tree.arena.Weighs weight [id] total ↔ total = 0 := by
        intro weight
        have weighs : tree.arena.Weighs weight [id] 0 :=
          .missing (entries_missing present) .done
        constructor
        · exact fun also => also.unique weighs
        · rintro rfl
          exact weighs
      obtain ⟨subscriptions, nodes⟩ := counts_missing present
      rw [subscriptions, nodes]
      exact ⟨nothing _, nothing _⟩
  | true =>
      rw [weighs_iff sound present, weighs_iff sound present]
      constructor
      · rw [subscriptionCount, BoundForest.ledger, List.length_flatMap]
      · rw [boundCount, ← Forest.length_names, Forest.names, List.length_map, List.map_const',
          List.sum_replicate_nat, Nat.mul_one]

theorem entries_teardown (sound : tree.Sound) (present : tree.contains id = true) (data : Data)
    (document : Document) (other : BoundId) :
    (tree.teardown id data document).1.arena.entries other =
      if other ∈ tree.walk id then none
      else if tree.parent? id = some other then (tree.arena.entries other).map fun entry =>
        { entry with children := entry.children.filter (· != id) }
      else tree.arena.entries other := by
  have torn := sound.torn present data document
  have inside : tree.Descends id other ↔ other ∈ tree.walk id := descends_iff sound present
  by_cases within : other ∈ tree.walk id
  · have gone : (tree.teardown id data document).1.contains other = false := by
      rw [← Bool.not_eq_true, torn.gone, inside]
      exact fun left => left.2 within
    rw [if_pos within, entries_missing gone]
  · have apart : ¬ tree.Descends id other := fun below => within (inside.1 below)
    have nodup : (tree.children other).Nodup := Forest.nodup_childrenOf sound.distinct other
    rw [if_neg within, entries_of (torn.nodes other apart) (torn.parents other apart)
      (torn.children other apart)]
    by_cases above : tree.parent? id = some other
    · rw [if_pos above, if_pos above, nodup.erase_eq_filter, BoundTree.arena, Option.map_map]
      rfl
    · rw [if_neg above, if_neg above]
      rfl

/-- A node is torn down in the table as it is in the tree. -/
theorem tearsDown_present {stage : Stage (BoundTree Part)} (sound : stage.store.Sound)
    (present : stage.store.contains id = true) :
    Arena.TearsDown (tabled stage) [id] (tabled (perform stage (.teardown id))) := by
  obtain ⟨node, below, has⟩ := Forest.exists_has (contains_iff.1 present)
  have tree := has.subtree_eq sound.distinct
  have walk : stage.store.walk id = id :: below.names := has.walk_eq sound.distinct
  have houses := houses_subtree sound present
  rw [tree] at houses
  obtain ⟨here, lower, -⟩ := houses
  obtain ⟨notBelow, distinct⟩ := List.nodup_cons.1 (has.nodup sound.distinct)
  have out : (stage.store.arena.remove id).entries id = none := by
    rw [Arena.entries_remove, if_pos rfl]
  have within : (stage.store.arena.remove id).Houses (some id) below :=
    lower.without (List.disjoint_singleton.2 notBelow)
  have first := @Arena.tearsDown_trees _ (some id) below
    { tabled stage with
      store := stage.store.arena.remove id
      data := stage.data.cancelAll node.ledger } within distinct
    (fun upper same => Option.some.inj same ▸ out)
  refine .node here first ?_
  have store : ((stage.store.arena.remove id).without below.names).unlink (stage.store.parent? id) id =
      (perform stage (.teardown id)).store.arena := by
    refine eq_arena (fun other => ?_) ?_
    · have left : ((stage.store.arena.remove id).without below.names).entries other =
          if other ∈ stage.store.walk id then none else stage.store.arena.entries other := by
        rw [walk]
        exact Arena.entries_without _ (id :: below.names) other
      rw [Arena.entries_unlink, left]
      refine .trans ?_ (entries_teardown sound present stage.data stage.document other).symm
      by_cases gone : other ∈ stage.store.walk id
      · rw [if_pos gone, if_pos gone]
        exact ite_self _
      · rw [if_neg gone, if_neg gone]
    · rw [Arena.next_unlink, Arena.next_without]
      rfl
  have data : (stage.data.cancelAll node.ledger).cancelAll (BoundForest.ledger below) =
      (perform stage (.teardown id)).data := by
    simp only [perform, teardown, tree]
    exact (Arena.cancelAll_cons stage.data id node below .nil).symm
  have document : (stage.document.removeAll (BoundForest.shown below)).removeAll node.dom.toList =
      (perform stage (.teardown id)).document := by
    simp only [perform, teardown, tree]
    exact (Arena.removeAll_cons stage.document id node below .nil).symm
  have last : tabled (perform stage (.teardown id)) =
      { store := ((stage.store.arena.remove id).without below.names).unlink (stage.store.parent? id) id
        data := (stage.data.cancelAll node.ledger).cancelAll (BoundForest.ledger below)
        document := (stage.document.removeAll (BoundForest.shown below)).removeAll
          node.dom.toList } := by
    rw [store, data, document]
    rfl
  rw [last]
  exact .done _

theorem tearsDown_iff {stage : Stage (BoundTree Part)} (sound : stage.store.Sound) (id : BoundId)
    {after : Stage (Arena Part)} : Arena.TearsDown (tabled stage) [id] after ↔
      after = tabled (perform stage (.teardown id)) := by
  have torn : Arena.TearsDown (tabled stage) [id] (tabled (perform stage (.teardown id))) := by
    cases present : stage.store.contains id with
    | false =>
        have same : perform stage (.teardown id) = stage := by
          rw [perform, teardown_missing present]
        rw [same]
        exact .missing (entries_missing present) (.done _)
    | true => exact tearsDown_present sound present
  constructor
  · exact fun also => also.unique torn
  · rintro rfl
    exact torn

/-! ## Runs of calls -/

/-- The call names no number that is about to be given out. -/
def Operation.Given (tree : BoundTree Part) : Operation Part → Prop
  | .adopt parent _ | .adoptAt parent _ _ => parent ≠ ⟨tree.next⟩
  | _ => True

/-- None of the calls names a number that is about to be given out. -/
def GivenAll (stage : Stage (BoundTree Part)) : List (Operation Part) → Prop
  | [] => True
  | operation :: later => operation.Given stage.store ∧ GivenAll (perform stage operation) later

theorem performs_iff {stage : Stage (BoundTree Part)} (sound : stage.store.Sound)
    {operation : Operation Part} (given : operation.Given stage.store)
    {after : Stage (Arena Part)} : Arena.Performs (tabled stage) operation after ↔
      after = tabled (perform stage operation) := by
  cases operation with
  | insert node =>
      rw [Arena.Performs, tabled, insert_arena sound]
      rfl
  | adopt parent node =>
      rw [Arena.Performs, tabled, adopt_arena sound given]
      rfl
  | adoptAt parent index node =>
      rw [Arena.Performs, tabled, adoptAt_arena sound given]
      rfl
  | record owner subscription =>
      rw [Arena.Performs, tabled, record_arena]
      rfl
  | teardown id => exact tearsDown_iff sound id
  | elsewhere data document => rfl

theorem performsAll_iff {stage : Stage (BoundTree Part)} (sound : stage.store.Sound)
    {operations : List (Operation Part)} (given : GivenAll stage operations)
    {after : Stage (Arena Part)} : Arena.PerformsAll (tabled stage) operations after ↔
      after = tabled (performAll stage operations) := by
  induction operations generalizing stage with
  | nil => rfl
  | cons operation later induction =>
      have further := induction (sound.perform operation) given.2
      simp only [Arena.PerformsAll, performs_iff sound given.1, exists_eq_left]
      exact further

theorem tabled_empty (data : Data) (document : Document) :
    tabled { store := ({} : BoundTree Part), data, document } = { store := {}, data, document } :=
  rfl

/-- After any calls under any numbers, parents and children agree, and tearing down, counting and noting
are exact.  If no call names a number before it is given out, the calls make of the table what they make
of the tree, and the table counts what the tree counts. -/
theorem performed_arena_linked_exact (operations : List (Operation Part)) (data : Data)
    (document : Document) :
    (performAll { store := {}, data, document } operations).store.Linked ∧
    (performAll { store := {}, data, document } operations).store.Exact ∧
    (GivenAll { store := {}, data, document } operations →
      (∀ after, Arena.PerformsAll { store := {}, data, document } operations after ↔
        after = tabled (performAll { store := {}, data, document } operations)) ∧
      ∀ after : Stage (Arena Part), Arena.PerformsAll { store := {}, data, document } operations after →
        ∀ id total,
          (after.store.Weighs (fun node => node.ledger.length) [id] total ↔ total =
            (performAll { store := {}, data, document } operations).store.subscriptionCount id) ∧
          (after.store.Weighs (fun _ => 1) [id] total ↔ total =
            (performAll { store := {}, data, document } operations).store.boundCount id)) := by
  have start : ({ store := {}, data, document } : Stage (BoundTree Part)).store.Sound := sound_empty
  have sound := start.performAll operations
  refine ⟨sound.linked, sound.exact, fun given => ?_⟩
  have performs := fun after => @performsAll_iff _ _ start _ given after
  rw [tabled_empty] at performs
  refine ⟨performs, fun after reached id total => ?_⟩
  rw [(performs after).1 reached]
  exact counts_iff sound id

/-- A node gets two children, the later one first; one goes with a registration in its ledger, and
its number is named again. -/
def someBranches : List (Operation BoundKind) :=
  [.insert { part := .group, scope := { model := ⟨0⟩, controller := ⟨0⟩ } },
    .adopt ⟨0⟩ { part := .watch, scope := { model := ⟨0⟩, controller := ⟨0⟩ } },
    .adoptAt ⟨0⟩ 0 { part := .text, dom := some ⟨0, 0⟩, scope := { model := ⟨0⟩, controller := ⟨0⟩ } },
    .record ⟨1⟩ { source := .collection ⟨0⟩, id := 0 },
    .record ⟨2⟩ { source := .collection ⟨0⟩, id := 1 },
    .teardown ⟨1⟩,
    .adopt ⟨1⟩ { part := .group, scope := { model := ⟨0⟩, controller := ⟨0⟩ } }]

example : (performAll { store := {}, data := {}, document := {} } someBranches).store.children ⟨0⟩ =
    [⟨2⟩] := by
  decide +kernel

theorem givenAll_someBranches :
    GivenAll { store := {}, data := {}, document := {} } someBranches := by
  refine ⟨trivial, ?_, ?_, trivial, trivial, trivial, ?_, trivial⟩
  · exact fun same => absurd same (by decide)
  · exact fun same => absurd same (by decide)
  · exact fun same => absurd same (by decide +kernel)

/-- One registration is left in the table, and all three nodes that are left are told apart. -/
theorem performed_arena_someBranches :
    GivenAll { store := {}, data := {}, document := {} } someBranches ∧
    Arena.PerformsAll { store := {}, data := {}, document := {} } someBranches
      (tabled (performAll { store := {}, data := {}, document := {} } someBranches)) ∧
    (performAll { store := {}, data := {}, document := {} } someBranches).store.arena.Weighs
      (fun node => node.ledger.length) [⟨0⟩] 1 ∧
    (performAll { store := {}, data := {}, document := {} } someBranches).store.Exact := by
  obtain ⟨-, exact, given⟩ := performed_arena_linked_exact someBranches {} {}
  obtain ⟨performs, counts⟩ := given givenAll_someBranches
  have reached := (performs _).2 rfl
  refine ⟨givenAll_someBranches, reached, ?_, exact⟩
  exact (counts _ reached ⟨0⟩ 1).1.2 (by decide +kernel)

end BoundTree

end LiveTemplate
