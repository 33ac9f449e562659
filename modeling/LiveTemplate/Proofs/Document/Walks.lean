import LiveTemplate.Document.Query
import LiveTemplate.Proofs.Document.Tables
import LiveTemplate.Proofs.Forest.Adoption

/-!
# Walks through a document

Over tables, a tree is walked with a stack of nodes yet to be visited, is left by climbing from parent
to parent, and is removed with a queue of nodes yet to be erased.  The three find the same tree: what
is visited, each node before its children, is what has the node above it, and it is what goes.
-/

namespace LiveTemplate

namespace Tables

/-- Change what a node holds. -/
def change (tables : Tables) (node : NodeId) (edit : NodeData → NodeData) : Tables :=
  { tables with data := Function.update tables.data node ((tables.data node).map edit) }

/-- The node on top of a stack is visited and its children are put on the stack, the first of them on
top.  A node that is not there is only taken from the stack. -/
inductive Walks (tables : Tables) : List NodeId → List NodeId → Prop where
  | done : Walks tables [] []
  | missing {node : NodeId} {stack visited : List NodeId} :
      tables.data node = none → Walks tables stack visited → Walks tables (node :: stack) visited
  | visit {node : NodeId} {stack visited : List NodeId} :
      tables.data node ≠ none → Walks tables ((tables.children node).getD [] ++ stack) visited →
        Walks tables (node :: stack) (node :: visited)

/-- The nodes met by going from a node to its parent as long as there is one. -/
inductive Climbs (tables : Tables) : NodeId → List NodeId → Prop where
  | top {node : NodeId} : tables.parent node = none → Climbs tables node []
  | up {node upper : NodeId} {above : List NodeId} :
      tables.parent node = some upper → Climbs tables upper above →
        Climbs tables node (upper :: above)

/-- Nodes are erased from the front of a queue, and their children are put to its end.  What one of
them held is remembered when it is erased. -/
inductive Drains (target : NodeId) :
    Tables → List NodeId → Option NodeData → Option NodeData → Tables → Prop where
  | done (tables : Tables) (held : Option NodeData) : Drains target tables [] held held tables
  | step {tables after : Tables} {node : NodeId} {queue : List NodeId}
      {held result : Option NodeData} :
      Drains target (tables.erase node) (queue ++ (tables.children node).getD [])
          (if node = target then tables.data node else held) result after →
        Drains target tables (node :: queue) held result after

/-- What removing a node returns, and what it leaves. -/
def Removes (tables : Tables) (node : NodeId) (result : Option NodeData) (after : Tables) : Prop :=
  if (tables.data node).isSome then Drains node (tables.detach node) [node] none result after
  else result = none ∧ after = tables

/-- The node is in no list of children. -/
def Unlisted (tables : Tables) (target : NodeId) : Prop :=
  ∀ upper, target ∉ (tables.children upper).getD []

section Ends

variable {tables after other : Tables} {node target : NodeId} {stack queue visited seen : List NodeId}
  {held result found : Option NodeData}

/-- A walk visits the same nodes whenever it is made. -/
theorem Walks.unique (walks : tables.Walks stack visited) (also : tables.Walks stack seen) :
    visited = seen := by
  induction walks generalizing seen with
  | done =>
      cases also
      rfl
  | missing absent _ induction =>
      cases also with
      | missing _ walks => exact induction walks
      | visit present _ => exact (present absent).elim
  | visit present _ induction =>
      cases also with
      | missing absent _ => exact (present absent).elim
      | visit _ walks => rw [induction walks]

theorem Climbs.unique (climbs : tables.Climbs node visited) (also : tables.Climbs node seen) :
    visited = seen := by
  induction climbs generalizing seen with
  | top none =>
      cases also with
      | top => rfl
      | up some _ => exact nomatch none.symm.trans some
  | up some _ induction =>
      cases also with
      | top none => exact nomatch none.symm.trans some
      | up again climbs =>
          cases some.symm.trans again
          rw [induction climbs]

theorem Drains.unique (drains : Drains target tables queue held result after)
    (also : Drains target tables queue held found other) : result = found ∧ after = other := by
  induction drains with
  | done =>
      cases also
      exact ⟨rfl, rfl⟩
  | step _ induction =>
      cases also with
      | step drains => exact induction drains

theorem Unlisted.erase (unlisted : tables.Unlisted target) (node : NodeId) :
    (tables.erase node).Unlisted target := by
  intro upper
  by_cases here : upper = node
  · have none : (tables.erase node).children upper = none := by
      rw [here]
      exact Function.update_self ..
    rw [none]
    exact List.not_mem_nil
  · have same : (tables.erase node).children upper = tables.children upper :=
      Function.update_of_ne here ..
    rw [same]
    exact unlisted upper

/-- If a node is nobody's child, nothing is remembered of it once it has left the queue. -/
theorem Clears.drains (clears : Clears tables queue after) (gone : target ∉ queue)
    (unlisted : tables.Unlisted target) (held : Option NodeData) :
    Drains target tables queue held held after := by
  induction clears with
  | done tables => exact .done tables held
  | @step tables after node queue _ induction =>
      rw [List.mem_cons, not_or] at gone
      refine .step ?_
      rw [if_neg (Ne.symm gone.1)]
      have absent : target ∉ queue ++ (tables.children node).getD [] :=
        List.mem_append.not.2 (not_or.2 ⟨gone.2, unlisted node⟩)
      exact induction absent (unlisted.erase node)

/-- From the roots of trees on a stack, the trees are walked one after the other. -/
theorem walks_trees {here : Forest NodeId NodeData} (lists : tables.Lists here)
    (present : ∀ name ∈ here.names, tables.data name ≠ none) (walks : tables.Walks stack visited) :
    tables.Walks (here.roots ++ stack) (here.names ++ visited) := by
  induction here generalizing stack visited with
  | nil => exact walks
  | cons name label children rest inside beside =>
      have listed := lists name label children (Forest.has_of_root ..)
      have later := beside (fun _ _ _ has => lists _ _ _ (.inr (.inr has)))
        (fun other member => present other (by simp [member])) walks
      have below := inside (fun _ _ _ has => lists _ _ _ (.inr (.inl has)))
        (fun other member => present other (by simp [member])) later
      rw [Forest.names_cons, List.cons_append, List.append_assoc]
      refine .visit (present name (by simp)) ?_
      rw [listed]
      exact below

end Ends

end Tables

namespace Document

variable {document : Document} {node : NodeId}

/-- The documents and tables that some history of calls leads to, of which none puts a node under
itself or below it.  In between, what nodes hold may be changed. -/
inductive Reached : Document → Tables → Prop where
  | empty : Reached {} {}
  | call {document : Document} {tables after : Tables} {operation : Operation} :
      Reached document tables → document.Admits operation → tables.Performs operation after →
        Reached (document.perform operation) after
  | change {document : Document} {tables : Tables} (node : NodeId) (edit : NodeData → NodeData) :
      Reached document tables → Reached (document.modify node edit) (tables.change node edit)

theorem modify_tables (document : Document) (node : NodeId) (edit : NodeData → NodeData) :
    document.tables.change node edit = (document.modify node edit).tables := by
  refine eq_tables (fun name => ?_) (fun name => ?_) (fun name => ?_) rfl
  · rw [data?_modify]
    by_cases here : name = node
    · rw [if_pos here, here]
      exact Function.update_self ..
    · rw [if_neg here]
      exact Function.update_of_ne here ..
  · have held := document.nodes.contains_modify node edit name
    have listed := document.nodes.childrenOf_modify node edit name
    rw [contains, children, modify, held, listed]
    rfl
  · rw [parent?, Forest.parent?, modify, Forest.ancestors_modify]
    rfl

/-- The tables say what the document says, in which nodes are told apart. -/
theorem Reached.tables {tables : Tables} (reached : Reached document tables) :
    document.Sound ∧ tables = document.tables := by
  induction reached with
  | empty => exact ⟨sound_empty, eq_tables (fun _ => rfl) (fun _ => rfl) (fun _ => rfl) rfl⟩
  | call _ admits performs induction =>
      obtain ⟨sound, rfl⟩ := induction
      exact ⟨sound.perform _, (performs_iff sound admits).1 performs⟩
  | change node edit _ induction =>
      obtain ⟨sound, rfl⟩ := induction
      exact ⟨sound.modify node edit, modify_tables ..⟩

/-! ## Walking, climbing and removing over tables -/

/-- The lists of children that the tables have are those of the document. -/
theorem Sound.lists (sound : document.Sound) : document.tables.Lists document.nodes := by
  intro name label below has
  have held : document.contains name = true := contains_iff.2 has.mem
  have listed : document.children name = below.roots := has.childrenOf_eq sound.distinct
  simp only [Document.tables, held, if_true, listed]

theorem contains_of_mem_walk (sound : document.Sound) {other : NodeId}
    (inside : other ∈ document.walk node) : document.contains other = true := by
  obtain ⟨_, _, has⟩ := Forest.exists_has inside
  exact contains_iff.2 (has.of_subtree sound.distinct).mem

theorem walks_iff (sound : document.Sound) (present : document.contains node = true)
    {visited : List NodeId} :
    document.tables.Walks [node] visited ↔ visited = document.walk node := by
  obtain ⟨label, below, has⟩ := Forest.exists_has (contains_iff.1 present)
  have tree := has.subtree_eq sound.distinct
  have walked : document.tables.Walks [node] (document.walk node) := by
    have walks := @Tables.walks_trees _ [] [] (document.nodes.subtree node)
      (fun _ _ _ inside => sound.lists _ _ _ (inside.of_subtree sound.distinct))
      (fun name member => by
        have held : (document.data? name).isSome = true := by
          rw [isSome_data?]
          exact contains_of_mem_walk sound member
        exact Option.isSome_iff_ne_none.1 held) .done
    rw [Forest.roots_subtree sound.distinct has, List.append_nil, List.append_nil] at walks
    exact walks
  constructor
  · exact fun also => also.unique walked
  · rintro rfl
    exact walked

theorem climbs_iff (sound : document.Sound) (node : NodeId) {above : List NodeId} :
    document.tables.Climbs node above ↔ above = document.ancestors node := by
  have climbed : document.tables.Climbs node (document.ancestors node) := by
    -- Each parent has one node less above it.
    obtain ⟨height, bound⟩ : ∃ height, (document.ancestors node).length = height := ⟨_, rfl⟩
    induction height generalizing node with
    | zero =>
        rw [List.length_eq_zero_iff.1 bound]
        refine .top ?_
        rw [List.length_eq_zero_iff] at bound
        exact congrArg List.head? bound
    | succ height induction =>
        cases parent : document.parent? node with
        | none =>
            rw [parent?, Forest.parent?, List.head?_eq_none_iff] at parent
            rw [ancestors, parent] at bound
            cases bound
        | some upper =>
            have above : document.ancestors node = upper :: document.ancestors upper :=
              Forest.ancestors_of_parent? sound.distinct parent
            rw [above, List.length_cons, Nat.succ_inj] at bound
            rw [above]
            exact .up parent (induction upper bound)
  constructor
  · exact fun also => also.unique climbed
  · rintro rfl
    exact climbed

theorem removes_iff (sound : document.Sound) (present : document.contains node = true)
    {result : Option NodeData} {after : Tables} :
    document.tables.Removes node result after ↔
      result = document.data? node ∧ after = (document.remove node).2.tables := by
  have held : (document.tables.data node).isSome = true := (isSome_data? ..).trans present
  have moved := moved_detach sound present
  have also := sound.detach node
  have drained : Tables.Drains node (document.detach node).tables [node] none (document.data? node)
      (document.remove node).2.tables := by
    -- The detached node is nobody's child, so it is in the queue only once.
    have unlisted : (document.detach node).tables.Unlisted node := by
      intro upper child
      have listed : node ∈ (document.detach node).children upper := by
        simp only [Document.tables] at child
        split at child
        · exact child
        · cases child
      have parent := (also.linked.parent upper node).2 listed
      rw [moved.parent] at parent
      cases parent
    cases clears_remove sound present with
    | step clears =>
        refine .step ?_
        have kept : (document.detach node).tables.data node = document.data? node :=
          moved.data node
        rw [if_pos rfl, kept]
        exact clears.drains (unlisted node) (unlisted.erase node) _
  rw [Tables.Removes, if_pos held, detach_tables sound]
  constructor
  · exact fun drains => drains.unique drained
  · rintro ⟨rfl, rfl⟩
    exact drained

/-! ## What a walk finds -/

/-- All that has changed is that a node is gone with everything below it. -/
structure Removed (before after : Document) (node : NodeId) : Prop where
  gone : ∀ other, after.contains other = true ↔
    before.contains other = true ∧ other ∉ before.walk node
  data : ∀ other, other ∉ before.walk node → after.data? other = before.data? other
  parent : ∀ other, other ∉ before.walk node → after.parent? other = before.parent? other
  children : ∀ other, other ∉ before.walk node → after.children other =
    if before.parent? node = some other then (before.children other).erase node
    else before.children other

/-- Walks, ancestors, texts, queries and removal are about the same tree. -/
structure Walked (document : Document) (node : NodeId) : Prop where
  preorder : document.walk node = node :: (document.children node).flatMap document.walk
  once : (document.walk node).Nodup
  live : ∀ other ∈ document.walk node, document.contains other = true
  within : ∀ other, other ∈ document.walk node ↔ other = node ∨ node ∈ document.ancestors other
  text : (document.textContent node).toList =
    (document.walk node).flatMap fun lower =>
      (((document.data? lower).bind NodeData.content?).getD "").toList
  query : ∀ holds : NodeData → Bool, document.queryAll node holds =
    (document.walk node).filter fun lower => (document.data? lower).any holds
  returned : (document.remove node).1 = document.data? node
  held : (document.data? node).isSome = true
  removed : Removed document (document.remove node).2 node

/-- Trees are walked one after the other, each from its root, and a root before its children. -/
theorem names_eq_flatMap {whole here : Forest NodeId NodeData}
    (parts : ∀ name label below, here.Has name label below →
      whole.subtree name = .cons name label below .nil) :
    here.names = here.roots.flatMap whole.walk := by
  induction here with
  | nil => rfl
  | cons name label children rest _ beside =>
      have first : whole.walk name = name :: children.names := by
        rw [Forest.walk, parts name label children (Forest.has_of_root ..)]
        simp
      have later := beside fun _ _ _ has => parts _ _ _ (.inr (.inr has))
      rw [Forest.names_cons, Forest.roots, List.flatMap_cons, first, ← later, List.cons_append]

theorem walk_preorder (sound : document.Sound) (present : document.contains node = true) :
    document.walk node = node :: (document.children node).flatMap document.walk := by
  obtain ⟨label, below, has⟩ := Forest.exists_has (contains_iff.1 present)
  have listed : document.children node = below.roots := has.childrenOf_eq sound.distinct
  have parts : below.names = below.roots.flatMap document.nodes.walk :=
    names_eq_flatMap fun _ _ _ inside => (has.trans inside).subtree_eq sound.distinct
  have whole : document.walk node = node :: below.names := has.walk_eq sound.distinct
  rw [whole, listed, parts]
  rfl

theorem mem_walk (sound : document.Sound) (present : document.contains node = true)
    (other : NodeId) : other ∈ document.walk node ↔ other = node ∨ node ∈ document.ancestors other :=
  Forest.mem_walk_of_mem sound.distinct (contains_iff.1 present)

/-- The entries of a tree hold what the document says of their nodes. -/
theorem Sound.data?_of_subtree (sound : document.Sound) {entry : NodeId × NodeData}
    (member : entry ∈ (document.nodes.subtree node).entries) :
    document.data? entry.1 = some entry.2 := by
  obtain ⟨_, inside⟩ := Forest.has_iff_mem_entries.2 member
  exact (inside.of_subtree sound.distinct).label?_eq sound.distinct

theorem intercalate_eq_flatten (words : List (List Char)) :
    List.intercalate [] words = words.flatten := by
  induction words with
  | nil => rfl
  | cons first later induction =>
      cases later with
      | nil => simp
      | cons second others =>
          rw [List.intercalate_cons_cons, induction, List.append_nil, ← List.flatten_cons]

theorem textContent_walk (sound : document.Sound) (node : NodeId) :
    (document.textContent node).toList = (document.walk node).flatMap fun lower =>
      (((document.data? lower).bind NodeData.content?).getD "").toList := by
  have joined : (document.textContent node).toList =
      (document.nodes.subtree node).entries.flatMap fun entry =>
        (entry.2.content?.getD "").toList := by
    rw [textContent, String.toList_intercalate, String.toList_empty, intercalate_eq_flatten]
    generalize (document.nodes.subtree node).entries = entries
    induction entries with
    | nil => rfl
    | cons entry later induction =>
        cases content : entry.2.content? with
        | none => simpa [content] using induction
        | some text => simpa [content] using induction
  rw [joined, walk, Forest.walk, Forest.names, List.flatMap_map]
  refine List.flatMap_congr fun entry member => ?_
  rw [sound.data?_of_subtree member, Option.bind_some]

theorem queryAll_walk (sound : document.Sound) (node : NodeId) (holds : NodeData → Bool) :
    document.queryAll node holds =
      (document.walk node).filter fun lower => (document.data? lower).any holds := by
  rw [queryAll, walk, Forest.walk, Forest.names, List.filter_map]
  refine congrArg (List.map Prod.fst) (List.filter_congr fun entry member => ?_)
  rw [Function.comp_apply, sound.data?_of_subtree member, Option.any_some]

theorem removed_remove (sound : document.Sound) (present : document.contains node = true) :
    Removed document (document.remove node).2 node := by
  obtain ⟨label, below, has⟩ := Forest.exists_has (contains_iff.1 present)
  refine ⟨fun other => ?_, fun other outside => ?_, fun other outside => ?_, fun other outside => ?_⟩
  · rw [contains_iff, contains_iff]
    exact Forest.mem_names_prune sound.distinct has
  · exact Forest.label?_prune sound.distinct has outside
  · exact Forest.parent?_prune sound.distinct has outside
  · have listed : (document.remove node).2.children other = (document.children other).erase node :=
      Forest.childrenOf_prune sound.distinct has outside
    rw [listed]
    split
    · rfl
    · rename_i elsewhere
      exact erase_children sound elsewhere

theorem Sound.walked (sound : document.Sound) (present : document.contains node = true) :
    Walked document node where
  preorder := walk_preorder sound present
  once := by
    obtain ⟨label, below, has⟩ := Forest.exists_has (contains_iff.1 present)
    rw [walk, has.walk_eq sound.distinct]
    exact has.nodup sound.distinct
  live _ := contains_of_mem_walk sound
  within := mem_walk sound present
  text := textContent_walk sound node
  query := queryAll_walk sound node
  returned := rfl
  held := (isSome_data? ..).trans present
  removed := removed_remove sound present

/-- After any history of calls of which none puts a node under itself or below it, walking a node's
tree ends with the walk of the document, climbing from any node ends with the nodes above it, and
removing the node returns its data and leaves the document without the nodes of the walk. -/
theorem walks_agree {tables : Tables} (reached : Reached document tables)
    (present : document.contains node = true) :
    tables = document.tables ∧
    (∀ visited, tables.Walks [node] visited ↔ visited = document.walk node) ∧
    (∀ other above, tables.Climbs other above ↔ above = document.ancestors other) ∧
    (∀ result after, tables.Removes node result after ↔
      result = document.data? node ∧ after = (document.remove node).2.tables) ∧
    Walked document node := by
  obtain ⟨sound, rfl⟩ := reached.tables
  exact ⟨rfl, fun _ => walks_iff sound present, fun other _ => climbs_iff sound other,
    fun _ _ => removes_iff sound present, sound.walked present⟩

theorem Reached.performAll {tables : Tables} (reached : Reached document tables)
    {operations : List Operation} (admits : document.AdmitsAll operations) :
    Reached (document.performAll operations) (document.performAll operations).tables := by
  induction operations generalizing document tables with
  | nil =>
      obtain ⟨_, rfl⟩ := reached.tables
      exact reached
  | cons operation later induction =>
      obtain ⟨sound, rfl⟩ := reached.tables
      exact induction (reached.call admits.1 ((performs_iff sound admits.1).2 rfl)) admits.2

/-- Two branches are built, a leaf goes and another takes its place, and a leaf moves behind it. -/
def twoBranches : List Operation :=
  [.insert (.element "main"), .insertChild ⟨0, 0⟩ (.element "nav"),
    .insertChild ⟨0, 0⟩ (.element "p"), .insertChild ⟨1, 0⟩ (.element "button"),
    .insertChild ⟨1, 0⟩ (.text "label"), .remove ⟨3, 0⟩, .insertChild ⟨2, 0⟩ (.text "!"),
    .insertAfter ⟨3, 1⟩ ⟨4, 0⟩]

/-- The two branches, one of them marked. -/
def marked : Document :=
  (performAll {} twoBranches).modify ⟨2, 0⟩ (·.setAttribute "class" (some "wide"))

theorem reached_marked : Reached marked marked.tables := by
  have admits : AdmitsAll {} twoBranches := by decide +kernel
  have reached := (Reached.empty.performAll admits).change ⟨2, 0⟩
    (·.setAttribute "class" (some "wide"))
  rwa [modify_tables] at reached

example : marked.walk ⟨0, 0⟩ = [⟨0, 0⟩, ⟨1, 0⟩, ⟨2, 0⟩, ⟨3, 1⟩, ⟨4, 0⟩] := by
  decide +kernel

/-- The marked branch is walked, and goes with the two texts below it. -/
theorem walks_agree_marked : Reached marked marked.tables ∧ marked.contains ⟨2, 0⟩ = true ∧
    marked.tables.Walks [⟨2, 0⟩] [⟨2, 0⟩, ⟨3, 1⟩, ⟨4, 0⟩] ∧
    marked.tables.Climbs ⟨4, 0⟩ [⟨2, 0⟩, ⟨0, 0⟩] ∧
    marked.tables.Removes ⟨2, 0⟩ (marked.data? ⟨2, 0⟩) (marked.remove ⟨2, 0⟩).2.tables ∧
    Walked marked ⟨2, 0⟩ := by
  have present : marked.contains ⟨2, 0⟩ = true := by decide +kernel
  obtain ⟨-, walks, climbs, removes, walked⟩ := walks_agree reached_marked present
  exact ⟨reached_marked, present, (walks _).2 (by decide +kernel), (climbs _ _).2 (by decide +kernel),
    (removes _ _).2 ⟨rfl, rfl⟩, walked⟩

end Document

end LiveTemplate
