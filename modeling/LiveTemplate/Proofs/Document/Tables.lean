import LiveTemplate.Proofs.Document.Edits
import Mathlib.Logic.Function.Basic

/-!
# A document in tables

The links of a document can be kept in three tables: what each node holds, the list of its children,
and its parent.  Each call then writes one table after the other.  As long as no node is put under
itself or below itself, the tables say what the document says.
-/

namespace LiveTemplate

/-- What nodes hold, their children and their parents, each in a table of its own. -/
structure Tables where
  data : NodeId → Option NodeData := fun _ => none
  children : NodeId → Option (List NodeId) := fun _ => none
  parent : NodeId → Option NodeId := fun _ => none
  places : Places := .empty

namespace Tables

/-- A node that just holds something. -/
def insert (tables : Tables) (data : NodeData) : NodeId × Tables :=
  let node := tables.places.next
  (node,
    { tables with
      data := Function.update tables.data node (some data)
      children := Function.update tables.children node (some [])
      places := tables.places.take })

/-- Change the list of a node's children, if there is one. -/
def changeChildren (tables : Tables) (parent : NodeId) (change : List NodeId → List NodeId) :
    Tables :=
  match tables.children parent with
  | none => tables
  | some siblings =>
    { tables with children := Function.update tables.children parent (some (change siblings)) }

/-- The parent's entry goes first, then the entry in the parent's list. -/
def detach (tables : Tables) (node : NodeId) : Tables :=
  match tables.parent node with
  | none => tables
  | some parent =>
    { tables with parent := Function.update tables.parent node none }.changeChildren parent
      (·.filter (· != node))

/-- The parent is entered first, then the node into the parent's list. -/
def link (tables : Tables) (parent node : NodeId) (place : List NodeId → List NodeId) : Tables :=
  { tables with parent := Function.update tables.parent node (some parent) }.changeChildren parent
    place

/-- Whether both nodes are there. -/
def bothHeld (tables : Tables) (first second : NodeId) : Bool :=
  (tables.data first).isSome && (tables.data second).isSome

def appendChild (tables : Tables) (parent node : NodeId) : Tables :=
  if tables.bothHeld parent node then (tables.detach node).link parent node (· ++ [node]) else tables

/-- The position after a node in a list, or at its end. -/
def positionAfter (reference : NodeId) (siblings : List NodeId) : Nat :=
  ((siblings.idxOf? reference).map (· + 1)).getD siblings.length

def insertAfter (tables : Tables) (reference node : NodeId) : Tables :=
  if tables.bothHeld reference node then
    match (tables.detach node).parent reference with
    | none => tables.detach node
    | some parent => (tables.detach node).link parent node fun siblings =>
        siblings.insertIdx (positionAfter reference siblings) node
  else tables

/-- No table has an entry of the node any more. -/
def erase (tables : Tables) (node : NodeId) : Tables where
  data := Function.update tables.data node none
  children := Function.update tables.children node none
  parent := Function.update tables.parent node none
  places := tables.places.vacate node

/-- Nodes are erased from the front of a queue, and their children are put to its end. -/
inductive Clears : Tables → List NodeId → Tables → Prop where
  | done (tables : Tables) : Clears tables [] tables
  | step {tables after : Tables} {node : NodeId} {queue : List NodeId} :
      Clears (tables.erase node) (queue ++ (tables.children node).getD []) after →
        Clears tables (node :: queue) after

/-- What a call makes of the tables. -/
def Performs (tables : Tables) (operation : Document.Operation) (after : Tables) : Prop :=
  match operation with
  | .insert data => after = (tables.insert data).2
  | .insertChild parent data =>
    after = (tables.insert data).2.appendChild parent (tables.insert data).1
  | .appendChild parent node => after = tables.appendChild parent node
  | .insertAfter reference node => after = tables.insertAfter reference node
  | .detach node => after = tables.detach node
  | .remove node =>
    if (tables.data node).isSome then Clears (tables.detach node) [node] after else after = tables

/-- What calls make of the tables, one after the other. -/
def PerformsAll (tables : Tables) (operations : List Document.Operation) (after : Tables) : Prop :=
  match operations with
  | [] => after = tables
  | operation :: later =>
    ∃ between, tables.Performs operation between ∧ between.PerformsAll later after

theorem Clears.unique {tables after other : Tables} {queue : List NodeId}
    (clears : Clears tables queue after) (also : Clears tables queue other) : after = other := by
  induction clears with
  | done =>
      cases also
      rfl
  | step _ induction =>
      cases also with
      | step clears => exact induction clears

end Tables

namespace Document

/-- The tables of a document. -/
def tables (document : Document) : Tables where
  data := document.data?
  children node := if document.contains node then some (document.children node) else none
  parent := document.parent?
  places := document.places

section Steps

variable {document : Document} {node parent reference : NodeId}

theorem isSome_data? (document : Document) (node : NodeId) :
    (document.data? node).isSome = document.contains node := by
  rw [Bool.eq_iff_iff, data?, Forest.label?_isSome_iff, contains_iff]

theorem bothHeld_tables (document : Document) (first second : NodeId) :
    document.tables.bothHeld first second = (document.contains first && document.contains second) := by
  rw [Tables.bothHeld, tables, isSome_data?, isSome_data?]

/-- Tables are those of a document if their entries are. -/
theorem eq_tables {tables : Tables} (data : ∀ node, tables.data node = document.data? node)
    (children : ∀ node, tables.children node =
      if document.contains node then some (document.children node) else none)
    (parent : ∀ node, tables.parent node = document.parent? node)
    (places : tables.places = document.places) : tables = document.tables := by
  cases tables
  simp only [Document.tables, Tables.mk.injEq]
  exact ⟨funext data, funext children, funext parent, places⟩

theorem Moved.contains {after : Document} {other : Option NodeId}
    (moved : Moved document after node other) (name : NodeId) :
    after.contains name = document.contains name := by
  rw [← isSome_data?, ← isSome_data?, moved.data]

theorem insert_tables (sound : document.Sound) (data : NodeData) :
    document.tables.insert data = ((document.insert data).1, (document.insert data).2.tables) := by
  have created : Created document (document.insert data).2 document.places.next data :=
    created_insert sound data
  have held : (document.insert data).2.contains document.places.next = true := by
    rw [← isSome_data?, created.data]
    rfl
  refine Prod.ext rfl (eq_tables (fun name => ?_) (fun name => ?_) (fun name => ?_) rfl)
  · by_cases here : name = document.places.next
    · rw [here, created.data]
      exact Function.update_self ..
    · rw [(created.others name here).1]
      exact Function.update_of_ne here ..
  · by_cases here : name = document.places.next
    · rw [here, held, if_pos rfl, created.children]
      exact Function.update_self ..
    · obtain ⟨data, -, children⟩ := created.others name here
      rw [← isSome_data?, data, children, isSome_data?]
      exact Function.update_of_ne here ..
  · by_cases here : name = document.places.next
    · have parentless : document.parent? document.places.next = none := by
        have absent := Forest.contains_eq_false_iff.1 created.fresh
        rw [parent?, Forest.parent?, Forest.ancestors_eq_nil absent]
        rfl
      rw [here, created.parent]
      exact parentless
    · exact (created.others name here).2.1.symm

/-- In the lists in which a moved node is not put, it is only missing. -/
theorem Moved.children_eq {after : Document} {other : Option NodeId} (also : after.Sound)
    (moved : Moved document after node other) {upper : NodeId} (elsewhere : other ≠ some upper) :
    after.children upper = (document.children upper).erase node := by
  have absent : node ∉ after.children upper := fun member => by
    have parent := (also.linked.parent upper node).2 member
    rw [moved.parent] at parent
    exact elsewhere parent
  rw [← moved.children upper, List.erase_of_not_mem absent]

theorem Moved.children_detached {after : Document} (also : after.Sound)
    (moved : Moved document after node none) {upper : NodeId} :
    after.children upper = (document.children upper).erase node :=
  moved.children_eq also (Option.some_ne_none upper).symm

theorem erase_children (sound : document.Sound) {upper : NodeId}
    (elsewhere : document.parent? node ≠ some upper) :
    (document.children upper).erase node = document.children upper :=
  List.erase_of_not_mem fun member => elsewhere ((sound.linked.parent upper node).2 member)

/-- All moves of a node to no parent say the same. -/
theorem Moved.tables_eq {first second : Document} (sound : first.Sound) (also : second.Sound)
    (moved : Moved document first node none) (again : Moved document second node none)
    (places : first.places = second.places) : first.tables = second.tables := by
  refine eq_tables (fun name => ?_) (fun name => ?_) (fun name => ?_) places
  · exact (moved.data name).trans (again.data name).symm
  · have lists : first.children name = second.children name :=
      (moved.children_detached sound).trans (again.children_detached also).symm
    rw [again.contains, ← moved.contains, ← lists]
    rfl
  · by_cases here : name = node
    · rw [here, again.parent]
      exact moved.parent
    · exact (moved.others name here).trans (again.others name here).symm

theorem detach_tables (sound : document.Sound) (node : NodeId) :
    document.tables.detach node = (document.detach node).tables := by
  cases present : document.contains node with
  | false =>
      have parentless : document.parent? node = none := by
        rw [parent?, Forest.parent?,
          Forest.ancestors_eq_nil (Forest.contains_eq_false_iff.1 present)]
        rfl
      rw [detach_missing present, Tables.detach]
      simp only [Document.tables, parentless]
  | true =>
      have moved := moved_detach sound present
      have also := sound.detach node
      have kept : ∀ name, (document.detach node).contains name = document.contains name :=
        moved.contains
      cases parent : document.parent? node with
      | none =>
          have same : document.tables.detach node = document.tables := by
            rw [Tables.detach]
            simp only [Document.tables, parent]
          rw [same]
          refine eq_tables (fun name => (moved.data name).symm) (fun name => ?_) (fun name => ?_) rfl
          · rw [kept, moved.children_detached also, erase_children sound (by rw [parent]; rintro ⟨⟩)]
            rfl
          · by_cases here : name = node
            · rw [here, moved.parent]
              exact parent
            · exact (moved.others name here).symm
      | some upper =>
          have listed := (sound.linked.parent upper node).1 parent
          have above := (sound.linked.live upper node listed).1
          have unlinked : document.tables.detach node =
              { document.tables with
                parent := Function.update document.parent? node none
                children := Function.update document.tables.children upper
                  (some ((document.children upper).filter (· != node))) } := by
            rw [Tables.detach]
            simp only [Document.tables, parent, Tables.changeChildren, above, if_true]
          have nodup : (document.children upper).Nodup :=
            Forest.nodup_childrenOf sound.distinct upper
          rw [unlinked]
          refine eq_tables (fun name => (moved.data name).symm) (fun name => ?_) (fun name => ?_) rfl
          · rw [kept, moved.children_detached also]
            by_cases here : name = upper
            · rw [here, above, if_pos rfl, nodup.erase_eq_filter]
              exact Function.update_self ..
            · rw [erase_children sound fun same => here (Option.some.inj (same.symm.trans parent))]
              exact Function.update_of_ne here ..
          · by_cases here : name = node
            · rw [here, moved.parent]
              exact Function.update_self ..
            · rw [moved.others name here]
              exact Function.update_of_ne here ..

/-- A node is moved by linking it after it was detached. -/
theorem link_tables {after : Document} (sound : document.Sound) (also : after.Sound)
    (present : document.contains node = true) (above : document.contains parent = true)
    (moved : Moved document after node (some parent)) (places : after.places = document.places)
    {place : List NodeId → List NodeId}
    (list : after.children parent = place ((document.children parent).erase node)) :
    (document.tables.detach node).link parent node place = after.tables := by
  have out := moved_detach sound present
  have outside := sound.detach node
  have still : (document.detach node).contains parent = true := by rw [out.contains, above]
  have linked : (document.detach node).tables.link parent node place =
      { (document.detach node).tables with
        parent := Function.update (document.detach node).parent? node (some parent)
        children := Function.update (document.detach node).tables.children parent
          (some (place ((document.detach node).children parent))) } := by
    simp only [Tables.link, Document.tables, Tables.changeChildren, still, if_true]
  rw [detach_tables sound, linked]
  refine eq_tables (fun name => ?_) (fun name => ?_) (fun name => ?_) places.symm
  · exact (out.data name).trans (moved.data name).symm
  · rw [moved.contains]
    by_cases here : name = parent
    · rw [here, above, if_pos rfl, list, out.children_detached outside]
      exact Function.update_self ..
    · rw [moved.children_eq also fun same => here (Option.some.inj same).symm,
        ← out.children_detached outside, ← out.contains]
      exact Function.update_of_ne here ..
  · by_cases here : name = node
    · rw [here, moved.parent]
      exact Function.update_self ..
    · rw [moved.others name here, ← out.others name here]
      exact Function.update_of_ne here ..

theorem appendChild_tables (sound : document.Sound)
    (admits : document.Admits (.appendChild parent node)) :
    document.tables.appendChild parent node = (document.appendChild parent node).tables := by
  rw [Tables.appendChild, bothHeld_tables]
  cases missing : document.contains parent && document.contains node with
  | false =>
      rw [appendChild_missing missing]
      rfl
  | true =>
      obtain ⟨above, present⟩ := Bool.and_eq_true_iff.1 missing
      have outside := admits.appendChild sound above present
      obtain ⟨also, moved, list⟩ := moved_appendChild sound above present outside
      rw [if_pos rfl]
      exact link_tables sound also present above moved
        (by rw [appendChild_eq above present outside]) list

theorem positionAfter_cons {first : NodeId} (other : first ≠ reference) (later : List NodeId) :
    Tables.positionAfter reference (first :: later) = Tables.positionAfter reference later + 1 := by
  have differs : ¬ (first == reference) = true := by simpa using other
  rw [Tables.positionAfter, Tables.positionAfter, List.idxOf?_cons, if_neg differs]
  cases later.idxOf? reference <;> rfl

theorem insertIdx_positionAfter {before : List NodeId} (absent : reference ∉ before)
    (node : NodeId) (after : List NodeId) :
    (before ++ reference :: after).insertIdx
        (Tables.positionAfter reference (before ++ reference :: after)) node =
      before ++ reference :: node :: after := by
  induction before with
  | nil =>
      have position : Tables.positionAfter reference (reference :: after) = 1 := by
        simp [Tables.positionAfter, List.idxOf?_cons]
      rw [List.nil_append, position]
      rfl
  | cons first later induction =>
      obtain ⟨other, apart⟩ := List.ne_and_not_mem_of_not_mem_cons absent
      rw [List.cons_append, positionAfter_cons (Ne.symm other), List.insertIdx_succ_cons,
        induction apart, List.cons_append]

theorem insertAfter_tables (sound : document.Sound)
    (admits : document.Admits (.insertAfter reference node)) :
    document.tables.insertAfter reference node = (document.insertAfter reference node).tables := by
  rw [Tables.insertAfter, bothHeld_tables]
  cases missing : document.contains reference && document.contains node with
  | false =>
      rw [insertAfter_missing missing]
      rfl
  | true =>
      obtain ⟨beside, present⟩ := Bool.and_eq_true_iff.1 missing
      have out := moved_detach sound present
      rw [if_pos rfl, detach_tables sound]
      by_cases same : reference = node
      · have parentless : (document.detach node).tables.parent reference = none := by
          rw [same]
          exact out.parent
        rw [parentless, insertAfter, missing, if_pos rfl, if_pos same]
      · have outside := admits.insertAfter sound beside present same
        obtain ⟨also, moved, list⟩ := moved_insertAfter sound beside present same outside
        have places : (document.insertAfter reference node).places = document.places := by
          rw [insertAfter_eq beside present same outside]
        have kept : (document.detach node).tables.parent reference = document.parent? reference :=
          out.others reference same
        rw [kept]
        cases parent : document.parent? reference with
        | none =>
            rw [parent] at moved
            exact out.tables_eq (sound.detach node) also moved places.symm
        | some upper =>
            rw [parent] at moved
            obtain ⟨before, after, former, later⟩ := list upper parent
            have above := (sound.linked.live upper reference
              ((sound.linked.parent upper reference).1 parent)).1
            have nodup : ((document.children upper).erase node).Nodup :=
              (Forest.nodup_childrenOf sound.distinct upper).erase node
            have absent : reference ∉ before := fun early => by
              rw [former] at nodup
              exact (List.nodup_append'.1 nodup).2.2 early List.mem_cons_self
            dsimp only
            rw [← detach_tables sound]
            refine link_tables sound also present above moved places ?_
            rw [later, former, insertIdx_positionAfter absent]

end Steps

end Document

/-! ## Clearing a tree -/

namespace Forest

variable {Name Label : Type}

theorem besideLevels_nil (levels : List (List Name)) : besideLevels levels [] = levels := by
  cases levels <;> rfl

theorem besideLevels_assoc (first second third : List (List Name)) :
    besideLevels (besideLevels first second) third =
      besideLevels first (besideLevels second third) := by
  induction first generalizing second third with
  | nil => rfl
  | cons level below induction =>
      cases second with
      | nil => rfl
      | cons other later =>
          cases third with
          | nil => rfl
          | cons last beyond => simp [besideLevels, induction, List.append_assoc]

theorem mem_besideLevels {name : Name} (first second : List (List Name)) :
    name ∈ (besideLevels first second).flatten ↔ name ∈ first.flatten ∨ name ∈ second.flatten := by
  induction first generalizing second with
  | nil => simp [besideLevels]
  | cons level below induction =>
      cases second with
      | nil => simp [besideLevels]
      | cons other later =>
          simp only [besideLevels, List.flatten_cons, List.mem_append, induction]
          tauto

theorem mem_levels {name : Name} (forest : Forest Name Label) :
    name ∈ forest.levels.flatten ↔ name ∈ forest.names := by
  induction forest with
  | nil => rfl
  | cons first mark children rest inside beside =>
      simp only [levels, mem_besideLevels, beside, List.flatten_cons, List.mem_append, inside,
        names_cons, List.mem_cons, List.not_mem_nil, or_false, or_assoc]

theorem levels_append (first second : Forest Name Label) :
    (first ++ second).levels = besideLevels first.levels second.levels := by
  induction first with
  | nil => rfl
  | cons name label children rest _ beside =>
      rw [cons_append, levels, beside, levels, besideLevels_assoc]

/-- The nodes of trees, and of trees that stand one level deeper, level by level. -/
def queued (here deeper : Forest Name Label) : List Name :=
  here.levels.headD [] ++ (besideLevels deeper.levels here.levels.tail).flatten

theorem queued_nil_left (deeper : Forest Name Label) : queued nil deeper = deeper.levels.flatten :=
  congrArg List.flatten (besideLevels_nil deeper.levels)

theorem queued_nil_right (here : Forest Name Label) : queued here nil = here.levels.flatten := by
  rw [queued]
  cases here.levels <;> rfl

/-- After the first node come the others of its level, and its children after those that are as deep. -/
theorem queued_cons (name : Name) (label : Label) (children rest deeper : Forest Name Label) :
    queued (cons name label children rest) deeper = name :: queued rest (deeper ++ children) := by
  have level : (cons name label children rest).levels =
      (name :: rest.levels.headD []) :: besideLevels children.levels rest.levels.tail := by
    rw [levels]
    cases rest.levels with
    | nil => rw [List.tail_nil, besideLevels_nil, besideLevels_nil, List.headD_nil]
    | cons first below => rfl
  rw [queued, queued, level, List.headD_cons, List.tail_cons, levels_append, besideLevels_assoc]
  rfl

end Forest

namespace Tables

/-- The tables have the lists of children of a forest. -/
def Lists (tables : Tables) (forest : Forest NodeId NodeData) : Prop :=
  ∀ name label below, forest.Has name label below → tables.children name = some below.roots

/-- Nodes erased one after the other. -/
def eraseAll (tables : Tables) (nodes : List NodeId) : Tables :=
  nodes.foldl erase tables

/-- The first tree of a queue leaves it, and the trees below go to the end. -/
theorem clears_cons {name : NodeId} {label : NodeData} {children rest deeper : Forest NodeId NodeData}
    {tables : Tables} (lists : tables.Lists (.cons name label children rest ++ deeper))
    (absent : name ∉ (rest ++ (deeper ++ children)).names)
    (further : (tables.erase name).Lists (rest ++ (deeper ++ children)) →
      Clears (tables.erase name) (rest.roots ++ (deeper ++ children).roots)
        ((tables.erase name).eraseAll (Forest.queued rest (deeper ++ children)))) :
    Clears tables (name :: (rest.roots ++ deeper.roots))
      (tables.eraseAll (Forest.queued (.cons name label children rest) deeper)) := by
  have found := lists name label children (Forest.has_append.2 (.inl (Forest.has_of_root ..)))
  have kept : (tables.erase name).Lists (rest ++ (deeper ++ children)) := by
    intro other mark below has
    have differs : other ≠ name := fun same => absent (same ▸ has.mem)
    have listed : tables.children other = some below.roots := by
      refine lists other mark below ?_
      simp only [Forest.has_append, Forest.cons_append, Forest.Has] at has ⊢
      tauto
    exact (Function.update_of_ne differs ..).trans listed
  rw [Forest.queued_cons]
  refine .step ?_
  rw [found, Option.getD_some, List.append_assoc, ← Forest.roots_append]
  exact further kept

/-- From a queue of trees and of trees one level deeper, all their nodes are erased level by level. -/
theorem clears_queued {here deeper : Forest NodeId NodeData} {tables : Tables}
    (lists : tables.Lists (here ++ deeper)) (distinct : (here ++ deeper).names.Nodup) :
    Clears tables (here.roots ++ deeper.roots) (tables.eraseAll (Forest.queued here deeper)) := by
  -- The induction is on the number of nodes: each step takes one from the queue.
  obtain ⟨count, bound⟩ : ∃ count, (here ++ deeper).names.length = count := ⟨_, rfl⟩
  induction count generalizing here deeper tables with
  | zero =>
      have empty := List.length_eq_zero_iff.1 bound
      cases here with
      | nil =>
          cases deeper with
          | nil => exact .done tables
          | cons => simp at empty
      | cons => simp at empty
  | succ count induction =>
      -- The first tree gives up its root, and its children go to the end of the queue.
      have first : ∀ {name : NodeId} {label : NodeData}
          {children rest deeper : Forest NodeId NodeData},
          tables.Lists (.cons name label children rest ++ deeper) →
          (Forest.cons name label children rest ++ deeper).names.Nodup →
          (Forest.cons name label children rest ++ deeper).names.length = count + 1 →
          Clears tables (name :: (rest.roots ++ deeper.roots))
            (tables.eraseAll (Forest.queued (.cons name label children rest) deeper)) := by
        intro name label children rest deeper lists distinct bound
        have perm : (name :: (rest ++ (deeper ++ children)).names).Perm
            (Forest.cons name label children rest ++ deeper).names := by
          simp only [Forest.names_append, Forest.names_cons, Forest.cons_append]
          refine List.Perm.cons name ?_
          rw [← List.append_assoc]
          exact List.perm_append_comm
        have apart := List.nodup_cons.1 (perm.nodup_iff.2 distinct)
        have fewer : (rest ++ (deeper ++ children)).names.length = count := by
          have same := perm.length_eq
          rw [bound, List.length_cons] at same
          omega
        exact clears_cons lists apart.1 fun kept => induction kept apart.2 fewer
      cases here with
      | nil =>
          cases deeper with
          | nil => simp at bound
          | cons name label children rest =>
              have whole := @first name label children rest .nil
              rw [Forest.append_nil, Forest.queued_nil_right] at whole
              rw [Forest.queued_nil_left]
              simpa [Forest.roots] using whole lists distinct bound
      | cons name label children rest => exact first lists distinct bound

theorem eraseAll_entries (tables : Tables) (nodes : List NodeId) (name : NodeId) :
    (tables.eraseAll nodes).data name = (if name ∈ nodes then none else tables.data name) ∧
      (tables.eraseAll nodes).children name =
        (if name ∈ nodes then none else tables.children name) ∧
      (tables.eraseAll nodes).parent name = (if name ∈ nodes then none else tables.parent name) := by
  induction nodes generalizing tables with
  | nil => simp [eraseAll]
  | cons first later induction =>
      have step : tables.eraseAll (first :: later) = (tables.erase first).eraseAll later := rfl
      obtain ⟨data, children, parent⟩ := induction (tables.erase first)
      rw [step, data, children, parent]
      by_cases here : name = first
      · subst here
        simp [erase]
      · simp [erase, here]

theorem eraseAll_places (tables : Tables) (nodes : List NodeId) :
    (tables.eraseAll nodes).places = tables.places.vacateAll nodes := by
  induction nodes generalizing tables with
  | nil => rfl
  | cons first later induction => exact induction (tables.erase first)

end Tables

namespace Document

section Runs

variable {document : Document} {node : NodeId}

/-- Without the entries of a tree, the tables are those of what is left. -/
theorem eraseAll_tables (sound : document.Sound) (present : document.contains node = true) :
    (document.detach node).tables.eraseAll (document.nodes.subtree node).levels.flatten =
      (document.remove node).2.tables := by
  obtain ⟨label, below, has⟩ := Forest.exists_has (contains_iff.1 present)
  have listed : ∀ {name : NodeId}, name ∈ (document.nodes.subtree node).levels.flatten ↔
      name ∈ (document.nodes.subtree node).names := Forest.mem_levels _
  have gone : ∀ {name : NodeId}, name ∈ (document.nodes.subtree node).names →
      name ∉ (document.nodes.prune node).names := fun within out =>
    ((Forest.mem_names_prune sound.distinct has).1 out).2 within
  refine eq_tables (fun name => ?_) (fun name => ?_) (fun name => ?_) (Tables.eraseAll_places ..)
  · rw [(Tables.eraseAll_entries ..).1]
    by_cases within : name ∈ (document.nodes.subtree node).names
    · have unlabelled : (document.remove node).2.data? name = none := by
        rw [← Option.not_isSome_iff_eq_none, data?, Forest.label?_isSome_iff]
        exact gone within
      rw [if_pos (listed.2 within), unlabelled]
    · have unlabelled : (document.nodes.subtree node).label? name = none := by
        rw [← Option.not_isSome_iff_eq_none, Forest.label?_isSome_iff]
        exact within
      have same : (document.detach node).data? name = (document.remove node).2.data? name := by
        rw [data?, detach, Forest.label?_append, unlabelled, Option.or_none]
        rfl
      rw [if_neg fun member => within (listed.1 member), ← same]
      rfl
  · rw [(Tables.eraseAll_entries ..).2.1]
    by_cases within : name ∈ (document.nodes.subtree node).names
    · have absent : (document.remove node).2.contains name = false :=
        Forest.contains_eq_false_iff.2 (gone within)
      rw [if_pos (listed.2 within), absent]
      rfl
    · have held : (document.detach node).contains name = (document.remove node).2.contains name := by
        rw [Bool.eq_iff_iff, contains_iff, contains_iff, detach, Forest.names_append,
          List.mem_append]
        exact or_iff_left within
      have same : (document.detach node).children name = (document.remove node).2.children name :=
        Forest.childrenOf_append_left within
      rw [if_neg fun member => within (listed.1 member), ← held, ← same]
      rfl
  · rw [(Tables.eraseAll_entries ..).2.2]
    by_cases within : name ∈ (document.nodes.subtree node).names
    · have parentless : (document.remove node).2.parent? name = none := by
        rw [parent?, Forest.parent?, remove, Forest.ancestors_eq_nil (gone within)]
        rfl
      rw [if_pos (listed.2 within), parentless]
    · have same : (document.detach node).parent? name = (document.remove node).2.parent? name :=
        congrArg List.head? (Forest.ancestors_append_left within)
      rw [if_neg fun member => within (listed.1 member), ← same]
      rfl

/-- A tree is erased after it was detached. -/
theorem clears_remove (sound : document.Sound) (present : document.contains node = true) :
    Tables.Clears (document.detach node).tables [node] (document.remove node).2.tables := by
  have also := sound.detach node
  obtain ⟨label, below, has⟩ := Forest.exists_has (contains_iff.1 present)
  have lists : (document.detach node).tables.Lists (document.nodes.subtree node ++ .nil) := by
    intro name mark inner found
    rw [Forest.append_nil] at found
    have there : (document.detach node).nodes.Has name mark inner := Forest.has_append.2 (.inr found)
    have listed : (document.detach node).children name = inner.roots :=
      there.childrenOf_eq also.distinct
    have held : (document.detach node).contains name = true := contains_iff.2 there.mem
    simp only [Document.tables, held, if_true, listed]
  have distinct : (document.nodes.subtree node ++ .nil).names.Nodup := by
    rw [Forest.append_nil, has.subtree_eq sound.distinct, Forest.names_cons, Forest.names_nil,
      List.append_nil]
    exact has.nodup sound.distinct
  have clears := Tables.clears_queued lists distinct
  rw [Forest.queued_nil_right, Forest.roots_subtree sound.distinct has,
    eraseAll_tables sound present] at clears
  exact clears

/-- The new node has nothing below it. -/
theorem Admits.appendNew (sound : document.Sound) {parent : NodeId} {data : NodeData}
    (admits : document.Admits (.insertChild parent data)) :
    (document.insert data).2.Admits (.appendChild parent document.places.next) := by
  intro node upper placed
  simp only [placing?] at placed
  split at placed
  · rename_i both
    cases placed
    have held := (Bool.and_eq_true_iff.1 both).1
    refine ⟨(admits _ _ (if_pos held)).1, fun above => ?_⟩
    have also := (sound.insert data).distinct
    obtain ⟨_, below, has, member⟩ := (Forest.mem_ancestors also).1 above
    have here : (document.insert data).2.nodes.Has document.places.next data .nil :=
      Forest.has_append.2 (.inr (Forest.has_of_root ..))
    obtain ⟨-, rfl⟩ := has.unique also here
    cases member
  · cases placed

/-- A call that puts no node under itself or below it makes of the tables what it makes of the
document. -/
theorem performs_iff (sound : document.Sound) {operation : Operation}
    (admits : document.Admits operation) {after : Tables} :
    document.tables.Performs operation after ↔ after = (document.perform operation).tables := by
  cases operation with
  | insert data => rw [Tables.Performs, insert_tables sound, perform]
  | insertChild parent data =>
      have put := appendChild_tables (sound.insert data) (admits.appendNew sound)
      rw [Tables.Performs, insert_tables sound]
      exact iff_of_eq (congrArg (after = ·) put)
  | appendChild parent node => rw [Tables.Performs, appendChild_tables sound admits, perform]
  | insertAfter reference node => rw [Tables.Performs, insertAfter_tables sound admits, perform]
  | detach node => rw [Tables.Performs, detach_tables sound, perform]
  | remove node =>
      have held : (document.tables.data node).isSome = document.contains node := isSome_data? ..
      rw [Tables.Performs, held, perform]
      cases present : document.contains node with
      | false =>
          rw [remove_missing present]
          rfl
      | true =>
          have clears := clears_remove sound present
          rw [if_pos rfl, detach_tables sound]
          constructor
          · exact fun also => also.unique clears
          · rintro rfl
            exact clears

/-- Calls that put no node under itself or below it make of the tables what they make of the
document. -/
theorem performsAll_iff (sound : document.Sound) {operations : List Operation}
    (admits : document.AdmitsAll operations) {after : Tables} :
    document.tables.PerformsAll operations after ↔
      after = (document.performAll operations).tables := by
  induction operations generalizing document with
  | nil => rfl
  | cons operation later induction =>
      have further := induction (sound.perform operation) admits.2
      simp only [Tables.PerformsAll, performs_iff sound admits.1, exists_eq_left]
      exact further

end Runs

/-- A tree is built, a node is moved out of it and back, stale nodes are named, and a branch goes. -/
def someCalls : List Operation :=
  [.insert (.element "main"), .insertChild ⟨0, 0⟩ (.element "ul"), .insertChild ⟨1, 0⟩ (.text "a"),
    .insertChild ⟨1, 0⟩ (.text "b"), .insertAfter ⟨3, 0⟩ ⟨2, 0⟩, .detach ⟨3, 0⟩,
    .appendChild ⟨0, 0⟩ ⟨3, 0⟩, .remove ⟨1, 0⟩, .insertAfter ⟨2, 0⟩ ⟨3, 0⟩, .insert (.text "c")]

/-- Calls of which none puts a node under itself or below it are performed on the tables as on the
document.  Then parents and children agree, and what a call does next is exact. -/
theorem performed_tables_linked_exact (operations : List Operation) (admits : AdmitsAll {} operations) :
    (∀ tables, ({} : Tables).PerformsAll operations tables ↔
      tables = (performAll {} operations).tables) ∧
    (performAll {} operations).Linked ∧ (performAll {} operations).Exact :=
  have sound := sound_empty.performAll operations
  ⟨fun _ => performsAll_iff sound_empty admits, sound.linked, sound.exact⟩

theorem admitsAll_someCalls : AdmitsAll {} someCalls := by
  decide +kernel

example : (performAll {} someCalls).children ⟨0, 0⟩ = [⟨3, 0⟩] := by
  decide +kernel

/-- The tables of the calls are those of the document, in which a node has moved. -/
theorem performed_tables_someCalls : AdmitsAll {} someCalls ∧
    ({} : Tables).PerformsAll someCalls (performAll {} someCalls).tables ∧
      (performAll {} someCalls).Linked ∧ (performAll {} someCalls).Exact := by
  have whole := performed_tables_linked_exact someCalls admitsAll_someCalls
  exact ⟨admitsAll_someCalls, (whole.1 _).2 rfl, whole.2⟩

end Document

end LiveTemplate
