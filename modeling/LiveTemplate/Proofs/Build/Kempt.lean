import LiveTemplate.Proofs.Build.Constructs
import LiveTemplate.Proofs.Forest.Regrowth

/-!
# How bound nodes are kept

A list holds no registration but the one by which it follows its own collection, and below a node that
watches a path there are only nodes that do.  Both hold of whatever is built.
-/

namespace LiveTemplate

open Template (Node Attribute Expression Path)

/-- What a bound node has to do with its registrations and with what is below it. -/
structure BoundNode.Kempt (node : BoundNode Part) (below : Bindings) : Prop where
  /-- A list follows its collection by one registration, unless it was not built to its end. -/
  list : ∀ collection body, node.part = .list collection body →
    node.ledger = [] ∨ ∃ number, node.ledger = [⟨.collection collection, number⟩]
  /-- Below a watching node there are only others. -/
  watch : node.kind = .watch → ∀ entry ∈ below.entries, entry.2.kind = .watch

/-- All nodes are kept so. -/
def BoundForest.AllKempt (bound : Bindings) : Prop :=
  bound.Everywhere fun _ node below => node.Kempt below

/-- All nodes watch a path. -/
def BoundForest.AllWatch (bound : Bindings) : Prop :=
  ∀ entry ∈ bound.entries, entry.2.kind = .watch

open BoundForest (AllKempt AllWatch)

theorem BoundNode.Kempt.of_other {node : BoundNode Part} {below : Bindings}
    (other : (node.kind != .list && node.kind != .watch) = true) : node.Kempt below where
  list := by
    intro collection body here
    rw [kind, here] at other
    cases other
  watch := by
    intro here
    rw [here] at other
    cases other

namespace BoundForest

variable {bound first second : Bindings}

theorem AllWatch.nil : AllWatch .nil := by
  intro entry member
  cases member

theorem AllWatch.append (watch : AllWatch first) (also : AllWatch second) :
    AllWatch (first ++ second) := by
  intro entry member
  rw [Forest.entries_append] at member
  rcases List.mem_append.1 member with here | there
  · exact watch entry here
  · exact also entry there

theorem AllWatch.kempt (watch : AllWatch bound) : AllKempt bound := by
  apply Forest.everywhere_iff.2
  intro name node below has
  have kind : node.kind = .watch := watch _ has.mem_entries
  constructor
  · intro collection body here
    rw [BoundNode.kind, here] at kind
    cases kind
  · intro _ entry member
    exact watch entry (has.entries_subset member)

theorem AllKempt.append (kempt : AllKempt first) (also : AllKempt second) :
    AllKempt (first ++ second) :=
  Forest.everywhere_append.2 ⟨kempt, also⟩

/-! ## Edits -/

theorem AllWatch.without (watch : AllWatch bound) (gone : List BoundId) :
    AllWatch (Forest.without bound gone) := by
  induction bound with
  | nil => exact .nil
  | cons name node children rest inside beside =>
      have below := inside fun entry member => watch entry (by simp [Forest.entries, member])
      have later := beside fun entry member => watch entry (by simp [Forest.entries, member])
      rw [Forest.without]
      split
      · exact later
      · intro entry member
        simp only [Forest.entries, List.mem_cons, List.mem_append] at member
        rcases member with here | deep | late
        · rw [here]
          exact watch _ List.mem_cons_self
        · exact below entry deep
        · exact later entry late

theorem AllKempt.prune (kempt : AllKempt bound) (target : BoundId) : AllKempt (bound.prune target) := by
  apply Forest.Everywhere.prune kempt
  intro name node below _ here
  constructor
  · exact here.list
  · intro kind
    rw [Forest.prune_eq_without]
    exact AllWatch.without (here.watch kind) _

theorem AllKempt.without (kempt : AllKempt bound) (gone : List BoundId) :
    AllKempt (Forest.without bound gone) := by
  rw [← Forest.foldl_prune]
  induction gone generalizing bound with
  | nil => exact kempt
  | cons first later induction => exact induction (kempt.prune first)

theorem AllKempt.keep (kempt : AllKempt bound) (kept : BoundNode Part → Bool) :
    AllKempt (Forest.keep bound kept) := by
  apply Forest.everywhere_iff.2
  intro name node below has
  exact Forest.Everywhere.at kempt (Forest.has_keep has)

theorem AllKempt.insertAt (kempt : AllKempt first) (also : AllKempt second) (index : Nat) :
    AllKempt (Forest.insertAt first index second) := by
  apply Forest.everywhere_iff.2
  intro name node below has
  rcases Forest.has_insertAt.1 has with old | new
  · exact Forest.Everywhere.at kempt old
  · exact Forest.Everywhere.at also new

/-- An exchange that is in order at its node is in order above that node too. -/
theorem AllKempt.edit {target : BoundId} {label : BoundNode Part → BoundNode Part}
    {change : Bindings → Bindings} (kempt : AllKempt bound)
    (there : ∀ node below, Forest.Has bound target node below → (label node).kind = node.kind ∧
      (label node).Kempt (change below) ∧ AllKempt (change below)) :
    AllKempt (bound.edit target label change) := by
  apply Forest.everywhere_iff.2
  intro name node below has
  rcases Forest.has_edit has with ⟨former, old, _, rfl⟩ | ⟨mark, former, old, new⟩
  · have here := Forest.Everywhere.at kempt old
    refine ⟨here.list, fun kind entry member => ?_⟩
    obtain ⟨deeper, found⟩ := Forest.has_iff_mem_entries.2 member
    rcases Forest.has_edit found with ⟨inner, lower, _⟩ | ⟨mark, inner, lower, ⟨_, same, _⟩ | new⟩
    · exact here.watch kind _ lower.mem_entries
    · rw [same, (there _ _ (old.trans lower)).1]
      exact here.watch kind _ lower.mem_entries
    · obtain ⟨same, proper, _⟩ := there _ _ (old.trans lower)
      exact proper.watch (same.trans (here.watch kind _ lower.mem_entries)) _ new.mem_entries
  · obtain ⟨_, proper, inside⟩ := there _ _ old
    rcases new with ⟨_, rfl, rfl⟩ | inner
    · exact proper
    · exact Forest.Everywhere.at inside inner

end BoundForest

namespace Site

open Build

variable {Client : Type} {site : Site Client} {before after : BuildState Client} {root : BoundId}
  {slot : Nat} {scope : Scope} {watches : Bindings}

theorem watch_watches {value : Value} {rest : List String}
    (run : Runs (site.watch root slot scope value rest) before watches after) : AllWatch watches := by
  induction rest generalizing value before watches after with
  | nil =>
      simp only [watch, runs_pure] at run
      obtain ⟨rfl, _⟩ := run
      exact .nil
  | cons segment rest induction =>
      cases value with
      | model model =>
          simp only [watch, runs_bind, runs_newBound, runs_ask, runs_observe, runs_pure] at run
          obtain ⟨_, _, _, _, _, _, deeper, _, inner, _, _, _, rfl, _⟩ := run
          have below := induction inner
          intro entry member
          simp only [Forest.entries, List.append_nil, List.mem_cons] at member
          rcases member with here | there
          · rw [here]
            rfl
          · exact below entry there
      | _ =>
          simp only [watch, runs_pure] at run
          obtain ⟨rfl, _⟩ := run
          exact .nil

theorem follow_watches {path : Path} {subscription : Subscription}
    (run : Runs (site.follow root slot scope path) before (subscription, watches) after) :
    AllWatch watches := by
  simp only [follow, runs_bind, runs_ask, runs_observe, runs_pure, Prod.mk.injEq] at run
  obtain ⟨_, _, _, _, _, inner, _, _, _, ⟨_, rfl⟩, _⟩ := run
  exact watch_watches inner

theorem evaluate_watches {expression : Expression} {value : Value} {ledger : List Subscription}
    (run : Runs (site.evaluate root slot scope expression) before (value, ledger, watches) after) :
    AllWatch watches := by
  cases expression with
  | literal text =>
      simp only [evaluate, runs_pure, Prod.mk.injEq] at run
      obtain ⟨⟨_, _, rfl⟩, _⟩ := run
      exact .nil
  | bound path =>
      simp only [evaluate, runs_bind, runs_ask, runs_pure, Prod.mk.injEq, Prod.exists] at run
      obtain ⟨_, _, _, subscription, _, _, inner, ⟨_, _, rfl⟩, _⟩ := run
      exact follow_watches inner

theorem attributes_watches {entries : List Attribute} {data made : NodeData}
    {ledger : List Subscription}
    (run : Runs (site.attributes root scope slot entries data) before (made, ledger, watches) after) :
    AllWatch watches := by
  induction entries generalizing slot data before ledger watches with
  | nil =>
      simp only [attributes, runs_pure, Prod.mk.injEq] at run
      obtain ⟨⟨_, _, rfl⟩, _⟩ := run
      exact .nil
  | cons entry later induction =>
      obtain ⟨_, _, first, _, _, _, some, none, others, _, rfl⟩ := attributes_cons run
      apply BoundForest.AllWatch.append _ (induction others)
      cases shown : entry.display? with
      | none =>
          obtain ⟨_, rfl, _⟩ := none shown
          exact .nil
      | some pair =>
          obtain ⟨_, evaluated, _⟩ := some _ _ shown
          exact evaluate_watches evaluated

/-- Whatever the steps build is kept so. -/
def Tidies (steps : Build Client Growth) : Prop :=
  ∀ before growth after, Runs steps before growth after → AllKempt growth.bound

theorem text_tidies (content : Expression) : Tidies (site.text scope content) := by
  intro before growth after run
  simp only [text, runs_bind, runs_newNode, runs_newBound, runs_ask, runs_pure, Prod.exists] at run
  obtain ⟨_, _, _, _, _, _, _, _, watches, _, evaluated, _, _, _, rfl, _⟩ := run
  exact ⟨.of_other rfl, (evaluate_watches evaluated).kempt, trivial⟩

section Items

variable {body : Scope → Build Client Growth}

theorem item_tidies {value : Value} (tidies : ∀ scope, Tidies (body scope)) :
    Tidies (item body scope value) := by
  intro before growth after run
  simp only [item, runs_bind, runs_newBound, runs_pure] at run
  obtain ⟨_, _, _, inner, _, made, rfl, _⟩ := run
  exact ⟨.of_other rfl, tidies _ _ _ _ made, trivial⟩

theorem items_tidies {values : List Value} (tidies : ∀ scope, Tidies (body scope)) :
    Tidies (items body scope values) := by
  intro before growth after run
  induction values generalizing before growth with
  | nil =>
      simp only [items, runs_pure] at run
      obtain ⟨rfl, _⟩ := run
      trivial
  | cons value later induction =>
      simp only [items, runs_bind] at run
      obtain ⟨first, middle, made, run⟩ := run
      have here := item_tidies tidies _ _ _ made
      split at run
      · simp only [runs_pure] at run
        obtain ⟨rfl, _⟩ := run
        exact here
      · simp only [runs_bind, runs_pure] at run
        obtain ⟨second, _, others, rfl, rfl⟩ := run
        exact here.append (induction _ _ others)

theorem list_tidies {source : List Node} {collection : CollectionId}
    (tidies : ∀ scope, Tidies (body scope)) :
    Tidies (site.list body source scope collection) := by
  intro before growth after run
  simp only [list, runs_bind, runs_newNode, runs_newBound, runs_ask, runs_pure] at run
  obtain ⟨_, _, _, _, _, _, _, _, _, inner, middle, made, ledger, _, observed, rfl, _⟩ := run
  refine ⟨⟨?_, fun watch => by cases watch⟩, items_tidies tidies _ _ _ made, trivial⟩
  intro _ _ here
  obtain ⟨rfl, _⟩ := Part.list.inj here
  unfold observeList at observed
  split at observed
  · simp only [runs_pure] at observed
    exact .inl observed.1.symm
  · simp only [runs_bind, runs_observeChanges, runs_pure] at observed
    obtain ⟨_, _, ⟨rfl, _⟩, rfl, _⟩ := observed
    exact .inr ⟨_, rfl⟩

end Items

section Directives

variable {view : Scope → ModelId → String → Build Client Growth}
  {body : Scope → Build Client Growth}

theorem filling_tidies {switch group : BoundId} {directive : Directive} {value : Value}
    {contents : Contents} {ledger : List Subscription} {growth : Growth}
    (views : ∀ scope model name, Tidies (view scope model name))
    (tidies : ∀ scope, Tidies (body scope))
    (run : Runs (site.filling view body switch group directive scope contents value)
      before (ledger, growth) after) : AllKempt growth.bound := by
  cases rule : directive.rule with
  | showIf =>
      simp only [filling, rule] at run
      split at run <;> simp only [runs_bind, runs_pure, Prod.mk.injEq] at run
      · obtain ⟨_, _, made, ⟨_, rfl⟩, _⟩ := run
        exact tidies _ _ _ _ made
      · obtain ⟨_, _, ⟨rfl, _⟩, ⟨_, rfl⟩, _⟩ := run
        trivial
  | showUnless =>
      simp only [filling, rule] at run
      split at run <;> simp only [runs_bind, runs_pure, Prod.mk.injEq] at run
      · obtain ⟨_, _, ⟨rfl, _⟩, ⟨_, rfl⟩, _⟩ := run
        trivial
      · obtain ⟨_, _, made, ⟨_, rfl⟩, _⟩ := run
        exact tidies _ _ _ _ made
  | each =>
      simp only [filling, rule, runs_bind, runs_pure, Prod.mk.injEq] at run
      obtain ⟨_, _, _, _, _, made, ⟨_, rfl⟩, _⟩ := run
      exact items_tidies tidies _ _ _ made
  | collection =>
      simp only [filling, rule] at run
      split at run <;> simp only [runs_bind, runs_pure, Prod.mk.injEq] at run
      · obtain ⟨_, _, made, ⟨_, rfl⟩, _⟩ := run
        exact list_tidies tidies _ _ _ made
      · obtain ⟨_, _, made, ⟨_, rfl⟩, _⟩ := run
        exact items_tidies tidies _ _ _ made
  | view name =>
      simp only [filling, rule] at run
      split at run
      · simp only [runs_bind, runs_pure, Prod.mk.injEq] at run
        obtain ⟨_, _, made, ⟨_, rfl⟩, _⟩ := run
        exact views _ _ _ _ _ _ made
      · simp only [runs_pure, Prod.mk.injEq] at run
        obtain ⟨⟨_, rfl⟩, _⟩ := run
        trivial

theorem content_tidies {switch : BoundId} {directive : Directive}
    (views : ∀ scope model name, Tidies (view scope model name))
    (tidies : ∀ scope, Tidies (body scope)) :
    Tidies (site.content view body switch directive scope) := by
  intro before growth after run
  simp only [content, runs_bind, runs_ask, runs_newBound, runs_pure, Prod.exists] at run
  obtain ⟨_, _, _, _, _, _, _, _, _, _, inner, _, made, rfl, _⟩ := run
  exact ⟨.of_other rfl, filling_tidies views tidies made, trivial⟩

theorem directive_tidies {directive : Directive}
    (views : ∀ scope model name, Tidies (view scope model name))
    (tidies : ∀ scope, Tidies (body scope)) :
    Tidies (site.directive view body directive scope) := by
  intro before growth after run
  simp only [Site.directive, runs_bind, runs_newNode, runs_newBound, runs_ask, runs_pure,
    Prod.exists] at run
  obtain ⟨_, _, _, _, _, _, _, watches, _, followed, _, _, _, inner, _, made, rfl, _⟩ := run
  exact ⟨.of_other rfl,
    (follow_watches followed).kempt.append (content_tidies views tidies _ _ _ made), trivial⟩

end Directives

section Nodes

variable {view : Scope → ModelId → String → Build Client Growth}

mutual

theorem node_tidies (site : Site Client)
    (views : ∀ scope model name, Tidies (view scope model name)) :
    ∀ (source : Node) (scope : Scope), Tidies (site.node view source scope)
  | .element tag entries children line, scope => by
      intro before growth after run
      simp only [node, runs_bind, runs_newNode, runs_newBound, runs_pure, Prod.exists] at run
      obtain ⟨_, _, _, _, _, _, _, _, watches, _, listed, inner, _, made, rfl, _⟩ := run
      exact ⟨.of_other rfl, (attributes_watches listed).kempt.append
        (nodes_tidies site views children scope _ _ _ made), trivial⟩
  | .text content, scope => by
      rw [node]
      exact text_tidies content
  | .directive rule path body, scope => by
      rw [node]
      exact directive_tidies views (nodes_tidies site views body)
  | .view name, scope => by
      rw [node]
      exact views scope scope.model name

theorem nodes_tidies (site : Site Client)
    (views : ∀ scope model name, Tidies (view scope model name)) :
    ∀ (sources : List Node) (scope : Scope), Tidies (site.nodes view sources scope)
  | [], scope => by
      intro before growth after run
      simp only [nodes, runs_pure] at run
      obtain ⟨rfl, _⟩ := run
      trivial
  | first :: later, scope => by
      intro before growth after run
      simp only [nodes, runs_bind] at run
      obtain ⟨growth, middle, made, run⟩ := run
      have here := node_tidies site views first scope _ _ _ made
      split at run
      · simp only [runs_pure] at run
        obtain ⟨rfl, _⟩ := run
        exact here
      · simp only [runs_bind, runs_pure] at run
        obtain ⟨second, _, others, rfl, rfl⟩ := run
        exact here.append (nodes_tidies site views later scope _ _ _ others)

end

end Nodes

theorem view_tidies (site : Site Client) (room : Nat) (scope : Scope) (model : ModelId)
    (name : String) : Tidies (site.view room scope model name) := by
  induction room generalizing scope model name with
  | zero =>
      intro before growth after run
      simp only [view, runs_pure] at run
      obtain ⟨rfl, _⟩ := run
      trivial
  | succ room induction =>
      intro before growth after run
      rw [view] at run
      split at run
      · simp only [runs_pure] at run
        obtain ⟨rfl, _⟩ := run
        trivial
      · simp only [runs_bind, runs_newBound, runs_pure, Prod.exists] at run
        obtain ⟨_, _, _, _, _, _, _, inner, _, made, _, _, _, rfl, _⟩ := run
        exact ⟨.of_other rfl, node_tidies site (fun scope model name =>
          induction scope model name) _ _ _ _ _ made, trivial⟩

theorem body_tidies (site : Site Client) (source : List Node) (scope : Scope) :
    Tidies (site.body source scope) :=
  nodes_tidies site (fun scope => site.view_tidies _ scope) source scope

end Site

end LiveTemplate
