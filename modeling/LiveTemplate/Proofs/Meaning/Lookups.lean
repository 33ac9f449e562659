import LiveTemplate.Proofs.Build.Kempt
import LiveTemplate.Proofs.Meaning.Search

/-!
# Views that are looked up

Views are looked up when they are shown, which may be long after the template was checked.  But bound
nodes remember no more of a template than what they may have to show.  If the views that a template
mentions are known, and so are those that known views mention, then whatever is built mentions known
views only, and no view that is looked up is missing.
-/

namespace LiveTemplate

open Template (Node Attribute Expression Path Rule)

/-- A part may have to show the view. -/
def Part.Mentions : Part → String → Prop
  | .switch directive _, name =>
    (Node.directive directive.rule directive.path directive.body).Mentions name
  | .list _ body, name => ∃ node ∈ body, node.Mentions name
  | .element _, _ | .text _, _ | .group, _ | .watch _, _ | .view _, _ => False

/-- All known views are registered, and they mention known views only. -/
def Registry.Closed (registry : Registry) (known : String → Prop) : Prop :=
  ∀ name, known name → ∃ view, registry.view? name = some view ∧
    ∀ other, view.root.Mentions other → known other

/-- The bound nodes mention known views only. -/
def BoundForest.AllKnown (known : String → Prop) (bound : Bindings) : Prop :=
  ∀ entry ∈ bound.entries, ∀ name, entry.2.part.Mentions name → known name

open BoundForest (AllKnown AllWatch)

/-- What has been built mentions known views only, and no view was missing. -/
structure Growth.Knows (known : String → Prop) (growth : Growth) : Prop where
  bound : AllKnown known growth.bound
  failure : ∀ name, growth.failure ≠ some (.unknownView name)

section Known

variable {known : String → Prop} {first second bound : Bindings} {growth also : Growth} {id : BoundId}
  {node : BoundNode Part}

theorem Registry.closed_of_missingView? {registry : Registry} {template : Template}
    (complete : registry.missingView? template = none) : registry.Closed (registry.Needs template) := by
  intro name needed
  obtain ⟨view, found⟩ := Registry.missingView?_eq_none.1 complete name needed
  exact ⟨view, found, fun other mentions => .through needed found mentions⟩

theorem Registry.Closed.of_views {registry other : Registry} (closed : registry.Closed known)
    (same : other.views = registry.views) : other.Closed known := by
  intro name needed
  obtain ⟨view, found, inside⟩ := closed name needed
  exact ⟨view, by rw [Registry.view?, same]; exact found, inside⟩

namespace BoundForest

theorem AllKnown.nil : AllKnown known .nil := by
  intro entry member
  cases member

theorem AllKnown.append (here : AllKnown known first) (there : AllKnown known second) :
    AllKnown known (first ++ second) := by
  intro entry member
  rw [Forest.entries_append] at member
  rcases List.mem_append.1 member with early | late
  · exact here entry early
  · exact there entry late

theorem AllKnown.single (here : ∀ name, node.part.Mentions name → known name)
    (below : AllKnown known bound) : AllKnown known (.cons id node bound .nil) := by
  intro entry member
  simp only [Forest.entries, List.append_nil, List.mem_cons] at member
  rcases member with rfl | inside
  · exact here
  · exact below entry inside

theorem allKnown_iff : AllKnown known bound ↔ ∀ id node below, Forest.Has bound id node below →
    ∀ name, node.part.Mentions name → known name := by
  constructor
  · intro here id node below has
    exact here _ has.mem_entries
  · rintro all ⟨id, node⟩ member
    obtain ⟨below, has⟩ := Forest.has_iff_mem_entries.2 member
    exact all id node below has

theorem AllKnown.prune (here : AllKnown known bound) (id : BoundId) : AllKnown known (bound.prune id) := by
  rw [allKnown_iff]
  intro other node below has
  obtain ⟨former, old, _⟩ := Forest.has_prune has
  exact allKnown_iff.1 here other node former old

theorem AllKnown.insertAt (here : AllKnown known first) (there : AllKnown known second) (index : Nat) :
    AllKnown known (Forest.insertAt first index second) := by
  rw [allKnown_iff]
  intro id node below has
  rcases Forest.has_insertAt.1 has with old | new
  · exact allKnown_iff.1 here id node below old
  · exact allKnown_iff.1 there id node below new

theorem decided_mentions (node : BoundNode Part) (decision : Option Bool) {name : String}
    (mentions : (node.decided decision).part.Mentions name) : node.part.Mentions name := by
  unfold BoundNode.decided at mentions
  split at mentions
  · rename_i part
    rw [part]
    exact mentions
  · exact mentions

/-- A decision that is taken anew mentions no other views. -/
theorem AllKnown.decided (here : AllKnown known bound) (switch : BoundId) (decision : Option Bool) :
    AllKnown known (Forest.modify bound switch (·.decided decision)) := by
  rw [allKnown_iff]
  intro id node below has name mentions
  obtain ⟨mark, former, old, rfl, _⟩ := Forest.has_modify has
  apply allKnown_iff.1 here id mark former old
  split at mentions
  · exact decided_mentions mark decision mentions
  · exact mentions

/-- Nodes are put below another one. -/
theorem AllKnown.modifyUnder {change : Bindings → Bindings} (here : AllKnown known bound)
    (parent : BoundId) (adds : ∀ below, AllKnown known below → AllKnown known (change below)) :
    AllKnown known (bound.modifyUnder parent change) := by
  rw [allKnown_iff]
  intro id node below has
  rcases Forest.has_modifyUnder has with ⟨former, old, _⟩ | ⟨former, old, rfl, _⟩ | ⟨_, former, old, new⟩
  · exact allKnown_iff.1 here id node former old
  · exact allKnown_iff.1 here id node former old
  · have inside : AllKnown known former := fun entry member => here entry (old.entries_subset member)
    exact allKnown_iff.1 (adds former inside) id node below new

/-- Nodes that watch a path mention no views. -/
theorem AllWatch.allKnown (watch : AllWatch bound) : AllKnown known bound := by
  intro entry member name mentions
  have kind := watch entry member
  unfold BoundNode.kind at kind
  cases part : entry.2.part with
  | switch | list =>
      rw [part] at kind
      cases kind
  | element | text | group | watch | view =>
      rw [part] at mentions
      cases mentions

end BoundForest

/-- What has been built without a failure. -/
theorem Growth.Knows.whole (bound : AllKnown known growth.bound) (failure : growth.failure = none) :
    growth.Knows known := by
  refine ⟨bound, fun name failed => ?_⟩
  rw [failure] at failed
  cases failed

theorem Growth.Knows.empty : Growth.empty.Knows known :=
  .whole .nil rfl

theorem Growth.Knows.beside (here : growth.Knows known) (there : also.Knows known) :
    (growth.beside also).Knows known :=
  ⟨here.bound.append there.bound, there.failure⟩

theorem Growth.Knows.within (here : growth.Knows known)
    (own : ∀ name, node.part.Mentions name → known name) : (growth.within id node).Knows known :=
  ⟨.single own here.bound, here.failure⟩

end Known

namespace Site

open Build

variable {Client : Type} {site : Site Client} {known : String → Prop} {scope : Scope}
  {before after : BuildState Client}

/-- Whatever the steps build mentions known views only, and no view is missing on the way. -/
def Knows (known : String → Prop) (steps : Build Client Growth) : Prop :=
  ∀ before growth after, Runs steps before growth after → growth.Knows known

theorem text_knows (content : Expression) : Knows known (site.text scope content) := by
  intro before growth after run
  simp only [text, runs_bind, runs_newNode, runs_newBound, runs_ask, runs_pure, Prod.exists] at run
  obtain ⟨_, _, _, _, _, _, _, _, watches, _, evaluated, _, _, _, rfl, _⟩ := run
  exact .whole (.single (fun _ => False.elim) (evaluate_watches evaluated).allKnown) rfl

section Items

variable {body : Scope → Build Client Growth}

theorem item_knows {value : Value} (knows : ∀ scope, Knows known (body scope)) :
    Knows known (item body scope value) := by
  intro before growth after run
  simp only [item, runs_bind, runs_newBound, runs_pure] at run
  obtain ⟨_, _, _, inner, _, made, rfl, _⟩ := run
  exact (knows _ _ _ _ made).within fun _ => False.elim

theorem items_knows {values : List Value} (knows : ∀ scope, Knows known (body scope)) :
    Knows known (items body scope values) := by
  intro before growth after run
  induction values generalizing before growth with
  | nil =>
      simp only [items, runs_pure] at run
      obtain ⟨rfl, _⟩ := run
      exact .empty
  | cons value later induction =>
      simp only [items, runs_bind] at run
      obtain ⟨first, middle, made, run⟩ := run
      have here := item_knows knows _ _ _ made
      split at run
      · simp only [runs_pure] at run
        obtain ⟨rfl, _⟩ := run
        exact here
      · simp only [runs_bind, runs_pure] at run
        obtain ⟨second, _, others, rfl, rfl⟩ := run
        exact here.beside (induction _ _ others)

theorem list_knows {source : List Node} {collection : CollectionId}
    (own : ∀ node ∈ source, ∀ name, node.Mentions name → known name)
    (knows : ∀ scope, Knows known (body scope)) :
    Knows known (site.list body source scope collection) := by
  intro before growth after run
  simp only [list, runs_bind, runs_newNode, runs_newBound, runs_ask, runs_pure] at run
  obtain ⟨_, _, _, _, _, _, _, _, _, inner, middle, made, ledger, _, _, rfl, _⟩ := run
  have below := items_knows knows _ _ _ made
  refine ⟨.single ?_ below.bound, below.failure⟩
  rintro name ⟨node, member, mentions⟩
  exact own node member name mentions

end Items

section Directives

variable {view : Scope → ModelId → String → Build Client Growth} {body : Scope → Build Client Growth}
  {directive : Directive}

theorem filling_knows {switch group : BoundId} {value : Value} {contents : Contents}
    {ledger : List Subscription} {growth : Growth}
    (views : ∀ scope model name, known name → Knows known (view scope model name))
    (own : ∀ name, (Part.switch directive none).Mentions name → known name)
    (knows : ∀ scope, Knows known (body scope))
    (run : Runs (site.filling view body switch group directive scope contents value)
      before (ledger, growth) after) : growth.Knows known := by
  cases rule : directive.rule with
  | showIf =>
      simp only [filling, rule] at run
      split at run <;> simp only [runs_bind, runs_pure, Prod.mk.injEq] at run
      · obtain ⟨_, _, made, ⟨_, rfl⟩, _⟩ := run
        exact knows _ _ _ _ made
      · obtain ⟨_, _, ⟨rfl, _⟩, ⟨_, rfl⟩, _⟩ := run
        exact .empty
  | showUnless =>
      simp only [filling, rule] at run
      split at run <;> simp only [runs_bind, runs_pure, Prod.mk.injEq] at run
      · obtain ⟨_, _, ⟨rfl, _⟩, ⟨_, rfl⟩, _⟩ := run
        exact .empty
      · obtain ⟨_, _, made, ⟨_, rfl⟩, _⟩ := run
        exact knows _ _ _ _ made
  | each =>
      simp only [filling, rule, runs_bind, runs_pure, Prod.mk.injEq] at run
      obtain ⟨_, _, _, _, _, made, ⟨_, rfl⟩, _⟩ := run
      exact items_knows knows _ _ _ made
  | collection =>
      simp only [filling, rule] at run
      split at run <;> simp only [runs_bind, runs_pure, Prod.mk.injEq] at run
      · obtain ⟨_, _, made, ⟨_, rfl⟩, _⟩ := run
        refine list_knows (fun node member name mentions => own name ?_) knows _ _ _ made
        exact .inBody member mentions
      · obtain ⟨_, _, made, ⟨_, rfl⟩, _⟩ := run
        exact items_knows knows _ _ _ made
  | view name =>
      have named : known name := own name (by
        rw [Part.Mentions, rule]
        exact .directive name directive.path directive.body)
      simp only [filling, rule] at run
      split at run
      · simp only [runs_bind, runs_pure, Prod.mk.injEq] at run
        obtain ⟨_, _, made, ⟨_, rfl⟩, _⟩ := run
        exact views _ _ _ named _ _ _ made
      · simp only [runs_pure, Prod.mk.injEq] at run
        obtain ⟨⟨_, rfl⟩, _⟩ := run
        exact .empty

theorem content_knows {switch : BoundId}
    (views : ∀ scope model name, known name → Knows known (view scope model name))
    (own : ∀ name, (Part.switch directive none).Mentions name → known name)
    (knows : ∀ scope, Knows known (body scope)) :
    Knows known (site.content view body switch directive scope) := by
  intro before growth after run
  simp only [content, runs_bind, runs_ask, runs_newBound, runs_pure, Prod.exists] at run
  obtain ⟨_, _, _, _, _, _, _, _, _, _, inner, _, made, rfl, _⟩ := run
  exact (filling_knows views own knows made).within fun _ => False.elim

theorem directive_knows
    (views : ∀ scope model name, known name → Knows known (view scope model name))
    (own : ∀ name, (Part.switch directive none).Mentions name → known name)
    (knows : ∀ scope, Knows known (body scope)) :
    Knows known (site.directive view body directive scope) := by
  intro before growth after run
  simp only [Site.directive, runs_bind, runs_newNode, runs_newBound, runs_ask, runs_pure,
    Prod.exists] at run
  obtain ⟨_, _, _, _, _, _, _, watches, _, followed, _, _, _, inner, _, made, rfl, _⟩ := run
  have below := content_knows views own knows _ _ _ made
  exact ⟨.single own ((follow_watches followed).allKnown.append below.bound), below.failure⟩

end Directives

section Nodes

variable {view : Scope → ModelId → String → Build Client Growth}

mutual

theorem node_knows (site : Site Client)
    (views : ∀ scope model name, known name → Knows known (view scope model name)) :
    ∀ (source : Node) (scope : Scope), (∀ name, source.Mentions name → known name) →
      Knows known (site.node view source scope)
  | .element tag entries children line, scope, own => by
      intro before growth after run
      simp only [node, runs_bind, runs_newNode, runs_newBound, runs_pure, Prod.exists] at run
      obtain ⟨_, _, _, _, _, _, _, _, watches, _, listed, inner, _, made, rfl, _⟩ := run
      have below := nodes_knows site views children scope
        (fun child member name mentions => own name (.inElement member mentions)) _ _ _ made
      have inside := (attributes_watches listed).allKnown.append below.bound
      exact ⟨.single (fun _ => False.elim) inside, below.failure⟩
  | .text content, scope, _ => by
      rw [node]
      exact text_knows content
  | .directive rule path body, scope, own => by
      rw [node]
      exact directive_knows views own fun scope => nodes_knows site views body scope
        fun child member name mentions => own name (.inBody member mentions)
  | .view name, scope, own => by
      rw [node]
      exact views scope scope.model name (own name (.view name))

theorem nodes_knows (site : Site Client)
    (views : ∀ scope model name, known name → Knows known (view scope model name)) :
    ∀ (sources : List Node) (scope : Scope),
      (∀ source ∈ sources, ∀ name, source.Mentions name → known name) →
        Knows known (site.nodes view sources scope)
  | [], scope, _ => by
      intro before growth after run
      simp only [nodes, runs_pure] at run
      obtain ⟨rfl, _⟩ := run
      exact .empty
  | first :: later, scope, own => by
      intro before growth after run
      simp only [nodes, runs_bind] at run
      obtain ⟨growth, middle, made, run⟩ := run
      have here := node_knows site views first scope (own first List.mem_cons_self) _ _ _ made
      split at run
      · simp only [runs_pure] at run
        obtain ⟨rfl, _⟩ := run
        exact here
      · simp only [runs_bind, runs_pure] at run
        obtain ⟨second, _, others, rfl, rfl⟩ := run
        exact here.beside (nodes_knows site views later scope
          (fun source member => own source (List.mem_cons_of_mem _ member)) _ _ _ others)

end

end Nodes

/-- However deeply views are shown in each other, none is missing. -/
theorem view_knows (closed : site.registry.Closed known) (room : Nat) (scope : Scope) (model : ModelId)
    (name : String) (named : known name) : Knows known (site.view room scope model name) := by
  induction room generalizing scope model name with
  | zero =>
      intro before growth after run
      simp only [view, runs_pure] at run
      obtain ⟨rfl, _⟩ := run
      exact ⟨.nil, fun _ failed => by cases failed⟩
  | succ room induction =>
      intro before growth after run
      obtain ⟨template, found, inside⟩ := closed name named
      rw [view, found] at run
      simp only [runs_bind, runs_newBound, runs_pure, Prod.exists] at run
      obtain ⟨_, _, _, _, _, _, _, inner, _, made, _, _, _, rfl, _⟩ := run
      exact (node_knows site induction template.root _ inside _ _ _ made).within fun _ => False.elim

theorem viewIn_knows (closed : site.registry.Closed known) (scope : Scope) (model : ModelId)
    (name : String) (named : known name) : Knows known (site.viewIn scope model name) :=
  view_knows closed _ scope model name named

theorem body_knows (closed : site.registry.Closed known) {source : List Node}
    (own : ∀ node ∈ source, ∀ name, node.Mentions name → known name) (scope : Scope) :
    Knows known (site.body source scope) :=
  nodes_knows site (viewIn_knows closed) source scope own

end Site

end LiveTemplate
