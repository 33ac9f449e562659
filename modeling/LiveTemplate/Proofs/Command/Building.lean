import LiveTemplate.Proofs.Build.Constructs
import LiveTemplate.Proofs.Build.Steps
import LiveTemplate.Proofs.Command.Ranks

/-!
# The ranks of what is built

Building asks factories for controllers and tells each of them of its view once the view is there.  If
every call gives a new one, what has been built stands in ranks under the controller that it was built
with.  The statements follow the definitions one by one; views are a parameter until the last section,
where they are built by recursion on the room that is left.
-/

namespace LiveTemplate

open Template (Node Attribute Expression Path Rule)

variable {Client : Type}

/-- Every call of a factory gives a new controller with actions, and leaves the others as they are. -/
structure HiresFresh (build : Hook → Controllers → Client → ControllerId × Controllers × Client) :
    Prop where
  kept : ∀ factory (controllers : Controllers) client,
    controllers.Extends (build factory controllers client).2.1
  fresh : ∀ factory (controllers : Controllers) client,
    controllers.next ≤ (build factory controllers client).1.index
  acts : ∀ factory (controllers : Controllers) client, ∃ table links,
    (build factory controllers client).2.1.get? (build factory controllers client).1.index =
      some (.actions table links)

/-- The client's factories give a new controller each time, whoever is in use. -/
def Behaviour.Hires (behaviour : Behaviour Client) : Prop :=
  ∀ inUse, HiresFresh (behaviour.build inUse)

/-- What building leaves: numbers are given out, and controllers that were there are as they were. -/
structure BuildState.Precedes (before after : BuildState Client) : Prop where
  numbering : before.nextBound ≤ after.nextBound
  controllers : before.controllers.Extends after.controllers

namespace BuildState

variable {before middle after : BuildState Client}

theorem Precedes.of_same (numbers : after.nextBound = before.nextBound)
    (controllers : after.controllers = before.controllers) : before.Precedes after :=
  ⟨numbers.ge, controllers ▸ .refl _⟩

theorem Precedes.trans (first : before.Precedes middle) (second : middle.Precedes after) :
    before.Precedes after :=
  ⟨first.numbering.trans second.numbering, first.controllers.trans second.controllers⟩

end BuildState

theorem HiresFresh.permits {site : Site Client} (hires : HiresFresh site.build) :
    site.Permits BuildState.Precedes where
  refl := fun _ => .of_same rfl rfl
  trans := .trans
  node := fun _ => .of_same rfl rfl
  bound := fun _ => ⟨Nat.le_succ _, .refl _⟩
  observe := fun _ _ _ _ _ => .of_same rfl rfl
  observeChanges := fun _ _ _ _ => .of_same rfl rfl
  create := fun _ => ⟨le_rfl, Controllers.extends_create _ _⟩
  call := fun _ _ => ⟨le_rfl, hires.kept _ _ _⟩
  introduce := by
    intro state later factory links grown
    refine ⟨grown.numbering, (Controllers.next_attach _ _).ge.trans' ?_, fun index inside => ?_⟩
    · exact (hires.kept factory state.controllers state.client).next.trans grown.controllers.next
    · have early := hires.kept factory state.controllers state.client
      have apart : index ≠ (site.given factory state).index :=
        (inside.trans_le (hires.fresh factory state.controllers state.client)).ne
      rw [Controllers.get?_attach_of_ne links apart,
        grown.controllers.kept index (inside.trans_le early.next)]
      exact early.kept index inside

/-- A factory is registered for the view, and this is a controller that it may give. -/
def Registry.Gives (registry : Registry)
    (build : Hook → Controllers → Client → ControllerId × Controllers × Client) (name : String)
    (controller : ControllerId) : Prop :=
  ∃ factory, registry.factory? name = some factory ∧
    ∃ controllers client, (build factory controllers client).1 = controller

/-- The roster is right about the views that are built in a place and numbered from `start` on. -/
structure Roster.Covers (roster : Roster) (site : Site Client) (start : Nat) : Prop where
  inherits : roster.inherits = site.config.inheritsController
  given : ∀ id name controller, start ≤ id.index → site.registry.Gives site.build name controller →
    roster.given id name controller
  vacant : ∀ id name, start ≤ id.index → site.registry.factory? name = none → roster.vacant id name
  kept : ∀ (id : BoundId) controller, start ≤ id.index → ¬ roster.lent id controller

namespace Site

open Build BoundForest

variable {site : Site Client} {roster : Roster} {start slot : Nat} {before after : BuildState Client}
  {root : BoundId} {scope : Scope} {outer : ControllerId}

/-! ## What stands beside an element or a directive -/

/-- Nothing but nodes that are no views and have the controller around them. -/
def Plain (outer : ControllerId) (bound : Bindings) : Prop :=
  ∀ entry ∈ bound.entries, entry.2.kind ≠ .view ∧ entry.2.scope.controller = outer

theorem Plain.nil : Plain outer .nil :=
  fun _ member => nomatch member

theorem Plain.append {first second : Bindings} (plain : Plain outer first)
    (also : Plain outer second) : Plain outer (first ++ second) := by
  intro entry member
  rw [Forest.entries_append] at member
  exact (List.mem_append.1 member).elim (plain entry) (also entry)

theorem watch_plain {value : Value} {rest : List String} {watches : Bindings}
    (run : Runs (site.watch root slot scope value rest) before watches after) :
    Plain scope.controller watches := by
  induction rest generalizing value before watches after with
  | nil =>
      simp only [watch, runs_pure] at run
      obtain ⟨rfl, rfl⟩ := run
      exact .nil
  | cons segment rest induction =>
      cases value with
      | model model =>
          simp only [watch, runs_bind, runs_newBound, runs_ask, runs_observe, runs_pure] at run
          obtain ⟨_, _, ⟨rfl, rfl⟩, _, _, ⟨rfl, rfl⟩, deeper, _, inner, _, _, ⟨rfl, rfl⟩, rfl,
            rfl⟩ := run
          intro entry member
          simp only [Forest.entries, List.append_nil, List.mem_cons] at member
          rcases member with rfl | member
          · exact ⟨by rintro ⟨⟩, rfl⟩
          · exact induction inner entry member
      | _ =>
          simp only [watch, runs_pure] at run
          obtain ⟨rfl, rfl⟩ := run
          exact .nil

theorem follow_plain {path : Path} {subscription : Subscription} {watches : Bindings}
    (run : Runs (site.follow root slot scope path) before (subscription, watches) after) :
    Plain scope.controller watches := by
  simp only [follow, runs_bind, runs_ask, runs_observe, runs_pure, Prod.mk.injEq] at run
  obtain ⟨_, _, ⟨rfl, rfl⟩, _, _, inner, _, _, ⟨rfl, rfl⟩, ⟨rfl, rfl⟩, rfl⟩ := run
  exact watch_plain inner

theorem evaluate_plain {expression : Expression} {value : Value} {ledger : List Subscription}
    {watches : Bindings}
    (run : Runs (site.evaluate root slot scope expression) before (value, ledger, watches) after) :
    Plain scope.controller watches := by
  cases expression with
  | literal text =>
      simp only [evaluate, runs_pure, Prod.mk.injEq] at run
      obtain ⟨⟨_, _, rfl⟩, rfl⟩ := run
      exact .nil
  | bound path =>
      simp only [evaluate, runs_bind, runs_ask, runs_pure, Prod.exists, Prod.mk.injEq] at run
      obtain ⟨_, _, ⟨rfl, rfl⟩, _, _, _, followed, ⟨_, _, rfl⟩, rfl⟩ := run
      exact follow_plain followed

theorem attributes_plain {entries : List Attribute} {data made : NodeData}
    {ledger : List Subscription} {watches : Bindings}
    (run : Runs (site.attributes root scope slot entries data) before (made, ledger, watches) after) :
    Plain scope.controller watches := by
  induction entries generalizing slot data before ledger watches with
  | nil =>
      simp only [attributes, runs_pure, Prod.mk.injEq] at run
      obtain ⟨⟨_, _, rfl⟩, rfl⟩ := run
      exact .nil
  | cons entry later induction =>
      obtain ⟨_, _, firstWatches, _, _, _, some, none, others, rfl, rfl⟩ := attributes_cons run
      have step : Plain scope.controller firstWatches := by
        cases shown : entry.display? with
        | none =>
            obtain ⟨_, rfl, _⟩ := none shown
            exact .nil
        | some pair =>
            obtain ⟨_, evaluated, _⟩ := some _ _ shown
            exact evaluate_plain evaluated
      exact step.append (induction others)

/-! ## What is built for a controller -/

/-- Whenever the steps run to their end, what they build stands in ranks under the controller. -/
def Ranks (roster : Roster) (start : Nat) (outer : ControllerId) (steps : Build Client Growth) :
    Prop :=
  ∀ before growth after, Runs steps before growth after → start ≤ before.nextBound →
    outer.index < before.controllers.next → growth.failure = none →
      Ranked (roster.Posted after.controllers) outer growth.bound

theorem text_ranks (site : Site Client) (roster : Roster) (start : Nat) (scope : Scope)
    (content : Expression) : Ranks roster start scope.controller (site.text scope content) := by
  intro before growth after run _ _ _
  simp only [text, runs_bind, runs_newNode, runs_newBound, runs_ask, runs_pure, Prod.exists] at run
  obtain ⟨_, _, ⟨rfl, rfl⟩, _, _, ⟨rfl, rfl⟩, value, ledger, watches, _, evaluated, _, _, ⟨_, rfl⟩,
    rfl, rfl⟩ := run
  exact ⟨.plain (by rintro ⟨⟩) rfl, ranked_of_plain (evaluate_plain evaluated), trivial⟩

section Items

variable {body : Scope → Build Client Growth}
  (bodies : ∀ scope, Ranks roster start scope.controller (body scope))
  (passes : ∀ scope, Respects BuildState.Precedes (body scope))

theorem itemScope_controller (scope : Scope) (value : Value) :
    (itemScope scope value).controller = scope.controller := by
  cases value <;> rfl

include bodies in
theorem item_ranks (scope : Scope) (value : Value) :
    Ranks roster start scope.controller (item body scope value) := by
  intro before growth after run numbered known succeeded
  simp only [item, runs_bind, runs_newBound, runs_pure] at run
  obtain ⟨_, _, ⟨rfl, rfl⟩, inner, _, made, rfl, rfl⟩ := run
  have same := itemScope_controller scope value
  refine ⟨.plain (by rintro ⟨⟩) same, ?_, trivial⟩
  exact bodies _ _ _ _ made (numbered.trans (Nat.le_succ _)) (same ▸ known) succeeded

include bodies passes in
theorem items_ranks (permits : site.Permits BuildState.Precedes) (scope : Scope)
    (values : List Value) : Ranks roster start scope.controller (items body scope values) := by
  induction values with
  | nil =>
      intro before growth after run _ _ _
      simp only [items, runs_pure] at run
      obtain ⟨rfl, rfl⟩ := run
      exact ranked_nil
  | cons value later induction =>
      intro before growth after run numbered known succeeded
      simp only [items, runs_bind] at run
      obtain ⟨first, middle, made, run⟩ := run
      split at run
      · rename_i failed
        simp only [runs_pure] at run
        obtain ⟨rfl, rfl⟩ := run
        simp [succeeded] at failed
      · rename_i fine
        simp only [runs_bind, runs_pure] at run
        obtain ⟨second, _, others, rfl, rfl⟩ := run
        have early := permits.item passes scope value _ _ _ made
        have late := permits.items passes scope later _ _ _ others
        have one := item_ranks bodies scope value _ _ _ made numbered known (by simpa using fine)
        have rest := induction _ _ _ others (numbered.trans early.numbering)
          (known.trans_le early.controllers.next) succeeded
        exact ranked_append.2 ⟨one.extended late.controllers, rest⟩

theorem observeList_same {list : BoundId} {collection : CollectionId} {growth : Growth}
    {ledger : List Subscription}
    (run : Runs (site.observeList list collection growth) before ledger after) :
    after.controllers = before.controllers := by
  unfold observeList at run
  split at run
  · simp only [runs_pure] at run
    rw [run.2]
  · simp only [runs_bind, runs_observeChanges, runs_pure] at run
    obtain ⟨_, _, ⟨rfl, rfl⟩, _, rfl⟩ := run
    rfl

include bodies passes in
theorem list_ranks (permits : site.Permits BuildState.Precedes) (source : List Node) (scope : Scope)
    (collection : CollectionId) :
    Ranks roster start scope.controller (site.list body source scope collection) := by
  intro before growth after run numbered known succeeded
  simp only [list, runs_bind, runs_newNode, runs_newBound, runs_ask, runs_pure] at run
  obtain ⟨_, _, ⟨rfl, rfl⟩, _, _, ⟨rfl, rfl⟩, _, _, ⟨rfl, rfl⟩, inner, middle, made, ledger, _,
    observed, rfl, rfl⟩ := run
  have below := items_ranks bodies passes permits scope _ _ _ _ made
    (numbered.trans (Nat.le_succ _)) known succeeded
  rw [observeList_same observed]
  exact ⟨.plain (by rintro ⟨⟩) rfl, below, trivial⟩

end Items

section Directives

variable {view : Scope → ModelId → String → Build Client Growth}
  {body : Scope → Build Client Growth}
  (views : ∀ scope model name, Ranks roster start scope.controller (view scope model name))
  (bodies : ∀ scope, Ranks roster start scope.controller (body scope))
  (passes : ∀ scope, Respects BuildState.Precedes (body scope))

theorem observeItems_same {switch group : BoundId} {value : Value} {ledger : List Subscription}
    (run : Runs (site.observeItems switch group value) before ledger after) :
    after.nextBound = before.nextBound ∧ after.controllers = before.controllers := by
  cases value with
  | collection collection =>
      simp only [observeItems, runs_bind, runs_observeChanges, runs_pure] at run
      obtain ⟨_, _, ⟨rfl, rfl⟩, rfl, rfl⟩ := run
      exact ⟨rfl, rfl⟩
  | _ =>
      simp only [observeItems, runs_pure] at run
      obtain ⟨rfl, rfl⟩ := run
      exact ⟨rfl, rfl⟩

include views bodies passes in
theorem filling_ranks (permits : site.Permits BuildState.Precedes) {switch group : BoundId}
    {directive : Directive} {scope : Scope} {contents : Contents} {value : Value}
    {ledger : List Subscription} {growth : Growth}
    (run : Runs (site.filling view body switch group directive scope contents value)
      before (ledger, growth) after) (numbered : start ≤ before.nextBound)
    (known : scope.controller.index < before.controllers.next) (succeeded : growth.failure = none) :
    Ranked (roster.Posted after.controllers) scope.controller growth.bound := by
  cases rule : directive.rule with
  | showIf =>
      simp only [filling, rule] at run
      split at run <;> simp only [runs_bind, runs_pure, Prod.mk.injEq] at run
      · obtain ⟨_, _, made, ⟨rfl, rfl⟩, rfl⟩ := run
        exact bodies _ _ _ _ made numbered known succeeded
      · obtain ⟨_, _, ⟨rfl, rfl⟩, ⟨rfl, rfl⟩, rfl⟩ := run
        exact ranked_nil
  | showUnless =>
      simp only [filling, rule] at run
      split at run <;> simp only [runs_bind, runs_pure, Prod.mk.injEq] at run
      · obtain ⟨_, _, ⟨rfl, rfl⟩, ⟨rfl, rfl⟩, rfl⟩ := run
        exact ranked_nil
      · obtain ⟨_, _, made, ⟨rfl, rfl⟩, rfl⟩ := run
        exact bodies _ _ _ _ made numbered known succeeded
  | each =>
      simp only [filling, rule, runs_bind, runs_pure, Prod.mk.injEq] at run
      obtain ⟨_, _, observed, _, _, made, ⟨rfl, rfl⟩, rfl⟩ := run
      obtain ⟨numbers, controllers⟩ := observeItems_same observed
      exact items_ranks bodies passes permits scope _ _ _ _ made (numbers ▸ numbered)
        (controllers ▸ known) succeeded
  | collection =>
      simp only [filling, rule] at run
      split at run
      · simp only [runs_bind, runs_pure, Prod.mk.injEq] at run
        obtain ⟨_, _, made, ⟨rfl, rfl⟩, rfl⟩ := run
        exact list_ranks bodies passes permits _ scope _ _ _ _ made numbered known succeeded
      · simp only [runs_bind, runs_pure, Prod.mk.injEq] at run
        obtain ⟨_, _, made, ⟨rfl, rfl⟩, rfl⟩ := run
        exact items_ranks bodies passes permits scope _ _ _ _ made numbered known succeeded
  | view name =>
      simp only [filling, rule] at run
      split at run
      · simp only [runs_bind, runs_pure, Prod.mk.injEq] at run
        obtain ⟨_, _, made, ⟨rfl, rfl⟩, rfl⟩ := run
        exact views _ _ _ _ _ _ made numbered known succeeded
      · simp only [runs_pure, Prod.mk.injEq] at run
        obtain ⟨⟨rfl, rfl⟩, rfl⟩ := run
        exact ranked_nil

include views bodies passes in
theorem content_ranks (permits : site.Permits BuildState.Precedes) (switch : BoundId)
    (directive : Directive) (scope : Scope) :
    Ranks roster start scope.controller (site.content view body switch directive scope) := by
  intro before growth after run numbered known succeeded
  simp only [content, runs_bind, runs_ask, runs_newBound, runs_pure, Prod.exists] at run
  obtain ⟨_, _, ⟨rfl, rfl⟩, _, _, ⟨rfl, rfl⟩, _, _, ⟨rfl, rfl⟩, ledger, inner, _, made, rfl, rfl⟩ :=
    run
  have below := filling_ranks views bodies passes permits made (numbered.trans (Nat.le_succ _)) known
    succeeded
  exact ⟨.plain (by rintro ⟨⟩) rfl, below, trivial⟩

include views bodies passes in
theorem directive_ranks (permits : site.Permits BuildState.Precedes) (directive : Directive)
    (scope : Scope) :
    Ranks roster start scope.controller (site.directive view body directive scope) := by
  intro before growth after run numbered known succeeded
  simp only [Site.directive, runs_bind, runs_newNode, runs_newBound, runs_ask, runs_pure,
    Prod.exists] at run
  obtain ⟨_, _, ⟨rfl, rfl⟩, _, _, ⟨rfl, rfl⟩, subscription, watches, middle, followed, shown, _,
    ⟨rfl, rfl⟩, inner, _, made, rfl, rfl⟩ := run
  have early := permits.follow _ 0 scope directive.path _ _ _ followed
  have below := content_ranks views bodies passes permits _ directive scope _ _ _ made
    ((numbered.trans (Nat.le_succ _)).trans early.numbering)
    (known.trans_le early.controllers.next) succeeded
  exact ⟨.plain (by rintro ⟨⟩) rfl, ranked_append.2 ⟨ranked_of_plain (follow_plain followed), below⟩,
    trivial⟩

end Directives

section Nodes

variable {view : Scope → ModelId → String → Build Client Growth}

mutual

/-- The case of one node. -/
theorem node_ranks (permits : site.Permits BuildState.Precedes)
    (views : ∀ scope model name, Ranks roster start scope.controller (view scope model name))
    (passes : ∀ scope model name, Respects BuildState.Precedes (view scope model name)) :
    ∀ (source : Node) (scope : Scope),
      Ranks roster start scope.controller (site.node view source scope)
  | .element tag entries children line, scope => by
      intro before growth after run numbered known succeeded
      simp only [node, runs_bind, runs_newNode, runs_newBound, runs_pure, Prod.exists] at run
      obtain ⟨_, _, ⟨rfl, rfl⟩, _, _, ⟨rfl, rfl⟩, data, ledger, watches, middle, listed, inner, _,
        made, rfl, rfl⟩ := run
      have early := permits.attributes _ scope 0 entries _ _ _ _ listed
      have below := nodes_ranks permits views passes children scope _ _ _ made
        ((numbered.trans (Nat.le_succ _)).trans early.numbering)
        (known.trans_le early.controllers.next) succeeded
      exact ⟨.plain (by rintro ⟨⟩) rfl, ranked_append.2 ⟨ranked_of_plain (attributes_plain listed), below⟩,
        trivial⟩
  | .text content, scope => by
      rw [node]
      exact text_ranks site roster start scope content
  | .directive rule path body, scope => by
      rw [node]
      exact directive_ranks views (nodes_ranks permits views passes body)
        (permits.nodes passes body) permits ⟨rule, path, body⟩ scope
  | .view name, scope => by
      rw [node]
      exact views scope scope.model name

/-- The case of nodes in order. -/
theorem nodes_ranks (permits : site.Permits BuildState.Precedes)
    (views : ∀ scope model name, Ranks roster start scope.controller (view scope model name))
    (passes : ∀ scope model name, Respects BuildState.Precedes (view scope model name)) :
    ∀ (sources : List Node) (scope : Scope),
      Ranks roster start scope.controller (site.nodes view sources scope)
  | [], scope => by
      intro before growth after run _ _ _
      simp only [nodes, runs_pure] at run
      obtain ⟨rfl, rfl⟩ := run
      exact ranked_nil
  | first :: later, scope => by
      intro before growth after run numbered known succeeded
      simp only [nodes, runs_bind] at run
      obtain ⟨one, middle, made, run⟩ := run
      split at run
      · rename_i failed
        simp only [runs_pure] at run
        obtain ⟨rfl, rfl⟩ := run
        simp [succeeded] at failed
      · rename_i fine
        simp only [runs_bind, runs_pure] at run
        obtain ⟨rest, _, others, rfl, rfl⟩ := run
        have early := permits.element passes first scope _ _ _ made
        have late := permits.nodes passes later scope _ _ _ others
        have front := node_ranks permits views passes first scope _ _ _ made numbered known
          (by simpa using fine)
        have back := nodes_ranks permits views passes later scope _ _ _ others
          (numbered.trans early.numbering) (known.trans_le early.controllers.next) succeeded
        exact ranked_append.2 ⟨front.extended late.controllers, back⟩

end

end Nodes

/-! ## Views -/

/-- Where the controller of a view comes from: its factory, the enclosing scope, or nowhere. -/
theorem viewController_cases {name : String} {controller : ControllerId} {fresh : Bool}
    (run : Runs (site.viewController scope name) before (controller, fresh) after) :
    (∃ factory, site.registry.factory? name = some factory ∧ fresh = true ∧
        controller = site.given factory before ∧ after = site.called factory before) ∨
      (site.registry.factory? name = none ∧ fresh = false ∧
        (site.config.inheritsController = true ∧ controller = scope.controller ∧ after = before ∨
          site.config.inheritsController = false ∧ controller = ⟨before.controllers.next⟩ ∧
            after = { before with controllers := (before.controllers.create .inert).2 })) := by
  unfold viewController at run
  split at run
  · rename_i factory registered
    simp only [callFactory, runs_bind, runs_modifyGet, runs_pure, Prod.mk.injEq] at run
    obtain ⟨_, _, ⟨rfl, rfl⟩, ⟨rfl, rfl⟩, rfl⟩ := run
    exact .inl ⟨factory, registered, rfl, rfl, rfl⟩
  · rename_i nobody
    refine .inr ⟨nobody, ?_⟩
    split at run
    · rename_i inherits
      simp only [runs_pure, Prod.mk.injEq] at run
      obtain ⟨⟨rfl, rfl⟩, rfl⟩ := run
      exact ⟨rfl, .inl ⟨inherits, rfl, rfl⟩⟩
    · rename_i apart
      simp only [newInert, runs_bind, runs_modifyGet, runs_pure, Prod.mk.injEq] at run
      obtain ⟨_, _, ⟨rfl, rfl⟩, ⟨rfl, rfl⟩, rfl⟩ := run
      exact ⟨rfl, .inr ⟨by simpa using apart, rfl, rfl⟩⟩

/-- An element comes with a piece of document. -/
theorem root_page {view : Scope → ModelId → String → Build Client Growth} {template : Template}
    {growth : Growth} (run : Runs (site.node view template.root scope) before growth after) :
    ∃ dom, growth.page.roots.head? = some dom := by
  simp only [Template.root, node, runs_bind, runs_newNode, runs_newBound, runs_pure, Prod.exists] at run
  obtain ⟨_, _, ⟨rfl, rfl⟩, _, _, ⟨rfl, rfl⟩, data, ledger, watches, middle, listed, inner, _, made,
    rfl, rfl⟩ := run
  exact ⟨_, rfl⟩

/-- A view stands under the controller that it is shown with, and what is in it under the view's own. -/
theorem view_ranks (hires : HiresFresh site.build) (covers : roster.Covers site start) (room : Nat)
    (scope : Scope) (model : ModelId) (name : String) :
    Ranks roster start scope.controller (site.view room scope model name) := by
  have permits := hires.permits
  induction room generalizing scope model name with
  | zero =>
      intro before growth after run _ _ succeeded
      simp only [view, runs_pure] at run
      obtain ⟨rfl, rfl⟩ := run
      cases succeeded
  | succ room induction =>
      intro before growth after run numbered known succeeded
      rw [view] at run
      split at run
      · simp only [runs_pure] at run
        obtain ⟨rfl, rfl⟩ := run
        cases succeeded
      simp only [runs_bind, runs_newBound, runs_pure, Prod.exists] at run
      obtain ⟨controller, fresh, middle, chosen, _, _, ⟨rfl, rfl⟩, inner, shown, made, ⟨⟩, later,
        introduced, rfl, rfl⟩ := run
      obtain ⟨dom, top⟩ := root_page made
      have passed := permits.element (fun scope => permits.view room scope) _ _ _ _ _ made
      have below := node_ranks permits induction (fun scope => permits.view room scope) _
        ⟨model, controller, scope.depth + 1⟩ _ _ _ made
      rcases viewController_cases chosen with ⟨factory, registered, rfl, rfl, rfl⟩ |
        ⟨nobody, rfl, ⟨inherits, rfl, rfl⟩ | ⟨apart, rfl, rfl⟩⟩
      · -- The instance is told of its view, which concerns nobody inside.
        obtain ⟨table, links, acts⟩ := hires.acts factory before.controllers before.client
        have stored := passed.controllers.of_get? acts
        have lower := below (numbered.trans (Nat.le_succ _)) (Store.lt_next_of_get? acts) succeeded
        have fine : inner.failure = none := succeeded
        simp only [introduce, fine, top] at introduced
        obtain rfl : _ = later := congrArg Prod.snd introduced
        have told : (shown.controllers.attach (site.given factory before)
            ⟨model, dom, some scope.controller⟩).get? (site.given factory before).index =
              some (.actions table (some ⟨model, dom, some scope.controller⟩)) := by
          rw [Controllers.attach, Store.get?_modify, if_pos rfl]
          exact congrArg (Option.map _) stored
        refine ⟨.own rfl ?_ told (fun _ => rfl) ?_ ?_, ?_, trivial⟩
        · exact covers.given _ _ _ numbered ⟨factory, registered, _, _, rfl⟩
        · exact fun lent => (covers.kept _ _ numbered lent).elim
        · exact known.trans_le (hires.fresh factory before.controllers before.client)
        · exact lower.mono fun index found later there =>
            (Controllers.get?_attach_of_ne _ later.ne').trans there
      · obtain ⟨_, rfl⟩ := runs_pure.1 introduced
        have lower := below (numbered.trans (Nat.le_succ _)) known succeeded
        exact ⟨.shared rfl (covers.vacant _ _ numbered nobody) (covers.inherits.trans inherits) rfl,
          lower, trivial⟩
      · obtain ⟨_, rfl⟩ := runs_pure.1 introduced
        have stored : (before.controllers.create .inert).2.get? before.controllers.next =
            some .inert := by
          show (before.controllers.add .inert).get? _ = _
          rw [Store.get?_add, if_pos rfl]
        have lower := below (numbered.trans (Nat.le_succ _)) (Store.lt_next_of_get? stored) succeeded
        exact ⟨.closed rfl (covers.vacant _ _ numbered nobody) (covers.inherits.trans apart)
          (passed.controllers.of_get? stored) known, lower, trivial⟩

/-! ## What a site builds for a scope -/

theorem viewIn_passes (hires : HiresFresh site.build) (scope : Scope) (model : ModelId)
    (name : String) : Respects BuildState.Precedes (site.viewIn scope model name) :=
  hires.permits.view _ scope model name

theorem body_passes (hires : HiresFresh site.build) (source : List Node) (scope : Scope) :
    Respects BuildState.Precedes (site.body source scope) :=
  hires.permits.nodes (viewIn_passes hires) source scope

theorem viewIn_ranks (hires : HiresFresh site.build) (covers : roster.Covers site start)
    (scope : Scope) (model : ModelId) (name : String) :
    Ranks roster start scope.controller (site.viewIn scope model name) :=
  view_ranks hires covers _ scope model name

theorem body_ranks (hires : HiresFresh site.build) (covers : roster.Covers site start)
    (source : List Node) (scope : Scope) :
    Ranks roster start scope.controller (site.body source scope) :=
  nodes_ranks hires.permits (viewIn_ranks hires covers) (viewIn_passes hires) source scope

end Site

end LiveTemplate
