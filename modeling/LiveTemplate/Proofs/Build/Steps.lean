import LiveTemplate.Proofs.Build.Runs
import LiveTemplate.Proofs.Reactive.Registration

/-!
# What building does step by step

Building changes its state in a few ways only: it takes numbers, registers observers of the site's
render, gets controllers, and tells those that come from a factory what their view is.  A relation
between states that is closed under these steps relates the states before and after every building.
-/

namespace LiveTemplate

open Template (Node Attribute Expression Path Rule)

namespace Build

variable {Client Result Other : Type} {related : BuildState Client → BuildState Client → Prop}

/-- However the steps run, the states before and after are related. -/
def Respects (related : BuildState Client → BuildState Client → Prop) (steps : Build Client Result) :
    Prop :=
  ∀ before result after, Runs steps before result after → related before after

end Build

open Build

/-- The state after a factory has been called. -/
def Site.called {Client : Type} (site : Site Client) (factory : Hook) (state : BuildState Client) :
    BuildState Client :=
  { state with
    controllers := (site.build factory state.controllers state.client).2.1
    client := (site.build factory state.controllers state.client).2.2 }

/-- The controller that a factory gives. -/
def Site.given {Client : Type} (site : Site Client) (factory : Hook) (state : BuildState Client) :
    ControllerId :=
  (site.build factory state.controllers state.client).1

/-- A relation between states that is closed under the steps of building. -/
structure Site.Permits {Client : Type} (site : Site Client)
    (related : BuildState Client → BuildState Client → Prop) : Prop where
  refl : ∀ state, related state state
  trans : ∀ {first second third}, related first second → related second third → related first third
  node : ∀ state : BuildState Client, related state { state with places := state.places.take }
  bound : ∀ state : BuildState Client, related state { state with nextBound := state.nextBound + 1 }
  observe : ∀ (state : BuildState Client) (model : ModelId) (property : String)
    (observer : PathObserver), observer.render = site.render → related state { state with
      data := (state.data.subscribe model (changeChannel property) (.path observer)).2 }
  observeChanges : ∀ (state : BuildState Client) (collection : CollectionId)
    (observer : ChangeObserver),
    (∃ owner, (Observer.change observer).owner? = some (site.render, owner)) →
      related state { state with data := (state.data.subscribeChanges collection observer).2 }
  create : ∀ state : BuildState Client,
    related state { state with controllers := (state.controllers.create .inert).2 }
  call : ∀ (state : BuildState Client) (factory : Hook), related state (site.called factory state)
  /-- Only controllers from a factory are told of a view, and only after they were got. -/
  introduce : ∀ (state later : BuildState Client) (factory : Hook) (links : ControllerLinks),
    related (site.called factory state) later → related state { later with
      controllers := (later.controllers.attach (site.given factory state) links) }

namespace Site

variable {Client Result Other : Type} {site : Site Client}
  {related : BuildState Client → BuildState Client → Prop}

namespace Permits

theorem pure (permits : site.Permits related) (value : Result) :
    Respects related (Pure.pure value : Build Client Result) := by
  intro before result after run
  obtain ⟨_, rfl⟩ := runs_pure.1 run
  exact permits.refl before

theorem bind (permits : site.Permits related) {steps : Build Client Other}
    {next : Other → Build Client Result} (first : Respects related steps)
    (second : ∀ value, Respects related (next value)) : Respects related (steps >>= next) := by
  intro before result after run
  obtain ⟨value, middle, here, there⟩ := runs_bind.1 run
  exact permits.trans (first _ _ _ here) (second value _ _ _ there)

theorem ask (permits : site.Permits related) {Answer : Type} (question : Data → Answer) :
    Respects related (Build.ask question : Build Client Answer) := by
  intro before result after run
  obtain ⟨_, rfl⟩ := runs_ask.1 run
  exact permits.refl before

theorem newNode (permits : site.Permits related) :
    Respects related (Build.newNode : Build Client NodeId) := by
  intro before result after run
  obtain ⟨_, rfl⟩ := runs_newNode.1 run
  exact permits.node before

theorem newBound (permits : site.Permits related) :
    Respects related (Build.newBound : Build Client BoundId) := by
  intro before result after run
  obtain ⟨_, rfl⟩ := runs_newBound.1 run
  exact permits.bound before

theorem registers (permits : site.Permits related) (model : ModelId) (property : String)
    {observer : PathObserver} (own : observer.render = site.render) :
    Respects related (Build.observe model property observer : Build Client Subscription) := by
  intro before result after run
  obtain ⟨_, rfl⟩ := runs_observe.1 run
  exact permits.observe before model property observer own

theorem registersChanges (permits : site.Permits related) (collection : CollectionId)
    {observer : ChangeObserver}
    (own : ∃ owner, (Observer.change observer).owner? = some (site.render, owner)) :
    Respects related (Build.observeChanges collection observer : Build Client Subscription) := by
  intro before result after run
  obtain ⟨_, rfl⟩ := runs_observeChanges.1 run
  exact permits.observeChanges before collection observer own

variable (permits : site.Permits related)
include permits

theorem watch (root : BoundId) (slot : Nat) (scope : Scope) (value : Value)
    (segments : List String) : Respects related (site.watch root slot scope value segments) := by
  induction segments generalizing value with
  | nil => exact permits.pure _
  | cons segment rest induction =>
      cases value with
      | model model =>
          refine permits.bind permits.newBound fun id => permits.bind (permits.ask _) fun next => ?_
          refine permits.bind (induction next) fun deeper => ?_
          exact permits.bind (permits.registers _ _ rfl) fun _ => permits.pure _
      | _ => exact permits.pure _

theorem follow (root : BoundId) (slot : Nat) (scope : Scope) (path : Path) :
    Respects related (site.follow root slot scope path) := by
  refine permits.bind (permits.ask _) fun value => ?_
  refine permits.bind (permits.watch root slot scope value path.tail) fun watches => ?_
  exact permits.bind (permits.registers _ _ rfl) fun _ => permits.pure _

theorem evaluate (root : BoundId) (slot : Nat) (scope : Scope) (expression : Expression) :
    Respects related (site.evaluate root slot scope expression) := by
  cases expression with
  | literal text => exact permits.pure _
  | bound path =>
      refine permits.bind (permits.ask _) fun value => ?_
      exact permits.bind (permits.follow root slot scope path) fun _ => permits.pure _

theorem attributes (root : BoundId) (scope : Scope) (slot : Nat) (entries : List Attribute)
    (data : NodeData) : Respects related (site.attributes root scope slot entries data) := by
  induction entries generalizing slot data with
  | nil => exact permits.pure _
  | cons entry later induction =>
      cases entry with
      | property name expression | style name expression =>
          refine permits.bind (permits.evaluate root slot scope expression) fun _ => ?_
          refine permits.bind (permits.ask _) fun _ => permits.bind (permits.pure _) fun _ => ?_
          exact permits.bind (induction _ _) fun _ => permits.pure _
      | event name action prevents =>
          exact permits.bind (permits.pure _) fun _ =>
            permits.bind (induction _ _) fun _ => permits.pure _

theorem text (scope : Scope) (content : Expression) :
    Respects related (site.text scope content) := by
  refine permits.bind permits.newNode fun node => permits.bind permits.newBound fun id => ?_
  refine permits.bind (permits.evaluate id 0 scope content) fun _ => ?_
  exact permits.bind (permits.ask _) fun _ => permits.pure _

section Bodies

variable {body : Scope → Build Client Growth} (bodies : ∀ scope, Respects related (body scope))
include bodies

theorem item (scope : Scope) (value : Value) : Respects related (Site.item body scope value) :=
  permits.bind permits.newBound fun _ => permits.bind (bodies _) fun _ => permits.pure _

theorem items (scope : Scope) (values : List Value) :
    Respects related (Site.items body scope values) := by
  induction values with
  | nil => exact permits.pure _
  | cons value later induction =>
      rw [Site.items]
      refine permits.bind (permits.item bodies scope value) fun growth => ?_
      split
      · exact permits.pure _
      · exact permits.bind induction fun _ => permits.pure _

theorem list (source : List Node) (scope : Scope) (collection : CollectionId) :
    Respects related (site.list body source scope collection) := by
  refine permits.bind permits.newNode fun anchor => permits.bind permits.newBound fun id => ?_
  refine permits.bind (permits.ask _) fun values => ?_
  refine permits.bind (permits.items bodies scope values) fun growth => ?_
  refine permits.bind ?_ fun _ => permits.pure _
  rw [Site.observeList]
  split
  · exact permits.pure _
  · exact permits.bind (permits.registersChanges _ ⟨id, rfl⟩) fun _ => permits.pure _

variable {view : Scope → ModelId → String → Build Client Growth}
  (views : ∀ scope model name, Respects related (view scope model name))
include views

theorem filling (switch group : BoundId) (directive : Directive) (scope : Scope)
    (contents : Contents) (value : Value) :
    Respects related (site.filling view body switch group directive scope contents value) := by
  have observed : Respects related (site.observeItems switch group value) := by
    unfold Site.observeItems
    split
    · exact permits.bind (permits.registersChanges _ ⟨group, rfl⟩) fun _ => permits.pure _
    · exact permits.pure _
  unfold Site.filling
  split
  · dsimp only
    split
    · exact permits.bind (bodies scope) fun _ => permits.pure _
    · exact permits.bind (permits.pure _) fun _ => permits.pure _
  · dsimp only
    split
    · exact permits.bind (permits.pure _) fun _ => permits.pure _
    · exact permits.bind (bodies scope) fun _ => permits.pure _
  · refine permits.bind observed fun _ => ?_
    exact permits.bind (permits.items bodies scope _) fun _ => permits.pure _
  · split
    · exact permits.bind (permits.list bodies _ scope _) fun _ => permits.pure _
    · exact permits.bind (permits.items bodies scope _) fun _ => permits.pure _
  · split
    · exact permits.bind (views scope _ _) fun _ => permits.pure _
    · exact permits.pure _

theorem content (switch : BoundId) (directive : Directive) (scope : Scope) :
    Respects related (site.content view body switch directive scope) := by
  refine permits.bind (permits.ask _) fun value => permits.bind (permits.ask _) fun contents => ?_
  refine permits.bind permits.newBound fun id => ?_
  exact permits.bind (permits.filling bodies views switch id directive scope contents value)
    fun _ => permits.pure _

theorem directive (directive : Directive) (scope : Scope) :
    Respects related (site.directive view body directive scope) := by
  refine permits.bind permits.newNode fun anchor => permits.bind permits.newBound fun id => ?_
  refine permits.bind (permits.follow id 0 scope directive.path) fun _ => ?_
  refine permits.bind (permits.ask _) fun shown => ?_
  exact permits.bind (permits.content bodies views id directive scope) fun _ => permits.pure _

end Bodies

section Nodes

variable {view : Scope → ModelId → String → Build Client Growth}

mutual

theorem element (views : ∀ scope model name, Respects related (view scope model name)) :
    ∀ (source : Node) (scope : Scope), Respects related (site.node view source scope)
  | .element tag entries children _, scope => by
      rw [Site.node]
      refine permits.bind permits.newNode fun node => permits.bind permits.newBound fun id => ?_
      refine permits.bind (permits.attributes id scope 0 entries _) fun _ => ?_
      exact permits.bind (nodes views children scope) fun _ => permits.pure _
  | .text content, scope => by
      rw [Site.node]
      exact permits.text scope content
  | .directive rule path body, scope => by
      rw [Site.node]
      exact permits.directive (nodes views body) views ⟨rule, path, body⟩ scope
  | .view name, scope => by
      rw [Site.node]
      exact views scope scope.model name

theorem nodes (views : ∀ scope model name, Respects related (view scope model name)) :
    ∀ (sources : List Node) (scope : Scope), Respects related (site.nodes view sources scope)
  | [], scope => by
      rw [Site.nodes]
      exact permits.pure _
  | first :: later, scope => by
      rw [Site.nodes]
      refine permits.bind (element views first scope) fun growth => ?_
      split
      · exact permits.pure _
      · exact permits.bind (nodes views later scope) fun _ => permits.pure _

end

end Nodes

/-- The controller of a view is got first and told of the view last. -/
theorem view (room : Nat) (scope : Scope) (model : ModelId) (name : String) :
    Respects related (site.view room scope model name) := by
  induction room generalizing scope model name with
  | zero => exact permits.pure _
  | succ room induction =>
      intro before result after run
      rw [Site.view] at run
      split at run
      · exact permits.pure _ _ _ _ run
      · rename_i template _
        simp only [runs_bind, runs_newBound, runs_pure, Prod.exists] at run
        obtain ⟨controller, fresh, middle, chosen, _, _, ⟨rfl, rfl⟩, growth, shown, made, ⟨⟩, after,
          introduced, rfl, rfl⟩ := run
        have grown := permits.trans (permits.bound middle)
          (permits.element induction template.root _ _ _ _ made)
        unfold viewController at chosen
        split at chosen
        · rename_i factory _
          simp only [callFactory, runs_bind, runs_modifyGet, runs_pure, Prod.mk.injEq] at chosen
          obtain ⟨_, _, ⟨rfl, rfl⟩, ⟨rfl, rfl⟩, rfl⟩ := chosen
          unfold Site.introduce at introduced
          split at introduced
          · obtain rfl : _ = after := congrArg Prod.snd introduced
            exact permits.introduce before shown factory _ grown
          · obtain ⟨_, rfl⟩ := runs_pure.1 introduced
            exact permits.trans (permits.call before factory) grown
        · have plain : fresh = false ∧ related before middle := by
            split at chosen
            · obtain ⟨same, rfl⟩ := runs_pure.1 chosen
              exact ⟨(Prod.mk.inj same).2.symm, permits.refl before⟩
            · simp only [newInert, runs_bind, runs_modifyGet, runs_pure, Prod.mk.injEq] at chosen
              obtain ⟨_, _, ⟨_, rfl⟩, ⟨_, same⟩, rfl⟩ := chosen
              exact ⟨same.symm, permits.create before⟩
          obtain ⟨rfl, related⟩ := plain
          obtain ⟨_, rfl⟩ := runs_pure.1 introduced
          exact permits.trans related grown

end Permits

end Site

end LiveTemplate
