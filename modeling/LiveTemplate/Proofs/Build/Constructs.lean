import LiveTemplate.Proofs.Build.Growing

/-!
# What each construct makes

Every building step of a site grows something for the site's render.  The statements follow the
definitions one by one; views are a parameter until the last section, where they are built by
recursion on the room that is left.
-/

namespace LiveTemplate

open Template (Node Attribute Expression Path Rule)

namespace Data

theorem Refers.model_lt {data : Data} {id : ModelId} (refers : data.Refers (.model id)) :
    id.index < data.models.next := by
  cases refers with
  | model inside => exact inside

theorem Refers.collection_lt {data : Data} {id : CollectionId}
    (refers : data.Refers (.collection id)) : id.index < data.collections.next := by
  cases refers with
  | collection inside => exact inside

theorem Refers.item {data : Data} {items : List Value} (refers : data.Refers (.list items))
    {item : Value} (member : item ∈ items) : data.Refers item := by
  cases refers with
  | list inside => exact inside item member

theorem Sound.resolveRaw_refers {data : Data} (sound : data.Sound) (id : ModelId)
    (path : Path) : data.Refers (data.resolveRaw id path) := by
  unfold resolveRaw
  split
  · exact sound.values _ _
  · exact .null

end Data

/-- What an entry of an element shows, and where. -/
def Template.Attribute.display? : Attribute → Option (Display × Expression)
  | .property name expression => some (.attribute name, expression)
  | .style name expression => some (.style name, expression)
  | .event .. => none

namespace Site

open Build

variable {Client : Type} {site : Site Client} {before after : BuildState Client} {root : BoundId}
  {slot : Nat} {scope : Scope}

/-- Nothing but watching nodes at the top. -/
def OnlyWatches (bound : Bindings) : Prop :=
  ∀ entry ∈ bound.crown, entry.2.kind = .watch

theorem OnlyWatches.nil : OnlyWatches .nil := by
  simp [OnlyWatches, Forest.crown]

theorem OnlyWatches.append {first second : Bindings} (watches : OnlyWatches first)
    (also : OnlyWatches second) : OnlyWatches (first ++ second) := by
  intro entry member
  rw [Forest.crown_append] at member
  rcases List.mem_append.1 member with early | late
  · exact watches entry early
  · exact also entry late

theorem OnlyWatches.filter_eq_nil {bound : Bindings} (watches : OnlyWatches bound) :
    (bound.crown.filter fun entry => entry.2.kind != .watch) = [] := by
  refine List.filter_eq_nil_iff.2 fun entry member => ?_
  simp [watches entry member]

theorem watch_grows {value : Value} {rest : List String} {watches : Bindings}
    (run : Runs (site.watch root slot scope value rest) before watches after)
    (sound : before.data.Sound) (refers : before.data.Refers value) :
    Grows site.render before after [] .nil watches ∧ OnlyWatches watches := by
  induction rest generalizing value before watches after with
  | nil =>
      simp only [watch, runs_pure] at run
      obtain ⟨rfl, rfl⟩ := run
      exact ⟨.refl .., .nil⟩
  | cons segment rest induction =>
      cases value with
      | model model =>
          simp only [watch, runs_bind, runs_newBound, runs_ask, runs_observe, runs_pure] at run
          obtain ⟨_, _, ⟨rfl, rfl⟩, _, _, ⟨rfl, rfl⟩, deeper, middle, inner, _, _, ⟨rfl, rfl⟩, rfl,
            rfl⟩ := run
          obtain ⟨grows, _⟩ := induction inner sound (sound.values model segment)
          have inside := refers.model_lt
          have inMiddle : model.index < middle.data.models.next := by
            rw [grows.agrees.models]
            exact inside
          have registered := grows_registration site.render middle ⟨before.nextBound⟩
            (Data.subscribe_registers (changeChannel segment)
              (.path ⟨site.render, ⟨before.nextBound⟩, root, slot, rest⟩) inMiddle) rfl
          have both := grows.trans registered
          rw [Forest.append_nil, Forest.append_nil] at both
          refine ⟨both.within rfl rfl inside ⟨rfl, grows.shape.symm⟩, ?_⟩
          simp [OnlyWatches, Forest.crown, BoundNode.kind, HasBoundKind.kind, Part.kind]
      | _ =>
          simp only [watch, runs_pure] at run
          obtain ⟨rfl, rfl⟩ := run
          exact ⟨.refl .., .nil⟩

theorem follow_grows {path : Path} {subscription : Subscription} {watches : Bindings}
    (run : Runs (site.follow root slot scope path) before (subscription, watches) after)
    (sound : before.data.Sound) (inside : scope.model.index < before.data.models.next) :
    Grows site.render before after [(subscription, root)] .nil watches ∧ OnlyWatches watches := by
  simp only [follow, runs_bind, runs_ask, runs_observe, runs_pure, Prod.mk.injEq] at run
  obtain ⟨_, _, ⟨rfl, rfl⟩, _, middle, inner, _, _, ⟨rfl, rfl⟩, ⟨rfl, rfl⟩, rfl⟩ := run
  obtain ⟨grows, only⟩ := watch_grows inner sound (sound.values scope.model path.head)
  have inMiddle : scope.model.index < middle.data.models.next := by
    rw [grows.agrees.models]
    exact inside
  have registered := grows_registration site.render middle root
    (Data.subscribe_registers (changeChannel path.head)
      (.path ⟨site.render, root, root, slot, path.tail⟩) inMiddle) rfl
  have both := grows.trans registered
  rw [Forest.append_nil, Forest.append_nil] at both
  exact ⟨both, only⟩

theorem evaluate_grows {expression : Expression} {value : Value} {ledger : List Subscription}
    {watches : Bindings}
    (run : Runs (site.evaluate root slot scope expression) before (value, ledger, watches) after)
    (sound : before.data.Sound) (inside : scope.model.index < before.data.models.next) :
    Grows site.render before after (ledger.map fun subscription => (subscription, root)) .nil
      watches ∧ OnlyWatches watches := by
  cases expression with
  | literal text =>
      simp only [evaluate, runs_pure, Prod.mk.injEq] at run
      obtain ⟨⟨_, rfl, rfl⟩, rfl⟩ := run
      exact ⟨.refl .., .nil⟩
  | bound path =>
      simp only [evaluate, runs_bind, runs_ask, runs_pure, Prod.mk.injEq, Prod.exists] at run
      obtain ⟨_, _, ⟨_, rfl⟩, subscription, _, _, inner, ⟨_, rfl, rfl⟩, rfl⟩ := run
      exact follow_grows inner sound inside

/-- The first entry is built, then the others. -/
theorem attributes_cons {entry : Attribute} {later : List Attribute} {data made : NodeData}
    {ledger : List Subscription} {watches : Bindings}
    (run : Runs (site.attributes root scope slot (entry :: later) data) before
      (made, ledger, watches) after) :
    ∃ next first firstWatches middle rest restWatches,
      (∀ display expression, entry.display? = some (display, expression) → ∃ value,
        Runs (site.evaluate root slot scope expression) before (value, first, firstWatches) middle ∧
          next = display.show middle.data.contents value data) ∧
      (entry.display? = none → first = [] ∧ firstWatches = .nil ∧ middle = before ∧
        ∃ event, next = data.listen event (.action site.render root slot)) ∧
      Runs (site.attributes root scope (slot + 1) later next) middle (made, rest, restWatches) after ∧
      ledger = first ++ rest ∧ watches = firstWatches ++ restWatches := by
  cases entry with
  | property name expression =>
      simp only [attributes, runs_bind, runs_ask, runs_pure, Prod.exists, Prod.mk.injEq] at run
      obtain ⟨_, first, firstWatches, middle, evaluated, _, _, ⟨rfl, rfl⟩, _, _, _, _,
        ⟨⟨rfl, rfl, rfl⟩, rfl⟩, _, rest, restWatches, _, others, ⟨rfl, rfl, rfl⟩, rfl⟩ := run
      refine ⟨_, first, firstWatches, middle, rest, restWatches, ?_, ?_, others, rfl, rfl⟩
      · intro display expression shown
        cases shown
        exact ⟨_, evaluated, rfl⟩
      · intro shown
        cases shown
  | style name expression =>
      simp only [attributes, runs_bind, runs_ask, runs_pure, Prod.exists, Prod.mk.injEq] at run
      obtain ⟨_, first, firstWatches, middle, evaluated, _, _, ⟨rfl, rfl⟩, _, _, _, _,
        ⟨⟨rfl, rfl, rfl⟩, rfl⟩, _, rest, restWatches, _, others, ⟨rfl, rfl, rfl⟩, rfl⟩ := run
      refine ⟨_, first, firstWatches, middle, rest, restWatches, ?_, ?_, others, rfl, rfl⟩
      · intro display expression shown
        cases shown
        exact ⟨_, evaluated, rfl⟩
      · intro shown
        cases shown
  | event name action prevents =>
      simp only [attributes, runs_bind, runs_pure, Prod.exists, Prod.mk.injEq] at run
      obtain ⟨_, _, _, _, ⟨⟨rfl, rfl, rfl⟩, rfl⟩, _, rest, restWatches, _, others,
        ⟨rfl, rfl, rfl⟩, rfl⟩ := run
      refine ⟨_, [], .nil, before, rest, restWatches, ?_, fun _ => ⟨rfl, rfl, rfl, name, rfl⟩,
        others, rfl, rfl⟩
      intro display expression shown
      cases shown

theorem attributes_grows {entries : List Attribute} {data made : NodeData}
    {ledger : List Subscription} {watches : Bindings}
    (run : Runs (site.attributes root scope slot entries data) before (made, ledger, watches) after)
    (sound : before.data.Sound) (inside : scope.model.index < before.data.models.next) :
    Grows site.render before after (ledger.map fun subscription => (subscription, root)) .nil
      watches ∧ OnlyWatches watches := by
  induction entries generalizing slot data before ledger watches with
  | nil =>
      simp only [attributes, runs_pure, Prod.mk.injEq] at run
      obtain ⟨⟨_, rfl, rfl⟩, rfl⟩ := run
      exact ⟨.refl .., .nil⟩
  | cons entry later induction =>
      obtain ⟨_, first, firstWatches, middle, rest, restWatches, some, none, others, rfl, rfl⟩ :=
        attributes_cons run
      have step : Grows site.render before middle
          (first.map fun subscription => (subscription, root)) .nil firstWatches ∧
            OnlyWatches firstWatches := by
        cases shown : entry.display? with
        | none =>
            obtain ⟨rfl, rfl, rfl, _⟩ := none shown
            exact ⟨.refl .., .nil⟩
        | some pair =>
            obtain ⟨_, evaluated, _⟩ := some _ _ shown
            exact evaluate_grows evaluated sound inside
      obtain ⟨grows, only⟩ := step
      have inMiddle : scope.model.index < middle.data.models.next := by
        rw [grows.agrees.models]
        exact inside
      obtain ⟨more, also⟩ := induction others (grows.sound sound) inMiddle
      have both := grows.trans more
      rw [Forest.append_nil, ← List.map_append] at both
      exact ⟨both, only.append also⟩

/-- Whenever the steps run for a model that is there, they grow something for the render. -/
def Grower (render : RenderId) (model : ModelId) (steps : Build Client Growth) : Prop :=
  ∀ before growth after, Runs steps before growth after → before.data.Sound →
    model.index < before.data.models.next → Grows render before after [] growth.page growth.bound

theorem text_grows (site : Site Client) (scope : Scope) (content : Expression) :
    Grower site.render scope.model (site.text scope content) := by
  intro before growth after run sound inside
  simp only [text, runs_bind, runs_newNode, runs_newBound, runs_ask, runs_pure, Prod.exists] at run
  obtain ⟨_, _, ⟨rfl, rfl⟩, _, _, ⟨rfl, rfl⟩, value, ledger, watches, _, evaluated, _, _, ⟨_, rfl⟩,
    rfl, rfl⟩ := run
  obtain ⟨grows, _⟩ := evaluate_grows evaluated sound inside
  exact grows.under rfl inside ⟨rfl, grows.shape.symm⟩ rfl rfl

section Items

variable {body : Scope → Build Client Growth}

theorem itemScope_lt {data : Data} {value : Value} (refers : data.Refers value)
    (inside : scope.model.index < data.models.next) :
    (itemScope scope value).model.index < data.models.next := by
  unfold itemScope
  split
  · exact refers.model_lt
  · exact inside

theorem itemsOf_refers {data : Data} {value : Value} (sound : data.Sound)
    (refers : data.Refers value) : ∀ item ∈ itemsOf data.contents value, data.Refers item := by
  intro item member
  unfold itemsOf at member
  split at member
  · exact refers.item member
  · rw [Data.contents_items] at member
    exact sound.items _ item member
  · split at member
    · rwa [List.mem_singleton.1 member]
    · simp at member

theorem item_grows {value : Value} {growth : Growth}
    (grower : ∀ scope, Grower site.render scope.model (body scope))
    (run : Runs (item body scope value) before growth after) (sound : before.data.Sound)
    (inside : scope.model.index < before.data.models.next) (refers : before.data.Refers value) :
    Grows site.render before after [] growth.page growth.bound := by
  simp only [item, runs_bind, runs_newBound, runs_pure] at run
  obtain ⟨_, _, ⟨rfl, rfl⟩, inner, _, made, rfl, rfl⟩ := run
  have there := itemScope_lt refers inside
  exact (grower _ _ inner _ made sound there).within rfl rfl there rfl

theorem items_grows {values : List Value} {growth : Growth}
    (grower : ∀ scope, Grower site.render scope.model (body scope))
    (run : Runs (items body scope values) before growth after) (sound : before.data.Sound)
    (inside : scope.model.index < before.data.models.next)
    (refers : ∀ value ∈ values, before.data.Refers value) :
    Grows site.render before after [] growth.page growth.bound := by
  induction values generalizing before growth with
  | nil =>
      simp only [items, runs_pure] at run
      obtain ⟨rfl, rfl⟩ := run
      exact .refl ..
  | cons value later induction =>
      simp only [items, runs_bind] at run
      obtain ⟨first, middle, made, run⟩ := run
      have grows := item_grows grower made sound inside (refers value (by simp))
      split at run
      · simp only [runs_pure] at run
        obtain ⟨rfl, rfl⟩ := run
        exact grows
      · simp only [runs_bind, runs_pure] at run
        obtain ⟨second, _, others, rfl, rfl⟩ := run
        have inMiddle : scope.model.index < middle.data.models.next := by
          rw [grows.agrees.models]
          exact inside
        have rest := induction others (grows.sound sound) inMiddle fun other member =>
          grows.agrees.refers.2 (refers other (List.mem_cons_of_mem _ member))
        exact grows.trans rest

theorem observeList_grows {list : BoundId} {collection : CollectionId} {growth : Growth}
    {ledger : List Subscription}
    (run : Runs (site.observeList list collection growth) before ledger after)
    (there : collection.index < before.data.collections.next) :
    Grows site.render before after (ledger.map fun subscription => (subscription, list)) .nil
      .nil := by
  unfold observeList at run
  split at run
  · simp only [runs_pure] at run
    obtain ⟨rfl, rfl⟩ := run
    exact .refl ..
  · simp only [runs_bind, runs_observeChanges, runs_pure] at run
    obtain ⟨_, _, ⟨rfl, rfl⟩, rfl, rfl⟩ := run
    exact grows_registration site.render before list
      (Data.subscribeChanges_registers (.splice site.render list) there) rfl

theorem list_grows {source : List Node} {collection : CollectionId} {growth : Growth}
    (grower : ∀ scope, Grower site.render scope.model (body scope))
    (run : Runs (site.list body source scope collection) before growth after)
    (sound : before.data.Sound) (inside : scope.model.index < before.data.models.next)
    (there : collection.index < before.data.collections.next) :
    Grows site.render before after [] growth.page growth.bound := by
  simp only [list, runs_bind, runs_newNode, runs_newBound, runs_ask, runs_pure] at run
  obtain ⟨_, _, ⟨rfl, rfl⟩, _, _, ⟨rfl, rfl⟩, _, _, ⟨rfl, rfl⟩, inner, middle, made, ledger, _,
    observed, rfl, rfl⟩ := run
  have grows := items_grows grower made sound inside fun value member =>
    sound.items collection value (by rwa [← Data.contents_items])
  have both := grows.trans (observeList_grows observed (grows.agrees.collections.symm ▸ there))
  rw [Forest.append_nil, Forest.append_nil] at both
  exact both.under rfl inside rfl rfl rfl

end Items

section Directives

variable {view : Scope → ModelId → String → Build Client Growth}
  {body : Scope → Build Client Growth}

theorem observeItems_grows {switch group : BoundId} {value : Value} {ledger : List Subscription}
    (run : Runs (site.observeItems switch group value) before ledger after)
    (refers : before.data.Refers value) :
    Grows site.render before after (ledger.map fun subscription => (subscription, group)) .nil
      .nil := by
  cases value with
  | collection collection =>
      simp only [observeItems, runs_bind, runs_observeChanges, runs_pure] at run
      obtain ⟨_, _, ⟨rfl, rfl⟩, rfl, rfl⟩ := run
      exact grows_registration site.render before group
        (Data.subscribeChanges_registers (.rebuild site.render group switch) refers.collection_lt)
        rfl
  | _ =>
      simp only [observeItems, runs_pure] at run
      obtain ⟨rfl, rfl⟩ := run
      exact .refl ..

theorem filling_grows {switch group : BoundId} {directive : Directive} {value : Value}
    {contents : Contents} {ledger : List Subscription} {growth : Growth}
    (views : ∀ scope model name, Grower site.render model (view scope model name))
    (grower : ∀ scope, Grower site.render scope.model (body scope))
    (run : Runs (site.filling view body switch group directive scope contents value)
      before (ledger, growth) after)
    (current : contents = before.data.contents)
    (sound : before.data.Sound) (inside : scope.model.index < before.data.models.next)
    (refers : before.data.Refers value) :
    Grows site.render before after (ledger.map fun subscription => (subscription, group))
      growth.page growth.bound := by
  subst current
  have listed := itemsOf_refers sound refers
  cases rule : directive.rule with
  | showIf =>
      simp only [filling, rule] at run
      split at run <;> simp only [runs_bind, runs_pure, Prod.mk.injEq] at run
      · obtain ⟨_, _, made, ⟨rfl, rfl⟩, rfl⟩ := run
        exact grower _ _ _ _ made sound inside
      · obtain ⟨_, _, ⟨rfl, rfl⟩, ⟨rfl, rfl⟩, rfl⟩ := run
        exact .refl ..
  | showUnless =>
      simp only [filling, rule] at run
      split at run <;> simp only [runs_bind, runs_pure, Prod.mk.injEq] at run
      · obtain ⟨_, _, ⟨rfl, rfl⟩, ⟨rfl, rfl⟩, rfl⟩ := run
        exact .refl ..
      · obtain ⟨_, _, made, ⟨rfl, rfl⟩, rfl⟩ := run
        exact grower _ _ _ _ made sound inside
  | each =>
      simp only [filling, rule, runs_bind, runs_pure, Prod.mk.injEq] at run
      obtain ⟨_, _, observed, _, _, made, ⟨rfl, rfl⟩, rfl⟩ := run
      have first := observeItems_grows observed refers
      have rest := items_grows grower made (first.sound sound)
        (first.agrees.models.symm ▸ inside) fun item member =>
          first.agrees.refers.2 (listed item member)
      simpa using first.trans rest
  | collection =>
      simp only [filling, rule] at run
      split at run
      · simp only [runs_bind, runs_pure, Prod.mk.injEq] at run
        obtain ⟨_, _, made, ⟨rfl, rfl⟩, rfl⟩ := run
        exact list_grows grower made sound inside refers.collection_lt
      · simp only [runs_bind, runs_pure, Prod.mk.injEq] at run
        obtain ⟨_, _, made, ⟨rfl, rfl⟩, rfl⟩ := run
        exact items_grows grower made sound inside listed
  | view name =>
      simp only [filling, rule] at run
      split at run
      · simp only [runs_bind, runs_pure, Prod.mk.injEq] at run
        obtain ⟨_, _, made, ⟨rfl, rfl⟩, rfl⟩ := run
        exact views _ _ _ _ _ _ made sound refers.model_lt
      · simp only [runs_pure, Prod.mk.injEq] at run
        obtain ⟨⟨rfl, rfl⟩, rfl⟩ := run
        exact .refl ..

/-- What a directive shows is a single group. -/
theorem content_grows {switch : BoundId} {directive : Directive} {growth : Growth}
    (views : ∀ scope model name, Grower site.render model (view scope model name))
    (grower : ∀ scope, Grower site.render scope.model (body scope))
    (run : Runs (site.content view body switch directive scope) before growth after)
    (sound : before.data.Sound) (inside : scope.model.index < before.data.models.next) :
    Grows site.render before after [] growth.page growth.bound ∧
      ∃ ledger below, growth.bound =
        .cons ⟨before.nextBound⟩ { part := .group, ledger, scope } below .nil := by
  simp only [content, runs_bind, runs_ask, runs_newBound, runs_pure, Prod.exists] at run
  obtain ⟨_, _, ⟨rfl, rfl⟩, _, _, ⟨rfl, rfl⟩, _, _, ⟨rfl, rfl⟩, ledger, inner, _, made, rfl, rfl⟩ :=
    run
  have grows := filling_grows views grower made rfl sound inside (sound.resolveRaw_refers ..)
  exact ⟨grows.within rfl rfl inside rfl, ledger, inner.bound, rfl⟩

theorem directive_grows {directive : Directive} {growth : Growth}
    (views : ∀ scope model name, Grower site.render model (view scope model name))
    (grower : ∀ scope, Grower site.render scope.model (body scope))
    (run : Runs (site.directive view body directive scope) before growth after)
    (sound : before.data.Sound) (inside : scope.model.index < before.data.models.next) :
    Grows site.render before after [] growth.page growth.bound := by
  simp only [Site.directive, runs_bind, runs_newNode, runs_newBound, runs_ask, runs_pure,
    Prod.exists] at run
  obtain ⟨_, _, ⟨rfl, rfl⟩, _, _, ⟨rfl, rfl⟩, subscription, watches, middle, followed, shown, _,
    ⟨rfl, rfl⟩, inner, _, made, rfl, rfl⟩ := run
  obtain ⟨grows, only⟩ := follow_grows followed sound inside
  have inMiddle : scope.model.index < middle.data.models.next := by
    rw [grows.agrees.models]
    exact inside
  obtain ⟨more, ledger, below, single⟩ :=
    content_grows views grower made (grows.sound sound) inMiddle
  refine (grows.trans more).under rfl inside ?_ rfl rfl
  refine ⟨rfl, ?_⟩
  rw [single, Forest.crown_append, List.filter_append, only.filter_eq_nil, List.nil_append]
  exact List.length_filter_le _ _

end Directives

section Nodes

variable {view : Scope → ModelId → String → Build Client Growth}

mutual

/-- The case of one node. -/
theorem node_grows (site : Site Client)
    (views : ∀ scope model name, Grower site.render model (view scope model name)) :
    ∀ (source : Node) (scope : Scope), Grower site.render scope.model (site.node view source scope)
  | .element tag entries children line, scope => by
      intro before growth after run sound inside
      simp only [node, runs_bind, runs_newNode, runs_newBound, runs_pure, Prod.exists] at run
      obtain ⟨_, _, ⟨rfl, rfl⟩, _, _, ⟨rfl, rfl⟩, data, ledger, watches, middle, listed, inner, _,
        made, rfl, rfl⟩ := run
      obtain ⟨grows, _⟩ := attributes_grows listed sound inside
      have inMiddle : scope.model.index < middle.data.models.next := by
        rw [grows.agrees.models]
        exact inside
      have below := nodes_grows site views children scope _ _ _ made (grows.sound sound) inMiddle
      have both := grows.trans below
      rw [List.append_nil, Forest.nil_append] at both
      exact both.under rfl inside rfl (by simp) rfl
  | .text content, scope => by
      intro before growth after run
      rw [node] at run
      exact text_grows site scope content before growth after run
  | .directive rule path body, scope => by
      intro before growth after run sound inside
      rw [node] at run
      exact directive_grows views (nodes_grows site views body) run sound inside
  | .view name, scope => by
      intro before growth after run
      rw [node] at run
      exact views scope scope.model name before growth after run

/-- The case of a sequence of nodes. -/
theorem nodes_grows (site : Site Client)
    (views : ∀ scope model name, Grower site.render model (view scope model name)) :
    ∀ (sources : List Node) (scope : Scope),
      Grower site.render scope.model (site.nodes view sources scope)
  | [], scope => by
      intro before growth after run _ _
      simp only [nodes, runs_pure] at run
      obtain ⟨rfl, rfl⟩ := run
      exact .refl ..
  | first :: later, scope => by
      intro before growth after run sound inside
      simp only [nodes, runs_bind] at run
      obtain ⟨growth, middle, made, run⟩ := run
      have grows := node_grows site views first scope _ _ _ made sound inside
      split at run
      · simp only [runs_pure] at run
        obtain ⟨rfl, rfl⟩ := run
        exact grows
      · simp only [runs_bind, runs_pure] at run
        obtain ⟨second, _, others, rfl, rfl⟩ := run
        have inMiddle : scope.model.index < middle.data.models.next := by
          rw [grows.agrees.models]
          exact inside
        exact grows.trans
          (nodes_grows site views later scope _ _ _ others (grows.sound sound) inMiddle)

end

/-- An element stands at the top of what it makes. -/
theorem node_element_root {tag : String} {entries : List Attribute} {children : List Node}
    {line : Nat} {growth : Growth}
    (run : Runs (site.node view (.element tag entries children line) scope) before growth after) :
    ∃ ledger below, growth.bound = .cons ⟨before.nextBound⟩
      { part := .element entries, dom := some before.places.next, ledger, scope } below .nil := by
  simp only [node, runs_bind, runs_newNode, runs_newBound, runs_pure, Prod.exists] at run
  obtain ⟨_, _, ⟨rfl, rfl⟩, _, _, ⟨rfl, rfl⟩, data, ledger, watches, middle, listed, inner, _,
    made, rfl, rfl⟩ := run
  exact ⟨ledger, watches ++ inner.bound, rfl⟩

end Nodes

theorem viewController_grows {name : String} {result : ControllerId × Bool}
    (run : Runs (site.viewController scope name) before result after) :
    Grows site.render before after [] .nil .nil := by
  unfold viewController at run
  split at run
  · simp only [callFactory, runs_bind, runs_modifyGet, runs_pure, Prod.mk.injEq] at run
    obtain ⟨_, _, ⟨_, rfl⟩, _, rfl⟩ := run
    exact .of_same rfl rfl rfl
  · split at run
    · simp only [runs_pure] at run
      obtain ⟨_, rfl⟩ := run
      exact .refl ..
    · simp only [newInert, runs_bind, runs_modifyGet, runs_pure, Prod.mk.injEq] at run
      obtain ⟨_, _, ⟨_, rfl⟩, _, rfl⟩ := run
      exact .of_same rfl rfl rfl

theorem introduce_grows {fresh : Bool} {controller parent : ControllerId} {model : ModelId}
    {growth : Growth}
    (run : Runs (introduce fresh controller model parent growth) before () after) :
    Grows site.render before after [] .nil .nil := by
  unfold introduce at run
  split at run
  · obtain rfl : _ = after := congrArg Prod.snd run
    exact .of_same rfl rfl rfl
  · simp only [runs_pure] at run
    obtain ⟨_, rfl⟩ := run
    exact .refl ..

theorem view_grows (site : Site Client) (room : Nat) (scope : Scope) (model : ModelId)
    (name : String) : Grower site.render model (site.view room scope model name) := by
  induction room generalizing scope model name with
  | zero =>
      intro before growth after run _ _
      simp only [view, runs_pure] at run
      obtain ⟨rfl, rfl⟩ := run
      exact .refl ..
  | succ room induction =>
      intro before growth after run sound inside
      rw [view] at run
      split at run
      · simp only [runs_pure] at run
        obtain ⟨rfl, rfl⟩ := run
        exact .refl ..
      · simp only [runs_bind, runs_newBound, runs_pure, Prod.exists] at run
        obtain ⟨controller, fresh, middle, chosen, _, _, ⟨rfl, rfl⟩, inner, shown, made, ⟨⟩, _,
          introduced, rfl, rfl⟩ := run
        have first := viewController_grows chosen
        have inMiddle : model.index < middle.data.models.next := by
          rw [first.agrees.models]
          exact inside
        have grows := node_grows site (fun scope model name => induction scope model name) _
          ⟨model, controller, scope.depth + 1⟩ _ _ _ made (first.sound sound) inMiddle
        have both := grows.trans (introduce_grows introduced)
        rw [List.append_nil, Forest.append_nil, Forest.append_nil] at both
        exact first.trans (both.within rfl rfl inMiddle rfl)

end Site

end LiveTemplate
