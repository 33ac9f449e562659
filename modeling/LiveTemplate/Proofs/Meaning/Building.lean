import LiveTemplate.Proofs.Build.Constructs
import LiveTemplate.Proofs.Meaning.Picture

/-!
# Building draws the picture

What building makes is the picture of the template, and building fails exactly where there is none.
The data is read in between registrations, which do not change what is read.
-/

namespace LiveTemplate

open Template (Node Attribute Expression Path Rule)
open BoundForest (ledger)

@[simp] theorem Forest.seen_append {Name : Type} (first second : Forest Name NodeData) :
    (first ++ second).seen = first.seen ++ second.seen := by
  induction first with
  | nil => rfl
  | cons name data children rest _ induction => simp [Forest.seen, induction]

namespace BoundForest

/-- Where the registrations were made. -/
def sources (bound : Bindings) : List Source :=
  (ledger bound).map (·.source)

@[simp] theorem sources_nil : sources .nil = [] := rfl

@[simp] theorem sources_cons (id : BoundId) (node : BoundNode Part) (children rest : Bindings) :
    sources (.cons id node children rest) =
      node.ledger.map (·.source) ++ (sources children ++ sources rest) := by
  simp [sources, ledger, Forest.entries]

@[simp] theorem sources_append (first second : Bindings) :
    sources (first ++ second) = sources first ++ sources second := by
  simp [sources, ledger]

end BoundForest

open BoundForest (sources)

namespace Growth

/-- The picture of what has been built, if nothing failed. -/
def picture? (growth : Growth) : Option Picture :=
  match growth.failure with
  | none => some ⟨growth.page.seen, sources growth.bound⟩
  | some _ => none

@[simp] theorem picture?_of_failure {growth : Growth} (failed : growth.failure.isSome = true) :
    growth.picture? = none := by
  obtain ⟨error, equal⟩ := Option.isSome_iff_exists.1 failed
  simp [picture?, equal]

theorem picture?_of_success {growth : Growth} (success : growth.failure = none) :
    growth.picture? = some ⟨growth.page.seen, sources growth.bound⟩ := by
  simp [picture?, success]

theorem picture?_beside {first second : Growth} (success : first.failure = none) :
    (first.beside second).picture? = (do
      let picture ← first.picture?
      return picture.beside (← second.picture?)) := by
  rw [picture?_of_success success]
  unfold beside picture?
  cases second.failure <;> simp [Picture.beside]

theorem picture?_within (growth : Growth) (id : BoundId) (node : BoundNode Part) :
    (growth.within id node).picture? =
      growth.picture?.map (·.following (node.ledger.map (·.source))) := by
  unfold within picture?
  cases growth.failure <;> simp [Picture.following]

end Growth

namespace Data

variable {data other : Data}

theorem Agrees.trail (agrees : data.Agrees other) (value : Value) (rest : List String) :
    other.trail value rest = data.trail value rest := by
  induction rest generalizing value with
  | nil => rfl
  | cons segment later induction => cases value <;> simp [Data.trail, agrees.get, induction]

end Data

namespace Setting

/-- The setting was taken when everything read as it does now. -/
def Holds (setting : Setting) (data : Data) : Prop :=
  setting.data.Agrees data

variable {setting : Setting} {data : Data}

theorem Holds.value (holds : setting.Holds data) (model : ModelId) (path : Path) :
    data.resolve model path = setting.value model (.bound path) :=
  Data.Agrees.resolve holds model path

theorem Holds.tail (holds : setting.Holds data) (model : ModelId) (path : Path) :
    data.trail (data.get model path.head) path.tail = setting.tail model (.bound path) := by
  rw [Data.Agrees.trail holds, Data.Agrees.get holds]
  rfl

end Setting

theorem Display.show_seen (display : Display) (contents : Contents) (value : Value)
    (data : NodeData) :
    (display.show contents value data).seen = display.show contents value data.seen := by
  match display with
  | .attribute name => rfl
  | .style name => rfl
  | .text =>
      obtain ⟨kind, _, _, _⟩ := data
      cases kind <;> rfl

theorem Setting.entered_of_display (setting : Setting) {model : ModelId} {node : NodeData}
    {entry : Attribute} {display : Display} {expression : Expression}
    (shown : entry.display? = some (display, expression)) :
    setting.entered model node entry =
        display.show setting.data.contents (setting.value model expression) node ∧
      entry.expression? = some expression := by
  cases entry with
  | event => cases shown
  | _ =>
      cases shown
      exact ⟨rfl, rfl⟩

theorem Setting.entered_of_none (setting : Setting) {model : ModelId} {node : NodeData}
    {entry : Attribute} (shown : entry.display? = none) :
    setting.entered model node entry = node ∧ entry.expression? = none := by
  cases entry with
  | event => exact ⟨rfl, rfl⟩
  | _ => cases shown

namespace Site

open Build

variable {Client : Type} {site : Site Client} {before after : BuildState Client} {root : BoundId}
  {slot : Nat} {scope : Scope} {setting : Setting}

theorem watch_sources {value : Value} {rest : List String} {watches : Bindings}
    (run : Runs (site.watch root slot scope value rest) before watches after) :
    sources watches = before.data.trail value rest := by
  induction rest generalizing value before watches after with
  | nil =>
      simp only [watch, runs_pure] at run
      obtain ⟨rfl, rfl⟩ := run
      rfl
  | cons segment rest induction =>
      cases value with
      | model model =>
          simp only [watch, runs_bind, runs_newBound, runs_ask, runs_observe, runs_pure] at run
          obtain ⟨_, _, ⟨rfl, rfl⟩, _, _, ⟨rfl, rfl⟩, deeper, middle, inner, _, _, ⟨rfl, rfl⟩, rfl,
            rfl⟩ := run
          simp [induction inner, Data.trail, Data.subscribe]
      | _ =>
          simp only [watch, runs_pure] at run
          obtain ⟨rfl, rfl⟩ := run
          rfl

theorem follow_sources {path : Path} {subscription : Subscription} {watches : Bindings}
    (run : Runs (site.follow root slot scope path) before (subscription, watches) after)
    (holds : setting.Holds before.data) :
    [subscription.source] = (Expression.bound path).head scope.model ∧
      sources watches = setting.tail scope.model (.bound path) := by
  simp only [follow, runs_bind, runs_ask, runs_observe, runs_pure, Prod.mk.injEq] at run
  obtain ⟨_, _, ⟨rfl, rfl⟩, _, middle, inner, _, _, ⟨rfl, rfl⟩, ⟨rfl, rfl⟩, rfl⟩ := run
  exact ⟨rfl, (watch_sources inner).trans (holds.tail ..)⟩

theorem evaluate_value {expression : Expression} {value : Value} {ledger : List Subscription}
    {watches : Bindings}
    (run : Runs (site.evaluate root slot scope expression) before (value, ledger, watches) after)
    (holds : setting.Holds before.data) :
    value = setting.value scope.model expression ∧
      ledger.map (·.source) = expression.head scope.model ∧
        sources watches = setting.tail scope.model expression := by
  cases expression with
  | literal text =>
      simp only [evaluate, runs_pure, Prod.mk.injEq] at run
      obtain ⟨⟨rfl, rfl, rfl⟩, rfl⟩ := run
      exact ⟨rfl, rfl, rfl⟩
  | bound path =>
      simp only [evaluate, runs_bind, runs_ask, runs_pure, Prod.mk.injEq, Prod.exists] at run
      obtain ⟨_, _, ⟨rfl, rfl⟩, subscription, _, _, inner, ⟨rfl, rfl, rfl⟩, rfl⟩ := run
      obtain ⟨head, tail⟩ := follow_sources inner holds
      exact ⟨holds.value .., head, tail⟩

theorem attributes_drawn {entries : List Attribute} {data made : NodeData}
    {ledger : List Subscription} {watches : Bindings}
    (run : Runs (site.attributes root scope slot entries data) before (made, ledger, watches) after)
    (sound : before.data.Sound) (inside : scope.model.index < before.data.models.next)
    (holds : setting.Holds before.data) :
    made.seen = entries.foldl (setting.entered scope.model) data.seen ∧
      ledger.map (·.source) =
        (entries.filterMap Attribute.expression?).flatMap (·.head scope.model) ∧
      sources watches =
        (entries.filterMap Attribute.expression?).flatMap (setting.tail scope.model) := by
  induction entries generalizing slot data before ledger watches with
  | nil =>
      simp only [attributes, runs_pure, Prod.mk.injEq] at run
      obtain ⟨⟨rfl, rfl, rfl⟩, rfl⟩ := run
      exact ⟨rfl, rfl, rfl⟩
  | cons entry later induction =>
      obtain ⟨next, first, firstWatches, middle, rest, restWatches, some, none, others, rfl, rfl⟩ :=
        attributes_cons run
      cases shown : entry.display? with
      | none =>
          obtain ⟨rfl, rfl, rfl, _, rfl⟩ := none shown
          obtain ⟨seen, heads, tails⟩ := induction others sound inside holds
          obtain ⟨same, silent⟩ := setting.entered_of_none shown
          rw [List.foldl_cons, same, List.filterMap_cons, silent]
          exact ⟨seen, heads, by simpa using tails⟩
      | some pair =>
          obtain ⟨display, expression⟩ := pair
          obtain ⟨value, evaluated, rfl⟩ := some _ _ shown
          obtain ⟨grows, _⟩ := evaluate_grows evaluated sound inside
          have inMiddle : scope.model.index < middle.data.models.next := by
            rw [grows.agrees.models]
            exact inside
          obtain ⟨seen, heads, tails⟩ :=
            induction others (grows.sound sound) inMiddle (holds.trans grows.agrees)
          obtain ⟨rfl, head, tail⟩ := evaluate_value evaluated holds
          obtain ⟨next, spoken⟩ := setting.entered_of_display shown
          rw [List.foldl_cons, next, List.filterMap_cons, spoken]
          rw [Display.show_seen, grows.agrees.contents, Data.Agrees.contents holds] at seen
          exact ⟨seen, by simp [head, heads], by simp [tail, tails]⟩

/-- What the steps build for a model is the picture, and they fail exactly if there is none. -/
def Draws (setting : Setting) (model : ModelId) (steps : Build Client Growth)
    (picture : Option Picture) : Prop :=
  ∀ before growth after, Runs steps before growth after → setting.Holds before.data →
    before.data.Sound → model.index < before.data.models.next → picture = growth.picture?

theorem text_draws (site : Site Client) (scope : Scope) (content : Expression) :
    Draws setting scope.model (site.text scope content) (some (setting.text scope.model content)) := by
  intro before growth after run holds sound inside
  simp only [text, runs_bind, runs_newNode, runs_newBound, runs_ask, runs_pure, Prod.exists] at run
  obtain ⟨_, _, ⟨rfl, rfl⟩, _, _, ⟨rfl, rfl⟩, value, ledger, watches, middle, evaluated, _, _,
    ⟨rfl, rfl⟩, rfl, rfl⟩ := run
  obtain ⟨grows, _⟩ := evaluate_grows evaluated sound inside
  obtain ⟨rfl, head, tail⟩ := evaluate_value evaluated holds
  have contents : middle.data.contents = setting.data.contents :=
    grows.agrees.contents.trans (Data.Agrees.contents holds)
  rw [Growth.picture?_of_success rfl, contents]
  simp [Setting.text, Forest.leaf, Forest.seen, Display.show, NodeData.setText, NodeData.text,
    NodeData.seen, head, tail]

section Items

variable {body : Scope → Build Client Growth} {picture : ModelId → Option Picture}

/-- In the scopes of one depth, a body is built as its picture. -/
def DrawsAt (setting : Setting) (depth : Nat) (body : Scope → Build Client Growth)
    (picture : ModelId → Option Picture) : Prop :=
  ∀ scope, scope.depth = depth → Draws setting scope.model (body scope) (picture scope.model)

theorem itemScope_spec (scope : Scope) (value : Value) :
    (itemScope scope value).depth = scope.depth ∧
      (itemScope scope value).model = value.modelOr scope.model := by
  cases value <;> exact ⟨rfl, rfl⟩

theorem item_draws {value : Value} {growth : Growth}
    (draws : DrawsAt setting scope.depth body picture)
    (run : Runs (item body scope value) before growth after) (holds : setting.Holds before.data)
    (sound : before.data.Sound) (inside : scope.model.index < before.data.models.next)
    (refers : before.data.Refers value) : picture (value.modelOr scope.model) = growth.picture? := by
  simp only [item, runs_bind, runs_newBound, runs_pure] at run
  obtain ⟨_, _, ⟨rfl, rfl⟩, inner, _, made, rfl, rfl⟩ := run
  obtain ⟨depth, model⟩ := itemScope_spec scope value
  have drawn := draws (itemScope scope value) depth _ _ _ made holds sound
    (itemScope_lt refers inside)
  rw [Growth.picture?_within, ← drawn, model]
  cases picture (value.modelOr scope.model) <;> rfl

theorem items_draws {values : List Value} {growth : Growth}
    (grower : ∀ scope, Grower site.render scope.model (body scope))
    (draws : DrawsAt setting scope.depth body picture)
    (run : Runs (items body scope values) before growth after) (holds : setting.Holds before.data)
    (sound : before.data.Sound) (inside : scope.model.index < before.data.models.next)
    (refers : ∀ value ∈ values, before.data.Refers value) :
    Setting.items picture scope.model values = growth.picture? := by
  induction values generalizing before growth with
  | nil =>
      simp only [items, runs_pure] at run
      obtain ⟨rfl, rfl⟩ := run
      rfl
  | cons value later induction =>
      simp only [items, runs_bind] at run
      obtain ⟨first, middle, made, run⟩ := run
      have drawn := item_draws draws made holds sound inside (refers value (by simp))
      have grows := item_grows grower made sound inside (refers value (by simp))
      rw [Setting.items, drawn]
      split at run
      · rename_i failed
        simp only [runs_pure] at run
        obtain ⟨rfl, rfl⟩ := run
        rw [Growth.picture?_of_failure failed]
        rfl
      · rename_i success
        simp only [runs_bind, runs_pure] at run
        obtain ⟨second, _, others, rfl, rfl⟩ := run
        have rest := induction others (holds.trans grows.agrees) (grows.sound sound)
          (grows.agrees.models.symm ▸ inside) fun other member =>
            grows.agrees.refers.2 (refers other (List.mem_cons_of_mem _ member))
        rw [Growth.picture?_beside (by simpa using success), ← rest]

theorem observeList_spec {list : BoundId} {collection : CollectionId} {growth : Growth}
    {ledger : List Subscription}
    (run : Runs (site.observeList list collection growth) before ledger after)
    (success : growth.failure = none) : ledger.map (·.source) = [.collection collection] := by
  rw [observeList, if_neg (by simp [success])] at run
  simp only [runs_bind, runs_observeChanges, runs_pure] at run
  obtain ⟨_, _, ⟨rfl, rfl⟩, rfl, rfl⟩ := run
  rfl

theorem list_draws {source : List Node} {collection : CollectionId} {growth : Growth}
    (grower : ∀ scope, Grower site.render scope.model (body scope))
    (draws : DrawsAt setting scope.depth body picture)
    (label : site.config.anchorLabel = setting.label)
    (run : Runs (site.list body source scope collection) before growth after)
    (holds : setting.Holds before.data) (sound : before.data.Sound)
    (inside : scope.model.index < before.data.models.next) :
    (Setting.items picture scope.model (setting.data.contents.items collection)).map
        (fun picture => (picture.following [.collection collection]).anchored setting.label) =
      growth.picture? := by
  simp only [list, runs_bind, runs_newNode, runs_newBound, runs_ask, runs_pure] at run
  obtain ⟨_, _, ⟨rfl, rfl⟩, _, _, ⟨rfl, rfl⟩, _, _, ⟨rfl, rfl⟩, inner, middle, made, ledger, _,
    observed, rfl, rfl⟩ := run
  have listed : ∀ value ∈ before.data.contents.items collection, before.data.Refers value :=
    fun value member => sound.items collection value (by rwa [← Data.contents_items])
  have drawn := items_draws grower draws made holds sound inside listed
  rw [Data.Agrees.contents holds] at drawn
  rw [drawn]
  cases outcome : inner.failure with
  | some error => simp [Growth.picture?, outcome]
  | none =>
      simp [Growth.picture?, outcome, observeList_spec observed outcome, Picture.following,
        Picture.anchored, Forest.seen, label, NodeData.seen, NodeData.anchor]

end Items

section Directives

variable {view : Scope → ModelId → String → Build Client Growth}
  {body : Scope → Build Client Growth} {viewPicture : ModelId → String → Option Picture}
  {picture : ModelId → Option Picture}

/-- In the scopes of one depth, views are built as their pictures. -/
def ViewsDraw (setting : Setting) (depth : Nat) (view : Scope → ModelId → String → Build Client Growth)
    (picture : ModelId → String → Option Picture) : Prop :=
  ∀ scope, scope.depth = depth → ∀ model name,
    Draws setting model (view scope model name) (picture model name)

theorem observeItems_sources {switch group : BoundId} {value : Value} {ledger : List Subscription}
    (run : Runs (site.observeItems switch group value) before ledger after) :
    ledger.map (·.source) = value.observed := by
  cases value with
  | collection collection =>
      simp only [observeItems, runs_bind, runs_observeChanges, runs_pure] at run
      obtain ⟨_, _, ⟨rfl, rfl⟩, rfl, rfl⟩ := run
      rfl
  | _ =>
      simp only [observeItems, runs_pure] at run
      obtain ⟨rfl, rfl⟩ := run
      rfl

theorem filling_draws {switch group : BoundId} {directive : Directive} {value : Value}
    {ledger : List Subscription} {growth : Growth}
    (grower : ∀ scope, Grower site.render scope.model (body scope))
    (views : ViewsDraw setting scope.depth view viewPicture)
    (draws : DrawsAt setting scope.depth body picture)
    (label : site.config.anchorLabel = setting.label)
    (run : Runs (site.filling view body switch group directive scope setting.data.contents value)
      before (ledger, growth) after)
    (holds : setting.Holds before.data) (sound : before.data.Sound)
    (inside : scope.model.index < before.data.models.next) (refers : before.data.Refers value) :
    setting.shown viewPicture picture scope.model directive.rule value =
      growth.picture?.map (·.following (ledger.map (·.source))) := by
  have listed := itemsOf_refers sound refers
  rw [Data.Agrees.contents holds] at listed
  have plain : ∀ {made : Growth}, made.picture?.map (·.following []) = made.picture? := by
    intro made
    cases made.picture? <;> simp [Picture.following]
  unfold Setting.shown
  cases rule : directive.rule with
  | showIf =>
      simp only [filling, rule] at run
      split at run <;> rename_i truth <;> simp only [runs_bind, runs_pure, Prod.mk.injEq] at run
      · obtain ⟨_, _, made, ⟨rfl, rfl⟩, rfl⟩ := run
        simp only [truth, if_true]
        exact (draws _ rfl _ _ _ made holds sound inside).trans plain.symm
      · obtain ⟨_, _, ⟨rfl, rfl⟩, ⟨rfl, rfl⟩, rfl⟩ := run
        simp only [truth]
        rfl
  | showUnless =>
      simp only [filling, rule] at run
      split at run <;> rename_i truth <;> simp only [runs_bind, runs_pure, Prod.mk.injEq] at run
      · obtain ⟨_, _, ⟨rfl, rfl⟩, ⟨rfl, rfl⟩, rfl⟩ := run
        simp only [truth]
        rfl
      · obtain ⟨_, _, made, ⟨rfl, rfl⟩, rfl⟩ := run
        simp only [truth]
        exact (draws _ rfl _ _ _ made holds sound inside).trans plain.symm
  | each =>
      simp only [filling, rule, runs_bind, runs_pure, Prod.mk.injEq] at run
      obtain ⟨_, _, observed, _, _, made, ⟨rfl, rfl⟩, rfl⟩ := run
      have first := observeItems_grows observed refers
      have drawn := items_draws grower draws made (holds.trans first.agrees) (first.sound sound)
        (first.agrees.models.symm ▸ inside) fun item member =>
          first.agrees.refers.2 (listed item member)
      rw [← drawn, observeItems_sources observed]
  | collection =>
      simp only [filling, rule] at run
      split at run
      · simp only [runs_bind, runs_pure, Prod.mk.injEq] at run
        obtain ⟨_, _, made, ⟨rfl, rfl⟩, rfl⟩ := run
        exact (list_draws grower draws label made holds sound inside).trans plain.symm
      · rename_i other
        simp only [runs_bind, runs_pure, Prod.mk.injEq] at run
        obtain ⟨_, _, made, ⟨rfl, rfl⟩, rfl⟩ := run
        have drawn := (items_draws grower draws made holds sound inside listed).trans plain.symm
        cases value with
        | collection id => exact (other id rfl).elim
        | _ => exact drawn
  | view name =>
      simp only [filling, rule] at run
      split at run
      · simp only [runs_bind, runs_pure, Prod.mk.injEq] at run
        obtain ⟨_, _, made, ⟨rfl, rfl⟩, rfl⟩ := run
        exact (views _ rfl _ _ _ _ _ made holds sound refers.model_lt).trans plain.symm
      · rename_i other
        simp only [runs_pure, Prod.mk.injEq] at run
        obtain ⟨⟨rfl, rfl⟩, rfl⟩ := run
        cases value with
        | model id => exact (other id rfl).elim
        | _ => rfl

theorem content_draws {switch : BoundId} {directive : Directive} {growth : Growth}
    (grower : ∀ scope, Grower site.render scope.model (body scope))
    (views : ViewsDraw setting scope.depth view viewPicture)
    (draws : DrawsAt setting scope.depth body picture)
    (label : site.config.anchorLabel = setting.label)
    (run : Runs (site.content view body switch directive scope) before growth after)
    (holds : setting.Holds before.data) (sound : before.data.Sound)
    (inside : scope.model.index < before.data.models.next) :
    setting.shown viewPicture picture scope.model directive.rule
      (setting.data.resolveRaw scope.model directive.path) = growth.picture? := by
  simp only [content, runs_bind, runs_ask, runs_newBound, runs_pure, Prod.exists] at run
  obtain ⟨_, _, ⟨rfl, rfl⟩, _, _, ⟨rfl, rfl⟩, _, _, ⟨rfl, rfl⟩, ledger, inner, _, made, rfl, rfl⟩ :=
    run
  rw [Data.Agrees.contents holds] at made
  rw [Growth.picture?_within, ← Data.Agrees.resolveRaw holds]
  exact filling_draws grower views draws label made holds sound inside (sound.resolveRaw_refers ..)

theorem directive_draws {directive : Directive} {growth : Growth}
    (grower : ∀ scope, Grower site.render scope.model (body scope))
    (views : ViewsDraw setting scope.depth view viewPicture)
    (draws : DrawsAt setting scope.depth body picture)
    (label : site.config.anchorLabel = setting.label)
    (run : Runs (site.directive view body directive scope) before growth after)
    (holds : setting.Holds before.data) (sound : before.data.Sound)
    (inside : scope.model.index < before.data.models.next) :
    setting.directive viewPicture picture scope.model directive.rule directive.path =
      growth.picture? := by
  simp only [Site.directive, runs_bind, runs_newNode, runs_newBound, runs_ask, runs_pure,
    Prod.exists] at run
  obtain ⟨_, _, ⟨rfl, rfl⟩, _, _, ⟨rfl, rfl⟩, subscription, watches, middle, followed, shown, _,
    ⟨rfl, rfl⟩, inner, _, made, rfl, rfl⟩ := run
  obtain ⟨grows, _⟩ := follow_grows followed sound inside
  obtain ⟨head, tail⟩ := follow_sources followed holds
  have drawn := content_draws grower views draws label made (holds.trans grows.agrees)
    (grows.sound sound) (grows.agrees.models.symm ▸ inside)
  rw [Setting.directive, drawn]
  cases outcome : inner.failure with
  | some error => simp [Growth.picture?, outcome]
  | none =>
      simp [Growth.picture?, outcome, Picture.following, Picture.anchored, Forest.seen, label,
        NodeData.seen, NodeData.anchor, ← head, tail]

end Directives

section Nodes

variable {view : Scope → ModelId → String → Build Client Growth}
  {viewPicture : ModelId → String → Option Picture}

mutual

theorem node_draws (site : Site Client)
    (growers : ∀ scope model name, Grower site.render model (view scope model name))
    (label : site.config.anchorLabel = setting.label) :
    ∀ (source : Node) (scope : Scope), ViewsDraw setting scope.depth view viewPicture →
      Draws setting scope.model (site.node view source scope)
        (setting.node viewPicture source scope.model)
  | .element tag entries children line, scope, views => by
      intro before growth after run holds sound inside
      simp only [node, runs_bind, runs_newNode, runs_newBound, runs_pure, Prod.exists] at run
      obtain ⟨_, _, ⟨rfl, rfl⟩, _, _, ⟨rfl, rfl⟩, data, ledger, watches, middle, listed, inner, _,
        made, rfl, rfl⟩ := run
      obtain ⟨grows, _⟩ := attributes_grows listed sound inside
      obtain ⟨seen, heads, tails⟩ := attributes_drawn listed sound inside holds
      have drawn := nodes_draws site growers label children scope views _ _ _ made
        (holds.trans grows.agrees) (grows.sound sound) (grows.agrees.models.symm ▸ inside)
      rw [Setting.node, drawn]
      cases outcome : inner.failure with
      | some error => simp [Growth.picture?, outcome]
      | none =>
          have bare : (NodeData.element tag).seen = .element tag := rfl
          simp [Growth.picture?, outcome, Forest.seen, seen, heads, tails, bare]
  | .text content, scope, _ => by
      rw [Setting.node, node]
      exact text_draws site scope content
  | .directive rule path body, scope, views => by
      intro before growth after run holds sound inside
      rw [node] at run
      rw [Setting.node]
      refine directive_draws (nodes_grows site growers body) views (fun inner depth => ?_) label run
        holds sound inside
      exact nodes_draws site growers label body inner (depth ▸ views)
  | .view name, scope, views => by
      rw [Setting.node, node]
      exact views scope rfl scope.model name

theorem nodes_draws (site : Site Client)
    (growers : ∀ scope model name, Grower site.render model (view scope model name))
    (label : site.config.anchorLabel = setting.label) :
    ∀ (sources : List Node) (scope : Scope), ViewsDraw setting scope.depth view viewPicture →
      Draws setting scope.model (site.nodes view sources scope)
        (setting.nodes viewPicture sources scope.model)
  | [], scope, _ => by
      intro before growth after run _ _ _
      simp only [nodes, runs_pure] at run
      obtain ⟨rfl, rfl⟩ := run
      rw [Setting.nodes]
      rfl
  | first :: later, scope, views => by
      intro before growth after run holds sound inside
      simp only [nodes, runs_bind] at run
      obtain ⟨growth, middle, made, run⟩ := run
      have grows := node_grows site growers first scope _ _ _ made sound inside
      have drawn := node_draws site growers label first scope views _ _ _ made holds sound inside
      rw [Setting.nodes, drawn]
      split at run
      · rename_i failed
        simp only [runs_pure] at run
        obtain ⟨rfl, rfl⟩ := run
        rw [Growth.picture?_of_failure failed]
        rfl
      · rename_i success
        simp only [runs_bind, runs_pure] at run
        obtain ⟨second, _, others, rfl, rfl⟩ := run
        have rest := nodes_draws site growers label later scope views _ _ _ others
          (holds.trans grows.agrees) (grows.sound sound) (grows.agrees.models.symm ▸ inside)
        rw [Growth.picture?_beside (by simpa using success), ← rest]

end

end Nodes

theorem view_draws (site : Site Client) (label : site.config.anchorLabel = setting.label)
    (registry : site.registry = setting.registry) (room : Nat) (scope : Scope) (model : ModelId)
    (name : String) :
    Draws setting model (site.view room scope model name) (setting.view room model name) := by
  induction room generalizing scope model name with
  | zero =>
      intro before growth after run _ _ _
      simp only [view, runs_pure] at run
      obtain ⟨rfl, rfl⟩ := run
      rfl
  | succ room induction =>
      intro before growth after run holds sound inside
      rw [view] at run
      rw [Setting.view, ← registry]
      split at run
      · rename_i missing
        simp only [runs_pure] at run
        obtain ⟨rfl, rfl⟩ := run
        rw [missing]
        rfl
      · rename_i template found
        simp only [runs_bind, runs_newBound, runs_pure, Prod.exists] at run
        obtain ⟨controller, fresh, middle, chosen, _, _, ⟨rfl, rfl⟩, inner, shown, made, ⟨⟩, _,
          introduced, rfl, rfl⟩ := run
        have first := viewController_grows chosen
        have drawn := node_draws site (view_grows site room) label template.root
          ⟨model, controller, scope.depth + 1⟩ (fun scope _ => induction scope) _ _ _ made
          (holds.trans first.agrees) (first.sound sound) (first.agrees.models.symm ▸ inside)
        rw [found, Growth.picture?_within, ← drawn]
        show setting.node (setting.view room) template.root model = _
        cases setting.node (setting.view room) template.root model <;> rfl

/-- Views within a scope have the room that is left at its depth. -/
theorem viewIn_draws (site : Site Client) (label : site.config.anchorLabel = setting.label)
    (registry : site.registry = setting.registry) (depth : Nat) :
    ViewsDraw setting depth site.viewIn (setting.view (site.config.maxViewDepth - depth)) := by
  rintro scope rfl model name
  exact view_draws site label registry _ scope model name

end Site

end LiveTemplate
