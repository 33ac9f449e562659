import LiveTemplate.Proofs.Meaning.Picture

/-!
# Chains of views

Showing a template for a model may show views, in these further views, and so on, where registered
templates refer to each other in circles and models as well.  A template has a picture with a given
room if and only if no chain of views in each other is longer, provided that all views that it can
reach are registered.
-/

namespace LiveTemplate

open Template (Node Attribute Expression Path Rule)

/-! ## Views within reach -/

namespace Registry

/-- The views that a template refers to, directly or in the views that it refers to. -/
inductive Reaches (registry : Registry) (template : Template) : String → Prop where
  | direct {name : String} (refers : name ∈ template.viewNames) : Reaches registry template name
  | through {name other : String} {view : Template} (reached : Reaches registry template name)
      (found : registry.view? name = some view) (refers : other ∈ view.viewNames) :
      Reaches registry template other

/-- All views that a template can reach are registered. -/
def Complete (registry : Registry) (template : Template) : Prop :=
  ∀ name, registry.Reaches template name → ∃ view, registry.view? name = some view

/-- Views are looked up only if they are within reach. -/
theorem reaches_of_missing? {registry : Registry} {template : Template}
    {visited pending : List String} {name : String}
    (missing : registry.missing? visited pending = some name)
    (reached : ∀ other ∈ pending, registry.Reaches template other) :
    registry.Reaches template name ∧ registry.view? name = none := by
  fun_induction missing? registry visited pending with
  | case1 => cases missing
  | case2 visited first later seen induction =>
      exact induction missing fun other member => reached other (List.mem_cons_of_mem _ member)
  | case3 visited first later fresh absent =>
      obtain rfl := Option.some.inj missing
      exact ⟨reached first List.mem_cons_self, absent⟩
  | case4 visited first later fresh view found induction =>
      refine induction missing fun other member => ?_
      rcases List.mem_append.1 member with inner | after
      · exact .through (reached first List.mem_cons_self) found (List.mem_reverse.1 inner)
      · exact reached other (List.mem_cons_of_mem _ after)

theorem Complete.missingView? {registry : Registry} {template : Template}
    (complete : registry.Complete template) : registry.missingView? template = none := by
  rw [Option.eq_none_iff_forall_ne_some]
  intro name missing
  obtain ⟨reached, absent⟩ :=
    reaches_of_missing? missing fun other member => .direct (List.mem_reverse.1 member)
  obtain ⟨view, found⟩ := complete name reached
  rw [absent] at found
  cases found

end Registry

/-! ## Chains -/

namespace Setting

/-- The models in whose scope a directive shows its body for a value. -/
def scopes (setting : Setting) (model : ModelId) (rule : Rule) (value : Value) : List ModelId :=
  match rule with
  | .showIf => if value.isTruthy setting.data.contents then [model] else []
  | .showUnless => if value.isTruthy setting.data.contents then [] else [model]
  | .each | .collection => (Site.itemsOf setting.data.contents value).map (·.modelOr model)
  | .view _ => []

/-- The nodes that are shown below a node, each in the scope of a model. -/
def below (setting : Setting) : Node → ModelId → List (Node × ModelId)
  | .element _ _ children _, model => children.map (·, model)
  | .text _, _ => []
  | .directive rule path body, model =>
    (setting.scopes model rule (setting.data.resolveRaw model path)).flatMap fun inner =>
      body.map (·, inner)
  | .view _, _ => []

/-- The view that a node shows, and the model that it is shown for. -/
def call? (setting : Setting) : Node → ModelId → Option (String × ModelId)
  | .view name, model => some (name, model)
  | .directive (.view name) path _, model =>
    match setting.data.resolveRaw model path with
    | .model inner => some (name, inner)
    | _ => none
  | _, _ => none

/-- Showing a node shows so many views in each other. -/
inductive Nests (setting : Setting) : Nat → Node → ModelId → Prop where
  | nothing {node : Node} {model : ModelId} : Nests setting 0 node model
  | inside {count : Nat} {node inner : Node} {model other : ModelId}
      (member : (inner, other) ∈ setting.below node model) (nests : Nests setting count inner other) :
      Nests setting count node model
  | view {count : Nat} {node : Node} {model other : ModelId} {name : String} {template : Template}
      (call : setting.call? node model = some (name, other))
      (found : setting.registry.view? name = some template)
      (nests : Nests setting count template.root other) : Nests setting (count + 1) node model

/-- Showing a view shows so many further views in each other. -/
def NestsIn (setting : Setting) (count : Nat) (name : String) (model : ModelId) : Prop :=
  ∃ template, setting.registry.view? name = some template ∧ setting.Nests count template.root model

theorem nests_succ {setting : Setting} {count : Nat} {node : Node} {model : ModelId} :
    setting.Nests (count + 1) node model ↔
      (∃ inner other, (inner, other) ∈ setting.below node model ∧
        setting.Nests (count + 1) inner other) ∨
      ∃ name other, setting.call? node model = some (name, other) ∧
        setting.NestsIn count name other := by
  constructor
  · intro nests
    cases nests with
    | inside member nests => exact .inl ⟨_, _, member, nests⟩
    | view call found nests => exact .inr ⟨_, _, call, _, found, nests⟩
  · rintro (⟨_, _, member, nests⟩ | ⟨_, _, call, _, found, nests⟩)
    · exact .inside member nests
    · exact .view call found nests

variable {setting : Setting} {view : ModelId → String → Option Picture}
  {body : ModelId → Option Picture}

theorem items_eq_none {model : ModelId} {values : List Value} :
    items body model values = none ↔ ∃ value ∈ values, body (value.modelOr model) = none := by
  induction values with
  | nil => simp [items]
  | cons value later induction =>
      rw [items, List.exists_mem_cons_iff, ← induction]
      cases body (value.modelOr model) <;> cases items body model later <;> simp

/-- What a directive shows is missing if its body is for one of the models, or if its view is. -/
theorem shown_eq_none {model : ModelId} {rule : Rule} {path : Path} {source : List Node} :
    setting.shown view body model rule (setting.data.resolveRaw model path) = none ↔
      (∃ inner ∈ setting.scopes model rule (setting.data.resolveRaw model path), body inner = none) ∨
        ∃ name other, setting.call? (.directive rule path source) model = some (name, other) ∧
          view other name = none := by
  cases rule with
  | showIf | showUnless =>
      simp only [shown, scopes, call?]
      split <;> simp
  | each => simp [shown, scopes, call?, items_eq_none]
  | collection =>
      simp only [shown, scopes, call?]
      generalize setting.data.resolveRaw model path = value
      cases value <;> simp [items_eq_none, Site.itemsOf]
  | view name =>
      simp only [shown, scopes, call?]
      cases setting.data.resolveRaw model path <;> simp

variable {known : String → Prop} {count : Nat}

theorem known_of_directive {rule : Rule} {path : Path} {source : List Node}
    (names : ∀ name ∈ (Node.directive rule path source).viewNames, known name) :
    (∀ name ∈ Template.viewNamesOf source, known name) ∧
      ∀ name, (∃ model other, setting.call? (.directive rule path source) model = some (name, other)) →
        known name := by
  cases rule with
  | view shown =>
      refine ⟨fun name member => names name (List.mem_cons_of_mem _ member), ?_⟩
      rintro name ⟨model, other, call⟩
      simp only [call?] at call
      split at call
      · obtain ⟨rfl, _⟩ := Prod.mk.inj (Option.some.inj call)
        exact names _ List.mem_cons_self
      · cases call
  | _ =>
      refine ⟨names, ?_⟩
      rintro name ⟨model, other, call⟩
      cases call

mutual

/-- A node has no picture if and only if it nests views more deeply than there is room for. -/
theorem node_eq_none (views : ∀ model name, known name →
    (view model name = none ↔ setting.NestsIn count name model)) :
    ∀ (source : Node) (model : ModelId), (∀ name ∈ source.viewNames, known name) →
      (setting.node view source model = none ↔ setting.Nests (count + 1) source model)
  | .element tag entries children line, model, names => by
      have inner := nodes_eq_none views children model names
      rw [node, nests_succ]
      simp only [below, call?, List.mem_map, Prod.mk.injEq, reduceCtorEq, false_and, exists_false,
        or_false]
      constructor
      · intro absent
        obtain ⟨child, member, nests⟩ := inner.1 (by
          cases there : setting.nodes view children model with
          | none => rfl
          | some picture =>
              rw [there] at absent
              cases absent)
        exact ⟨child, model, ⟨child, member, rfl, rfl⟩, nests⟩
      · rintro ⟨_, _, ⟨child, member, rfl, rfl⟩, nests⟩
        rw [inner.2 ⟨child, member, nests⟩]
        rfl
  | .text content, model, names => by
      rw [node, nests_succ]
      simp [below, call?]
  | .directive rule path source, model, names => by
      obtain ⟨inner, called⟩ := known_of_directive names
      rw [node, directive, Option.map_eq_none_iff, shown_eq_none, nests_succ]
      refine or_congr ?_ (exists_congr fun name => exists_congr fun other => ?_)
      · constructor
        · rintro ⟨scope, member, absent⟩
          obtain ⟨child, listed, nests⟩ := (nodes_eq_none views source scope inner).1 absent
          exact ⟨child, scope, List.mem_flatMap.2 ⟨scope, member, List.mem_map.2 ⟨child, listed, rfl⟩⟩,
            nests⟩
        · rintro ⟨child, scope, member, nests⟩
          obtain ⟨_, shown, also⟩ := List.mem_flatMap.1 member
          obtain ⟨_, listed, same⟩ := List.mem_map.1 also
          obtain ⟨rfl, rfl⟩ := Prod.mk.inj same
          exact ⟨_, shown, (nodes_eq_none views source _ inner).2 ⟨_, listed, nests⟩⟩
      · exact and_congr_right fun call => views other name (called name ⟨model, other, call⟩)
  | .view name, model, names => by
      rw [node, views model name (names name (List.mem_singleton_self name)), nests_succ]
      simp [below, call?]

theorem nodes_eq_none (views : ∀ model name, known name →
    (view model name = none ↔ setting.NestsIn count name model)) :
    ∀ (sources : List Node) (model : ModelId), (∀ name ∈ Template.viewNamesOf sources, known name) →
      (setting.nodes view sources model = none ↔
        ∃ source ∈ sources, setting.Nests (count + 1) source model)
  | [], model, names => by simp [nodes]
  | first :: later, model, names => by
      have here := node_eq_none views first model fun name member =>
        names name (List.mem_append_left _ member)
      have there := nodes_eq_none views later model fun name member =>
        names name (List.mem_append_right _ member)
      rw [nodes, List.exists_mem_cons_iff, ← here, ← there]
      cases setting.node view first model <;> cases setting.nodes view later model <;> simp

end

/-- A view has no picture if and only if there is less room than it nests views. -/
theorem view_eq_none (closed : ∀ name, known name → ∃ template,
    setting.registry.view? name = some template ∧ ∀ other ∈ template.viewNames, known other)
    (room : Nat) : ∀ model name, known name →
      (setting.view room model name = none ↔ setting.NestsIn room name model) := by
  induction room with
  | zero =>
      intro model name registered
      obtain ⟨template, found, _⟩ := closed name registered
      exact iff_of_true rfl ⟨template, found, .nothing⟩
  | succ room induction =>
      intro model name registered
      obtain ⟨template, found, inner⟩ := closed name registered
      have drawn : setting.view (room + 1) model name =
          setting.node (setting.view room) template.root model := by
        rw [view, found]
        rfl
      rw [drawn, node_eq_none induction template.root model inner]
      constructor
      · exact fun nests => ⟨template, found, nests⟩
      · rintro ⟨other, also, nests⟩
        obtain rfl := Option.some.inj (found.symm.trans also)
        exact nests

/-- A template whose views are registered has a picture if and only if it does not show views more
deeply in each other than there is room for. -/
theorem template_eq_none {template : Template} (complete : setting.registry.Complete template)
    (room : Nat) (model : ModelId) :
    setting.node (setting.view room) template.root model = none ↔
      setting.Nests (room + 1) template.root model := by
  have closed : ∀ name, setting.registry.Reaches template name → ∃ view,
      setting.registry.view? name = some view ∧
        ∀ other ∈ view.viewNames, setting.registry.Reaches template other := by
    intro name reached
    obtain ⟨view, found⟩ := complete name reached
    exact ⟨view, found, fun other refers => .through reached found refers⟩
  exact node_eq_none (view_eq_none closed room) template.root model fun name refers => .direct refers

end Setting

end LiveTemplate
