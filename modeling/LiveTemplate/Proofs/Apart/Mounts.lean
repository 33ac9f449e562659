import LiveTemplate.Proofs.Apart.Events
import LiveTemplate.Proofs.View.Mounting

/-!
# Renders that come and go in both worlds and in one

A render may be created in both worlds, and then its names are tied; or it is hidden and created in the
first world only, and then its names are lone.  Neither is seen by the other renders.
-/

namespace LiveTemplate

variable {hidden own : String → Bool} {ties later : Ties} {first second : World Journal}
  {supply : Hook → List Entry → List (String × Hook)} {behaviour also : Behaviour Journal}

/-- The same ties but for renders. -/
def Ties.withRenders (ties : Ties) (renders : Tie RenderId) : Ties :=
  { ties with renders }

theorem Ties.le_withRenders {renders : Tie RenderId} (grow : ties.renders ≤ renders) :
    ties ≤ ties.withRenders renders :=
  ⟨le_rfl, le_rfl, grow, le_rfl, le_rfl, Nat.le_refl _, Nat.le_refl _⟩

/-- Places of documents are given up. -/
theorem Document.Matches.vacateAll {one other : Document} (all : one.Matches ties other)
    (gone lost : List NodeId) :
    Document.Matches ties { one with places := one.places.vacateAll gone }
      { other with places := other.places.vacateAll lost } where
  page := all.page
  among := all.among.mono (fun _ => (Places.issued_vacateAll_iff ..).2)
    fun _ => (Places.issued_vacateAll_iff ..).2

theorem Document.Matches.vacateAll_first {one other : Document} (all : one.Matches ties other)
    (gone : List NodeId) :
    Document.Matches ties { one with places := one.places.vacateAll gone } other where
  page := all.page
  among := all.among.mono (fun _ => (Places.issued_vacateAll_iff ..).2) fun _ => id

namespace World

/-- The world after a template has been built for a new render. -/
def erected (world : World Journal) (render : Render) (scope : Scope) (growth : Growth)
    (state : BuildState Journal) : World Journal :=
  { world with
    data := state.data
    controllers := state.controllers
    client := state.client
    documents := world.documents.modify render.document.index fun document =>
      { document with places := state.places }
    renders := world.renders.add (mounted render growth scope state.nextBound) }

/-- Where a template is built for a new render. -/
def newSite (world : World Journal) (behaviour : Behaviour Journal) (render : Render) : Site Journal :=
  { world with renders := world.renders.add render }.site behaviour world.nextRender render

/-- How the root element of a template is built. -/
def build (world : World Journal) (behaviour : Behaviour Journal) (render : Render)
    (template : Template) (scope : Scope) : Growth × BuildState Journal :=
  let site := world.newSite behaviour render
  (site.node site.viewIn template.root scope).run
    ({ world with renders := world.renders.add render }.buildState render)

theorem raise_eq_erected (behaviour : Behaviour Journal) (world : World Journal)
    (document : DocumentId) (registry : RegistryId) (config : RenderConfig) (template : Template)
    (scope : Scope) {growth : Growth} {state : BuildState Journal}
    (built : world.build behaviour (world.newRender document registry config scope) template scope =
      (growth, state)) :
    world.raise behaviour (world.newRender document registry config scope) template scope =
      (growth, world.erected (world.newRender document registry config scope) scope growth state) := by
  have renders : ∀ (render : Render) (change also : Render → Render),
      ((world.renders.add render).modify world.renders.next change).modify world.renders.next also =
        world.renders.add (also (change render)) := by
    intro render change also
    rw [Store.modify_add, Store.modify_add]
  rw [raise_eq, grow]
  unfold build newSite at built
  dsimp only at built ⊢
  rw [built]
  exact Prod.ext rfl (congrArg
    (fun renders => { world.erected (world.newRender document registry config scope) scope growth state
      with renders }) (renders _ _ _))

/-- The root element is the first document node that is made. -/
theorem build_root {world : World Journal} {render : Render} {template : Template} {scope : Scope}
    {growth : Growth} {state : BuildState Journal}
    (built : world.build behaviour render template scope = (growth, state)) :
    ∃ ledger below, growth.bound = .cons ⟨render.tree.next⟩
      { part := .element template.attributes
        dom := some (world.document render.document).places.next
        ledger
        scope } below .nil := by
  have run : Build.Runs ((world.newSite behaviour render).node (world.newSite behaviour render).viewIn
      template.root scope) ({ world with renders := world.renders.add render }.buildState render)
      growth state := built
  exact Site.node_element_root run

/-- Templates are built alike for renders that come in both worlds. -/
theorem Matches.build (all : World.Matches hidden own ties first second)
    (supplies : behaviour.Supplies supply) (too : also.Supplies supply) (registry : RegistryId)
    (config : RenderConfig) (template : Template) {scope inner : Scope}
    (scopes : scope.Matches ties.seen inner) :
    let one := first.build behaviour (first.newRender place registry config scope) template scope
    let other := second.build also (second.newRender place registry config inner) template inner
    ∃ later, ties ≤ later ∧ one.1.Matches later.seen other.1 ∧
      Site.Both all.renders.coupled first.client second.client later one.2 other.2 := by
  have coupled : ties ≤ ties.withRenders all.renders.coupled :=
    Ties.le_withRenders (Tie.le_couple all.renders.among (lt_irrefl _) (lt_irrefl _))
  have tied : all.renders.coupled.pairs first.nextRender second.nextRender := .inr ⟨rfl, rfl⟩
  let frame : (first.newSite behaviour (first.newRender place registry config scope)).Abreast Ties
      (second.newSite also (second.newRender place registry config inner)) :=
    Site.both rfl (all.registry_eq registry) (supplies.site _ _ _) (too.site _ _ _) tied
      fun factory => congrArg (supply factory) all.client.log
  have start : BuildState.Matches (ties.withRenders all.renders.coupled)
      (first.buildState (first.newRender place registry config scope))
      (second.buildState (second.newRender place registry config inner)) :=
    ⟨all.data.mono coupled rfl rfl rfl, all.controllers.of_eq rfl rfl, all.documents.shared.among⟩
  have twins : frame.Twins (ties.withRenders all.renders.coupled) _ _ Growth.Matches :=
    Site.Abreast.Twins.node Site.Abreast.Twins.viewIn template.root
      (scopes.mono (Ties.monotone_seen coupled))
  obtain ⟨later, grow, states, related⟩ := twins _ _ ⟨start, rfl, rfl, rfl, rfl⟩
  exact ⟨later, coupled.trans grow, related, states⟩

/-- The renders that come are tied. -/
theorem Matches.erected (all : World.Matches hidden own ties first second)
    (supplies : behaviour.Supplies supply) (too : also.Supplies supply) (registry : RegistryId)
    (config : RenderConfig) (template : Template) {scope inner : Scope}
    (scopes : scope.Matches ties.seen inner) {growth twin : Growth} {state rest : BuildState Journal}
    (built : first.build behaviour (first.newRender place registry config scope) template scope =
      (growth, state))
    (builtAlso : second.build also (second.newRender place registry config inner) template inner =
      (twin, rest)) :
    ∃ later, ties ≤ later ∧ later.renders.pairs first.nextRender second.nextRender ∧
      growth.Matches later.seen twin ∧
      World.Matches hidden own later
        (first.erected (first.newRender place registry config scope) scope growth state)
        (second.erected (second.newRender place registry config inner) inner twin rest) := by
  have builds := all.build supplies too registry config template scopes
  rw [built, builtAlso] at builds
  obtain ⟨later, whole, related, alike, next, renders, client, clientAlso⟩ := builds
  have node : later.nodes.pairs (first.newRender place registry config scope).node
      (second.newRender place registry config inner).node := by
    obtain ⟨_, _, top⟩ := build_root built
    obtain ⟨_, _, topAlso⟩ := build_root builtAlso
    have bound := related.bound
    rw [top, topAlso] at bound
    cases bound with
    | keep _ alike _ _ =>
        cases alike.dom with
        | some linked => exact linked
    | pass none => exact none.elim
  have shown : Render.Shown later
      (mounted (first.newRender place registry config scope) growth scope state.nextBound)
      (mounted (second.newRender place registry config inner) twin inner rest.nextBound) := by
    refine ⟨⟨rfl, rfl, rfl, rfl, next, ?_⟩, rfl, node⟩
    exact .keep rfl ⟨rfl, .none, .nil, scopes.mono (Ties.monotone_seen whole)⟩ related.bound .nil
  refine ⟨later, whole, renders ▸ .inr ⟨rfl, rfl⟩, related, ?_⟩
  constructor
  · exact alike.data
  · exact alike.controllers
  · exact all.documents.edit ⟨all.documents.shared.page_mono whole, alike.nodes⟩
  · exact all.renders.add whole renders shown
  · exact all.registries
  · exact all.engaged.imp fun _ _ engages => engages.mono whole
  · change Journal.Matches hidden own later state.client rest.client
    rw [client, clientAlso]
    exact all.client.mono whole

/-- What mounting leads to, by what was built. -/
theorem mount_of_build {world : World Journal} {registry : RegistryId} {config : RenderConfig}
    {template : Template} {model : ModelId} {controller : ControllerId} {growth : Growth}
    {state : BuildState Journal} (known : (world.registry registry).missingView? template = none)
    (built : world.build behaviour (world.newRender place registry config ⟨model, controller, 0⟩)
      template ⟨model, controller, 0⟩ = (growth, state)) :
    let render := world.newRender place registry config ⟨model, controller, 0⟩
    let raised := world.erected render ⟨model, controller, 0⟩ growth state
    world.mount behaviour place registry config template model controller =
      match growth.failure with
      | some error => (.error error, raised.abandon world.nextRender render growth)
      | none =>
        (.ok world.nextRender, { raised.present render growth with
          controllers := raised.controllers.attach controller ⟨model, render.node, none⟩ }) := by
  rw [World.mount, known]
  dsimp only
  rw [raise_eq_erected behaviour world place registry config template ⟨model, controller, 0⟩ built]
  rfl

/-- Mounting comes to the same in both worlds. -/
inductive Mounts (ties : Ties) : Except RenderError RenderId → Except RenderError RenderId → Prop where
  | ok {one other : RenderId} (tied : ties.renders.pairs one other) : Mounts ties (.ok one) (.ok other)
  | error (error : RenderError) : Mounts ties (.error error) (.error error)

theorem Matches.mount (all : World.Matches hidden own ties first second)
    (supplies : behaviour.Supplies supply) (too : also.Supplies supply) (registry : RegistryId)
    (config : RenderConfig) (template : Template) {model : ModelId}
    (inside : model.index < first.data.models.next) {one other : ControllerId}
    (tied : ties.controllers.pairs one other) :
    MeetWith hidden own Mounts ties
      (first.mount behaviour place registry config template model one)
      (second.mount also place registry config template model other) := by
  have registries := all.registry_eq registry
  cases known : (first.registry registry).missingView? template with
  | some name =>
      rw [World.mount, known, World.mount, ← registries, known]
      exact ⟨ties, le_rfl, .error _, all⟩
  | none =>
      have scopes : Scope.Matches ties.seen ⟨model, one, 0⟩ ⟨model, other, 0⟩ :=
        ⟨rfl, tied, rfl, Nat.lt_of_lt_of_eq inside all.data.models⟩
      rcases built : first.build behaviour (first.newRender place registry config ⟨model, one, 0⟩)
        template ⟨model, one, 0⟩ with ⟨growth, state⟩
      rcases builtAlso : second.build also (second.newRender place registry config ⟨model, other, 0⟩)
        template ⟨model, other, 0⟩ with ⟨twin, rest⟩
      obtain ⟨later, grow, renders, alike, erected⟩ :=
        all.erected supplies too registry config template scopes built builtAlso
      rw [mount_of_build known built, mount_of_build (registries ▸ known) builtAlso, alike.failure]
      cases twin.failure with
      | some error =>
          refine ⟨later, grow, .error error, ?_⟩
          have torn := erected.teardown renders ⟨0⟩
          exact torn.modifyDocument _ _ (torn.documents.shared.vacateAll _ _)
      | none =>
          refine ⟨later, grow, .ok renders, ?_⟩
          have presented := erected.modifyDocument
            (fun document => { document with nodes := document.nodes ++ growth.page })
            (fun document => { document with nodes := document.nodes ++ twin.page })
            ⟨erected.documents.shared.page.append (Forest.Matches.relax alike.page _),
              erected.documents.shared.among⟩
          have linked := grow.controllers.1 _ _ tied
          refine { presented with controllers := presented.controllers.attach linked .none ?_ ?_ }
          · intro parent none
            cases none
          · intro parent none
            cases none

/-! ## Hidden renders -/

/-- A template is built for a hidden render. -/
theorem Matches.build_first (all : World.Matches hidden own ties first second)
    (supplies : behaviour.Supplies supply) (registry : RegistryId) (config : RenderConfig)
    (template : Template) {scope : Scope} (scopes : scope.Matches ties.unseen scope) :
    let built := first.build behaviour (first.newRender place registry config scope) template scope
    let still := second.buildState (second.newRender place registry config scope)
    ∃ later, ties ≤ later ∧ built.1.Matches later.unseen built.1 ∧
      Site.Alone all.renders.secluded still first.client later built.2 built.2 := by
  have secluded : ties ≤ ties.withRenders all.renders.secluded :=
    Ties.le_withRenders (Tie.le_seclude all.renders.among (lt_irrefl _))
  have lone : all.renders.secluded.lone first.nextRender := .inr rfl
  let still := second.buildState (second.newRender place registry config scope)
  let frame : (first.newSite behaviour (first.newRender place registry config scope)).Abreast Ties _ :=
    Site.alone (supplies.site _ _ _) lone still first.client
  have start : BuildState.Matches (ties.withRenders all.renders.secluded)
      (first.buildState (first.newRender place registry config scope)) still :=
    ⟨all.data.mono secluded rfl rfl rfl, all.controllers.of_eq rfl rfl, all.documents.shared.among⟩
  have twins : frame.Twins (ties.withRenders all.renders.secluded) _ _ Growth.Matches :=
    Site.Abreast.Twins.node Site.Abreast.Twins.viewIn template.root
      (scopes.mono (Ties.monotone_unseen secluded))
  obtain ⟨later, grow, states, related⟩ := twins _ _ ⟨rfl, start, rfl, rfl⟩
  exact ⟨later, secluded.trans grow, related, states⟩

/-- A hidden render that comes is lone. -/
theorem Matches.erected_first (all : World.Matches hidden own ties first second)
    (supplies : behaviour.Supplies supply) (registry : RegistryId) (config : RenderConfig)
    (template : Template) {scope : Scope} (scopes : scope.Matches ties.unseen scope)
    {growth : Growth} {state : BuildState Journal}
    (built : first.build behaviour (first.newRender place registry config scope) template scope =
      (growth, state)) :
    ∃ later, ties ≤ later ∧ later.renders.lone first.nextRender ∧
      growth.Matches later.unseen growth ∧
      World.Matches hidden own later
        (first.erected (first.newRender place registry config scope) scope growth state) second := by
  have builds := all.build_first supplies registry config template scopes
  rw [built] at builds
  obtain ⟨later, whole, related, _, alike, renders, client⟩ := builds
  have unseen : Render.Hidden later
      (mounted (first.newRender place registry config scope) growth scope state.nextBound) := by
    refine ⟨⟨rfl, rfl, rfl, rfl, rfl, ?_⟩, rfl⟩
    exact .keep rfl ⟨rfl, .none, .nil, scopes.mono (Ties.monotone_unseen whole)⟩ related.bound .nil
  refine ⟨later, whole, renders ▸ .inr rfl, related, ?_⟩
  constructor
  · exact alike.data
  · exact alike.controllers
  · exact all.documents.edit_first ⟨all.documents.shared.page_mono whole, alike.nodes⟩
  · exact all.renders.add_first whole renders unseen
  · exact all.registries
  · exact all.engaged.imp fun _ _ engages => engages.mono whole
  · change Journal.Matches hidden own later state.client second.client
    rw [client]
    exact all.client.mono whole

/-- What comes of mounting a hidden render, if it does not fail, is lone. -/
def Secludes (ties : Ties) (outcome : Except RenderError RenderId) : Prop :=
  ∀ id, outcome = .ok id → ties.renders.lone id

theorem secludes_error (error : RenderError) : Secludes ties (.error error) := by
  intro id none
  cases none

theorem Matches.mount_first (all : World.Matches hidden own ties first second)
    (supplies : behaviour.Supplies supply) (registry : RegistryId) (config : RenderConfig)
    (template : Template) {model : ModelId} (inside : model.index < first.data.models.next)
    {controller : ControllerId} (lone : ties.controllers.lone controller) :
    ∃ later, ties ≤ later ∧
      Secludes later (first.mount behaviour place registry config template model controller).1 ∧
      World.Matches hidden own later
        (first.mount behaviour place registry config template model controller).2 second := by
  cases known : (first.registry registry).missingView? template with
  | some name =>
      rw [World.mount, known]
      exact ⟨ties, le_rfl, secludes_error _, all⟩
  | none =>
      have scopes : Scope.Matches ties.unseen ⟨model, controller, 0⟩ ⟨model, controller, 0⟩ :=
        ⟨rfl, ⟨rfl, lone⟩, rfl, Nat.lt_of_lt_of_eq inside all.data.models⟩
      rcases built : first.build behaviour
        (first.newRender place registry config ⟨model, controller, 0⟩) template
        ⟨model, controller, 0⟩ with ⟨growth, state⟩
      obtain ⟨later, grow, hides, alike, erected⟩ :=
        all.erected_first supplies registry config template scopes built
      rw [mount_of_build known built]
      cases growth.failure with
      | some error =>
          refine ⟨later, grow, secludes_error error, ?_⟩
          have torn := erected.teardown_first hides ⟨0⟩
          exact torn.modifyDocument_first _ (torn.documents.shared.vacateAll_first _)
      | none =>
          refine ⟨later, grow, ?_, ?_⟩
          · rintro id ⟨⟩
            exact hides
          · have names : ∀ node ∈ growth.page.names, later.nodes.lone node := fun node member =>
              (List.forall₂_same.1 (Forest.Matches.names_forall₂ alike.page) node member).2
            have page := erected.documents.shared.page.append (Forest.Matches.of_skipped names)
            rw [Forest.append_nil] at page
            have presented := erected.modifyDocument_first
              (fun document => { document with nodes := document.nodes ++ growth.page })
              ⟨page, erected.documents.shared.among⟩
            exact { presented with
              controllers := presented.controllers.attach_first (grow.controllers.2 _ lone) (.inl rfl) }

/-! ## Views with controllers of their own -/

/-- The controller that a view gets. -/
def fresh (world : World Journal) (supply : Hook → List Entry → List (String × Hook))
    (registry : RegistryId) (name : String) : Controller :=
  ((world.registry registry).factory? name).elim .inert fun factory =>
    .actions (supply factory world.client.log) none

theorem fresh_plain (world : World Journal) (supply : Hook → List Entry → List (String × Hook))
    (registry : RegistryId) (name : String) : (world.fresh supply registry name).parent? = none := by
  unfold fresh
  cases (world.registry registry).factory? name <;> rfl

theorem controllerFor_eq (supplies : behaviour.Supplies supply) (world : World Journal)
    (registry : RegistryId) (name : String) : world.controllerFor behaviour registry name =
      (⟨world.controllers.next⟩,
        { world with controllers := world.controllers.add (world.fresh supply registry name) }) := by
  rw [controllerFor, fresh]
  cases (world.registry registry).factory? name with
  | none => rfl
  | some factory =>
      dsimp only
      rw [factories, supplies]
      rfl

/-- Nothing but controllers has come. -/
theorem Matches.hire (all : World.Matches hidden own ties first second) (hires : ties.Hires later)
    {controllers others : Controllers} (alike : Controllers.Matches later controllers others) :
    World.Matches hidden own later { first with controllers } { second with controllers := others } where
  data := all.data.mono hires.le hires.marks hires.models hires.collections
  controllers := alike
  documents := { all.documents with
    shared := ⟨all.documents.shared.page_mono hires.le, hires.nodes ▸ all.documents.shared.among⟩ }
  renders := all.renders.mono hires.le hires.renders
  registries := all.registries
  engaged := all.engaged.imp fun _ _ engages => engages.mono hires.le
  client := all.client.mono hires.le

theorem Matches.mountView (all : World.Matches hidden own ties first second)
    (supplies : behaviour.Supplies supply) (too : also.Supplies supply) (registry : RegistryId)
    (config : RenderConfig) (name : String) {model : ModelId}
    (inside : model.index < first.data.models.next) :
    MeetWith hidden own Mounts ties
      (first.mountView behaviour place registry config name model)
      (second.mountView also place registry config name model) := by
  have registries := all.registry_eq registry
  have same : second.fresh supply registry name = first.fresh supply registry name := by
    rw [World.fresh, World.fresh, registries, all.client.log]
  rw [World.mountView, World.mountView, ← registries]
  cases (first.registry registry).view? name with
  | none => exact ⟨ties, le_rfl, .error _, all⟩
  | some template =>
      dsimp only
      rw [controllerFor_eq supplies, controllerFor_eq too, same]
      obtain ⟨later, hires, tied, alike⟩ :=
        all.controllers.create _ (first.fresh_plain supply registry name)
      obtain ⟨last, grow, mounts, after⟩ :=
        (all.hire hires alike).mount supplies too registry config template inside tied
      exact ⟨last, hires.le.trans grow, mounts, after⟩

theorem Matches.mountView_first (all : World.Matches hidden own ties first second)
    (supplies : behaviour.Supplies supply) (registry : RegistryId) (config : RenderConfig)
    (name : String) {model : ModelId} (inside : model.index < first.data.models.next) :
    ∃ later, ties ≤ later ∧
      Secludes later (first.mountView behaviour place registry config name model).1 ∧
      World.Matches hidden own later
        (first.mountView behaviour place registry config name model).2 second := by
  rw [World.mountView]
  cases (first.registry registry).view? name with
  | none => exact ⟨ties, le_rfl, secludes_error _, all⟩
  | some template =>
      dsimp only
      rw [controllerFor_eq supplies]
      obtain ⟨later, hires, lone, _, alike⟩ :=
        all.controllers.create_first (first.fresh supply registry name)
      obtain ⟨last, grow, hides, after⟩ :=
        (all.hire hires alike).mount_first supplies registry config template inside lone
      exact ⟨last, hires.le.trans grow, hides, after⟩

/-! ## Taking down -/

theorem Matches.unmount (all : World.Matches hidden own ties first second) {one other : RenderId}
    (tied : ties.renders.pairs one other) :
    World.Matches hidden own ties (first.unmount one) (second.unmount other) := by
  obtain ⟨render, twin, here, there, shown⟩ := all.rendered tied
  rw [World.unmount, World.unmount, here, there]
  dsimp only
  rw [shown.alike.root]
  exact all.teardown tied twin.root

theorem Matches.unmount_first (all : World.Matches hidden own ties first second) {id : RenderId}
    (lone : ties.renders.lone id) : World.Matches hidden own ties (first.unmount id) second := by
  obtain ⟨render, here, _⟩ := all.rendered_first lone
  rw [World.unmount, here]
  exact all.teardown_first lone render.root

end World

end LiveTemplate
