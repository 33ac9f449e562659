import LiveTemplate.Proofs.Meaning.Search
import LiveTemplate.Proofs.Upkeep.Maintained
import LiveTemplate.Proofs.View.InitialPicture

/-!
# A render that has just been mounted

Mounting looks up every view that the template may need.  So all of them are known, and what is built
fits the template.
-/

namespace LiveTemplate

open Template (Node Attribute Rule)

namespace Registry

variable {registry : Registry}

/-- A template and all views within its reach are of some kind. -/
def Throughout (registry : Registry) (template : Template) (kind : Template → Prop) : Prop :=
  kind template ∧
    ∀ name view, registry.Reaches template name → registry.view? name = some view → kind view

end Registry

mutual

/-- No element repeats an attribute or a style property. -/
def Template.Node.Tidy : Node → Prop
  | .element _ attributes children _ =>
    ((attributes.filterMap Attribute.display?).map Prod.fst).Nodup ∧ Template.AllTidy children
  | .text _ => True
  | .directive _ _ body => Template.AllTidy body
  | .view _ => True

def Template.AllTidy : List Node → Prop
  | [] => True
  | node :: later => node.Tidy ∧ Template.AllTidy later

end

section Proper

variable {known : String → Prop} {strict : Prop}

mutual

/-- A node is proper if the views that it refers to are known. -/
theorem Template.Node.proper : ∀ node : Node, (∀ name ∈ node.viewNames, known name) →
    (strict → node.Tidy) → node.Proper known strict
  | .element tag attributes children line, names, tidy => by
      refine ⟨fun asked => (tidy asked).1, ?_⟩
      exact Template.all_proper children names fun asked => (tidy asked).2
  | .text _, _, _ => trivial
  | .directive (.view name) _ body, names, tidy => by
      refine ⟨?_, Template.all_proper body (fun other member => names other (.tail _ member)) tidy⟩
      rintro _ ⟨⟩
      exact names name (List.mem_cons_self ..)
  | .directive .showIf _ body, names, tidy => ⟨nofun, Template.all_proper body names tidy⟩
  | .directive .showUnless _ body, names, tidy => ⟨nofun, Template.all_proper body names tidy⟩
  | .directive .each _ body, names, tidy => ⟨nofun, Template.all_proper body names tidy⟩
  | .directive .collection _ body, names, tidy => ⟨nofun, Template.all_proper body names tidy⟩
  | .view name, names, _ => names name (List.mem_singleton_self _)

theorem Template.all_proper : ∀ nodes : List Node, (∀ name ∈ Template.viewNamesOf nodes, known name) →
    (strict → Template.AllTidy nodes) → Template.AllProper known strict nodes
  | [], _, _ => trivial
  | node :: later, names, tidy =>
    ⟨node.proper (fun name member => names name (List.mem_append_left _ member))
      fun asked => (tidy asked).1,
      Template.all_proper later (fun name member => names name (List.mem_append_right _ member))
        fun asked => (tidy asked).2⟩

end

end Proper

/-- No element of a template or of a registered view repeats an attribute or a style property. -/
def Registry.Tidy (registry : Registry) (template : Template) : Prop :=
  template.root.Tidy ∧ ∀ name view, registry.view? name = some view → view.root.Tidy

theorem Registry.Tidy.throughout {registry : Registry} {template : Template}
    (tidy : registry.Tidy template) : registry.Throughout template (·.root.Tidy) :=
  ⟨tidy.1, fun name view _ => tidy.2 name view⟩

/-- A frame for a render that is mounted. -/
structure Frame.For (frame : Frame) (render : RenderId) (registry : Registry) (config : RenderConfig)
    (strict mayFail : Prop) : Prop where
  render : frame.render = render
  registry : frame.registry = registry
  label : frame.label = config.anchorLabel
  limit : frame.limit = config.maxViewDepth
  strict : frame.strict = strict
  mayFail : frame.mayFail = mayFail

/-- If no view is missing, there is a frame in which the template is proper, and in which the views
within its reach are known. -/
theorem Registry.exists_frame {registry : Registry} {template : Template} {strict : Prop}
    (complete : registry.missingView? template = none)
    (tidy : strict → registry.Throughout template (·.root.Tidy)) (render : RenderId)
    (config : RenderConfig) (mayFail : Prop) :
    ∃ frame : Frame, frame.For render registry config strict mayFail ∧
      (∀ name, frame.known name → registry.Reaches template name) ∧
      template.root.Proper frame.known frame.strict := by
  refine ⟨⟨render, registry, config.anchorLabel, config.maxViewDepth, registry.Reaches template,
    strict, mayFail, fun name reached => ?_⟩, ⟨rfl, rfl, rfl, rfl, rfl, rfl⟩, fun _ => id, ?_⟩
  · obtain ⟨view, found⟩ := complete_of_missingView? complete name reached
    exact ⟨view, found, view.root.proper (fun other refers => .through reached found refers)
      fun asked => (tidy asked).2 name view reached found⟩
  · exact template.root.proper (fun other refers => .direct refers) fun asked => (tidy asked).1

namespace World

variable {Client : Type} {world after : World Client} {place : DocumentId} {registry : RegistryId}
  {config : RenderConfig} {template : Template}

/-- What has been presented is in the document. -/
theorem Raised.looks {render : Render} {scope : Scope} {document : Document} {growth : Growth}
    {raised : World Client} {state : BuildState Client}
    (run : Raised world render scope document growth raised state)
    (tidy : (raised.present render growth).Sound) {dom : NodeId} {data : NodeData}
    (member : (dom, data) ∈ growth.page.entries) :
    ((raised.present render growth).document render.document).data? dom = some data := by
  have stored : (raised.present render growth).documents.get? render.document.index =
      some { nodes := document.nodes ++ growth.page, places := state.places } := by
    show (raised.documents.modify _ _).get? _ = _
    rw [run.documents, Store.get?_modify, if_pos rfl, Store.get?_modify, if_pos rfl, run.stored]
    rfl
  rw [document_eq stored]
  refine (tidy.documents _ _ stored).data?_eq ?_
  rw [Forest.entries_append]
  exact List.mem_append_right _ member

/-- What is raised serves the template. -/
theorem raise_serves (behaviour : Behaviour Client) (sound : world.Sound) (place : DocumentId)
    (scope : Scope) (top : scope.depth = 0) (inside : scope.model.index < world.data.models.next)
    {frame : Frame}
    {strict mayFail : Prop}
    (own : frame.For world.nextRender (world.registry registry) config strict mayFail)
    (proper : template.root.Proper frame.known frame.strict) :
    ∃ before later : BuildState Client, before.data = world.data ∧
      (world.raise behaviour (world.newRender place registry config scope) template scope).2.data =
        later.data ∧
      Site.Fulfils frame before later
        (world.raise behaviour (world.newRender place registry config scope) template scope).1
        [.node template.root scope.model 0] := by
  set render := world.newRender place registry config scope with new
  obtain ⟨after, run⟩ := exists_grown behaviour
    { world with renders := world.renders.add render } world.nextRender render fun site =>
      site.node site.viewIn template.root scope
  rw [raise_eq]
  refine ⟨({ world with renders := world.renders.add render } : World Client).buildState render, after,
    rfl, run.data, ?_⟩
  let site := { world with renders := world.renders.add render }.site behaviour world.nextRender render
  have views : Site.ViewsServe frame scope.depth site.viewIn :=
    Site.viewIn_serves own.render own.label.symm own.registry.symm own.limit.symm scope.depth
  have serves := Site.node_serves own.render own.label.symm
    (fun scope => Site.view_grows _ _ scope) template.root scope views proper _ _ _ run.runs sound.data
    inside
  rw [top] at serves
  exact serves

/-- A template that has been mounted is shown as it should be. -/
theorem mount_upholds (behaviour : Behaviour Client) (sound : world.Sound) {model : ModelId}
    {controller : ControllerId} (there : place.index < world.documents.next)
    (inside : model.index < world.data.models.next) {id : RenderId}
    (mounted : world.mount behaviour place registry config template model controller = (.ok id, after))
    {strict : Prop} (tidy : strict → (world.registry registry).Throughout template (·.root.Tidy))
    (mayFail : Prop) (former : CollectionId → List Value) :
    ∃ frame render, frame.For id (world.registry registry) config strict mayFail ∧
      (∀ name, frame.known name → (world.registry registry).Reaches template name) ∧
      render.document = place ∧ after.registries = world.registries ∧
      after.Upholds frame (.node template.root model 0) render former [] [] := by
  unfold mount at mounted
  split at mounted
  · cases mounted
  · rename_i complete
    have modelled : ({ model, controller } : Scope).model.index < world.data.models.next := inside
    obtain ⟨frame, own, reached, proper⟩ :=
      Registry.exists_frame complete tidy world.nextRender config mayFail
    obtain ⟨document, state, run⟩ :=
      exists_raised behaviour sound registry config template there modelled
    obtain ⟨before, later, data, same, serves⟩ :=
      raise_serves behaviour sound place { model, controller } rfl modelled own proper
    dsimp only at mounted
    generalize world.raise behaviour _ template _ = result at run serves same mounted
    obtain ⟨growth, raised⟩ := result
    dsimp only at run serves same mounted
    split at mounted
    · cases mounted
    · rename_i success
      obtain ⟨equal, rfl⟩ := Prod.mk.inj mounted
      obtain rfl := Except.ok.inj equal
      have presented := present_sound sound run modelled
      obtain ⟨done, _, whole, fits⟩ := serves.fits (.inl success)
      obtain rfl := whole success
      refine ⟨frame, _, own, reached, rfl, run.registries, presented.of_eq rfl rfl rfl, own.render ▸ run.known,
        ?_, ?_, ?_,
        List.Subset.refl _, nofun, ?_⟩
      · show raised.registry registry = _
        rw [World.registry, run.registries, own.registry]
        rfl
      · exact own.label.symm
      · exact own.limit.symm
      · refine .cons (.content (fun task member => ?_) fun _ _ => by simp) (.content .nil) (.inl rfl)
          ?_ .nil
        · obtain rfl := List.mem_singleton.1 member
          exact .node proper
        · apply fits
          refine ⟨?_, ?_, ?_, ?_⟩
          · rw [data]
            exact run.extends.agrees.symm
          · rw [← same]
            exact fun _ _ held => held
          · rintro _ ⟨_, listed, _⟩
            cases listed
          · exact fun dom data member => run.looks presented member

theorem complete_of_mount (behaviour : Behaviour Client) {model : ModelId} {controller : ControllerId}
    {id : RenderId}
    (mounted : world.mount behaviour place registry config template model controller = (.ok id, after)) :
    (world.registry registry).missingView? template = none := by
  unfold mount at mounted
  split at mounted
  · cases mounted
  · assumption

/-- What has a picture can be mounted, if no view is missing. -/
theorem exists_mount (behaviour : Behaviour Client) (sound : world.Sound) (place : DocumentId)
    {model : ModelId} (controller : ControllerId) (inside : model.index < world.data.models.next)
    (complete : (world.registry registry).missingView? template = none) {picture : Picture}
    (drawn : (world.setting registry config).template config.maxViewDepth template model =
      some picture) :
    ∃ id after,
      world.mount behaviour place registry config template model controller = (.ok id, after) := by
  unfold mount
  rw [complete]
  have draws := raise_draws behaviour sound place registry config template { model, controller } rfl
    inside
  dsimp only at draws ⊢
  generalize world.raise behaviour _ template _ = result at draws ⊢
  obtain ⟨growth, raised⟩ := result
  cases failed : growth.failure with
  | none => simp
  | some error =>
      rw [drawn, Growth.picture?_of_failure (by simp [failed])] at draws
      cases draws

/-- A render is upheld by every orderly run after it has been mounted. -/
theorem Conduct.upholds {client : Client} {shown : World Client} {model : ModelId}
    {behaviour : Behaviour Client} {controller : ControllerId} {id : RenderId} {rule : Rule Client}
    {render : Render} (conduct : Conduct { client } world)
    (there : place.index < world.documents.next) (inside : model.index < world.data.models.next)
    (mounted : world.mount behaviour place registry config template model controller = (.ok id, shown))
    {strict : Prop} (tidy : strict → (world.registry registry).Tidy template) (mayFail : Prop)
    (orderly : rule.Orderly id) (run : Run rule [] shown after)
    (excused : Spared id shown after ∨ mayFail ∧ rule.Contains id)
    (known : after.render? id = some render) :
    ∃ frame, frame.For id (world.registry registry) config strict mayFail ∧
      after.registries = world.registries ∧ world.data.models.next ≤ after.data.models.next ∧
      after.Upholds frame (.node template.root model 0) render (fun _ => []) [] [] := by
  have sound := conduct.sound
  have kept := mount_kept behaviour sound registry config template controller there inside
  rw [mounted] at kept
  obtain ⟨frame, early, own, _, _, registries, begun⟩ := mount_upholds behaviour sound there inside
    mounted (fun asked => (tidy asked).throughout) mayFail fun _ => []
  obtain rfl := own.render
  obtain ⟨late, upholds, onward⟩ := run.upholds orderly.turns begun
    (excused.imp_right (And.imp_left own.mayFail.mpr))
  obtain rfl := Option.some.inj (upholds.known.symm.trans known)
  exact ⟨frame, own, onward.registries.trans registries,
    kept.agrees.models.ge.trans onward.models, upholds⟩

end World

end LiveTemplate
