import LiveTemplate.Proofs.Meaning.Building
import LiveTemplate.Proofs.Meaning.Room
import LiveTemplate.Proofs.View.Reachable

/-!
# The first picture

A template that is mounted shows its picture, and it can be mounted exactly if it has one.
-/

namespace LiveTemplate

open BoundForest (sources)

/-- The models, collections and views that a mounting starts from. -/
def World.setting {Client : Type} (world : World Client) (registry : RegistryId)
    (config : RenderConfig) : Setting :=
  ⟨world.data, world.registry registry, config.anchorLabel⟩

/-- The picture of a template, with room for so many views in each other. -/
def Setting.template (setting : Setting) (room : Nat) (template : Template) (model : ModelId) :
    Option Picture :=
  setting.node (setting.view room) template.root model

namespace World

variable {Client : Type} {world after : World Client}

theorem raise_draws (behaviour : Behaviour Client) (sound : world.Sound) (place : DocumentId)
    (registry : RegistryId) (config : RenderConfig) (template : Template) (scope : Scope)
    (top : scope.depth = 0) (inside : scope.model.index < world.data.models.next) :
    (world.setting registry config).template config.maxViewDepth template scope.model =
      (world.raise behaviour (world.newRender place registry config scope) template scope).1.picture? := by
  set render := world.newRender place registry config scope with new
  obtain ⟨after, run⟩ := exists_grown behaviour
    { world with renders := world.renders.add render } world.nextRender render fun site =>
      site.node site.viewIn template.root scope
  rw [raise_eq]
  have views := Site.viewIn_draws
    ({ world with renders := world.renders.add render }.site behaviour world.nextRender render)
    (show _ = (world.setting registry config).label from rfl) rfl scope.depth
  have drawn := Site.node_draws _ (fun scope => Site.view_grows _ _ scope) rfl template.root scope
    views _ _ _ run.runs (Data.Agrees.refl _) sound.data inside
  rw [top] at drawn
  exact drawn

/-- What has been presented shows the picture. -/
theorem Raised.present_seen {render : Render} {scope : Scope} {document : Document} {growth : Growth}
    {raised : World Client} {state : BuildState Client} (sound : world.Sound)
    (run : Raised world render scope document growth raised state) :
    (((raised.present render growth).document render.document).nodes.subtree render.node).seen =
      growth.page.seen := by
  obtain ⟨issued, fresh, single⟩ := run.fresh
  obtain ⟨data, inner, page, _⟩ := run.page
  have documentSound := sound.documents _ _ run.stored
  have stored : (raised.present render growth).documents.get? render.document.index =
      some { nodes := document.nodes ++ growth.page, places := state.places } := by
    show (raised.documents.modify _ _).get? _ = _
    rw [run.documents, Store.get?_modify, if_pos rfl, Store.get?_modify, if_pos rfl, run.stored]
    rfl
  have absent : render.node ∉ document.nodes.names := fun member =>
    fresh render.node (by simp [page]) (documentSound.issued _ member)
  rw [document_eq stored]
  show ((document.nodes ++ growth.page).subtree render.node).seen = _
  rw [Forest.subtree_append_right absent, page]
  simp [Forest.subtree]

/-- A template is mounted exactly if it has a picture, and then this is what stands at its root. -/
theorem mount_picture (behaviour : Behaviour Client) (sound : world.Sound) {place : DocumentId}
    (registry : RegistryId) (config : RenderConfig) (template : Template) {model : ModelId}
    (controller : ControllerId) (there : place.index < world.documents.next)
    (inside : model.index < world.data.models.next) {id : RenderId}
    (mounted : world.mount behaviour place registry config template model controller = (.ok id, after)) :
    ∃ render, after.render? id = some render ∧ render.document = place ∧
      (world.setting registry config).template config.maxViewDepth template model =
        some ⟨((after.document place).nodes.subtree render.node).seen,
          sources render.tree.nodes⟩ := by
  unfold mount at mounted
  split at mounted
  · cases mounted
  · have modelled : ({ model, controller } : Scope).model.index < world.data.models.next := inside
    obtain ⟨document, state, run⟩ :=
      exists_raised behaviour sound registry config template there modelled
    have drawn := raise_draws behaviour sound place registry config template
      { model, controller } rfl inside
    dsimp only at mounted
    generalize world.raise behaviour _ template _ = result at run drawn mounted
    obtain ⟨growth, raised⟩ := result
    dsimp only at run drawn mounted
    split at mounted
    · cases mounted
    · rename_i success
      obtain ⟨same, rfl⟩ := Prod.mk.inj mounted
      obtain rfl := Except.ok.inj same
      refine ⟨_, run.known, rfl, ?_⟩
      have held : sources (World.mounted (world.newRender place registry config { model, controller })
          growth { model, controller } state.nextBound).tree.nodes = sources growth.bound := by
        simp [World.mounted]
      rw [drawn, Growth.picture?_of_success success, ← run.present_seen sound, ← held]
      rfl

/-- The picture of the greeting: a paragraph with an anchor and the name. -/
example : ((prepared.setting ⟨0⟩ {}).template 0 greeting ⟨0⟩).map (·.page) =
    some (.cons () (.element "p")
      (.cons () (.anchor none) .nil (.leaf () (.text "Ada"))) .nil) := by
  rfl

end World

end LiveTemplate
