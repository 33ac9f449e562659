import LiveTemplate.Proofs.View.Stages

/-!
# Renders that come and go

When a template is mounted or a render is taken down, nothing changes for the other renders.
-/

namespace LiveTemplate

/-- Nodes have come, and none has been changed. -/
theorem Document.Sound.recalls {document edited : Document} (sound : document.Sound)
    (issued : ∀ node, document.places.Issued node → edited.places.Issued node)
    {page : Forest NodeId NodeData} (fresh : ∀ node ∈ page.names, ¬ document.places.Issued node)
    (nodes : edited.nodes = document.nodes ++ page) : document.Recalls edited := by
  refine .of_entries sound issued fun entry member => ?_
  rw [nodes, Forest.entries_append] at member
  exact (List.mem_append.1 member).imp_right fun new => fresh _ (List.mem_map_of_mem new)

namespace World

variable {Client : Type} {world after : World Client} {render : Render} {scope : Scope}
  {document edited : Document} {growth : Growth} {raised : World Client} {state : BuildState Client}

/-- A new render concerns no other. -/
theorem Adds.concerns (adds : world.Adds after render document edited) (sound : world.Sound)
    (agrees : world.data.Agrees after.data) (data : world.data.Recalls after.data)
    (recalls : document.Recalls edited) (registries : after.registries = world.registries)
    (failures : after.failures = world.failures) : world.Concerns after world.nextRender where
  kept := ⟨sound.of_adds adds, agrees⟩
  data := data
  there := by
    intro other differs
    have apart : other.index ≠ world.renders.next := fun same =>
      differs (by cases other; simp_all [nextRender])
    rw [render?, adds.renders, Store.get?_add, if_neg apart, render?]
  looks := by
    intro other another _ known node made found there
    obtain ⟨_, stored, own⟩ := sound.renders other another known
    rw [document_modify adds.stored adds.documents] at there
    split at there
    · rename_i same
      rw [same] at stored ⊢
      obtain rfl := Option.some.inj (stored.symm.trans adds.stored)
      rw [document_eq stored]
      exact recalls.data node found (own.mirrors.issued node made) there
    · exact there
  registries := registries
  failures := failures ▸ List.prefix_refl _

theorem Raised.present_concerns (run : Raised world render scope document growth raised state)
    (sound : world.Sound) (inside : scope.model.index < world.data.models.next) :
    world.Concerns (raised.present render growth) world.nextRender := by
  obtain ⟨issued, fresh, _⟩ := run.fresh
  have recalls : document.Recalls { nodes := document.nodes ++ growth.page, places := state.places } :=
    (sound.documents _ _ run.stored).recalls (fun node given => (issued node).2 (.inl given)) fresh rfl
  exact (run.presents sound inside).concerns sound run.extends.agrees run.extends.recalls recalls
    run.registries run.failures

theorem Raised.abandon_concerns (run : Raised world render scope document growth raised state)
    (sound : world.Sound) :
    world.Concerns (raised.abandon world.nextRender render growth) world.nextRender := by
  obtain ⟨places, older, cancels, adds⟩ := run.abandons sound
  have recalls : document.Recalls { document with places } := ⟨older, fun _ _ _ there => there⟩
  have torn : (raised.teardown world.nextRender render.root).registries = raised.registries ∧
      (raised.teardown world.nextRender render.root).failures = raised.failures := by
    simp only [World.teardown, run.known]
    exact ⟨rfl, rfl⟩
  exact adds.concerns sound (run.extends.agrees.trans cancels.agrees)
    (run.extends.recalls.trans cancels.recalls) recalls (torn.1.trans run.registries)
    (torn.2.trans run.failures)

/-- Mounting a template concerns no render that was there before. -/
theorem mount_concerns (behaviour : Behaviour Client) (sound : world.Sound) {place : DocumentId}
    (registry : RegistryId) (config : RenderConfig) (template : Template) {model : ModelId}
    (controller : ControllerId) (there : place.index < world.documents.next)
    (inside : model.index < world.data.models.next) :
    world.Concerns (world.mount behaviour place registry config template model controller).2
      world.nextRender := by
  unfold mount
  split
  · exact .refl sound _
  · have modelled : ({ model, controller } : Scope).model.index < world.data.models.next := inside
    obtain ⟨document, state, run⟩ :=
      exists_raised behaviour sound registry config template there modelled
    dsimp only
    generalize world.raise behaviour _ template _ = result at run ⊢
    obtain ⟨growth, raised⟩ := result
    dsimp only at run ⊢
    split
    · exact run.abandon_concerns sound
    · obtain ⟨kept, data, others, looks, registries, failures⟩ := run.present_concerns sound modelled
      exact ⟨⟨kept.sound.of_eq rfl rfl rfl, kept.agrees⟩, data, others, looks, registries, failures⟩

/-- Taking a render down concerns no other. -/
theorem unmount_concerns (sound : world.Sound) (id : RenderId) :
    world.Concerns (world.unmount id) id := by
  unfold unmount
  split
  · rename_i render known
    exact (teardown_progress sound known render.root).concerns sound
      (sound.teardown (sound.spares_root known))
  · exact .refl sound id

/-- A new document concerns nobody. -/
theorem addDocument_concerns (sound : world.Sound) (id : RenderId) :
    world.Concerns { world with documents := world.documents.add {} } id where
  kept := ⟨sound.addDocument, .refl _⟩
  data := .refl _
  there := fun _ _ => rfl
  looks := by
    intro other render _ known node _ found there
    obtain ⟨document, stored, _⟩ := sound.renders other render known
    have still : ({ world with documents := world.documents.add {} } : World Client).documents.get?
        render.document.index = some document := by
      rw [Store.get?_add, if_neg (Store.lt_next_of_get? stored).ne, stored]
    rw [document_eq still] at there
    rw [document_eq stored]
    exact there
  registries := rfl
  failures := List.prefix_refl _

end World

end LiveTemplate
