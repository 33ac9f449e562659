import LiveTemplate.Proofs.Upkeep.Exact
import LiveTemplate.Proofs.Upkeep.Maintained
import LiveTemplate.Proofs.View.LeakFreedom

/-!
# Updating comes to the same as showing anew

After any run of calls that are made in turn, a render looks as if its template had just been mounted,
and it has registered in the same places.
-/

namespace LiveTemplate

open BoundForest (sources)

namespace World

variable {Client : Type} {world shown after : World Client} {frame : Frame} {template : Template}
  {model : ModelId} {render : Render} {former : CollectionId → List Value} {place : DocumentId}
  {registry : RegistryId} {config : RenderConfig} {id : RenderId} {behaviour : Behaviour Client}
  {controller : ControllerId}

/-- The number of registrations of a render on a channel or a collection. -/
def registeredOn (world : World Client) (id : RenderId) (source : Source) : Nat :=
  ((world.data.registrationsOn source).filter fun entry => entry.2.isFor id).length

theorem registeredOn_eq (sound : world.Sound) (known : world.render? id = some render)
    (source : Source) : world.registeredOn id source = (sources render.tree.nodes).count source := by
  have same := ((sound.accounts known).channels source).length_eq
  rw [List.length_map] at same
  rw [registeredOn, same, sources, List.count, List.countP_map, List.countP_eq_length_filter]
  rfl

/-- What a render shows is what its bound nodes say. -/
theorem Sound.subtree_eq (sound : world.Sound) (known : world.render? id = some render) :
    (world.document render.document).nodes.subtree render.node =
      (BoundForest.skeleton render.tree.nodes).dress (world.document render.document).data? := by
  obtain ⟨document, stored, own⟩ := sound.renders id render known
  rw [document_eq stored, ← own.mirrors.shape, Forest.dress_shape]
  intro name data member
  obtain ⟨below, has⟩ := Forest.has_iff_mem_entries.2 member
  exact (sound.documents _ _ stored).data?_eq
    (has.of_subtree (sound.documents _ _ stored).distinct).mem_entries

/-- What is upheld, with nothing left to be told, shows the picture of its template. -/
theorem Upholds.exact (upholds : after.Upholds frame (.node template.root model 0) render former [] [])
    (strict : frame.strict) (whole : ¬ frame.mayFail)
    (plain : ∀ entry ∈ render.tree.nodes.entries, entry.2.Plain after.data) :
    ∃ picture, (Setting.mk after.data frame.registry frame.label).template frame.limit template model =
        some picture ∧
      Forest.Alike ((after.document render.document).nodes.subtree render.node) picture.page ∧
      (sources render.tree.nodes).Perm picture.sources := by
  have settled := settled_standing after render.document frame.render former
  obtain ⟨picture, drawn, page, held⟩ := upholds.fits.exact strict whole settled plain
  refine ⟨picture, ?_, ?_, by simpa using held [] .nil fun _ more => (more rfl).elim⟩
  · rw [Task.pictures_single, Task.picture, Task.pictures_single] at drawn
    obtain ⟨inner, found, rfl⟩ := Option.map_eq_some_iff.1 drawn
    exact found
  · rw [upholds.sound.subtree_eq upholds.known]
    exact page

/-- What is upheld, with nothing left to be told, looks as if its template had just been mounted, and
it has registered in the same places. -/
theorem Upholds.renewed (upholds : after.Upholds frame (.node template.root model 0) render former [] [])
    (own : frame.For id (after.registry registry) config True False)
    (plain : ∀ entry ∈ render.tree.nodes.entries, entry.2.Plain after.data)
    (complete : (after.registry registry).missingView? template = none)
    (inside : model.index < after.data.models.next) (afresh : Behaviour Client) {somewhere : DocumentId}
    (also : somewhere.index < after.documents.next) (another : ControllerId) :
    ∃ other renewed twin,
      after.mount afresh somewhere registry config template model another = (.ok other, renewed) ∧
      renewed.render? other = some twin ∧ twin.document = somewhere ∧
      Forest.Alike ((after.document render.document).nodes.subtree render.node)
        ((renewed.document somewhere).nodes.subtree twin.node) ∧
      ∀ source, after.registeredOn id source = renewed.registeredOn other source := by
  have whole : ¬ frame.mayFail := fun fails => own.mayFail.mp fails
  obtain ⟨picture, drawn, page, held⟩ := upholds.exact (own.strict.mpr trivial) whole plain
  have setting : Setting.mk after.data frame.registry frame.label = after.setting registry config := by
    rw [own.registry, own.label]
    rfl
  rw [setting, own.limit] at drawn
  obtain ⟨other, renewed, remounted⟩ := exists_mount afresh upholds.sound somewhere another inside
    complete drawn
  obtain ⟨twin, found, here, again⟩ := mount_picture afresh upholds.sound registry config template
    another also inside remounted
  rw [drawn] at again
  obtain rfl := Option.some.inj again
  refine ⟨other, renewed, twin, remounted, found, here, page.trans (Forest.alike_seen _),
    fun source => ?_⟩
  have tidied : renewed.Sound := by
    have kept := mount_kept afresh upholds.sound registry config template another also inside
    rw [remounted] at kept
    exact kept.sound
  have known := upholds.known
  rw [own.render] at known
  rw [registeredOn_eq upholds.sound known, registeredOn_eq tidied found]
  exact held.count_eq source

/-- Whatever has happened before and whatever is set and changed in turn afterwards: a render looks as
if its template had just been mounted, and it has registered in the same places.  The order of
attributes does not count; what is displayed or decided by must not depend on the items of
collections, and no view may have been nested too deeply in the meantime. -/
theorem Conduct.live_update {client : Client} (conduct : Conduct { client } world)
    (there : place.index < world.documents.next) (inside : model.index < world.data.models.next)
    (mounted : world.mount behaviour place registry config template model controller = (.ok id, shown))
    (tidy : (world.registry registry).Tidy template) (run : Run (inTurn id) [] shown after)
    (spared : Spared id shown after) (known : after.render? id = some render)
    (plain : ∀ entry ∈ render.tree.nodes.entries, entry.2.Plain after.data)
    (afresh : Behaviour Client) {somewhere : DocumentId}
    (also : somewhere.index < after.documents.next) (another : ControllerId) :
    ∃ other renewed twin,
      after.mount afresh somewhere registry config template model another = (.ok other, renewed) ∧
      renewed.render? other = some twin ∧ twin.document = somewhere ∧
      Forest.Alike ((after.document render.document).nodes.subtree render.node)
        ((renewed.document somewhere).nodes.subtree twin.node) ∧
      ∀ source, after.registeredOn id source = renewed.registeredOn other source := by
  obtain ⟨frame, own, registries, models, upholds⟩ := conduct.upholds there inside mounted
    (fun _ : True => tidy) False (inTurn_orderly id) run (.inl spared) known
  have same : after.registry registry = world.registry registry := by
    rw [World.registry, registries]
    rfl
  rw [← same] at own
  exact upholds.renewed own plain (same ▸ complete_of_mount behaviour mounted)
    (inside.trans_le models) afresh also another

/-- The greeting after the name has been taken away. -/
def silenced : World Unit :=
  greeted.setOr (still Unit) ⟨0⟩ "name" (.text "")

theorem run_silenced : Run (inTurn ⟨0⟩) [] greeted silenced :=
  (still_abides _).set (.text _) InTurn.nil

theorem greeting_tidy : (prepared.registry ⟨0⟩).Tidy greeting := by
  refine ⟨⟨List.nodup_nil, ⟨trivial, trivial⟩, trivial⟩, fun name view found => ?_⟩
  cases found

theorem live_update_greeting : ∃ render, silenced.render? ⟨0⟩ = some render ∧
    ∃ other renewed twin,
      silenced.mount (still Unit) ⟨0⟩ ⟨0⟩ {} greeting ⟨0⟩ ⟨0⟩ = (.ok other, renewed) ∧
      renewed.render? other = some twin ∧ twin.document = ⟨0⟩ ∧
      Forest.Alike ((silenced.document render.document).nodes.subtree render.node)
        ((renewed.document ⟨0⟩).nodes.subtree twin.node) ∧
      ∀ source, silenced.registeredOn ⟨0⟩ source = renewed.registeredOn other source := by
  obtain ⟨there, silent, place, plain⟩ : (silenced.render? ⟨0⟩).isSome = true ∧
      silenced.failures.length ≤ greeted.failures.length ∧ 0 < silenced.documents.next ∧
        silenced.data.isPlain = true := by
    rw [silenced, setOr, greeted, mount, Registry.missingView?_of_nil rfl]
    decide +kernel
  obtain ⟨render, known⟩ := Option.isSome_iff_exists.1 there
  exact ⟨render, known, conduct_prepared.live_update (Nat.lt_succ_self 0) (Nat.lt_succ_self 0)
    mount_greeting greeting_tidy run_silenced (spared_of_length_le silent _) known
    (fun entry _ => (Data.plain_of_isPlain plain).node entry.2) (still Unit) place ⟨0⟩⟩

end World

end LiveTemplate
