import LiveTemplate.Proofs.Upkeep.Course
import LiveTemplate.Proofs.Upkeep.Direct
import LiveTemplate.Proofs.Upkeep.Events
import LiveTemplate.Proofs.View.LiveUpdate

/-!
# Updating in whatever order

Where every path has one segment and no list is shown, a render does not go by what it is told, but
reads the models.  So it ends up right whatever is set and changed in the middle of announcements.
-/

namespace LiveTemplate.World

variable {Client : Type} {world shown after : World Client} {template : Template}
  {model : ModelId} {render : Render} {place : DocumentId}
  {registry : RegistryId} {config : RenderConfig} {id : RenderId} {behaviour : Behaviour Client}
  {controller : ControllerId}

/-- Whatever has happened before, and whatever is set and changed afterwards, in the middle of other
calls or not: a render whose paths have one segment and that shows no list looks as if its template
had just been mounted, and it has registered in the same places.  The order of attributes does not
count; what is displayed or decided by must not depend on the items of collections, and no view may
have been nested too deeply in the meantime. -/
theorem Conduct.direct_update {client : Client} (conduct : Conduct { client } world)
    (there : place.index < world.documents.next) (inside : model.index < world.data.models.next)
    (mounted : world.mount behaviour place registry config template model controller = (.ok id, shown))
    (tidy : (world.registry registry).Throughout template (·.root.Tidy))
    (direct : (world.registry registry).Throughout template (·.root.Direct))
    (course : Course (listless id) id shown after) (spared : Spared id shown after)
    (known : after.render? id = some render)
    (plain : ∀ entry ∈ render.tree.nodes.entries, entry.2.Plain after.data)
    (afresh : Behaviour Client) {somewhere : DocumentId}
    (also : somewhere.index < after.documents.next) (another : ControllerId) :
    ∃ other renewed twin,
      after.mount afresh somewhere registry config template model another = (.ok other, renewed) ∧
      renewed.render? other = some twin ∧ twin.document = somewhere ∧
      Forest.Alike ((after.document render.document).nodes.subtree render.node)
        ((renewed.document somewhere).nodes.subtree twin.node) ∧
      ∀ source, after.registeredOn id source = renewed.registeredOn other source := by
  obtain ⟨frame, early, own, reached, _, registries, begun⟩ := mount_upholds behaviour conduct.sound
    there inside mounted (fun _ : True => tidy) False fun _ => []
  have kept := mount_kept behaviour conduct.sound registry config template controller there inside
  rw [mounted] at kept
  obtain rfl := own.render
  have views : frame.Direct := fun name view member found =>
    direct.2 name view (reached name member) (own.registry ▸ found)
  have proceeds := course.proceeds begun.sound
  obtain ⟨late, upholds⟩ :=
    course.upholds (listless_turns views (.node direct.1)) begun (.inl spared)
  obtain rfl := Option.some.inj (upholds.known.symm.trans known)
  have same : after.registry registry = world.registry registry := by
    rw [World.registry, proceeds.registries, registries]
    rfl
  rw [← same] at own
  exact upholds.renewed own plain (same ▸ complete_of_mount behaviour mounted)
    (inside.trans_le (kept.agrees.models.ge.trans proceeds.models)) afresh also another

/-! ## A name that is never empty

A subscriber that was there before the render puts a name in when the name is taken away.  So the
render is told of the name first and of the empty text afterwards. -/

/-- Client code that puts a name in. -/
def naming : Behaviour Unit :=
  { still Unit with
    value := fun _ told world =>
      match told with
      | .text "" => world.setOr (still Unit) ⟨0⟩ "name" (.text "Grace")
      | _ => world }

/-- The model with the name has a subscriber. -/
def watched : World Unit :=
  { prepared with
    data := (prepared.data.subscribe ⟨0⟩ (changeChannel "name") (.client ⟨0⟩)).2 }

/-- The greeting, and before it the subscriber. -/
def hailed : World Unit :=
  (watched.mount (still Unit) ⟨0⟩ ⟨0⟩ {} greeting ⟨0⟩ ⟨0⟩).2

/-- The name has been taken away, and nobody has been told. -/
def unnamed : World Unit :=
  { hailed with data := hailed.data.modifyModel ⟨0⟩ (·.put "name" (.text "")) }

/-- The greeting after the name has been taken away and put in again. -/
def renamed : World Unit :=
  hailed.setOr naming ⟨0⟩ "name" (.text "")

theorem conduct_watched : Conduct { client := () } watched :=
  conduct_prepared.trans (.next (.subscribe _ ⟨0⟩ (Nat.lt_succ_self 0)) (.done _))

/-- While the name is taken away, it is put in again. -/
theorem run_renamed : Run (listless ⟨0⟩) [] hailed renamed := by
  -- The subscriber is told first, and then only the render.
  obtain ⟨declared, there, before, between, first, owned⟩ :
      (hailed.data.model ⟨0⟩).declares "name" = true ∧
      unnamed.data.isHeld ⟨.model ⟨0⟩ (changeChannel "name"), 0⟩ = true ∧
      (∀ render ∈ hailed.render? ⟨0⟩, ∀ entry ∈ render.tree.nodes.entries, entry.2.kind ≠ .list) ∧
      (∀ render ∈ unnamed.render? ⟨0⟩, ∀ entry ∈ render.tree.nodes.entries, entry.2.kind ≠ .list) ∧
      (unnamed.data.registrationsOn (.model ⟨0⟩ (changeChannel "name"))).head? =
        some (⟨.model ⟨0⟩ (changeChannel "name"), 0⟩, .value (.client ⟨0⟩)) ∧
      ∀ entry ∈ (unnamed.data.registrationsOn (.model ⟨0⟩ (changeChannel "name"))).tail,
        entry.2.owner? ≠ none := by
    rw [unnamed, hailed, mount, Registry.missingView?_of_nil rfl]
    decide +kernel
  have stored : hailed.data.put ⟨0⟩ "name" (.text "") = .ok unnamed.data := by
    rw [Data.put, if_pos declared]
    rfl
  have set := set_eq naming hailed ⟨0⟩ "name" (.text "")
  rw [stored] at set
  have reached : renamed = announce naming (.value ⟨0⟩ "name" (.text ""))
      (unnamed.data.registrationsOn (.model ⟨0⟩ (changeChannel "name"))) unnamed := by
    rw [renamed, setOr, set]
    rfl
  rw [reached]
  refine .next (.set (.text _) stored ?_ set before) (.done _ _)
  obtain ⟨later, listed⟩ := List.head?_eq_some_iff.1 first
  rw [listed] at owned ⊢
  exact .client there rfl ((still_abides _).set (.text _) between) (.of_owned owned _)

theorem greeting_direct : (watched.registry ⟨0⟩).Throughout greeting (·.root.Direct) := by
  refine ⟨⟨nofun, ⟨rfl, rfl, trivial⟩, trivial⟩, fun name view _ found => ?_⟩
  cases found

theorem direct_update_renamed : ∃ render, renamed.render? ⟨0⟩ = some render ∧
    ∃ other renewed twin,
      renamed.mount (still Unit) ⟨0⟩ ⟨0⟩ {} greeting ⟨0⟩ ⟨0⟩ = (.ok other, renewed) ∧
      renewed.render? other = some twin ∧ twin.document = ⟨0⟩ ∧
      Forest.Alike ((renamed.document render.document).nodes.subtree render.node)
        ((renewed.document ⟨0⟩).nodes.subtree twin.node) ∧
      ∀ source, renamed.registeredOn ⟨0⟩ source = renewed.registeredOn other source := by
  obtain ⟨mounted, there, silent, place, plain⟩ :
      (watched.mount (still Unit) ⟨0⟩ ⟨0⟩ {} greeting ⟨0⟩ ⟨0⟩).1 = .ok ⟨0⟩ ∧
      (renamed.render? ⟨0⟩).isSome = true ∧
      renamed.failures.length ≤ hailed.failures.length ∧ 0 < renamed.documents.next ∧
        renamed.data.isPlain = true := by
    rw [renamed, setOr, hailed, mount, Registry.missingView?_of_nil rfl]
    decide +kernel
  obtain ⟨render, known⟩ := Option.isSome_iff_exists.1 there
  exact ⟨render, known, conduct_watched.direct_update (Nat.lt_succ_self 0) (Nat.lt_succ_self 0)
    (Prod.ext mounted rfl) greeting_tidy.throughout greeting_direct (.run run_renamed (.done _))
    (spared_of_length_le silent _) known
    (fun entry _ => (Data.plain_of_isPlain plain).node entry.2) (still Unit) place ⟨0⟩⟩

end LiveTemplate.World
