import LiveTemplate.Proofs.Upkeep.Mounted
import LiveTemplate.Proofs.View.Company

/-!
# Runs in company

Between runs, other templates are mounted and other renders are taken down.  A render that is kept up
to date by each of the runs is so by all of them.
-/

namespace LiveTemplate.World

variable {Client : Type}

/-- Around a render, a document or another render comes, or another render goes. -/
inductive Around (id : RenderId) : World Client → World Client → Prop where
  | mount {behaviour : Behaviour Client} {world : World Client} {place : DocumentId}
      {registry : RegistryId} {config : RenderConfig} {template : Template} {model : ModelId}
      {controller : ControllerId} (there : place.index < world.documents.next)
      (inside : model.index < world.data.models.next) :
      Around id world (world.mount behaviour place registry config template model controller).2
  | unmount {world : World Client} {other : RenderId} (differs : other ≠ id) :
      Around id world (world.unmount other)
  | addDocument (world : World Client) :
      Around id world { world with documents := world.documents.add {} }

/-- Runs, one after the other, with something coming or going around the given render in between. -/
inductive Course (rule : Rule Client) (id : RenderId) : World Client → World Client → Prop where
  | done (world : World Client) : Course rule id world world
  | run {world middle after : World Client} (acts : Run rule [] world middle)
      (rest : Course rule id middle after) : Course rule id world after
  | around {world middle after : World Client} (change : Around id world middle)
      (rest : Course rule id middle after) : Course rule id world after

variable {rule : Rule Client} {id : RenderId} {world after : World Client} {frame : Frame}
  {task : Task} {render : Render} {former : CollectionId → List Value}

/-- What comes or goes around a render that is there concerns another one. -/
theorem Around.concerns (around : Around id world after) (sound : world.Sound) :
    ∃ other, world.Concerns after other ∧ (id.index < world.renders.next → other ≠ id) := by
  have later : id.index < world.renders.next → world.nextRender ≠ id := by
    rintro there rfl
    exact lt_irrefl _ there
  cases around with
  | mount place inside => exact ⟨_, mount_concerns _ sound _ _ _ _ place inside, later⟩
  | unmount differs => exact ⟨_, unmount_concerns sound _, fun _ => differs⟩
  | addDocument => exact ⟨_, addDocument_concerns sound _, later⟩

theorem Course.proceeds (course : Course rule id world after) (sound : world.Sound) :
    world.Proceeds after := by
  induction course with
  | done => exact .refl sound
  | run acts _ induction =>
      have first := acts.proceeds sound
      exact first.trans (induction first.sound)
  | around change _ induction =>
      obtain ⟨_, concerns, _⟩ := change.concerns sound
      exact concerns.proceeds.trans (induction concerns.kept.sound)

/-- A render is upheld by runs, whatever comes and goes between them. -/
theorem Course.upholds (course : Course rule frame.render world after)
    (turns : rule.Turns frame task) (upholds : world.Upholds frame task render former [] [])
    (excused : Excused frame rule world after) :
    ∃ changed, after.Upholds frame task changed former [] [] := by
  induction course generalizing render with
  | done => exact ⟨render, upholds⟩
  | run acts rest induction =>
      have first := acts.proceeds upholds.sound
      have second := rest.proceeds first.sound
      obtain ⟨_, between, _⟩ := acts.upholds turns upholds (excused.early second.failures)
      exact induction between (excused.later first.failures)
  | around change rest induction =>
      obtain ⟨_, concerns, differs⟩ := change.concerns upholds.sound
      exact induction (upholds.aside concerns (differs (Store.lt_next_of_get? upholds.known)))
        (excused.later concerns.failures)

end LiveTemplate.World
