import LiveTemplate.Proofs.Command.Appointing

/-!
# Stories

A story is what happens to a world, one thing after the other: the client moves its data on, a render
reacts to what it is told, templates are mounted and taken down, controllers, views and factories come.
What happens while something else is in progress is told in between.  A story remembers the worlds that it
has passed through and who was made a root controller, so that it can be said what was registered when a
view was shown and which controllers were lent afterwards.
-/

namespace LiveTemplate.World

variable {Client : Type} {behaviour : Behaviour Client} {world middle after start : World Client}
  {appointed : Option ControllerId}

/-- One thing that happens, and the controller that is made a root controller by it, if any. -/
inductive Episode (behaviour : Behaviour Client) :
    World Client → Option ControllerId → World Client → Prop where
  | move {world : World Client} {data : Data} (moves : world.data.Moves data) :
      Episode behaviour world none { world with data }
  | addDocument (world : World Client) :
      Episode behaviour world none { world with documents := world.documents.add {} }
  | edit {world : World Client} {place : DocumentId} {document edited : Document}
      (stored : world.documents.get? place.index = some document) (sound : edited.Sound)
      (respects : ∀ id render, world.render? id = some render → render.document = place →
        document.Respects edited render) :
      Episode behaviour world none (world.setDocument place edited)
  /-- An observer of a render is told the new value of a property. -/
  | react {world : World Client} (observer : PathObserver) {value : Value}
      (refers : world.data.Refers value) :
      Episode behaviour world none (world.react behaviour observer value)
  /-- An observer of a render is told a change of a collection. -/
  | follow {world : World Client} {change : Change} {observer : ChangeObserver}
      (refers : world.data.RefersIn change) (own : (Observer.change observer).owner? ≠ none) :
      Episode behaviour world none (world.tellChange behaviour change observer)
  | mount {world after : World Client} {place : DocumentId} {registry : RegistryId}
      {config : RenderConfig} {template : Template} {model : ModelId} {controller : ControllerId}
      {id : RenderId} (there : place.index < world.documents.next)
      (inside : model.index < world.data.models.next)
      (mount : world.mount behaviour place registry config template model controller =
        (.ok id, after)) : Episode behaviour world (some controller) after
  /-- A template cannot be mounted. -/
  | fail {world after : World Client} {place : DocumentId} {registry : RegistryId}
      {config : RenderConfig} {template : Template} {model : ModelId} {controller : ControllerId}
      {error : RenderError} (there : place.index < world.documents.next)
      (inside : model.index < world.data.models.next)
      (mount : world.mount behaviour place registry config template model controller =
        (.error error, after)) : Episode behaviour world none after
  | unmount {world : World Client} (id : RenderId) : Episode behaviour world none (world.unmount id)
  /-- Registries change, controllers come, and the client does something for itself. -/
  | other {world after : World Client} (data : after.data = world.data)
      (documents : after.documents = world.documents) (renders : after.renders = world.renders)
      (failures : after.failures = world.failures)
      (controllers : world.controllers.Extends after.controllers) : Episode behaviour world none after

theorem Episode.sequel (episode : Episode behaviour world appointed after) (sound : world.Sound) :
    world.Sequel after := by
  cases episode with
  | move moves => exact sound.moved moves
  | addDocument => exact ⟨sound.addDocument, le_rfl, le_rfl⟩
  | edit stored tidy respects => exact ⟨sound.edit stored tidy respects, le_rfl, le_rfl⟩
  | react observer refers => exact (react_kept behaviour sound observer refers).sequel
  | follow refers own => exact (tellChange_kept behaviour sound refers own).sequel
  | @mount _ _ registry config template _ controller _ there inside mount
  | @fail _ _ registry config template _ controller _ there inside mount =>
      have kept := mount_kept behaviour sound registry config template controller there inside
      rw [mount] at kept
      exact kept.sequel
  | unmount id => exact unmount_sequel sound id
  | other data documents renders => exact (Sequel.refl sound).of_eq data documents renders

theorem ne_nextRender {id : RenderId} (present : (world.render? id).isSome = true) :
    id ≠ world.nextRender := by
  rintro rfl
  obtain ⟨_, known⟩ := Option.isSome_iff_exists.1 present
  exact lt_irrefl _ (Store.lt_next_of_get? known)

/-- A render keeps its ranks if nobody is made a root controller. -/
theorem Episode.retains {staff : Staff} (episode : Episode behaviour world none after)
    (hires : behaviour.Hires) (sound : world.Sound)
    (present : (world.render? staff.render).isSome = true)
    (takes : staff.Takes behaviour world (world.numbered staff.render)) :
    world.Retains after staff := by
  cases episode with
  | move | addDocument | edit => exact .aside rfl (List.prefix_refl _) (.refl _)
  | react observer refers => exact react_retains hires sound takes le_rfl observer refers
  | follow refers own => exact tellChange_retains hires sound takes le_rfl refers own
  | @fail _ _ registry config template _ controller _ there inside mount =>
      obtain ⟨shown, others, failures, controllers, outcome⟩ :=
        mount_shown hires sound registry config template controller there inside
      rw [mount] at outcome
      rcases outcome with ⟨_, same⟩ | ⟨_, _, _, same⟩
      · obtain rfl : after = shown := congrArg Prod.snd same
        exact .aside (others _ (ne_nextRender present)) failures controllers
      · cases congrArg Prod.fst same
  | unmount id =>
      unfold World.unmount
      split
      · exact teardown_retains world staff id _
      · exact .refl world staff
  | other data documents renders failures controllers =>
      exact .aside (by rw [render?, renders, render?]) (failures ▸ List.prefix_refl _) controllers

/-- When a controller is made a root controller, renders that are there change only in that it hands
nothing on any more. -/
theorem Episode.exists_shown {controller : ControllerId}
    (episode : Episode behaviour world (some controller) after) (hires : behaviour.Hires)
    (sound : world.Sound) {id : RenderId} (present : (world.render? id).isSome = true) :
    ∃ (shown : World Client) (links : ControllerLinks), links.parent = none ∧
      after = { shown with controllers := shown.controllers.attach controller links } ∧
      shown.render? id = world.render? id ∧ ∀ staff : Staff, staff.render = id →
        world.Retains shown staff := by
  cases episode with
  | @mount _ _ registry config template _ _ _ there inside mount =>
      obtain ⟨shown, others, failures, controllers, outcome⟩ :=
        mount_shown hires sound registry config template controller there inside
      have here := others id (ne_nextRender present)
      rw [mount] at outcome
      rcases outcome with ⟨_, same⟩ | ⟨_, links, nobody, same⟩
      · cases congrArg Prod.fst same
      · exact ⟨shown, links, nobody, congrArg Prod.snd same, here, fun staff same =>
          .aside (same ▸ here) failures controllers⟩

/-- A world that a story has passed through, and the controller that was made a root controller next, if
any. -/
structure Passage (Client : Type) where
  world : World Client
  appointed : Option ControllerId

/-- One thing happens after the other.  The worlds passed through are remembered, the latest first. -/
inductive Story (behaviour : Behaviour Client) (start : World Client) :
    List (Passage Client) → World Client → Prop where
  | done : Story behaviour start [] start
  | next {passed : List (Passage Client)} {world after : World Client} {appointed : Option ControllerId}
      (story : Story behaviour start passed world) (episode : Episode behaviour world appointed after) :
      Story behaviour start (⟨world, appointed⟩ :: passed) after

variable {passed more : List (Passage Client)}

theorem Story.trans (first : Story behaviour start passed middle)
    (second : Story behaviour middle more after) :
    Story behaviour start (more ++ passed) after := by
  induction second with
  | done => exact first
  | next _ episode induction => exact .next induction episode

theorem Story.sequel (story : Story behaviour start passed world) (sound : start.Sound) :
    start.Sequel world := by
  induction story with
  | done => exact .refl sound
  | next _ episode induction => exact induction.trans (episode.sequel induction.sound)

/-- The last of the worlds passed in which a bound node had no number yet: in that world it was asked
for. -/
def whenShown? (passed : List (Passage Client)) (id : RenderId) (name : BoundId) :
    Option (World Client) :=
  (passed.map Passage.world).find? fun world => decide (world.numbered id ≤ name.index)

/-- The roster of a render, from what was registered when each of its views was shown and who was made a
root controller since. -/
def staffOf (behaviour : Behaviour Client) (registry : RegistryId) (inherits : Bool)
    (controller : ControllerId) (id : RenderId) (passed : List (Passage Client)) : Staff where
  inherits := inherits
  given := fun name view controller => ∃ former, whenShown? passed id name = some former ∧
    behaviour.Gives (former.registry registry) view controller
  vacant := fun name view => ∃ former, whenShown? passed id name = some former ∧
    (former.registry registry).factory? view = none
  lent := fun name controller => ∃ passage ∈ passed, name.index < passage.world.numbered id ∧
    passage.appointed = some controller
  render := id
  registry := registry
  chief := controller

section Rosters

variable {registry : RegistryId} {inherits : Bool} {controller : ControllerId} {id : RenderId}

theorem whenShown?_of_le {name : BoundId} (new : world.numbered id ≤ name.index) :
    whenShown? (⟨world, appointed⟩ :: passed) id name = some world :=
  List.find?_cons_of_pos (by simpa using new)

theorem whenShown?_of_lt {name : BoundId} (old : name.index < world.numbered id) :
    whenShown? (⟨world, appointed⟩ :: passed) id name = whenShown? passed id name :=
  List.find?_cons_of_neg (by simpa using old)

theorem staffOf_decides {name : BoundId} {view : String} {other : ControllerId}
    (given : (staffOf behaviour registry inherits controller id passed).given name view other) :
    ¬ (staffOf behaviour registry inherits controller id passed).vacant name view := by
  rintro ⟨former, shown, nobody⟩
  obtain ⟨same, also, _, _, registered, _⟩ := given
  obtain rfl := Option.some.inj (shown.symm.trans also)
  cases nobody.symm.trans registered

/-- What is shown from now on is shown with what is registered now, and has not been lent. -/
theorem staffOf_takes (numbering : ∀ passage ∈ passed, passage.world.numbered id ≤ world.numbered id) :
    (staffOf behaviour registry inherits controller id (⟨world, none⟩ :: passed)).Takes behaviour world
      (world.numbered id) where
  given := fun _ _ _ new gives => ⟨world, whenShown?_of_le new, gives⟩
  vacant := fun _ _ new vacant => ⟨world, whenShown?_of_le new, vacant⟩
  kept := by
    rintro name _ new ⟨passage, member, old, appointed⟩
    rcases List.mem_cons.1 member with rfl | member
    · cases appointed
    · exact absurd (old.trans_le (numbering passage member)) (not_lt.2 new)

theorem lent_cons_none {name : BoundId} {other : ControllerId} :
    (staffOf behaviour registry inherits controller id (⟨world, none⟩ :: passed)).lent name other ↔
      (staffOf behaviour registry inherits controller id passed).lent name other := by
  simp [staffOf]

theorem lent_cons_some {name : BoundId} {root other : ControllerId}
    (old : name.index < world.numbered id) :
    (staffOf behaviour registry inherits controller id (⟨world, some root⟩ :: passed)).lent name other ↔
      (staffOf behaviour registry inherits controller id passed).lent name other ∨ other = root := by
  simp [staffOf, old, eq_comm, or_comm]

/-- All bound nodes of a render have numbers. -/
theorem Sound.numbered (sound : world.Sound) {render : Render} (known : world.render? id = some render) :
    ∀ name ∈ render.tree.nodes.names, name.index < world.numbered id := by
  obtain ⟨_, _, own⟩ := sound.renders id render known
  rw [numbered_of_render? known]
  exact own.numbered

/-- What has been shown is not affected by what is registered later. -/
theorem Staffed.passing (sound : world.Sound)
    (staffed : world.Staffed (staffOf behaviour registry inherits controller id passed)) :
    world.Staffed (staffOf behaviour registry inherits controller id (⟨world, none⟩ :: passed)) where
  chief := staffed.chief
  place := staffed.place
  ranked := by
    intro quiet render known
    obtain ⟨tops, ranked⟩ := staffed.ranked quiet render known
    refine ⟨tops, ranked.imp fun name node upper member _ posted => ?_⟩
    have old := sound.numbered known name (List.mem_map_of_mem member)
    refine posted.entered rfl (fun view controller given => ?_) (fun view vacant => ?_)
      lent_cons_none.symm
    · obtain ⟨former, shown, gives⟩ := given
      exact ⟨former, (whenShown?_of_lt old).trans shown, gives⟩
    · obtain ⟨former, shown, nobody⟩ := vacant
      exact ⟨former, (whenShown?_of_lt old).trans shown, nobody⟩

theorem Episode.lasts (episode : Episode behaviour world appointed after) (hires : behaviour.Hires)
    (sound : world.Sound) (present : (world.render? id).isSome = true) : world.Lasts after id := by
  cases appointed with
  | none =>
      have takes := @staffOf_takes _ behaviour world [] ⟨0⟩ false ⟨0⟩ id (List.forall_mem_nil _)
      exact (episode.retains hires sound present takes).toLasts
  | some controller =>
      obtain ⟨shown, links, _, rfl, here, _⟩ := episode.exists_shown hires sound present
      exact .of_same here

/-- In a story a render keeps its place, and what has gone from it does not come back. -/
theorem Story.lasting (story : Story behaviour start passed world) (hires : behaviour.Hires)
    (sound : start.Sound) (present : (start.render? id).isSome = true) :
    (world.render? id).isSome = true ∧ ∀ past ∈ passed, past.world.Lasts world id := by
  induction story with
  | done => exact ⟨present, fun _ member => nomatch member⟩
  | next story episode induction =>
      obtain ⟨here, earlier⟩ := induction
      have lasts := episode.lasts hires (story.sequel sound).sound here
      refine ⟨lasts.present here, fun past member => ?_⟩
      rcases List.mem_cons.1 member with rfl | member
      · exact lasts
      · exact (earlier past member).trans lasts

/-- Whatever happens, a render keeps its ranks, but who is made a root controller hands nothing on any
more. -/
theorem Episode.staffed (episode : Episode behaviour world appointed after) (hires : behaviour.Hires)
    (sound : world.Sound) (present : (world.render? id).isSome = true)
    (numbering : ∀ passage ∈ passed, passage.world.numbered id ≤ world.numbered id)
    (staffed : world.Staffed (staffOf behaviour registry inherits controller id passed)) :
    after.Staffed
      (staffOf behaviour registry inherits controller id (⟨world, appointed⟩ :: passed)) := by
  -- The roster is brought up to date first, while nothing has happened yet.
  have passing := staffed.passing sound
  cases appointed with
  | none => exact (episode.retains hires sound present (staffOf_takes numbering)).staffed passing
  | some root =>
      obtain ⟨shown, links, nobody, rfl, here, retains⟩ := episode.exists_shown hires sound present
      refine ((retains _ rfl).staffed passing).lend nobody fun render known name member other => ?_
      have old := sound.numbered (here.symm.trans known) name member
      exact (lent_cons_some old).trans (or_congr_left lent_cons_none.symm)

/-- A story keeps the ranks of a render. -/
theorem Story.staffed {former : Passage Client} (story : Story behaviour start passed world)
    (hires : behaviour.Hires) (sound : start.Sound) (present : (start.render? id).isSome = true)
    (first : former.world.numbered id = 0)
    (staffed : start.Staffed (staffOf behaviour registry inherits controller id [former])) :
    world.Staffed (staffOf behaviour registry inherits controller id (passed ++ [former])) := by
  induction story with
  | done => exact staffed
  | next story episode induction =>
      obtain ⟨here, earlier⟩ := story.lasting hires sound present
      refine episode.staffed hires (story.sequel sound).sound here (fun passage member => ?_) induction
      rcases List.mem_append.1 member with member | member
      · exact (earlier passage member).numbering
      · rw [List.mem_singleton.1 member, first]
        exact Nat.zero_le _

end Rosters

end LiveTemplate.World
