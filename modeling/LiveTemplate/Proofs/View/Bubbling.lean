import LiveTemplate.Proofs.Document.Succession
import LiveTemplate.Proofs.View.Reachable

/-!
# Bubbling

While an event travels, the listeners that it meets may edit documents, add listeners and fire other
events, and whatever they do is done before the event goes on.  The way of the event is the one that it
had in the beginning.  Of the nodes on it, it reaches exactly those that are still there, up to the first
one at which it is stopped, and at each of them runs exactly those who are registered when it comes.
-/

namespace LiveTemplate

/-- The same event, with its flags set in the meantime, at a node. -/
structure Event.Follows (before : Event) (node : NodeId) (after : Event) : Prop where
  name : after.name = before.name
  target : after.target = before.target
  detail : after.detail = before.detail
  current : after.current = node
  prevented : before.prevented = true → after.prevented = true
  stopped : before.stopped = true → after.stopped = true

namespace Event

variable {before middle after : Event} {node other : NodeId}

theorem Follows.refl (event : Event) : event.Follows event.current event :=
  ⟨rfl, rfl, rfl, rfl, id, id⟩

theorem Follows.trans (first : before.Follows node middle) (second : middle.Follows other after) :
    before.Follows other after where
  name := second.name.trans first.name
  target := second.target.trans first.target
  detail := second.detail.trans first.detail
  current := second.current
  prevented := second.prevented ∘ first.prevented
  stopped := second.stopped ∘ first.stopped

theorem follows_prevent (event : Event) : event.Follows event.current event.prevent :=
  ⟨rfl, rfl, rfl, rfl, fun _ => rfl, id⟩

theorem follows_stop (event : Event) : event.Follows event.current event.stop :=
  ⟨rfl, rfl, rfl, rfl, id, fun _ => rfl⟩

theorem follows_at (event : Event) (node : NodeId) : event.Follows node { event with current := node } :=
  ⟨rfl, rfl, rfl, rfl, id, id⟩

end Event

namespace World

variable {Client : Type}

/-- Those who are to hear an event at a node, with the controllers that they hold on to. -/
def hearers (world : World Client) (data : NodeData) (event : Event) :
    List (Listener × Option ControllerId) :=
  (data.listenersFor event.name).map fun listener => (listener, world.controllerOf? listener)

/-- A listener that is run, the event that it is given, and the worlds from then until it returns. -/
structure Turn (Client : Type) where
  listener : Listener
  event : Event
  moments : List (World Client)

/-- A node that an event reaches, the world in which it does so, the listeners that are run there, and the
event as they leave it. -/
structure Visit (Client : Type) where
  node : NodeId
  world : World Client
  turns : List (Turn Client)
  left : Event

/-- The worlds while the listeners of a node are run. -/
def Visit.moments (visit : Visit Client) : List (World Client) :=
  visit.turns.flatMap Turn.moments

/-- The listeners in the order in which they are run. -/
def Visit.run (visit : Visit Client) : List Listener :=
  visit.turns.map Turn.listener

mutual

/-- What is done while a listener runs: it sets the flags of its event, edits documents, and fires other
events. -/
inductive Acts : Event → World Client → List (World Client) → Event → World Client → Prop where
  | done (event : Event) (world : World Client) : Acts event world [world] event world
  | prevent {event heard : Event} {world after : World Client} {moments : List (World Client)}
      (rest : Acts event.prevent world moments heard after) : Acts event world moments heard after
  | stop {event heard : Event} {world after : World Client} {moments : List (World Client)}
      (rest : Acts event.stop world moments heard after) : Acts event world moments heard after
  | edit {event heard : Event} {world after : World Client} {moments : List (World Client)}
      (place : DocumentId) (edit : Document.Edit)
      (rest : Acts event (world.modifyDocument place (·.edited edit)) moments heard after) :
      Acts event world (world :: moments) heard after
  | dispatch {behaviour : Behaviour Client} {event heard : Event} {world after : World Client}
      {moments : List (World Client)} {visits : List (Visit Client)} (place : DocumentId)
      (fired : Event)
      (rises : Rises behaviour place ((world.document place).bubblePath fired.target) fired world visits)
      (rest : Acts event (world.dispatch behaviour place fired).2 moments heard after) :
      Acts event world (world :: (visits.flatMap Visit.moments ++ moments)) heard after
  /-- Something that does not concern documents. -/
  | other {event heard : Event} {world middle after : World Client} {moments : List (World Client)}
      (same : ∀ place, middle.document place = world.document place)
      (rest : Acts event middle moments heard after) : Acts event world (world :: moments) heard after

/-- Listeners are run one after the other. -/
inductive Attends : Behaviour Client → List (Listener × Option ControllerId) → Event → World Client →
    List (Turn Client) → Prop where
  | done {behaviour : Behaviour Client} (event : Event) (world : World Client) :
      Attends behaviour [] event world []
  | next {behaviour : Behaviour Client} {listener : Listener} {controller : Option ControllerId}
      {later : List (Listener × Option ControllerId)} {event heard : Event}
      {world after : World Client} {moments : List (World Client)} {turns : List (Turn Client)}
      (result : world.engaging (controller.toList ++ later.filterMap Prod.snd)
        (fun world => world.hear behaviour listener event) = (heard, after))
      (acts : Acts event world moments heard after)
      (rest : Attends behaviour later heard after turns) :
      Attends behaviour ((listener, controller) :: later) event world
        (⟨listener, event, moments⟩ :: turns)

/-- An event travels along nodes. -/
inductive Rises : Behaviour Client → DocumentId → List NodeId → Event → World Client →
    List (Visit Client) → Prop where
  | done {behaviour : Behaviour Client} {place : DocumentId} (event : Event) (world : World Client) :
      Rises behaviour place [] event world []
  | gone {behaviour : Behaviour Client} {place : DocumentId} {node : NodeId} {above : List NodeId}
      {event : Event} {world : World Client} {visits : List (Visit Client)}
      (absent : (world.document place).data? node = none)
      (rest : Rises behaviour place above event world visits) :
      Rises behaviour place (node :: above) event world visits
  | last {behaviour : Behaviour Client} {place : DocumentId} {node : NodeId} {above : List NodeId}
      {event left : Event} {world after : World Client} {data : NodeData} {turns : List (Turn Client)}
      (found : (world.document place).data? node = some data)
      (result : hearAll behaviour (world.hearers data event) { event with current := node } world =
        (left, after))
      (attends : Attends behaviour (world.hearers data event) { event with current := node } world turns)
      (stopped : left.stopped = true) :
      Rises behaviour place (node :: above) event world [⟨node, world, turns, left⟩]
  | next {behaviour : Behaviour Client} {place : DocumentId} {node : NodeId} {above : List NodeId}
      {event left : Event} {world after : World Client} {data : NodeData} {turns : List (Turn Client)}
      {visits : List (Visit Client)} (found : (world.document place).data? node = some data)
      (result : hearAll behaviour (world.hearers data event) { event with current := node } world =
        (left, after))
      (attends : Attends behaviour (world.hearers data event) { event with current := node } world turns)
      (goes : left.stopped = false) (rest : Rises behaviour place above left after visits) :
      Rises behaviour place (node :: above) event world (⟨node, world, turns, left⟩ :: visits)

end

/-! ## What a run does to a document -/

/-- From one world to another through some in between, a document only goes on. -/
structure Passes (place : DocumentId) (world : World Client) (moments : List (World Client))
    (after : World Client) : Prop where
  whole : (world.document place).Continues (after.document place)
  early : ∀ moment ∈ moments, (world.document place).Continues (moment.document place)
  late : ∀ moment ∈ moments, (moment.document place).Continues (after.document place)

section Passes

variable {behaviour : Behaviour Client} {place : DocumentId} {world middle after : World Client}
  {moments more : List (World Client)}

theorem Passes.refl (sound : (world.document place).Sound) : Passes place world [] world :=
  ⟨sound.continues, nofun, nofun⟩

theorem Passes.cons (first : (world.document place).Continues (middle.document place))
    (sound : (world.document place).Sound) (rest : Passes place middle moments after) :
    Passes place world (world :: moments) after where
  whole := first.trans rest.whole
  early := List.forall_mem_cons.2 ⟨sound.continues, fun moment member =>
    first.trans (rest.early moment member)⟩
  late := List.forall_mem_cons.2 ⟨first.trans rest.whole, rest.late⟩

theorem Passes.append (first : Passes place world moments middle)
    (second : Passes place middle more after) : Passes place world (moments ++ more) after where
  whole := first.whole.trans second.whole
  early := List.forall_mem_append.2 ⟨first.early, fun moment member =>
    first.whole.trans (second.early moment member)⟩
  late := List.forall_mem_append.2 ⟨fun moment member =>
    (first.late moment member).trans second.whole, second.late⟩

/-- An edit concerns one document. -/
theorem document_modifyDocument (world : World Client) (place other : DocumentId)
    (change : Document → Document) : (world.modifyDocument place change).document other =
      world.document other ∨
    (world.modifyDocument place change).document other = change (world.document other) := by
  simp only [document, modifyDocument, Store.get?_modify]
  split
  · cases world.documents.get? other.index with
    | none => exact .inl rfl
    | some document => exact .inr rfl
  · exact .inl rfl

theorem continues_modifyDocument (sound : (world.document place).Sound) (other : DocumentId)
    (edit : Document.Edit) : (world.document place).Continues
      ((world.modifyDocument other (·.edited edit)).document place) := by
  rcases world.document_modifyDocument other place (·.edited edit) with same | same
  · rw [same]
    exact sound.continues
  · rw [same]
    exact sound.continues_edited edit

theorem hearAll_cons {listener : Listener} {controller : Option ControllerId}
    {later : List (Listener × Option ControllerId)} {event heard : Event}
    (result : world.engaging (controller.toList ++ later.filterMap Prod.snd)
      (fun world => world.hear behaviour listener event) = (heard, after)) :
    hearAll behaviour ((listener, controller) :: later) event world =
      hearAll behaviour later heard after := by
  rw [hearAll, result]

theorem travel_gone {node : NodeId} {above : List NodeId} {event : Event}
    (absent : (world.document place).data? node = none) :
    travel behaviour place (node :: above) event world = travel behaviour place above event world := by
  rw [travel, absent]

theorem travel_last {node : NodeId} {above : List NodeId} {event left : Event} {data : NodeData}
    (found : (world.document place).data? node = some data)
    (result : hearAll behaviour (world.hearers data event) { event with current := node } world =
      (left, after)) (stopped : left.stopped = true) :
    travel behaviour place (node :: above) event world = (left, after) := by
  rw [hearers] at result
  rw [travel, found]
  simp only [result, if_pos stopped]

theorem travel_next {node : NodeId} {above : List NodeId} {event left : Event} {data : NodeData}
    (found : (world.document place).data? node = some data)
    (result : hearAll behaviour (world.hearers data event) { event with current := node } world =
      (left, after)) (goes : left.stopped = false) :
    travel behaviour place (node :: above) event world = travel behaviour place above left after := by
  rw [hearers] at result
  rw [travel, found]
  simp only [result, goes, Bool.false_eq_true, if_false]

mutual

theorem Acts.passes {event heard : Event} {world after : World Client} {moments : List (World Client)} :
    Acts event world moments heard after → (world.document place).Sound →
      Passes place world moments after
  | .done _ _, sound => .cons sound.continues sound (.refl sound)
  | .prevent rest, sound => rest.passes sound
  | .stop rest, sound => rest.passes sound
  | .edit other edit rest, sound => by
      have first := continues_modifyDocument sound other edit
      exact .cons first sound (rest.passes first.sound)
  | .dispatch _ _ rises rest, sound => by
      have inner := rises.passes sound
      exact .cons sound.continues sound (inner.append (rest.passes inner.whole.sound))
  | .other same rest, sound => by
      have also := rest.passes (same place ▸ sound)
      exact .cons (same place ▸ sound.continues) sound also

theorem Attends.passes {behaviour : Behaviour Client}
    {entries : List (Listener × Option ControllerId)} {event : Event} {world : World Client}
    {turns : List (Turn Client)} :
    Attends behaviour entries event world turns → (world.document place).Sound →
      Passes place world (turns.flatMap Turn.moments) (hearAll behaviour entries event world).2
  | .done _ _, sound => .refl sound
  | .next result acts rest, sound => by
      have first := acts.passes sound
      rw [hearAll_cons result, List.flatMap_cons]
      exact first.append (rest.passes first.whole.sound)

theorem Rises.passes {behaviour : Behaviour Client} {other : DocumentId} {path : List NodeId}
    {event : Event} {world : World Client} {visits : List (Visit Client)} :
    Rises behaviour other path event world visits → (world.document place).Sound →
      Passes place world (visits.flatMap Visit.moments) (travel behaviour other path event world).2
  | .done _ _, sound => .refl sound
  | .gone absent rest, sound => by
      rw [travel_gone absent]
      exact rest.passes sound
  | .last found result attends stopped, sound => by
      have first := attends.passes sound
      rw [result] at first
      rw [travel_last found result stopped, List.flatMap_cons, List.flatMap_nil,
        List.append_nil]
      exact first
  | .next found result attends goes rest, sound => by
      have first := attends.passes sound
      rw [result] at first
      rw [travel_next found result goes, List.flatMap_cons]
      exact first.append (rest.passes first.whole.sound)

end

end Passes

/-! ## What becomes of the event -/

/-- At a node, those are run who are registered when the event comes, and they are given the event. -/
structure Visit.Fair (place : DocumentId) (event : Event) (visit : Visit Client) : Prop where
  run : ∃ data, (visit.world.document place).data? visit.node = some data ∧
    visit.run = data.listenersFor event.name
  told : ∀ turn ∈ visit.turns, event.Follows visit.node turn.event
  left : event.Follows visit.node visit.left

section Rises

variable {behaviour : Behaviour Client} {place : DocumentId} {path : List NodeId} {event : Event}
  {world : World Client} {visits : List (Visit Client)}

theorem Acts.follows {event heard : Event} {world after : World Client}
    {moments : List (World Client)} :
    Acts event world moments heard after → event.Follows event.current heard
  | .done event _ => .refl event
  | .prevent rest => (Event.follows_prevent _).trans rest.follows
  | .stop rest => (Event.follows_stop _).trans rest.follows
  | .edit _ _ rest | .dispatch _ _ _ rest | .other _ rest => rest.follows

theorem Attends.follows {entries : List (Listener × Option ControllerId)} {event : Event}
    {world : World Client} {turns : List (Turn Client)} :
    Attends behaviour entries event world turns →
      turns.map Turn.listener = entries.map Prod.fst ∧
        (∀ turn ∈ turns, event.Follows event.current turn.event) ∧
          event.Follows event.current (hearAll behaviour entries event world).1
  | .done event _ => ⟨rfl, nofun, .refl event⟩
  | .next result acts rest => by
      obtain ⟨run, told, left⟩ := rest.follows
      have first := acts.follows
      have same := first.current
      rw [same] at told left
      rw [hearAll_cons result]
      exact ⟨congrArg _ run, List.forall_mem_cons.2 ⟨.refl _, fun turn member =>
        first.trans (told turn member)⟩, first.trans left⟩

theorem Attends.fair {node : NodeId} {left : Event} {after : World Client} {data : NodeData}
    {turns : List (Turn Client)} (found : (world.document place).data? node = some data)
    (result : hearAll behaviour (world.hearers data event) { event with current := node } world =
      (left, after))
    (attends : Attends behaviour (world.hearers data event) { event with current := node } world turns) :
    Visit.Fair place event ⟨node, world, turns, left⟩ := by
  obtain ⟨run, told, last⟩ := attends.follows
  rw [result] at last
  rw [hearers, List.map_map] at run
  have start := event.follows_at node
  exact ⟨⟨data, found, run.trans (List.map_id _)⟩, fun turn member => start.trans (told turn member),
    start.trans last⟩

theorem Visit.Fair.earlier {later : Event} {node : NodeId} {visit : Visit Client}
    (fair : visit.Fair place later) (follows : event.Follows node later) : visit.Fair place event := by
  obtain ⟨⟨data, found, run⟩, told, left⟩ := fair
  exact ⟨⟨data, found, follows.name ▸ run⟩, fun turn member => follows.trans (told turn member),
    follows.trans left⟩

theorem Rises.fair {path : List NodeId} {event : Event} {world : World Client}
    {visits : List (Visit Client)} : Rises behaviour place path event world visits →
      ∀ visit ∈ visits, visit.Fair place event
  | .done _ _ => nofun
  | .gone _ rest => rest.fair
  | .last found result attends _ => List.forall_mem_singleton.2 (attends.fair found result)
  | .next found result attends _ rest => by
      have first := attends.fair found result
      exact List.forall_mem_cons.2 ⟨first, fun visit member =>
        (rest.fair visit member).earlier first.left⟩

/-- The nodes are reached in order. -/
theorem Rises.ordered {path : List NodeId} {event : Event} {world : World Client}
    {visits : List (Visit Client)} : Rises behaviour place path event world visits →
      (visits.map Visit.node).Sublist path
  | .done _ _ => .slnil
  | .gone _ rest => rest.ordered.cons _
  | .last .. => .cons_cons _ (List.nil_sublist _)
  | .next _ _ _ _ rest => .cons_cons _ rest.ordered

/-- The event does not go on from a node at which it is stopped. -/
theorem Rises.stops {path : List NodeId} {event : Event} {world : World Client}
    {visits : List (Visit Client)} : Rises behaviour place path event world visits →
      visits.Pairwise fun early _ => early.left.stopped = false
  | .done _ _ => .nil
  | .gone _ rest => rest.stops
  | .last .. => List.pairwise_singleton ..
  | .next _ _ _ goes rest => .cons (fun _ _ => goes) rest.stops

theorem getLast_cons {Item Value : Type} (read : Item → Value) (first : Item) (later : List Item)
    (default : Value) : ((first :: later).getLast?.map read).getD default =
      (later.getLast?.map read).getD (read first) := by
  rw [List.getLast?_cons]
  cases later.getLast? <;> rfl

/-- The event is returned as it left the last node. -/
theorem Rises.result {path : List NodeId} {event : Event} {world : World Client}
    {visits : List (Visit Client)} : Rises behaviour place path event world visits →
      (travel behaviour place path event world).1 = (visits.getLast?.map Visit.left).getD event
  | .done _ _ => rfl
  | .gone absent rest => by
      rw [travel_gone absent]
      exact rest.result
  | .last found result _ stopped => by
      rw [travel_last found result stopped]
      rfl
  | .next found result _ goes rest => by
      rw [travel_next found result goes, rest.result, getLast_cons]

/-- Whatever is done while an event is on its way has been done before it reaches the next node. -/
theorem Rises.timely {path : List NodeId} {event : Event} {world : World Client}
    {visits : List (Visit Client)} : Rises behaviour place path event world visits →
      (world.document place).Sound →
        (∀ visit ∈ visits, (world.document place).Continues (visit.world.document place) ∧
          ∀ moment ∈ visit.moments, (visit.world.document place).Continues (moment.document place)) ∧
        visits.Pairwise fun early late => ∀ moment ∈ early.moments,
          (moment.document place).Continues (late.world.document place)
  | .done _ _, _ => ⟨nofun, .nil⟩
  | .gone _ rest, sound => rest.timely sound
  | .last found result attends stopped, sound =>
      ⟨List.forall_mem_singleton.2 ⟨sound.continues, (attends.passes sound).early⟩,
        List.pairwise_singleton ..⟩
  | .next found result attends goes rest, sound => by
      have passes := attends.passes sound
      rw [result] at passes
      obtain ⟨there, ordered⟩ := rest.timely passes.whole.sound
      refine ⟨List.forall_mem_cons.2 ⟨⟨sound.continues, passes.early⟩, fun visit member =>
        (there visit member).imp_left passes.whole.trans⟩, .cons ?_ ordered⟩
      exact fun visit member moment during => (passes.late moment during).trans (there visit member).1

/-- Of the nodes that the event passes, it reaches those that are still there in the end.  It passes all
of them, unless it is stopped. -/
theorem Rises.reached {path : List NodeId} {event : Event} {world : World Client}
    {visits : List (Visit Client)} : Rises behaviour place path event world visits →
      (world.document place).Sound → (∀ node ∈ path, (world.document place).places.Issued node) →
        ∃ passed above, path = passed ++ above ∧ (visits.map Visit.node).Sublist passed ∧
          (∀ node ∈ passed, ((travel behaviour place path event world).2.document place).contains node =
            true → node ∈ visits.map Visit.node) ∧
          (above ≠ [] → ∃ visit, visits.getLast? = some visit ∧ visit.left.stopped = true ∧
            passed.getLast? = some visit.node)
  | .done _ _, _, _ => ⟨[], [], rfl, .slnil, nofun, fun more => (more rfl).elim⟩
  | .gone absent rest, sound, issued => by
      obtain ⟨here, beyond⟩ := List.forall_mem_cons.1 issued
      obtain ⟨passed, above, rfl, ordered, complete, stops⟩ := rest.reached sound beyond
      have whole := (rest.passes sound).whole
      rw [travel_gone absent]
      refine ⟨_ :: passed, above, rfl, ordered.cons _, List.forall_mem_cons.2 ⟨fun there => ?_, complete⟩,
        fun more => ?_⟩
      · have present := whole.contains here there
        rw [← Document.isSome_data?, absent] at present
        cases present
      · obtain ⟨visit, last, stopped, same⟩ := stops more
        exact ⟨visit, last, stopped, List.mem_getLast?_cons same⟩
  | .last found result _ stopped, _, _ => by
      rw [travel_last found result stopped]
      exact ⟨[_], _, rfl, .refl _, fun _ member _ => member, fun _ => ⟨_, rfl, stopped, rfl⟩⟩
  | .next found result attends goes rest, sound, issued => by
      have passes := attends.passes sound
      rw [result] at passes
      obtain ⟨here, beyond⟩ := List.forall_mem_cons.1 issued
      obtain ⟨passed, above, rfl, ordered, complete, stops⟩ := rest.reached passes.whole.sound
        fun node member => passes.whole.issued node (beyond node member)
      rw [travel_next found result goes]
      refine ⟨_ :: passed, above, rfl, ordered.cons_cons _, List.forall_mem_cons.2
        ⟨fun _ => List.mem_cons_self, fun node member there =>
          List.mem_cons_of_mem _ (complete node member there)⟩, fun more => ?_⟩
      obtain ⟨visit, last, stopped, same⟩ := stops more
      exact ⟨visit, List.mem_getLast?_cons last, stopped, List.mem_getLast?_cons same⟩

/-! ## Events that change nothing -/

/-- The last moment is when the listener returns. -/
theorem Acts.ends {event heard : Event} {world after : World Client} {moments : List (World Client)} :
    Acts event world moments heard after → after ∈ moments
  | .done .. => List.mem_singleton_self _
  | .prevent rest | .stop rest => rest.ends
  | .edit _ _ rest | .other _ rest => List.mem_cons_of_mem _ rest.ends
  | .dispatch _ _ _ rest => List.mem_cons_of_mem _ (List.mem_append_right _ rest.ends)

theorem Attends.unchanged {entries : List (Listener × Option ControllerId)} {event : Event}
    {world : World Client} {turns : List (Turn Client)} {document : Document} :
    Attends behaviour entries event world turns → world.document place = document →
      (∀ moment ∈ turns.flatMap Turn.moments, moment.document place = document) →
        (hearAll behaviour entries event world).2.document place = document
  | .done _ _, same, _ => same
  | .next result acts rest, _, all => by
      rw [List.flatMap_cons, List.forall_mem_append] at all
      rw [hearAll_cons result]
      exact rest.unchanged (all.1 _ acts.ends) all.2

/-- If the document stays the same, the event reaches all nodes up to the one at which it is stopped. -/
theorem Rises.unchanged {path : List NodeId} {event : Event} {world : World Client}
    {visits : List (Visit Client)} {document : Document} :
    Rises behaviour place path event world visits → world.document place = document →
      (∀ node ∈ path, document.contains node = true) →
        (∀ visit ∈ visits, ∀ moment ∈ visit.moments, moment.document place = document) →
          (∃ above, path = visits.map Visit.node ++ above ∧
            (above ≠ [] → ∃ visit, visits.getLast? = some visit ∧ visit.left.stopped = true)) ∧
            ∀ visit ∈ visits, visit.world.document place = document
  | .done _ _, _, _, _ => ⟨⟨[], rfl, fun more => (more rfl).elim⟩, nofun⟩
  | .gone absent _, same, there, _ => by
      have present := (List.forall_mem_cons.1 there).1
      rw [← same, ← Document.isSome_data?, absent] at present
      cases present
  | .last _ _ _ stopped, same, _, _ =>
      ⟨⟨_, rfl, fun _ => ⟨_, rfl, stopped⟩⟩, List.forall_mem_singleton.2 same⟩
  | .next _ result attends _ rest, same, there, all => by
      obtain ⟨here, beyond⟩ := List.forall_mem_cons.1 all
      have unchanged := attends.unchanged same here
      rw [result] at unchanged
      obtain ⟨⟨above, rfl, stops⟩, worlds⟩ :=
        rest.unchanged unchanged (List.forall_mem_cons.1 there).2 beyond
      refine ⟨⟨above, rfl, fun more => ?_⟩, List.forall_mem_cons.2 ⟨same, worlds⟩⟩
      obtain ⟨visit, last, stopped⟩ := stops more
      exact ⟨visit, List.mem_getLast?_cons last, stopped⟩

end Rises

/-! ## Every event makes a run -/

/-- One thing is done after the other. -/
theorem Acts.append {event heard left : Event} {world middle after : World Client}
    {moments more : List (World Client)} :
    Acts event world moments heard middle → Acts heard middle more left after →
      ∃ all, Acts event world all left after
  | .done _ _, next => ⟨_, next⟩
  | .prevent rest, next => (rest.append next).imp fun _ => .prevent
  | .stop rest, next => (rest.append next).imp fun _ => .stop
  | .edit place call rest, next => by
      obtain ⟨all, acts⟩ := rest.append next
      exact ⟨_, .edit place call acts⟩
  | .dispatch place fired rises rest, next => by
      obtain ⟨all, acts⟩ := rest.append next
      exact ⟨_, .dispatch place fired rises acts⟩
  | .other same rest, next => by
      obtain ⟨all, acts⟩ := rest.append next
      exact ⟨_, .other same acts⟩

/-- Controllers are held on to meanwhile, which does not concern documents. -/
theorem acts_engaging {Result : Type} {act : World Client → Result × World Client}
    (read : Result → Event) {event : Event} (controllers : List ControllerId)
    (acts : ∀ world, ∃ moments, Acts event world moments (read (act world).1) (act world).2)
    (world : World Client) : ∃ moments, Acts event world moments
      (read (world.engaging controllers act).1) (world.engaging controllers act).2 := by
  obtain ⟨moments, held⟩ := acts { world with engaged := controllers ++ world.engaged }
  obtain ⟨all, released⟩ := held.append
    (.other (fun _ => by rfl) (.done _ (world.engaging controllers act).2))
  exact ⟨_, .other (fun _ => by rfl) released⟩

end World

/-- Whatever listeners and actions do, they do by calls. -/
structure Behaviour.Edits {Client : Type} (behaviour : Behaviour Client) : Prop where
  listen : ∀ hook event world, ∃ moments, World.Acts event world moments
    (behaviour.listen hook event world).1 (behaviour.listen hook event world).2
  act : ∀ hook event model world, ∃ moments, World.Acts event world moments
    (behaviour.act hook event model world).1 (behaviour.act hook event model world).2

namespace Behaviour.Edits

variable {Client : Type} {behaviour : Behaviour Client}

theorem handle (edits : behaviour.Edits) (world : World Client) (id : ControllerId) (action : String)
    (event : Event) (model : ModelId) : ∃ moments, World.Acts event world moments
      (world.handle behaviour id action event model).1.2
      (world.handle behaviour id action event model).2 := by
  rw [World.handle]
  cases world.handler? behaviour action (world.controllers.next + 1) id with
  | none => exact ⟨_, .done event world⟩
  | some known =>
      obtain ⟨chain, hook⟩ := known
      exact World.acts_engaging Prod.snd (id :: chain) (edits.act hook event model) world

theorem hear (edits : behaviour.Edits) (listener : Listener) (event : Event) (world : World Client) :
    ∃ moments, World.Acts event world moments (world.hear behaviour listener event).1
      (world.hear behaviour listener event).2 := by
  cases listener with
  | client hook => exact edits.listen hook event world
  | action render owner slot =>
      rw [World.hear]
      cases world.eventAttribute? render owner slot with
      | none => exact ⟨_, .done event world⟩
      | some found =>
          obtain ⟨scope, action, prevents⟩ := found
          cases prevents with
          | false => exact edits.handle world scope.controller action event scope.model
          | true =>
              obtain ⟨moments, acts⟩ :=
                edits.handle world scope.controller action event.prevent scope.model
              exact ⟨_, .prevent acts⟩

theorem attends (edits : behaviour.Edits) (entries : List (Listener × Option ControllerId))
    (event : Event) (world : World Client) :
    ∃ turns, World.Attends behaviour entries event world turns := by
  induction entries generalizing event world with
  | nil => exact ⟨_, .done event world⟩
  | cons entry later induction =>
      obtain ⟨listener, controller⟩ := entry
      obtain ⟨moments, acts⟩ := World.acts_engaging id
        (controller.toList ++ later.filterMap Prod.snd) (edits.hear listener event) world
      obtain ⟨turns, rest⟩ := induction _ _
      exact ⟨_, .next rfl acts rest⟩

/-- If listeners and actions do all by calls, every event makes a run. -/
theorem rises (edits : behaviour.Edits) (place : DocumentId) (path : List NodeId) (event : Event)
    (world : World Client) : ∃ visits, World.Rises behaviour place path event world visits := by
  induction path generalizing event world with
  | nil => exact ⟨_, .done event world⟩
  | cons node above induction =>
      cases found : (world.document place).data? node with
      | none =>
          obtain ⟨visits, rest⟩ := induction event world
          exact ⟨_, .gone found rest⟩
      | some data =>
          obtain ⟨turns, attends⟩ :=
            edits.attends (world.hearers data event) { event with current := node } world
          obtain ⟨⟨left, after⟩, result⟩ : ∃ result, World.hearAll behaviour (world.hearers data event)
            { event with current := node } world = result := ⟨_, rfl⟩
          cases stopped : left.stopped with
          | true => exact ⟨_, .last found result attends stopped⟩
          | false =>
              obtain ⟨visits, rest⟩ := induction left after
              exact ⟨_, .next found result attends stopped rest⟩

end Behaviour.Edits

/-! ## Listeners that take notes -/

/-- A listener of the client and an event that it is given. -/
structure Note where
  hook : Hook
  event : Event

/-- The same world, in which notes are taken. -/
def World.noted {Client : Type} (world : World Client) (notes : List Note) :
    World (Client × List Note) :=
  { world with client := (world.client, notes) }

/-- The same world without notes. -/
def World.plain {Client : Type} (world : World (Client × List Note)) : World Client :=
  { world with client := world.client.1 }

/-- The same behaviour, in which each listener notes which event it is given. -/
def Behaviour.noting {Client : Type} (behaviour : Behaviour Client) : Behaviour (Client × List Note) where
  value hook value world := (behaviour.value hook value world.plain).noted world.client.2
  change hook change world := (behaviour.change hook change world.plain).noted world.client.2
  listen hook event world :=
    let (heard, after) := behaviour.listen hook event world.plain
    (heard, after.noted (world.client.2 ++ [⟨hook, event⟩]))
  act hook event model world :=
    let (heard, after) := behaviour.act hook event model world.plain
    (heard, after.noted world.client.2)
  build inUse hook controllers client :=
    let (id, controllers, plain) := behaviour.build inUse hook controllers client.1
    (id, controllers, plain, client.2)
  keeps world := behaviour.keeps world.plain

namespace World

variable {Client : Type} {behaviour : Behaviour Client} {place : DocumentId} {world after : World Client}

/-- What a listener notes. -/
def notesOf (listener : Listener) (event : Event) : List Note :=
  match listener with
  | .client hook => [⟨hook, event⟩]
  | .action .. => []

/-- What is noted when a listener is run. -/
def Turn.notes (turn : Turn Client) : List Note :=
  notesOf turn.listener turn.event

/-- What is noted at a node. -/
def Visit.notes (visit : Visit Client) : List Note :=
  visit.turns.flatMap Turn.notes

theorem handler?_noting (world : World Client) (notes : List Note) (action : String) (length : Nat)
    (id : ControllerId) : (world.noted notes).handler? behaviour.noting action length id =
      world.handler? behaviour action length id := by
  induction length generalizing id with
  | zero => rfl
  | succ length induction =>
      rw [handler?, handler?]
      simp only [induction]
      rfl

theorem hear_noting (world : World Client) (notes : List Note) (listener : Listener) (event : Event) :
    (world.noted notes).hear behaviour.noting listener event =
      ((world.hear behaviour listener event).1,
        (world.hear behaviour listener event).2.noted (notes ++ notesOf listener event)) := by
  cases listener with
  | client hook => rfl
  | action render owner slot =>
      have same : (world.noted notes).eventAttribute? render owner slot =
        world.eventAttribute? render owner slot := rfl
      rw [notesOf, List.append_nil, hear, hear, same]
      cases world.eventAttribute? render owner slot with
      | none => rfl
      | some found =>
          obtain ⟨scope, action, prevents⟩ := found
          simp only [handle, handler?_noting]
          have next : (world.noted notes).controllers = world.controllers := rfl
          rw [next]
          cases world.handler? behaviour action (world.controllers.next + 1) scope.controller with
          | none => rfl
          | some known => rfl

theorem engaging_noting (world : World Client) (notes : List Note) (controllers : List ControllerId)
    (listener : Listener) (event : Event) :
    ((world.noted notes).engaging controllers fun world =>
        world.hear behaviour.noting listener event) =
      ((world.engaging controllers fun world => world.hear behaviour listener event).1,
        (world.engaging controllers fun world => world.hear behaviour listener event).2.noted
          (notes ++ notesOf listener event)) :=
  congrArg (fun result => (result.1, { result.2 with engaged := world.engaged }))
    (hear_noting { world with engaged := controllers ++ world.engaged } notes listener event)

/-- Listeners that take notes do the same, and note each event that they are given. -/
theorem Attends.noting {entries : List (Listener × Option ControllerId)} {event : Event}
    {world : World Client} {turns : List (Turn Client)} (notes : List Note) :
    Attends behaviour entries event world turns →
      hearAll behaviour.noting entries event (world.noted notes) =
        ((hearAll behaviour entries event world).1,
          (hearAll behaviour entries event world).2.noted (notes ++ turns.flatMap Turn.notes))
  | .done event world => by
      rw [List.flatMap_nil, List.append_nil]
      rfl
  | @Attends.next _ _ listener controller later event _ world _ _ _ result _ rest => by
      have engaged := @engaging_noting _ behaviour world notes
        (controller.toList ++ later.filterMap Prod.snd) listener event
      rw [result] at engaged
      rw [hearAll_cons engaged, hearAll_cons result, rest.noting, List.append_assoc,
        List.flatMap_cons]
      rfl

theorem Rises.noting {path : List NodeId} {event : Event} {world : World Client}
    {visits : List (Visit Client)} (notes : List Note) : Rises behaviour place path event world visits →
      travel behaviour.noting place path event (world.noted notes) =
        ((travel behaviour place path event world).1,
          (travel behaviour place path event world).2.noted (notes ++ visits.flatMap Visit.notes))
  | .done event world => by
      rw [List.flatMap_nil, List.append_nil]
      rfl
  | .gone absent rest => by
      have also : ((world.noted notes).document place).data? _ = none := absent
      rw [travel_gone absent, travel_gone also]
      exact rest.noting notes
  | .last found result attends stopped => by
      have also : ((world.noted notes).document place).data? _ = some _ := found
      have heard := attends.noting notes
      rw [result] at heard
      rw [travel_last found result stopped, travel_last also heard stopped, List.flatMap_cons,
        List.flatMap_nil, List.append_nil]
      rfl
  | .next found result attends goes rest => by
      have also : ((world.noted notes).document place).data? _ = some _ := found
      have heard := attends.noting notes
      rw [result] at heard
      rw [travel_next found result goes, travel_next also heard goes, rest.noting, List.append_assoc,
        List.flatMap_cons]
      rfl

/-! ## Events are exact -/

/-- What an event that is fired in a world has to do with a document while it travels. -/
structure Exact (behaviour : Behaviour Client) (place : DocumentId) (event : Event) (world : World Client)
    (visits : List (Visit Client)) : Prop where
  /-- These are the listeners of the client that are run for the event itself, and what they are given. -/
  heard : (world.noted []).dispatch behaviour.noting place event =
    ((world.dispatch behaviour place event).1,
      (world.dispatch behaviour place event).2.noted (visits.flatMap Visit.notes))
  /-- The nodes were on the way of the event when it was fired, and are reached in that order. -/
  ordered : (visits.map Visit.node).Sublist ((world.document place).bubblePath event.target)
  once : (visits.map Visit.node).Nodup
  /-- All listeners for the event are run that are registered at a node when the event comes there, each of
  them once, and they are given the event. -/
  fair : ∀ visit ∈ visits, visit.Fair place event
  /-- The listeners that were there when the event was fired are run first. -/
  early : ∀ visit ∈ visits, ∀ data, (world.document place).data? visit.node = some data →
    data.listenersFor event.name <+: visit.run
  /-- Those are not run who are added while the event is at their node. -/
  late : ∀ visit ∈ visits, ∀ moment ∈ visit.moments, ∀ data,
    (moment.document place).data? visit.node = some data → visit.run <+: data.listenersFor event.name
  /-- A node that is reached has been there all the time. -/
  present : visits.Pairwise fun before visit => ∀ moment ∈ before.moments,
    (moment.document place).contains visit.node = true
  /-- The event does not go on from a node at which it is stopped. -/
  stops : visits.Pairwise fun before _ => before.left.stopped = false
  /-- Of the nodes that the event passes, those are reached that are still there in the end.  It passes all
  of them up to the one at which it is stopped. -/
  reached : ∃ passed above, (world.document place).bubblePath event.target = passed ++ above ∧
    (visits.map Visit.node).Sublist passed ∧
    (∀ node ∈ passed, ((world.dispatch behaviour place event).2.document place).contains node = true →
      node ∈ visits.map Visit.node) ∧
    (above ≠ [] → ∃ visit, visits.getLast? = some visit ∧ visit.left.stopped = true ∧
      passed.getLast? = some visit.node)
  /-- The event is returned as it left the last node. -/
  returned : (world.dispatch behaviour place event).1 = (visits.getLast?.map Visit.left).getD event
  current : event.current = event.target → (world.dispatch behaviour place event).1.current =
    (visits.getLast?.map Visit.node).getD event.target
  /-- If no listener changes the document, all nodes are reached up to the one at which the event is
  stopped, and the listeners are run that were there when it was fired. -/
  unchanged : (∀ visit ∈ visits, ∀ moment ∈ visit.moments, moment.document place = world.document place) →
    (∃ above, (world.document place).bubblePath event.target = visits.map Visit.node ++ above ∧
      (above ≠ [] → ∃ visit, visits.getLast? = some visit ∧ visit.left.stopped = true)) ∧
    ∀ visit ∈ visits, ∃ data, (world.document place).data? visit.node = some data ∧
      visit.run = data.listenersFor event.name

/-- While an event travels, documents may be edited and further events fired.  Whatever listeners do, the
event reaches the nodes on its way that are still there, and at each of them those are run who are
registered when it comes. -/
theorem dispatch_exact {event : Event} {visits : List (Visit Client)}
    (sound : (world.document place).Sound)
    (rises : Rises behaviour place ((world.document place).bubblePath event.target) event world visits) :
    Exact behaviour place event world visits := by
  obtain ⟨distinct, there⟩ := sound.bubblePath event.target
  have issued : ∀ node ∈ (world.document place).bubblePath event.target,
      (world.document place).places.Issued node := fun node member =>
    sound.issued node (Document.contains_iff.1 (there node member))
  have on_way : ∀ visit ∈ visits, visit.node ∈ (world.document place).bubblePath event.target :=
    fun visit member => rises.ordered.subset (List.mem_map_of_mem member)
  obtain ⟨since, timely⟩ := rises.timely sound
  exact {
    heard := rises.noting []
    ordered := rises.ordered
    once := distinct.sublist rises.ordered
    fair := rises.fair
    early := fun visit member data here => by
      obtain ⟨later, found, run⟩ := (rises.fair visit member).run
      rw [run]
      exact (since visit member).1.listenersFor sound here found event.name
    late := fun visit member moment during data here => by
      obtain ⟨earlier, found, run⟩ := (rises.fair visit member).run
      rw [run]
      exact ((since visit member).2 moment during).listenersFor (since visit member).1.sound found here
        event.name
    present := by
      refine timely.imp_of_mem fun {before visit} early member apart moment during => ?_
      have known : (moment.document place).places.Issued visit.node :=
        ((since before early).1.trans ((since before early).2 moment during)).issued _
          (issued _ (on_way visit member))
      obtain ⟨data, found, -⟩ := (rises.fair visit member).run
      refine (apart moment during).contains known ?_
      rw [← Document.isSome_data?, found]
      rfl
    stops := rises.stops
    reached := rises.reached sound issued
    returned := rises.result
    current := fun fresh => by
      have returned := rises.result
      rw [dispatch, returned]
      cases last : visits.getLast? with
      | none => exact fresh
      | some visit => exact (rises.fair visit (List.mem_of_getLast? last)).left.current
    unchanged := fun same => by
      obtain ⟨whole, worlds⟩ := rises.unchanged rfl there same
      refine ⟨whole, fun visit member => ?_⟩
      rw [← worlds visit member]
      exact (rises.fair visit member).run }

/-! ## A page that is rearranged -/

/-- A button in a form, in a page that has a frame. -/
def framed : Document where
  nodes := .cons ⟨0, 0⟩ { kind := .element "body", listeners := [("click", .client ⟨3⟩)] }
    (.cons ⟨1, 0⟩ { kind := .element "main", listeners := [("click", .client ⟨1⟩)] }
      (.cons ⟨2, 0⟩ { kind := .element "form", listeners := [("click", .client ⟨3⟩)] }
        (.cons ⟨3, 0⟩ { kind := .element "button", listeners := [("click", .client ⟨0⟩)] } .nil .nil)
        .nil) .nil) .nil
  places := { taken := #[1, 1, 1, 1], vacant := [], vacant_lt := nofun }

/-- The button is put next to the form, which is removed, and there are more listeners. -/
def rearranging : List Document.Edit :=
  [.perform (.appendChild ⟨1, 0⟩ ⟨3, 0⟩), .perform (.remove ⟨2, 0⟩),
    .listen ⟨1, 0⟩ "click" (.client ⟨2⟩), .listen ⟨3, 0⟩ "click" (.client ⟨2⟩)]

/-- The first listener rearranges the document, the second one stops the event, and the third one
prevents its default action and fires another event at the button. -/
def rearranger : Behaviour Unit :=
  { still Unit with
    listen := fun hook event world =>
      if hook = ⟨0⟩ then
        (event, rearranging.foldl (fun world edit => world.modifyDocument ⟨0⟩ (·.edited edit)) world)
      else if hook = ⟨1⟩ then (event.stop, world)
      else (event.prevent, (world.dispatch (still Unit) ⟨0⟩ (.fired "input" ⟨3, 0⟩)).2) }

/-- The page in a world of its own. -/
def framedWorld : World Unit :=
  { documents := ⟨#[framed]⟩, client := () }

/-- The page after the first listener. -/
def rearranged : World Unit :=
  rearranging.foldl (fun world edit => world.modifyDocument ⟨0⟩ (·.edited edit)) framedWorld

theorem sound_framed : framed.Sound :=
  ⟨by decide, by decide⟩

theorem edits_still (Client : Type) : (still Client).Edits :=
  ⟨fun _ event world => ⟨_, .done event world⟩, fun _ event _ world => ⟨_, .done event world⟩⟩

/-- The form is passed over, as it has gone, and the listener that was put on the main part is run although
the one before it stops the event.  The one that was put on the button is not. -/
theorem rises_framed : ∃ visits, Rises rearranger ⟨0⟩ (framed.bubblePath ⟨3, 0⟩) (.fired "click" ⟨3, 0⟩)
    framedWorld visits ∧ visits.map Visit.node = [⟨3, 0⟩, ⟨1, 0⟩] ∧
      visits.map Visit.run = [[.client ⟨0⟩], [.client ⟨1⟩, .client ⟨2⟩]] := by
  have path : framed.bubblePath ⟨3, 0⟩ = [⟨3, 0⟩, ⟨2, 0⟩, ⟨1, 0⟩, ⟨0, 0⟩] := by decide
  have button : (framedWorld.document ⟨0⟩).data? ⟨3, 0⟩ =
    some { kind := .element "button", listeners := [("click", .client ⟨0⟩)] } := by rfl
  have form : (rearranged.document ⟨0⟩).data? ⟨2, 0⟩ = none := by decide +kernel
  have main : (rearranged.document ⟨0⟩).data? ⟨1, 0⟩ =
    some { kind := .element "main", listeners := [("click", .client ⟨1⟩), ("click", .client ⟨2⟩)] } := by
      decide +kernel
  have first : ∀ event, framedWorld.engaging [] (fun world => world.hear rearranger (.client ⟨0⟩) event) =
    (event, rearranged) := fun _ => rfl
  have second : ∀ event, rearranged.engaging [] (fun world => world.hear rearranger (.client ⟨1⟩) event) =
    (event.stop, rearranged) := fun _ => rfl
  have edits : ∀ event : Event, ∃ moments, Acts event framedWorld moments event rearranged :=
    fun event => ⟨_, .edit _ _ (.edit _ _ (.edit _ _ (.edit _ _ (.done event rearranged))))⟩
  obtain ⟨moments, acts⟩ := edits { Event.fired "click" ⟨3, 0⟩ with current := ⟨3, 0⟩ }
  obtain ⟨nested, fires⟩ := (edits_still Unit).rises ⟨0⟩ ((rearranged.document ⟨0⟩).bubblePath ⟨3, 0⟩)
    (.fired "input" ⟨3, 0⟩) rearranged
  rw [path]
  refine ⟨_, .next button (hearAll_cons (first _)) (.next (first _) acts (.done _ _)) rfl (.gone form
    (.last main ((hearAll_cons (second _)).trans (hearAll_cons rfl)) (.next (second _)
      (.stop (.done _ _)) (.next rfl (.prevent (.dispatch ⟨0⟩ _ fires (.done _ _))) (.done _ _))) rfl)),
    rfl, rfl⟩

theorem dispatch_exact_framed : (framedWorld.document ⟨0⟩).Sound ∧ ∃ visits,
    Rises rearranger ⟨0⟩ (framed.bubblePath ⟨3, 0⟩) (.fired "click" ⟨3, 0⟩) framedWorld visits ∧
      Exact rearranger ⟨0⟩ (.fired "click" ⟨3, 0⟩) framedWorld visits ∧
        visits.map Visit.node = [⟨3, 0⟩, ⟨1, 0⟩] ∧
          visits.map Visit.run = [[.client ⟨0⟩], [.client ⟨1⟩, .client ⟨2⟩]] := by
  obtain ⟨visits, rises, nodes, runs⟩ := rises_framed
  exact ⟨sound_framed, visits, rises, dispatch_exact sound_framed rises, nodes, runs⟩

end World

end LiveTemplate
