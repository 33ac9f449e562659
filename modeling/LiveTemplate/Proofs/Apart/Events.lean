import LiveTemplate.Proofs.Apart.Telling
import LiveTemplate.View.Dispatch

/-!
# Events in both worlds

An event that is fired at the same node of both worlds travels the same way in each of them.  Nodes of
hidden renders are not among those that it meets, and controllers of hidden renders are none that it is
handed to.
-/

namespace LiveTemplate

variable {hidden own : String → Bool} {ties later : Ties} {first second : World Journal}
  {supply : Hook → List Entry → List (String × Hook)} {behaviour also : Behaviour Journal}
  {one other : ControllerId}

/-! ## Controllers in use -/

theorem Ties.Engages.eq_iff {third fourth : ControllerId} (engages : ties.Engages third fourth)
    (tied : ties.controllers.pairs one other) : third = one ↔ fourth = other := by
  rcases engages with same | root
  · exact ties.controllers.eq_iff tied same
  · constructor
    · rintro rfl
      exact absurd (ties.concealed root) (ties.controllers.apart tied)
    · rintro rfl
      exact absurd tied (ties.unlike root)

theorem contains_eq_of_engages {held kept : List ControllerId}
    (engaged : List.Forall₂ ties.Engages held kept) (tied : ties.controllers.pairs one other) :
    held.contains one = kept.contains other := by
  induction engaged with
  | nil => rfl
  | @cons third fourth _ _ engages _ induction =>
      have same : (one == third) = (other == fourth) := by
        rw [Bool.eq_iff_iff, beq_iff_eq, beq_iff_eq, eq_comm, engages.eq_iff tied, eq_comm]
      rw [List.contains_cons, List.contains_cons, induction, same]

theorem Event.Matches.prevent {event twin : Event} (alike : event.Matches ties twin) :
    event.prevent.Matches ties twin.prevent :=
  { alike with prevented := rfl }

theorem Event.Matches.stop {event twin : Event} (alike : event.Matches ties twin) :
    event.stop.Matches ties twin.stop :=
  { alike with stopped := rfl }

theorem Store.mem_toList {Item : Type} {store : Store Item} {item : Item} :
    item ∈ store.toList ↔ ∃ index, store.get? index = some item := by
  rw [Store.toList, List.mem_iff_getElem?]
  simp only [Array.getElem?_toList, Store.get?]

/-- Whether a bound node of a render was built with a controller. -/
def Render.serves (render : Render) (controller : ControllerId) : Bool :=
  render.tree.nodes.entries.any fun entry => entry.2.scope.controller == controller

theorem Render.Shown.serves_eq {render twin : Render} (shown : render.Shown ties twin)
    (tied : ties.controllers.pairs one other) : render.serves one = twin.serves other := by
  have entries := Forest.Matches.entries shown.alike.nodes
  unfold Render.serves
  revert entries
  generalize render.tree.nodes.entries = here, twin.tree.nodes.entries = there
  intro entries
  induction entries with
  | nil => rfl
  | cons same _ induction =>
      rw [List.any_cons, List.any_cons, induction]
      congr 1
      rw [Bool.eq_iff_iff, beq_iff_eq, beq_iff_eq]
      exact ties.controllers.eq_iff tied same.2.scope.controller

theorem Render.Hidden.not_serves {render : Render} (unseen : render.Hidden ties)
    (tied : ties.controllers.pairs one other) : ¬ render.serves one = true := by
  unfold Render.serves
  rw [List.any_eq_true]
  rintro ⟨entry, member, same⟩
  have lone := (List.forall₂_same.1 (Forest.Matches.entries unseen.alike.nodes) entry member).2
  exact Tie.ne_of_lone tied lone.scope.controller.2 (beq_iff_eq.1 same)

namespace World

theorem inUse_eq_serves (behaviour : Behaviour Journal) (world : World Journal) (id : ControllerId) :
    world.inUse behaviour id = ((behaviour.keeps world).contains id || world.engaged.contains id ||
      world.renders.toList.any (·.serves id)) :=
  rfl

/-- A controller that is tied is at work for a render of both worlds in both of them, and for no hidden
render. -/
theorem Matches.serves_eq (all : World.Matches hidden own ties first second)
    (tied : ties.controllers.pairs one other) :
    (first.renders.toList.any (·.serves one)) = second.renders.toList.any (·.serves other) := by
  rw [Bool.eq_iff_iff, List.any_eq_true, List.any_eq_true]
  constructor
  · rintro ⟨render, member, serves⟩
    obtain ⟨index, there⟩ := Store.mem_toList.1 member
    rcases all.renders.known ⟨index⟩ (Store.lt_next_of_get? there) with lone | ⟨id, also⟩
    · obtain ⟨_, here, unseen⟩ := all.renders.hidden lone
      obtain rfl := Option.some.inj (there.symm.trans here)
      exact absurd serves (unseen.not_serves tied)
    · obtain ⟨_, twin, here, beside, shown⟩ := all.renders.shown also
      obtain rfl := Option.some.inj (there.symm.trans here)
      exact ⟨twin, Store.mem_toList.2 ⟨_, beside⟩, shown.serves_eq tied ▸ serves⟩
  · rintro ⟨twin, member, serves⟩
    obtain ⟨index, there⟩ := Store.mem_toList.1 member
    obtain ⟨id, also⟩ := all.renders.knownAlso ⟨index⟩ (Store.lt_next_of_get? there)
    obtain ⟨render, _, here, beside, shown⟩ := all.renders.shown also
    obtain rfl := Option.some.inj (there.symm.trans beside)
    exact ⟨render, Store.mem_toList.2 ⟨_, here⟩, shown.serves_eq tied ▸ serves⟩

theorem Matches.inUse_eq (all : World.Matches hidden own ties first second)
    (fellows : behaviour.Fellows hidden own supply also) (tied : ties.controllers.pairs one other) :
    first.inUse behaviour one = second.inUse also other := by
  rw [inUse_eq_serves, inUse_eq_serves, contains_eq_of_engages (fellows.keeps all) tied,
    contains_eq_of_engages all.engaged tied, all.serves_eq tied]

/-! ## Handlers -/

/-- Chains of controllers that lead to the same action. -/
def Led (ties : Ties) (first second : List ControllerId × Hook) : Prop :=
  List.Forall₂ ties.Engages first.1 second.1 ∧ first.2 = second.2

/-- The way of an action is the same, as controllers are older than those that they are told of. -/
theorem Matches.handler? (all : World.Matches hidden own ties first second)
    (fellows : behaviour.Fellows hidden own supply also) (action : String) (length : Nat) :
    ∀ (width : Nat) (one other : ControllerId), ties.controllers.pairs one other →
      one.index < length → other.index < width →
        Option.Rel (Led ties) (first.handler? behaviour action length one)
          (second.handler? also action width other) := by
  induction length with
  | zero => exact fun _ _ _ _ short => absurd short (Nat.not_lt_zero _)
  | succ length induction =>
      intro width one other tied short narrow
      cases width with
      | zero => exact absurd narrow (Nat.not_lt_zero _)
      | succ width =>
          rw [World.handler?, World.handler?]
          dsimp only
          rw [Controller.action?_eq, Controller.action?_eq, all.controllers.tables tied]
          cases (second.controllers.get other).table?.bind (·.lookup action) with
          | some hook => exact .some ⟨.cons (.inl tied) .nil, rfl⟩
          | none =>
              have older := all.controllers.older tied
              have olderAlso := all.controllers.olderAlso tied
              have parents := all.controllers.parents tied
              dsimp only
              revert older olderAlso parents
              unfold Controllers.Older
              generalize (first.controllers.get one).parent? = upper,
                (second.controllers.get other).parent? = above
              rintro older olderAlso (@⟨parent, twin, linked⟩ | _)
              · dsimp only
                rw [all.inUse_eq fellows linked]
                split
                · have way := induction width parent twin linked
                    (Nat.lt_of_lt_of_le (older parent rfl) (Nat.le_of_lt_succ short))
                    (Nat.lt_of_lt_of_le (olderAlso twin rfl) (Nat.le_of_lt_succ narrow))
                  rcases some_or_none way with
                    ⟨⟨chain, hook⟩, ⟨path, _⟩, found, met, led, rfl⟩ | ⟨found, met⟩
                  · rw [found, met]
                    exact .some ⟨.cons (.inl tied) led, rfl⟩
                  · rw [found, met]
                    exact .none
                · exact .none
              · exact .none

/-- The root controller of a hidden render hands on nothing. -/
theorem Matches.handler?_root (all : World.Matches hidden own ties first second)
    (action : String) (length width : Nat) (root : ties.roots.pairs one other) :
    Option.Rel (Led ties) (first.handler? behaviour action (length + 1) one)
      (second.handler? also action (width + 1) other) := by
  rw [World.handler?, World.handler?]
  dsimp only
  rw [Controller.action?_eq, Controller.action?_eq, all.controllers.rootTables root,
    all.controllers.orphans root, all.controllers.orphansAlso root]
  cases (second.controllers.get other).table?.bind (·.lookup action) with
  | some hook => exact .some ⟨.cons (.inr root) .nil, rfl⟩
  | none => exact .none

/-- Controllers are held on to in both worlds while something is done. -/
theorem Matches.engaging {Result : Type} {results : Ties → Result → Result → Prop}
    (all : World.Matches hidden own ties first second) {held kept : List ControllerId}
    (engages : List.Forall₂ ties.Engages held kept)
    {act mate : World Journal → Result × World Journal}
    (acts : ∀ after rest, World.Matches hidden own ties after rest →
      MeetWith hidden own results ties (act after) (mate rest)) :
    MeetWith hidden own results ties (first.engaging held act) (second.engaging kept mate) := by
  obtain ⟨later, grow, related, after⟩ := acts { first with engaged := held ++ first.engaged }
    { second with engaged := kept ++ second.engaged }
    { all with engaged := List.rel_append engages all.engaged }
  exact ⟨later, grow, related,
    { after with engaged := all.engaged.imp fun _ _ engages => engages.mono grow }⟩

/-- What comes out when an action is handled. -/
def Handled (ties : Ties) (first second : Bool × Event) : Prop :=
  first.1 = second.1 ∧ first.2.Matches ties second.2

theorem Matches.handle (all : World.Matches hidden own ties first second)
    (fellows : behaviour.Fellows hidden own supply also) (engages : ties.Engages one other)
    (action : String) {event twin : Event} (alike : event.Matches ties twin) (model : ModelId) :
    MeetWith hidden own Handled ties (first.handle behaviour one action event model)
      (second.handle also other action twin model) := by
  have way : Option.Rel (Led ties)
      (first.handler? behaviour action (first.controllers.next + 1) one)
      (second.handler? also action (second.controllers.next + 1) other) := by
    rcases engages with tied | root
    · exact all.handler? fellows action _ _ _ _ tied
        (Nat.lt_succ_of_lt (all.controllers.among.first tied))
        (Nat.lt_succ_of_lt (all.controllers.among.second tied))
    · exact all.handler?_root action _ _ root
  rw [World.handle, World.handle]
  rcases some_or_none way with ⟨⟨chain, hook⟩, ⟨path, _⟩, found, met, led, rfl⟩ | ⟨found, met⟩
  · rw [found, met]
    refine all.engaging (.cons engages led) fun after rest matching => ?_
    obtain ⟨later, grow, alike, acted⟩ := fellows.act matching alike hook model
    exact ⟨later, grow, ⟨rfl, alike⟩, acted⟩
  · rw [found, met]
    exact ⟨ties, le_rfl, ⟨rfl, alike⟩, all⟩

/-! ## Listeners -/

/-- An event attribute of a render that is there in both worlds stands for the same. -/
theorem Matches.eventAttribute? (all : World.Matches hidden own ties first second)
    {render twin : RenderId} (tied : ties.renders.pairs render twin) (owner : BoundId) (slot : Nat) :
    Option.Rel (fun one other => one.1.Matches ties.seen other.1 ∧ one.2 = other.2)
      (first.eventAttribute? render owner slot) (second.eventAttribute? twin owner slot) := by
  obtain ⟨_, _, here, there, shown⟩ := all.rendered tied
  rw [World.eventAttribute?, World.eventAttribute?, World.bound?, World.bound?, here, there,
    Option.bind_some, Option.bind_some, BoundTree.get?, BoundTree.get?]
  rcases some_or_none (shown.alike.nodes.get? owner) with
    ⟨⟨part, _, _, scope⟩, ⟨_, _, _, _⟩, node, mate, same, _, _, scopes⟩ | ⟨node, mate⟩
  · obtain rfl : part = _ := same
    rw [node, mate]
    cases part with
    | element attributes =>
        dsimp only
        split
        · exact .some ⟨scopes, rfl⟩
        · exact .none
    | text | switch | list | group | watch | view => exact .none
  · rw [node, mate]
    exact .none

theorem Matches.controllerOf? (all : World.Matches hidden own ties first second)
    {listener twin : Listener} (same : listener.Matches ties.seen twin) :
    Option.Rel ties.controllers.pairs (first.controllerOf? listener) (second.controllerOf? twin) := by
  cases same with
  | client hook => exact .none
  | action tied owner slot =>
      rw [World.controllerOf?, World.controllerOf?]
      rcases some_or_none (all.eventAttribute? tied owner slot) with
        ⟨_, _, here, there, same⟩ | ⟨here, there⟩
      · rw [here, there]
        exact .some same.1.controller
      · rw [here, there]
        exact .none

theorem Matches.hear (all : World.Matches hidden own ties first second)
    (fellows : behaviour.Fellows hidden own supply also) {listener mate : Listener}
    (same : listener.Matches ties.seen mate) {event twin : Event} (alike : event.Matches ties twin) :
    MeetWith hidden own Event.Matches ties (first.hear behaviour listener event)
      (second.hear also mate twin) := by
  cases same with
  | client hook => exact fellows.listen all alike hook
  | action tied owner slot =>
      rw [World.hear, World.hear]
      dsimp only
      rcases some_or_none (all.eventAttribute? tied owner slot) with
        ⟨⟨scope, action, prevents⟩, ⟨inner, _⟩, here, there, scopes, rfl⟩ | ⟨here, there⟩
      · have prevented : Event.Matches ties (if prevents then event.prevent else event)
            (if prevents then twin.prevent else twin) := by
          split
          · exact alike.prevent
          · exact alike
        obtain ⟨later, grow, handled, after⟩ :=
          all.handle fellows (.inl scopes.controller) action prevented scope.model
        rw [here, there]
        dsimp only
        rw [← scopes.model]
        exact ⟨later, grow, handled.2, after⟩
      · rw [here, there]
        exact ⟨ties, le_rfl, alike, all⟩

/-- Listeners that are heard, each with the controller that it holds on to. -/
def Heard (ties : Ties) (first second : Listener × Option ControllerId) : Prop :=
  first.1.Matches ties.seen second.1 ∧ Option.Rel ties.controllers.pairs first.2 second.2

theorem engages_of_heard {listeners mates : List (Listener × Option ControllerId)}
    (heard : List.Forall₂ (Heard ties) listeners mates) :
    List.Forall₂ ties.Engages (listeners.filterMap Prod.snd) (mates.filterMap Prod.snd) := by
  refine List.rel_filterMap ?_ heard
  intro one other same
  exact Option.Rel.imp same.2 fun _ _ => .inl

theorem Matches.hearAll (fellows : behaviour.Fellows hidden own supply also)
    {listeners mates : List (Listener × Option ControllerId)}
    (heard : List.Forall₂ (Heard ties) listeners mates)
    (all : World.Matches hidden own ties first second) {event twin : Event}
    (alike : event.Matches ties twin) :
    MeetWith hidden own Event.Matches ties (World.hearAll behaviour listeners event first)
      (World.hearAll also mates twin second) := by
  suffices any : ∀ later, ties ≤ later → ∀ first second, World.Matches hidden own later first second →
      ∀ event twin : Event, event.Matches later twin →
        MeetWith hidden own Event.Matches later (World.hearAll behaviour listeners event first)
          (World.hearAll also mates twin second) from any ties le_rfl _ _ all _ _ alike
  clear all alike
  induction heard with
  | nil => exact fun later grow first second all event twin alike => ⟨later, le_rfl, alike, all⟩
  | @cons listener mate listeners mates here rest induction =>
      intro later grow first second all event twin alike
      obtain ⟨listener, controller⟩ := listener
      obtain ⟨partner, holder⟩ := mate
      have controllers : List.Forall₂ later.Engages (controller.toList ++ listeners.filterMap Prod.snd)
          (holder.toList ++ mates.filterMap Prod.snd) := by
        refine List.rel_append (toList_forall₂ (Option.Rel.imp here.2 ?_))
          ((engages_of_heard rest).imp fun _ _ engages => engages.mono grow)
        exact fun _ _ linked => .inl (grow.controllers.1 _ _ linked)
      obtain ⟨last, early, alike, after⟩ := all.engaging controllers fun after rest matching =>
        matching.hear fellows (here.1.mono (Ties.monotone_seen grow)) alike
      obtain ⟨final, late, alike, after⟩ := induction last (grow.trans early) _ _ after _ _ alike
      exact ⟨final, early.trans late, alike, after⟩

/-! ## The way of an event -/

theorem Matches.travel (fellows : behaviour.Fellows hidden own supply also) {way path : List NodeId}
    (same : List.Forall₂ ties.nodes.pairs way path)
    (all : World.Matches hidden own ties first second) {event twin : Event}
    (alike : event.Matches ties twin) :
    MeetWith hidden own Event.Matches ties (World.travel behaviour place way event first)
      (World.travel also place path twin second) := by
  suffices any : ∀ later, ties ≤ later → ∀ first second, World.Matches hidden own later first second →
      ∀ event twin : Event, event.Matches later twin →
        MeetWith hidden own Event.Matches later (World.travel behaviour place way event first)
          (World.travel also place path twin second) from any ties le_rfl _ _ all _ _ alike
  clear all alike
  induction same with
  | nil => exact fun later grow first second all event twin alike => ⟨later, le_rfl, alike, all⟩
  | @cons node partner way path here _ induction =>
      intro later grow first second all event twin alike
      have linked := grow.nodes.1 _ _ here
      have data : Option.Rel (NodeData.Matches later.seen) ((first.document place).data? node)
          ((second.document place).data? partner) := all.documents.shared.data? linked
      rw [World.travel, World.travel]
      rcases some_or_none data with ⟨data, mate, found, also, same⟩ | ⟨found, also⟩
      · have heard : List.Forall₂ (Heard later)
            ((data.listenersFor event.name).map fun listener => (listener, first.controllerOf? listener))
            ((mate.listenersFor twin.name).map fun listener => (listener, second.controllerOf? listener)) := by
          rw [alike.name]
          exact List.rel_map (fun _ _ heard => ⟨heard, all.controllerOf? heard⟩)
            (same.listenersFor twin.name)
        have met : Event.Matches later { event with current := node }
            { twin with current := partner } := { alike with current := linked }
        obtain ⟨last, early, alike, after⟩ := Matches.hearAll fellows heard all met
        rw [found, also]
        dsimp only
        rw [alike.stopped]
        split
        · exact ⟨last, early, alike, after⟩
        · obtain ⟨final, late, alike, after⟩ := induction last (grow.trans early) _ _ after _ _ alike
          exact ⟨final, early.trans late, alike, after⟩
      · rw [found, also]
        exact induction later grow _ _ all _ _ alike

theorem Matches.dispatch (all : World.Matches hidden own ties first second)
    (fellows : behaviour.Fellows hidden own supply also) {event twin : Event}
    (alike : event.Matches ties twin) :
    MeetWith hidden own Event.Matches ties (first.dispatch behaviour place event)
      (second.dispatch also place twin) :=
  Matches.travel fellows (all.documents.shared.bubblePath alike.target) all alike

end World

end LiveTemplate
