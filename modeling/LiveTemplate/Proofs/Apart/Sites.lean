import LiveTemplate.Proofs.Apart.Building
import LiveTemplate.Proofs.Apart.States

/-!
# Building in both worlds and in one

The same may be built in both worlds, and something may be built for a hidden render in the first world
while nothing happens in the second.  Either way the worlds match afterwards.  For a hidden render, the
two buildings that go abreast are one and the same; what matches itself is then hidden.
-/

namespace LiveTemplate

/-- The same ties but for document nodes. -/
def Ties.withNodes (ties : Ties) (nodes : Tie NodeId) : Ties :=
  { ties with nodes }

theorem Ties.le_withNodes {ties : Ties} {nodes : Tie NodeId} (grow : ties.nodes ≤ nodes) :
    ties ≤ ties.withNodes nodes :=
  ⟨grow, le_rfl, le_rfl, le_rfl, le_rfl, Nat.le_refl _, Nat.le_refl _⟩

variable {Client : Type}

namespace BuildState.Matches

variable {ties later : Ties} {first second : BuildState Client}

/-- Registrations were made or ended, and nothing else. -/
theorem withData (all : BuildState.Matches ties first second) {marks : Tie Subscription}
    {data other : Data} (alike : Data.Matches (ties.withMarks marks) data other) :
    BuildState.Matches (ties.withMarks marks) { first with data } { second with data := other } where
  data := alike
  controllers := all.controllers.of_eq rfl rfl
  nodes := all.nodes

/-- Controllers came or were told something, and nothing else. -/
theorem withControllers (all : BuildState.Matches ties first second) (hires : ties.Hires later)
    {controllers others : Controllers} (alike : Controllers.Matches later controllers others) :
    BuildState.Matches later { first with controllers } { second with controllers := others } where
  data := all.data.mono hires.le hires.marks hires.models hires.collections
  controllers := alike
  nodes := hires.nodes ▸ all.nodes

theorem told (all : BuildState.Matches ties first second) {controllers others : Controllers}
    (alike : Controllers.Matches ties controllers others) :
    BuildState.Matches ties { first with controllers } { second with controllers := others } :=
  ⟨all.data, alike, all.nodes⟩

private theorem withPlaces (all : BuildState.Matches ties first second) {nodes : Tie NodeId}
    (grow : ties.nodes ≤ nodes) {places others : Places}
    (among : nodes.Among places.Issued others.Issued) :
    BuildState.Matches (ties.withNodes nodes) { first with places } { second with places := others } where
  data := all.data.mono (Ties.le_withNodes grow) rfl rfl rfl
  controllers := all.controllers.of_eq rfl rfl
  nodes := among

/-- A document node is made in both worlds. -/
theorem takes (all : BuildState.Matches ties first second) : ∃ nodes, ties.nodes ≤ nodes ∧
    nodes.pairs first.places.next second.places.next ∧
      BuildState.Matches (ties.withNodes nodes) { first with places := first.places.take }
        { second with places := second.places.take } := by
  have new := first.places.not_issued_next
  have free := second.places.not_issued_next
  refine ⟨_, Tie.le_couple all.nodes new free, .inr ⟨rfl, rfl⟩,
    all.withPlaces (Tie.le_couple all.nodes new free) ?_⟩
  refine all.nodes.couple new free (fun node issued => ?_) (fun node issued => ?_) ?_ ?_
  · exact (Places.issued_take_iff _ _).2 (.inl issued)
  · exact (Places.issued_take_iff _ _).2 (.inl issued)
  · exact (Places.issued_take_iff _ _).2 (.inr rfl)
  · exact (Places.issued_take_iff _ _).2 (.inr rfl)

/-- A document node is made for a hidden render. -/
theorem takes_first (all : BuildState.Matches ties first second) : ∃ nodes, ties.nodes ≤ nodes ∧
    nodes.lone first.places.next ∧
      BuildState.Matches (ties.withNodes nodes) { first with places := first.places.take }
        second := by
  have new := first.places.not_issued_next
  refine ⟨_, Tie.le_seclude all.nodes new, .inr rfl,
    all.withPlaces (Tie.le_seclude all.nodes new) (all.nodes.seclude new ?_ ?_)⟩
  · exact fun node issued => (Places.issued_take_iff _ _).2 (.inl issued)
  · exact (Places.issued_take_iff _ _).2 (.inr rfl)

end BuildState.Matches

/-- The factories give fresh controllers and leave the client's state as it is. -/
def Site.Supplies (site : Site Client) (supply : Hook → Client → List (String × Hook)) : Prop :=
  ∀ factory controllers client, site.build factory controllers client =
    (⟨controllers.next⟩, controllers.add (.actions (supply factory client) none), client)

namespace Site

variable {supply : Hook → Client → List (String × Hook)} {one other : Site Client}

theorem Supplies.given_eq (supplies : one.Supplies supply) (factory : Hook)
    (state : BuildState Client) : one.given factory state = ⟨state.controllers.next⟩ := by
  rw [given, supplies]

theorem Supplies.called_eq (supplies : one.Supplies supply) (factory : Hook)
    (state : BuildState Client) : one.called factory state =
      { state with
        controllers := state.controllers.add (.actions (supply factory state.client) none) } := by
  rw [called, supplies]

/-- What is built in both worlds. -/
structure Both (renders : Tie RenderId) (client twin : Client) (ties : Ties)
    (before after : BuildState Client) : Prop where
  alike : BuildState.Matches ties before after
  next : before.nextBound = after.nextBound
  renders : ties.renders = renders
  client : before.client = client
  twin : after.client = twin

/-- What is built in the first world only.  Nothing happens in the second. -/
structure Alone (renders : Tie RenderId) (still : BuildState Client) (client : Client) (ties : Ties)
    (before after : BuildState Client) : Prop where
  same : after = before
  alike : BuildState.Matches ties before still
  renders : ties.renders = renders
  client : before.client = client

/-- Buildings for a render that is there in both worlds go abreast. -/
def both (config : one.config = other.config) (registry : one.registry = other.registry)
    (supplies : one.Supplies supply) (too : other.Supplies supply) {renders : Tie RenderId}
    (tied : renders.pairs one.render other.render) {client twin : Client}
    (equal : ∀ factory, supply factory client = supply factory twin) :
    one.Abreast Ties other where
  links := Ties.seen
  monotone := Ties.monotone_seen
  states := Both renders client twin
  config := config
  registry := registry
  agrees states := states.alike.data.agrees
  sound states := states.alike.data.sound
  models states := states.alike.data.models
  collections states := states.alike.data.collections
  render states := by
    change Tie.pairs _ _ _
    rw [states.renders]
    exact tied
  bound states := ⟨states.next, ⟨states.alike.data, states.alike.controllers, states.alike.nodes⟩,
    congrArg (· + 1) states.next, states.renders, states.client, states.twin⟩
  node states := by
    obtain ⟨nodes, grow, linked, alike⟩ := states.alike.takes
    exact ⟨_, Ties.le_withNodes grow, linked, alike, states.next, states.renders, states.client,
      states.twin⟩
  observe {ties before after} states {model} inside property owner root slot rest := by
    have here : model.index < before.data.models.next := states.alike.data.models ▸ inside
    have there : model.index < after.data.models.next := states.alike.data.agrees.models ▸ here
    have render : ties.renders.pairs one.render other.render := states.renders ▸ tied
    obtain ⟨marks, grow, marked, alike⟩ := states.alike.data.registers
      (Data.subscribe_registers _ (.path ⟨one.render, owner, root, slot, rest⟩) here)
      (Data.subscribe_registers _ (.path ⟨other.render, owner, root, slot, rest⟩) there) rfl
      (.path render owner root slot rest)
    exact ⟨_, Ties.le_withMarks grow, marked, states.alike.withData alike, states.next,
      states.renders, states.client, states.twin⟩
  observeChanges {ties before after} states {collection} inside first second same _ := by
    have here : collection.index < before.data.collections.next :=
      states.alike.data.collections ▸ inside
    have there : collection.index < after.data.collections.next :=
      states.alike.data.agrees.collections ▸ here
    obtain ⟨marks, grow, marked, alike⟩ := states.alike.data.registers
      (Data.subscribeChanges_registers first here) (Data.subscribeChanges_registers second there) rfl
      same
    exact ⟨_, Ties.le_withMarks grow, marked, states.alike.withData alike, states.next,
      states.renders, states.client, states.twin⟩
  create states := by
    obtain ⟨later, hires, linked, alike⟩ := states.alike.controllers.create .inert rfl
    exact ⟨later, hires.le, linked, states.alike.withControllers hires alike, states.next,
      hires.renders.trans states.renders, states.client, states.twin⟩
  call {ties before after} states {upper above} linked factory := by
    obtain ⟨later, hires, fresh, alike⟩ :=
      states.alike.controllers.create (.actions (supply factory before.client) none) rfl
    have given : supply factory after.client = supply factory before.client := by
      rw [states.client, states.twin, equal]
    rw [supplies.given_eq, too.given_eq, supplies.called_eq, too.called_eq, given]
    refine ⟨later, hires.le, fresh, ⟨states.alike.withControllers hires alike, states.next,
      hires.renders.trans states.renders, states.client, states.twin⟩, ?_⟩
    intro last early late grow states' model first second _
    refine ⟨states'.alike.told (states'.alike.controllers.attach (grow.controllers.1 _ _ fresh)
      ?_ ?_ ?_), states'.next, states'.renders, states'.client, states'.twin⟩
    · exact .some ((hires.le.trans grow).controllers.1 _ _ linked)
    · rintro _ ⟨⟩
      exact states.alike.controllers.among.first linked
    · rintro _ ⟨⟩
      exact states.alike.controllers.among.second linked

/-- A building for a hidden render goes abreast with itself. -/
def alone (supplies : one.Supplies supply) {renders : Tie RenderId}
    (hidden : renders.lone one.render) (still : BuildState Client) (client : Client) :
    one.Abreast Ties one where
  links := Ties.unseen
  monotone := Ties.monotone_unseen
  states := Alone renders still client
  config := rfl
  registry := rfl
  agrees states := states.same ▸ Data.Agrees.refl _
  sound states := states.alike.data.sound
  models states := states.alike.data.models
  collections states := states.alike.data.collections
  render states := ⟨rfl, states.renders ▸ hidden⟩
  bound states := by
    obtain ⟨rfl, alike, renders, client⟩ := states
    exact ⟨rfl, rfl, ⟨alike.data, alike.controllers, alike.nodes⟩, renders, client⟩
  node states := by
    obtain ⟨rfl, alike, renders, client⟩ := states
    obtain ⟨nodes, grow, lone, alike⟩ := alike.takes_first
    exact ⟨_, Ties.le_withNodes grow, ⟨rfl, lone⟩, rfl, alike, renders, client⟩
  observe {_ _ _} states {model} inside property owner root slot rest := by
    obtain ⟨rfl, alike, renders, client⟩ := states
    have here : model.index < _ := Nat.lt_of_lt_of_eq inside alike.data.models.symm
    obtain ⟨marks, grow, lone, alike'⟩ := alike.data.registers_first
      (Data.subscribe_registers (changeChannel property)
        (.path ⟨one.render, owner, root, slot, rest⟩) here) rfl (renders.symm ▸ hidden)
    exact ⟨_, Ties.le_withMarks grow, ⟨rfl, lone⟩, rfl, alike.withData alike', renders, client⟩
  observeChanges {_ _ _} states {collection} inside first second same own := by
    obtain ⟨rfl, alike, renders, client⟩ := states
    obtain ⟨owner, owned⟩ := own
    obtain rfl : first = second := by
      cases same with
      | clientChanges hook => rfl
      | rebuild render content directive => rw [render.1]
      | splice render list => rw [render.1]
    have here : collection.index < _ := Nat.lt_of_lt_of_eq inside alike.data.collections.symm
    obtain ⟨marks, grow, lone, alike'⟩ := alike.data.registers_first
      (Data.subscribeChanges_registers first here) owned (renders.symm ▸ hidden)
    exact ⟨_, Ties.le_withMarks grow, ⟨rfl, lone⟩, rfl, alike.withData alike', renders, client⟩
  create states := by
    obtain ⟨rfl, alike, renders, client⟩ := states
    obtain ⟨later, hires, lone, _, alike'⟩ := alike.controllers.create_first .inert
    exact ⟨later, hires.le, ⟨rfl, lone⟩, rfl, alike.withControllers hires alike',
      hires.renders.trans renders, client⟩
  call {ties before after} states {upper above} linked factory := by
    obtain ⟨rfl, alike, renders, client⟩ := states
    obtain ⟨rfl, _⟩ := linked
    obtain ⟨later, hires, lone, unknown, alike'⟩ :=
      alike.controllers.create_first (.actions (supply factory after.client) none)
    rw [supplies.given_eq, supplies.called_eq]
    refine ⟨later, hires.le, ⟨rfl, lone⟩, ⟨rfl, alike.withControllers hires alike',
      hires.renders.trans renders, client⟩, ?_⟩
    intro last early late grow states' model first second same
    obtain ⟨rfl, alike, renders, client⟩ := states'
    obtain ⟨rfl, _⟩ := same
    exact ⟨rfl, alike.told (alike.controllers.attach_first (grow.controllers.2 _ lone)
      (.inr (grow.roots.2 _ unknown))), renders, client⟩

end Site

end LiveTemplate
