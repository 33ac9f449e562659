import LiveTemplate.Proofs.Apart.Changes
import LiveTemplate.Proofs.Apart.Effects

/-!
# Announcements in both worlds

What is announced in both worlds goes to the same observers in the same order, apart from those of
hidden renders, which only the first world has.  Since these leave no trace, the client is told the same
in both.
-/

namespace LiveTemplate

/-- Events that are the same but for names. -/
structure Event.Matches (ties : Ties) (first second : Event) : Prop where
  name : first.name = second.name
  target : ties.nodes.pairs first.target second.target
  current : ties.nodes.pairs first.current second.current
  detail : first.detail = second.detail
  prevented : first.prevented = second.prevented
  stopped : first.stopped = second.stopped

theorem removal?_refersIn (data : Data) {items : List Value} {index : Nat} {change : Change}
    (made : removal? items index = some change) : data.RefersIn change := by
  obtain ⟨item, _, rfl⟩ := Option.map_eq_some_iff.1 made
  trivial

/-- What a change puts in has been handed over. -/
theorem Mutation.refersIn {data : Data} {mutation : Mutation}
    (refers : ∀ item ∈ mutation.handed, data.Refers item) {items : List Value} {change : Change}
    (made : mutation.change? items = some change) : data.RefersIn change := by
  cases mutation with
  | insert index item =>
      cases made
      exact refers item List.mem_cons_self
  | push item =>
      cases made
      exact refers item List.mem_cons_self
  | remove item =>
      obtain ⟨index, _, made⟩ := Option.bind_eq_some_iff.1 made
      exact removal?_refersIn data made
  | removeAt index => exact removal?_refersIn data made
  | update index item =>
      obtain ⟨_, made⟩ := Option.ite_none_right_eq_some.1 made
      cases made
      exact refers item List.mem_cons_self
  | replace items =>
      cases made
      exact refers

variable {hidden own : String → Bool} {ties later : Ties} {first second : World Journal}

theorem Event.Matches.mono {one other : Event} (alike : one.Matches ties other)
    (grow : ties ≤ later) : one.Matches later other :=
  { alike with
    target := grow.nodes.1 _ _ alike.target
    current := grow.nodes.1 _ _ alike.current }

namespace World

/-- The worlds go on to match. -/
def Meet (hidden own : String → Bool) (ties : Ties) (first second : World Journal) : Prop :=
  ∃ later, ties ≤ later ∧ World.Matches hidden own later first second

/-- The worlds go on to match, and so does what comes out. -/
def MeetWith {Result : Type} (hidden own : String → Bool) (results : Ties → Result → Result → Prop)
    (ties : Ties) (first second : Result × World Journal) : Prop :=
  ∃ later, ties ≤ later ∧ results later first.1 second.1 ∧
    World.Matches hidden own later first.2 second.2

theorem Meet.of (all : World.Matches hidden own ties first second) :
    Meet hidden own ties first second :=
  ⟨ties, le_rfl, all⟩

theorem Meet.le (meet : Meet hidden own later first second) (grow : ties ≤ later) :
    Meet hidden own ties first second := by
  obtain ⟨last, early, all⟩ := meet
  exact ⟨last, grow.trans early, all⟩

end World

/-- What the client does when it is told something in one world, it does in the other. -/
structure Behaviour.Fellows (hidden own : String → Bool) (supply : Hook → List Entry → List (String × Hook))
    (behaviour also : Behaviour Journal) : Prop where
  supplies : behaviour.Supplies supply
  too : also.Supplies supply
  keeps : ∀ {ties first second}, World.Matches hidden own ties first second →
    List.Forall₂ ties.Engages (behaviour.keeps first) (also.keeps second)
  value : ∀ {ties first second}, World.Matches hidden own ties first second → ∀ hook value,
    World.Meet hidden own ties (behaviour.value hook value first) (also.value hook value second)
  change : ∀ {ties first second}, World.Matches hidden own ties first second → ∀ hook change,
    World.Meet hidden own ties (behaviour.change hook change first) (also.change hook change second)
  listen : ∀ {ties first second}, World.Matches hidden own ties first second →
    ∀ {event other : Event}, event.Matches ties other → ∀ hook,
      World.MeetWith hidden own Event.Matches ties (behaviour.listen hook event first)
        (also.listen hook other second)
  act : ∀ {ties first second}, World.Matches hidden own ties first second →
    ∀ {event other : Event}, event.Matches ties other → ∀ hook model,
      World.MeetWith hidden own Event.Matches ties (behaviour.act hook event model first)
        (also.act hook other model second)

namespace World

variable {supply : Hook → List Entry → List (String × Hook)} {behaviour also : Behaviour Journal} {news : News}

/-! ## Observers -/

theorem Matches.receive (all : World.Matches hidden own ties first second)
    (fellows : behaviour.Fellows hidden own supply also) (refers : news.Refers first.data)
    {observer twin : Observer} (same : observer.Matches ties.seen twin) :
    Meet hidden own ties (first.receive behaviour news observer) (second.receive also news twin) := by
  have reacts : ∀ {id other : RenderId}, ties.renders.pairs id other →
      Observer.Serves id other observer twin →
        Meet hidden own ties (first.receive behaviour news observer)
          (second.receive also news twin) := by
    intro id other tied serves
    have states : (together hidden own fellows.supplies fellows.too id other).states ties first
        second := ⟨all, tied⟩
    obtain ⟨later, grow, all, _⟩ := Abreast.receive states refers serves
    exact ⟨later, grow, all⟩
  cases same with
  | client hook =>
      cases news with
      | value model property value => exact fellows.value all hook value
      | change collection change => exact .of all
  | clientChanges hook =>
      cases news with
      | value model property value => exact .of all
      | change collection change => exact fellows.change all hook change
  | path tied owner root slot rest => exact reacts tied (.path owner root slot rest)
  | rebuild tied content directive => exact reacts tied (.rebuild content directive)
  | splice tied list => exact reacts tied (.splice list)

/-- Nothing that both worlds have changes when a hidden render is told something. -/
theorem Matches.receive_first (all : World.Matches hidden own ties first second)
    (supplies : behaviour.Supplies supply) (refers : news.Refers first.data) {observer : Observer}
    {id : RenderId} {owner : BoundId} (owned : observer.owner? = some (id, owner))
    (lone : ties.renders.lone id) :
    Meet hidden own ties (first.receive behaviour news observer) second := by
  have serves : Observer.Serves id id observer observer := by
    cases observer with
    | value observer =>
        cases observer with
        | client hook => cases owned
        | path observer =>
            obtain ⟨_, _, root, slot, rest⟩ := observer
            cases owned
            exact .path _ root slot rest
    | change observer =>
        cases observer with
        | client hook => cases owned
        | rebuild render content directive =>
            cases owned
            exact .rebuild _ directive
        | splice render list =>
            cases owned
            exact .splice _
  have states : (alone hidden own supplies id second).states ties first first := ⟨rfl, all, lone⟩
  obtain ⟨later, grow, _, all, _⟩ := Abreast.receive states refers serves
  exact ⟨later, grow, all⟩

/-! ## Announcements -/

theorem Matches.refers (all : World.Matches hidden own ties first second) {news : News}
    (refers : news.Refers first.data) (grow : ties ≤ later) {after rest : World Journal}
    (matching : World.Matches hidden own later after rest) : news.Refers after.data :=
  refers.mono (all.data.models.le.trans (grow.models.trans matching.data.models.ge))
    (all.data.collections.le.trans (grow.collections.trans matching.data.collections.ge))

/-- Whoever is still registered in both worlds is told in both.  In between, hidden renders are. -/
theorem Matches.announce (fellows : behaviour.Fellows hidden own supply also)
    {entries others : Notices} (sifts : Sifts ties.Skips ties.Shares entries others)
    (all : World.Matches hidden own ties first second) (refers : news.Refers first.data) :
    Meet hidden own ties (World.announce behaviour news entries first)
      (World.announce also news others second) := by
  suffices any : ∀ later, ties ≤ later → ∀ first second : World Journal,
      World.Matches hidden own later first second → news.Refers first.data →
        Meet hidden own later (World.announce behaviour news entries first)
          (World.announce also news others second) from any ties le_rfl first second all refers
  clear all refers
  induction sifts with
  | nil => exact fun later grow first second all refers => .of all
  | @pass entry entries others skips _ induction =>
      intro later grow first second all refers
      obtain ⟨mark, observer⟩ := entry
      obtain ⟨_, id, owner, owned, lone⟩ := skips
      rw [World.announce]
      split
      · obtain ⟨last, early, told⟩ :=
          all.receive_first fellows.supplies refers owned (grow.renders.2 _ lone)
        exact (induction last (grow.trans early) _ _ told (all.refers refers early told)).le early
      · exact induction later grow first second all refers
  | @keep entry other entries others shares _ induction =>
      intro later grow first second all refers
      obtain ⟨mark, observer⟩ := entry
      obtain ⟨twin, partner⟩ := other
      have held : first.data.isHeld mark = second.data.isHeld twin := by
        rw [Bool.eq_iff_iff, Data.isHeld_iff, Data.isHeld_iff]
        exact all.data.holds_iff (grow.marks.1 _ _ shares.1)
      rw [World.announce, World.announce, ← held]
      split
      · obtain ⟨last, early, told⟩ :=
          all.receive fellows refers (shares.2.mono (Ties.monotone_seen grow))
        exact (induction last (grow.trans early) _ _ told (all.refers refers early told)).le early
      · exact induction later grow first second all refers

/-! ## Changes -/

/-- Registrations, models and collections have come. -/
theorem Matches.gather (all : World.Matches hidden own ties first second)
    (gathers : ties.Gathers later) {data other : Data} (alike : Data.Matches later data other) :
    World.Matches hidden own later { first with data } { second with data := other } where
  data := alike
  controllers := all.controllers.of_eq gathers.controllers gathers.roots
  documents := { all.documents with
    shared := ⟨all.documents.shared.page_mono gathers.le,
      gathers.nodes ▸ all.documents.shared.among⟩ }
  renders := all.renders.mono gathers.le gathers.renders
  registries := all.registries
  engaged := all.engaged.imp fun _ _ engages => engages.mono gathers.le
  client := all.client.mono gathers.le

/-- A value is set in both worlds, or in neither. -/
theorem Matches.set (all : World.Matches hidden own ties first second)
    (fellows : behaviour.Fellows hidden own supply also) (model : ModelId) (property : String)
    {value : Value} (refers : first.data.Refers value) :
    (∃ after rest, first.set behaviour model property value = .ok after ∧
      second.set also model property value = .ok rest ∧ Meet hidden own ties after rest) ∨
    ∃ error, first.set behaviour model property value = .error error ∧
      second.set also model property value = .error error := by
  rw [set_eq, set_eq]
  rcases all.data.agrees.put model property value with
    ⟨data, other, stored, too, agrees⟩ | ⟨error, refused, too⟩
  · obtain ⟨later, gathers, alike⟩ := all.data.put refers stored too agrees
    have ready := all.gather gathers alike
    have there : News.Refers (.value model property value) first.data := refers
    rw [stored, too]
    exact .inl ⟨_, _, rfl, rfl, (Matches.announce fellows (alike.registrations _) ready
      (all.refers there gathers.le ready)).le gathers.le⟩
  · rw [refused, too]
    exact .inr ⟨error, rfl, rfl⟩

/-- A collection is changed in both worlds, or in neither. -/
theorem Matches.mutate (all : World.Matches hidden own ties first second)
    (fellows : behaviour.Fellows hidden own supply also) (collection : CollectionId)
    {mutation : Mutation} (refers : ∀ item ∈ mutation.handed, first.data.Refers item) :
    MeetWith hidden own (fun _ => Eq) ties (first.mutate behaviour collection mutation)
      (second.mutate also collection mutation) := by
  rw [World.mutate, World.mutate, all.data.agrees.collection_items]
  cases made : mutation.change? (first.data.collection collection).items with
  | none => exact ⟨ties, le_rfl, rfl, all⟩
  | some change =>
      have there : News.Refers (.change collection change) first.data := Mutation.refersIn refers made
      obtain ⟨later, gathers, alike⟩ := all.data.apply there collection
      have ready := all.gather gathers alike
      dsimp only
      rw [change_eq behaviour first collection change rfl, change_eq also second collection change rfl]
      obtain ⟨last, grow, after⟩ := Matches.announce fellows (alike.registrations _) ready
        (all.refers there gathers.le ready)
      exact ⟨last, gathers.le.trans grow, rfl, after⟩

end World

end LiveTemplate
