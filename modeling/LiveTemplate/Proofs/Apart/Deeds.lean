import LiveTemplate.Proofs.Apart.Views

/-!
# What a client does in both worlds

A deed that concerns no hidden render is done in both worlds and comes to the same.  One that creates a
hidden render or takes it down is done in the first world only and leaves no trace in the second.
-/

namespace LiveTemplate

variable {hidden own : String → Bool} {ties later : Ties} {first second : World Journal}
  {supply : Hook → List Entry → List (String × Hook)} {behaviour also : Behaviour Journal}

/-- A controller that the client made is held on to in both worlds. -/
theorem Ties.Holds.engages {name : String} {one other : ControllerId}
    (holds : ties.Holds own name one other) : ties.Engages one other := by
  unfold Ties.Holds at holds
  split at holds
  · exact .inr holds
  · exact .inl holds

theorem Event.Matches.fired (name : String) {node twin : NodeId} (tied : ties.nodes.pairs node twin)
    (detail : Value) :
    Event.Matches ties { Event.fired name node with detail } { Event.fired name twin with detail } :=
  ⟨rfl, tied, tied, rfl, rfl, rfl⟩

/-! ## Keeping names -/

namespace Journal.Matches

variable {journal twin : Journal} (all : Journal.Matches hidden own ties journal twin)

include all

theorem note (entry : Entry) :
    Journal.Matches hidden own ties { journal with log := journal.log ++ [entry] }
      { twin with log := twin.log ++ [entry] } :=
  { all with log := congrArg (· ++ [entry]) all.log }

theorem keepNode (name : String) {node other : NodeId} (tied : ties.nodes.pairs node other) :
    Journal.Matches hidden own ties { journal with nodes := Pairs.set journal.nodes name node }
      { twin with nodes := Pairs.set twin.nodes name other } :=
  { all with nodes := named_set all.nodes tied }

theorem keepRegistration (name : String) {mark other : Subscription}
    (tied : ties.marks.pairs mark other) :
    Journal.Matches hidden own ties
      { journal with registrations := Pairs.set journal.registrations name mark }
      { twin with registrations := Pairs.set twin.registrations name other } :=
  { all with registrations := named_set all.registrations tied }

theorem keepController (name : String) {id other : ControllerId}
    (holds : ties.Holds own name id other) :
    Journal.Matches hidden own ties
      { journal with controllers := Pairs.set journal.controllers name id }
      { twin with controllers := Pairs.set twin.controllers name other } :=
  { all with controllers := named_set all.controllers holds }

theorem dropController (name : String) :
    Journal.Matches hidden own ties
      { journal with controllers := Pairs.erase journal.controllers name }
      { twin with controllers := Pairs.erase twin.controllers name } :=
  { all with controllers := named_erase all.controllers name }

/-- What comes of mounting is kept. -/
theorem keepFailure {name : String} (failure : Option RenderError) :
    Journal.Matches hidden own ties
      { journal with failures := Pairs.set journal.failures name failure }
      { twin with failures := Pairs.set twin.failures name failure } := by
  refine { all with failures := fun another shows => ?_ }
  rw [Pairs.lookup_set, Pairs.lookup_set, all.failures another shows]

theorem keepFailure_first {name : String} (hides : hidden name = true)
    (failure : Option RenderError) :
    Journal.Matches hidden own ties
      { journal with failures := Pairs.set journal.failures name failure } twin := by
  refine { all with failures := fun another shows => ?_ }
  rw [Pairs.lookup_set, if_neg]
  · exact all.failures another shows
  · rintro rfl
    rw [hides] at shows
    cases shows

theorem keepRender {name : String} (seen : hidden name = false) {id other : RenderId}
    (tied : ties.renders.pairs id other) :
    Journal.Matches hidden own ties { journal with renders := Pairs.set journal.renders name id }
      { twin with renders := Pairs.set twin.renders name other } := by
  refine { all with shown := fun another shows => ?_, unseen := fun another hides one found => ?_ }
  · rw [Pairs.lookup_set, Pairs.lookup_set]
    split
    · exact .some tied
    · exact all.shown another shows
  · rw [Pairs.lookup_set, if_neg] at found
    · exact all.unseen another hides one found
    · rintro rfl
      rw [seen] at hides
      cases hides

theorem keepRender_first {name : String} (hides : hidden name = true) {id : RenderId}
    (lone : ties.renders.lone id) :
    Journal.Matches hidden own ties { journal with renders := Pairs.set journal.renders name id }
      twin := by
  refine { all with
    shown := fun another shows => ?_
    unseen := fun another concealed one found => ?_ }
  · rw [Pairs.lookup_set, if_neg]
    · exact all.shown another shows
    · rintro rfl
      rw [hides] at shows
      cases shows
  · rw [Pairs.lookup_set] at found
    split at found
    · cases found
      exact lone
    · exact all.unseen another concealed one found

end Journal.Matches

namespace World

variable (all : World.Matches hidden own ties first second)

include all

theorem Matches.withClient {journal twin : Journal}
    (client : Journal.Matches hidden own ties journal twin) :
    World.Matches hidden own ties { first with client := journal } { second with client := twin } :=
  { all with client }

theorem Matches.withClient_first {journal : Journal}
    (client : Journal.Matches hidden own ties journal second.client) :
    World.Matches hidden own ties { first with client := journal } second :=
  { all with client }

/-- An event has gone the same way in both worlds. -/
theorem Matches.noteEvent (handled : Bool) {event twin : Event} (alike : event.Matches ties twin) :
    World.Matches hidden own ties (first.noteEvent handled event) (second.noteEvent handled twin) := by
  rw [World.noteEvent, World.noteEvent, alike.prevented, alike.stopped]
  exact all.withClient (all.client.note _)

/-! ## Documents -/

/-- The document changes around a node that the client points at. -/
theorem Matches.editAt {spot : Spot} (spares : spot.Spares hidden)
    {change mate : NodeId → Document → Document}
    (edits : ∀ node twin document partner, ties.nodes.pairs node twin →
      Document.Matches ties document partner →
        Document.Matches ties (change node document) (mate twin partner)) :
    World.Matches hidden own ties (first.editAt spot change) (second.editAt spot mate) := by
  rw [World.editAt, World.editAt]
  rcases some_or_none (all.spot? spot spares) with ⟨_, _, one, other, tied⟩ | ⟨one, other⟩
  · rw [one, other]
    exact all.modifyDocument _ _ (edits _ _ _ _ tied all.documents.shared)
  · rw [one, other]
    exact all

/-- A node is created in both worlds. -/
theorem Matches.create (name : String) (kind : NodeKind) (behaviour also : Behaviour Journal) :
    Meet hidden own ties (first.enact behaviour (.create name kind))
      (second.enact also (.create name kind)) := by
  have documents := all.documents.shared
  have new := (shared first.documents).places.not_issued_next
  have free := (shared second.documents).places.not_issued_next
  have grow := Ties.le_withNodes (Tie.le_couple documents.among new free)
  have linked := Tie.couple_pairs documents.among new free
  refine ⟨_, grow, ?_⟩
  constructor
  · exact all.data.mono grow rfl rfl rfl
  · exact all.controllers.of_eq rfl rfl
  · refine all.documents.edit ⟨(documents.page_mono grow).append
      (.keep linked (.of_kind _ kind) .nil .nil), ?_⟩
    refine documents.among.couple new free (fun node issued => ?_) (fun node issued => ?_) ?_ ?_
    · exact (Places.issued_take_iff _ _).2 (.inl issued)
    · exact (Places.issued_take_iff _ _).2 (.inl issued)
    · exact (Places.issued_take_iff _ _).2 (.inr rfl)
    · exact (Places.issued_take_iff _ _).2 (.inr rfl)
  · exact all.renders.mono grow rfl
  · exact all.registries
  · exact all.engaged.imp fun _ _ engages => engages.mono grow
  · exact (all.client.mono grow).keepNode name linked

/-! ## Models and collections -/

/-- Something is added to the data. -/
theorem Matches.adds {data other : Data}
    (adds : ∃ later, ties.Gathers later ∧ Data.Matches later data other) :
    Meet hidden own ties { first with data } { second with data := other } := by
  obtain ⟨later, gathers, alike⟩ := adds
  exact ⟨later, gathers.le, all.gather gathers alike⟩

/-- The client registers under a name. -/
theorem Matches.registers (name : String) {mark twin : Subscription} {data other : Data}
    (registers : ∃ later, ties.Gathers later ∧ later.marks.pairs mark twin ∧
      Data.Matches later data other) :
    Meet hidden own ties ({ first with data }.keepRegistration name mark)
      ({ second with data := other }.keepRegistration name twin) := by
  obtain ⟨later, gathers, tied, alike⟩ := registers
  have ready := all.gather gathers alike
  exact ⟨later, gathers.le, ready.withClient (ready.client.keepRegistration name tied)⟩

/-- A controller comes under a name. -/
theorem Matches.addController (name : String) {controller : Controller}
    (plain : controller.parent? = none) :
    Meet hidden own ties
      ((first.createController controller).2.keepController name (first.createController controller).1)
      ((second.createController controller).2.keepController name
        (second.createController controller).1) := by
  cases kind : own name with
  | false =>
      obtain ⟨later, hires, tied, alike⟩ := all.controllers.create controller plain
      have ready := all.hire hires alike
      refine ⟨later, hires.le, ready.withClient (ready.client.keepController name ?_)⟩
      rw [Ties.Holds, kind]
      exact tied
  | true =>
      obtain ⟨later, hires, root, alike⟩ := all.controllers.create_root controller plain
      have ready := all.hire hires alike
      refine ⟨later, hires.le, ready.withClient (ready.client.keepController name ?_)⟩
      rw [Ties.Holds, kind]
      exact root

/-- A registry is added or changed. -/
theorem Matches.withRegistries (change : Store Registry → Store Registry) :
    World.Matches hidden own ties { first with registries := change first.registries }
      { second with registries := change second.registries } :=
  { all with registries := congrArg change all.registries }

/-! ## Renders -/

theorem Matches.keepRender {name : String} (seen : hidden name = false)
    {outcome other : Except RenderError RenderId} (mounts : Mounts ties outcome other) :
    World.Matches hidden own ties (first.keepRender name outcome) (second.keepRender name other) := by
  cases mounts with
  | ok tied => exact all.withClient ((all.client.keepRender seen tied).keepFailure none)
  | error error => exact all.withClient (all.client.keepFailure (some error))

theorem Matches.keepRender_first {name : String} (hides : hidden name = true)
    {outcome : Except RenderError RenderId} (secludes : Secludes ties outcome) :
    World.Matches hidden own ties (first.keepRender name outcome) second := by
  cases outcome with
  | ok id =>
      exact all.withClient_first
        ((all.client.keepRender_first hides (secludes id rfl)).keepFailure_first hides none)
  | error error => exact all.withClient_first (all.client.keepFailure_first hides (some error))

/-! ## Deeds -/

/-- A deed that concerns no hidden render comes to the same in both worlds. -/
theorem Matches.enact (fellows : behaviour.Fellows hidden own supply also) {deed : Deed}
    (spares : deed.Spares hidden own) (common : deed.concerns hidden = false) :
    Meet hidden own ties (first.enact behaviour deed) (second.enact also deed) := by
  have refers : ∀ value, second.data.Refers value ↔ first.data.Refers value :=
    fun value => all.data.agrees.refers
  cases deed with
  | note answer => exact .of (all.withClient (all.client.note _))
  | addModel schema =>
      simp only [World.enact, refers]
      split
      · exact all.adds (all.data.addModel ‹_›)
      · exact .of all
  | addCollection items =>
      simp only [World.enact, refers]
      split
      · exact all.adds (all.data.addCollection ‹_›)
      · exact .of all
  | set model property value =>
      simp only [World.enact, refers]
      split
      · rcases all.set fellows model property ‹_› with
          ⟨after, rest, stored, too, later, grow, all⟩ | ⟨error, refused, too⟩
        · rw [stored, too]
          exact ⟨later, grow, all.withClient (all.client.note _)⟩
        · rw [refused, too]
          exact .of (all.withClient (all.client.note _))
      · exact .of all
  | mutate collection mutation =>
      simp only [World.enact, refers]
      split
      · obtain ⟨later, grow, same, after⟩ := all.mutate fellows collection ‹_›
        rw [same]
        exact ⟨later, grow, after.withClient (after.client.note _)⟩
      · exact .of all
  | subscribe name model channel hook =>
      simp only [World.enact, all.data.agrees.models]
      split
      · exact all.registers name (all.data.subscribe ‹_› channel hook)
      · exact .of all
  | subscribeChanges name collection hook =>
      simp only [World.enact, all.data.agrees.collections]
      split
      · exact all.registers name (all.data.subscribeChanges ‹_› hook)
      · exact .of all
  | cancel name =>
      rw [World.enact, World.enact]
      rcases some_or_none (lookup_of_named all.client.registrations name) with
        ⟨_, _, one, other, tied⟩ | ⟨one, other⟩
      · rw [one, other]
        exact .of (all.withData (all.data.cancel tied))
      · rw [one, other]
        exact .of all
  | addController name table =>
      refine all.addController name ?_
      cases table <;> rfl
  | dropController name => exact .of (all.withClient (all.client.dropController name))
  | addRegistry => exact .of (all.withRegistries (·.add {}))
  | addView registry name template => exact .of (all.withRegistries (·.modify registry.index _))
  | addFactory registry name factory => exact .of (all.withRegistries (·.modify registry.index _))
  | mount name registry config template model controller =>
      have seen : own controller = false := spares.symm.trans common
      rcases some_or_none (lookup_of_named all.client.controllers controller) with
        ⟨_, _, one, other, holds⟩ | ⟨one, other⟩
      · simp only [World.enact, one, other, all.data.agrees.models]
        split
        · rw [Ties.Holds, seen] at holds
          obtain ⟨later, grow, mounts, after⟩ :=
            all.mount fellows.supplies fellows.too registry config template ‹_› holds
          exact ⟨later, grow, after.keepRender common mounts⟩
        · exact .of all
      · rw [World.enact, World.enact, one, other]
        exact .of all
  | mountView name registry config view model =>
      simp only [World.enact, all.data.agrees.models]
      split
      · obtain ⟨later, grow, mounts, after⟩ :=
          all.mountView fellows.supplies fellows.too registry config view ‹_›
        exact ⟨later, grow, after.keepRender common mounts⟩
      · exact .of all
  | unmount name =>
      rw [World.enact, World.enact]
      rcases some_or_none (all.client.shown name common) with
        ⟨_, _, one, other, tied⟩ | ⟨one, other⟩
      · rw [one, other]
        exact .of (all.unmount tied)
      · rw [one, other]
        exact .of all
  | create name kind => exact all.create name kind behaviour also
  | append parent child =>
      rw [World.enact, World.enact]
      rcases some_or_none (all.spot? parent spares.1) with ⟨_, _, one, other, tied⟩ | ⟨one, other⟩
      · rw [one, other]
        exact .of (all.editAt spares.2 fun _ _ _ _ linked same => same.appendChild linked tied)
      · rw [one, other]
        exact .of all
  | insertAfter reference node =>
      rw [World.enact, World.enact]
      rcases some_or_none (all.spot? reference spares.1) with
        ⟨_, _, one, other, tied⟩ | ⟨one, other⟩
      · rw [one, other]
        exact .of (all.editAt spares.2 fun _ _ _ _ linked same => same.insertAfter linked tied)
      · rw [one, other]
        exact .of all
  | detach spot => exact .of (all.editAt spares fun _ _ _ _ linked same => same.detach linked)
  | remove spot => exact .of (all.editAt spares fun _ _ _ _ linked same => same.remove linked)
  | edit spot edit =>
      refine .of (all.editAt spares fun _ _ _ _ linked same => same.modify linked fun _ _ data => ?_)
      cases edit with
      | «attribute» name value => exact data.setAttribute name value
      | style name value => exact data.setStyle name value
      | text content => exact data.setText content
      | listen event hook => exact data.listen event (.client hook)
  | dispatch spot event detail =>
      rw [World.enact, World.enact]
      rcases some_or_none (all.spot? spot spares) with ⟨_, _, one, other, tied⟩ | ⟨one, other⟩
      · rw [one, other]
        obtain ⟨later, grow, alike, after⟩ := all.dispatch fellows (.fired event tied detail)
        exact ⟨later, grow, after.noteEvent true alike⟩
      · rw [one, other]
        exact .of all
  | handle controller action spot event detail model =>
      rw [World.enact, World.enact]
      rcases some_or_none (lookup_of_named all.client.controllers controller) with
        ⟨_, _, holder, keeper, holds⟩ | ⟨holder, keeper⟩
      · rcases some_or_none (all.spot? spot spares) with ⟨_, _, one, other, tied⟩ | ⟨one, other⟩
        · rw [holder, keeper, one, other]
          obtain ⟨later, grow, ⟨handled, alike⟩, after⟩ :=
            all.handle fellows holds.engages action (.fired event tied detail) model
          dsimp only
          rw [handled]
          exact ⟨later, grow, after.noteEvent _ alike⟩
        · rw [holder, keeper, one, other]
          exact .of all
      · rw [holder, keeper]
        exact .of all

/-- A deed that creates a hidden render or takes it down leaves no trace in the second world. -/
theorem Matches.enact_first (supplies : behaviour.Supplies supply) {deed : Deed}
    (spares : deed.Spares hidden own) (concerns : deed.concerns hidden = true) :
    Meet hidden own ties (first.enact behaviour deed) second := by
  cases deed with
  | mount name registry config template model controller =>
      have hides : own controller = true := spares.symm.trans concerns
      rw [World.enact]
      rcases some_or_none (lookup_of_named all.client.controllers controller) with
        ⟨_, _, one, _, holds⟩ | ⟨one, _⟩
      · rw [one]
        dsimp only
        split
        · rw [Ties.Holds, hides] at holds
          obtain ⟨later, grow, secludes, after⟩ :=
            all.mount_first supplies registry config template ‹_› (ties.concealed holds)
          exact ⟨later, grow, after.keepRender_first concerns secludes⟩
        · exact .of all
      · rw [one]
        exact .of all
  | mountView name registry config view model =>
      rw [World.enact]
      split
      · obtain ⟨later, grow, secludes, after⟩ :=
          all.mountView_first supplies registry config view ‹_›
        exact ⟨later, grow, after.keepRender_first concerns secludes⟩
      · exact .of all
  | unmount name =>
      rw [World.enact]
      cases found : first.client.renders.lookup name with
      | none => exact .of all
      | some id => exact .of (all.unmount_first (all.client.unseen name concerns id found))
  | _ => cases concerns

end World

end LiveTemplate
