import LiveTemplate.Proofs.Apart.Reactions
import LiveTemplate.Proofs.Apart.Selfsame

/-!
# What a reaction leaves behind

Whatever is done to the components of two worlds that match is done to the worlds.  So a render that is
there in both reacts side by side, and a hidden one reacts in the first world while the second rests.
-/

namespace LiveTemplate

variable {hidden own : String → Bool} {ties later : Ties}

/-! ## Ties that grow -/

theorem Ties.Holds.mono {name : String} {one other : ControllerId}
    (holds : ties.Holds own name one other) (grow : ties ≤ later) :
    later.Holds own name one other := by
  unfold Ties.Holds at holds ⊢
  split
  · rename_i named
    rw [if_pos named] at holds
    exact grow.roots.1 _ _ holds
  · rename_i named
    rw [if_neg named] at holds
    exact grow.controllers.1 _ _ holds

theorem Ties.Engages.mono {one other : ControllerId} (engages : ties.Engages one other)
    (grow : ties ≤ later) : later.Engages one other :=
  engages.imp (grow.controllers.1 _ _) (grow.roots.1 _ _)

theorem Journal.Matches.mono {first second : Journal}
    (all : Journal.Matches hidden own ties first second) (grow : ties ≤ later) :
    Journal.Matches hidden own later first second where
  log := all.log
  course := all.course
  registrations := all.registrations.imp fun _ _ => And.imp_right (grow.marks.1 _ _)
  controllers := all.controllers.imp fun _ _ => And.imp_right (Ties.Holds.mono · grow)
  nodes := all.nodes.imp fun _ _ => And.imp_right (grow.nodes.1 _ _)
  failures := all.failures
  shown name seen := Option.Rel.imp (all.shown name seen) grow.renders.1
  unseen name known id found := grow.renders.2 _ (all.unseen name known id found)

/-! ## Renders -/

theorem Render.Shown.withTree {render twin : Render} (shown : render.Shown ties twin)
    {tree other : BoundTree Part} (next : tree.next = other.next)
    (nodes : Bindings.Matches ties.seen tree.nodes other.nodes) :
    Render.Shown ties { render with tree } { twin with tree := other } where
  alike := { shown.alike with next, nodes }
  document := shown.document
  node := shown.node

theorem Render.Hidden.withTree {render : Render} (unseen : render.Hidden ties)
    {tree : BoundTree Part} (nodes : Bindings.Matches ties.unseen tree.nodes tree.nodes) :
    Render.Hidden ties { render with tree } where
  alike := { unseen.alike with next := rfl, nodes }
  document := unseen.document

namespace World.Matches

variable {first second : World Journal}

/-! ## One component changes -/

theorem withData (all : World.Matches hidden own ties first second) {data other : Data}
    (alike : Data.Matches ties data other) :
    World.Matches hidden own ties { first with data } { second with data := other } :=
  { all with data := alike }

theorem withData_first (all : World.Matches hidden own ties first second) {data : Data}
    (alike : Data.Matches ties data second.data) :
    World.Matches hidden own ties { first with data } second :=
  { all with data := alike }

theorem modifyDocument (all : World.Matches hidden own ties first second)
    (change also : Document → Document)
    (edited : (change (first.document place)).Matches ties (also (second.document place))) :
    World.Matches hidden own ties (first.modifyDocument place change)
      (second.modifyDocument place also) :=
  { all with documents := all.documents.edit edited }

theorem modifyDocument_first (all : World.Matches hidden own ties first second)
    (change : Document → Document)
    (edited : (change (first.document place)).Matches ties (second.document place)) :
    World.Matches hidden own ties (first.modifyDocument place change) second :=
  { all with documents := all.documents.edit_first edited }

theorem modifyRender (all : World.Matches hidden own ties first second) {one other : RenderId}
    (tied : ties.renders.pairs one other) {change also : Render → Render}
    (changes : ∀ render twin, render.Shown ties twin → (change render).Shown ties (also twin)) :
    World.Matches hidden own ties (first.modifyRender one change)
      (second.modifyRender other also) :=
  { all with renders := all.renders.modify tied changes }

theorem modifyRender_first (all : World.Matches hidden own ties first second) {one : RenderId}
    (lone : ties.renders.lone one) {change : Render → Render}
    (changes : ∀ render, render.Hidden ties → (change render).Hidden ties) :
    World.Matches hidden own ties (first.modifyRender one change) second :=
  { all with renders := all.renders.modify_first lone changes }

/-- The bound nodes of a render are numbered on. -/
theorem numbered (all : World.Matches hidden own ties first second) {one other : RenderId}
    (tied : ties.renders.pairs one other) {next also : Nat} (same : next = also) :
    World.Matches hidden own ties (first.modifyTree one fun tree => { tree with next })
      (second.modifyTree other fun tree => { tree with next := also }) :=
  all.modifyRender tied fun _ _ shown => shown.withTree same shown.alike.nodes

theorem numbered_first (all : World.Matches hidden own ties first second) {one : RenderId}
    (lone : ties.renders.lone one) (next : Nat) :
    World.Matches hidden own ties (first.modifyTree one fun tree => { tree with next }) second :=
  all.modifyRender_first lone fun _ unseen => unseen.withTree unseen.alike.nodes

theorem registry_eq (all : World.Matches hidden own ties first second) (id : RegistryId) :
    first.registry id = second.registry id := by
  rw [World.registry, World.registry, all.registries]

theorem withFailures (all : World.Matches hidden own ties first second)
    (failures others : List (RenderId × RenderError)) :
    World.Matches hidden own ties { first with failures } { second with failures := others } :=
  { all with }

/-! ## Something is built -/

/-- What building starts from matches. -/
theorem buildState (all : World.Matches hidden own ties first second) {render twin : Render}
    (document : render.document = place) (also : twin.document = place) :
    BuildState.Matches ties (first.buildState render) (second.buildState twin) where
  data := all.data
  controllers := all.controllers
  nodes := by
    rw [World.buildState, World.buildState, document, also]
    exact all.documents.shared.among

/-- What building has changed is put back. -/
theorem withBuilt (all : World.Matches hidden own ties first second) (grow : ties ≤ later)
    (renders : later.renders = ties.renders) {state other : BuildState Journal}
    (alike : BuildState.Matches later state other) (client : state.client = first.client)
    (also : other.client = second.client) :
    World.Matches hidden own later
      ({ first with
          data := state.data
          controllers := state.controllers
          client := state.client }.modifyDocument place
        fun document => { document with places := state.places })
      ({ second with
          data := other.data
          controllers := other.controllers
          client := other.client }.modifyDocument place
        fun document => { document with places := other.places }) where
  data := alike.data
  controllers := alike.controllers
  documents := all.documents.edit ⟨all.documents.shared.page_mono grow, alike.nodes⟩
  renders := all.renders.mono grow renders
  registries := all.registries
  engaged := all.engaged.imp fun _ _ engages => engages.mono grow
  client := client ▸ also ▸ all.client.mono grow

theorem withBuilt_first (all : World.Matches hidden own ties first second) (grow : ties ≤ later)
    (renders : later.renders = ties.renders) {state : BuildState Journal} {render : Render}
    (document : render.document = place)
    (alike : BuildState.Matches later state (second.buildState render))
    (client : state.client = first.client) :
    World.Matches hidden own later
      ({ first with
          data := state.data
          controllers := state.controllers
          client := state.client }.modifyDocument place
        fun document => { document with places := state.places }) second where
  data := alike.data
  controllers := alike.controllers
  documents := by
    have nodes := alike.nodes
    rw [World.buildState, document] at nodes
    exact all.documents.edit_first ⟨all.documents.shared.page_mono grow, nodes⟩
  renders := all.renders.mono grow renders
  registries := all.registries
  engaged := all.engaged.imp fun _ _ engages => engages.mono grow
  client := client ▸ all.client.mono grow

end World.Matches

/-- Factories give fresh controllers, which depend on what the client has been told, and do nothing
else. -/
def Behaviour.Supplies (behaviour : Behaviour Journal)
    (supply : Hook → List Entry → List (String × Hook)) : Prop :=
  ∀ used factory controllers client, behaviour.build used factory controllers client =
    (⟨controllers.next⟩, controllers.add (.actions (supply factory client.log) none), client)

theorem Behaviour.Supplies.site {behaviour : Behaviour Journal}
    {supply : Hook → List Entry → List (String × Hook)} (supplies : behaviour.Supplies supply)
    (world : World Journal) (id : RenderId) (render : Render) :
    (world.site behaviour id render).Supplies fun factory client => supply factory client.log :=
  fun _ _ _ => supplies _ _ _ _

namespace World

variable {supply : Hook → List Entry → List (String × Hook)} {behaviour also : Behaviour Journal}
  {id other : RenderId} {first second : World Journal} {Result : Type}

section Both

/-! ## Renders of both worlds -/

/-- Something is built for renders that are there in both worlds. -/
theorem Matches.grow (all : World.Matches hidden own ties first second)
    (tied : ties.renders.pairs id other) (supplies : behaviour.Supplies supply)
    (too : also.Supplies supply) {render partner : Render}
    (alike : render.Matches ties.seen partner) (document : render.document = place)
    {steps more : Site Journal → Build Journal Result} {results : Links → Result → Result → Prop}
    (twins : ∀ (one two : Site Journal) (frame : one.Abreast Ties two), frame.links = Ties.seen →
      frame.Twins ties (steps one) (more two) results) :
    ∃ later, ties ≤ later ∧ later.renders = ties.renders ∧
      results later.seen (first.grow behaviour id render steps).1
        (second.grow also other partner more).1 ∧
      World.Matches hidden own later (first.grow behaviour id render steps).2
        (second.grow also other partner more).2 := by
  have twin : partner.document = place := alike.document ▸ document
  have registry : first.registry render.registry = second.registry partner.registry := by
    rw [all.registry_eq, alike.registry]
  let frame : (first.site behaviour id render).Abreast Ties (second.site also other partner) :=
    Site.both alike.config registry (supplies.site first id render)
      (too.site second other partner) tied fun factory => congrArg (supply factory) all.client.log
  obtain ⟨later, grow, states, related⟩ := twins _ _ frame rfl (first.buildState render)
    (second.buildState partner) ⟨all.buildState document twin, alike.next, rfl, rfl, rfl⟩
  obtain ⟨built, next, renders, client, clientAlso⟩ := states
  refine ⟨later, grow, renders, related, ?_⟩
  rw [World.grow, World.grow, document, twin]
  exact (all.withBuilt grow renders built client clientAlso).numbered (renders ▸ tied) next

variable (all : World.Matches hidden own ties first second) (tied : ties.renders.pairs id other)

include all tied

theorem Matches.rendered : ∃ render partner, first.render? id = some render ∧
    second.render? other = some partner ∧ render.Shown ties partner :=
  all.renders.shown tied

theorem Matches.teardown (node : BoundId) :
    World.Matches hidden own ties (first.teardown id node) (second.teardown other node) := by
  obtain ⟨render, partner, here, there, shown⟩ := all.rendered tied
  have gone := shown.alike.nodes.subtree node
  have cancelled := all.withData (all.data.cancels (Data.cancelAll_cancels _ _)
    (Data.cancelAll_cancels _ _) gone.ledger)
  have removed := cancelled.modifyDocument (fun _ => _) (fun _ => _)
    (all.documents.shared.removeAll gone.shown)
  rw [World.teardown, World.teardown, here, there]
  dsimp only
  rw [shown.document, ← shown.alike.document, shown.document]
  exact removed.modifyRender tied fun _ _ also =>
    also.withTree shown.alike.next (shown.alike.nodes.prune node)

theorem Matches.settle (switch : BoundId) (decision : Option Bool) :
    World.Matches hidden own ties (first.settle id switch decision)
      (second.settle other switch decision) :=
  all.modifyRender tied fun _ _ shown =>
    shown.withTree shown.alike.next (shown.alike.nodes.settle switch decision)

theorem Matches.graft (owner : BoundId) {watches others : Bindings}
    (alike : Bindings.Matches ties.seen watches others) :
    World.Matches hidden own ties (first.modifyTree id (·.graft owner watches))
      (second.modifyTree other (·.graft owner others)) :=
  all.modifyRender tied fun _ _ shown =>
    shown.withTree shown.alike.next (shown.alike.nodes.graft owner alike)

omit tied in
theorem Matches.show {dom partner : NodeId} (linked : ties.nodes.pairs dom partner)
    (display : Display) (contents : Contents) (value : Value) :
    World.Matches hidden own ties
      (first.modifyDocument place (·.modify dom (display.show contents value)))
      (second.modifyDocument place (·.modify partner (display.show contents value))) :=
  all.modifyDocument _ _ (all.documents.shared.modify linked fun _ _ same =>
    same.showing display contents value)

theorem Matches.plant {render partner : Render} (document : render.document = place)
    (twin : partner.document = place) {reference after : NodeId}
    (linked : ties.nodes.pairs reference after) {growth others : Growth}
    (alike : growth.Matches ties.seen others) (parent : BoundId) (index : Option Nat) :
    World.Matches hidden own ties
      (first.plant id render reference growth fun bound tree =>
        index.elim (tree.graft parent bound) (tree.graftAt parent · bound))
      (second.plant other partner after others fun bound tree =>
        index.elim (tree.graft parent bound) (tree.graftAt parent · bound)) := by
  rw [World.plant, World.plant, document, twin]
  have placed := all.modifyDocument (·.placeAfter reference growth.page)
    (·.placeAfter after others.page) (all.documents.shared.placeAfter linked alike.page)
  refine (placed.withFailures _ _).modifyRender tied fun render twin shown => ?_
  cases index with
  | none =>
      exact ⟨{ shown.alike with nodes := shown.alike.nodes.graft parent alike.bound },
        shown.document, shown.node⟩
  | some index =>
      exact ⟨{ shown.alike with nodes := shown.alike.nodes.graftAt parent index alike.bound },
        shown.document, shown.node⟩

end Both

section Alone

/-! ## Hidden renders -/

/-- Something is built for a hidden render. -/
theorem Matches.grow_first (all : World.Matches hidden own ties first second)
    (lone : ties.renders.lone id) (supplies : behaviour.Supplies supply)
    {render partner : Render} (alike : render.Matches ties.unseen partner)
    (document : render.document = place)
    {steps more : Site Journal → Build Journal Result} {results : Links → Result → Result → Prop}
    (twins : ∀ (one two : Site Journal) (frame : one.Abreast Ties two), frame.links = Ties.unseen →
      frame.Twins ties (steps one) (more two) results) :
    ∃ later, ties ≤ later ∧ later.renders = ties.renders ∧
      results later.unseen (first.grow behaviour id render steps).1
        (first.grow behaviour id partner more).1 ∧
      (first.grow behaviour id partner more).2 = (first.grow behaviour id render steps).2 ∧
      World.Matches hidden own later (first.grow behaviour id render steps).2 second := by
  have twin : partner.document = place := alike.document ▸ document
  have site : first.site behaviour id partner = first.site behaviour id render := by
    rw [World.site, World.site, alike.config, alike.registry]
  have start : first.buildState partner = first.buildState render := by
    rw [World.buildState, World.buildState, alike.document, alike.next]
  obtain ⟨later, grow, ⟨same, built, renders, client⟩, related⟩ := twins _ _
    (Site.alone (supplies.site first id render) lone (second.buildState render) first.client) rfl
    (first.buildState render) (first.buildState render)
    ⟨rfl, all.buildState document document, rfl, rfl⟩
  refine ⟨later, grow, renders, ?_, ?_, ?_⟩
  · rw [World.grow, World.grow, site, start]
    exact related
  · rw [World.grow, World.grow, site, start, document, twin]
    revert same
    generalize (more (first.site behaviour id render)).run (first.buildState render) = one,
      (steps (first.site behaviour id render)).run (first.buildState render) = two
    rintro same
    obtain ⟨_, state⟩ := one
    obtain rfl : state = two.2 := same
    rfl
  · rw [World.grow, document]
    exact (all.withBuilt_first grow renders document built client).numbered_first
      (renders ▸ lone) _

variable (all : World.Matches hidden own ties first second) (lone : ties.renders.lone id)

include all lone

theorem Matches.rendered_first :
    ∃ render, first.render? id = some render ∧ render.Hidden ties :=
  all.renders.hidden lone

theorem Matches.teardown_first (node : BoundId) :
    World.Matches hidden own ties (first.teardown id node) second := by
  obtain ⟨render, here, unseen⟩ := all.rendered_first lone
  have gone := unseen.alike.nodes.subtree node
  have cancelled := all.withData_first (all.data.cancels_first (Data.cancelAll_cancels _ _)
    fun mark member => (List.forall₂_same.1 gone.ledger mark member).2)
  have removed := cancelled.modifyDocument_first (fun _ => _)
    (all.documents.shared.removeAll_first
      fun node member => (List.forall₂_same.1 gone.shown node member).2)
  rw [World.teardown, here]
  dsimp only
  rw [unseen.document]
  exact removed.modifyRender_first lone fun _ also => also.withTree (unseen.alike.nodes.prune node)

theorem Matches.settle_first (switch : BoundId) (decision : Option Bool) :
    World.Matches hidden own ties (first.settle id switch decision) second :=
  all.modifyRender_first lone fun _ unseen =>
    unseen.withTree (unseen.alike.nodes.settle switch decision)

theorem Matches.graft_first (owner : BoundId) {watches : Bindings}
    (alike : Bindings.Matches ties.unseen watches watches) :
    World.Matches hidden own ties (first.modifyTree id (·.graft owner watches)) second :=
  all.modifyRender_first lone fun _ unseen => unseen.withTree (unseen.alike.nodes.graft owner alike)

omit lone in
theorem Matches.show_first {dom : NodeId} (hides : ties.nodes.lone dom) (display : Display)
    (contents : Contents) (value : Value) :
    World.Matches hidden own ties
      (first.modifyDocument place (·.modify dom (display.show contents value))) second :=
  all.modifyDocument_first _ (all.documents.shared.modify_first hides _)

theorem Matches.plant_first {render : Render} (document : render.document = place)
    {reference : NodeId} (hides : ties.nodes.lone reference) {growth : Growth}
    (alike : growth.Matches ties.unseen growth) (parent : BoundId) (index : Option Nat) :
    World.Matches hidden own ties
      (first.plant id render reference growth fun bound tree =>
        index.elim (tree.graft parent bound) (tree.graftAt parent · bound)) second := by
  have names : ∀ node ∈ growth.page.names, ties.nodes.lone node :=
    fun node member => (List.forall₂_same.1 (Forest.Matches.names_forall₂ alike.page) node member).2
  have placed := all.modifyDocument_first (·.placeAfter reference growth.page)
    (all.documents.shared.placeAfter_first hides names)
  rw [World.plant, document]
  refine (placed.withFailures _ second.failures).modifyRender_first lone fun render unseen => ?_
  cases index with
  | none =>
      exact ⟨{ unseen.alike with nodes := unseen.alike.nodes.graft parent alike.bound },
        unseen.document⟩
  | some index =>
      exact ⟨{ unseen.alike with nodes := unseen.alike.nodes.graftAt parent index alike.bound },
        unseen.document⟩

end Alone

/-! ## Reactions -/

/-- A render that is there in both worlds reacts side by side. -/
def together (hidden own : String → Bool) (supplies : behaviour.Supplies supply)
    (too : also.Supplies supply) (id other : RenderId) : Abreast behaviour also id other where
  links := Ties.seen
  monotone := Ties.monotone_seen
  states ties world twin :=
    World.Matches hidden own ties world twin ∧ ties.renders.pairs id other
  agrees states := states.1.data.agrees
  sound states := states.1.data.sound
  models states := states.1.data.models
  collections states := states.1.data.collections
  rendered states := by
    obtain ⟨render, partner, here, there, shown⟩ := states.1.rendered states.2
    exact ⟨render, partner, here, there, shown.alike, shown.document⟩
  teardown states node := ⟨states.1.teardown states.2 node, states.2⟩
  settle states switch decision := ⟨states.1.settle states.2 switch decision, states.2⟩
  graft states owner _ _ alike := ⟨states.1.graft states.2 owner alike, states.2⟩
  change states _ _ linked display contents value :=
    ⟨states.1.show linked display contents value, states.2⟩
  grow {_ _ _ _} states {_ _} alike document {_ _ _} twins := by
    obtain ⟨later, grow, renders, related, all⟩ :=
      states.1.grow states.2 supplies too alike document twins
    exact ⟨later, grow, related, all, renders ▸ states.2⟩
  plant {_ _ _} states {_ _} document also {_ _} linked {_ _} alike parent index :=
    ⟨states.1.plant states.2 document also linked alike parent index, states.2⟩

/-- A hidden render reacts, side by side with itself, while the second world rests. -/
def alone (hidden own : String → Bool) (supplies : behaviour.Supplies supply) (id : RenderId)
    (still : World Journal) : Abreast behaviour behaviour id id where
  links := Ties.unseen
  monotone := Ties.monotone_unseen
  states ties world twin :=
    twin = world ∧ World.Matches hidden own ties world still ∧ ties.renders.lone id
  agrees states := states.1 ▸ Data.Agrees.refl _
  sound states := states.2.1.data.sound
  models states := states.2.1.data.models
  collections states := states.2.1.data.collections
  rendered states := by
    obtain ⟨rfl, all, lone⟩ := states
    obtain ⟨render, here, unseen⟩ := all.rendered_first lone
    exact ⟨render, render, here, here, unseen.alike, unseen.document⟩
  teardown states node := by
    obtain ⟨rfl, all, lone⟩ := states
    exact ⟨rfl, all.teardown_first lone node, lone⟩
  settle states switch decision := by
    obtain ⟨rfl, all, lone⟩ := states
    exact ⟨rfl, all.settle_first lone switch decision, lone⟩
  graft {ties _ _} states owner {_ _} alike := by
    obtain ⟨rfl, all, lone⟩ := states
    obtain rfl := alike.eq ties.unseen_selfsame
    exact ⟨rfl, all.graft_first lone owner alike, lone⟩
  change {_ _ _} states {_ _} linked display contents value := by
    obtain ⟨rfl, all, lone⟩ := states
    obtain ⟨rfl, hides⟩ := linked
    exact ⟨rfl, all.show_first hides display contents value, lone⟩
  grow {_ _ _ _} states {_ _} alike document {_ _ _} twins := by
    obtain ⟨rfl, all, lone⟩ := states
    obtain ⟨later, grow, renders, related, same, all⟩ :=
      all.grow_first lone supplies alike document twins
    exact ⟨later, grow, related, same, all, renders ▸ lone⟩
  plant {ties _ _} states {render partner} document also {_ _} linked {_ _} alike parent index := by
    obtain ⟨rfl, all, lone⟩ := states
    obtain ⟨rfl, hides⟩ := linked
    obtain rfl := alike.eq ties.unseen_selfsame
    refine ⟨?_, all.plant_first lone document hides alike parent index, lone⟩
    rw [World.plant, World.plant, document, also]

end World

end LiveTemplate
