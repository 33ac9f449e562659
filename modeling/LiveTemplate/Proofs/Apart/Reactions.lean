import LiveTemplate.Proofs.Apart.Sites
import LiveTemplate.Proofs.Apart.Worlds
import LiveTemplate.View.Mutation

/-!
# Reactions in both worlds and in one

A render that is there in both worlds reacts in the same way in each of them, and the reactions of a
hidden render leave no trace in what both worlds have in common.  As with buildings, a reaction of a
hidden render is followed side by side with itself.
-/

namespace LiveTemplate

/-- Observers of two renders that are there for the same. -/
inductive Observer.Serves (id other : RenderId) : Observer → Observer → Prop where
  | path (owner root : BoundId) (slot : Nat) (rest : List String) :
      Serves id other (.value (.path ⟨id, owner, root, slot, rest⟩))
        (.value (.path ⟨other, owner, root, slot, rest⟩))
  | rebuild (content directive : BoundId) :
      Serves id other (.change (.rebuild id content directive))
        (.change (.rebuild other content directive))
  | splice (list : BoundId) :
      Serves id other (.change (.splice id list)) (.change (.splice other list))

namespace World

open Site.Abreast (Twins)

/-- Renders whose reactions can be followed side by side: what they are made of is related at a stage,
and the single steps of a reaction keep it so. -/
structure Abreast (behaviour also : Behaviour Journal) (id other : RenderId) where
  links : Ties → Links
  monotone : Monotone links
  states : Ties → World Journal → World Journal → Prop
  agrees : ∀ {ties world twin}, states ties world twin → world.data.Agrees twin.data
  sound : ∀ {ties world twin}, states ties world twin → world.data.Sound
  models : ∀ {ties world twin}, states ties world twin →
    world.data.models.next = (links ties).models
  collections : ∀ {ties world twin}, states ties world twin →
    world.data.collections.next = (links ties).collections
  rendered : ∀ {ties world twin}, states ties world twin → ∃ render partner,
    world.render? id = some render ∧ twin.render? other = some partner ∧
      render.Matches (links ties) partner ∧ render.document = place
  teardown : ∀ {ties world twin}, states ties world twin → ∀ node,
    states ties (world.teardown id node) (twin.teardown other node)
  settle : ∀ {ties world twin}, states ties world twin → ∀ switch decision,
    states ties (world.settle id switch decision) (twin.settle other switch decision)
  graft : ∀ {ties world twin}, states ties world twin → ∀ (owner : BoundId) {watches others},
    Bindings.Matches (links ties) watches others →
      states ties (world.modifyTree id (·.graft owner watches))
        (twin.modifyTree other (·.graft owner others))
  change : ∀ {ties world twin}, states ties world twin → ∀ {dom partner : NodeId},
    (links ties).nodes dom partner → ∀ (display : Display) (contents : Contents) (value : Value),
      states ties (world.modifyDocument place (·.modify dom (display.show contents value)))
        (twin.modifyDocument place (·.modify partner (display.show contents value)))
  grow : ∀ {Result : Type} {ties world twin}, states ties world twin →
    ∀ {render partner : Render}, render.Matches (links ties) partner → render.document = place →
      ∀ {steps more : Site Journal → Build Journal Result} {results : Links → Result → Result → Prop},
        (∀ (one two : Site Journal) (abreast : one.Abreast Ties two), abreast.links = links →
          abreast.Twins ties (steps one) (more two) results) → ∃ later, ties ≤ later ∧
            results (links later) (world.grow behaviour id render steps).1
              (twin.grow also other partner more).1 ∧
            states later (world.grow behaviour id render steps).2
              (twin.grow also other partner more).2
  plant : ∀ {ties world twin}, states ties world twin → ∀ {render partner : Render},
    render.document = place → partner.document = place → ∀ {reference after : NodeId},
      (links ties).nodes reference after → ∀ {growth others : Growth},
        growth.Matches (links ties) others → ∀ (parent : BoundId) (index : Option Nat),
          states ties
            (world.plant id render reference growth fun bound tree =>
              index.elim (tree.graft parent bound) (tree.graftAt parent · bound))
            (twin.plant other partner after others fun bound tree =>
              index.elim (tree.graft parent bound) (tree.graftAt parent · bound))

namespace Abreast

variable {behaviour also : Behaviour Journal} {id other : RenderId}
  {abreast : Abreast behaviour also id other} {ties : Ties} {world twin : World Journal}

/-- The worlds go on side by side. -/
def Leads (abreast : Abreast behaviour also id other) (ties : Ties) (world twin : World Journal) :
    Prop :=
  ∃ later, ties ≤ later ∧ abreast.states later world twin

theorem Leads.of (states : abreast.states ties world twin) : abreast.Leads ties world twin :=
  ⟨ties, le_rfl, states⟩

theorem Leads.le {later : Ties} (leads : abreast.Leads later world twin) (grow : ties ≤ later) :
    abreast.Leads ties world twin := by
  obtain ⟨last, early, states⟩ := leads
  exact ⟨last, grow.trans early, states⟩

theorem teardownAll (states : abreast.states ties world twin) (nodes : List BoundId) :
    abreast.states ties (world.teardownAll id nodes) (twin.teardownAll other nodes) := by
  induction nodes generalizing world twin with
  | nil => exact states
  | cons node later induction => exact induction (abreast.teardown states node)

/-- A bound node is live in both worlds or in none. -/
theorem bound? (states : abreast.states ties world twin) (node : BoundId) :
    ∃ render partner, world.render? id = some render ∧ twin.render? other = some partner ∧
      render.Matches (abreast.links ties) partner ∧ render.document = place ∧
        Option.Rel (BoundNode.Matches (abreast.links ties)) (world.bound? id node)
          (twin.bound? other node) := by
  obtain ⟨render, partner, here, there, alike, document⟩ := abreast.rendered states
  refine ⟨render, partner, here, there, alike, document, ?_⟩
  rw [World.bound?, World.bound?, here, there]
  exact alike.nodes.get? node

theorem isLive_eq (states : abreast.states ties world twin) (node : BoundId) :
    world.isLive id node = twin.isLive other node := by
  obtain ⟨_, _, _, _, _, _, bound⟩ := bound? states node
  exact Option.Rel.isSome_eq bound

/-- The values of a path that a bound node follows. -/
theorem resolveRaw_eq (states : abreast.states ties world twin) {scope partner : Scope}
    (scopes : scope.Matches (abreast.links ties) partner) (path : Template.Path) :
    twin.data.resolveRaw partner.model path = world.data.resolveRaw scope.model path := by
  rw [(abreast.agrees states).resolveRaw, scopes.model]

/-! ## Directives -/

theorem fill (states : abreast.states ties world twin) {render partner : Render}
    (alike : render.Matches (abreast.links ties) partner) (document : render.document = place)
    {scope inner : Scope} (scopes : scope.Matches (abreast.links ties) inner)
    {anchor mark : NodeId} (linked : (abreast.links ties).nodes anchor mark) (switch : BoundId)
    (directive : Directive) :
    abreast.Leads ties (world.fill behaviour id render switch directive scope anchor)
      (twin.fill also other partner switch directive inner mark) := by
  have twins : ∀ (one two : Site Journal) (frame : one.Abreast Ties two),
      frame.links = abreast.links → frame.Twins ties
        (one.content one.viewIn (one.body directive.body) switch directive scope)
        (two.content two.viewIn (two.body directive.body) switch directive inner)
        Growth.Matches := by
    intro one two frame same
    rw [← same] at scopes
    exact Twins.content (Twins.body _) Twins.viewIn scopes switch directive
  obtain ⟨later, grow, built, states⟩ := abreast.grow states alike document twins
  exact ⟨later, grow, abreast.plant states document (alike.document ▸ document)
    ((abreast.monotone grow).nodes _ _ linked) built switch none⟩

theorem rebuild (states : abreast.states ties world twin) (switch : BoundId) :
    abreast.Leads ties (world.rebuild behaviour id switch) (twin.rebuild also other switch) := by
  obtain ⟨render, partner, here, there, alike, document, bound⟩ := bound? states switch
  rw [World.rebuild, World.rebuild, here, there]
  revert bound
  generalize world.bound? id switch = node, twin.bound? other switch = mate
  rintro (@⟨⟨part, dom, _, scope⟩, ⟨_, spot, _, inner⟩, ⟨same, doms, _, scopes⟩⟩ | _)
  · obtain rfl : part = _ := same
    cases part with
    | switch directive shown =>
        cases doms with
        | none => exact .of states
        | some linked =>
            dsimp only
            rw [resolveRaw_eq states scopes, (abreast.agrees states).contents,
              ← BoundTree.shownBy_eq_of_matches alike.nodes]
            split
            · exact .of states
            · exact fill (abreast.settle (teardownAll states _) _ _) alike document scopes linked _ _
    | element | text | list | group | watch | view => exact .of states
  · exact .of states

theorem refresh (states : abreast.states ties world twin) (root : BoundId) (slot : Nat) :
    abreast.Leads ties (world.refresh behaviour id root slot)
      (twin.refresh also other root slot) := by
  obtain ⟨render, partner, here, there, alike, document, bound⟩ := bound? states root
  rw [World.refresh, World.refresh, here, there]
  revert bound
  generalize world.bound? id root = node, twin.bound? other root = mate
  rintro (@⟨⟨part, dom, _, scope⟩, ⟨_, spot, _, inner⟩, ⟨same, doms, _, scopes⟩⟩ | _)
  · obtain rfl : part = _ := same
    have again : abreast.Leads ties
        (if part.kind == .switch then world.rebuild behaviour id root else world)
        (if part.kind == .switch then twin.rebuild also other root else twin) := by
      split
      · exact rebuild states root
      · exact .of states
    dsimp only
    cases part.shown? slot with
    | none => exact again
    | some place =>
        cases doms with
        | none => exact again
        | some linked =>
            dsimp only
            rw [(abreast.agrees states).resolve, ← scopes.model, (abreast.agrees states).contents,
              ← alike.document, document]
            exact .of (abreast.change states linked _ _ _)
  · exact .of states

/-! ## Paths -/

theorem link (states : abreast.states ties world twin) {render partner : Render}
    (alike : render.Matches (abreast.links ties) partner) (document : render.document = place)
    {scope inner : Scope} (scopes : scope.Matches (abreast.links ties) inner) {value : Value}
    (refers : (abreast.links ties).Refers value) (owner root : BoundId) (slot : Nat)
    (rest : List String) :
    abreast.Leads ties (world.link behaviour render ⟨id, owner, root, slot, rest⟩ scope value)
      (twin.link also partner ⟨other, owner, root, slot, rest⟩ inner value) := by
  have twins : ∀ (one two : Site Journal) (frame : one.Abreast Ties two),
      frame.links = abreast.links → frame.Twins ties (one.watch root slot scope value rest)
        (two.watch root slot inner value rest) Bindings.Matches := by
    intro one two frame same
    rw [← same] at scopes refers
    exact Twins.watch root slot rest scopes refers
  obtain ⟨later, grow, built, states⟩ := abreast.grow states alike document twins
  exact ⟨later, grow, abreast.graft states owner built⟩

theorem relink (states : abreast.states ties world twin) {value : Value}
    (refers : (abreast.links ties).Refers value) (owner root : BoundId) (slot : Nat)
    (rest : List String) :
    abreast.Leads ties (world.relink behaviour ⟨id, owner, root, slot, rest⟩ value)
      (twin.relink also ⟨other, owner, root, slot, rest⟩ value) := by
  obtain ⟨render, partner, here, there, alike, document, bound⟩ := bound? states owner
  rw [World.relink, World.relink, here, there]
  revert bound
  generalize world.bound? id owner = node, twin.bound? other owner = mate
  rintro (same | _)
  · dsimp only
    rw [← BoundTree.watcher?_eq_of_matches alike.nodes]
    exact link (teardownAll states _) alike document same.scope refers owner root slot rest
  · exact .of states

theorem react (states : abreast.states ties world twin) {value : Value}
    (refers : (abreast.links ties).Refers value) (owner root : BoundId) (slot : Nat)
    (rest : List String) :
    abreast.Leads ties (world.react behaviour ⟨id, owner, root, slot, rest⟩ value)
      (twin.react also ⟨other, owner, root, slot, rest⟩ value) := by
  rw [World.react, World.react, ← isLive_eq states]
  split
  · dsimp only
    split
    · exact refresh states root slot
    · obtain ⟨later, grow, states⟩ := relink states refers owner root slot rest
      exact Leads.le (refresh states root slot) grow
  · exact .of states

/-! ## Lists -/

theorem showItems (states : abreast.states ties world twin) {items : List Value}
    (refers : ∀ item ∈ items, (abreast.links ties).Refers item) (list : BoundId) (index : Nat) :
    abreast.Leads ties (world.showItems behaviour id list index items)
      (twin.showItems also other list index items) := by
  obtain ⟨render, partner, here, there, alike, document, bound⟩ := bound? states list
  rw [World.showItems, World.showItems, here, there]
  revert bound
  generalize world.bound? id list = node, twin.bound? other list = mate
  rintro (@⟨⟨part, dom, _, scope⟩, ⟨_, spot, _, inner⟩, ⟨same, doms, _, scopes⟩⟩ | _)
  · obtain rfl : part = _ := same
    cases part with
    | list collection body =>
        cases doms with
        | none => exact .of states
        | @some anchor mark linked =>
            have twins : ∀ (one two : Site Journal) (frame : one.Abreast Ties two),
                frame.links = abreast.links → frame.Twins ties
                  (Site.items (one.body body) scope items) (Site.items (two.body body) inner items)
                  Growth.Matches := by
              intro one two frame same
              rw [← same] at scopes refers
              exact Twins.items items (Twins.body _) scopes refers
            obtain ⟨later, grow, built, states⟩ := abreast.grow states alike document twins
            have before : render.tree.children list = partner.tree.children list :=
              alike.nodes.childrenOf_eq list
            have reference : (abreast.links ties).nodes
                ((render.tree.lastOf ((render.tree.children list).take index)).getD anchor)
                ((partner.tree.lastOf ((partner.tree.children list).take index)).getD mark) := by
              rw [before]
              have last := BoundTree.lastOf_matches alike.nodes
                ((partner.tree.children list).take index)
              revert last
              generalize render.tree.lastOf _ = one, partner.tree.lastOf _ = two
              rintro (last | _)
              · exact last
              · exact linked
            exact ⟨later, grow, abreast.plant states document (alike.document ▸ document)
              ((abreast.monotone grow).nodes _ _ reference) built list (some index)⟩
    | element | text | switch | group | watch | view => exact .of states
  · exact .of states

theorem itemsShown_eq (states : abreast.states ties world twin) (list : BoundId) :
    twin.itemsShown other list = world.itemsShown id list := by
  obtain ⟨render, partner, here, there, alike, document, bound⟩ := bound? states list
  rw [World.itemsShown, World.itemsShown, here, there]
  revert bound
  generalize world.bound? id list = node, twin.bound? other list = mate
  rintro (@⟨⟨part, _, _, _⟩, ⟨_, _, _, _⟩, ⟨same, _, _, _⟩⟩ | _)
  · obtain rfl : part = _ := same
    cases part with
    | list collection body => exact (alike.nodes.childrenOf_eq list).symm
    | element | text | switch | group | watch | view => rfl
  · rfl

theorem hideItem (states : abreast.states ties world twin) (list : BoundId) (index : Nat) :
    abreast.states ties (world.hideItem id list index) (twin.hideItem other list index) := by
  rw [World.hideItem, World.hideItem, itemsShown_eq states]
  exact teardownAll states _

theorem hideItems (states : abreast.states ties world twin) (list : BoundId) :
    abreast.states ties (world.hideItems id list) (twin.hideItems other list) := by
  rw [World.hideItems, World.hideItems, itemsShown_eq states]
  exact teardownAll states _

theorem splice (states : abreast.states ties world twin) (list : BoundId) {change : Change}
    (refers : ∀ item ∈ change.fresh, (abreast.links ties).Refers item) :
    abreast.Leads ties (world.splice behaviour id list change)
      (twin.splice also other list change) := by
  cases change with
  | insert index item => exact showItems states refers list index
  | remove index item => exact .of (hideItem states list index)
  | update index item => exact showItems (hideItem states list index) refers list index
  | replace items => exact showItems (hideItems states list) refers list 0

/-! ## Observers -/

/-- The renders are told the same. -/
theorem receive (states : abreast.states ties world twin) {news : News}
    (refers : news.Refers world.data) {first second : Observer}
    (serves : Observer.Serves id other first second) :
    abreast.Leads ties (world.receive behaviour news first) (twin.receive also news second) := by
  have inside : ∀ value, world.data.Refers value → (abreast.links ties).Refers value := by
    intro value refers
    rwa [Data.Refers, abreast.models states, abreast.collections states] at refers
  cases serves with
  | path owner root slot rest =>
      cases news with
      | value model property value => exact react states (inside _ refers) owner root slot rest
      | change collection change => exact .of states
  | rebuild content directive =>
      cases news with
      | value model property value => exact .of states
      | change collection change =>
          change abreast.Leads ties (if _ then _ else _) (if _ then _ else _)
          rw [← isLive_eq states]
          split
          · exact rebuild states directive
          · exact .of states
  | splice list =>
      cases news with
      | value model property value => exact .of states
      | change collection change =>
          exact splice states list fun item member => inside _ (Data.RefersIn.fresh refers item member)

end Abreast

end World

end LiveTemplate
