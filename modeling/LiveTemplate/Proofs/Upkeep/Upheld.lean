import LiveTemplate.Proofs.Reactive.Census
import LiveTemplate.Proofs.Upkeep.Changed
import LiveTemplate.Proofs.View.Stages

/-!
# A render that is kept up to date

While a change is announced, some observers still have to be told, and what they will show anew is
out of date.  A render is upheld if its bound nodes fit the template apart from that.  Changes from
outside add to what is still to be told; other renders do not matter; and a reaction exchanges one
bound node for another that fits as well.
-/

namespace LiveTemplate

/-- Registrations with their observers. -/
abbrev Notices : Type := List (Subscription × Observer)

/-- Whether an observer follows the rest of a path, or a list, by what it is told. -/
def Observer.Steers : Observer → Prop
  | .value (.path observer) => observer.rest ≠ []
  | .change (.splice ..) => True
  | .value (.client _) | .change (.client _) | .change (.rebuild ..) => False

theorem Observer.owner?_of_target? {observer : Observer} {render : RenderId} {root : BoundId}
    {slot : Nat} (target : observer.target? = some (render, root, slot)) :
    ∃ owner, observer.owner? = some (render, owner) := by
  match observer with
  | .value (.path _) =>
      obtain ⟨rfl, -⟩ := Prod.mk.inj (Option.some.inj target)
      exact ⟨_, rfl⟩
  | .change (.rebuild ..) =>
      obtain ⟨rfl, -⟩ := Prod.mk.inj (Option.some.inj target)
      exact ⟨_, rfl⟩
  | .value (.client _) | .change (.client _) | .change (.splice ..) => cases target

namespace World

variable {Client : Type} {world after : World Client} {frame : Frame} {task : Task}
  {render changed : Render} {former later : CollectionId → List Value}
  {pending owed pending' owed' : Notices} {place : DocumentId} {id : RenderId}

/-- How things stand for a render.  Those who are pending still have to be told; what is owed will be
shown anew. -/
def standing (world : World Client) (place : DocumentId) (id : RenderId)
    (former : CollectionId → List Value) (pending owed : Notices) : Standing where
  data := world.data
  former := former
  holds := world.data.Holds
  late subscription := ∃ observer, (subscription, observer) ∈ pending ∧
    world.data.Holds subscription observer
  stale name slot := ∃ subscription observer, (subscription, observer) ∈ owed ∧
    world.data.Holds subscription observer ∧ observer.target? = some (id, name, slot)
  look := (world.document place).data?

/-- All registrations were made earlier. -/
def Issued (world : World Client) (owed : Notices) : Prop :=
  ∀ notice ∈ owed, notice.1.id < world.data.nextNumber notice.1.source

/-- The bound nodes of a render fit what it was made for, apart from what is still to be told. -/
structure Upholds (world : World Client) (frame : Frame) (task : Task) (render : Render)
    (former : CollectionId → List Value) (pending owed : Notices) : Prop where
  sound : world.Sound
  known : world.render? frame.render = some render
  registry : world.registry render.registry = frame.registry
  label : render.config.anchorLabel = frame.label
  limit : render.config.maxViewDepth = frame.limit
  among : pending ⊆ owed
  issued : world.Issued owed
  fits : Fits frame (world.standing render.document frame.render former pending owed) render.root
    (fun _ => []) [.content [task] []] render.tree.nodes

theorem standing_single (sound : world.Sound) :
    (world.standing place id former pending owed).Single :=
  fun _ _ _ => sound.data.unique

/-- What a live bound node holds is registered for it. -/
theorem Sound.held (sound : world.Sound) (known : world.render? id = some render) {name : BoundId}
    {node : BoundNode Part} (member : (name, node) ∈ render.tree.nodes.entries)
    {subscription : Subscription} (own : subscription ∈ node.ledger) :
    ∃ observer, world.data.Holds subscription observer ∧ observer.owner? = some (id, name) := by
  obtain ⟨_, _, mine⟩ := sound.renders id render known
  exact mine.balanced.held _ _ (BoundForest.mem_account.2 ⟨node, member, own⟩)

/-- Whoever is registered for a render is held by the bound node that it is registered for. -/
theorem Sound.owned (sound : world.Sound) (known : world.render? id = some render)
    {subscription : Subscription} {observer : Observer} {owner : BoundId}
    (holds : world.data.Holds subscription observer) (own : observer.owner? = some (id, owner)) :
    ∃ node, (owner, node) ∈ render.tree.nodes.entries ∧ subscription ∈ node.ledger := by
  obtain ⟨_, _, mine⟩ := sound.renders id render known
  exact BoundForest.mem_account.1 (mine.balanced.complete _ _ _ holds own)

/-! ## Nothing changes for the others -/

section Progress

variable {name : BoundId} {node : BoundNode Part}

/-- A registration that is still held is held by the same observer. -/
theorem Progress.holds (progress : world.Progress after id render changed) (sound : world.Sound)
    (tidy : after.Sound) {subscription : Subscription} {observer : Observer}
    (member : (name, node) ∈ changed.tree.nodes.entries) (own : subscription ∈ node.ledger)
    (holds : world.data.Holds subscription observer) : after.data.Holds subscription observer := by
  obtain ⟨other, held, _⟩ := tidy.held progress.here member own
  have early := sound.data.below _ _ holds
  obtain rfl := sound.data.unique holds (progress.data.holds _ _ held early)
  exact held

theorem Progress.look (progress : world.Progress after id render changed) (sound : world.Sound)
    (tidy : after.Sound) (before : (name, node) ∈ render.tree.nodes.entries) {other : BoundNode Part}
    (member : (name, other) ∈ changed.tree.nodes.entries) (same : other.dom = node.dom) {dom : NodeId}
    (own : node.dom = some dom) :
    (after.document changed.document).data? dom = (world.document render.document).data? dom := by
  obtain ⟨document, stored, mine⟩ := sound.renders id render progress.known
  obtain ⟨edited, replaced, _⟩ := tidy.renders id changed progress.here
  obtain ⟨created, _⟩ := sound.dom_inside progress.known before own
  obtain ⟨_, there⟩ := tidy.dom_inside progress.here member (same.trans own)
  obtain ⟨found, shown⟩ := Option.isSome_iff_exists.1
    (Forest.label?_isSome_iff.2 (there edited replaced))
  have recalls := progress.documents render.document
  rw [document_eq stored] at recalls
  rw [document_eq stored, document_eq replaced]
  rw [← progress.same.document, document_eq replaced] at recalls
  exact shown.trans (recalls.data dom found (mine.mirrors.issued dom created) shown).symm

end Progress

section Agrees

variable {name : BoundId} {node : BoundNode Part}

/-- Nothing changes for registrations that stay and are not told yet. -/
theorem steady_of_agrees {late : Subscription → Prop} {stale : BoundId → Nat → Prop}
    {look : NodeId → Option NodeData} (agrees : world.data.Agrees after.data)
    (kept : ∀ subscription ∈ node.ledger, ∀ observer, world.data.Holds subscription observer →
      after.data.Holds subscription observer)
    (waits : ∀ subscription ∈ node.ledger, ∀ observer, (subscription, observer) ∈ pending →
      world.data.Holds subscription observer → late subscription)
    (back : ∀ subscription ∈ node.ledger, ∀ render list,
      world.data.Holds subscription (.change (.splice render list)) → late subscription →
        ∃ observer, (subscription, observer) ∈ pending ∧ world.data.Holds subscription observer) :
    Steady (world.standing place id former pending owed)
      ⟨after.data, former, after.data.Holds, late, stale, look⟩ node where
  holds := kept
  next := by
    intro subscription member observer _ _ model segment _ told
    exact ⟨fun ⟨observer, listed, held⟩ => told (waits _ member _ listed held),
      agrees.get model segment⟩
  lists := by
    intro subscription member render list held collection items _ lists
    constructor
    · exact fun waiting => lists.late (back _ member _ _ held waiting)
    · intro told
      show items = after.data.contents.items collection
      rw [agrees.contents]
      exact lists.current fun ⟨observer, listed, held⟩ => told (waits _ member _ listed held)

theorem Progress.steady {mark : BoundNode Part} (progress : world.Progress after id render changed)
    (sound : world.Sound) (tidy : after.Sound) (member : (name, mark) ∈ changed.tree.nodes.entries)
    (ledger : mark.ledger = node.ledger) :
    Steady (world.standing render.document id former pending owed)
      (after.standing changed.document id former pending owed') node := by
  have holds : ∀ subscription ∈ node.ledger, ∀ observer,
      world.data.Holds subscription observer → after.data.Holds subscription observer :=
    fun subscription own observer => progress.holds sound tidy member (ledger ▸ own)
  apply steady_of_agrees progress.agrees holds
  · exact fun _ own observer listed held => ⟨observer, listed, holds _ own _ held⟩
  · rintro _ _ _ _ held ⟨observer, listed, also⟩
    exact ⟨observer, listed, progress.data.holds _ _ also (sound.data.below _ _ held)⟩

/-- Nothing changes for a bound node that is left alone and not told anything yet. -/
theorem carries_of_agrees {other : DocumentId} (agrees : world.data.Agrees after.data)
    (kept : ∀ subscription ∈ node.ledger, ∀ observer, world.data.Holds subscription observer →
      after.data.Holds subscription observer)
    (waits : ∀ subscription ∈ node.ledger, ∀ observer, (subscription, observer) ∈ pending →
      world.data.Holds subscription observer → (subscription, observer) ∈ pending')
    (back : ∀ subscription ∈ node.ledger, ∀ observer, (subscription, observer) ∈ pending' →
      after.data.Holds subscription observer →
        (subscription, observer) ∈ pending ∧ world.data.Holds subscription observer)
    (look : ∀ dom, node.dom = some dom →
      (after.document other).data? dom = (world.document place).data? dom)
    (stale : ∀ slot, (world.standing place id former pending owed).stale name slot →
      (after.standing other id former pending' owed').stale name slot) :
    Carries (world.standing place id former pending owed)
      (after.standing other id former pending' owed') name node where
  toSteady := by
    apply steady_of_agrees agrees kept
    · exact fun subscription own observer listed held =>
        ⟨observer, waits _ own _ listed held, kept _ own _ held⟩
    · rintro subscription own _ _ _ ⟨observer, listed, held⟩
      exact ⟨observer, back _ own _ listed held⟩
  look := look
  shows := fun slot display path _ spared =>
    ⟨fun excused => spared (stale slot excused), fun contents => agrees.outcome contents ..⟩
  wanted := fun _ _ _ spared =>
    ⟨fun excused => spared (stale 0 excused), fun _ wants => agrees.wants wants⟩

theorem Progress.carries (progress : world.Progress after id render changed) (sound : world.Sound)
    (tidy : after.Sound) (before : (name, node) ∈ render.tree.nodes.entries)
    (member : (name, node) ∈ changed.tree.nodes.entries) (fewer : pending' ⊆ pending)
    (late : ∀ subscription observer, (subscription, observer) ∈ pending →
      world.data.Holds subscription observer → (subscription, observer) ∈ pending' ∨
        ∃ owner, observer.owner? = some (id, owner) ∧ owner ≠ name)
    (stale : ∀ slot, (world.standing render.document id former pending owed).stale name slot →
      (after.standing changed.document id former pending' owed').stale name slot) :
    Carries (world.standing render.document id former pending owed)
      (after.standing changed.document id former pending' owed') name node := by
  apply carries_of_agrees progress.agrees
  · exact fun subscription own observer => progress.holds sound tidy member own
  · intro subscription own observer listed held
    refine (late _ _ listed held).resolve_right ?_
    rintro ⟨owner, owned, apart⟩
    obtain ⟨also, there, mine⟩ := sound.held progress.known before own
    obtain rfl := sound.data.unique held there
    exact apart (Prod.mk.inj (Option.some.inj (owned.symm.trans mine))).2
  · intro subscription own observer listed held
    obtain ⟨_, there, _⟩ := sound.held progress.known before own
    exact ⟨fewer listed, progress.data.holds _ _ held (sound.data.below _ _ there)⟩
  · exact fun _ own => progress.look sound tidy before member rfl own
  · exact stale

/-- What stays and is not told anything yet fits as before. -/
theorem Progress.remains {root : BoundId} {way : Nat → List String} {tasks : List Task}
    {part : Bindings} (progress : world.Progress after id render changed) (sound : world.Sound)
    (tidy : after.Sound)
    (fits : Fits frame (world.standing render.document id former pending owed) root way tasks part)
    (before : part.entries ⊆ render.tree.nodes.entries)
    (member : part.entries ⊆ changed.tree.nodes.entries) (fewer : pending' ⊆ pending)
    (late : ∀ subscription observer, (subscription, observer) ∈ pending →
      world.data.Holds subscription observer → (subscription, observer) ∈ pending' ∨
        ∃ owner, observer.owner? = some (id, owner) ∧ owner ∉ part.names)
    (stale : ∀ name ∈ part.names, ∀ slot,
      (world.standing render.document id former pending owed).stale name slot →
        (after.standing changed.document id former pending' owed').stale name slot) :
    Fits frame (after.standing changed.document id former pending' owed') root way tasks part := by
  apply fits.carry
  intro name node listed
  have named : name ∈ part.names := List.mem_map_of_mem listed
  apply progress.carries sound tidy (before listed) (member listed) fewer
  · intro subscription observer waiting held
    refine (late _ _ waiting held).imp_right ?_
    rintro ⟨owner, owned, outside⟩
    exact ⟨owner, owned, fun same => outside (same ▸ named)⟩
  · exact stale name named

end Agrees

/-- One bound node is exchanged for another that fits as well. -/
theorem Upholds.exchange {target : BoundId} {node : BoundNode Part} {below : Bindings}
    {label : BoundNode Part → BoundNode Part} {change : Bindings → Bindings}
    (upholds : world.Upholds frame task render former pending owed)
    (progress : world.Progress after frame.render render changed) (tidy : after.Sound)
    (has : Forest.Has render.tree.nodes target node below)
    (nodes : changed.tree.nodes = render.tree.nodes.edit target label change)
    (other : ∀ node slot, (label node).part.watches slot = node.part.watches slot)
    (same : ∀ node slot, node.part.watches slot = true → label node = node)
    (fewer : pending' ⊆ pending) (less : owed' ⊆ owed) (among : pending' ⊆ owed')
    (late : ∀ subscription observer, (subscription, observer) ∈ pending →
      world.data.Holds subscription observer → (subscription, observer) ∈ pending' ∨
        ∃ owner, observer.owner? = some (frame.render, owner) ∧ owner ∈ target :: below.names)
    (stale : ∀ name slot, name ≠ target → name ∉ below.names →
      (world.standing render.document frame.render former pending owed).stale name slot →
        (after.standing changed.document frame.render former pending' owed').stale name slot)
    (there : ∀ root way tasks,
      Fits frame (world.standing render.document frame.render former pending owed) root way tasks
          (.cons target node below .nil) →
        Fits frame (after.standing changed.document frame.render former pending' owed') root way tasks
          (.cons target (label node) (change below) .nil)) :
    after.Upholds frame task changed former pending' owed' := by
  obtain ⟨_, _, own⟩ := upholds.sound.renders _ render upholds.known
  refine ⟨tidy, progress.here, ?_, ?_, ?_, among, ?_, ?_⟩
  · rw [← upholds.registry, World.registry, progress.registries, progress.same.registry]
    rfl
  · rw [progress.same.config, upholds.label]
  · rw [progress.same.config, upholds.limit]
  · intro notice member
    exact (upholds.issued notice (less member)).trans_le (progress.data.numbers _)
  · rw [nodes, progress.same.root]
    apply upholds.fits.edit other same
    · intro name mark apart member
      obtain ⟨before, outside⟩ := Forest.apart_of_mem_entries own.distinct has member
      apply progress.carries upholds.sound tidy before _ fewer
      · intro subscription observer listed held
        refine (late _ _ listed held).imp_right ?_
        rintro ⟨owner, owned, inside⟩
        refine ⟨owner, owned, ?_⟩
        rintro rfl
        exact (List.mem_cons.1 inside).elim apart outside
      · exact fun slot excused => stale name slot apart outside excused
      · rw [nodes]
        exact Forest.mem_entries_edit label change apart member
    · intro root way tasks mark under found
      obtain ⟨rfl, rfl⟩ := has.unique own.distinct found
      exact there root way tasks

/-- Nothing is read otherwise, and no bound node is told anything. -/
theorem Upholds.carry {render : Render}
    (upholds : world.Upholds frame task render former pending owed) (among : pending' ⊆ owed')
    (less : owed' ⊆ owed)
    (carries : ∀ name node, (name, node) ∈ render.tree.nodes.entries →
      Carries (world.standing render.document frame.render former pending owed)
        (world.standing render.document frame.render later pending' owed') name node) :
    world.Upholds frame task render later pending' owed' where
  sound := upholds.sound
  known := upholds.known
  registry := upholds.registry
  label := upholds.label
  limit := upholds.limit
  among := among
  issued := fun notice member => upholds.issued notice (less member)
  fits := upholds.fits.carry carries

/-- Only what is late or stale may change for a bound node. -/
theorem carries_of_told {name : BoundId} {node : BoundNode Part}
    (next : ∀ subscription ∈ node.ledger, ∀ observer : PathObserver,
      world.data.Holds subscription (.value (.path observer)) → observer.rest ≠ [] →
        (subscription, .value (.path observer)) ∈ pending →
          (subscription, .value (.path observer)) ∈ pending')
    (lists : ∀ subscription ∈ node.ledger, ∀ render list,
      world.data.Holds subscription (.change (.splice render list)) →
        ((subscription, .change (.splice render list)) ∈ pending ↔
          (subscription, .change (.splice render list)) ∈ pending'))
    (same : ∀ subscription ∈ node.ledger, ∀ render list,
      (subscription, .change (.splice render list)) ∈ pending →
        world.data.Holds subscription (.change (.splice render list)) →
          ∀ collection, subscription.source = .collection collection →
            later collection = former collection)
    (shows : ∀ slot display path, node.part.display? slot = some (display, .bound path) →
      (world.standing place id former pending owed).stale name slot →
        (world.standing place id former pending' owed').stale name slot)
    (wanted : ∀ directive shown, node.part = .switch directive shown →
      (world.standing place id former pending owed).stale name 0 →
        (world.standing place id former pending' owed').stale name 0)
    (sound : world.Sound) :
    Carries (world.standing place id former pending owed)
      (world.standing place id later pending' owed') name node where
  holds := fun _ _ _ held => held
  next := by
    intro subscription own observer held more model segment _ told
    refine ⟨?_, rfl⟩
    rintro ⟨other, listed, also⟩
    obtain rfl := sound.data.unique also held
    exact told ⟨_, next _ own _ held more listed, held⟩
  lists := by
    intro subscription own render list held collection items source here
    constructor
    · rintro ⟨other, listed, also⟩
      obtain rfl := sound.data.unique also held
      have before := (lists _ own _ _ held).2 listed
      show items = later collection
      rw [same _ own _ _ before held _ source]
      exact here.late ⟨_, before, held⟩
    · intro told
      apply here.current
      rintro ⟨other, listed, also⟩
      obtain rfl := sound.data.unique also held
      exact told ⟨_, (lists _ own _ _ held).1 listed, held⟩
  look := fun _ _ => rfl
  shows := fun slot display path shown spared =>
    ⟨fun excused => spared (shows slot display path shown excused), fun _ => rfl⟩
  wanted := fun directive shown part spared =>
    ⟨fun excused => spared (wanted directive shown part excused), fun _ wants => wants⟩

/-- Whoever is told nothing for the render can be forgotten. -/
theorem Upholds.forget {notice : Subscription × Observer}
    (upholds : world.Upholds frame task render former (notice :: pending) (notice :: pending))
    (idle : world.data.Holds notice.1 notice.2 →
      ∀ owner, notice.2.owner? ≠ some (frame.render, owner)) :
    world.Upholds frame task render former pending pending := by
  refine upholds.carry (List.Subset.refl _) (List.subset_cons_self _ _) ?_
  intro name node member
  have apart : ∀ {subscription : Subscription} {observer : Observer}, subscription ∈ node.ledger →
      world.data.Holds subscription observer → (subscription, observer) ∈ notice :: pending →
        (subscription, observer) ∈ pending := by
    intro subscription observer own held listed
    refine (List.mem_cons.1 listed).resolve_left ?_
    rintro rfl
    obtain ⟨other, also, owned⟩ := upholds.sound.held upholds.known member own
    obtain rfl := upholds.sound.data.unique held also
    exact idle held name owned
  have spares : ∀ slot,
      (world.standing render.document frame.render former (notice :: pending) (notice :: pending)).stale
        name slot → (world.standing render.document frame.render former pending pending).stale name
          slot := by
    rintro slot ⟨subscription, observer, listed, held, target⟩
    refine ⟨subscription, observer, (List.mem_cons.1 listed).resolve_left ?_, held, target⟩
    rintro rfl
    obtain ⟨owner, owned⟩ := Observer.owner?_of_target? target
    exact idle held owner owned
  apply carries_of_told
  · exact fun subscription own observer held _ listed => apart own held listed
  · exact fun subscription own _ _ held => ⟨apart own held, List.mem_cons_of_mem _⟩
  · exact fun _ _ _ _ _ _ _ _ => rfl
  · exact fun slot _ _ _ => spares slot
  · exact fun _ _ _ => spares 0
  · exact upholds.sound

/-- Whoever does not go by what it is told is not late. -/
theorem Upholds.relax {notice : Subscription × Observer}
    (upholds : world.Upholds frame task render former (notice :: pending) owed)
    (still : ¬ notice.2.Steers) : world.Upholds frame task render former pending owed := by
  refine upholds.carry (List.subset_of_cons_subset upholds.among) (List.Subset.refl _) ?_
  intro name node member
  apply carries_of_told
  · intro subscription _ observer _ more listed
    refine (List.mem_cons.1 listed).resolve_left ?_
    rintro rfl
    exact still more
  · intro subscription _ render list _
    refine ⟨fun listed => (List.mem_cons.1 listed).resolve_left ?_, List.mem_cons_of_mem _⟩
    rintro rfl
    exact still trivial
  · exact fun _ _ _ _ _ _ _ _ => rfl
  · exact fun _ _ _ _ => id
  · exact fun _ _ _ => id
  · exact upholds.sound

/-- It does not matter what lists have shown formerly, unless they are pending. -/
theorem Upholds.reform (upholds : world.Upholds frame task render former pending owed)
    (same : ∀ subscription list, (subscription, .change (.splice frame.render list)) ∈ pending →
      world.data.Holds subscription (.change (.splice frame.render list)) →
        ∀ collection, subscription.source = .collection collection →
          later collection = former collection) :
    world.Upholds frame task render later pending owed := by
  refine upholds.carry upholds.among (List.Subset.refl _) ?_
  intro name node member
  apply carries_of_told
  · exact fun _ _ _ _ _ => id
  · exact fun _ _ _ _ _ => .rfl
  · intro subscription own render list listed held
    obtain ⟨other, also, owned⟩ := upholds.sound.held upholds.known member own
    obtain rfl := upholds.sound.data.unique held also
    obtain ⟨rfl, rfl⟩ : render = frame.render ∧ list = name := by simpa [Observer.owner?] using owned
    exact same _ _ listed held
  · exact fun _ _ _ _ => id
  · exact fun _ _ _ => id
  · exact upholds.sound

/-- Another render has reacted. -/
theorem Upholds.aside {other : RenderId}
    (upholds : world.Upholds frame task render former pending owed)
    (concerns : world.Concerns after other) (differs : other ≠ frame.render) :
    after.Upholds frame task render former pending owed := by
  have known := (concerns.there _ (Ne.symm differs)).trans upholds.known
  have tidy := concerns.kept.sound
  have sound := upholds.sound
  have agrees := concerns.kept.agrees
  obtain ⟨_, _, own⟩ := sound.renders _ render upholds.known
  have early : ∀ subscription observer, (subscription, observer) ∈ owed →
      after.data.Holds subscription observer → world.data.Holds subscription observer :=
    fun subscription observer listed held =>
      concerns.data.holds _ _ held (upholds.issued _ listed)
  -- Whatever is registered for the render stays so.
  have kept : ∀ subscription observer owner, observer.owner? = some (frame.render, owner) →
      world.data.Holds subscription observer → after.data.Holds subscription observer := by
    intro subscription observer owner owned held
    obtain ⟨node, member, mine⟩ := sound.owned upholds.known held owned
    obtain ⟨also, there, _⟩ := tidy.held known member mine
    obtain rfl := sound.data.unique held (concerns.data.holds _ _ there (sound.data.below _ _ held))
    exact there
  refine ⟨tidy, known, ?_, upholds.label, upholds.limit, upholds.among, ?_, ?_⟩
  · rw [← upholds.registry, World.registry, concerns.registries]
    rfl
  · exact fun notice member => (upholds.issued notice member).trans_le (concerns.data.numbers _)
  · apply upholds.fits.carry
    intro name node member
    have mine : ∀ subscription ∈ node.ledger, ∀ observer,
        world.data.Holds subscription observer → after.data.Holds subscription observer := by
      intro subscription listed observer held
      obtain ⟨also, there, owned⟩ := sound.held upholds.known member listed
      obtain rfl := sound.data.unique held there
      exact kept _ _ _ owned held
    have stale : ∀ slot, (world.standing render.document frame.render former pending owed).stale name
        slot → (after.standing render.document frame.render former pending owed).stale name slot := by
      rintro slot ⟨subscription, observer, listed, held, target⟩
      obtain ⟨owner, owned⟩ := Observer.owner?_of_target? target
      exact ⟨subscription, observer, listed, kept _ _ _ owned held, target⟩
    refine carries_of_agrees agrees mine (fun _ _ _ waiting _ => waiting) ?_ ?_ stale
    · exact fun subscription _ observer waiting held =>
        ⟨waiting, early _ _ (upholds.among waiting) held⟩
    · intro dom shown
      obtain ⟨document, stored, _⟩ := tidy.renders _ render known
      obtain ⟨created, _⟩ := sound.dom_inside upholds.known member shown
      obtain ⟨_, inside⟩ := tidy.dom_inside known member shown
      obtain ⟨found, there⟩ := Option.isSome_iff_exists.1
        (Forest.label?_isSome_iff.2 (inside document stored))
      have now : (after.document render.document).data? dom = some found := by
        rw [document_eq stored]
        exact there
      exact now.trans
        (concerns.looks _ render (Ne.symm differs) upholds.known dom created found now).symm

/-! ## Changes from outside -/

/-- The data of a world move on, and what has changed on some channels is going to be announced there.
Nobody of a render who is still to be told something else goes by what is announced there. -/
structure Unsettling (world : World Client) (data : Data) (id : RenderId) (touched : Source → Prop)
    (pending fresh : Notices) : Prop where
  moves : world.data.Moves data
  recalls : world.data.Recalls data
  alters : world.data.Alters data touched
  told : ∀ subscription observer, data.Holds subscription observer → touched subscription.source →
    (subscription, observer) ∈ fresh
  only : ∀ subscription observer, (subscription, observer) ∈ fresh →
    touched subscription.source ∧ data.Holds subscription observer
  turn : ∀ subscription observer owner, (subscription, observer) ∈ pending →
    world.data.Holds subscription observer → observer.owner? = some (id, owner) → observer.Steers →
      ¬ touched subscription.source

section Unsettling

variable {data : Data} {touched : Source → Prop} {fresh : Notices} {subscription : Subscription}
  {observer : Observer}

theorem Unsettling.held (unsettling : world.Unsettling data id touched pending fresh)
    (there : world.data.Holds subscription observer) (owned : observer.owner? ≠ none) :
    data.Holds subscription observer :=
  (unsettling.moves.owned _ _ owned).2 there

/-- An observer of a render that is not told now was not to be told before, and it is registered
elsewhere. -/
theorem Unsettling.spared (unsettling : world.Unsettling data id touched pending fresh)
    (sound : world.Sound) (there : world.data.Holds subscription observer)
    (owned : observer.owner? ≠ none) (absent : (subscription, observer) ∉ fresh ++ pending) :
    ¬ touched subscription.source ∧
      ∀ other, (subscription, other) ∈ pending → ¬ world.data.Holds subscription other := by
  constructor
  · exact fun here => absent (List.mem_append_left _
      (unsettling.told _ _ (unsettling.held there owned) here))
  · intro other listed also
    obtain rfl := sound.data.unique also there
    exact absent (List.mem_append_right _ listed)

/-- What a list shows are still the items of its collection, or those that it had before the first
change that the list has still to be told. -/
theorem Unsettling.lists (unsettling : world.Unsettling data id touched pending fresh)
    (sound : world.Sound)
    (same : ∀ collection, ¬ touched (.collection collection) →
      later collection = former collection)
    (now : ∀ collection, touched (.collection collection) →
      later collection = world.data.contents.items collection)
    {list : BoundId} {collection : CollectionId} {items : List Value}
    (there : world.data.Holds subscription (.change (.splice id list)))
    (source : subscription.source = .collection collection)
    (lists : (world.standing place id former pending owed).Lists subscription collection items) :
    (World.standing { world with data } place id later (fresh ++ pending) owed').Lists subscription
      collection items := by
  have owned : (Observer.change (.splice id list)).owner? ≠ none := by simp [Observer.owner?]
  have still := unsettling.held there owned
  have inside := there.hasSource
  rw [source] at inside
  constructor
  · rintro ⟨other, listed, also⟩
    obtain rfl := unsettling.moves.sound.unique also still
    show items = later collection
    by_cases touch : touched (.collection collection)
    · rw [now _ touch]
      apply lists.current
      rintro ⟨before, waiting, earlier⟩
      obtain rfl := sound.data.unique earlier there
      exact unsettling.turn _ _ list waiting there rfl trivial (source ▸ touch)
    · rw [same _ touch]
      refine lists.late ⟨_, (List.mem_append.1 listed).resolve_left ?_, there⟩
      exact fun new => touch (source ▸ (unsettling.only _ _ new).1)
  · intro quiet
    have absent : (subscription, .change (.splice id list)) ∉ fresh ++ pending :=
      fun listed => quiet ⟨_, listed, still⟩
    obtain ⟨away, free⟩ := unsettling.spared sound there owned absent
    show items = data.contents.items collection
    rw [unsettling.alters.items _ inside (source ▸ away)]
    refine lists.current ?_
    rintro ⟨other, listed, also⟩
    exact free other listed also

theorem Unsettling.unsettles (unsettling : world.Unsettling data frame.render touched pending fresh)
    (sound : world.Sound)
    (same : ∀ collection, ¬ touched (.collection collection) →
      later collection = former collection)
    (now : ∀ collection, touched (.collection collection) →
      later collection = world.data.contents.items collection) :
    (world.standing place frame.render former pending pending).Unsettles frame
      (World.standing { world with data } place frame.render later (fresh ++ pending)
        (fresh ++ pending)) := by
  have targeted : ∀ {observer : Observer} {name : BoundId} {slot : Nat},
      observer.target? = some (frame.render, name, slot) → observer.owner? ≠ none := by
    intro observer name slot target
    obtain ⟨owner, owned⟩ := Observer.owner?_of_target? target
    simp [owned]
  -- An observer to which nothing is owed is registered elsewhere.
  have away : ∀ {name : BoundId} {slot : Nat} {subscription : Subscription} {observer : Observer},
      ¬ (World.standing { world with data } place frame.render later (fresh ++ pending)
          (fresh ++ pending)).stale name slot → world.data.Holds subscription observer →
        observer.target? = some (frame.render, name, slot) → ¬ touched subscription.source := by
    intro name slot subscription observer quiet there target
    refine (unsettling.spared sound there (targeted target) fun listed => ?_).1
    exact quiet ⟨_, _, listed, unsettling.held there (targeted target), target⟩
  constructor
  · exact fun _ _ owned there => unsettling.held there owned
  · rfl
  · intro subscription observer there _ _ quiet
    have owned : (Observer.value (.path observer)).owner? ≠ none := by simp [Observer.owner?]
    have absent : (subscription, .value (.path observer)) ∉ fresh ++ pending := fun listed =>
      quiet ⟨_, listed, unsettling.held there owned⟩
    obtain ⟨away, free⟩ := unsettling.spared sound there owned absent
    refine ⟨?_, ?_⟩
    · rintro ⟨other, listed, also⟩
      exact free other listed also
    intro model segment source
    refine unsettling.alters.values model segment ?_ (source ▸ away)
    have inside := there.hasSource
    rwa [source] at inside
  · exact fun _ _ _ _ there source => unsettling.lists sound same now there source
  · rintro name slot quiet ⟨subscription, observer, listed, there, target⟩
    exact quiet ⟨_, _, List.mem_append_right _ listed, unsettling.held there (targeted target), target⟩
  · rintro name slot quiet subscription observer there target ⟨other, listed, also⟩
    obtain rfl := sound.data.unique also there
    exact quiet ⟨_, _, List.mem_append_right _ listed, unsettling.held there (targeted target), target⟩
  · intro name slot quiet subscription observer there target model segment source
    have apart := away quiet there target
    have inside := there.hasSource
    rw [source] at inside apart
    exact ⟨unsettling.alters.values model segment inside apart,
      unsettling.alters.formatters model inside⟩
  · intro name slot quiet subscription observer there target collection source
    have apart := away quiet there target
    have inside := there.hasSource
    rw [source] at inside apart
    exact unsettling.alters.items collection inside apart

/-- Whoever is registered where something has changed is still to be told. -/
theorem Upholds.unsettle (upholds : world.Upholds frame task render former pending pending)
    (unsettling : world.Unsettling data frame.render touched pending fresh)
    (same : ∀ collection, ¬ touched (.collection collection) →
      later collection = former collection)
    (now : ∀ collection, touched (.collection collection) →
      later collection = world.data.contents.items collection) :
    World.Upholds { world with data } frame task render later (fresh ++ pending)
      (fresh ++ pending) where
  sound := (upholds.sound.moved unsettling.moves).sound
  known := upholds.known
  registry := upholds.registry
  label := upholds.label
  limit := upholds.limit
  among := List.Subset.refl _
  issued := by
    rintro ⟨subscription, observer⟩ member
    rcases List.mem_append.1 member with new | old
    · exact unsettling.moves.sound.below _ _ (unsettling.only _ _ new).2
    · exact (upholds.issued _ old).trans_le (unsettling.recalls.numbers _)
  fits := upholds.fits.changed (unsettling.unsettles upholds.sound same now)

end Unsettling

end World

end LiveTemplate
