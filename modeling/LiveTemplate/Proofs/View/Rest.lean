import LiveTemplate.Proofs.Bound.Solid
import LiveTemplate.Proofs.Upkeep.Runs
import LiveTemplate.Proofs.View.Invariance
import LiveTemplate.Proofs.View.LeakFreedom
import LiveTemplate.Proofs.View.Variation

/-!
# Reactions that disturb nothing

To follow a path anew exchanges nodes that watch it, and to bring a text or an attribute up to date
changes one document node.  A condition that decides as it last did is left alone.  So a reaction
disturbs a render only if a directive has to show something else.
-/

namespace LiveTemplate

open Template (Path)

/-! ## Values that persist -/

namespace Data

variable {data other last : Data}

/-- Whatever was there still has the values and the items that it had. -/
structure Persists (data other : Data) : Prop where
  models : data.models.next ≤ other.models.next
  collections : data.collections.next ≤ other.collections.next
  alters : data.Alters other fun _ => False

theorem Persists.refl (data : Data) : data.Persists data :=
  ⟨le_rfl, le_rfl, (Agrees.refl data).alters⟩

theorem Persists.of_agrees (agrees : data.Agrees other) : data.Persists other :=
  ⟨agrees.models.ge, agrees.collections.ge, agrees.alters⟩

theorem Persists.trans (first : data.Persists other) (second : other.Persists last) :
    data.Persists last where
  models := first.models.trans second.models
  collections := first.collections.trans second.collections
  alters := by
    constructor
    · intro model segment inside spared
      exact (second.alters.values model segment (inside.trans_le first.models) spared).trans
        (first.alters.values model segment inside spared)
    · intro model inside
      exact (second.alters.formatters model (inside.trans_le first.models)).trans
        (first.alters.formatters model inside)
    · intro collection inside spared
      exact (second.alters.items collection (inside.trans_le first.collections) spared).trans
        (first.alters.items collection inside spared)

theorem Persists.follow (persists : data.Persists other) (sound : data.Sound) {model : ModelId}
    (inside : model.index < data.models.next) (segments : List String) :
    other.follow model segments = data.follow model segments ∧
      ∀ holder, data.follow model segments = some holder → holder.index < data.models.next := by
  induction segments generalizing model with
  | nil =>
      refine ⟨rfl, fun holder reached => ?_⟩
      obtain rfl := Option.some.inj reached
      exact inside
  | cons segment later induction =>
      rw [Data.follow, Data.follow, persists.alters.values model segment inside not_false]
      cases found : data.get model segment with
      | model next =>
          have refers := sound.values model segment
          rw [found] at refers
          exact induction refers.model_lt
      | _ => exact ⟨rfl, fun _ reached => by cases reached⟩

/-- A condition is decided as before. -/
theorem Persists.decision (persists : data.Persists other) (sound : data.Sound) {model : ModelId}
    (inside : model.index < data.models.next) (rule : Template.Rule) (path : Path) :
    Site.decision other.contents rule (other.resolveRaw model path) =
      Site.decision data.contents rule (data.resolveRaw model path) := by
  have raw : other.resolveRaw model path = data.resolveRaw model path := by
    obtain ⟨same, reaches⟩ := persists.follow sound inside path.init
    rw [resolveRaw, resolveRaw, same]
    cases reached : data.follow model path.init with
    | none => rfl
    | some holder => exact persists.alters.values holder path.last (reaches holder reached) not_false
  have truth : (data.resolveRaw model path).isTruthy other.contents =
      (data.resolveRaw model path).isTruthy data.contents := by
    have refers := sound.resolveRaw_refers model path
    cases found : data.resolveRaw model path with
    | collection collection =>
        rw [found] at refers
        rw [Value.isTruthy, Value.isTruthy,
          persists.alters.items collection refers.collection_lt not_false]
    | _ => rfl
  rw [raw]
  cases rule with
  | showIf | showUnless => rw [Site.decision, Site.decision, truth]
  | _ => rfl

end Data

open BoundForest (skeleton shown solid AllWatch AllRegular)

/-- The directive that a part is, and the decision that was last taken for it. -/
def Part.switch? : Part → Option (Directive × Option Bool)
  | .switch directive shown => some (directive, shown)
  | .element _ | .text _ | .list .. | .group | .watch _ | .view _ => none

theorem Part.eq_switch_of_switch? {part : Part} {directive : Directive} {shown : Option Bool}
    (found : part.switch? = some (directive, shown)) : part = .switch directive shown := by
  cases part with
  | switch other decision =>
      obtain ⟨rfl, rfl⟩ := Prod.mk.inj (Option.some.inj found)
      rfl
  | _ => cases found

/-- A render has the bound nodes that it had, each in its place, apart from those that watch paths, and
no document node has been created for it. -/
structure Render.Stays (render changed : Render) : Prop where
  same : changed.Continues render
  created : changed.created = render.created
  bound : solid changed.tree.nodes = solid render.tree.nodes

theorem Render.Stays.refl (render : Render) : render.Stays render :=
  ⟨.refl render, rfl, rfl⟩

theorem Render.Stays.trans {first second third : Render} (early : first.Stays second)
    (later : second.Stays third) : first.Stays third :=
  ⟨later.same.trans early.same, later.created.trans early.created, later.bound.trans early.bound⟩

namespace World

variable {Client : Type} {world middle after : World Client} {id : RenderId}
  {render changed : Render} {behaviour : Behaviour Client} {observer : PathObserver} {value : Value}
  {calm : RenderId → Prop} {touched : RenderId → NodeId → Display → Prop}

/-- Of some renders it is known that nothing need be disturbed in them: their bound nodes stay, and
their document nodes vary where they are touched.  A document in which there are no others varies as a
whole. -/
structure Rests (calm : RenderId → Prop) (touched : RenderId → NodeId → Display → Prop)
    (world after : World Client) : Prop where
  homes : ∀ id, (after.render? id).map (·.document) = (world.render? id).map (·.document)
  renders : ∀ id render, calm id → world.render? id = some render →
    ∃ changed, after.render? id = some changed ∧ render.Stays changed
  data : ∀ id render, calm id → world.render? id = some render → ∀ dom ∈ render.created,
    Option.Rel (NodeData.Varies (touched id dom)) ((world.document render.document).data? dom)
      ((after.document render.document).data? dom)
  documents : ∀ place,
    (∀ id render, world.render? id = some render → render.document = place → calm id) →
    (world.document place).Varies (fun dom display => ∃ id render, world.render? id = some render ∧
      render.document = place ∧ touched id dom display) (after.document place)

theorem Rests.of_nodes (renders : ∀ id, after.render? id = world.render? id)
    (nodes : ∀ place, (after.document place).nodes = (world.document place).nodes) :
    Rests calm touched world after where
  homes := fun id => by rw [renders id]
  renders := fun id render _ known => ⟨render, (renders id).trans known, .refl render⟩
  data := by
    intro id render _ _ dom _
    rw [Document.data?, Document.data?, nodes]
    exact NodeData.Varies.rel_refl ..
  documents := fun place _ => .of_nodes _ (nodes place)

theorem Rests.refl (calm : RenderId → Prop) (touched : RenderId → NodeId → Display → Prop)
    (world : World Client) : Rests calm touched world world :=
  .of_nodes (fun _ => rfl) fun _ => rfl

/-- A render is in the document that it was in. -/
theorem Rests.home (rests : Rests calm touched world after) (known : after.render? id = some changed) :
    ∃ render, world.render? id = some render ∧ render.document = changed.document := by
  have same := rests.homes id
  rw [known, Option.map_some, eq_comm] at same
  exact Option.map_eq_some_iff.1 same

theorem Rests.trans (first : Rests calm touched world middle)
    (second : Rests calm touched middle after) : Rests calm touched world after where
  homes := fun id => (second.homes id).trans (first.homes id)
  renders := by
    intro id render quiet known
    obtain ⟨current, there, stays⟩ := first.renders id render quiet known
    obtain ⟨changed, here, also⟩ := second.renders id current quiet there
    exact ⟨changed, here, stays.trans also⟩
  data := by
    intro id render quiet known dom made
    obtain ⟨current, there, stays⟩ := first.renders id render quiet known
    have later := second.data id current quiet there dom (stays.created ▸ made)
    rw [stays.same.document] at later
    exact NodeData.Varies.rel_trans (first.data id render quiet known dom made) later
  documents := by
    intro place all
    have early := first.documents place all
    have later := second.documents place fun id changed there home => by
      obtain ⟨render, known, same⟩ := first.home there
      exact all id render known (same.trans home)
    refine early.trans (later.mono ?_)
    rintro dom display ⟨id, changed, there, home, touch⟩
    obtain ⟨render, known, same⟩ := first.home there
    exact ⟨id, render, known, same.trans home, touch⟩

/-- One render stays, and its document varies. -/
theorem Rests.of_stays {touches : NodeId → Display → Prop} (sound : world.Sound)
    (known : world.render? id = some render) (here : after.render? id = some changed)
    (there : ∀ other, other ≠ id → after.render? other = world.render? other)
    (stays : render.Stays changed)
    (varies : ∀ place, (world.document place).Varies
      (fun dom display => render.document = place ∧ touches dom display) (after.document place))
    (own : ∀ dom display, touches dom display → dom ∈ render.created)
    (may : ∀ dom display, calm id → touches dom display → touched id dom display) :
    Rests calm touched world after where
  homes := by
    intro other
    by_cases same : other = id
    · subst same
      rw [here, known, Option.map_some, Option.map_some, stays.same.document]
    · rw [there other same]
  renders := by
    intro other another quiet also
    by_cases same : other = id
    · subst same
      obtain rfl := Option.some.inj (known.symm.trans also)
      exact ⟨changed, here, stays⟩
    · exact ⟨another, (there other same).trans also, .refl another⟩
  data := by
    intro other another quiet also dom made
    refine NodeData.Varies.rel_mono ((varies another.document).data dom) fun display touch => ?_
    by_cases same : other = id
    · subst same
      exact may dom display quiet touch.2
    · exact (sound.apart other id another render same also known touch.1.symm made
        (own dom display touch.2)).elim
  documents := by
    intro place all
    refine (varies place).mono fun dom display touch => ?_
    exact ⟨id, render, known, touch.1, may dom display (all id render known touch.1) touch.2⟩

/-- One render stays, and no document is concerned. -/
theorem Rests.of_bound (sound : world.Sound) (known : world.render? id = some render)
    (here : after.render? id = some changed)
    (there : ∀ other, other ≠ id → after.render? other = world.render? other)
    (stays : render.Stays changed)
    (nodes : ∀ place, (after.document place).nodes = (world.document place).nodes) :
    Rests calm touched world after := by
  have varies : ∀ place, (world.document place).Varies
      (fun _ _ => render.document = place ∧ False) (after.document place) :=
    fun place => .of_nodes _ (nodes place)
  exact .of_stays sound known here there stays varies (fun _ _ => False.elim) fun _ _ _ => False.elim

/-- Whether a node that was created for a render is there depends on its bound nodes. -/
theorem Sound.data?_isSome_iff (sound : world.Sound) (known : world.render? id = some render)
    {dom : NodeId} (made : dom ∈ render.created) :
    ((world.document render.document).data? dom).isSome = true ↔
      dom ∈ (skeleton render.tree.nodes).names := by
  obtain ⟨document, stored, own⟩ := sound.renders id render known
  rw [document_eq stored, Document.data?, Forest.label?_isSome_iff]
  constructor
  · exact own.mirrors.present dom made
  · exact fun member => own.mirrors.subset (sound.documents _ _ stored) member

/-- A render of which nothing is known goes on. -/
theorem Rests.of_progress (sound : world.Sound) (tidy : after.Sound)
    (progress : world.Progress after id render changed) (stirred : ¬ calm id) :
    Rests calm touched world after where
  homes := by
    intro other
    by_cases same : other = id
    · subst same
      rw [progress.here, progress.known, Option.map_some, Option.map_some, progress.same.document]
    · rw [progress.there other same]
  renders := by
    intro other another quiet known
    have apart : other ≠ id := fun same => stirred (same ▸ quiet)
    exact ⟨another, (progress.there other apart).trans known, .refl another⟩
  data := by
    intro other another quiet known dom made
    have apart : other ≠ id := fun same => stirred (same ▸ quiet)
    have still := (progress.there other apart).trans known
    have before := sound.data?_isSome_iff known made
    have now := tidy.data?_isSome_iff still made
    cases found : (after.document another.document).data? dom with
    | some data =>
        rw [(progress.concerns sound tidy).looks other another apart known dom made data found]
        exact .some (.refl _ data)
    | none =>
        have gone : (world.document another.document).data? dom = none := by
          rw [← Option.not_isSome_iff_eq_none, before, ← now, found]
          exact Bool.false_ne_true
        rw [gone]
        exact .none
  documents := by
    intro place all
    have away : place ≠ render.document := fun same => stirred (all id render progress.known same.symm)
    rw [progress.elsewhere place away]
    exact .of_nodes _ rfl

/-! ## A path is followed anew -/

/-- What is replaced when a path is followed anew, and what is below it, watch paths. -/
theorem Kempt.watcher? (kempt : world.Kempt) (sound : world.Sound)
    (known : world.render? id = some render) (owner : BoundId) (slot : Nat) : ∀ kid ∈ (render.tree.watcher? owner slot).toList, ∀ node below,
      Forest.Has render.tree.nodes kid node below → node.kind = .watch ∧ AllWatch below := by
  intro kid member node below there
  obtain ⟨_, _, own⟩ := sound.renders id render known
  obtain ⟨_, label, reads, part⟩ := watcher?_eq_some (Option.mem_toList.1 member)
  obtain rfl : label = node := Option.some.inj (reads.symm.trans (there.label?_eq own.distinct))
  have kind : label.kind = .watch := by simp [BoundNode.kind, HasBoundKind.kind, part, Part.kind]
  exact ⟨kind, (Forest.Everywhere.at (kempt id render known) there).watch kind⟩

/-- What watches a path has no document node. -/
theorem teardownAll_watching (sound : world.Sound) (known : world.render? id = some render)
    {kids : List BoundId} (few : kids.length ≤ 1) (spares : ∀ kid ∈ kids, world.Spares id kid)
    (watching : ∀ kid ∈ kids, ∀ node below, Forest.Has render.tree.nodes kid node below →
      node.kind = .watch) (place : DocumentId) :
    ((world.teardownAll id kids).document place).nodes = (world.document place).nodes := by
  obtain ⟨document, stored, own⟩ := sound.renders id render known
  by_cases home : place = render.document
  · subst home
    have nothing : (kids.flatMap fun kid => shown (render.tree.nodes.subtree kid)) = [] := by
      rw [List.flatMap_eq_nil_iff]
      intro kid member
      by_cases there : kid ∈ render.tree.nodes.names
      · obtain ⟨node, below, has⟩ := Forest.exists_has there
        have regular : BoundForest.Regular node below := Forest.Everywhere.at own.regular has
        simp only [BoundForest.Regular, watching kid member node below has] at regular
        rw [has.subtree_eq own.distinct, BoundForest.shown_eq_nil_iff, BoundForest.skeleton_cons,
          BoundForest.around_of_none regular.1, regular.2]
        rfl
      · rw [Forest.subtree_eq_nil_of_not_mem there]
        rfl
    rw [teardownAll_document known stored few, nothing, Forest.without_nil_names, document_eq stored]
  · rw [(teardownAll_progress sound known spares).elsewhere place home]

/-- Places are taken in a document. -/
theorem nodes_of_places {place : DocumentId} {places : Places}
    (documents : after.documents = world.documents.modify place.index fun document =>
      { document with places }) (other : DocumentId) :
    (after.document other).nodes = (world.document other).nodes := by
  rw [document, document, documents, Store.get?_modify]
  split
  · cases world.documents.get? other.index with
    | none => rfl
    | some found => rfl
  · rfl

/-- The rest of a path is followed no longer. -/
theorem unwatch_rests (sound : world.Sound) (kempt : world.Kempt)
    (known : world.render? id = some render) {owner : BoundId} {node : BoundNode Part}
    {below : Bindings} (has : Forest.Has render.tree.nodes owner node below) (slot : Nat) :
    Rests calm touched world (world.teardownAll id (render.tree.watcher? owner slot).toList) := by
  have replaced := sound.watcher? known has slot
  have watching := kempt.watcher? sound known owner slot
  have few : (render.tree.watcher? owner slot).toList.length ≤ 1 := by
    cases render.tree.watcher? owner slot <;> simp
  generalize (render.tree.watcher? owner slot).toList = kids at replaced watching few ⊢
  have spares := fun kid member => (replaced kid member).2
  have progress := teardownAll_progress sound known spares
  refine .of_bound sound known progress.here progress.there ⟨progress.same, rfl, ?_⟩ ?_
  · exact BoundForest.solid_without watching
  · apply teardownAll_watching sound known few spares
    intro kid member node under there
    exact (watching kid member node under there).1

/-- The rest of a path is followed from another value on. -/
theorem link_rests (behaviour : Behaviour Client) (sound : world.Sound)
    (known : world.render? observer.render = some changed) (alike : Alike render changed)
    (scope : Scope) (refers : world.data.Refers value) :
    Rests calm touched world (world.link behaviour render observer scope value) := by
  unfold link
  rw [grow_alike alike]
  obtain ⟨later, run⟩ := exists_grown behaviour world observer.render changed fun site =>
    site.watch observer.root observer.slot scope value observer.rest
  obtain ⟨grows, _⟩ := Site.watch_grows run.runs sound.data refers
  have watching := Site.watch_watches run.runs
  have progress := @Grown.graft_progress _ _ _ _ _ _ _ observer.owner _ _ run sound known grows
  have nodes := @nodes_of_places _ world _ _ _ run.documents
  refine .of_bound sound known progress.here progress.there ⟨progress.same, rfl, ?_⟩ nodes
  show solid (Forest.modifyUnder changed.tree.nodes _ _) = _
  rw [Forest.modifyUnder_eq_edit]
  apply BoundForest.solid_edit
  intro node below _
  rw [BoundForest.solid_append, watching.solid_eq_nil, Forest.append_nil]

theorem relink_rests (behaviour : Behaviour Client) (sound : world.Sound) (kempt : world.Kempt)
    (observer : PathObserver) (refers : world.data.Refers value) :
    Rests calm touched world (world.relink behaviour observer value) := by
  unfold relink
  split
  · rename_i render owner known found
    obtain ⟨_, below, also, distinct, has⟩ := bound?_has sound found
    obtain rfl := Option.some.inj (known.symm.trans also)
    have spares := fun kid member => (sound.watcher? known has observer.slot kid member).2
    have torn := teardownAll_kept sound spares
    have progress := teardownAll_progress sound known spares
    apply (unwatch_rests sound kempt known has observer.slot).trans
    exact link_rests behaviour torn.sound progress.here ⟨rfl, rfl, rfl, rfl⟩ owner.scope
      (torn.agrees.refers.2 refers)
  · exact .refl ..

/-! ## What is shown is brought up to date -/

/-- If a directive follows the path, it is a condition, and it decides as it last did. -/
def Calm (world : World Client) (observer : PathObserver) : Prop :=
  ∀ node directive shown, world.bound? observer.render observer.root = some node →
    node.part.switch? = some (directive, shown) → ∃ decision, shown = some decision ∧
      Site.decision world.data.contents directive.rule
        (world.data.resolveRaw node.scope.model directive.path) = some decision

/-- Where a document node shows the value of the path. -/
def Touches (world : World Client) (observer : PathObserver) (dom : NodeId) (display : Display) :
    Prop :=
  ∃ node path, world.bound? observer.render observer.root = some node ∧ node.dom = some dom ∧
    node.part.shown? observer.slot = some (path, display)

theorem rebuild_rests (behaviour : Behaviour Client) (sound : world.Sound)
    (quiet : calm observer.render → world.Calm observer) :
    Rests calm touched world (world.rebuild behaviour observer.render observer.root) := by
  have tidy := (rebuild_kept behaviour sound observer.render observer.root).sound
  by_cases known : calm observer.render
  · unfold rebuild
    split
    · rename_i render directive shown anchor ledger scope there found
      obtain ⟨decision, rfl, same⟩ := quiet known _ _ _ found rfl
      dsimp only at same ⊢
      rw [same, if_pos (by simp)]
      exact .refl ..
    · exact .refl ..
  · rcases rebuild_cases behaviour sound observer.render observer.root with
      same | ⟨_, _, _, _, _, _, _, there, has⟩
    · rw [same]
      exact .refl ..
    · obtain ⟨_, _, unchanged | ⟨_, _, progress, _⟩⟩ := rebuild_stages behaviour sound there has
      · rw [unchanged.1]
        exact .refl ..
      · exact .of_progress sound tidy progress known

theorem show_varies {place : DocumentId} {document : Document}
    (stored : world.documents.get? place.index = some document) (dom : NodeId) (display : Display)
    (contents : Contents) (value : Value) (other : DocumentId) : (world.document other).Varies
      (fun name kind => place = other ∧ name = dom ∧ kind = display)
      ((world.modifyDocument place (·.modify dom (display.show contents value))).document other) := by
  have edited : (world.modifyDocument place (·.modify dom (display.show contents value))).documents =
      world.documents.modify place.index fun _ => document.modify dom (display.show contents value) :=
    Store.modify_congr stored rfl
  rw [document_modify stored edited]
  split
  · rename_i home
    rw [home, document_eq stored]
    exact .of_modify ⟨rfl, rfl, rfl⟩ contents value
  · exact .of_nodes _ rfl

theorem refresh_rests (behaviour : Behaviour Client) (sound : world.Sound)
    (quiet : calm observer.render → world.Calm observer)
    (may : ∀ dom display, calm observer.render → world.Touches observer dom display →
      touched observer.render dom display) :
    Rests calm touched world
      (world.refresh behaviour observer.render observer.root observer.slot) := by
  unfold refresh
  split
  · rename_i render node known found
    split
    · rename_i path display dom shows own
      obtain ⟨_, below, also, _, has⟩ := bound?_has sound found
      obtain rfl := Option.some.inj (known.symm.trans also)
      obtain ⟨document, stored, _⟩ := sound.renders _ render known
      have varies := show_varies stored dom display world.data.contents
        (world.data.resolve node.scope.model path)
      refine .of_stays sound known known (fun _ _ => rfl) (.refl render) varies ?_ ?_
      · rintro other kind ⟨rfl, rfl⟩
        exact (sound.dom_inside known has.mem_entries own).1
      · rintro other kind quiet ⟨rfl, rfl⟩
        exact may other kind quiet ⟨node, path, found, own, shows⟩
    · split
      · exact rebuild_rests behaviour sound quiet
      · exact .refl ..
  · exact .refl ..

/-! ## Where nothing need be disturbed, it stays so -/

theorem Rests.bound? (rests : Rests calm touched world after) (sound : world.Sound) (tidy : after.Sound)
    (quiet : calm id) {name : BoundId} {node : BoundNode Part}
    (found : after.bound? id name = some node) (other : node.kind ≠ .watch) : world.bound? id name = some node := by
  obtain ⟨changed, _, here, _, has⟩ := bound?_has tidy found
  obtain ⟨render, known, _⟩ := rests.home here
  obtain ⟨_, also, stays⟩ := rests.renders id render quiet known
  obtain rfl := Option.some.inj (here.symm.trans also)
  rw [bound?_iff sound known]
  have solid := BoundForest.mem_solid.2 ⟨has.mem_entries, other⟩
  rw [stays.bound] at solid
  exact (BoundForest.mem_solid.1 solid).1

theorem Rests.calms (rests : Rests calm touched world after) (sound : world.Sound) (tidy : after.Sound)
    (persists : world.data.Persists after.data) (quiet : calm observer.render)
    (was : world.Calm observer) : after.Calm observer := by
  intro node directive shown found part
  have before := rests.bound? sound tidy quiet found
    (by simp [BoundNode.kind, HasBoundKind.kind, Part.eq_switch_of_switch? part, Part.kind])
  obtain ⟨decision, same, decides⟩ := was node directive shown before part
  obtain ⟨render, below, known, _, has⟩ := bound?_has sound before
  obtain ⟨_, _, own⟩ := sound.renders _ render known
  refine ⟨decision, same, ?_⟩
  rw [persists.decision sound.data (own.scopes _ has.mem_entries)]
  exact decides

theorem Rests.touches (rests : Rests calm touched world after) (sound : world.Sound)
    (tidy : after.Sound) (quiet : calm observer.render) {dom : NodeId} {display : Display}
    (touch : after.Touches observer dom display) : world.Touches observer dom display := by
  obtain ⟨node, path, found, own, shows⟩ := touch
  refine ⟨node, path, rests.bound? sound tidy quiet found ?_, own, shows⟩
  intro watch
  obtain ⟨part, _, _, _⟩ := node
  cases part with
  | watch slot => cases shows
  | _ => cases watch

theorem react_rests (behaviour : Behaviour Client) (sound : world.Sound) (kempt : world.Kempt)
    (refers : world.data.Refers value) (quiet : calm observer.render → world.Calm observer)
    (may : ∀ dom display, calm observer.render → world.Touches observer dom display →
      touched observer.render dom display) :
    Rests calm touched world (world.react behaviour observer value) := by
  unfold react
  split
  · dsimp only
    split
    · exact refresh_rests behaviour sound quiet may
    · have kept := relink_kept behaviour sound observer refers
      have first : Rests calm touched world _ := relink_rests behaviour sound kempt observer refers
      have persists := Data.Persists.of_agrees kept.agrees
      apply first.trans
      apply refresh_rests behaviour kept.sound
      · exact fun known => first.calms sound kept.sound persists known (quiet known)
      · exact fun dom display known touch =>
          may dom display known (first.touches sound kept.sound known touch)
  · exact .refl ..

end World

end LiveTemplate
