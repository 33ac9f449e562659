import LiveTemplate.Proofs.View.Reactions
import LiveTemplate.View.Mount

/-!
# Mounting keeps the world sound

A template that has been built becomes a sound render of its own.  If building fails, the
registrations that were made end again and no document node comes into the document.
-/

namespace LiveTemplate.World

open BoundForest (account skeleton shown AllRegular)

variable {Client : Type} {world after : World Client}

/-- The place in the world that the next render gets. -/
def nextRender (world : World Client) : RenderId := ⟨world.renders.next⟩

theorem Sound.balanced_nextRender (sound : world.Sound) :
    world.data.Balanced world.nextRender [] where
  distinct := .nil
  held := by simp
  complete := by
    intro subscription observer owner holds owned
    have bound := sound.owners _ _ _ _ holds owned
    simp [nextRender] at bound

/-- What has to be checked when a render comes. -/
structure Adds (world after : World Client) (render : Render) (document edited : Document) :
    Prop where
  stored : world.documents.get? render.document.index = some document
  data : after.data.Sound
  models : world.data.models.next ≤ after.data.models.next
  others : ∀ other account, other ≠ world.nextRender → world.data.Balanced other account →
    after.data.Balanced other account
  owners : ∀ subscription observer, after.data.Holds subscription observer →
    world.data.Holds subscription observer ∨
      ∃ owner, observer.owner? = some (world.nextRender, owner)
  tidy : edited.Sound
  aside : ∀ node created skeleton, document.Mirrors node created skeleton →
    edited.Mirrors node created skeleton
  created : ∀ node ∈ render.created, ¬ document.places.Issued node
  sound : render.Sound world.nextRender after.data edited
  documents : after.documents = world.documents.modify render.document.index fun _ => edited
  renders : after.renders = world.renders.add render

theorem Sound.of_adds {render : Render} {document edited : Document} (sound : world.Sound)
    (adds : world.Adds after render document edited) : after.Sound := by
  have updates : world.Updates after world.nextRender render document edited :=
    { stored := adds.stored
      data := adds.data
      models := adds.models
      others := adds.others
      owners := adds.owners
      tidy := adds.tidy
      documents := adds.documents
      here := by
        rw [render?, adds.renders, Store.get?_add, nextRender, if_pos rfl]
      there := by
        intro other differs
        have apart : other.index ≠ world.renders.next := fun same =>
          differs (by cases other; simp_all [nextRender])
        rw [render?, adds.renders, Store.get?_add, if_neg apart, render?]
      next := by
        rw [adds.renders, Store.next_add]
        exact Nat.le_succ _
      apart := by
        intro other another _ there shared node made also
        obtain ⟨held, stored, old⟩ := sound.renders other another there
        have both := adds.stored
        rw [shared, stored] at both
        obtain rfl : held = document := Option.some.inj both
        exact adds.created node made (old.mirrors.issued node also)
      aside := fun _ _ _ _ _ mirrors => adds.aside _ _ _ mirrors
      sound := adds.sound }
  exact sound.of_updates updates

/-- A page with the shape of one tree is one tree. -/
theorem exists_tree {page : Forest NodeId NodeData} {node : NodeId} {below : Forest NodeId Unit}
    (shape : page.shape = .cons node () below .nil) :
    ∃ data inner, page = .cons node data inner .nil ∧ inner.shape = below := by
  cases page with
  | nil => cases shape
  | cons name data inner rest =>
      rw [Forest.shape_cons, Forest.cons.injEq] at shape
      obtain ⟨rfl, _, same, last⟩ := shape
      cases rest with
      | nil => exact ⟨data, inner, rfl, same⟩
      | cons => cases last

/-- The render with all that was built for it. -/
def mounted (render : Render) (growth : Growth) (scope : Scope) (next : Nat) : Render :=
  { render with
    tree := ⟨.cons render.root { part := .group, scope } growth.bound .nil, next⟩
    created := growth.page.names }

/-- What has been made when a template was raised, and not yet been presented or abandoned. -/
structure Raised (world : World Client) (render : Render) (scope : Scope) (document : Document)
    (growth : Growth) (raised : World Client) (after : BuildState Client) : Prop where
  stored : world.documents.get? render.document.index = some document
  grows : ∃ before : BuildState Client, before.data = world.data ∧
    before.places = document.places ∧ before.nextBound = 1 ∧
    Build.Grows world.nextRender before after [] growth.page growth.bound
  top : ∃ entries ledger below, growth.bound = .cons ⟨1⟩
    { part := .element entries, dom := some render.node, ledger, scope } below .nil
  data : raised.data = after.data
  documents : raised.documents = world.documents.modify render.document.index fun _ =>
    { document with places := after.places }
  renders : raised.renders = world.renders.add (mounted render growth scope after.nextBound)
  registries : raised.registries = world.registries
  failures : raised.failures = world.failures
  root : render.root = ⟨0⟩

theorem raise_eq (behaviour : Behaviour Client) (world : World Client) (render : Render)
    (template : Template) (scope : Scope) :
    world.raise behaviour render template scope =
      let grown := { world with renders := world.renders.add render }.grow behaviour
        world.nextRender render fun site => site.node site.viewIn template.root scope
      (grown.1, grown.2.establish world.nextRender grown.1) :=
  rfl

theorem exists_raised (behaviour : Behaviour Client) (sound : world.Sound) {place : DocumentId}
    (registry : RegistryId) (config : RenderConfig) (template : Template) {scope : Scope}
    (there : place.index < world.documents.next)
    (inside : scope.model.index < world.data.models.next) :
    ∃ document after, Raised world (world.newRender place registry config scope) scope document
      (world.raise behaviour (world.newRender place registry config scope) template scope).1
      (world.raise behaviour (world.newRender place registry config scope) template scope).2
      after := by
  obtain ⟨document, stored⟩ := Option.isSome_iff_exists.1 (Store.get?_isSome_iff.2 there)
  set render := world.newRender place registry config scope with new
  obtain ⟨after, run⟩ := exists_grown behaviour
    { world with renders := world.renders.add render } world.nextRender render fun site =>
      site.node site.viewIn template.root scope
  have grows := Site.node_grows _ (fun scope => Site.view_grows _ _ scope) template.root scope _ _ _
    run.runs sound.data inside
  obtain ⟨ledger, below, top⟩ := Site.node_element_root run.runs
  have places : ({ world with renders := world.renders.add render }.buildState render).places =
      document.places :=
    congrArg Document.places (document_eq stored)
  rw [raise_eq]
  generalize grow behaviour _ _ render _ = result at run grows top ⊢
  obtain ⟨growth, grown⟩ := result
  dsimp only at run grows top ⊢
  refine ⟨document, after, stored, ⟨_, rfl, places, rfl, grows⟩, ⟨_, ledger, below, top⟩, run.data,
    ?_, ?_, run.registries, run.failures, rfl⟩
  · exact run.documents.trans (Store.modify_congr stored rfl)
  · show grown.renders.modify _ _ = _
    rw [run.renders]
    show ((world.renders.add render).modify world.renders.next _).modify world.renders.next _ = _
    rw [Store.modify_add, Store.modify_add]
    rfl

section Raised

variable {render : Render} {scope : Scope} {document : Document} {growth : Growth}
  {raised : World Client} {state : BuildState Client}

theorem Raised.fresh (run : Raised world render scope document growth raised state) :
    (∀ name, state.places.Issued name ↔ document.places.Issued name ∨ name ∈ growth.page.names) ∧
      (∀ name ∈ growth.page.names, ¬ document.places.Issued name) ∧ growth.page.names.Nodup := by
  obtain ⟨before, _, places, _, grows⟩ := run.grows
  rw [← places]
  exact ⟨grows.makes.issued, grows.makes.fresh, grows.makes.nodesDistinct⟩

theorem Raised.known (run : Raised world render scope document growth raised state) :
    raised.render? world.nextRender = some (mounted render growth scope state.nextBound) := by
  rw [render?, run.renders, Store.get?_add, nextRender, if_pos rfl]

theorem Raised.extends (run : Raised world render scope document growth raised state) :
    world.data.Extends world.nextRender raised.data (account growth.bound) := by
  obtain ⟨before, data, _, _, grows⟩ := run.grows
  rw [run.data, ← data]
  exact grows.makes.data

theorem Raised.balanced (sound : world.Sound)
    (run : Raised world render scope document growth raised state) :
    raised.data.Balanced world.nextRender (account growth.bound) := by
  simpa using sound.balanced_nextRender.extended sound.data run.extends

theorem Raised.page (run : Raised world render scope document growth raised state) :
    ∃ data inner, growth.page = .cons render.node data inner .nil ∧
      skeleton growth.bound = .cons render.node () inner.shape .nil := by
  obtain ⟨before, _, _, _, grows⟩ := run.grows
  obtain ⟨entries, ledger, below, top⟩ := run.top
  have bones : skeleton growth.bound = .cons render.node () (skeleton below) .nil := by
    simp [top, BoundNode.around, BoundNode.kind, HasBoundKind.kind, Part.kind]
  obtain ⟨data, inner, page, shape⟩ := exists_tree (grows.shape.trans bones)
  exact ⟨data, inner, page, by rw [bones, shape]⟩

/-- What is presented is a new render. -/
theorem Raised.presents (sound : world.Sound)
    (run : Raised world render scope document growth raised state)
    (inside : scope.model.index < world.data.models.next) :
    world.Adds (raised.present render growth) (mounted render growth scope state.nextBound)
      document { nodes := document.nodes ++ growth.page, places := state.places } := by
  have documentSound := sound.documents _ _ run.stored
  obtain ⟨issued, fresh, single⟩ := run.fresh
  obtain ⟨before, data, _, numbering, grows⟩ := run.grows
  obtain ⟨entries, ledger, below, top⟩ := run.top
  obtain ⟨root, inner, page, bones⟩ := run.page
  have placed : (document.nodes ++ growth.page).names.Perm
      (document.nodes.names ++ growth.page.names) := by
    rw [Forest.names_append]
  have own : Render.Sound world.nextRender (mounted render growth scope state.nextBound)
      raised.data { nodes := document.nodes ++ growth.page, places := state.places } := by
    have numbered := grows.makes.numbered
    rw [numbering] at numbered
    refine ⟨?_, ?_, .inr ⟨_, _, _, below, .nil, ⟨congrArg (Forest.cons _ _ · _) top, rfl, rfl, rfl, rfl⟩⟩,
      ⟨rfl, grows.regular, trivial⟩, ?_, ?_, ?_⟩
    · simp only [mounted, Forest.names_cons, Forest.names_nil, List.append_nil, List.nodup_cons]
      refine ⟨fun member => ?_, grows.makes.numbersDistinct⟩
      have low := (numbered _ member).1
      simp [run.root] at low
    · intro name member
      simp only [mounted, Forest.names_cons, Forest.names_nil, List.append_nil,
        List.mem_cons] at member
      have step := grows.makes.numbering
      rcases member with rfl | member
      · simp only [run.root, mounted]
        omega
      · exact (numbered name member).2
    · intro entry member
      rw [run.data, grows.agrees.models, data]
      simp only [mounted, Forest.entries, List.append_nil, List.mem_cons] at member
      rcases member with rfl | member
      · exact inside
      · exact data ▸ grows.scopes entry member
    · simpa [mounted] using run.balanced sound
    · have bound : skeleton (mounted render growth scope state.nextBound).tree.nodes =
          .cons render.node () inner.shape .nil := by
        simp [mounted, BoundNode.around, bones]
      rw [page] at issued fresh single
      rw [bound, page]
      have mirrors := Document.mirrors_added documentSound issued fresh single
      simpa only [mounted, page] using mirrors
  exact
    { stored := run.stored
      data := run.extends.sound sound.data
      models := run.extends.agrees.models.ge
      others := fun other account differs balanced => balanced.beside differs run.extends
      owners := fun subscription observer holds =>
        (run.extends.made _ _ holds).imp_right (Exists.imp fun _ => And.left)
      tidy := documentSound.grown issued fresh single placed
      aside := fun _ _ _ mirrors => mirrors.added documentSound issued fresh single
      created := fresh
      sound := own
      documents := by
        show raised.documents.modify _ _ = _
        rw [run.documents, Store.modify_modify]
        rfl
      renders := run.renders }

theorem present_sound (sound : world.Sound)
    (run : Raised world render scope document growth raised state)
    (inside : scope.model.index < world.data.models.next) :
    (raised.present render growth).Sound :=
  sound.of_adds (run.presents sound inside)

/-- What is left of a render that could not be shown is nothing. -/
theorem Raised.pruned_sound (sound : world.Sound)
    (run : Raised world render scope document growth raised state) {data : Data} {places : Places}
    (given : ∀ name, state.places.Issued name → places.Issued name)
    (cancels : raised.data.Cancels data ((account growth.bound).map Prod.fst)) :
    Render.Sound world.nextRender (pruned (mounted render growth scope state.nextBound) render.root)
      data { document with places } := by
  obtain ⟨issued, fresh, _⟩ := run.fresh
  obtain ⟨root, inner, page, _⟩ := run.page
  have absent : ∀ name ∈ growth.page.names, name ∉ document.nodes.names := fun name made inside =>
    fresh name made ((sound.documents _ _ run.stored).issued name inside)
  have empty : (pruned (mounted render growth scope state.nextBound) render.root).tree.nodes =
      .nil := by
    simp [pruned, mounted, Forest.prune]
  have made : (pruned (mounted render growth scope state.nextBound) render.root).created =
      growth.page.names := rfl
  refine ⟨?_, ?_, .inl empty, ?_, ?_, ?_, ?_⟩
  · simp [empty]
  · simp [empty]
  · rw [empty]
    trivial
  · simp [empty, Forest.entries]
  · rw [empty]
    exact ((run.balanced sound).perm (by simp)).cancelled cancels
  · rw [empty, made]
    have top : render.node ∈ growth.page.names := by simp [page]
    refine ⟨?_, by simp, fun name inside member => (absent name inside member).elim, top,
      fun name inside => given name ((issued name).2 (.inr inside))⟩
    show (document.nodes.subtree render.node).shape = .nil
    rw [Forest.subtree_eq_nil_of_not_mem (absent render.node top)]
    rfl

/-- What is given up leaves the nodes of its document as they were, and its registrations end. -/
theorem Raised.abandoned (sound : world.Sound)
    (run : Raised world render scope document growth raised state) :
    ∃ places : Places, (∀ name, places.Issued name ↔ state.places.Issued name) ∧
      (raised.abandon world.nextRender render growth).documents =
        world.documents.modify render.document.index (fun _ => { document with places }) ∧
      raised.data.Cancels (raised.abandon world.nextRender render growth).data
        ((account growth.bound).map Prod.fst) ∧
      (raised.abandon world.nextRender render growth).renders =
        world.renders.add (pruned (mounted render growth scope state.nextBound) render.root) := by
  have documentSound := sound.documents _ _ run.stored
  obtain ⟨issued, fresh, _⟩ := run.fresh
  obtain ⟨root, inner, page, bones⟩ := run.page
  have known := run.known
  have stored : raised.documents.get? render.document.index =
      some { document with places := state.places } := by
    rw [run.documents, Store.get?_modify, if_pos rfl, run.stored]
    rfl
  obtain ⟨data, documents⟩ := teardown_of_render? known render.root
  have subtree : (mounted render growth scope state.nextBound).tree.nodes.subtree render.root =
      (mounted render growth scope state.nextBound).tree.nodes := by
    simp [mounted, Forest.subtree]
  have accounts : account (mounted render growth scope state.nextBound).tree.nodes =
      account growth.bound := by
    simp [mounted]
  have cancels := Data.cancelAll_cancels raised.data (BoundForest.ledger
    ((mounted render growth scope state.nextBound).tree.nodes.subtree render.root))
  rw [← data, subtree, ← BoundForest.map_fst_account, accounts] at cancels
  have shownBound : shown (mounted render growth scope state.nextBound).tree.nodes =
      shown growth.bound := by
    simp [mounted, shown]
  have kept : document.nodes.without (shown growth.bound) = document.nodes := by
    refine Forest.without_eq_self fun name inside gone => ?_
    refine fresh name ?_ (documentSound.issued name inside)
    rw [page, ← Forest.names_shape, Forest.shape_cons, Forest.shape_nil, ← bones]
    exact BoundForest.mem_skeleton.2 gone
  refine ⟨((({ document with places := state.places } : Document).removeAll
    (shown growth.bound)).places).vacateAll (shown growth.bound), ?_, ?_, cancels, ?_⟩
  · intro name
    rw [Places.issued_vacateAll_iff, Document.issued_removeAll]
  · show (raised.teardown world.nextRender render.root).documents.modify _ _ = _
    have place : (mounted render growth scope state.nextBound).document = render.document := rfl
    rw [documents, place, run.documents, Store.modify_modify, Store.modify_modify,
      document_eq stored, subtree, shownBound]
    refine Store.modify_congr run.stored ?_
    congr 1
    rw [Document.nodes_removeAll, kept]
  · show (raised.teardown world.nextRender render.root).renders = _
    simp only [World.teardown, known]
    show raised.renders.modify world.renders.next _ = _
    rw [run.renders, Store.modify_add]
    rfl

/-- What is given up is a render that shows nothing. -/
theorem Raised.abandons (sound : world.Sound)
    (run : Raised world render scope document growth raised state) :
    ∃ places : Places, (∀ name, document.places.Issued name → places.Issued name) ∧
      raised.data.Cancels (raised.abandon world.nextRender render growth).data
        ((account growth.bound).map Prod.fst) ∧
      world.Adds (raised.abandon world.nextRender render growth)
        (pruned (mounted render growth scope state.nextBound) render.root) document
        { document with places } := by
  have documentSound := sound.documents _ _ run.stored
  obtain ⟨issued, fresh, _⟩ := run.fresh
  obtain ⟨places, given, documents, cancels, renders⟩ := run.abandoned sound
  have older : ∀ name, document.places.Issued name → places.Issued name := fun name held =>
    (given name).2 ((issued name).2 (.inl held))
  have held : ∀ subscription owner, (subscription, owner) ∈ account growth.bound →
      ∃ observer, raised.data.Holds subscription observer ∧
        observer.owner? = some (world.nextRender, owner) :=
    (run.balanced sound).held
  have raisedSound : raised.data.Sound := run.extends.sound sound.data
  exact ⟨places, older, cancels,
    { stored := run.stored
      data := cancels.sound raisedSound
      models := (run.extends.agrees.trans cancels.agrees).models.ge
      others := fun other account differs balanced =>
        (balanced.beside differs run.extends).aside differs raisedSound held cancels
      owners := fun subscription observer holds =>
        (run.extends.made _ _ (cancels.holds.1 holds).1).imp_right
          (Exists.imp fun _ => And.left)
      tidy := documentSound.of_issued older
      aside := fun _ _ _ mirrors => mirrors.of_issued older
      created := fresh
      sound := run.pruned_sound sound (fun name => (given name).2) cancels
      documents
      renders }⟩

theorem abandon_kept (sound : world.Sound)
    (run : Raised world render scope document growth raised state) :
    world.Kept (raised.abandon world.nextRender render growth) := by
  obtain ⟨_, _, cancels, adds⟩ := run.abandons sound
  exact ⟨sound.of_adds adds, run.extends.agrees.trans cancels.agrees⟩

end Raised

theorem mount_kept (behaviour : Behaviour Client) (sound : world.Sound) {place : DocumentId}
    (registry : RegistryId) (config : RenderConfig) (template : Template) {model : ModelId}
    (controller : ControllerId) (there : place.index < world.documents.next)
    (inside : model.index < world.data.models.next) :
    world.Kept (world.mount behaviour place registry config template model controller).2 := by
  unfold mount
  split
  · exact .refl sound
  · have modelled : ({ model, controller } : Scope).model.index < world.data.models.next := inside
    obtain ⟨document, state, run⟩ :=
      exists_raised behaviour sound registry config template there modelled
    dsimp only
    generalize world.raise behaviour _ template _ = result at run ⊢
    obtain ⟨growth, raised⟩ := result
    dsimp only at run ⊢
    split
    · exact abandon_kept sound run
    · exact ⟨(present_sound sound run inside).of_eq rfl rfl rfl, run.extends.agrees⟩

end LiveTemplate.World
