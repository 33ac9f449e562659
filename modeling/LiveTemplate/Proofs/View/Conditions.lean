import LiveTemplate.Proofs.View.LiveUpdate

/-!
# Conditions decide by the values of the moment

As long as calls are made in turn, a condition shows its body exactly if the value of its path calls for
it.  A condition on a collection is the exception: it is decided anew when another value is set, but not
when the items of the collection change.
-/

namespace LiveTemplate

open Template (Node Attribute Expression Path)

/-- Whether a condition asks for a truthy value or for a falsy one, its path and its body. -/
def Part.condition? : Part → Option (Bool × Path × List Node)
  | .switch ⟨.showIf, path, body⟩ _ => some (true, path, body)
  | .switch ⟨.showUnless, path, body⟩ _ => some (false, path, body)
  | .switch .. | .element _ | .text _ | .list .. | .group | .watch _ | .view _ => none

theorem Part.eq_switch_of_condition? {part : Part} {affirms : Bool} {path : Path} {body : List Node}
    (decides : part.condition? = some (affirms, path, body)) :
    ∃ shown, part = .switch ⟨if affirms then .showIf else .showUnless, path, body⟩ shown := by
  match part with
  | .switch ⟨.showIf, _, _⟩ shown =>
      cases decides
      exact ⟨shown, rfl⟩
  | .switch ⟨.showUnless, _, _⟩ shown =>
      cases decides
      exact ⟨shown, rfl⟩
  | .switch ⟨.each, _, _⟩ _ | .switch ⟨.collection, _, _⟩ _ | .switch ⟨.view _, _, _⟩ _ | .element _
  | .text _ | .list .. | .group | .watch _ | .view _ => cases decides

/-- What a condition shows is its whole body or nothing. -/
theorem Directive.shows_condition (affirms : Bool) (path : Path) (body : List Node)
    (contents : Contents) {model : ModelId} {depth : Nat} {value : Value} :
    Directive.shows ⟨if affirms then .showIf else .showUnless, path, body⟩ contents model depth value =
      (if value.isTruthy contents = affirms then body else []).map (Task.node · model depth) := by
  cases affirms <;> cases truth : value.isTruthy contents <;> simp [Directive.shows, truth]

/-- A bound node is there for a template node, with a document node of the kind that it asks for. -/
inductive Stands (look : NodeId → Option NodeData) : Node → BoundNode Part → Prop where
  | element {tag : String} {attributes : List Attribute} {children : List Node} {line : Nat}
      {dom : NodeId} {data : NodeData} {ledger : List Subscription} {scope : Scope}
      (found : look dom = some data) (kind : data.kind = .element tag) :
      Stands look (.element tag attributes children line)
        ⟨.element attributes, some dom, ledger, scope⟩
  | text {content : Expression} {dom : NodeId} {data : NodeData} {written : String}
      {ledger : List Subscription} {scope : Scope} (found : look dom = some data)
      (kind : data.kind = .text written) :
      Stands look (.text content) ⟨.text content, some dom, ledger, scope⟩
  | directive {directive : Directive} {shown : Option Bool} {dom : NodeId} {label : Option String}
      {ledger : List Subscription} {scope : Scope} (found : look dom = some (.anchor label)) :
      Stands look (.directive directive.rule directive.path directive.body)
        ⟨.switch directive shown, some dom, ledger, scope⟩
  | view {name : String} {scope : Scope} : Stands look (.view name) ⟨.view name, none, [], scope⟩

section Fits

variable {frame : Frame} {standing : Standing} {root name : BoundId} {way : Nat → List String}
  {source : Node} {model : ModelId} {depth : Nat} {node : BoundNode Part} {tasks full : List Task}
  {forest below : Bindings}

theorem Local.stands (here : Local frame standing root name (.node source model depth) node below full) :
    Stands standing.look source node := by
  cases here with
  | element look kind => exact .element look kind
  | text look kind =>
      obtain ⟨_, kind⟩ := kind
      exact .text look kind
  | switch look => exact .directive look
  | view => exact .view

/-- What fits template nodes is one bound node for each. -/
theorem Fits.stands {nodes : List Node} (fits : Fits frame standing root way tasks forest)
    (silent : ∀ slot, way slot = []) (called : tasks = nodes.map (.node · model depth)) :
    List.Forall₂ (fun entry source => Stands standing.look source entry.2) forest.crown nodes := by
  induction fits generalizing nodes with
  | nil =>
      obtain rfl := List.map_eq_nil_iff.1 called.symm
      exact .nil
  | @watch _ _ _ _ slot _ _ _ _ _ _ ahead =>
      rw [silent slot] at ahead
      cases ahead
  | cons _ here _ _ _ _ others =>
      cases nodes with
      | nil => cases called
      | cons source later =>
          obtain ⟨rfl, rfl⟩ := List.cons.inj called
          exact .cons here.stands (others silent rfl)

theorem Fits.onlyWatches (fits : Fits frame standing root way [] forest) : Site.OnlyWatches forest := by
  generalize called : ([] : List Task) = tasks at fits
  induction fits with
  | nil => exact .nil
  | watch _ _ _ _ _ others =>
      rintro entry member
      rcases List.mem_cons.1 member with rfl | later
      · rfl
      · exact others called entry later
  | cons => cases called

/-- Apart from what watches paths, a directive has one group, with what it shows. -/
theorem Fits.content {shows : List Task} {observed : List CollectionId}
    (fits : Fits frame standing root way tasks forest) (called : tasks = [.content shows observed])
    (whole : ¬ frame.mayFail) :
    ∃ group node below, (forest.crown.filter fun entry => entry.2.kind != .watch) = [(group, node)] ∧
      Forest.Has forest group node below ∧ Fits frame standing group (fun _ => []) shows below := by
  induction fits with
  | nil => cases called
  | watch _ _ _ _ _ others =>
      obtain ⟨group, node, below, single, has, inside⟩ := others called
      exact ⟨group, node, below, single, .inr (.inr has), inside⟩
  | @cons _ group _ _ _ _ _ node below _ _ here covers inside others =>
      obtain ⟨rfl, rfl⟩ := List.cons.inj called
      obtain rfl := covers.resolve_right fun fails => whole fails.1
      cases here with
      | content =>
          exact ⟨group, _, below, congrArg _ others.onlyWatches.filter_eq_nil, .inl ⟨rfl, rfl, rfl⟩,
            inside⟩

end Fits

namespace World

variable {Client : Type} {world shown after : World Client} {frame : Frame} {task : Task}
  {render : Render} {former : CollectionId → List Value} {switch : BoundId} {node : BoundNode Part}
  {affirms : Bool} {path : Path} {body : List Node} {id : RenderId} {behaviour : Behaviour Client}
  {place : DocumentId} {registry : RegistryId} {config : RenderConfig} {template : Template}
  {model : ModelId} {controller : ControllerId}

/-- A directive has one group, which shows these template nodes in the render's part of the document
and nothing else. -/
def Exhibits (world : World Client) (id : RenderId) (render : Render) (switch : BoundId)
    (nodes : List Node) : Prop :=
  ∃ group, render.tree.shownBy switch = [group] ∧
    List.Forall₂ (fun child source => ∃ node, world.bound? id child = some node ∧
      Stands (world.document render.document).data? source node ∧
        ∀ dom, node.dom = some dom →
          (world.document render.document).isWithin dom render.node = true)
      (render.tree.children group) nodes

theorem Sound.within (sound : world.Sound) (known : world.render? id = some render) {name : BoundId}
    (member : (name, node) ∈ render.tree.nodes.entries) {dom : NodeId} (own : node.dom = some dom) :
    (world.document render.document).isWithin dom render.node = true := by
  obtain ⟨document, stored, mine⟩ := sound.renders id render known
  have listed : dom ∈ (BoundForest.skeleton render.tree.nodes).names :=
    BoundForest.mem_skeleton.2 (BoundForest.mem_shown.2 ⟨_, member, own⟩)
  rw [document_eq stored, Document.isWithin, Forest.contains_iff_mem, ← Forest.names_shape,
    mine.mirrors.shape]
  exact listed

theorem Upholds.exhibits (upholds : after.Upholds frame task render former [] [])
    (whole : ¬ frame.mayFail) (live : (switch, node) ∈ render.tree.nodes.entries)
    (decides : node.part.condition? = some (affirms, path, body))
    (plain : ∀ collection, after.data.resolveRaw node.scope.model path ≠ .collection collection) :
    after.Exhibits frame.render render switch
      (if (after.data.resolveRaw node.scope.model path).isTruthy after.data.contents = affirms then body
        else []) := by
  obtain ⟨_, _, mine⟩ := upholds.sound.renders _ render upholds.known
  have settled := settled_standing after render.document frame.render former
  obtain ⟨shown, part⟩ := Part.eq_switch_of_condition? decides
  obtain ⟨below, has⟩ := Forest.has_iff_mem_entries.2 live
  obtain ⟨root, way, tasks, fits⟩ := upholds.fits.at has
  cases fits with
  | watch => cases part
  | cons _ here covers inside _ =>
      cases here with
      | element | text | view | content | item | list | unfinished => cases part
      | @switch directive _ shows _ model depth _ _ _ _ look _ wanted =>
          obtain ⟨rfl, rfl⟩ := Part.switch.inj part
          have now := (wanted.resolve_left (settled.stale _ _)).eq_of_plain fun _ => plain
          obtain ⟨_, same⟩ := Prod.mk.inj now
          obtain ⟨rfl, _⟩ := Prod.mk.inj same
          obtain rfl := covers.resolve_right fun fails => whole fails.1
          obtain ⟨group, label, under, single, hasGroup, fitsBody⟩ := inside.content rfl whole
          have all := fitsBody.stands (fun _ => rfl) (Directive.shows_condition affirms path body _)
          have kids : List.Forall₂ (fun child source => ∃ node,
              after.bound? frame.render child = some node ∧
                Stands (after.document render.document).data? source node)
              (render.tree.children group) _ :=
            upholds.sound.children_forall₂ upholds.known (has.trans hasGroup) all
          refine ⟨group, by rw [shownBy_eq mine.distinct has, single]; rfl, kids.imp ?_⟩
          rintro child source ⟨kid, alive, stands⟩
          have member := (bound?_iff upholds.sound upholds.known).1 alive
          exact ⟨kid, alive, stands, fun dom own => upholds.sound.within upholds.known member own⟩

/-- Whatever is set and changed in turn, a condition shows its body exactly if the value at the end of
its path calls for it, unless that value is a collection. -/
theorem Conduct.conditions_hold {client : Client} (conduct : Conduct { client } world)
    (there : place.index < world.documents.next) (inside : model.index < world.data.models.next)
    (mounted : world.mount behaviour place registry config template model controller = (.ok id, shown))
    (run : Run (inTurn id) [] shown after) (spared : Spared id shown after)
    (known : after.render? id = some render) (live : after.bound? id switch = some node)
    (decides : node.part.condition? = some (affirms, path, body))
    (plain : ∀ collection, after.data.resolveRaw node.scope.model path ≠ .collection collection) :
    after.Exhibits id render switch
      (if (after.data.resolveRaw node.scope.model path).isTruthy after.data.contents = affirms then body
        else []) := by
  obtain ⟨frame, own, _, _, upholds⟩ := conduct.upholds there inside mounted False.elim False
    (inTurn_orderly id) run (.inl spared) known
  obtain rfl := own.render
  exact upholds.exhibits (fun fails => own.mayFail.mp fails)
    ((bound?_iff upholds.sound known).1 live) decides plain

/-- The greeting after the name has been taken away and another one has been set. -/
def restored : World Unit :=
  silenced.setOr (still Unit) ⟨0⟩ "name" (.text "Grace")

theorem run_restored : Run (inTurn ⟨0⟩) [] greeted restored :=
  run_silenced.trans ((still_abides _).set (.text _) InTurn.nil)

theorem conditions_hold_greeting : ∃ render content, restored.render? ⟨0⟩ = some render ∧
    restored.Exhibits ⟨0⟩ render ⟨2⟩ [content] := by
  obtain ⟨silent, there, shows, truth, value⟩ : restored.failures.length ≤ greeted.failures.length ∧
      (restored.render? ⟨0⟩).isSome = true ∧
      (restored.bound? ⟨0⟩ ⟨2⟩).map (fun node => (node.part.condition?.map fun condition =>
        (condition.1, condition.2.1, condition.2.2.length), node.scope.model)) =
          some (some (true, ⟨"name", []⟩, 1), ⟨0⟩) ∧
      (restored.data.resolveRaw ⟨0⟩ ⟨"name", []⟩).isTruthy restored.data.contents = true ∧
      (restored.data.resolveRaw ⟨0⟩ ⟨"name", []⟩).isPlain = true := by
    rw [restored, silenced, setOr, setOr, greeted, mount, Registry.missingView?_of_nil rfl]
    decide +kernel
  obtain ⟨render, known⟩ := Option.isSome_iff_exists.1 there
  obtain ⟨node, live, reads⟩ := Option.map_eq_some_iff.1 shows
  obtain ⟨asks, scope⟩ := Prod.mk.inj reads
  obtain ⟨⟨affirms, path, body⟩, decides, same⟩ := Option.map_eq_some_iff.1 asks
  obtain ⟨rfl, same⟩ := Prod.mk.inj same
  obtain ⟨rfl, single⟩ := Prod.mk.inj same
  obtain ⟨content, rfl⟩ := List.length_eq_one_iff.1 single
  have exhibits := conduct_prepared.conditions_hold (Nat.lt_succ_self 0) (Nat.lt_succ_self 0)
    mount_greeting run_restored (spared_of_length_le silent _) known live decides
    fun collection stored => by
      rw [← scope, stored] at value
      cases value
  rw [scope, if_pos truth] at exhibits
  exact ⟨render, content, known, exhibits⟩

/-- Something is shown if a collection has items. -/
def report : Template :=
  ⟨"p", [], [.directive .showIf ⟨"items", []⟩ [.element "b" [] [.text (.literal "some")] 3]], 1⟩

/-- An empty collection, and the model that holds it. -/
def vacant : World Unit :=
  { data := ((({} : Data).addCollection []).2.addModel
      (.ofSchema [⟨"items", .collection ⟨0⟩, none⟩])).2
    documents := ({} : Store Document).add {}
    client := () }

def reported : World Unit :=
  (vacant.mount (still Unit) ⟨0⟩ ⟨0⟩ {} report ⟨0⟩ ⟨0⟩).2

/-- A first item comes into the collection. -/
def supplied : World Unit :=
  (reported.mutate (still Unit) ⟨0⟩ (.push (.text "a"))).2

theorem conduct_vacant : Conduct { client := () } vacant :=
  .next (@Call.addCollection _ _ [] nofun)
    (.next (@Call.addModel _ _ [⟨"items", .collection ⟨0⟩, none⟩]
        (List.forall_mem_singleton.2 (.collection (Nat.lt_succ_self 0))))
      (.next (.addDocument _) (.done _)))

theorem run_supplied : Run (inTurn ⟨0⟩) [] reported supplied :=
  (still_abides _).mutate (fun change made => by
    obtain rfl := Option.some.inj made
    exact .text "a") fun _ _ => InTurn.nil

/-- A condition is not told when a collection gets its first item. -/
theorem conditions_unheeded : Conduct { client := () } vacant ∧
    vacant.mount (still Unit) ⟨0⟩ ⟨0⟩ {} report ⟨0⟩ ⟨0⟩ = (.ok ⟨0⟩, reported) ∧
    Run (inTurn ⟨0⟩) [] reported supplied ∧ Spared ⟨0⟩ reported supplied ∧
    ∃ render node body, supplied.render? ⟨0⟩ = some render ∧
      supplied.bound? ⟨0⟩ ⟨2⟩ = some node ∧ node.part.condition? = some (true, ⟨"items", []⟩, body) ∧
      (supplied.data.resolveRaw node.scope.model ⟨"items", []⟩).isTruthy supplied.data.contents = true ∧
      ¬ supplied.Exhibits ⟨0⟩ render ⟨2⟩ body := by
  obtain ⟨mounted, silent, groups, shows, truth⟩ :
      (vacant.mount (still Unit) ⟨0⟩ ⟨0⟩ {} report ⟨0⟩ ⟨0⟩).1 = .ok ⟨0⟩ ∧
      supplied.failures.length ≤ reported.failures.length ∧
      (supplied.render? ⟨0⟩).map (fun render =>
        (render.tree.shownBy ⟨2⟩).map fun group => (render.tree.children group).length) = some [0] ∧
      (supplied.bound? ⟨0⟩ ⟨2⟩).map (fun node => (node.part.condition?.map fun condition =>
        (condition.1, condition.2.1, condition.2.2.length), node.scope.model)) =
          some (some (true, ⟨"items", []⟩, 1), ⟨0⟩) ∧
      (supplied.data.resolveRaw ⟨0⟩ ⟨"items", []⟩).isTruthy supplied.data.contents = true := by
    rw [supplied, reported, mount, Registry.missingView?_of_nil rfl]
    decide +kernel
  obtain ⟨render, known, nothing⟩ := Option.map_eq_some_iff.1 groups
  obtain ⟨node, live, reads⟩ := Option.map_eq_some_iff.1 shows
  obtain ⟨asks, scope⟩ := Prod.mk.inj reads
  obtain ⟨⟨affirms, path, body⟩, decides, same⟩ := Option.map_eq_some_iff.1 asks
  obtain ⟨rfl, same⟩ := Prod.mk.inj same
  obtain ⟨rfl, single⟩ := Prod.mk.inj same
  refine ⟨conduct_vacant, Prod.ext mounted rfl, run_supplied, spared_of_length_le silent _, render, node,
    body, known, live, decides, scope ▸ truth, ?_⟩
  rintro ⟨group, alone, all⟩
  rw [alone] at nothing
  have empty : (render.tree.children group).length = 0 := List.singleton_inj.1 nothing
  have length : _ = body.length := List.Forall₂.length_eq all
  exact absurd (empty.symm.trans (length.trans single)) Nat.zero_ne_one

end World

end LiveTemplate
