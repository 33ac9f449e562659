import LiveTemplate.Proofs.Upkeep.Mounted

/-!
# Paths of one segment

A render that follows no path beyond its first segment and shows no list never goes by what it is
told: whatever observer is told something, it reads the models.  So it does not matter to such a
render in which order it is told, and calls may be made in the middle of others as they like.
-/

namespace LiveTemplate

open Template (Node Attribute Expression Path)

/-! ## Direct templates -/

/-- The path, if any, has one segment. -/
def Template.Expression.Direct : Expression → Prop
  | .literal _ => True
  | .bound path => path.tail = []

def Template.Attribute.Direct : Attribute → Prop
  | .property _ value | .style _ value => value.Direct
  | .event .. => True

mutual

/-- Every path in a node has one segment. -/
def Template.Node.Direct : Node → Prop
  | .element _ attributes children _ =>
    (∀ entry ∈ attributes, entry.Direct) ∧ Template.AllDirect children
  | .text content => content.Direct
  | .directive _ path body => path.tail = [] ∧ Template.AllDirect body
  | .view _ => True

def Template.AllDirect : List Node → Prop
  | [] => True
  | node :: later => node.Direct ∧ Template.AllDirect later

end

theorem Template.allDirect_iff {nodes : List Node} :
    Template.AllDirect nodes ↔ ∀ node ∈ nodes, node.Direct := by
  induction nodes with
  | nil => simp [Template.AllDirect]
  | cons node later induction => simp [Template.AllDirect, induction]

theorem Template.Attribute.Direct.display {entry : Attribute} (direct : entry.Direct)
    {display : Display} {expression : Expression} (shown : entry.display? = some (display, expression)) :
    expression.Direct := by
  cases entry with
  | event => cases shown
  | _ =>
      obtain ⟨-, rfl⟩ := Prod.mk.inj (Option.some.inj shown)
      exact direct

/-- No path that a part follows has a rest. -/
def Part.Direct (part : Part) : Prop :=
  ∀ slot path, part.path? slot = some path → path.tail = []

theorem Part.Direct.way {part : Part} (direct : part.Direct) (slot : Nat) : part.way slot = [] := by
  cases called : part.path? slot with
  | none => simp only [Part.way, called]
  | some path => simp only [Part.way, called, direct slot path called]

theorem Part.Direct.element {attributes : List Attribute}
    (direct : ∀ entry ∈ attributes, entry.Direct) : (Part.element attributes).Direct := by
  intro slot path follows
  simp only [Part.path?] at follows
  split at follows
  · rename_i called
    obtain rfl := Option.some.inj follows
    obtain ⟨entry, there, shown⟩ := Option.bind_eq_some_iff.1 called
    exact (direct entry (List.mem_of_getElem? there)).display shown
  · cases follows

theorem Part.Direct.text {content : Expression} (direct : content.Direct) :
    (Part.text content).Direct := by
  intro slot path follows
  cases content with
  | literal => cases follows
  | bound =>
      simp only [Part.path?] at follows
      split at follows
      · obtain rfl := Option.some.inj follows
        exact direct
      · cases follows

theorem Part.Direct.switch {directive : Directive} {shown : Option Bool}
    (direct : directive.path.tail = []) : (Part.switch directive shown).Direct := by
  intro slot path follows
  simp only [Part.path?] at follows
  split at follows
  · obtain rfl := Option.some.inj follows
    exact direct
  · cases follows

/-! ## Direct tasks -/

/-- What a task shows is direct. -/
inductive Task.Direct : Task → Prop where
  | node {source : Node} {model : ModelId} {depth : Nat} (direct : source.Direct) :
      Direct (.node source model depth)
  | content {shows : List Task} {observed : List CollectionId}
      (direct : ∀ task ∈ shows, Direct task) : Direct (.content shows observed)
  | item {body : List Node} {value : Value} {model : ModelId} {depth : Nat}
      (direct : Template.AllDirect body) : Direct (.item body value model depth)
  | list {collection : CollectionId} {body : List Node} {model : ModelId} {depth : Nat}
      (direct : Template.AllDirect body) : Direct (.list collection body model depth)

theorem Task.Direct.nodes {nodes : List Node} (direct : Template.AllDirect nodes) (model : ModelId)
    (depth : Nat) : ∀ task ∈ nodes.map (Task.node · model depth), task.Direct := by
  intro task member
  obtain ⟨node, listed, rfl⟩ := List.mem_map.1 member
  exact .node (Template.allDirect_iff.1 direct node listed)

theorem Task.Direct.items {body : List Node} (direct : Template.AllDirect body) (values : List Value)
    (model : ModelId) (depth : Nat) :
    ∀ task ∈ values.map (Task.item body · model depth), task.Direct := by
  intro task member
  obtain ⟨item, _, rfl⟩ := List.mem_map.1 member
  exact .item direct

/-- What a directive shows is direct if its body is. -/
theorem Directive.shows_direct {directive : Directive} (direct : Template.AllDirect directive.body)
    (contents : Contents) (model : ModelId) (depth : Nat) (value : Value) :
    ∀ task ∈ directive.shows contents model depth value, task.Direct := by
  unfold Directive.shows
  split
  · split
    · exact .nodes direct model depth
    · simp
  · split
    · simp
    · exact .nodes direct model depth
  · exact .items direct _ model depth
  · split
    · exact List.forall_mem_singleton.2 (.list direct)
    · exact .items direct _ model depth
  · split
    · exact List.forall_mem_singleton.2 (.node trivial)
    · simp

/-! ## Nobody goes by what they are told -/

section Fits

variable {frame : Frame} {standing : Standing} {root name : BoundId} {way : Nat → List String}
  {task : Task} {tasks full : List Task} {node : BoundNode Part} {forest below : Bindings}
  {subscription : Subscription} {observer : Observer}

/-- All views that are known are direct. -/
def Frame.Direct (frame : Frame) : Prop :=
  ∀ name view, frame.known name → frame.registry.view? name = some view → view.root.Direct

/-- A bound node that is there for a direct task is itself direct, and calls for direct tasks. -/
theorem Local.direct (here : Local frame standing root name task node below full)
    (proper : task.Proper frame) (views : frame.Direct) (direct : task.Direct) :
    node.part.Direct ∧ ∀ task ∈ full, task.Direct := by
  cases here with
  | element =>
      cases direct with
      | node direct => exact ⟨.element direct.1, .nodes direct.2 _ _⟩
  | text =>
      cases direct with
      | node direct => exact ⟨.text direct, nofun⟩
  | switch _ possible =>
      obtain ⟨contents, value, same⟩ := possible
      obtain ⟨_, same⟩ := Prod.mk.inj same
      obtain ⟨rfl, _⟩ := Prod.mk.inj same
      cases direct with
      | node direct =>
          exact ⟨.switch direct.1, List.forall_mem_singleton.2
            (.content (Directive.shows_direct direct.2 contents _ _ value))⟩
  | view found =>
      cases proper with
      | node known => exact ⟨nofun, List.forall_mem_singleton.2 (.node (views _ _ known found))⟩
  | content =>
      cases direct with
      | content direct => exact ⟨nofun, direct⟩
  | item =>
      cases direct with
      | item direct => exact ⟨nofun, .nodes direct _ _⟩
  | list | unfinished =>
      cases direct with
      | list direct => exact ⟨nofun, .items direct _ _ _⟩

/-- Nobody who is registered for a direct bound node goes by what they are told, unless it is a
list. -/
theorem Local.not_steers (here : Local frame standing root name task node below full)
    (single : standing.Single) (direct : node.part.Direct) (listless : node.kind ≠ .list)
    (own : subscription ∈ node.ledger) (holds : standing.holds subscription observer) :
    ¬ observer.Steers := by
  have followed : ∀ {model : ModelId} {part : Part} {ledger : List Subscription},
      Follows frame standing name model part ledger below → part.Direct → subscription ∈ ledger →
        ¬ observer.Steers := by
    intro model part ledger follows direct member
    obtain ⟨⟨slot, path⟩, listed, linked⟩ := exists_of_mem_forall₂ follows member
    obtain rfl := single _ _ _ holds linked.holds
    exact fun more => more (direct slot path (Part.mem_followed.1 listed))
  cases here with
  | element _ _ _ follows | text _ _ _ follows | switch _ _ _ follows =>
      exact followed follows direct own
  | view | item | unfinished => cases own
  | content observes =>
      obtain ⟨collection, _, _, other⟩ := exists_of_mem_forall₂ observes own
      obtain rfl := single _ _ _ holds other
      exact id
  | list => exact (listless rfl).elim

/-- Where direct tasks are shown without lists, nobody goes by what they are told. -/
theorem Fits.not_steers (fits : Fits frame standing root way tasks forest) (single : standing.Single)
    (views : frame.Direct) (direct : ∀ task ∈ tasks, task.Direct) (straight : ∀ slot, way slot = [])
    (listless : ∀ entry ∈ forest.entries, entry.2.kind ≠ .list)
    (member : (name, node) ∈ forest.entries) (own : subscription ∈ node.ledger)
    (holds : standing.holds subscription observer) : ¬ observer.Steers := by
  induction fits with
  | nil => cases member
  | watch ahead => exact (List.cons_ne_nil _ _ (ahead.symm.trans (straight _))).elim
  | cons proper here covers _ _ inside others =>
      simp only [Forest.entries, List.mem_cons, List.mem_append, or_imp, forall_and,
        forall_eq] at direct listless member
      obtain ⟨free, freeBelow, freeBeside⟩ := listless
      obtain ⟨plain, called⟩ := here.direct proper views direct.1
      rcases member with now | deeper | beyond
      · obtain ⟨rfl, rfl⟩ := Prod.mk.inj now
        exact here.not_steers single plain free own holds
      · exact inside (fun task member => called task (covers.subset member)) plain.way freeBelow deeper
      · exact others direct.2 straight freeBeside beyond

end Fits

namespace World

variable {Client : Type} {frame : Frame} {task : Task}

/-- Calls are made only while the render shows no list: none of its directives that follow the items
of a collection one by one has met a collection. -/
def listless (id : RenderId) : Rule Client := fun _ _ world _ =>
  ∀ render ∈ world.render? id, ∀ entry ∈ render.tree.nodes.entries, entry.2.kind ≠ .list

/-- A direct render without lists takes every call as if it were made in turn. -/
theorem listless_turns (views : frame.Direct) (direct : task.Direct) :
    (listless frame.render : Rule Client).Turns frame task := by
  intro pending news world after render former ruled upholds subscription observer owner _ held owned
    steers
  obtain ⟨node, member, own⟩ := upholds.sound.owned upholds.known held owned
  have shown : (Task.content [task] []).Direct := .content (List.forall_mem_singleton.2 direct)
  exact (upholds.fits.not_steers (standing_single upholds.sound) views
    (List.forall_mem_singleton.2 shown) (fun _ => rfl) (ruled render upholds.known) member own held
    steers).elim

end World

end LiveTemplate
