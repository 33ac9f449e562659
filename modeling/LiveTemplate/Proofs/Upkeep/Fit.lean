import LiveTemplate.Proofs.Meaning.Picture
import LiveTemplate.Proofs.Reactive.Account
import LiveTemplate.Proofs.Upkeep.Dress

/-!
# What bound nodes are for

A bound node is there for a task: to show a template node, an item, or what a directive calls for at
the moment.  Bound nodes fit a list of tasks if they are what building the tasks would have made,
except that whatever is about to be brought up to date may be out of date.

How things stand at one time is given by what is read, by the registrations that are held, and by
what is late: the registrations whose observers still have to be told, and the displays that will be
shown anew when they are.  When nothing is late, bound nodes that fit are up to date.
-/

namespace LiveTemplate

open Template (Node Attribute Expression Path)

/-! ## Templates that can be shown -/

mutual

/-- All views are known, and no element repeats an attribute or a style property if that is asked
for. -/
def Template.Node.Proper (known : String → Prop) (strict : Prop) : Node → Prop
  | .element _ attributes children _ =>
    (strict → ((attributes.filterMap Attribute.display?).map Prod.fst).Nodup) ∧
      Template.AllProper known strict children
  | .text _ => True
  | .directive rule _ body =>
    (∀ name, rule = .view name → known name) ∧ Template.AllProper known strict body
  | .view name => known name

def Template.AllProper (known : String → Prop) (strict : Prop) : List Node → Prop
  | [] => True
  | node :: later => node.Proper known strict ∧ Template.AllProper known strict later

end

theorem Template.allProper_iff {known : String → Prop} {strict : Prop} {nodes : List Node} :
    Template.AllProper known strict nodes ↔ ∀ node ∈ nodes, node.Proper known strict := by
  induction nodes with
  | nil => simp [Template.AllProper]
  | cons node later induction => simp [Template.AllProper, induction]

/-- What stays the same while a render is there.  A known view is registered, and all views in it are
known. -/
structure Frame where
  render : RenderId
  registry : Registry
  label : Option String
  limit : Nat
  known : String → Prop
  /-- What elements wear is kept track of.  That asks for templates in which no element repeats an
  attribute or a style property. -/
  strict : Prop
  /-- Building may have ended early somewhere. -/
  mayFail : Prop
  closed : ∀ name, known name →
    ∃ template, registry.view? name = some template ∧ template.root.Proper known strict

/-! ## Tasks -/

/-- What a bound node is for, in the scope of a model and so many views deep. -/
inductive Task where
  | node (source : Node) (model : ModelId) (depth : Nat)
  /-- What a directive shows, while it observes the items of some collections. -/
  | content (shows : List Task) (observed : List CollectionId)
  | item (body : List Node) (value : Value) (model : ModelId) (depth : Nat)
  | list (collection : CollectionId) (body : List Node) (model : ModelId) (depth : Nat)

/-- What a task shows is proper. -/
inductive Task.Proper (frame : Frame) : Task → Prop where
  | node {source : Node} {model : ModelId} {depth : Nat}
      (proper : source.Proper frame.known frame.strict) : Proper frame (.node source model depth)
  | content {shows : List Task} {observed : List CollectionId}
      (proper : ∀ task ∈ shows, Proper frame task)
      (plain : ∀ inner observed, .content inner observed ∉ shows) :
      Proper frame (.content shows observed)
  | item {body : List Node} {value : Value} {model : ModelId} {depth : Nat}
      (proper : Template.AllProper frame.known frame.strict body) :
      Proper frame (.item body value model depth)
  | list {collection : CollectionId} {body : List Node} {model : ModelId} {depth : Nat}
      (proper : Template.AllProper frame.known frame.strict body) :
      Proper frame (.list collection body model depth)

/-- The tasks below a bound node are all that it calls for, or the first of them if building may have
ended early.  Directives and lists are complete. -/
def Frame.Covers (frame : Frame) (kind : BoundKind) (full inner : List Task) : Prop :=
  inner = full ∨ frame.mayFail ∧ kind ≠ .switch ∧ kind ≠ .list ∧ inner <+: full

namespace Directive

/-- What a directive shows for a value. -/
def shows (directive : Directive) (contents : Contents) (model : ModelId) (depth : Nat)
    (value : Value) : List Task :=
  match directive.rule with
  | .showIf =>
    if value.isTruthy contents then directive.body.map (.node · model depth) else []
  | .showUnless =>
    if value.isTruthy contents then [] else directive.body.map (.node · model depth)
  | .each => (Site.itemsOf contents value).map (.item directive.body · model depth)
  | .collection =>
    match value with
    | .collection collection => [.list collection directive.body model depth]
    | other => (Site.itemsOf contents other).map (.item directive.body · model depth)
  | .view name =>
    match value with
    | .model inner => [.node (.view name) inner depth]
    | _ => []

/-- The collections whose items a directive observes. -/
def observes (directive : Directive) (value : Value) : List CollectionId :=
  match directive.rule, value with
  | .each, .collection collection => [collection]
  | _, _ => []

/-- The decision of a directive for a value, what it shows, and what it observes. -/
def outcome (directive : Directive) (contents : Contents) (model : ModelId) (depth : Nat)
    (value : Value) : Option Bool × List Task × List CollectionId :=
  (Site.decision contents directive.rule value, directive.shows contents model depth value,
    directive.observes value)

end Directive

/-- What a directive shows is proper if its node is. -/
theorem Directive.shows_proper {frame : Frame} (directive : Directive)
    (proper : (Node.directive directive.rule directive.path directive.body).Proper frame.known
      frame.strict)
    (contents : Contents) (model : ModelId) (depth : Nat) (value : Value) :
    ∀ task ∈ directive.shows contents model depth value, task.Proper frame := by
  have nodes : ∀ task ∈ directive.body.map (Task.node · model depth), task.Proper frame := by
    intro task member
    obtain ⟨node, listed, rfl⟩ := List.mem_map.1 member
    exact .node (Template.allProper_iff.1 proper.2 node listed)
  have items : ∀ values : List Value,
      ∀ task ∈ values.map (Task.item directive.body · model depth), task.Proper frame := by
    intro values task member
    obtain ⟨item, _, rfl⟩ := List.mem_map.1 member
    exact .item proper.2
  unfold Directive.shows
  split
  · split
    · exact nodes
    · simp
  · split
    · simp
    · exact nodes
  · exact items _
  · split
    · intro task member
      obtain rfl := List.mem_singleton.1 member
      exact .list proper.2
    · exact items _
  · rename_i name rule
    split
    · intro task member
      obtain rfl := List.mem_singleton.1 member
      exact .node (proper.1 name rule)
    · simp

/-- What a directive shows is not what another directive calls for. -/
theorem Directive.shows_plain (directive : Directive) (contents : Contents) (model : ModelId)
    (depth : Nat) (value : Value) (inner : List Task) (observed : List CollectionId) :
    .content inner observed ∉ directive.shows contents model depth value := by
  unfold Directive.shows
  split
  · split <;> simp
  · split <;> simp
  · simp
  · split <;> simp
  · split <;> simp

/-! ## Readings -/

namespace Data

/-- The displayed value at the end of a path, if collections have the given items. -/
def resolveIn (data : Data) (contents : Contents) (model : ModelId) (path : Path) : Value :=
  match data.follow model path.init with
  | some holder => (data.model holder).display contents path.last
  | none => .null

/-- What is shown for a path, if collections have the given items. -/
def outcome (data : Data) (contents : Contents) (display : Display) (model : ModelId) (path : Path) :
    Option String :=
  display.outcome contents (data.resolveIn contents model path)

/-- What a directive calls for, if collections have the given items. -/
def wanted (data : Data) (contents : Contents) (directive : Directive) (model : ModelId)
    (depth : Nat) : Option Bool × List Task × List CollectionId :=
  directive.outcome contents model depth (data.resolveRaw model directive.path)

/-- A directive calls for this.  A condition on a collection is not told when its items change, so
that it may have been decided for others. -/
def Wants (data : Data) (directive : Directive) (model : ModelId) (depth : Nat)
    (outcome : Option Bool × List Task × List CollectionId) : Prop :=
  ∃ contents, (directive.rule = .showIf ∨ directive.rule = .showUnless ∨ contents = data.contents) ∧
    outcome = data.wanted contents directive model depth

theorem Agrees.outcome {data other : Data} (agrees : data.Agrees other) (contents : Contents)
    (display : Display) (model : ModelId) (path : Template.Path) :
    other.outcome contents display model path = data.outcome contents display model path := by
  simp only [Data.outcome, Data.resolveIn, agrees.follow, Model.display, Model.get, agrees.values,
    agrees.formatters]

theorem Agrees.wants {data other : Data} (agrees : data.Agrees other) {directive : Directive}
    {model : ModelId} {depth : Nat} {outcome : Option Bool × List Task × List CollectionId}
    (wants : data.Wants directive model depth outcome) :
    other.Wants directive model depth outcome := by
  obtain ⟨contents, reason, rfl⟩ := wants
  refine ⟨contents, reason.imp_right (Or.imp_right fun same => ?_), ?_⟩
  · rw [same, agrees.contents]
  · simp only [Data.wanted, agrees.resolveRaw]

end Data

/-- The model on which the next segment of a path is read. -/
def Value.next? (value : Value) (rest : List String) : Option ModelId :=
  match rest, value with
  | _ :: _, .model holder => some holder
  | _, _ => none

@[simp] theorem Value.next?_nil (value : Value) : value.next? [] = none :=
  rfl

/-- How things stand at one time. -/
structure Standing where
  /-- The models and collections as they are read. -/
  data : Data
  /-- The items that a list shows as long as it has not been told of their change. -/
  former : CollectionId → List Value
  holds : Subscription → Observer → Prop
  /-- The observer of a registration still has to be told, and does as it is told. -/
  late : Subscription → Prop
  /-- What a bound node shows in a slot will be shown anew. -/
  stale : BoundId → Nat → Prop
  look : NodeId → Option NodeData

/-! ## Parts -/

namespace Part

/-- What a part shows in a slot, and where. -/
def display? (part : Part) (slot : Nat) : Option (Display × Expression) :=
  match part with
  | .text content => if slot = 0 then some (.text, content) else none
  | .element attributes => attributes[slot]?.bind Attribute.display?
  | _ => none

/-- Where a part shows something. -/
def displays : Part → List Display
  | .text _ => [.text]
  | .element attributes => (attributes.filterMap Attribute.display?).map Prod.fst
  | _ => []

/-- The paths in the entries of an element, with their slots. -/
def paths (slot : Nat) : List Attribute → List (Nat × Path)
  | [] => []
  | entry :: later =>
    (match entry.display? with
      | some (_, .bound path) => [(slot, path)]
      | _ => []) ++ paths (slot + 1) later

/-- The paths that a part follows, with their slots. -/
def followed : Part → List (Nat × Path)
  | .text (.bound path) => [(0, path)]
  | .element attributes => paths 0 attributes
  | .switch directive _ => [(0, directive.path)]
  | _ => []

/-- The path that a part follows in a slot. -/
def path? (part : Part) (slot : Nat) : Option Path :=
  match part with
  | .text (.bound path) => if slot = 0 then some path else none
  | .element attributes =>
    match attributes[slot]?.bind Attribute.display? with
    | some (_, .bound path) => some path
    | _ => none
  | .switch directive _ => if slot = 0 then some directive.path else none
  | _ => none

/-- The rest of the path in a slot, beyond its first segment. -/
def way (part : Part) (slot : Nat) : List String :=
  match part.path? slot with
  | some path => path.tail
  | none => []

/-- Whether a part watches the path in a slot. -/
def watches (part : Part) (slot : Nat) : Bool :=
  match part with
  | .watch position => position == slot
  | _ => false

end Part

/-- The roots that watch the path in a slot. -/
def BoundForest.watchers (bound : Bindings) (slot : Nat) : List (BoundId × BoundNode Part) :=
  bound.crown.filter fun entry => entry.2.part.watches slot

/-! ## Fitting -/

/-- A registration on a segment of a path is held, and the rest of the path is watched below its
owner. -/
structure Linked (frame : Frame) (standing : Standing) (owner root : BoundId) (slot : Nat)
    (subscription : Subscription) (model : ModelId) (segment : String) (rest : List String)
    (below : Bindings) : Prop where
  source : subscription.source = .model model (changeChannel segment)
  holds : standing.holds subscription (.value (.path ⟨frame.render, owner, root, slot, rest⟩))
  next : ∃ found : Option (BoundId × BoundNode Part), below.watchers slot = found.toList ∧
    (rest ≠ [] ∧ standing.late subscription ∨
      found.map (·.2.scope.model) = (standing.data.get model segment).next? rest)

/-- The paths of a part are followed. -/
def Follows (frame : Frame) (standing : Standing) (name : BoundId) (model : ModelId) (part : Part)
    (ledger : List Subscription) (below : Bindings) : Prop :=
  List.Forall₂ (fun subscription entry => Linked frame standing name name entry.1 subscription model
    entry.2.head entry.2.tail below) ledger part.followed

/-- A document node shows what a part calls for.  What is shown for a collection may have been shown
for other items. -/
structure Wears (standing : Standing) (name : BoundId) (model : ModelId) (part : Part)
    (data : NodeData) : Prop where
  neat : data.Neat part.displays
  written : ∀ slot display text, part.display? slot = some (display, .literal text) →
    display.Shows (some text) data
  shows : ∀ slot display path, part.display? slot = some (display, .bound path) →
    standing.stale name slot ∨
      ∃ contents, display.Shows (standing.data.outcome contents display model path) data

/-- The items of a list are those of its collection, or the former ones as long as the list has not
been told. -/
structure Standing.Lists (standing : Standing) (subscription : Subscription)
    (collection : CollectionId) (items : List Value) : Prop where
  late : standing.late subscription → items = standing.former collection
  current : ¬ standing.late subscription → items = standing.data.contents.items collection

/-- A bound node is right for a task, apart from what is below it.  The last argument are the tasks
that it calls for below. -/
inductive Local (frame : Frame) (standing : Standing) (root name : BoundId) :
    Task → BoundNode Part → Bindings → List Task → Prop where
  | element {tag : String} {attributes : List Attribute} {children : List Node} {line : Nat}
      {model : ModelId} {depth : Nat} {controller : ControllerId} {dom : NodeId} {data : NodeData}
      {ledger : List Subscription} {below : Bindings} (look : standing.look dom = some data)
      (kind : data.kind = .element tag)
      (wears : frame.strict → Wears standing name model (.element attributes) data)
      (follows : Follows frame standing name model (.element attributes) ledger below) :
      Local frame standing root name (.node (.element tag attributes children line) model depth)
        ⟨.element attributes, some dom, ledger, ⟨model, controller, depth⟩⟩ below
        (children.map (.node · model depth))
  | text {content : Expression} {model : ModelId} {depth : Nat} {controller : ControllerId}
      {dom : NodeId} {data : NodeData} {ledger : List Subscription} {below : Bindings}
      (look : standing.look dom = some data) (kind : ∃ written, data.kind = .text written)
      (wears : Wears standing name model (.text content) data)
      (follows : Follows frame standing name model (.text content) ledger below) :
      Local frame standing root name (.node (.text content) model depth)
        ⟨.text content, some dom, ledger, ⟨model, controller, depth⟩⟩ below []
  | switch {directive : Directive} {shown : Option Bool} {shows : List Task}
      {observed : List CollectionId} {model : ModelId} {depth : Nat} {controller : ControllerId}
      {dom : NodeId} {ledger : List Subscription} {below : Bindings}
      (look : standing.look dom = some (.anchor frame.label))
      (possible : ∃ contents value,
        (shown, shows, observed) = directive.outcome contents model depth value)
      (wanted : standing.stale name 0 ∨
        standing.data.Wants directive model depth (shown, shows, observed))
      (follows : Follows frame standing name model (.switch directive shown) ledger below) :
      Local frame standing root name
        (.node (.directive directive.rule directive.path directive.body) model depth)
        ⟨.switch directive shown, some dom, ledger, ⟨model, controller, depth⟩⟩ below
        [.content shows observed]
  | view {view : String} {template : Template} {model : ModelId} {depth : Nat}
      {controller : ControllerId} {below : Bindings}
      (found : frame.registry.view? view = some template) (room : depth < frame.limit) :
      Local frame standing root name (.node (.view view) model depth)
        ⟨.view view, none, [], ⟨model, controller, depth + 1⟩⟩ below
        [.node template.root model (depth + 1)]
  | content {shows : List Task} {observed : List CollectionId} {ledger : List Subscription}
      {scope : Scope} {below : Bindings}
      (observes : List.Forall₂ (fun subscription collection =>
        subscription.source = .collection collection ∧
          standing.holds subscription (.change (.rebuild frame.render name root))) ledger observed) :
      Local frame standing root name (.content shows observed) ⟨.group, none, ledger, scope⟩ below
        shows
  | item {body : List Node} {value : Value} {model : ModelId} {depth : Nat}
      {controller : ControllerId} {below : Bindings} :
      Local frame standing root name (.item body value model depth)
        ⟨.group, none, [], ⟨value.modelOr model, controller, depth⟩⟩ below
        (body.map (.node · (value.modelOr model) depth))
  | list {collection : CollectionId} {body : List Node} {items : List Value} {model : ModelId}
      {depth : Nat} {controller : ControllerId} {dom : NodeId} {subscription : Subscription}
      {below : Bindings} (look : standing.look dom = some (.anchor frame.label))
      (source : subscription.source = .collection collection)
      (holds : standing.holds subscription (.change (.splice frame.render name)))
      (lists : standing.Lists subscription collection items) :
      Local frame standing root name (.list collection body model depth)
        ⟨.list collection body, some dom, [subscription], ⟨model, controller, depth⟩⟩ below
        (items.map (.item body · model depth))
  /-- A list of which an item could not be built does not follow its collection. -/
  | unfinished {collection : CollectionId} {body : List Node} {items : List Value} {model : ModelId}
      {depth : Nat} {controller : ControllerId} {dom : NodeId} {below : Bindings}
      (look : standing.look dom = some (.anchor frame.label)) (failed : frame.mayFail) :
      Local frame standing root name (.list collection body model depth)
        ⟨.list collection body, some dom, [], ⟨model, controller, depth⟩⟩ below
        (items.map (.item body · model depth))

/-- Bound nodes fit a list of tasks.  They stand below `root`, whose paths they may watch: in each
slot the given segments are still ahead. -/
inductive Fits (frame : Frame) (standing : Standing) :
    BoundId → (Nat → List String) → List Task → Bindings → Prop where
  | nil {root : BoundId} {way : Nat → List String} : Fits frame standing root way [] .nil
  | watch {root name : BoundId} {way : Nat → List String} {tasks : List Task} {slot : Nat}
      {segment : String} {later : List String} {subscription : Subscription} {scope : Scope}
      {below beside : Bindings} (ahead : way slot = segment :: later)
      (linked : Linked frame standing name root slot subscription scope.model segment later below)
      (inside : Fits frame standing root (fun position => if position = slot then later else []) []
        below)
      (others : Fits frame standing root way tasks beside) :
      Fits frame standing root way tasks
        (.cons name ⟨.watch slot, none, [subscription], scope⟩ below beside)
  | cons {root name : BoundId} {way : Nat → List String} {task : Task}
      {tasks full inner : List Task} {node : BoundNode Part} {below beside : Bindings}
      (proper : task.Proper frame) (here : Local frame standing root name task node below full)
      (covers : frame.Covers node.kind full inner)
      (inside : Fits frame standing name node.part.way inner below)
      (others : Fits frame standing root way tasks beside) :
      Fits frame standing root way (task :: tasks) (.cons name node below beside)

end LiveTemplate
