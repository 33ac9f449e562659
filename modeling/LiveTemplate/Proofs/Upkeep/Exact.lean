import LiveTemplate.Proofs.Upkeep.Mounted

/-!
# What is up to date shows the picture

When nothing is late and nothing is stale, bound nodes that fit a list of tasks show the picture of
the tasks, and as many registrations are held as the picture asks for.
-/

namespace LiveTemplate

open Template (Node Attribute Expression Path)
open BoundForest (skeleton sources watching)

/-! ## Forests that look alike -/

/-- Document trees look alike: the same shape, and nodes that look alike. -/
inductive Forest.Alike {Name Other : Type} :
    Forest Name NodeData → Forest Other NodeData → Prop where
  | nil : Alike .nil .nil
  | cons {name : Name} {other : Other} {data more : NodeData} {children rest : Forest Name NodeData}
      {inner later : Forest Other NodeData} (here : data.Alike more) (below : Alike children inner)
      (beside : Alike rest later) : Alike (.cons name data children rest) (.cons other more inner later)

theorem Forest.Alike.append {Name Other : Type} {first beside : Forest Name NodeData}
    {second other : Forest Other NodeData} (alike : Forest.Alike first second)
    (also : Forest.Alike beside other) : Forest.Alike (first ++ beside) (second ++ other) := by
  induction alike with
  | nil => exact also
  | cons here below _ _ later => exact .cons here below later

/-- The data of document nodes put on a forest of their names. -/
def Forest.dress (look : NodeId → Option NodeData) : Forest NodeId Unit → Forest NodeId NodeData
  | .nil => .nil
  | .cons name _ children rest =>
    .cons name ((look name).getD (.text "")) (dress look children) (dress look rest)

@[simp] theorem Forest.dress_append (look : NodeId → Option NodeData)
    (first second : Forest NodeId Unit) :
    (first ++ second).dress look = first.dress look ++ second.dress look := by
  induction first with
  | nil => rfl
  | cons name label children rest _ beside => simp [Forest.dress, beside]

/-- Document trees are the forest of their names with their data put on it. -/
theorem Forest.dress_shape {look : NodeId → Option NodeData} {forest : Forest NodeId NodeData}
    (looks : ∀ name data, (name, data) ∈ forest.entries → look name = some data) :
    forest.shape.dress look = forest := by
  induction forest with
  | nil => rfl
  | cons name data children rest below beside =>
      have here := looks name data (by simp [Forest.entries])
      have inside := below fun name data member => looks name data (by simp [Forest.entries, member])
      have later := beside fun name data member => looks name data (by simp [Forest.entries, member])
      rw [Forest.shape_cons, Forest.dress, here, inside, later]
      rfl

theorem Forest.alike_seen (forest : Forest NodeId NodeData) : Forest.Alike forest.seen forest := by
  induction forest with
  | nil => exact .nil
  | cons name data children rest below beside => exact .cons ⟨rfl, .refl _, .refl _⟩ below beside

theorem Forest.Alike.trans {First Second Third : Type} {first : Forest First NodeData}
    {second : Forest Second NodeData} {third : Forest Third NodeData}
    (alike : Forest.Alike first second) (also : Forest.Alike second third) :
    Forest.Alike first third := by
  induction alike generalizing third with
  | nil =>
      cases also
      exact .nil
  | cons here _ _ below beside =>
      cases also with
      | cons there inner later => exact .cons (here.trans there) (below inner) (beside later)

theorem Forest.eq_nil_of_alike {look : NodeId → Option NodeData} {forest : Forest NodeId Unit}
    {Other : Type} (alike : Forest.Alike (forest.dress look) (.nil : Forest Other NodeData)) :
    forest = .nil := by
  cases forest with
  | nil => rfl
  | cons => cases alike

/-! ## The picture of tasks -/

/-- What is read by the standing, as a setting. -/
def Frame.setting (frame : Frame) (data : Data) : Setting :=
  ⟨data, frame.registry, frame.label⟩

mutual

/-- The picture of a task. -/
def Task.picture (frame : Frame) (data : Data) : Task → Option Picture
  | .node source model depth =>
    (frame.setting data).node ((frame.setting data).view (frame.limit - depth)) source model
  | .content shows observed =>
    (Task.pictures frame data shows).map (·.following (observed.map .collection))
  | .item body value model depth =>
    (frame.setting data).nodes ((frame.setting data).view (frame.limit - depth)) body
      (value.modelOr model)
  | .list collection body model depth =>
    (Setting.items ((frame.setting data).nodes ((frame.setting data).view (frame.limit - depth)) body)
      model (data.contents.items collection)).map fun picture =>
        (picture.following [.collection collection]).anchored frame.label

/-- The picture of tasks side by side. -/
def Task.pictures (frame : Frame) (data : Data) : List Task → Option Picture
  | [] => some {}
  | task :: later => do
    let first ← task.picture frame data
    return first.beside (← Task.pictures frame data later)

end

section Pictures

variable {frame : Frame} {data : Data}

theorem Task.pictures_nodes (sources : List Node) (model : ModelId) (depth : Nat) :
    Task.pictures frame data (sources.map (.node · model depth)) =
      (frame.setting data).nodes ((frame.setting data).view (frame.limit - depth)) sources model := by
  induction sources with
  | nil => rw [List.map_nil, Task.pictures, Setting.nodes]
  | cons source later induction =>
      rw [List.map_cons, Task.pictures, Setting.nodes, induction, Task.picture]

theorem Task.pictures_items (body : List Node) (values : List Value) (model : ModelId)
    (depth : Nat) :
    Task.pictures frame data (values.map (.item body · model depth)) =
      Setting.items ((frame.setting data).nodes ((frame.setting data).view (frame.limit - depth)) body)
        model values := by
  induction values with
  | nil => rw [List.map_nil, Task.pictures, Setting.items]
  | cons value later induction =>
      rw [List.map_cons, Task.pictures, Setting.items, induction, Task.picture]

theorem Picture.beside_empty (picture : Picture) : picture.beside {} = picture := by
  obtain ⟨page, sources⟩ := picture
  simp [Picture.beside]

theorem Task.pictures_single (task : Task) :
    Task.pictures frame data [task] = task.picture frame data := by
  simp only [Task.pictures]
  cases task.picture frame data with
  | none => rfl
  | some picture => simp [Picture.beside_empty]

/-- What a directive shows has the picture of the directive. -/
theorem Task.pictures_shows (directive : Directive) (model : ModelId) (depth : Nat) (value : Value) :
    (Task.pictures frame data (directive.shows data.contents model depth value)).map
        (·.following ((directive.observes value).map .collection)) =
      (frame.setting data).shown ((frame.setting data).view (frame.limit - depth))
        ((frame.setting data).nodes ((frame.setting data).view (frame.limit - depth)) directive.body)
        model directive.rule value := by
  have plain : ∀ picture : Option Picture, picture.map (·.following []) = picture := by
    intro picture
    cases picture <;> simp [Picture.following]
  obtain ⟨rule, path, body⟩ := directive
  have items : ∀ values, (Task.pictures frame data
      (values.map (.item body · model depth))).map (·.following []) =
        Setting.items ((frame.setting data).nodes
          ((frame.setting data).view (frame.limit - depth)) body) model values := fun values =>
    (plain _).trans (Task.pictures_items body values model depth)
  have bodies : (Task.pictures frame data (body.map (.node · model depth))).map (·.following []) =
      (frame.setting data).nodes ((frame.setting data).view (frame.limit - depth)) body model :=
    (plain _).trans (Task.pictures_nodes body model depth)
  cases rule with
  | showIf =>
      simp only [Directive.shows, Directive.observes, Setting.shown, List.map_nil]
      show _ = if value.isTruthy data.contents = true then _ else _
      split
      · exact bodies
      · simp [Task.pictures, Picture.following]
  | showUnless =>
      simp only [Directive.shows, Directive.observes, Setting.shown, List.map_nil]
      show _ = if value.isTruthy data.contents = true then _ else _
      split
      · simp [Task.pictures, Picture.following]
      · exact bodies
  | each =>
      simp only [Directive.shows, Setting.shown, Task.pictures_items]
      cases value <;> rfl
  | collection =>
      cases value with
      | collection collection =>
          simp only [Directive.shows, Directive.observes, Setting.shown, List.map_nil, plain,
            Task.pictures_single, Task.picture]
          rfl
      | _ => exact items _
  | view name =>
      cases value with
      | model inner =>
          simp only [Directive.shows, Directive.observes, Setting.shown, List.map_nil, plain,
            Task.pictures_single, Task.picture, Setting.node]
      | _ => simp [Directive.shows, Directive.observes, Setting.shown, Task.pictures, Picture.following]

end Pictures

/-! ## Values that involve no collection -/

namespace Value

mutual

/-- Whether no collection is involved in a value. -/
def isPlain : Value → Bool
  | .collection _ => false
  | .list items => allPlain items
  | .null | .bool _ | .number _ | .text _ | .model _ => true

/-- Whether no collection is involved in any of several values. -/
def allPlain : List Value → Bool
  | [] => true
  | item :: later => item.isPlain && allPlain later

end

mutual

/-- The text of a value without collections is the same whatever their texts are. -/
theorem textWith_congr (text other : CollectionId → String) :
    ∀ value : Value, value.isPlain = true → value.textWith text = value.textWith other
  | .collection _, plain => nomatch plain
  | .list items, plain => by
      rw [textWith, textWith, textsWith_congr text other items plain]
  | .null, _ | .bool _, _ | .number _, _ | .text _, _ | .model _, _ => by
      simp only [textWith]

theorem textsWith_congr (text other : CollectionId → String) :
    ∀ items : List Value, allPlain items = true → textsWith text items = textsWith other items
  | [], _ => by simp only [textsWith]
  | item :: later, plain => by
      obtain ⟨here, beyond⟩ := Bool.and_eq_true_iff.1 plain
      rw [textsWith, textsWith, item.textWith_congr text other here,
        textsWith_congr text other later beyond]

end

end Value

theorem Display.outcome_congr {display : Display} {value : Value} (plain : value.isPlain = true)
    (contents other : Contents) : display.outcome contents value = display.outcome other value := by
  have text : value.displayText contents = value.displayText other :=
    value.textWith_congr _ _ plain
  cases display with
  | text => rw [outcome, outcome, text]
  | _ =>
      cases value with
      | null => rfl
      | bool value =>
          cases value with
          | false => rfl
          | true => simp [outcome, attributeText, text]
      | _ => simp [outcome, attributeText, text]

/-- What a bound node displays and what it decides by does not depend on the items of collections. -/
structure BoundNode.Plain (data : Data) (node : BoundNode Part) : Prop where
  shows : ∀ slot path display, node.part.shown? slot = some (path, display) →
    ∃ value : Value, value.isPlain = true ∧
      ∀ contents, data.resolveIn contents node.scope.model path = value
  decides : ∀ directive shown, node.part = .switch directive shown →
    directive.rule = .showIf ∨ directive.rule = .showUnless →
      ∀ collection, data.resolveRaw node.scope.model directive.path ≠ .collection collection

/-- No value involves a collection, and formatters go by the value alone. -/
structure Data.Plain (data : Data) : Prop where
  values : ∀ model property, (data.get model property).isPlain = true
  formatters : ∀ model property formatter,
    (data.model model).formatters.lookup property = some formatter → ∀ value : Value, value.isPlain = true →
      ∃ result : Value, result.isPlain = true ∧ ∀ contents, formatter contents value = result

/-- Whether no value involves a collection and nothing is formatted. -/
def Data.isPlain (data : Data) : Bool :=
  (List.range data.models.next).all fun index =>
    (data.model ⟨index⟩).values.all (·.2.isPlain) && (data.model ⟨index⟩).formatters.isEmpty

theorem Data.plain_of_isPlain {data : Data} (plain : data.isPlain = true) : data.Plain := by
  have parts : ∀ model : ModelId, (data.model model).values.all (·.2.isPlain) = true ∧
      (data.model model).formatters = [] := by
    intro model
    by_cases inside : model.index < data.models.next
    · have here := List.all_eq_true.1 plain model.index (List.mem_range.2 inside)
      obtain ⟨values, formatters⟩ := Bool.and_eq_true_iff.1 here
      exact ⟨values, List.isEmpty_iff.1 formatters⟩
    · have nothing : data.model model = {} := by
        rw [Data.model, Store.get?_eq_none (by omega)]
        rfl
      rw [nothing]
      exact ⟨rfl, rfl⟩
  constructor
  · intro model property
    cases found : (data.model model).values.lookup property with
    | none =>
        rw [Data.get, Model.get, found]
        rfl
    | some value =>
        obtain ⟨before, later, split, _⟩ := List.lookup_eq_some_iff.1 found
        rw [Data.get, Model.get, found]
        exact List.all_eq_true.1 (parts model).1 (property, value) (by simp [split])
  · intro model property formatter found
    rw [(parts model).2] at found
    cases found

theorem Data.Plain.node {data : Data} (plain : data.Plain) (node : BoundNode Part) :
    node.Plain data where
  shows := by
    intro slot path display _
    unfold Data.resolveIn
    split
    · rename_i holder _
      have value := plain.values holder path.last
      cases formatted : (data.model holder).formatters.lookup path.last with
      | none =>
          refine ⟨_, value, fun contents => ?_⟩
          rw [Model.display, formatted]
          rfl
      | some formatter =>
          obtain ⟨result, settled, same⟩ := plain.formatters holder path.last formatter formatted _ value
          refine ⟨result, settled, fun contents => ?_⟩
          rw [Model.display, formatted]
          exact same contents
    · exact ⟨.null, rfl, fun _ => rfl⟩
  decides := by
    intro directive _ _ _ collection
    unfold Data.resolveRaw
    split
    · rename_i holder _
      intro same
      have value := plain.values holder directive.path.last
      rw [same] at value
      cases value
    · intro same
      cases same

theorem Part.shown?_of_display? {part : Part} {slot : Nat} {display : Display} {path : Path}
    (shown : part.display? slot = some (display, .bound path)) :
    part.shown? slot = some (path, display) := by
  match part with
  | .text content =>
      simp only [display?] at shown
      split at shown
      · cases shown
        rfl
      · cases shown
  | .element attributes =>
      obtain ⟨entry, there, called⟩ := Option.bind_eq_some_iff.1 shown
      simp only [shown?, there]
      cases entry <;> simp_all [Attribute.display?]
  | .switch .. | .list .. | .group | .watch _ | .view _ => cases shown

/-! ## What is up to date -/

/-- Nothing is late and nothing is stale. -/
structure Standing.Settled (standing : Standing) : Prop where
  late : ∀ subscription, ¬ standing.late subscription
  stale : ∀ name slot, ¬ standing.stale name slot

/-- Nothing is late or stale if nobody has to be told. -/
theorem World.settled_standing {Client : Type} (world : World Client) (place : DocumentId)
    (id : RenderId) (former : CollectionId → List Value) :
    (world.standing place id former [] []).Settled := by
  constructor
  · rintro _ ⟨_, listed, _⟩
    cases listed
  · rintro _ _ ⟨_, _, listed, _⟩
    cases listed

section Exact

variable {frame : Frame} {standing : Standing} {root name : BoundId} {way : Nat → List String}
  {task : Task} {tasks full : List Task} {node : BoundNode Part} {forest below : Bindings}

/-- An element that wears what it should looks as if it had just been built. -/
theorem Wears.alike_element (settled : standing.Settled) {attributes : List Attribute} {tag : String}
    {model : ModelId} {data : NodeData} {ledger : List Subscription} {dom : Option NodeId}
    {controller : ControllerId} {depth : Nat}
    (wears : Wears standing name model (.element attributes) data) (kind : data.kind = .element tag)
    (single : ((attributes.filterMap Attribute.display?).map Prod.fst).Nodup)
    (plain : BoundNode.Plain standing.data
      ⟨.element attributes, dom, ledger, ⟨model, controller, depth⟩⟩) :
    data.Alike (attributes.foldl ((frame.setting standing.data).entered model) (.element tag)) := by
  obtain ⟨same, neat, shows, _⟩ := (frame.setting standing.data).entered_all model
    (NodeData.neat_bare (.element tag) [] rfl rfl) single
  refine wears.neat.alike neat (kind.trans same.symm) fun display member => ?_
  obtain ⟨⟨_, expression⟩, listed, rfl⟩ := List.mem_map.1 member
  obtain ⟨entry, there, called⟩ := List.mem_filterMap.1 listed
  obtain ⟨slot, placed⟩ := List.mem_iff_getElem?.1 there
  have shown : (Part.element attributes).display? slot = some (_, expression) :=
    Option.bind_eq_some_iff.2 ⟨entry, placed, called⟩
  refine ⟨_, ?_, shows _ _ listed⟩
  cases expression with
  | literal text => simpa [Setting.value] using wears.written slot _ text shown
  | bound path =>
      obtain ⟨contents, worn⟩ := (wears.shows slot _ path shown).resolve_left (settled.stale _ _)
      obtain ⟨value, fixed, reads⟩ := plain.shows slot path _ (Part.shown?_of_display? shown)
      have now : standing.data.resolve model path = value := reads standing.data.contents
      rw [Data.outcome, reads] at worn
      show Display.Shows _ (Display.outcome _ _ (standing.data.resolve model path)) data
      rw [now, Display.outcome_congr fixed]
      exact worn

/-- A text that shows what it should looks as if it had just been built. -/
theorem Wears.alike_text (settled : standing.Settled) {content : Expression}
    {model : ModelId} {data : NodeData} {ledger : List Subscription} {dom : Option NodeId}
    {controller : ControllerId} {depth : Nat}
    (wears : Wears standing name model (.text content) data)
    (plain : BoundNode.Plain standing.data ⟨.text content, dom, ledger, ⟨model, controller, depth⟩⟩) :
    data.Alike (.text (((frame.setting standing.data).value model content).displayText
      standing.data.contents)) := by
  have shows : Display.text.Shows (some (((frame.setting standing.data).value model
      content).displayText standing.data.contents)) data := by
    cases content with
    | literal text =>
        simpa [Setting.value, Value.displayText, Value.textWith] using wears.written 0 .text text rfl
    | bound path =>
        obtain ⟨contents, worn⟩ := (wears.shows 0 .text path rfl).resolve_left (settled.stale _ _)
        obtain ⟨value, fixed, reads⟩ := plain.shows 0 path .text rfl
        have now : standing.data.resolve model path = value := reads standing.data.contents
        rw [Data.outcome, reads, Display.outcome_congr fixed contents standing.data.contents] at worn
        show Display.text.Shows (some ((standing.data.resolve model path).displayText _)) data
        rw [now]
        exact worn
  obtain ⟨shown, there, same⟩ := shows
  obtain rfl := Option.some.inj same
  have neat := wears.neat
  have other : NodeData.Neat (.text (((frame.setting standing.data).value model content).displayText
      standing.data.contents)) [.text] := NodeData.neat_bare _ _ rfl rfl
  refine neat.alike other there fun display member => ?_
  obtain rfl := List.mem_singleton.1 member
  exact ⟨_, ⟨_, there, rfl⟩, ⟨_, rfl, rfl⟩⟩

/-- The channels along the paths that a part follows, beyond the first of each. -/
def Part.trails (part : Part) (data : Data) (model : ModelId) : List Source :=
  part.followed.flatMap fun entry => data.trail (data.get model entry.2.head) entry.2.tail

/-- A registration of a part lies on the first channel of each path that it follows. -/
theorem Follows.heads {ledger : List Subscription} {model : ModelId} {part : Part}
    (follows : Follows frame standing name model part ledger below) :
    ledger.map (·.source) =
      part.followed.map fun entry => .model model (changeChannel entry.2.head) := by
  rw [← List.forall₂_eq_eq_eq, List.forall₂_map_left_iff, List.forall₂_map_right_iff]
  exact List.Forall₂.imp (fun _ _ linked => linked.source) follows

theorem Template.Attribute.expression?_eq (entry : Attribute) :
    entry.expression? = entry.display?.map Prod.snd := by
  cases entry <;> rfl

/-- The paths of an element are those of the expressions in its entries. -/
theorem Part.paths_sources (frame : Frame) (data : Data) (model : ModelId) (slot : Nat)
    (attributes : List Attribute) :
    ((Part.paths slot attributes).map fun entry => Source.model model (changeChannel entry.2.head)) =
        (attributes.filterMap Attribute.expression?).flatMap (·.head model) ∧
      ((Part.paths slot attributes).flatMap fun entry =>
          data.trail (data.get model entry.2.head) entry.2.tail) =
        (attributes.filterMap Attribute.expression?).flatMap ((frame.setting data).tail model) := by
  induction attributes generalizing slot with
  | nil => exact ⟨rfl, rfl⟩
  | cons entry later induction =>
      obtain ⟨heads, tails⟩ := induction (slot + 1)
      rw [Part.paths, List.filterMap_cons, Attribute.expression?_eq]
      cases entry.display? with
      | none => exact ⟨heads, tails⟩
      | some pair =>
          obtain ⟨display, expression⟩ := pair
          cases expression with
          | literal text => simp [Expression.head, Setting.tail, heads, tails]
          | bound path => simp [Expression.head, Setting.tail, Frame.setting, heads, tails]

/-- Where a directive wants what it is shown for, it shows what it would show now. -/
theorem Data.Wants.eq_of_plain {data : Data} {directive : Directive} {model : ModelId} {depth : Nat}
    {outcome : Option Bool × List Task × List CollectionId}
    (wants : data.Wants directive model depth outcome)
    (plain : directive.rule = .showIf ∨ directive.rule = .showUnless →
      ∀ collection, data.resolveRaw model directive.path ≠ .collection collection) :
    outcome = data.wanted data.contents directive model depth := by
  obtain ⟨contents, reason, rfl⟩ := wants
  have truth : directive.rule = .showIf ∨ directive.rule = .showUnless →
      (data.resolveRaw model directive.path).isTruthy contents =
        (data.resolveRaw model directive.path).isTruthy data.contents :=
    fun condition => Value.isTruthy_congr (plain condition) _ _
  rcases reason with rule | rule | rfl
  · simp only [Data.wanted, Directive.outcome, Site.decision, Directive.shows, Directive.observes,
      rule, truth (.inl rule)]
  · simp only [Data.wanted, Directive.outcome, Site.decision, Directive.shows, Directive.observes,
      rule, truth (.inr rule)]
  · rfl

/-- A bound node that is right for a task shows the picture of the task, if what is below it shows
its own. -/
theorem Local.exact (strict : frame.strict) (whole : ¬ frame.mayFail) (settled : standing.Settled)
    (proper : task.Proper frame) (here : Local frame standing root name task node below full)
    (plain : node.Plain standing.data) {inner : Picture}
    (drawn : Task.pictures frame standing.data full = some inner)
    (page : Forest.Alike ((skeleton below).dress standing.look) inner.page)
    (held : (sources below).Perm
      (node.part.trails standing.data node.scope.model ++ inner.sources)) :
    ∃ picture, task.picture frame standing.data = some picture ∧
      Forest.Alike ((node.around (skeleton below)).dress standing.look) picture.page ∧
      (node.ledger.map (·.source) ++ sources below).Perm picture.sources := by
  cases here with
  | @element tag attributes children line model depth controller dom data ledger _ look kind wears
      follows =>
      rw [Task.pictures_nodes] at drawn
      obtain ⟨heads, tails⟩ := Part.paths_sources frame standing.data model 0 attributes
      have single : ((attributes.filterMap Attribute.display?).map Prod.fst).Nodup := by
        cases proper with
        | node proper => exact proper.1 strict
      rw [Task.picture, Setting.node, drawn]
      refine ⟨_, rfl, ?_, ?_⟩
      · rw [BoundForest.around_of_element rfl rfl]
        refine .cons ?_ page .nil
        rw [look]
        exact (wears strict).alike_element settled kind single plain
      · have asked := held.append_left (ledger.map (·.source))
        rw [follows.heads] at asked ⊢
        simp only [Part.trails, Part.followed, heads, tails] at asked ⊢
        exact asked
  | @text content model depth controller dom data ledger _ look kind wears follows =>
      obtain rfl := Option.some.inj drawn
      rw [Task.picture, Setting.node]
      refine ⟨_, rfl, ?_, ?_⟩
      · show Forest.Alike (Forest.dress _ (.cons dom () .nil (skeleton below))) _
        refine .cons ?_ .nil page
        rw [look]
        exact wears.alike_text settled plain
      · have asked := held.append_left (ledger.map (·.source))
        rw [follows.heads] at asked ⊢
        cases content <;> simpa [Part.trails, Part.followed, Setting.text, Setting.tail,
          Expression.head, Frame.setting] using asked
  | @switch directive shown shows observed model depth controller dom ledger _ look possible wanted
      follows =>
      have now := (wanted.resolve_left (settled.stale _ _)).eq_of_plain (plain.decides _ _ rfl)
      obtain ⟨rfl, same⟩ := Prod.mk.inj now
      obtain ⟨rfl, rfl⟩ := Prod.mk.inj same
      rw [Task.pictures_single, Task.picture, Task.pictures_shows] at drawn
      rw [Task.picture, Setting.node, Setting.directive]
      have value : (frame.setting standing.data).data.resolveRaw model directive.path =
        standing.data.resolveRaw model directive.path := rfl
      rw [value, drawn]
      refine ⟨_, rfl, ?_, ?_⟩
      · show Forest.Alike (Forest.dress _ (.cons dom () .nil (skeleton below))) _
        refine .cons ?_ .nil page
        rw [look]
        exact .refl _
      · have asked := held.append_left (ledger.map (·.source))
        rw [follows.heads] at asked ⊢
        simpa [Part.trails, Part.followed, Setting.tail, Expression.head, Frame.setting,
          Picture.following, Picture.anchored] using asked
  | @view view template model depth controller _ found room =>
      rw [Task.pictures_single] at drawn
      refine ⟨inner, ?_, ?_, ?_⟩
      · obtain ⟨more, left⟩ := Nat.exists_eq_add_of_lt room
        rw [Task.picture] at drawn ⊢
        rw [Setting.node, show frame.limit - depth = frame.limit - (depth + 1) + 1 by omega,
          Setting.view]
        show (do let template ← frame.registry.view? view; _) = _
        rw [found]
        exact drawn
      · rwa [BoundForest.around_of_none rfl]
      · simpa [Part.trails, Part.followed] using held
  | @content _ observed ledger scope _ observes =>
      rw [Task.picture, drawn]
      refine ⟨_, rfl, ?_, ?_⟩
      · rwa [BoundForest.around_of_none rfl]
      · have heads : ledger.map (·.source) = observed.map .collection := by
          rw [← List.forall₂_eq_eq_eq, List.forall₂_map_left_iff, List.forall₂_map_right_iff]
          exact observes.imp fun _ _ => And.left
        have asked := held.append_left (ledger.map (·.source))
        rw [heads] at asked ⊢
        exact asked
  | @item body value model depth controller _ =>
      rw [Task.pictures_nodes] at drawn
      refine ⟨inner, drawn, ?_, ?_⟩
      · rwa [BoundForest.around_of_none rfl]
      · simpa [Part.trails, Part.followed] using held
  | @list collection body items model depth controller dom subscription _ look source holds lists =>
      rw [lists.current (settled.late _), Task.pictures_items] at drawn
      rw [Task.picture, drawn]
      refine ⟨_, rfl, ?_, ?_⟩
      · show Forest.Alike (Forest.dress _ (.cons dom () .nil (skeleton below))) _
        refine .cons ?_ .nil page
        rw [look]
        exact .refl _
      · have asked := held.append_left [subscription.source]
        rw [source] at asked
        simpa [Part.trails, Part.followed, source, Picture.following, Picture.anchored] using asked
  | unfinished _ fails => exact (whole fails).elim

/-- Something more in one place comes once more in all places together. -/
theorem perm_flatMap_of_mem {Item : Type} {places : List Nat} (single : places.Nodup) {here : Nat}
    (member : here ∈ places) (first : List Item) (later : Nat → List Item) :
    (places.flatMap fun place => if here = place then first ++ later place else later place).Perm
      (first ++ places.flatMap later) := by
  induction places with
  | nil => cases member
  | cons place others induction =>
      obtain ⟨apart, beyond⟩ := List.nodup_cons.1 single
      by_cases same : here = place
      · subst same
        have rest : (others.flatMap fun place =>
            if here = place then first ++ later place else later place) = others.flatMap later :=
          List.flatMap_congr fun other listed => if_neg (by rintro rfl; exact apart listed)
        simp [rest]
      · have deeper := induction beyond ((List.mem_cons.1 member).resolve_left same)
        rw [List.flatMap_cons, List.flatMap_cons, if_neg same]
        exact (deeper.append_left _).trans (List.perm_append_comm_assoc ..)

/-- The paths that a part follows are watched along their trails. -/
theorem Follows.trails (settled : standing.Settled) {ledger : List Subscription} {model : ModelId}
    {part : Part} (follows : Follows frame standing name model part ledger below)
    (inside : Fits frame standing name part.way tasks below) :
    (part.followed.map Prod.fst).flatMap (fun slot => sources (watching below slot)) =
      part.trails standing.data model := by
  rw [List.flatMap_map, Part.trails]
  refine List.flatMap_congr fun entry member => ?_
  obtain ⟨subscription, _, linked⟩ := exists_of_mem_forall₂ (List.Forall₂.flip follows) member
  obtain ⟨found, there, reads⟩ := linked.next
  have read := reads.resolve_left fun late => settled.late _ late.2
  have calm : standing.Calm frame.render name entry.1 :=
    fun subscription _ _ _ => settled.late subscription
  exact inside.trail calm (Part.way_of_path? (Part.mem_followed.1 member)) ⟨found, there, read⟩

theorem Local.trails (settled : standing.Settled)
    (here : Local frame standing root name task node below full)
    (inside : Fits frame standing name node.part.way tasks below) :
    (node.part.followed.map Prod.fst).flatMap (fun slot => sources (watching below slot)) =
      node.part.trails standing.data node.scope.model := by
  cases here with
  | element _ _ _ follows => exact follows.trails settled inside
  | text _ _ _ follows => exact follows.trails settled inside
  | switch _ _ _ follows => exact follows.trails settled inside
  | view | content | item | list | unfinished => rfl

theorem Part.slots_nodup (part : Part) : (part.followed.map Prod.fst).Nodup := by
  have paths : ∀ attributes slot, ((Part.paths slot attributes).map Prod.fst).Nodup := by
    intro attributes
    induction attributes with
    | nil => exact fun _ => List.nodup_nil
    | cons entry later induction =>
        intro slot
        rw [Part.paths, List.map_append, List.nodup_append']
        refine ⟨by split <;> simp, induction (slot + 1), fun position early late => ?_⟩
        obtain ⟨⟨_, path⟩, listed, rfl⟩ := List.mem_map.1 late
        have beyond := (Part.mem_paths.1 listed).1
        split at early <;> simp at early
        omega
  cases part with
  | element attributes => exact paths attributes 0
  | text content =>
      cases content with
      | literal => exact List.nodup_nil
      | bound => exact List.nodup_singleton _
  | switch => exact List.nodup_singleton _
  | list | group | watch | view => exact List.nodup_nil

theorem Part.mem_slots {part : Part} {slot : Nat} (more : part.way slot ≠ []) :
    slot ∈ part.followed.map Prod.fst := by
  cases calls : part.path? slot with
  | none => simp [Part.way, calls] at more
  | some path => exact List.mem_map.2 ⟨(slot, path), Part.mem_followed.2 calls, rfl⟩

/-- Bound nodes that fit show the picture of what they are for.  In each of the given slots a path may
be watched besides. -/
theorem Fits.exact (strict : frame.strict) (whole : ¬ frame.mayFail) (settled : standing.Settled)
    (fits : Fits frame standing root way tasks forest)
    (plain : ∀ entry ∈ forest.entries, entry.2.Plain standing.data) :
    ∃ picture, Task.pictures frame standing.data tasks = some picture ∧
      Forest.Alike ((skeleton forest).dress standing.look) picture.page ∧
      ∀ slots : List Nat, slots.Nodup → (∀ slot, way slot ≠ [] → slot ∈ slots) →
        (sources forest).Perm
          (slots.flatMap (fun slot => sources (watching forest slot)) ++ picture.sources) := by
  induction fits with
  | nil =>
      refine ⟨{}, rfl, .nil, fun slots _ _ => ?_⟩
      simp [watching, Forest.keep]
  | @watch root name way tasks slot segment later subscription scope below beside ahead linked inside
      others deeper beyond =>
      obtain ⟨picture, drawn, page, held⟩ := beyond fun entry member =>
        plain entry (by simp [Forest.entries, member])
      obtain ⟨nothing, empty, bare, _⟩ := deeper fun entry member =>
        plain entry (by simp [Forest.entries, member])
      obtain rfl := Option.some.inj empty
      refine ⟨picture, drawn, ?_, fun slots single every => ?_⟩
      · rw [BoundForest.skeleton_cons, BoundForest.around_of_none rfl, Forest.eq_nil_of_alike bare]
        exact page
      · have watched : ∀ place, sources (watching
            (.cons name ⟨.watch slot, none, [subscription], scope⟩ below beside) place) =
              if slot = place then
                (subscription.source :: sources below) ++ sources (watching beside place)
              else sources (watching beside place) := by
          intro place
          by_cases same : slot = place <;>
            simp [watching, Forest.keep, Part.watches, same]
        have more := perm_flatMap_of_mem single (every slot (by simp [ahead]))
          (subscription.source :: sources below) fun place => sources (watching beside place)
        rw [List.flatMap_congr fun place _ => watched place]
        refine List.Perm.trans ?_ (more.symm.append_right _)
        have rest := (held slots single every).append_left (subscription.source :: sources below)
        simpa using rest
  | @cons root name way task tasks full inner node below beside proper here covers inside others
      deeper beyond =>
      obtain rfl := covers.resolve_right fun fails => whole fails.1
      obtain ⟨within, also, page, held⟩ := deeper fun entry member =>
        plain entry (by simp [Forest.entries, member])
      obtain ⟨picture, drawn, other, more⟩ := beyond fun entry member =>
        plain entry (by simp [Forest.entries, member])
      have inner := held _ node.part.slots_nodup fun slot => Part.mem_slots
      rw [here.trails settled inside] at inner
      obtain ⟨mine, shown, looks, asked⟩ := here.exact strict whole settled proper
        (plain (name, node) (by simp [Forest.entries])) also page inner
      refine ⟨mine.beside picture, ?_, ?_, fun slots single every => ?_⟩
      · rw [Task.pictures, shown, drawn]
        rfl
      · rw [BoundForest.skeleton_cons, Forest.dress_append]
        exact looks.append other
      · have unwatched : ∀ place, watching (.cons name node below beside) place =
            watching beside place := fun place => by
          rw [watching, Forest.keep, if_neg (by simp [here.watches_eq_false])]
          rfl
        simp only [unwatched, BoundForest.sources_cons]
        rw [← List.append_assoc]
        have both := asked.append (more slots single every)
        refine both.trans ?_
        exact List.perm_append_comm_assoc ..

end Exact

end LiveTemplate
