import LiveTemplate.Proofs.Reactive.Registration
import LiveTemplate.View.Build

/-!
# What a template means

A template node has a picture in the scope of a model: the document trees that it shows, and the
channels and collections that have to be followed for them.  The picture is given by recursion on the
template, without cursors, numbers or registrations; nested views are bounded in number.  There is no
picture where a view is missing or nested too deeply.
-/

namespace LiveTemplate

open Template (Node Attribute Expression Path Rule)

/-- What is seen of a document node: all but its listeners. -/
def NodeData.seen (data : NodeData) : NodeData :=
  { data with listeners := [] }

/-- What is seen of document trees, whatever nodes they consist of. -/
def Forest.seen {Name : Type} : Forest Name NodeData → Forest Unit NodeData
  | .nil => .nil
  | .cons _ data children rest => .cons () data.seen children.seen rest.seen

/-- What is shown, and what is followed to keep it up to date. -/
structure Picture where
  page : Forest Unit NodeData := .nil
  sources : List Source := []

namespace Picture

/-- One picture beside another. -/
def beside (first second : Picture) : Picture :=
  ⟨first.page ++ second.page, first.sources ++ second.sources⟩

/-- The same page, for which more is followed. -/
def following (picture : Picture) (sources : List Source) : Picture :=
  { picture with sources := sources ++ picture.sources }

/-- An anchor in front of the page. -/
def anchored (picture : Picture) (label : Option String) : Picture :=
  { picture with page := .cons () (.anchor label) .nil picture.page }

end Picture

/-- The models and collections at one time, the registered views, and the label of anchors. -/
structure Setting where
  data : Data
  registry : Registry
  label : Option String

/-- The channels of the models on the way along the rest of a path. -/
def Data.trail (data : Data) (value : Value) : List String → List Source
  | [] => []
  | segment :: rest =>
    match value with
    | .model model =>
      .model model (changeChannel segment) :: data.trail (data.get model segment) rest
    | _ => []

/-- The expressions in the entries of an element. -/
def Template.Attribute.expression? : Attribute → Option Expression
  | .property _ expression | .style _ expression => some expression
  | .event .. => none

/-- The model in whose scope a body is shown for an item. -/
def Value.modelOr (value : Value) (model : ModelId) : ModelId :=
  match value with
  | .model item => item
  | _ => model

/-- The collection that has to be followed for the items of a value. -/
def Value.observed : Value → List Source
  | .collection id => [.collection id]
  | _ => []

/-- The first channel that is followed for an expression. -/
def Template.Expression.head (model : ModelId) : Expression → List Source
  | .literal _ => []
  | .bound path => [.model model (changeChannel path.head)]

namespace Setting

variable (setting : Setting)

/-- The value of an expression as it is displayed. -/
def value (model : ModelId) : Expression → Value
  | .literal text => .text text
  | .bound path => setting.data.resolve model path

/-- The other channels that are followed for an expression. -/
def tail (model : ModelId) : Expression → List Source
  | .literal _ => []
  | .bound path => setting.data.trail (setting.data.get model path.head) path.tail

/-- An element with one more entry. -/
def entered (model : ModelId) (node : NodeData) : Attribute → NodeData
  | .property name expression =>
    node.setAttribute name (attributeText setting.data.contents (setting.value model expression))
  | .style name expression =>
    node.setStyle name (attributeText setting.data.contents (setting.value model expression))
  | .event .. => node

/-- A text. -/
def text (model : ModelId) (content : Expression) : Picture where
  page := .leaf () (.text ((setting.value model content).displayText setting.data.contents))
  sources := content.head model ++ setting.tail model content

/-- A body once for each item. -/
def items (body : ModelId → Option Picture) (model : ModelId) : List Value → Option Picture
  | [] => some {}
  | value :: later => do
    let first ← body (value.modelOr model)
    return first.beside (← items body model later)

/-- What a directive shows for a value, after its anchor. -/
def shown (view : ModelId → String → Option Picture) (body : ModelId → Option Picture)
    (model : ModelId) (rule : Rule) (value : Value) : Option Picture :=
  match rule with
  | .showIf => if value.isTruthy setting.data.contents then body model else some {}
  | .showUnless => if value.isTruthy setting.data.contents then some {} else body model
  | .each =>
    (items body model (Site.itemsOf setting.data.contents value)).map (·.following value.observed)
  | .collection =>
    match value with
    | .collection collection =>
      (items body model (setting.data.contents.items collection)).map fun picture =>
        (picture.following [.collection collection]).anchored setting.label
    | other => items body model (Site.itemsOf setting.data.contents other)
  | .view name =>
    match value with
    | .model inner => view inner name
    | _ => some {}

/-- A directive: its anchor and what it shows. -/
def directive (view : ModelId → String → Option Picture) (body : ModelId → Option Picture)
    (model : ModelId) (rule : Rule) (path : Path) : Option Picture :=
  (setting.shown view body model rule (setting.data.resolveRaw model path)).map fun picture =>
    (picture.following ((Expression.bound path).head model ++ setting.tail model (.bound path))).anchored
      setting.label

mutual

/-- One node in the scope of a model. -/
def node (setting : Setting) (view : ModelId → String → Option Picture) :
    Node → ModelId → Option Picture
  | .element tag entries children _, model => do
    let inner ← setting.nodes view children model
    let expressions := entries.filterMap Attribute.expression?
    return {
      page := .cons () (entries.foldl (setting.entered model) (.element tag)) inner.page .nil
      sources := expressions.flatMap (·.head model) ++
        (expressions.flatMap (setting.tail model) ++ inner.sources) }
  | .text content, model => some (setting.text model content)
  | .directive rule path body, model => setting.directive view (setting.nodes view body) model rule path
  | .view name, model => view model name

/-- Nodes side by side. -/
def nodes (setting : Setting) (view : ModelId → String → Option Picture) :
    List Node → ModelId → Option Picture
  | [], _ => some {}
  | first :: later, model => do
    let picture ← setting.node view first model
    return picture.beside (← setting.nodes view later model)

end

/-- A registered view for a model, with room for so many views in each other. -/
def view (setting : Setting) : Nat → ModelId → String → Option Picture
  | 0, _, _ => none
  | room + 1, model, name => do
    let template ← setting.registry.view? name
    setting.node (setting.view room) template.root model

end Setting

end LiveTemplate
