import LiveTemplate.Session.Reading
import LiveTemplate.Session.TemplateAnswer

/-!
# Reporting values, nodes, events and failures

Values are reported with models and collections by name and with numbers by their digits.
-/

namespace LiveTemplate.Session

/-- A text in an answer, or nothing. -/
def reportText (text : Option String) : Datum :=
  Datum.optionalText text

/-- A number by its digits. -/
def reportNumber (number : Float) : Datum :=
  .record [("num", .text (Decimal.positional number))]

/-- A model by name. -/
def reportModel (book : Book) (model : ModelId) : Datum :=
  .text (Book.nameAmong book.models model)

mutual

/-- A value. -/
def reportValue (book : Book) : Value → Datum
  | .null => .null
  | .bool value => .bool value
  | .number value => reportNumber value
  | .text value => .text value
  | .list items => .list (reportValues book items)
  | .model id => .record [("model", reportModel book id)]
  | .collection id => .record [("coll", .text (Book.nameAmong book.collections id))]

/-- Several values. -/
def reportValues (book : Book) : List Value → List Datum
  | [] => []
  | item :: later => reportValue book item :: reportValues book later

end

/-- A value, or nothing: a sequence of one or none. -/
def reportFound (book : Book) (value : Option Value) : Datum :=
  .list (value.toList.map (reportValue book))

/-- A position, or nothing. -/
def reportPosition (position : Option Nat) : Datum :=
  (position.map Datum.natural).getD .null

/-- A change of a collection. -/
def reportChange (book : Book) : Change → Datum
  | .insert index item => .list [.text "insert", .natural index, reportValue book item]
  | .remove index item => .list [.text "remove", .natural index, reportValue book item]
  | .update index item => .list [.text "update", .natural index, reportValue book item]
  | .replace items => .list [.text "replace", .list (reportValues book items)]

/-- Everything that is asked about a value: how it is reported, its text, its truth, what it can be
taken as, and its equality with itself and with another value. -/
def reportAbout (book : Book) (contents : Contents) (value : Value) (other : Option Value) :
    Datum :=
  let asBool : Datum := match value with | .bool value => .bool value | _ => .null
  let asNumber : Datum :=
    match value with | .number value => .text (Decimal.positional value) | _ => .null
  let asText : Datum := match value with | .text value => .text value | _ => .null
  let asModel : Datum := .bool (match value with | .model _ => true | _ => false)
  let asCollection : Datum :=
    match value with | .collection id => .natural (contents.items id).length | _ => .null
  let isNull : Datum := .bool (match value with | .null => true | _ => false)
  .record ([
    ("show", reportValue book value), ("text", .text (value.displayText contents)),
    ("truthy", .bool (value.isTruthy contents)), ("null", isNull),
    ("as", .list [asBool, asNumber, asText, asModel, asCollection]),
    ("eq_self", .bool (value.same value))] ++
    match other with
    | none => []
    | some other =>
      [("eq", .bool (value.same other)), ("eq_rev", .bool (other.same value))])

/-- A refusal of a model. -/
def reportModelError (error : ModelError) : Datum :=
  match error with
  | .undeclaredProperty _ => failure "UndeclaredProperty" error.message

/-- A failure to show a template. -/
def reportRenderError (error : RenderError) : Datum :=
  match error with
  | .unknownView _ => failure "UnknownView" error.message
  | .viewDepthExceeded .. => failure "ViewDepthExceeded" error.message
  | .parse error => parseErrorAnswer error

/-- Named texts in order. -/
def reportPairs (pairs : List (String × String)) : Datum :=
  .list (pairs.map fun pair => .list [.text pair.1, .text pair.2])

/-- The data of a node. -/
def reportData (data : NodeData) : Datum :=
  match data.kind with
  | .element tag =>
    .list [.text "element", .text tag, reportPairs data.attributes, reportPairs data.styles]
  | .text content => .list [.text "text", .text content]
  | .anchor label => .list [.text "anchor", reportText label]

/-- An event whose nodes are known by the given names. -/
def reportEventWith (book : Book) (event : Event) (target current : Datum) : Datum :=
  .record [
    ("name", .text event.name), ("target", target), ("current", current),
    ("detail", reportValue book event.detail), ("prevented", .bool event.prevented),
    ("stopped", .bool event.stopped)]

/-- An event in the session's document. -/
def reportEvent (event : Event) : Script Datum := do
  let target ← Script.reportNode event.target
  let current ← Script.reportNode event.current
  return reportEventWith (← Script.book) event target current

/-- A value with the names of the session. -/
def report (value : Value) : Script Datum :=
  return reportValue (← Script.book) value

end LiveTemplate.Session
