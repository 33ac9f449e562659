import LiveTemplate.Session.Datum
import LiveTemplate.Template.Parse

/-!
# Templates in answers
-/

namespace LiveTemplate.Session

open Template

/-- A token: its kind, its text and its line. -/
def tokenAnswer (token : Token) : Datum :=
  .list [.text token.symbol.kind, .text token.symbol.text, .natural token.line]

/-- A path: its segments. -/
def pathAnswer (path : Path) : Datum :=
  .list (path.segments.map .text)

/-- A value position. -/
def expressionAnswer : Expression → Datum
  | .literal text => .record [("lit", .text text)]
  | .bound path => .record [("bound", pathAnswer path)]

/-- An entry of an attribute list. -/
def attributeAnswer : Attribute → Datum
  | .property name value => .record [("name", .text name), ("value", expressionAnswer value)]
  | .style name value => .record [("style", .text name), ("value", expressionAnswer value)]
  | .event name action prevents =>
    .record [("event", .text name), ("action", .text action), ("prevent", .bool prevents)]

/-- The word under which a directive that has a body reports its path. -/
def Template.Rule.word : Rule → String
  | .showIf => "if"
  | .showUnless => "unless"
  | .each => "in"
  | .collection => "collection"
  | .view _ => "view"

mutual

/-- A node with everything below it. -/
def nodeAnswer : Node → Datum
  | .element tag attributes children line =>
    .record [("el", .text tag), ("line", .natural line),
      ("attrs", .list (attributes.map attributeAnswer)), ("kids", .list (nodeAnswers children))]
  | .text content => expressionAnswer content
  | .directive (.view name) path _ => .record [("view", .text name), ("path", pathAnswer path)]
  | .directive rule path body =>
    .record [(Template.Rule.word rule, pathAnswer path), ("body", .list (nodeAnswers body))]
  | .view name => .record [("view", .text name), ("path", .null)]

/-- A sequence of nodes. -/
def nodeAnswers : List Node → List Datum
  | [] => []
  | node :: later => nodeAnswer node :: nodeAnswers later

end

/-- A template with the names of the views that it refers to. -/
def templateAnswer (template : Template) : Datum :=
  .record [("root", nodeAnswer template.root),
    ("views", .list (template.viewNames.map .text))]

/-- The kind of a parse error. -/
def parseErrorKind : ParseError → String
  | .layout _ => "Syntax"
  | .unexpected .. => "UnexpectedToken"
  | .unclosedAttributes _ => "UnclosedAttributes"
  | .missingBlock .. => "MissingBlock"
  | .unknownDirective .. => "UnknownDirective"
  | .multipleRoots _ => "MultipleRoots"
  | .rootNotElement _ => "RootNotElement"
  | .empty => "Empty"

/-- A refusal to parse: the kind, the wording and the line. -/
def parseErrorAnswer (error : ParseError) : Datum :=
  .record [("error", .text (parseErrorKind error)), ("message", .text error.message),
    ("line", (error.line?.map Datum.natural).getD .null)]

/-- A source that cannot be cut into tokens. -/
def layoutErrorAnswer (error : LayoutError) : Datum :=
  .record [("error", .text "SyntaxError"), ("message", .text error.message),
    ("line", .natural error.line)]

/-- Answer with the tokens of a source. -/
def tokenizeAnswer (source : String) : Datum :=
  match tokenize source with
  | .ok tokens => .list (tokens.map tokenAnswer)
  | .error error => layoutErrorAnswer error

/-- Answer with the tree of a source. -/
def parseAnswer (source : String) : Datum :=
  match parse source with
  | .ok template => templateAnswer template
  | .error error => parseErrorAnswer error

/-- Answer with the parts of a path. -/
def pathPartsAnswer (text : String) : Datum :=
  let path := Path.ofText text
  .record [("segments", pathAnswer path), ("head", .text path.head), ("last", .text path.last),
    ("display", .text path.text)]

end LiveTemplate.Session
