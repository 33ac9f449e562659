import LiveTemplate.Template.Layout

/-!
# Why a source is not a template
-/

namespace LiveTemplate.Template

/-- What the grammar asks for at a place. -/
inductive Expectation where
  | endOfLine
  | equals
  | name
  | attributeOrBracket
  /-- Only the words `style` and `event` qualify an attribute. -/
  | qualifier
  | value
  | path
  | viewOrPath
  | directive
  | line
  /-- Text is not followed by a deeper line. -/
  | noBlockUnderText
  /-- A view directive is not followed by a deeper line. -/
  | noBlockUnderView
deriving DecidableEq, Repr

/-- The wording of an expectation. -/
def Expectation.message : Expectation → String
  | .endOfLine => Symbol.newline.kind
  | .equals => Lexeme.equals.kind
  | .name => "identifier"
  | .attributeOrBracket => "attribute name or `]`"
  | .qualifier => "`style:` or `event:` prefix"
  | .value => "string literal or property"
  | .path => "property"
  | .viewOrPath => "view name or property"
  | .directive => "directive keyword"
  | .line => "an element, text or `-` directive"
  | .noBlockUnderText => "a line at the enclosing indentation (text takes no block)"
  | .noBlockUnderView => "a line at the enclosing indentation (`view` takes no block)"

/-- The reasons for which a source is refused. -/
inductive ParseError where
  /-- The layout or the characters cannot be read. -/
  | layout (error : LayoutError)
  | unexpected (line : Nat) (expected : Expectation) (found : Symbol)
  | unclosedAttributes (line : Nat)
  | missingBlock (line : Nat) (directive : Keyword)
  | unknownDirective (line : Nat) (name : String)
  | multipleRoots (line : Nat)
  | rootNotElement (line : Nat)
  /-- There is no line with content. -/
  | empty
deriving DecidableEq, Repr

/-- The line that an error refers to. -/
def ParseError.line? : ParseError → Option Nat
  | .layout error => some error.line
  | .unexpected line _ _ => some line
  | .unclosedAttributes line => some line
  | .missingBlock line _ => some line
  | .unknownDirective line _ => some line
  | .multipleRoots line => some line
  | .rootNotElement line => some line
  | .empty => none

/-- The wording of an error. -/
def ParseError.message : ParseError → String
  | .layout error => error.message
  | .unexpected line expected found =>
    located line ("expected " ++ expected.message ++ ", found " ++ found.description)
  | .unclosedAttributes line => located line "attribute list is not closed with `]`"
  | .missingBlock line directive =>
    located line ("`" ++ directive.word ++ "` requires an indented block")
  | .unknownDirective line name => located line ("unknown directive `" ++ name ++ "`")
  | .multipleRoots line => located line "template must have exactly one root element"
  | .rootNotElement line => located line "template root must be an element"
  | .empty => "template is empty"
where
  /-- The wording of an error on a line. -/
  located (line : Nat) (text : String) : String :=
    "line " ++ toString line ++ ": " ++ text

end LiveTemplate.Template
