import LiveTemplate.Proofs.Template.Outline

/-!
# The grammar of templates

A template is a sequence of symbols that can be derived as follows.

    template  := element EOF
    element   := opening NEWLINE block?
    opening   := IDENT ('[' attribute* ']')? part*
    part      := STR | BOUND
    attribute := name '=' value | 'style' ':' name '=' value
               | 'event' ':' name '=' name '!'?
    name      := IDENT | KEYWORD
    value     := STR | BOUND | IDENT
    block     := INDENT line+ OUTDENT
    line      := element | part+ NEWLINE | '-' directive place NEWLINE block | '-' 'view' view NEWLINE
    directive := 'if' | 'unless' | 'in' | 'collection'
    place     := BOUND | IDENT
    view      := STR BOUND? | BOUND

The derivations from a nonterminal are trees of a type of that name.  Each has the symbols at its
leaves, and denotes a piece of a template.
-/

namespace LiveTemplate.Template.Grammar

/-! ## Within a line -/

/-- A name; keywords are plain names there. -/
inductive Name where
  | identifier (name : String)
  | keyword (which : Keyword)

/-- A piece of text. -/
inductive Part where
  | literal (text : String)
  | bound (path : String)

/-- The value of an attribute. -/
inductive Value where
  | literal (text : String)
  | bound (path : String)
  | identifier (name : String)

/-- The property that governs a directive. -/
inductive Place where
  | bound (path : String)
  | identifier (name : String)

/-- An entry of an attribute list. -/
inductive Attribute where
  | property (name : Name) (value : Value)
  | style (name : Name) (value : Value)
  | event (name : Name) (action : Name) (bang : Bool)

/-- What an element has in its own line. -/
structure Opening where
  tag : String
  attributes : Option (List Attribute)
  parts : List Part

/-- The word of a directive with a block. -/
inductive Directive where
  | «if»
  | «unless»
  | «in»
  | collection

/-- What is shown by a view directive. -/
inductive View where
  | named (name : String) (path : Option String)
  | last (path : String)

def Name.unit : Name → Lexeme
  | identifier name => .identifier name
  | keyword which => .keyword which

def Name.text : Name → String
  | identifier name => name
  | keyword which => which.word

def Part.unit : Part → Lexeme
  | literal text => .literal text
  | bound path => .bound path

def Part.expression : Part → Expression
  | literal text => .literal text
  | bound path => .bound (.ofText path)

def Value.unit : Value → Lexeme
  | literal text => .literal text
  | bound path => .bound path
  | identifier name => .identifier name

def Value.expression : Value → Expression
  | literal text => .literal text
  | bound path => .bound (.ofText path)
  | identifier name => .bound (.ofText name)

def Place.unit : Place → Lexeme
  | bound path => .bound path
  | identifier name => .identifier name

def Place.path : Place → Path
  | bound path => .ofText path
  | identifier name => .ofText name

/-- The mark after an action, if there is one. -/
def mark (bang : Bool) : List Lexeme :=
  if bang then [.bang] else []

def Attribute.units : Attribute → List Lexeme
  | property name value => [name.unit, .equals, value.unit]
  | style name value => [.identifier "style", .colon, name.unit, .equals, value.unit]
  | event name action bang =>
    [.identifier "event", .colon, name.unit, .equals, action.unit] ++ mark bang

def Attribute.entry : Attribute → Template.Attribute
  | property name value => .property name.text value.expression
  | style name value => .style name.text value.expression
  | event name action bang => .event name.text action.text bang

/-- An attribute list, if there is one. -/
def bracketed : Option (List Attribute) → List Lexeme
  | none => []
  | some list => .bracketOpen :: list.flatMap Attribute.units ++ [.bracketClose]

def Opening.units (opening : Opening) : List Lexeme :=
  .identifier opening.tag :: bracketed opening.attributes ++ opening.parts.map Part.unit

def Opening.entries (opening : Opening) : List Template.Attribute :=
  (opening.attributes.getD []).map Attribute.entry

def Opening.content (opening : Opening) : List Expression :=
  opening.parts.map Part.expression

def Directive.keyword : Directive → Keyword
  | .if => .if
  | .unless => .unless
  | .in => .in
  | .collection => .collection

def Directive.rule : Directive → Rule
  | .if => .showIf
  | .unless => .showUnless
  | .in => .each
  | .collection => .collection

def View.units : View → List Lexeme
  | named name none => [.literal name]
  | named name (some path) => [.literal name, .bound path]
  | last path => [.bound path]

/-- A view that is given by its path alone has the name of the last segment. -/
def View.name : View → String
  | named name _ => name
  | last path => (Path.ofText path).last

def View.path : View → Option Path
  | named _ path => path.map .ofText
  | last path => some (.ofText path)

/-- What stands in a line before its end. -/
inductive Heading where
  | element (opening : Opening)
  | text (first : Part) (later : List Part)
  | directive (which : Directive) (place : Place)
  | view (shown : View)

def Heading.units : Heading → List Lexeme
  | element opening => opening.units
  | text first later => (first :: later).map Part.unit
  | directive which place => [.dash, .keyword which.keyword, place.unit]
  | view shown => .dash :: .keyword .view :: shown.units

/-- The symbols of a line up to its end. -/
def Heading.symbols (heading : Heading) : List Symbol :=
  heading.units.map .lexeme ++ [.newline]

def Heading.header : Heading → Header
  | element opening => .element opening.tag opening.entries opening.content
  | text first later => .text ((first :: later).map Part.expression)
  | directive which place => .block which.keyword which.rule place.path
  | view shown => .view shown.name shown.path

/-! ## Lines and blocks -/

mutual

/-- An element, with or without a block. -/
inductive Element where
  | plain (opening : Opening)
  | blocked (opening : Opening) (block : Block)

/-- A line with its block. -/
inductive Line where
  | element (element : Element)
  | text (first : Part) (later : List Part)
  | directive (which : Directive) (place : Place) (block : Block)
  | view (shown : View)

/-- The lines of a block; there is at least one. -/
inductive Block where
  | single (line : Line)
  | cons (line : Line) (later : Block)

end

/-- Symbols within a block. -/
def enclosed (inner : List Symbol) : List Symbol :=
  .indent :: inner ++ [.outdent]

mutual

def Element.symbols : Element → List Symbol
  | .plain opening => (Heading.element opening).symbols
  | .blocked opening block => (Heading.element opening).symbols ++ enclosed block.symbols

def Line.symbols : Line → List Symbol
  | .element tree => tree.symbols
  | .text first later => (Heading.text first later).symbols
  | .directive which place block => (Heading.directive which place).symbols ++ enclosed block.symbols
  | .view shown => (Heading.view shown).symbols

/-- The symbols between the opening and the end of a block. -/
def Block.symbols : Block → List Symbol
  | .single line => line.symbols
  | .cons line later => line.symbols ++ later.symbols

end

/-- What is left of a sequence that goes with the symbols of a line, at its block. -/
def Heading.below (heading : Heading) (lines : List Nat) : List Nat :=
  lines.drop (heading.symbols.length + 1)

mutual

/-- The element, given the line numbers of its symbols and of those after it. -/
def Element.template : Element → List Nat → Template
  | .plain opening, lines => ⟨opening.tag, opening.entries, opening.content.map .text, lines.headD 0⟩
  | .blocked opening block, lines =>
    ⟨opening.tag, opening.entries,
      opening.content.map .text ++ block.nodes ((Heading.element opening).below lines), lines.headD 0⟩

/-- The nodes of a line, given the line numbers of its symbols and of those after it. -/
def Line.nodes : Line → List Nat → List Node
  | .element tree, lines => [(tree.template lines).root]
  | .text first later, _ => (first :: later).map fun part => .text part.expression
  | .directive which place block, lines =>
    [.directive which.rule place.path (block.nodes ((Heading.directive which place).below lines))]
  | .view shown, _ =>
    match shown.path with
    | none => [.view shown.name]
    | some path => [.directive (.view shown.name) path []]

/-- The nodes of a block, given the line numbers of its inner symbols and of those after it. -/
def Block.nodes : Block → List Nat → List Node
  | .single line, lines => line.nodes lines
  | .cons line later, lines => line.nodes lines ++ later.nodes (lines.drop line.symbols.length)

end

end Grammar

/-- A derivation of a template: an element up to the end of the input. -/
structure Derivation where
  element : Grammar.Element

namespace Derivation

/-- The symbols at the leaves. -/
def symbols (derivation : Derivation) : List Symbol :=
  derivation.element.symbols ++ [.endOfInput]

/-- The template that a derivation denotes, given the line numbers of its symbols. -/
def template (derivation : Derivation) (lines : List Nat) : Template :=
  derivation.element.template lines

end Derivation

end LiveTemplate.Template
