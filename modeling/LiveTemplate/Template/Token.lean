/-!
# Tokens of a template

A template source is read line by line.  What stands in a line is a sequence of lexemes; the
nesting of the lines is made explicit by the layout symbols between them.
-/

namespace LiveTemplate.Template

/-- The words that name a directive. -/
inductive Keyword where
  | «if»
  | «unless»
  | «in»
  | collection
  | view
deriving DecidableEq, Repr

namespace Keyword

/-- The spelling of a keyword. -/
def word : Keyword → String
  | .if => "if"
  | .unless => "unless"
  | .in => "in"
  | .collection => "collection"
  | .view => "view"

/-- The keyword with a given spelling. -/
def ofWord? (text : String) : Option Keyword :=
  [.if, .unless, .in, .collection, .view].find? fun keyword => keyword.word == text

end Keyword

/-- The meaningful units within one line. -/
inductive Lexeme where
  /-- The name of a tag, an attribute, a style property, an event or an action. -/
  | identifier (name : String)
  | keyword (which : Keyword)
  /-- A dotted property path, written after an `@`. -/
  | bound (path : String)
  /-- Quoted text, with its escapes resolved. -/
  | literal (text : String)
  | bracketOpen
  | bracketClose
  | equals
  | colon
  | bang
  | dash
deriving DecidableEq, Repr

/-- Lexemes and the marks of the layout. -/
inductive Symbol where
  | lexeme (unit : Lexeme)
  /-- The end of a line that has content. -/
  | newline
  /-- A deeper block opens. -/
  | indent
  /-- A block closes. -/
  | outdent
  | endOfInput
deriving DecidableEq, Repr

/-- A symbol and the number of the line that it comes from. -/
structure Token where
  symbol : Symbol
  line : Nat
deriving DecidableEq, Repr

/-- The kind of a lexeme in words. -/
def Lexeme.kind : Lexeme → String
  | .identifier _ => "identifier"
  | .keyword which => "keyword `" ++ which.word ++ "`"
  | .bound _ => "bound property"
  | .literal _ => "string literal"
  | .bracketOpen => "`[`"
  | .bracketClose => "`]`"
  | .equals => "`=`"
  | .colon => "`:`"
  | .bang => "`!`"
  | .dash => "`-`"

/-- The text that a lexeme carries: the name, the path without its `@`, the quoted text, or the
spelling. -/
def Lexeme.text : Lexeme → String
  | .identifier name => name
  | .keyword which => which.word
  | .bound path => path
  | .literal text => text
  | .bracketOpen => "["
  | .bracketClose => "]"
  | .equals => "="
  | .colon => ":"
  | .bang => "!"
  | .dash => "-"

/-- The name in a place where any name may stand: keywords are plain names there. -/
def Lexeme.name? : Lexeme → Option String
  | .identifier name => some name
  | .keyword which => some which.word
  | _ => none

/-- The kind of a symbol in words. -/
def Symbol.kind : Symbol → String
  | .lexeme unit => unit.kind
  | .newline => "end of line"
  | .indent => "indent"
  | .outdent => "outdent"
  | .endOfInput => "end of input"

/-- The text that a symbol carries; layout symbols carry none. -/
def Symbol.text : Symbol → String
  | .lexeme unit => unit.text
  | _ => ""

/-- How a symbol that was not expected is described: lexemes that differ in their text show it. -/
def Symbol.description : Symbol → String
  | .lexeme (.identifier name) => "identifier `" ++ name ++ "`"
  | .lexeme (.keyword which) => (Lexeme.keyword which).kind ++ " `" ++ which.word ++ "`"
  | .lexeme (.bound path) => "bound property `" ++ path ++ "`"
  | .lexeme (.literal text) => "string literal `" ++ text ++ "`"
  | symbol => symbol.kind

end LiveTemplate.Template
