import LiveTemplate.Template.Lexeme
import LiveTemplate.Text.Blank

/-!
# The layout of a source

Blank lines do not count.  The other lines form a nesting by their indentation: a line that is
indented more than the one before it opens a block, and one that is indented less closes blocks
until it stands at the indentation of an open one.  All indentation of a source uses one character.

A `Row` is one such line: its number, the number of blocks open around it, and its lexemes.  The
token sequence of a source is written from its rows.
-/

namespace LiveTemplate.Template

/-- Why the layout or the characters of a source cannot be read. -/
inductive LayoutFault where
  /-- Two different characters are used for indentation. -/
  | mixedIndentation
  /-- A line closes blocks and then stands between two open ones. -/
  | strayIndentation (width : Nat)
  /-- A character sequence that starts no lexeme. -/
  | unreadable (sequence : String)
deriving DecidableEq, Repr

/-- A fault and the line it was found on. -/
structure LayoutError where
  line : Nat
  fault : LayoutFault
deriving DecidableEq, Repr

/-- The wording of a fault. -/
def LayoutFault.message : LayoutFault → String
  | .mixedIndentation => "indentation mixes tabs and spaces"
  | .strayIndentation width =>
    "inconsistent indentation (width " ++ toString width ++ " matches no enclosing block)"
  | .unreadable sequence => "unexpected character sequence `" ++ sequence ++ "`"

/-- The wording of a fault with its line. -/
def LayoutError.message (error : LayoutError) : String :=
  "syntax error on line " ++ toString error.line ++ ": " ++ error.fault.message

/-- A source line that is not blank, without the blanks at its end. -/
structure SourceLine where
  number : Nat
  indentation : List Char
  content : List Char

/-- The width of a line's indentation. -/
def SourceLine.width (line : SourceLine) : Nat :=
  line.indentation.length

/-- The lines that are not blank, numbered from `number` on. -/
def sourceLinesFrom (number : Nat) : List (List Char) → List SourceLine
  | [] => []
  | text :: later =>
    let trimmed := Text.trimEnd text
    let content := trimmed.dropWhile Text.isBlank
    if content.isEmpty then sourceLinesFrom (number + 1) later
    else ⟨number, trimmed.takeWhile Text.isBlank, content⟩ :: sourceLinesFrom (number + 1) later

/-- The lines of a source that are not blank. -/
def sourceLines (source : List Char) : List SourceLine :=
  sourceLinesFrom 1 (Text.lines source)

/-- One line of a template: its number, the number of blocks open around it, and its lexemes. -/
structure Row where
  line : Nat
  depth : Nat
  lexemes : List Lexeme
deriving DecidableEq, Repr

/-- The character used for indentation after a line's indentation has been looked at.  The first one
met is kept; any other is a fault. -/
def indentationCharacter (known : Option Char) : List Char → Except LayoutFault (Option Char)
  | [] => .ok known
  | c :: rest =>
    match known with
    | none => indentationCharacter (some c) rest
    | some expected =>
      if expected = c then indentationCharacter known rest else .error .mixedIndentation

/-- The widths of the open blocks, innermost first, after a line of the given width.  The outermost
level, of width zero, is always open and not listed. -/
def openBlocks (widths : List Nat) (width : Nat) : Except LayoutFault (List Nat) :=
  if widths.headD 0 < width then .ok (width :: widths)
  else
    let remaining := widths.dropWhile (width < ·)
    if remaining.headD 0 = width then .ok remaining else .error (.strayIndentation width)

/-- One line read: the indentation character, the open blocks and the row. -/
def readRow (known : Option Char) (widths : List Nat) (line : SourceLine) :
    Except LayoutFault (Option Char × List Nat × Row) := do
  let character ← indentationCharacter known line.indentation
  let blocks ← openBlocks widths line.width
  match lexemes line.content with
  | .ok found => .ok (character, blocks, ⟨line.number, blocks.length, found⟩)
  | .error sequence => .error (.unreadable (String.ofList sequence))

/-- The rows of a sequence of lines; the first fault ends the reading. -/
def rowsFrom (known : Option Char) (widths : List Nat) :
    List SourceLine → Except LayoutError (List Row)
  | [] => .ok []
  | line :: later =>
    match readRow known widths line with
    | .error fault => .error ⟨line.number, fault⟩
    | .ok (character, blocks, row) =>
      match rowsFrom character blocks later with
      | .error error => .error error
      | .ok rows => .ok (row :: rows)

/-- The rows of a source. -/
def rows (source : String) : Except LayoutError (List Row) :=
  rowsFrom none [] (sourceLines source.toList)

/-- The tokens that lead from an open depth to a row. -/
def Row.entrance (row : Row) (depth : Nat) : List Token :=
  List.replicate (depth - row.depth) ⟨.outdent, row.line⟩ ++
    List.replicate (row.depth - depth) ⟨.indent, row.line⟩

/-- The tokens of a row's content. -/
def Row.tokens (row : Row) : List Token :=
  row.lexemes.map (fun unit => ⟨.lexeme unit, row.line⟩) ++ [⟨.newline, row.line⟩]

/-- The tokens of rows that follow line `line` at an open depth.  At the end all blocks are closed
and the end of the input is marked, both on the last line that had content. -/
def tokensFrom (depth line : Nat) : List Row → List Token
  | [] => List.replicate depth ⟨.outdent, line⟩ ++ [⟨.endOfInput, line⟩]
  | row :: later => row.entrance depth ++ row.tokens ++ tokensFrom row.depth row.line later

/-- The tokens of a source. -/
def tokenize (source : String) : Except LayoutError (List Token) :=
  (rows source).map (tokensFrom 0 0)

end LiveTemplate.Template
