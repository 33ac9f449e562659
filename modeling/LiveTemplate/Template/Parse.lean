import LiveTemplate.Template.Header
import LiveTemplate.Template.Outline

/-!
# Reading a template

Each line of the outline gives its header; the block below it gives the children of an element or
the body of a directive.  Lines are read in source order and the first error ends the reading.
-/

namespace LiveTemplate.Template

/-- The nodes of one line, given its header and the reading of its block.  A directive's block may
not be missing; texts and views have none. -/
def Header.nodes (header : Header) (line : Nat) (block : Outline)
    (body : Except ParseError (List Node)) : Except ParseError (List Node) :=
  match header with
  | .element tag attributes content => do
    let children ← body
    return [.element tag attributes (content.map .text ++ children) line]
  | .text content =>
    match block with
    | .nil => .ok (content.map .text)
    | .cons next _ _ _ => .error (.unexpected next .noBlockUnderText .indent)
  | .block keyword rule path =>
    match block with
    | .nil => .error (.missingBlock line keyword)
    | .cons .. => do
      let children ← body
      return [.directive rule path children]
  | .view name path =>
    match block with
    | .nil =>
      match path with
      | none => .ok [.view name]
      | some path => .ok [.directive (.view name) path []]
    | .cons next _ _ _ => .error (.unexpected next .noBlockUnderView .indent)

/-- The nodes of the lines of an outline. -/
def parseLines : Outline → Except ParseError (List Node)
  | .nil => .ok []
  | .cons line lexemes block later => do
    let header ← (readHeader lexemes).mapError (·.on line)
    let nodes ← header.nodes line block (parseLines block)
    let following ← parseLines later
    return nodes ++ following

/-- The template that an outline is: one line at the outermost level, and that an element. -/
def parseOutline : Outline → Except ParseError Template
  | .nil => .error .empty
  | .cons line lexemes block later => do
    let header ← (readHeader lexemes).mapError (·.on line)
    let nodes ← header.nodes line block (parseLines block)
    match later with
    | .cons next _ _ _ => .error (.multipleRoots next)
    | .nil =>
      match nodes with
      | [.element tag attributes children line] => return ⟨tag, attributes, children, line⟩
      | _ => .error (.rootNotElement line)

/-- The template that rows are.  The first row is not indented. -/
def parseRows (rows : List Row) : Except ParseError Template :=
  match rows with
  | first :: _ =>
    if 0 < first.depth then .error (.unexpected first.line .line .indent)
    else parseOutline (outline rows)
  | [] => .error .empty

/-- Read a source. -/
def parse (source : String) : Except ParseError Template := do
  let rows ← (rows source).mapError .layout
  parseRows rows

end LiveTemplate.Template
