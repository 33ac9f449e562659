import LiveTemplate.Forest.Basic
import LiveTemplate.Template.Layout

/-!
# The outline of a source

The rows of a source form a forest: a row's children are the rows of the block that it opens.  A
row stands below the nearest earlier row of smaller depth.
-/

namespace LiveTemplate.Template

/-- The nesting of rows: each node is named by its line and labelled with its lexemes. -/
abbrev Outline : Type := Forest Nat (List Lexeme)

/-- A row with the block below it, and the depth at which it stands. -/
structure Branch where
  depth : Nat
  line : Nat
  lexemes : List Lexeme
  block : Outline

/-- Branches side by side. -/
def Outline.ofBranches : List Branch → Outline
  | [] => .nil
  | branch :: later => .cons branch.line branch.lexemes branch.block (ofBranches later)

/-- The outermost branches of a sequence of rows.  Reading from the end, a row takes the deeper
branches that follow it as its block. -/
def branches : List Row → List Branch
  | [] => []
  | row :: later =>
    let following := branches later
    { depth := row.depth
      line := row.line
      lexemes := row.lexemes
      block := .ofBranches (following.takeWhile (row.depth < ·.depth)) } ::
      following.dropWhile (row.depth < ·.depth)

/-- The outline of a sequence of rows. -/
def outline (rows : List Row) : Outline :=
  .ofBranches (branches rows)

end LiveTemplate.Template
