import LiveTemplate.Proofs.Template.Tokens

/-!
# The parser accepts its grammar

A derivation has the nesting of a source if it has the same symbols.  Line by line, a derivation along
an outline is what the parser looks for.
-/

namespace LiveTemplate.Template

/-! ## Derivations along an outline -/

namespace Grammar

/-- The block of an element. -/
def Element.block? : Element → Option Block
  | .plain _ => none
  | .blocked _ block => some block

def Element.opening : Element → Opening
  | .plain opening => opening
  | .blocked opening _ => opening

/-- What stands in a line before its end. -/
def Line.heading : Line → Heading
  | .element tree => .element tree.opening
  | .text first later => .text first later
  | .directive which place _ => .directive which place
  | .view shown => .view shown

/-- The block below a line. -/
def Line.block? : Line → Option Block
  | .element tree => tree.block?
  | .text .. => none
  | .directive _ _ block => some block
  | .view _ => none

/-- Whether a heading goes with a block, or without one. -/
def Heading.Takes (heading : Heading) (block : Option Block) : Prop :=
  match heading with
  | .element _ => True
  | .directive .. => block.isSome
  | .text .. | .view _ => block = none

/-- A heading and its block make a line. -/
theorem exists_line {heading : Heading} {block : Option Block} (takes : heading.Takes block) :
    ∃ line : Line, line.heading = heading ∧ line.block? = block := by
  cases heading with
  | element opening =>
      cases block with
      | none => exact ⟨.element (.plain opening), rfl, rfl⟩
      | some block => exact ⟨.element (.blocked opening block), rfl, rfl⟩
  | text first later => exact ⟨.text first later, rfl, takes.symm⟩
  | directive which place =>
      obtain ⟨block, rfl⟩ := Option.isSome_iff_exists.1 takes
      exact ⟨.directive which place block, rfl, rfl⟩
  | view shown => exact ⟨.view shown, rfl, takes.symm⟩

theorem Line.takes (line : Line) : line.heading.Takes line.block? := by
  cases line with
  | element tree => trivial
  | text first later => exact rfl
  | directive which place block => exact rfl
  | view shown => exact rfl

mutual

/-- The nesting of the lines of a block. -/
def Block.shape : Block → Shape
  | .single line => .cons () line.heading.units line.inner .nil
  | .cons line later => .cons () line.heading.units line.inner later.shape

/-- The nesting of the lines below a line. -/
def Line.inner : Line → Shape
  | .element tree => tree.inner
  | .text .. => .nil
  | .directive _ _ block => block.shape
  | .view _ => .nil

/-- The nesting of the lines below an element. -/
def Element.inner : Element → Shape
  | .plain _ => .nil
  | .blocked _ block => block.shape

end

/-- The nesting below a line, if it has a block. -/
def innerShape (block : Option Block) : Shape :=
  block.elim .nil Block.shape

theorem Line.inner_eq (line : Line) : line.inner = innerShape line.block? := by
  cases line with
  | element tree => cases tree <;> rfl
  | text first later => rfl
  | directive which place block => rfl
  | view shown => rfl

theorem Block.exists_shape (block : Block) :
    ∃ units inner later, block.shape = .cons () units inner later := by
  cases block <;> exact ⟨_, _, _, rfl⟩

theorem isEmpty_innerShape (block : Option Block) : (innerShape block).isEmpty = block.isNone := by
  cases block with
  | none => rfl
  | some block =>
      obtain ⟨units, inner, later, shape⟩ := block.exists_shape
      simp [innerShape, shape, Forest.isEmpty]

theorem bracketed_shape {block : Block} (same : block.shape.symbols = block.symbols) :
    Shape.bracketed block.shape block.shape.symbols = enclosed block.symbols := by
  obtain ⟨units, inner, later, shape⟩ := block.exists_shape
  rw [Shape.bracketed, same, shape]
  rfl

mutual

theorem Block.symbols_shape : ∀ block : Block, block.shape.symbols = block.symbols
  | .single line => by
      rw [Block.shape, Shape.symbols, Shape.symbols, List.append_nil, Block.symbols]
      exact line.symbols_inner
  | .cons line later => by
      rw [Block.shape, Shape.symbols, Block.symbols, ← line.symbols_inner, later.symbols_shape]
      simp

theorem Line.symbols_inner : ∀ line : Line, line.heading.units.map .lexeme ++
    .newline :: Shape.bracketed line.inner line.inner.symbols = line.symbols
  | .element tree => tree.symbols_inner
  | .text first later => rfl
  | .directive which place block => by
      rw [Line.inner, bracketed_shape block.symbols_shape, Line.symbols, Heading.symbols]
      simp [Line.heading]
  | .view shown => rfl

theorem Element.symbols_inner : ∀ tree : Element, (Heading.element tree.opening).units.map .lexeme ++
    .newline :: Shape.bracketed tree.inner tree.inner.symbols = tree.symbols
  | .plain opening => rfl
  | .blocked opening block => by
      rw [Element.inner, bracketed_shape block.symbols_shape, Element.symbols, Heading.symbols]
      simp [Element.opening]

end

mutual

/-- There is one derivation at most along given lines. -/
theorem Block.shape_injective : ∀ first second : Block, first.shape = second.shape → first = second
  | .single line, second, same => by
      cases second with
      | single other =>
          obtain ⟨-, units, inner, -⟩ := Forest.cons.inj same
          rw [line.eq_of other units inner]
      | cons other later =>
          obtain ⟨-, -, -, none⟩ := Forest.cons.inj same
          obtain ⟨_, _, _, shape⟩ := later.exists_shape
          cases none.trans shape
  | .cons line later, second, same => by
      cases second with
      | single other =>
          obtain ⟨-, -, -, none⟩ := Forest.cons.inj same
          obtain ⟨_, _, _, shape⟩ := later.exists_shape
          cases none.symm.trans shape
      | cons other following =>
          obtain ⟨-, units, inner, rest⟩ := Forest.cons.inj same
          rw [line.eq_of other units inner, later.shape_injective following rest]

theorem Line.eq_of : ∀ first second : Line, first.heading.units = second.heading.units →
    first.inner = second.inner → first = second
  | .element tree, second, units, inner => by
      have heading := Heading.units_injective units
      cases second <;> simp only [Line.heading, reduceCtorEq, Heading.element.injEq] at heading
      rw [tree.eq_of _ heading inner]
  | .text part others, second, units, _ => by
      have heading := Heading.units_injective units
      cases second <;> simp only [Line.heading, reduceCtorEq, Heading.text.injEq] at heading
      rw [heading.1, heading.2]
  | .directive which place block, second, units, inner => by
      have heading := Heading.units_injective units
      cases second <;> simp only [Line.heading, reduceCtorEq, Heading.directive.injEq] at heading
      rw [heading.1, heading.2, block.shape_injective _ inner]
  | .view shown, second, units, _ => by
      have heading := Heading.units_injective units
      cases second <;> simp only [Line.heading, reduceCtorEq, Heading.view.injEq] at heading
      rw [heading]

theorem Element.eq_of : ∀ first second : Element, first.opening = second.opening →
    first.inner = second.inner → first = second
  | .plain opening, second, same, inner => by
      cases second with
      | plain other => rw [show opening = other from same]
      | blocked other block =>
          obtain ⟨_, _, _, shape⟩ := block.exists_shape
          cases inner.trans shape
  | .blocked opening block, second, same, inner => by
      cases second with
      | plain other =>
          obtain ⟨_, _, _, shape⟩ := block.exists_shape
          cases inner.symm.trans shape
      | blocked other following =>
          rw [show opening = other from same, block.shape_injective following inner]

end

/-! ## What is read along an outline -/

/-- A line before the rest of its block. -/
def Block.begin (line : Line) : Option Block → Block
  | none => .single line
  | some later => .cons line later

theorem Block.exists_begin (block : Block) : ∃ line later, block = .begin line later := by
  cases block with
  | single line => exact ⟨line, none, rfl⟩
  | cons line later => exact ⟨line, some later, rfl⟩

theorem Block.shape_begin (line : Line) (later : Option Block) :
    (Block.begin line later).shape = .cons () line.heading.units line.inner (innerShape later) := by
  cases later <;> rfl

/-- The nodes of a block, if there is one. -/
def nodesOf (block : Option Block) (lines : List Nat) : List Node :=
  block.elim [] fun block => block.nodes lines

theorem Block.nodes_begin (line : Line) (later : Option Block) (lines : List Nat) :
    (Block.begin line later).nodes lines =
      line.nodes lines ++ nodesOf later (lines.drop line.symbols.length) := by
  cases later with
  | none => exact (List.append_nil _).symm
  | some later => rfl

/-- The nodes of a line are those of its block around which its header stands. -/
theorem Line.nodes_eq (line : Line) (lines : List Nat) : line.nodes lines =
    line.heading.header.around (lines.headD 0) (nodesOf line.block? (line.heading.below lines)) := by
  cases line with
  | element tree =>
      cases tree with
      | plain opening =>
          simp only [Line.nodes, Element.template, root, Line.heading, Line.block?, Element.block?,
            Element.opening, Heading.header, Header.around, nodesOf, Option.elim, List.append_nil]
      | blocked opening block => rfl
  | text first later =>
      simp [Line.nodes, Line.heading, Heading.header, Header.around]
  | directive which place block => rfl
  | view shown =>
      simp only [Line.nodes, Line.heading, Heading.header]
      cases shown.path <;> rfl

/-- A heading goes with a block of the outline if it goes with a derivation of that block. -/
theorem Heading.takes_iff {heading : Heading} {outline : Outline} {block : Option Block}
    (same : innerShape block = outline.unnamed) :
    heading.header.Takes outline.roots ↔ heading.Takes block := by
  have empty : block.isNone = outline.isEmpty := by
    rw [← isEmpty_innerShape, same, outline.isEmpty_unnamed]
  cases outline <;> cases block <;> cases empty <;> cases heading <;>
    simp [Header.Takes, Heading.Takes, Heading.header, Forest.roots]

end Grammar

/-- A header stands around what is read of its block, if it takes that. -/
theorem Header.nodes_outline {header : Header} {line : Nat} {block : Outline} {body : List Node} :
    header.nodes line block (parseLines block) = .ok body ↔ header.Takes block.roots ∧
      ∃ inner, parseLines block = .ok inner ∧ header.around line inner = body := by
  constructor
  · intro same
    cases header with
    | element tag attributes content =>
        obtain ⟨inner, read, around⟩ := Grammar.bind_eq_ok.1 same
        exact ⟨trivial, inner, read, Except.ok.inj around⟩
    | text content =>
        cases block with
        | nil => exact ⟨rfl, [], rfl, Except.ok.inj same⟩
        | cons => cases same
    | block keyword rule path =>
        cases block with
        | nil => cases same
        | cons =>
            obtain ⟨inner, read, around⟩ := Grammar.bind_eq_ok.1 same
            exact ⟨List.cons_ne_nil _ _, inner, read, Except.ok.inj around⟩
    | view name path =>
        cases block with
        | nil => cases path <;> exact ⟨rfl, [], rfl, Except.ok.inj same⟩
        | cons => cases same
  · rintro ⟨takes, inner, read, rfl⟩
    cases header with
    | element tag attributes content => exact Grammar.bind_eq_ok.2 ⟨inner, read, rfl⟩
    | text content =>
        cases block with
        | nil => rfl
        | cons => cases takes
    | block keyword rule path =>
        cases block with
        | nil => exact (takes rfl).elim
        | cons => exact Grammar.bind_eq_ok.2 ⟨inner, read, rfl⟩
    | view name path =>
        cases block with
        | nil => cases path <;> rfl
        | cons => cases takes

/-- A line is read with its block and with the lines after it. -/
theorem parseLines_cons_eq_ok {line : Nat} {units : List Lexeme} {block later : Outline}
    {nodes : List Node} : parseLines (.cons line units block later) = .ok nodes ↔
      ∃ header, readHeader units = .ok header ∧ header.Takes block.roots ∧
        ∃ inner, parseLines block = .ok inner ∧ ∃ following, parseLines later = .ok following ∧
          header.around line inner ++ following = nodes := by
  have mapped : ∀ header, (readHeader units).mapError (·.on line) = .ok header ↔
      readHeader units = .ok header := by
    intro header
    cases readHeader units <;> simp [Except.mapError]
  rw [parseLines]
  simp only [Grammar.bind_eq_ok, mapped, Header.nodes_outline]
  constructor
  · rintro ⟨header, read, _, ⟨takes, inner, below, rfl⟩, following, after, same⟩
    exact ⟨header, read, takes, inner, below, following, after, Except.ok.inj same⟩
  · rintro ⟨header, read, takes, inner, below, following, after, rfl⟩
    exact ⟨header, read, _, ⟨takes, inner, below, rfl⟩, following, after, rfl⟩

/-- The line numbers of the tokens of an outline, and those after them. -/
def Outline.numbers (outline : Outline) (after : Nat) (beyond : List Nat) : List Nat :=
  (outline.tokens after).map Token.line ++ beyond

section Numbers

open Grammar

variable {line : Nat} {units : List Lexeme} {block later : Outline} {after : Nat} {beyond : List Nat}

theorem headD_numbers :
    (Outline.numbers (.cons line units block later) after beyond).headD 0 = line := by
  cases units <;> rfl

theorem numbers_cons : Outline.numbers (.cons line units block later) after beyond =
    (Row.tokens ⟨line, 0, units⟩).map Token.line ++
      ((block.bracketed (later.firstLine after) (block.tokens (later.firstLine after))).map Token.line ++
        later.numbers after beyond) := by
  simp [Outline.numbers, Outline.tokens]

/-- What is denoted by the block of a line, given the numbers from the beginning of that line. -/
theorem nodesOf_below {heading : Heading} {inner : Option Block} (same : heading.units = units)
    (shape : innerShape inner = block.unnamed) :
    nodesOf inner (heading.below (Outline.numbers (.cons line units block later) after beyond)) =
      nodesOf inner (block.numbers (later.firstLine after)
        (later.firstLine after :: later.numbers after beyond)) := by
  cases inner with
  | none => rfl
  | some tree =>
      have some : block.isEmpty = false := by
        rw [← block.isEmpty_unnamed, ← shape, isEmpty_innerShape]
        rfl
      have length : heading.symbols.length = ((Row.tokens ⟨line, 0, units⟩).map Token.line).length := by
        rw [List.length_map, Heading.symbols, same, Row.tokens]
        simp
      have below : heading.below (Outline.numbers (.cons line units block later) after beyond) =
          block.numbers (later.firstLine after) (later.firstLine after :: later.numbers after beyond) := by
        rw [Heading.below, numbers_cons, length, ← List.drop_drop, List.drop_left, Outline.bracketed,
          some]
        simp [Outline.numbers]
      rw [below]

/-- The numbers that are left after a line and its block. -/
theorem drop_numbers {tree : Grammar.Line} (same : tree.heading.units = units)
    (inner : tree.inner = block.unnamed) :
    (Outline.numbers (.cons line units block later) after beyond).drop tree.symbols.length =
      later.numbers after beyond := by
  have symbols : (Row.tokens ⟨line, 0, units⟩ ++ block.bracketed (later.firstLine after)
      (block.tokens (later.firstLine after))).map Token.symbol = tree.symbols := by
    have alone := Outline.symbols_tokens (.cons line units block .nil) (later.firstLine after)
    rw [Outline.unnamed, Shape.symbols, ← inner, ← same, Outline.tokens, Outline.firstLine] at alone
    rw [← tree.symbols_inner, ← same]
    simpa [Outline.tokens, Outline.unnamed, Shape.symbols] using alone
  rw [← symbols, List.length_map, numbers_cons, ← List.append_assoc, ← List.map_append]
  exact List.drop_left' (List.length_map _)

end Numbers

/-- Lines are read if and only if there is a derivation along their outline. -/
theorem parseLines_eq_ok_iff {outline : Outline} {nodes : List Node} (after : Nat)
    (beyond : List Nat) : parseLines outline = .ok nodes ↔
      ∃ block, Grammar.innerShape block = outline.unnamed ∧
        Grammar.nodesOf block (outline.numbers after beyond) = nodes := by
  -- Along the outline: a line with what is below it is one element of a block.  The numbers of the lines
  -- that follow are passed on, since a tree takes its own from the front.
  induction outline generalizing nodes after beyond with
  | nil =>
      constructor
      · intro same
        exact ⟨none, rfl, Except.ok.inj same⟩
      · rintro ⟨block, shape, rfl⟩
        have empty : block.isNone = true := by
          rw [← Grammar.isEmpty_innerShape, shape]
          rfl
        rw [Option.isNone_iff_eq_none.1 empty]
        rfl
  | cons line units block later inside induction =>
      have below := fun inner => @inside inner (Outline.firstLine after later)
        (Outline.firstLine after later :: Outline.numbers later after beyond)
      have following := fun nodes => @induction nodes after beyond
      simp only [parseLines_cons_eq_ok, below, following, Grammar.readHeader_eq_ok]
      constructor
      · rintro ⟨_, ⟨heading, same, rfl⟩, takes, _, ⟨inner, shape, rfl⟩, _, ⟨rest, shapes, rfl⟩, rfl⟩
        obtain ⟨tree, rfl, rfl⟩ := Grammar.exists_line ((Grammar.Heading.takes_iff shape).1 takes)
        have inner := tree.inner_eq.trans shape
        refine ⟨some (.begin tree rest), ?_, ?_⟩
        · show (Grammar.Block.begin tree rest).shape = _
          rw [Grammar.Block.shape_begin, same, inner, shapes]
          rfl
        · show (Grammar.Block.begin tree rest).nodes _ = _
          rw [Grammar.Block.nodes_begin, tree.nodes_eq, headD_numbers, nodesOf_below same shape,
            drop_numbers same inner]
      · rintro ⟨whole, shape, rfl⟩
        cases whole with
        | none => cases shape
        | some whole =>
            obtain ⟨tree, rest, rfl⟩ := whole.exists_begin
            obtain ⟨-, same, inner, shapes⟩ :=
              Forest.cons.inj ((Grammar.Block.shape_begin tree rest).symm.trans shape)
            have shape := tree.inner_eq.symm.trans inner
            refine ⟨_, ⟨tree.heading, same, rfl⟩, (Grammar.Heading.takes_iff shape).2 tree.takes, _,
              ⟨tree.block?, shape, rfl⟩, _, ⟨rest, shapes, rfl⟩, ?_⟩
            show _ = (Grammar.Block.begin tree rest).nodes _
            rw [Grammar.Block.nodes_begin, tree.nodes_eq, headD_numbers, nodesOf_below same shape,
              drop_numbers same inner]

theorem root_injective : Function.Injective root := by
  rintro ⟨_, _, _, _⟩ ⟨_, _, _, _⟩ same
  cases same
  rfl

/-- The nesting of a template. -/
def Derivation.shape (derivation : Derivation) : Shape :=
  (Grammar.Block.single (.element derivation.element)).shape

theorem Derivation.symbols_eq (derivation : Derivation) :
    derivation.symbols = derivation.shape.symbols ++ [.endOfInput] := by
  rw [shape, Grammar.Block.symbols_shape]
  rfl

/-- No two derivations have the same symbols. -/
theorem Derivation.symbols_injective : Function.Injective Derivation.symbols := by
  intro first second same
  rw [first.symbols_eq, second.symbols_eq] at same
  have closes : Shape.Closes [.endOfInput] := trivial
  obtain ⟨shape, -⟩ := Shape.symbols_append_inj closes closes same
  cases first
  cases second
  cases Grammar.Block.shape_injective _ _ shape
  rfl

/-- Only an element is the root of a template. -/
theorem Grammar.Line.eq_element {line : Line} {lines : List Nat} {template : Template}
    (same : line.nodes lines = [template.root]) :
    ∃ tree : Element, line = .element tree ∧ tree.template lines = template := by
  cases line with
  | element tree => exact ⟨tree, rfl, root_injective (List.singleton_inj.1 same)⟩
  | text first later => cases same
  | directive which place block => cases same
  | view shown =>
      rw [nodes] at same
      split at same <;> cases same

theorem readBranch_eq_parseLines (branch : Branch) :
    readBranch branch = parseLines (.ofBranches [branch]) := by
  rw [parseLines_cons]
  cases readBranch branch with
  | error fault => rfl
  | ok nodes =>
      show _ = Except.ok (nodes ++ [])
      rw [List.append_nil]

/-- An outline is a template if there is a derivation along it. -/
theorem parseOutline_derivation {branches : List Branch} {template : Template} (after : Nat)
    (beyond : List Nat) : parseOutline (.ofBranches branches) = .ok template ↔
      ∃ derivation : Derivation, derivation.shape = (Outline.ofBranches branches).unnamed ∧
        derivation.template ((Outline.ofBranches branches).numbers after beyond) = template := by
  cases branches with
  | nil =>
      constructor
      · exact nofun
      · rintro ⟨derivation, shape, _⟩
        cases shape
  | cons branch later =>
      rw [parseOutline_eq_ok, readBranch_eq_parseLines]
      constructor
      · rintro ⟨rfl, read⟩
        obtain ⟨block, shape, nodes⟩ := (parseLines_eq_ok_iff after beyond).1 read
        cases block with
        | none => cases shape
        | some block =>
            cases block with
            | single line =>
                obtain ⟨tree, rfl, rfl⟩ := Grammar.Line.eq_element nodes
                exact ⟨⟨tree⟩, shape, rfl⟩
            | cons line later =>
                obtain ⟨_, _, _, shapes⟩ := later.exists_shape
                obtain ⟨-, -, -, none⟩ := Forest.cons.inj shape
                cases shapes.symm.trans none
      · rintro ⟨derivation, shape, rfl⟩
        obtain rfl : later = [] := by
          obtain ⟨-, -, -, none⟩ := Forest.cons.inj shape
          cases later with
          | nil => rfl
          | cons next beyond => cases none
        exact ⟨rfl, (parseLines_eq_ok_iff after beyond).2
          ⟨some (.single (.element derivation.element)), shape, rfl⟩⟩

/-- Rows are a template if and only if their tokens can be derived. -/
theorem parseRows_derivation {rows : List Row} (steps : Steps 0 rows) {template : Template} :
    parseRows rows = .ok template ↔
      ∃ derivation : Derivation, derivation.symbols = (tokensFrom 0 0 rows).map Token.symbol ∧
        derivation.template ((tokensFrom 0 0 rows).map Token.line) = template := by
  have closes : Shape.Closes [.endOfInput] := trivial
  cases rows with
  | nil =>
      constructor
      · rintro ⟨⟩
      · rintro ⟨derivation, same, _⟩
        rw [derivation.symbols_eq] at same
        obtain ⟨shape, -⟩ := @Shape.symbols_append_inj _ .nil _ _ closes closes same
        cases shape
  | cons row later =>
      rw [parseRows]
      by_cases deep : 0 < row.depth
      · -- An indented first line opens a block before there is any element.
        rw [if_pos deep]
        constructor
        · rintro ⟨⟩
        · rintro ⟨derivation, same, _⟩
          have steady := Shape.steady_symbols derivation.shape closes
          have one : row.depth = 0 + 1 := by
            have := steps.1
            omega
          rw [← derivation.symbols_eq, same, tokensFrom, Row.entrance, one] at steady
          exact steady.elim
      · have flush := Nat.le_zero.1 (Nat.not_lt.1 deep)
        rw [if_neg deep, tokensFrom_outline steps flush, List.map_append, List.map_append,
          Outline.symbols_tokens]
        rw [outline, parseOutline_derivation (lastLine 0 (row :: later)) [lastLine 0 (row :: later)]]
        refine exists_congr fun derivation => and_congr ?_ Iff.rfl
        rw [derivation.symbols_eq]
        constructor
        · intro shape
          rw [shape]
          rfl
        · exact fun same => (Shape.symbols_append_inj closes closes same).1

/-- A source is a template if and only if its tokens can be derived from the grammar, and the template
is the one that the derivation denotes.  There is no other derivation of the same symbols. -/
theorem parse_grammar (source : String) :
    (∀ template, parse source = .ok template ↔
      ∃ tokens, tokenize source = .ok tokens ∧
        ∃ derivation : Derivation, derivation.symbols = tokens.map Token.symbol ∧
          derivation.template (tokens.map Token.line) = template) ∧
      Function.Injective Derivation.symbols := by
  refine ⟨fun template => ?_, Derivation.symbols_injective⟩
  rw [parse, tokenize]
  cases read : rows source with
  | error fault =>
      constructor
      · rintro ⟨⟩
      · rintro ⟨_, same, _⟩
        cases same
  | ok found =>
      have parsed := @parseRows_derivation found (steps_of_rowsFrom read) template
      constructor
      · exact fun same => ⟨_, rfl, parsed.1 same⟩
      · rintro ⟨_, same, derived⟩
        cases same
        exact parsed.2 derived

end LiveTemplate.Template
