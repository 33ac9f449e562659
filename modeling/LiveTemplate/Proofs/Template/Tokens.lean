import LiveTemplate.Proofs.Template.Headings
import LiveTemplate.Proofs.Template.Nesting

/-!
# The tokens of an outline

The tokens of a source are those of its outline, in which each line goes before its block.  From the
symbols alone the nesting of the lines can be read back.
-/

namespace LiveTemplate.Template

/-! ## The symbols of an outline -/

/-- The lexemes of lines, and how the lines are nested. -/
abbrev Shape : Type := Forest Unit (List Lexeme)

namespace Shape

/-- A block is marked if it has any lines. -/
def bracketed (block : Shape) (inner : List Symbol) : List Symbol :=
  if block.isEmpty then [] else Grammar.enclosed inner

/-- The symbols of lines with their blocks. -/
def symbols : Shape → List Symbol
  | .nil => []
  | .cons _ units block later =>
    units.map .lexeme ++ .newline :: (bracketed block (symbols block) ++ symbols later)

/-- What may follow the lines of a block. -/
def Closes : List Symbol → Prop
  | .outdent :: _ | .endOfInput :: _ => True
  | _ => False

/-- Where a line may begin or a block may end, no block begins. -/
def Steady : List Symbol → Prop
  | .indent :: _ => False
  | _ => True

/-- A line can be told from what follows it. -/
theorem line_append_inj {first second : List Lexeme} {rest more : List Symbol}
    (same : first.map .lexeme ++ .newline :: rest = second.map .lexeme ++ .newline :: more) :
    first = second ∧ rest = more := by
  induction first generalizing second with
  | nil =>
      cases second with
      | nil => exact ⟨rfl, (List.cons.inj same).2⟩
      | cons unit later => cases same
  | cons unit later induction =>
      cases second with
      | nil => cases same
      | cons other following =>
          simp only [List.map_cons, List.cons_append, List.cons.injEq, Symbol.lexeme.injEq] at same
          obtain ⟨rfl, rfl⟩ := induction same.2
          exact ⟨by rw [same.1], rfl⟩

theorem Closes.ne_line {rest more : List Symbol} {units : List Lexeme} (closes : Closes rest) :
    units.map .lexeme ++ .newline :: more ≠ rest := by
  rintro rfl
  cases units <;> exact closes

theorem steady_symbols {rest : List Symbol} (shape : Shape) (closes : Closes rest) :
    Steady (shape.symbols ++ rest) := by
  cases shape with
  | nil =>
      unfold Closes at closes
      split at closes
      · trivial
      · trivial
      · exact closes.elim
  | cons _ units block later => cases units <;> trivial

/-- If the lines of a block can be told from what closes it, the block can be told from what is no
block. -/
theorem bracketed_append_inj {block body : Shape} {rest more : List Symbol} (steady : Steady rest)
    (also : Steady more)
    (inside : ∀ {rest more : List Symbol}, Closes rest → Closes more →
      block.symbols ++ rest = body.symbols ++ more → block = body ∧ rest = more)
    (same : bracketed block block.symbols ++ rest = bracketed body body.symbols ++ more) :
    block = body ∧ rest = more := by
  cases block with
  | nil =>
      cases body with
      | nil => exact ⟨rfl, same⟩
      | cons =>
          obtain rfl : rest = _ := same
          exact steady.elim
  | cons =>
      cases body with
      | nil =>
          obtain rfl : _ = more := same
          exact also.elim
      | cons =>
          simp only [bracketed, Forest.isEmpty, Grammar.enclosed, Bool.false_eq_true, if_false,
            List.cons_append, List.append_assoc, List.nil_append] at same
          have closes : ∀ later, Closes (.outdent :: later) := fun _ => trivial
          obtain ⟨equal, tail⟩ := inside (closes _) (closes _) (List.cons.inj same).2
          exact ⟨equal, (List.cons.inj tail).2⟩

/-- Lines and blocks can be told from what closes the block around them. -/
theorem symbols_append_inj {first second : Shape} {rest more : List Symbol} (closes : Closes rest)
    (also : Closes more) (same : first.symbols ++ rest = second.symbols ++ more) :
    first = second ∧ rest = more := by
  induction first generalizing second rest more with
  | nil =>
      cases second with
      | nil => exact ⟨rfl, same⟩
      | cons _ units block later =>
          simp only [symbols, List.append_assoc, List.cons_append, List.nil_append] at same
          exact (closes.ne_line same.symm).elim
  | cons _ units block later inside induction =>
      cases second with
      | nil =>
          simp only [symbols, List.append_assoc, List.cons_append, List.nil_append] at same
          exact (also.ne_line same).elim
      | cons _ others body following =>
          simp only [symbols, List.append_assoc, List.cons_append] at same
          obtain ⟨rfl, tail⟩ := line_append_inj same
          obtain ⟨rfl, after⟩ := bracketed_append_inj (steady_symbols later closes)
            (steady_symbols following also) inside tail
          obtain ⟨rfl, rfl⟩ := induction closes also after
          exact ⟨rfl, rfl⟩

end Shape

/-! ## The tokens of an outline -/

namespace Outline

/-- The nesting of an outline, without line numbers. -/
def unnamed : Outline → Shape
  | .nil => .nil
  | .cons _ units block later => .cons () units (unnamed block) (unnamed later)

/-- The first line of an outline, or the one that follows it if it is empty. -/
def firstLine (after : Nat) : Outline → Nat
  | .nil => after
  | .cons line _ _ _ => line

/-- The tokens of a block that closes before line `after`. -/
def bracketed (block : Outline) (after : Nat) (inner : List Token) : List Token :=
  if block.isEmpty then []
  else ⟨.indent, firstLine after block⟩ :: inner ++ [⟨.outdent, after⟩]

/-- The tokens of an outline that is followed by line `after`. -/
def tokens (after : Nat) : Outline → List Token
  | .nil => []
  | .cons line units block later =>
    Row.tokens ⟨line, 0, units⟩ ++ bracketed block (firstLine after later)
      (tokens (firstLine after later) block) ++ tokens after later

theorem isEmpty_unnamed (outline : Outline) : outline.unnamed.isEmpty = outline.isEmpty := by
  cases outline <;> rfl

theorem symbols_row (line : Nat) (units : List Lexeme) :
    (Row.tokens ⟨line, 0, units⟩).map Token.symbol = units.map .lexeme ++ [.newline] := by
  simp [Row.tokens]

theorem symbols_tokens (outline : Outline) (after : Nat) :
    (outline.tokens after).map Token.symbol = outline.unnamed.symbols := by
  induction outline generalizing after with
  | nil => rfl
  | cons line units block later inside induction =>
      rw [tokens, List.map_append, List.map_append, symbols_row, induction, unnamed, Shape.symbols,
        bracketed, Shape.bracketed, isEmpty_unnamed]
      split
      · simp
      · simp [Grammar.enclosed, inside]

end Outline

/-! ## The tokens of rows -/

/-- Each row opens one block at most. -/
def Steps : Nat → List Row → Prop
  | _, [] => True
  | depth, row :: later => row.depth ≤ depth + 1 ∧ Steps row.depth later

theorem steps_of_rowsFrom {known : Option Char} {widths : List Nat} {lines : List SourceLine}
    {rows : List Row} (read : rowsFrom known widths lines = .ok rows) : Steps widths.length rows := by
  induction lines generalizing known widths rows with
  | nil =>
      cases read
      trivial
  | cons line later induction =>
      obtain ⟨character, blocks, row, following, here, there, rfl⟩ := rowsFrom_cons_eq_ok.1 read
      simp only [readRow, Grammar.bind_eq_ok] at here
      obtain ⟨_, _, opened, opens, same⟩ := here
      split at same
      · cases same
        refine ⟨?_, induction there⟩
        rcases openBlocks_eq_ok.1 opens with ⟨_, rfl⟩ | ⟨_, rfl, _⟩
        · exact le_rfl
        · exact Nat.le_succ_of_le (List.dropWhile_sublist _).length_le
      · cases same

/-- The line of the last row, if there is one. -/
def lastLine (line : Nat) (rows : List Row) : Nat :=
  (rows.getLast?.map Row.line).getD line

/-- The tokens of a branch that is followed by line `next`. -/
def Branch.tokens (next : Nat) (branch : Branch) : List Token :=
  Row.tokens ⟨branch.line, 0, branch.lexemes⟩ ++
    branch.block.bracketed next (branch.block.tokens next)

theorem tokens_ofBranches (after : Nat) (branch : Branch) (later : List Branch) :
    (Outline.ofBranches (branch :: later)).tokens after =
      branch.tokens ((Outline.ofBranches later).firstLine after) ++
        (Outline.ofBranches later).tokens after := rfl

/-- The tokens of branches that follow each other at an open depth. -/
def branchTokens (last : Nat) : Nat → List Branch → List Token
  | depth, [] => List.replicate depth ⟨.outdent, last⟩ ++ [⟨.endOfInput, last⟩]
  | depth, branch :: later =>
    Row.entrance ⟨branch.line, branch.depth, branch.lexemes⟩ depth ++
      branch.tokens ((Outline.ofBranches later).firstLine last) ++
        branchTokens last branch.depth later

theorem entrance_self (row : Row) : row.entrance row.depth = [] := by
  simp [Row.entrance]

/-- Branches at the open depth are written one after the other. -/
theorem branchTokens_flush {last depth : Nat} {inner outer : List Branch}
    (flush : ∀ branch ∈ inner, branch.depth = depth) :
    branchTokens last depth (inner ++ outer) =
      (Outline.ofBranches inner).tokens ((Outline.ofBranches outer).firstLine last) ++
        branchTokens last depth outer := by
  induction inner with
  | nil => rfl
  | cons branch later induction =>
      obtain ⟨here, there⟩ := List.forall_mem_cons.1 flush
      have next : (Outline.ofBranches (later ++ outer)).firstLine last =
          (Outline.ofBranches later).firstLine ((Outline.ofBranches outer).firstLine last) := by
        cases later <;> rfl
      subst here
      rw [List.cons_append, branchTokens, entrance_self, induction there, next, tokens_ofBranches,
        List.nil_append, List.append_assoc]

/-- Branches that are one deeper than the open depth are the block of what precedes them. -/
theorem branchTokens_block {last depth : Nat} {inner outer : List Branch}
    (deeper : ∀ branch ∈ inner, branch.depth = depth + 1)
    (shallow : ∀ branch ∈ outer.head?, branch.depth ≤ depth) :
    branchTokens last depth (inner ++ outer) =
      (Outline.ofBranches inner).bracketed ((Outline.ofBranches outer).firstLine last)
          ((Outline.ofBranches inner).tokens ((Outline.ofBranches outer).firstLine last)) ++
        branchTokens last depth outer := by
  have closing : branchTokens last (depth + 1) outer =
      ⟨.outdent, (Outline.ofBranches outer).firstLine last⟩ :: branchTokens last depth outer := by
    cases outer with
    | nil => rfl
    | cons branch later =>
        have less := shallow branch rfl
        have more : depth + 1 - branch.depth = (depth - branch.depth) + 1 := by omega
        have none : branch.depth - (depth + 1) = 0 ∧ branch.depth - depth = 0 := by omega
        simp [branchTokens, Row.entrance, more, none, List.replicate_succ, Outline.ofBranches,
          Outline.firstLine]
  have flush := @branchTokens_flush last (depth + 1) inner outer deeper
  rw [closing] at flush
  cases inner with
  | nil => rfl
  | cons branch later =>
      have here := deeper branch List.mem_cons_self
      have enters : ∀ row : Row, row.depth = depth + 1 →
          row.entrance depth = ⟨.indent, row.line⟩ :: row.entrance (depth + 1) := by
        intro row deep
        simp [Row.entrance, deep]
      rw [List.cons_append, branchTokens, enters _ here, List.cons_append, List.cons_append,
        ← branchTokens, ← List.cons_append, flush]
      simp [Outline.bracketed, Outline.ofBranches, Forest.isEmpty, Outline.firstLine]

theorem branches_descending (rows : List Row) :
    (branches rows).Pairwise fun early late => late.depth ≤ early.depth := by
  have opened := branches_drop (Nat.zero_add rows.length)
  rw [List.drop_zero] at opened
  rw [opened, List.pairwise_map]
  simp only [depth_branchAt]
  exact outermost_descending

/-- No branch is deeper than one block more than the rows begin with. -/
theorem Steps.depth_le {depth : Nat} {rows : List Row} (steps : Steps depth rows) :
    ∀ branch ∈ branches rows, branch.depth ≤ depth + 1 := by
  have descending := branches_descending rows
  cases rows with
  | nil => exact nofun
  | cons row later =>
      rw [branches] at descending ⊢
      rintro branch (_ | ⟨_, member⟩)
      · exact steps.1
      · exact ((List.pairwise_cons.1 descending).1 branch member).trans steps.1

/-- The tokens of rows are those of their branches. -/
theorem tokensFrom_eq {depth line : Nat} {rows : List Row} (steps : Steps depth rows) :
    tokensFrom depth line rows = branchTokens (lastLine line rows) depth (branches rows) := by
  induction rows generalizing depth line with
  | nil => rfl
  | cons row later induction =>
      have last : lastLine row.line later = lastLine line (row :: later) := by
        cases later with
        | nil => rfl
        | cons next beyond =>
            simp only [lastLine, List.getLast?_cons_cons]
            cases found : (next :: beyond).getLast? with
            | none => simp at found
            | some final => rfl
      have deeper : ∀ branch ∈ (branches later).takeWhile (row.depth < ·.depth),
          branch.depth = row.depth + 1 := by
        intro branch member
        have more : row.depth < branch.depth := by simpa using List.mem_takeWhile_imp member
        have less := steps.2.depth_le branch ((List.takeWhile_sublist _).subset member)
        omega
      have shallow : ∀ branch ∈ ((branches later).dropWhile (row.depth < ·.depth)).head?,
          branch.depth ≤ row.depth := by
        intro branch first
        have stops := List.head?_dropWhile_not (row.depth < ·.depth) (branches later)
        rw [first] at stops
        simpa using stops
      have following := @branchTokens_block (lastLine line (row :: later)) row.depth _ _ deeper shallow
      rw [List.takeWhile_append_dropWhile] at following
      rw [tokensFrom, induction steps.2, last, following, branches, branchTokens, Branch.tokens]
      simp only [List.append_assoc]
      rfl

/-- The tokens of rows the first of which is not indented are those of their outline. -/
theorem tokensFrom_outline {row : Row} {later : List Row} (steps : Steps 0 (row :: later))
    (flush : row.depth = 0) : tokensFrom 0 0 (row :: later) =
      (outline (row :: later)).tokens (lastLine 0 (row :: later)) ++
        [⟨.endOfInput, lastLine 0 (row :: later)⟩] := by
  have outermost : ∀ branch ∈ branches (row :: later), branch.depth = 0 := by
    have descending := branches_descending (row :: later)
    rw [branches] at descending ⊢
    rintro branch (_ | ⟨_, member⟩)
    · exact flush
    · have less := (List.pairwise_cons.1 descending).1 branch member
      exact Nat.le_zero.1 (flush ▸ less)
  rw [tokensFrom_eq steps]
  have whole := @branchTokens_flush (lastLine 0 (row :: later)) 0 _ [] outermost
  rw [List.append_nil] at whole
  exact whole

end LiveTemplate.Template
