import LiveTemplate.Proofs.Template.Tokens
import LiveTemplate.Proofs.Template.Units

/-!
# Writing token sequences

A token sequence that is well formed can be written so that it is read back, and what is read from a
source is well formed unless the source begins with an indented line.
-/

namespace LiveTemplate.Template

/-! ## Sequences that are well formed -/

/-- What a line may hold. -/
def IsLine (units : List Lexeme) : Prop :=
  units ≠ [] ∧ ∀ unit ∈ units, unit.Proper

/-- The symbols of a line before other symbols. -/
def lineSymbols (units : List Lexeme) (later : List Symbol) : List Symbol :=
  units.map .lexeme ++ .newline :: later

/-- What may follow a line in a block of the given depth: the end, at which all blocks are closed, a
line one block deeper, or a line after any number of blocks that close. -/
inductive Continues : Nat → List Symbol → Prop where
  | close (depth : Nat) : Continues depth (List.replicate depth .outdent ++ [.endOfInput])
  | deeper {depth : Nat} {units : List Lexeme} {later : List Symbol} :
      IsLine units → Continues (depth + 1) later →
        Continues depth (.indent :: lineSymbols units later)
  | back {depth closed : Nat} {units : List Lexeme} {later : List Symbol} :
      closed ≤ depth → IsLine units → Continues (depth - closed) later →
        Continues depth (List.replicate closed .outdent ++ lineSymbols units later)

/-- No lines, or a first line before which nothing stands, and what may follow it. -/
inductive WellFormed : List Symbol → Prop where
  | empty : WellFormed [.endOfInput]
  | lines {units : List Lexeme} {later : List Symbol} :
      IsLine units → Continues 0 later → WellFormed (lineSymbols units later)

/-! ## Writing -/

/-- The text of a sequence in a block of the given depth.  A line that is fresh has nothing written in
it yet.  One space per block is written before its first lexeme, and one space before each other. -/
def written (depth : Nat) (fresh : Bool) : List Symbol → List Char
  | [] => []
  | .lexeme unit :: later =>
    (if fresh then List.replicate depth ' ' else [' ']) ++ unit.spelling ++ written depth false later
  | .newline :: later => '\n' :: written depth true later
  | .indent :: later => written (depth + 1) fresh later
  | .outdent :: later => written (depth - 1) fresh later
  | .endOfInput :: later => written depth fresh later

/-- The source that a sequence is written as. -/
def print (symbols : List Symbol) : String :=
  String.ofList (written 0 true symbols)

theorem written_outdents (depth closed : Nat) (later : List Symbol) :
    written depth true (List.replicate closed .outdent ++ later) =
      written (depth - closed) true later := by
  induction closed generalizing depth with
  | zero => rfl
  | succ closed induction =>
      rw [List.replicate_succ, List.cons_append, written, induction, Nat.sub_sub, Nat.add_comm 1]

theorem written_spaced (depth : Nat) (units : List Lexeme) (later : List Symbol) :
    written depth false (lineSymbols units later) =
      spaced units ++ '\n' :: written depth true later := by
  induction units with
  | nil => rfl
  | cons unit rest induction =>
      have unfolded : written depth false (lineSymbols (unit :: rest) later) =
          ' ' :: (unit.spelling ++ written depth false (lineSymbols rest later)) := rfl
      rw [unfolded, induction, spaced, spaced, List.flatMap_cons]
      simp only [List.cons_append, List.append_assoc]

/-- A line is written with its indentation. -/
theorem written_line {units : List Lexeme} (line : IsLine units) (depth : Nat) (later : List Symbol) :
    written depth true (lineSymbols units later) =
      List.replicate depth ' ' ++ spelled units ++ '\n' :: written depth true later := by
  cases units with
  | nil => exact (line.1 rfl).elim
  | cons unit rest =>
      have unfolded : written depth true (lineSymbols (unit :: rest) later) =
          List.replicate depth ' ' ++ unit.spelling ++
            written depth false (lineSymbols rest later) := rfl
      rw [unfolded, written_spaced, spelled]
      simp only [List.append_assoc]

/-! ## The text of a line -/

/-- The text ends with a character that is no blank. -/
def Ended (text : List Char) : Prop :=
  ∃ earlier last, text = earlier ++ [last] ∧ Text.isBlank last = false

theorem Ended.append (before : List Char) {text : List Char} (ended : Ended text) :
    Ended (before ++ text) := by
  obtain ⟨earlier, last, rfl, seen⟩ := ended
  exact ⟨before ++ earlier, last, (List.append_assoc _ _ _).symm, seen⟩

theorem Ended.trimEnd {text : List Char} (ended : Ended text) : Text.trimEnd text = text := by
  obtain ⟨earlier, last, rfl, seen⟩ := ended
  induction earlier with
  | nil => simp [Text.trimEnd, seen]
  | cons c later induction =>
      rw [List.cons_append, Text.trimEnd, induction]
      split
      · rename_i empty
        simp at empty
      · rfl

theorem spelled_cons_cons (unit next : Lexeme) (later : List Lexeme) :
    spelled (unit :: next :: later) = unit.spelling ++ ' ' :: spelled (next :: later) := rfl

theorem newline_spelled {units : List Lexeme} (proper : ∀ unit ∈ units, unit.Proper) :
    '\n' ∉ spelled units := by
  induction units with
  | nil => exact nofun
  | cons unit later induction =>
      obtain ⟨here, there⟩ := List.forall_mem_cons.1 proper
      have first := (spelling_within here).1
      cases later with
      | nil => rwa [spelled, spaced, List.flatMap_nil, List.append_nil]
      | cons next beyond =>
          rw [spelled_cons_cons, List.mem_append, List.mem_cons]
          rintro (member | blank | member)
          · exact first member
          · exact absurd blank (by decide)
          · exact induction there member

theorem spelling_ne_nil {unit : Lexeme} (proper : unit.Proper) : unit.spelling ≠ [] := by
  obtain ⟨first, later, same, -⟩ := lexeme_spelling proper (.inl rfl : Ends [])
  rw [same]
  exact List.cons_ne_nil _ _

theorem head_spelled {units : List Lexeme} (line : IsLine units) :
    ∃ first later, spelled units = first :: later ∧ Text.isBlank first = false := by
  obtain ⟨nonempty, proper⟩ := line
  cases units with
  | nil => exact (nonempty rfl).elim
  | cons unit later =>
      have here := proper unit List.mem_cons_self
      have marks := (spelling_within here).2.1
      rw [spelled]
      cases text : unit.spelling with
      | nil => exact (spelling_ne_nil here text).elim
      | cons first rest =>
          rw [text] at marks
          exact ⟨first, rest ++ spaced later, rfl, (marks first rfl).not_blank⟩

theorem ended_spelling {unit : Lexeme} (proper : unit.Proper) : Ended unit.spelling := by
  obtain ⟨earlier, last, same⟩ :=
    (List.eq_nil_or_concat' unit.spelling).resolve_left (spelling_ne_nil proper)
  have mark := (spelling_within proper).2.2 last (by simp [same])
  exact ⟨earlier, last, same, mark.not_blank⟩

theorem ended_spelled {units : List Lexeme} (line : IsLine units) : Ended (spelled units) := by
  obtain ⟨nonempty, proper⟩ := line
  induction units with
  | nil => exact (nonempty rfl).elim
  | cons unit later induction =>
      obtain ⟨here, there⟩ := List.forall_mem_cons.1 proper
      cases later with
      | nil =>
          rw [spelled, spaced, List.flatMap_nil, List.append_nil]
          exact ended_spelling here
      | cons next beyond =>
          rw [spelled_cons_cons]
          exact ((induction (List.cons_ne_nil _ _) there).append [' ']).append _

/-! ## Reading what is written -/

/-- The widths of the open blocks when each is indented by one more space. -/
def unitWidths : Nat → List Nat
  | 0 => []
  | depth + 1 => (depth + 1) :: unitWidths depth

theorem headD_unitWidths (depth : Nat) : (unitWidths depth).headD 0 = depth := by
  cases depth <;> rfl

theorem length_unitWidths (depth : Nat) : (unitWidths depth).length = depth := by
  induction depth with
  | zero => rfl
  | succ depth induction => rw [unitWidths, List.length_cons, induction]

theorem dropWhile_unitWidths {depth level : Nat} (within : level ≤ depth) :
    (unitWidths depth).dropWhile (level < ·) = unitWidths level := by
  induction depth with
  | zero =>
      obtain rfl := Nat.le_zero.1 within
      rfl
  | succ depth induction =>
      rcases Nat.lt_or_eq_of_le within with shallower | rfl
      · rw [unitWidths, List.dropWhile_cons_of_pos (by simpa using shallower),
          induction (Nat.lt_succ_iff.1 shallower)]
      · rw [unitWidths, List.dropWhile_cons_of_neg (by simp)]

theorem openBlocks_unitWidths {depth level : Nat} (steps : level ≤ depth + 1) :
    openBlocks (unitWidths depth) level = .ok (unitWidths level) := by
  rw [openBlocks_eq_ok, headD_unitWidths]
  rcases Nat.lt_or_eq_of_le steps with shallower | rfl
  · have within := Nat.lt_succ_iff.1 shallower
    exact .inr ⟨within, (dropWhile_unitWidths within).symm, headD_unitWidths level⟩
  · exact .inl ⟨Nat.lt_succ_self depth, rfl⟩

/-- Nothing but spaces has been seen as indentation. -/
def Spaces (known : Option Char) : Prop :=
  known = none ∨ known = some ' '

theorem indentationCharacter_replicate {known : Option Char} (spaces : Spaces known) (level : Nat) :
    ∃ character, indentationCharacter known (List.replicate level ' ') = .ok character ∧
      Spaces character := by
  induction level generalizing known with
  | zero => exact ⟨known, rfl, spaces⟩
  | succ level induction =>
      rw [List.replicate_succ]
      rcases spaces with rfl | rfl
      · exact induction (.inr rfl)
      · exact induction (.inr rfl)

theorem lines_newline {text : List Char} (unbroken : '\n' ∉ text) (later : List Char) :
    Text.lines (text ++ '\n' :: later) = text :: Text.lines later :=
  pieces_append unbroken later

/-- The line that is written at a level is found with its indentation. -/
theorem sourceLinesFrom_written {units : List Lexeme} (line : IsLine units) (number level : Nat)
    (later : List Char) :
    sourceLinesFrom number
        (Text.lines (List.replicate level ' ' ++ spelled units ++ '\n' :: later)) =
      ⟨number, List.replicate level ' ', spelled units⟩ ::
        sourceLinesFrom (number + 1) (Text.lines later) := by
  have unbroken : '\n' ∉ List.replicate level ' ' ++ spelled units := by
    rw [List.mem_append, List.mem_replicate]
    rintro (⟨-, other⟩ | member)
    · exact absurd other (by decide)
    · exact newline_spelled line.2 member
  have blanks : ∀ c ∈ List.replicate level ' ', Text.isBlank c = true := by
    intro c member
    rw [List.eq_of_mem_replicate member]
    decide
  obtain ⟨first, rest, text, seen⟩ := head_spelled line
  have stops : ¬ Text.isBlank first = true := by simp [seen]
  rw [lines_newline unbroken, sourceLinesFrom, ((ended_spelled line).append _).trimEnd,
    List.dropWhile_append_of_pos blanks, List.takeWhile_append_of_pos blanks, text,
    List.dropWhile_cons_of_neg stops, List.takeWhile_cons_of_neg stops, List.append_nil]
  rfl

/-- A line that is written at a level is read back. -/
theorem readRow_written {units : List Lexeme} (line : IsLine units) {depth level : Nat}
    (steps : level ≤ depth + 1) {known : Option Char} (spaces : Spaces known) (number : Nat) :
    ∃ character, Spaces character ∧
      readRow known (unitWidths depth) ⟨number, List.replicate level ' ', spelled units⟩ =
        .ok (character, unitWidths level, ⟨number, level, units⟩) := by
  obtain ⟨character, read, further⟩ := indentationCharacter_replicate spaces level
  refine ⟨character, further, ?_⟩
  rw [readRow, read, SourceLine.width, List.length_replicate]
  simp only [bind, Except.bind, openBlocks_unitWidths steps, lexemes_spelled line.2,
    length_unitWidths]

theorem symbols_row_tokens (row : Row) :
    row.tokens.map Token.symbol = row.lexemes.map .lexeme ++ [.newline] :=
  Outline.symbols_row row.line row.lexemes

theorem symbols_tokensFrom_cons (depth line : Nat) (row : Row) (later : List Row) :
    (tokensFrom depth line (row :: later)).map Token.symbol =
      List.replicate (depth - row.depth) .outdent ++ (List.replicate (row.depth - depth) .indent ++
        lineSymbols row.lexemes ((tokensFrom row.depth row.line later).map Token.symbol)) := by
  simp [tokensFrom, Row.entrance, symbols_row_tokens, lineSymbols]

/-- What may follow a line in a block is read back. -/
theorem rowsFrom_written {depth : Nat} {symbols : List Symbol} (continues : Continues depth symbols)
    {known : Option Char} (spaces : Spaces known) (number : Nat) :
    ∃ rows, rowsFrom known (unitWidths depth)
        (sourceLinesFrom number (Text.lines (written depth true symbols))) = .ok rows ∧
      ∀ line, (tokensFrom depth line rows).map Token.symbol = symbols := by
  induction continues generalizing known number with
  | close depth =>
      refine ⟨[], ?_, fun line => by simp [tokensFrom]⟩
      rw [written_outdents]
      rfl
  | @deeper depth units later line _ induction =>
      obtain ⟨character, further, read⟩ := readRow_written line le_rfl spaces number
      obtain ⟨rows, follow, tokens⟩ := induction further (number + 1)
      refine ⟨⟨number, depth + 1, units⟩ :: rows, ?_, fun _ => ?_⟩
      · rw [written, written_line line, sourceLinesFrom_written line, rowsFrom_cons_eq_ok]
        exact ⟨_, _, _, _, read, follow, rfl⟩
      · simp [symbols_tokensFrom_cons, tokens]
  | @back depth closed units later within line _ induction =>
      have steps : depth - closed ≤ depth + 1 := by omega
      obtain ⟨character, further, read⟩ := readRow_written line steps spaces number
      obtain ⟨rows, follow, tokens⟩ := induction further (number + 1)
      refine ⟨⟨number, depth - closed, units⟩ :: rows, ?_, fun _ => ?_⟩
      · rw [written_outdents, written_line line, sourceLinesFrom_written line, rowsFrom_cons_eq_ok]
        exact ⟨_, _, _, _, read, follow, rfl⟩
      · have closes : depth - (depth - closed) = closed := by omega
        have opens : depth - closed - depth = 0 := by omega
        simp [symbols_tokensFrom_cons, tokens, closes, opens]

theorem WellFormed.continues {symbols : List Symbol} (formed : WellFormed symbols) :
    Continues 0 symbols := by
  cases formed with
  | empty => exact .close 0
  | lines line continues => exact .back (Nat.zero_le 0) line continues

/-- A sequence that is well formed is read back from the source it is written as. -/
theorem tokenize_written {symbols : List Symbol} (formed : WellFormed symbols) :
    ∃ tokens, tokenize (print symbols) = .ok tokens ∧ tokens.map Token.symbol = symbols := by
  obtain ⟨rows, read, same⟩ := rowsFrom_written formed.continues (.inl rfl) 1
  refine ⟨tokensFrom 0 0 rows, ?_, same 0⟩
  have found : LiveTemplate.Template.rows (print symbols) = .ok rows := by
    rw [LiveTemplate.Template.rows, sourceLines, print, String.toList_ofList]
    exact read
  rw [tokenize, found]
  rfl

/-! ## What is read is well formed -/

theorem not_separator_of_seen {c : Char} (seen : Text.isBlank c = false) : isSeparator c = false := by
  refine Bool.eq_false_iff.2 fun separates => ?_
  rcases (by simpa [isSeparator] using separates : c = ' ' ∨ c = '\t') with rfl | rfl <;> cases seen

theorem lexemes_ne_nil {c : Char} {rest : List Char} (seen : Text.isBlank c = false) :
    lexemes (c :: rest) ≠ .ok [] := by
  rw [lexemes.eq_def]
  simp only [not_separator_of_seen seen, Bool.false_eq_true, if_false]
  split
  · rintro ⟨⟩
  · split <;> rintro ⟨⟩

theorem content_seen {number : Nat} {lines : List (List Char)} :
    ∀ line ∈ sourceLinesFrom number lines, ∃ first later, line.content = first :: later ∧
      Text.isBlank first = false := by
  induction lines generalizing number with
  | nil => exact nofun
  | cons text later induction =>
      rw [sourceLinesFrom]
      split
      · exact induction
      · rename_i nonempty
        refine List.forall_mem_cons.2 ⟨?_, induction⟩
        have stops := List.head?_dropWhile_not Text.isBlank (Text.trimEnd text)
        dsimp only at nonempty ⊢
        cases content : (Text.trimEnd text).dropWhile Text.isBlank with
        | nil => simp [content] at nonempty
        | cons first rest =>
            rw [content] at stops
            exact ⟨first, rest, rfl, by simpa using stops⟩

theorem isLine_of_rowsFrom {known : Option Char} {widths : List Nat} {lines : List SourceLine}
    {rows : List Row} (seen : ∀ line ∈ lines, ∃ first later, line.content = first :: later ∧
      Text.isBlank first = false) (read : rowsFrom known widths lines = .ok rows) :
    ∀ row ∈ rows, IsLine row.lexemes := by
  induction lines generalizing known widths rows with
  | nil =>
      cases read
      exact nofun
  | cons line later induction =>
      obtain ⟨here, there⟩ := List.forall_mem_cons.1 seen
      obtain ⟨character, blocks, row, following, first, follow, rfl⟩ := rowsFrom_cons_eq_ok.1 read
      refine List.forall_mem_cons.2 ⟨?_, induction there follow⟩
      simp only [readRow, Grammar.bind_eq_ok] at first
      obtain ⟨_, _, _, _, same⟩ := first
      split at same
      · rename_i found lexed
        cases same
        refine ⟨?_, proper_of_lexemes lexed⟩
        rintro rfl
        obtain ⟨c, rest, text, apart⟩ := here
        rw [text] at lexed
        exact lexemes_ne_nil apart lexed
      · cases same

/-- Rows of which each opens one block at most continue a block. -/
theorem continues_tokensFrom {depth : Nat} {rows : List Row} (steps : Steps depth rows)
    (lines : ∀ row ∈ rows, IsLine row.lexemes) (line : Nat) :
    Continues depth ((tokensFrom depth line rows).map Token.symbol) := by
  induction rows generalizing depth line with
  | nil =>
      have closing := Continues.close depth
      simpa [tokensFrom] using closing
  | cons row later induction =>
      obtain ⟨here, there⟩ := List.forall_mem_cons.1 lines
      have following := induction steps.2 there row.line
      rw [symbols_tokensFrom_cons]
      rcases Nat.lt_or_eq_of_le steps.1 with shallower | deeper
      · have within : depth - (depth - row.depth) = row.depth := by omega
        have opens : row.depth - depth = 0 := by omega
        rw [opens]
        exact .back (Nat.sub_le _ _) here (by rwa [within])
      · have closes : depth - row.depth = 0 := by omega
        have opens : row.depth - depth = 1 := by omega
        rw [closes, opens]
        exact .deeper here (deeper ▸ following)

/-- What is read from a source is well formed, unless it begins with an indented line. -/
theorem wellFormed_of_tokenize {source : String} {tokens : List Token}
    (read : tokenize source = .ok tokens)
    (flush : (tokens.map Token.symbol).head? ≠ some .indent) :
    WellFormed (tokens.map Token.symbol) := by
  rw [tokenize] at read
  cases found : rows source with
  | error fault =>
      rw [found] at read
      cases read
  | ok rows =>
      rw [found] at read
      cases read
      have steps : Steps 0 rows := steps_of_rowsFrom found
      have lines := isLine_of_rowsFrom content_seen found
      cases rows with
      | nil => exact .empty
      | cons row later =>
          obtain ⟨here, there⟩ := List.forall_mem_cons.1 lines
          have following := continues_tokensFrom steps.2 there row.line
          rw [symbols_tokensFrom_cons, Nat.zero_sub] at flush ⊢
          rcases Nat.lt_or_eq_of_le steps.1 with outermost | indented
          · have depth : row.depth = 0 := by omega
            rw [depth] at following ⊢
            exact .lines here following
          · rw [indented] at flush
            exact (flush rfl).elim

/-- Every sequence that is well formed is read back from the source it is written as, and every
sequence that is read is well formed if the first line of its source is not indented. -/
theorem tokenize_print :
    (∀ symbols, WellFormed symbols →
      ∃ tokens, tokenize (print symbols) = .ok tokens ∧ tokens.map Token.symbol = symbols) ∧
    ∀ source tokens, tokenize source = .ok tokens →
      (tokens.map Token.symbol).head? ≠ some .indent → WellFormed (tokens.map Token.symbol) :=
  ⟨fun _ formed => tokenize_written formed,
    fun _ _ read flush => wellFormed_of_tokenize read flush⟩

/-- A line with a line below it. -/
def nested : List Symbol :=
  lineSymbols [.identifier "p", .literal "say \"\\\"\n"]
    (.indent :: lineSymbols [.keyword .view, .dash, .bound "a.b"] [.outdent, .endOfInput])

theorem wellFormed_nested : WellFormed nested := by
  have inner : IsLine [.keyword .view, .dash, .bound "a.b"] := by
    refine ⟨List.cons_ne_nil _ _, ?_⟩
    have path : IsPath "a.b".toList :=
      (isPath_dot (by decide)).2 (isPath_singleton (by decide))
    simpa [Lexeme.Proper] using path
  have outer : IsLine [.identifier "p", .literal "say \"\\\"\n"] := by
    refine ⟨List.cons_ne_nil _ _, ?_⟩
    have named : IsName "p".toList := ⟨'p', [], rfl, by decide, List.forall_mem_nil _⟩
    have free : Keyword.ofWord? "p" = none := by decide
    simpa [Lexeme.Proper] using ⟨named, free⟩
  exact .lines outer (.deeper inner (.close 1))

example : print nested = "p \"say \\\"\\\\\\\"\\n\"\n view - @a.b\n" := by
  decide

/-- The two lines are written and read back. -/
theorem tokenize_print_nested : WellFormed nested ∧ ∃ tokens, tokenize (print nested) = .ok tokens ∧
    tokens.map Token.symbol = nested ∧ (tokens.map Token.symbol).head? ≠ some .indent ∧
      WellFormed (tokens.map Token.symbol) := by
  obtain ⟨tokens, read, same⟩ := tokenize_print.1 nested wellFormed_nested
  have flush : (tokens.map Token.symbol).head? ≠ some .indent := by
    rw [same]
    decide
  exact ⟨wellFormed_nested, tokens, read, same, flush,
    tokenize_print.2 (print nested) tokens read flush⟩

end LiveTemplate.Template
