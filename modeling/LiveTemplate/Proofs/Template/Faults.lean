import LiveTemplate.Proofs.Template.Derivation
import LiveTemplate.Proofs.Template.Lines

/-!
# Where a source goes wrong

A template is read row by row.  Whether a row can stand where it does is seen from that row and the next
one alone, so that the first row at which reading fails is refused whatever comes later.  An error is
never reported on a line before the one that decides it; only a missing block is decided by the line
after the one that is blamed.
-/

namespace LiveTemplate.Template

/-! ## The first fault of rows -/

/-- The next row, if it stands in the block of this one. -/
def Row.below (row : Row) (next : Option Row) : Option Row :=
  next.filter fun other => decide (row.depth < other.depth)

/-- The fault of a header on a line, if it does not take what stands below it. -/
def Header.clash (header : Header) (line : Nat) (below : Option Row) : Option ParseError :=
  match header, below with
  | .text _, some next => some (.unexpected next.line .noBlockUnderText .indent)
  | .view .., some next => some (.unexpected next.line .noBlockUnderView .indent)
  | .block keyword _ _, none => some (.missingBlock line keyword)
  | _, _ => none

/-- The fault of a row, given the next one. -/
def Row.fault (row : Row) (next : Option Row) : Option ParseError :=
  match readHeader row.lexemes with
  | .error fault => some (fault.on row.line)
  | .ok header => header.clash row.line (row.below next)

/-- The first fault of rows. -/
def firstFault : List Row → Option ParseError
  | [] => none
  | row :: later => (row.fault later.head?).or (firstFault later)

/-- The error is seen from the line after the one that it names. -/
def ParseError.Awaits : ParseError → Prop
  | .missingBlock .. => True
  | _ => False

section Rows

variable {row : Row} {next : Option Row} {rows later before after more : List Row} {error : ParseError}

theorem HeaderFault.line?_on (fault : HeaderFault) (line : Nat) : (fault.on line).line? = some line := by
  cases fault <;> rfl

theorem HeaderFault.not_awaits (fault : HeaderFault) (line : Nat) : ¬ (fault.on line).Awaits := by
  cases fault <;> exact id

/-- The rows below a row are the deeper branches that follow. -/
theorem Header.nodes_branches (header : Header) (row : Row) (later : List Row) :
    header.nodes row.line (.ofBranches ((branches later).takeWhile (row.depth < ·.depth)))
        (parseLines (.ofBranches ((branches later).takeWhile (row.depth < ·.depth)))) =
      match header.clash row.line (row.below later.head?) with
      | some error => .error error
      | none => (parseLines (.ofBranches ((branches later).takeWhile (row.depth < ·.depth)))).map
          (header.around row.line) := by
  have bare : ∀ line : Nat, header.nodes line (.ofBranches []) (parseLines (.ofBranches [])) =
      match header.clash line none with
      | some error => .error error
      | none => (parseLines (.ofBranches [])).map (header.around line) := by
    intro line
    cases header with
    | view name path => cases path <;> rfl
    | element | text | block => rfl
  cases later with
  | nil => exact bare row.line
  | cons next beyond =>
      by_cases deeper : row.depth < next.depth
      · rw [branches, List.takeWhile_cons_of_pos (by simpa using deeper)]
        have below : row.below (some next) = some next := by simp [Row.below, deeper]
        rw [List.head?_cons, below, Outline.ofBranches]
        cases header <;> rfl
      · rw [branches, List.takeWhile_cons_of_neg (by simpa using deeper)]
        have below : row.below (some next) = none := by simpa [Row.below] using deeper
        rw [List.head?_cons, below]
        exact bare row.line

theorem parseLines_append (first second : List Branch) :
    parseLines (.ofBranches (first ++ second)) = do
      let nodes ← parseLines (.ofBranches first)
      let following ← parseLines (.ofBranches second)
      return nodes ++ following := by
  induction first with
  | nil =>
      cases read : parseLines (.ofBranches second) <;>
        simp [Outline.ofBranches, parseLines, read, bind, Except.bind, pure, Except.pure]
  | cons branch later induction =>
      rw [List.cons_append, parseLines_cons, induction, parseLines_cons]
      simp only [bind_assoc, pure_bind, List.append_assoc]

/-- Reading rows fails at the first fault. -/
theorem parseLines_eq_error :
    parseLines (.ofBranches (branches rows)) = .error error ↔ firstFault rows = some error := by
  induction rows with
  | nil => exact iff_of_false nofun nofun
  | cons row later induction =>
      rw [branches, parseLines_cons, readBranch, firstFault, Row.fault]
      cases readHeader row.lexemes with
      | error fault => simp [Except.mapError, bind, Except.bind]
      | ok header =>
          have split := parseLines_append ((branches later).takeWhile (row.depth < ·.depth))
            ((branches later).dropWhile (row.depth < ·.depth))
          rw [List.takeWhile_append_dropWhile] at split
          simp only [Except.mapError, bind, Except.bind, Header.nodes_branches]
          cases header.clash row.line (row.below later.head?) with
          | some fault => simp
          | none =>
              rw [Option.none_or, ← induction, split]
              cases parseLines (.ofBranches ((branches later).takeWhile (row.depth < ·.depth))) with
              | error fault => simp [Except.map, bind, Except.bind]
              | ok nodes =>
                  cases parseLines (.ofBranches ((branches later).dropWhile (row.depth < ·.depth))) <;>
                    simp [Except.map, bind, Except.bind, pure, Except.pure]

/-- A row is at fault by itself, for the row below it, or for want of one. -/
theorem Row.fault_cases (faulty : row.fault next = some error) :
    (error.line? = some row.line ∧ ¬ error.Awaits ∧ ∀ other, row.fault other = some error) ∨
      (∃ below, next = some below ∧ error.line? = some below.line ∧ ¬ error.Awaits) ∨
        error.line? = some row.line ∧ error.Awaits := by
  unfold Row.fault at faulty ⊢
  cases read : readHeader row.lexemes with
  | error fault =>
      rw [read] at faulty
      obtain rfl := Option.some.inj faulty
      exact .inl ⟨fault.line?_on _, fault.not_awaits _, fun _ => rfl⟩
  | ok header =>
      rw [read] at faulty
      dsimp only at faulty
      unfold Header.clash at faulty
      split at faulty
      · rename_i _ below found
        obtain rfl := Option.some.inj faulty
        exact .inr (.inl ⟨below, (Option.filter_eq_some_iff.1 found).1, rfl, id⟩)
      · rename_i _ _ below found
        obtain rfl := Option.some.inj faulty
        exact .inr (.inl ⟨below, (Option.filter_eq_some_iff.1 found).1, rfl, id⟩)
      · obtain rfl := Option.some.inj faulty
        exact .inr (.inr ⟨rfl, trivial⟩)
      · cases faulty

theorem firstFault_append_ne_none (faulty : firstFault later ≠ none) (before : List Row) :
    firstFault (before ++ later) ≠ none := by
  induction before with
  | nil => exact faulty
  | cons row others induction =>
      rw [List.cons_append, firstFault, Ne, Option.or_eq_none_iff]
      exact fun both => induction both.2

theorem firstFault_cons_ne_none (faulty : row.fault later.head? = some error) :
    firstFault (row :: later) ≠ none := by
  rw [firstFault, faulty, Option.some_or]
  exact Option.some_ne_none error

/-! ## Rows that cannot begin a template -/

/-- These rows do not begin a template, whatever follows them. -/
def Doomed (rows : List Row) : Prop :=
  ∀ more template, parseRows (rows ++ more) ≠ .ok template

/-- The error names a row, and no template begins with the rows up to there, or up to the next one if
that decides. -/
structure Blames (error : ParseError) (before : List Row) (row : Row) (after : List Row) : Prop where
  line : error.line? = some row.line
  reached : ¬ error.Awaits → Doomed (before ++ [row])
  awaited : error.Awaits → ∀ next ∈ after.head?, Doomed (before ++ [row, next])

/-- An outermost row gives an outermost branch. -/
theorem exists_branch (member : row ∈ rows) (flush : row.depth = 0) :
    ∃ branch ∈ branches rows, branch.depth = 0 := by
  induction rows with
  | nil => cases member
  | cons first later induction =>
      rw [branches]
      rcases List.mem_cons.1 member with rfl | member
      · exact ⟨_, List.mem_cons_self, flush⟩
      · obtain ⟨branch, listed, outermost⟩ := induction member
        have split := List.takeWhile_append_dropWhile (p := fun branch : Branch => first.depth < branch.depth)
          (l := branches later)
        rw [← split] at listed
        rcases List.mem_append.1 listed with deeper | listed
        · have below := List.mem_takeWhile_imp deeper
          simp [outermost] at below
        · exact ⟨branch, List.mem_cons_of_mem _ listed, outermost⟩

/-- A branch begins with one of the rows. -/
theorem exists_row {branch : Branch} (member : branch ∈ branches rows) :
    ∃ row ∈ rows, row.line = branch.line ∧ row.depth = branch.depth := by
  induction rows with
  | nil => cases member
  | cons first later induction =>
      rw [branches] at member
      rcases List.mem_cons.1 member with rfl | member
      · exact ⟨first, List.mem_cons_self, rfl, rfl⟩
      · obtain ⟨row, listed, same⟩ := induction ((List.dropWhile_sublist _).subset member)
        exact ⟨row, List.mem_cons_of_mem _ listed, same⟩

theorem readBranch_eq_ok {branch : Branch} {nodes : List Node} :
    readBranch branch = .ok nodes ↔ ∃ header inner, readHeader branch.lexemes = .ok header ∧
      header.Takes branch.block.roots ∧ parseLines branch.block = .ok inner ∧
        header.around branch.line inner = nodes := by
  rw [readBranch]
  cases readHeader branch.lexemes with
  | error fault => simp [Except.mapError, bind, Except.bind]
  | ok header => simp [Except.mapError, bind, Except.bind, Header.nodes_outline]

/-- The rows of a template have no fault, and only the first one, which is an element, is outermost. -/
theorem rooted_of_parseRows {template : Template} (read : parseRows (row :: later) = .ok template) :
    firstFault (row :: later) = none ∧ row.depth = 0 ∧ (∀ other ∈ later, other.depth ≠ 0) ∧
      ∃ tag attributes content, readHeader row.lexemes = .ok (.element tag attributes content) := by
  have flush : row.depth = 0 := by
    by_contra deep
    rw [parseRows, if_pos (Nat.pos_of_ne_zero deep)] at read
    cases read
  rw [parseRows, if_neg (by omega), outline, branches, parseOutline_eq_ok] at read
  obtain ⟨single, root⟩ := read
  refine ⟨?_, flush, fun other member outermost => ?_, ?_⟩
  · cases faulty : firstFault (row :: later) with
    | none => rfl
    | some error =>
        have failed := parseLines_eq_error.2 faulty
        rw [branches, single, ← readBranch_eq_parseLines, root] at failed
        cases failed
  · obtain ⟨branch, listed, least⟩ := exists_branch member outermost
    have deeper := List.dropWhile_eq_nil_iff.1 single branch listed
    simp [least] at deeper
  · obtain ⟨header, inner, heads, -, -, around⟩ := readBranch_eq_ok.1 root
    obtain ⟨tag, attributes, content, rfl⟩ := Header.around_eq_root around
    exact ⟨tag, attributes, content, heads⟩

theorem doomed_of_firstFault (faulty : ∀ more, firstFault (rows ++ more) ≠ none) : Doomed rows := by
  intro more template read
  cases whole : rows ++ more with
  | nil =>
      rw [whole] at read
      cases read
  | cons first later =>
      rw [whole] at read
      exact faulty more (whole ▸ (rooted_of_parseRows read).1)

/-- The first fault is decided by the rows up to the one that it names, or by the next one as well. -/
theorem blames_of_firstFault (faulty : firstFault rows = some error) :
    ∃ before row after, rows = before ++ row :: after ∧ error.line? = some row.line ∧
      (¬ error.Awaits → ∀ more, firstFault (before ++ row :: more) ≠ none) ∧
        (error.Awaits → ∀ next ∈ after.head?, ∀ more,
          firstFault (before ++ row :: next :: more) ≠ none) := by
  induction rows with
  | nil => cases faulty
  | cons row later induction =>
      rw [firstFault, Option.or_eq_some_iff] at faulty
      rcases faulty with here | ⟨-, there⟩
      · rcases Row.fault_cases here with ⟨line, seen, always⟩ | ⟨below, found, line, seen⟩ | ⟨line, awaits⟩
        · refine ⟨[], row, later, rfl, line, fun _ more => ?_, fun awaits => (seen awaits).elim⟩
          exact firstFault_cons_ne_none (always _)
        · obtain ⟨beyond, rfl⟩ := List.head?_eq_some_iff.1 found
          refine ⟨[row], below, beyond, rfl, line, fun _ more => ?_, fun awaits => (seen awaits).elim⟩
          exact firstFault_cons_ne_none (show row.fault (below :: more).head? = _ from found ▸ here)
        · refine ⟨[], row, later, rfl, line, fun seen => (seen awaits).elim, fun _ next found more => ?_⟩
          have same : later.head? = (next :: more).head? := found
          exact firstFault_cons_ne_none (same ▸ here)
      · obtain ⟨before, blamed, after, rfl, line, reached, awaited⟩ := induction there
        exact ⟨row :: before, blamed, after, rfl, line,
          fun seen more => firstFault_append_ne_none (reached seen more) [row],
          fun awaits next found more =>
            firstFault_append_ne_none (awaited awaits next found more) [row]⟩

theorem doomed_of_outermost {first : Row} (flush : row.depth = 0) :
    Doomed (first :: before ++ [row]) := by
  intro more template read
  rw [List.append_assoc] at read
  exact (rooted_of_parseRows read).2.2.1 row (by simp) flush

/-- The only branch is no element. -/
theorem templateOf_eq_error {line : Nat} {nodes : List Node} (failed : templateOf line nodes = .error error) :
    error = .rootNotElement line ∧ ∀ tag attributes children place,
      nodes ≠ [.element tag attributes children place] := by
  unfold templateOf at failed
  split at failed
  · cases failed
  · rename_i other
    exact ⟨(Except.error.inj failed).symm, other⟩

/-- The rows up to the one that is blamed decide, or those up to the next one. -/
theorem blames_of_parseRows (failed : parseRows (row :: later) = .error error) :
    ∃ before blamed after, row :: later = before ++ blamed :: after ∧
      Blames error before blamed after := by
  rw [parseRows] at failed
  split at failed
  · rename_i deep
    obtain rfl := Except.error.inj failed
    refine ⟨[], row, later, rfl, rfl, fun _ more template read => ?_, False.elim⟩
    exact deep.ne' (rooted_of_parseRows read).2.1
  · rename_i flush
    rw [outline, branches, parseOutline_cons] at failed
    cases read : readBranch ⟨row.depth, row.line, row.lexemes,
        .ofBranches ((branches later).takeWhile (row.depth < ·.depth))⟩ with
    | error fault =>
        rw [read] at failed
        obtain rfl := Except.error.inj failed
        have lines : parseLines (.ofBranches (branches (row :: later))) = .error fault := by
          rw [branches, parseLines_cons, read]
          rfl
        obtain ⟨before, blamed, after, same, line, reached, awaited⟩ :=
          blames_of_firstFault (parseLines_eq_error.1 lines)
        refine ⟨before, blamed, after, same, line, fun seen => doomed_of_firstFault fun more => ?_,
          fun awaits next found => doomed_of_firstFault fun more => ?_⟩
        · rw [List.append_assoc]
          exact reached seen more
        · rw [List.append_assoc]
          exact awaited awaits next found more
    | ok nodes =>
        rw [read] at failed
        dsimp only [bind, Except.bind] at failed
        split at failed
        · obtain ⟨rfl, other⟩ := templateOf_eq_error failed
          refine ⟨[], row, later, rfl, rfl, fun _ more template accepted => ?_, False.elim⟩
          obtain ⟨-, -, -, tag, attributes, content, heads⟩ := rooted_of_parseRows accepted
          obtain ⟨header, inner, also, -, -, around⟩ := readBranch_eq_ok.1 read
          obtain rfl := Except.ok.inj (heads.symm.trans also)
          exact other _ _ _ _ around.symm
        · rename_i next others found
          obtain rfl := Except.error.inj failed
          have stops := List.head?_dropWhile_not (row.depth < ·.depth) (branches later)
          rw [found, List.head?_cons] at stops
          have least : next.depth ≤ row.depth := by simpa using stops
          have member : next ∈ branches later :=
            (List.dropWhile_sublist _).subset (found ▸ List.mem_cons_self)
          obtain ⟨blamed, listed, line, depth⟩ := exists_row member
          obtain ⟨before, after, rfl⟩ := List.append_of_mem listed
          refine ⟨row :: before, blamed, after, rfl, congrArg some line.symm, fun _ => ?_, False.elim⟩
          exact doomed_of_outermost (by omega)

end Rows

/-! ## The first lines of a source -/

/-- The line with this number, counted from one, is in the source and is not blank. -/
def Seen (source : String) (line : Nat) : Prop :=
  0 < line ∧ ∃ text, (Text.lines source.toList)[line - 1]? = some text ∧ ¬ Blank text

/-- The next line that is not blank. -/
structure Follows (source : String) (line next : Nat) : Prop where
  later : line < next
  seen : Seen source next
  nearest : ∀ between, line < between → between < next → ¬ Seen source between

/-- The lines up to this one are the same in both sources, but for blanks at their ends. -/
def SameUpTo (line : Nat) (source other : String) : Prop :=
  ((Text.lines other.toList).take line).map Text.trimEnd =
    ((Text.lines source.toList).take line).map Text.trimEnd

/-- The source is no template. -/
def Refused (source : String) : Prop :=
  ∃ error, parse source = .error error

section Sources

variable {known : Option Char} {widths : List Nat} {first second : List SourceLine} {rows : List Row}
  {fault : LayoutError} {source other : String} {line : Nat}

/-- The rows have the numbers of their lines. -/
theorem lines_of_rowsFrom (read : rowsFrom known widths first = .ok rows) :
    rows.map Row.line = first.map SourceLine.number := by
  induction first generalizing known widths rows with
  | nil =>
      cases read
      rfl
  | cons line later induction =>
      obtain ⟨character, blocks, row, following, here, there, rfl⟩ := rowsFrom_cons_eq_ok.1 read
      have number : row.line = line.number := by
        simp only [readRow, Grammar.bind_eq_ok] at here
        obtain ⟨_, _, opened, _, same⟩ := here
        split at same
        · cases same
          rfl
        · cases same
      rw [List.map_cons, List.map_cons, number, induction there]

theorem rowsFrom_append_eq_ok (read : rowsFrom known widths (first ++ second) = .ok rows) :
    ∃ early late, rowsFrom known widths first = .ok early ∧ rows = early ++ late ∧
      late.map Row.line = second.map SourceLine.number := by
  induction first generalizing known widths rows with
  | nil => exact ⟨[], rows, rfl, rfl, lines_of_rowsFrom read⟩
  | cons line later induction =>
      obtain ⟨character, blocks, row, following, here, there, rfl⟩ := rowsFrom_cons_eq_ok.1 read
      obtain ⟨early, late, before, rfl, numbers⟩ := induction there
      exact ⟨row :: early, late, rowsFrom_cons_eq_ok.2 ⟨_, _, _, _, here, before, rfl⟩, rfl, numbers⟩

theorem rowsFrom_cons_eq_error {line : SourceLine} {later : List SourceLine} :
    rowsFrom known widths (line :: later) = .error fault ↔
      (∃ reason, readRow known widths line = .error reason ∧ fault = ⟨line.number, reason⟩) ∨
        ∃ character blocks row, readRow known widths line = .ok (character, blocks, row) ∧
          rowsFrom character blocks later = .error fault := by
  rw [rowsFrom]
  cases readRow known widths line with
  | error reason => simp [eq_comm]
  | ok read =>
      obtain ⟨character, blocks, row⟩ := read
      dsimp only
      cases follow : rowsFrom character blocks later <;> simp [follow]

/-- A fault is on one of the lines. -/
theorem line_of_rowsFrom (failed : rowsFrom known widths first = .error fault) :
    fault.line ∈ first.map SourceLine.number := by
  induction first generalizing known widths with
  | nil => cases failed
  | cons line later induction =>
      rcases rowsFrom_cons_eq_error.1 failed with ⟨reason, _, rfl⟩ | ⟨_, _, _, _, there⟩
      · exact List.mem_cons_self
      · exact List.mem_cons_of_mem _ (induction there)

/-- A fault is found among the first lines, whatever follows them, or it is on a later line. -/
theorem rowsFrom_append_eq_error (failed : rowsFrom known widths (first ++ second) = .error fault) :
    (∀ others, rowsFrom known widths (first ++ others) = .error fault) ∨
      fault.line ∈ second.map SourceLine.number := by
  induction first generalizing known widths with
  | nil => exact .inr (line_of_rowsFrom failed)
  | cons line later induction =>
      rcases rowsFrom_cons_eq_error.1 failed with here | ⟨character, blocks, row, read, there⟩
      · exact .inl fun others => rowsFrom_cons_eq_error.2 (.inl here)
      · refine (induction there).imp_left fun always others => ?_
        exact rowsFrom_cons_eq_error.2 (.inr ⟨character, blocks, row, read, always others⟩)

/-! ## Lines and their numbers -/

theorem mem_numbers : line ∈ (sourceLines source.toList).map SourceLine.number ↔ Seen source line := by
  constructor
  · intro member
    obtain ⟨seen, listed, rfl⟩ := List.mem_map.1 member
    exact mem_sourceLinesFrom listed
  · rintro ⟨positive, text, found, seen⟩
    obtain ⟨numbered, member, same⟩ := exists_sourceLine found seen 1
    exact List.mem_map.2 ⟨numbered, member, by omega⟩

/-- Up to a line, the lines that are seen in both sources are the same; the others come after it. -/
theorem SameUpTo.split (same : SameUpTo line source other) : ∃ first second others,
    sourceLines source.toList = first ++ second ∧ sourceLines other.toList = first ++ others ∧
      ∀ number ∈ second.map SourceLine.number, line < number := by
  have cut : ∀ text : String, sourceLines text.toList =
      sourceLinesFrom 1 ((Text.lines text.toList).take line) ++
        sourceLinesFrom (1 + ((Text.lines text.toList).take line).length)
          ((Text.lines text.toList).drop line) := by
    intro text
    rw [← sourceLinesFrom_append, List.take_append_drop]
    rfl
  have shared := sourceLinesFrom_congr same 1
  refine ⟨_, _, _, cut source, shared ▸ cut other, fun number member => ?_⟩
  obtain ⟨numbered, listed, rfl⟩ := List.mem_map.1 member
  obtain ⟨least, text, found, _⟩ := mem_sourceLinesFrom listed
  obtain ⟨inside, _⟩ := List.getElem?_eq_some_iff.1 found
  rw [List.length_drop] at inside
  rw [List.length_take] at least
  omega

theorem refused_of_ne (never : ∀ template, parse source ≠ .ok template) : Refused source := by
  cases read : parse source with
  | error fault => exact ⟨fault, read⟩
  | ok template => exact absurd read (never template)

/-- A source is refused if the rows of its first lines are doomed. -/
theorem refused_of_doomed {before after : List Row} (read : Template.rows source = .ok (before ++ after))
    (doomed : Doomed before) (within : ∀ row ∈ before, row.line ≤ line)
    (same : SameUpTo line source other) : Refused other := by
  refine refused_of_ne fun template accepted => ?_
  obtain ⟨first, second, others, whole, also, beyond⟩ := same.split
  obtain ⟨found, there, parsed⟩ := Grammar.bind_eq_ok.1 accepted
  have there : Template.rows other = .ok found := by
    revert there
    cases Template.rows other <;> simp [Except.mapError]
  rw [Template.rows, whole] at read
  rw [Template.rows, also] at there
  obtain ⟨early, late, reads, split, numbers⟩ := rowsFrom_append_eq_ok read
  obtain ⟨again, later, twice, rfl, -⟩ := rowsFrom_append_eq_ok there
  obtain rfl := Except.ok.inj (reads.symm.trans twice)
  rcases List.append_eq_append_iff.1 split with ⟨rest, rfl, -⟩ | ⟨rest, rfl, rfl⟩
  · rw [List.append_assoc] at parsed
    exact doomed _ template parsed
  · cases rest with
    | nil =>
        rw [List.append_nil] at doomed
        exact doomed _ template parsed
    | cons row more =>
        have inside := within row (by simp)
        have outside := beyond row.line (numbers ▸ by simp)
        omega

/-- A source is refused if there is a layout error in its first lines. -/
theorem refused_of_layout (failed : Template.rows source = .error fault)
    (same : SameUpTo fault.line source other) : Refused other := by
  refine refused_of_ne fun template accepted => ?_
  obtain ⟨first, second, others, whole, also, beyond⟩ := same.split
  rw [Template.rows, whole] at failed
  rcases rowsFrom_append_eq_error failed with always | later
  · rw [parse, Template.rows, also, always] at accepted
    cases accepted
  · exact absurd (beyond _ later) (lt_irrefl _)

/-- An error names a line, unless there are none. -/
theorem ParseError.line?_eq_none_iff {error : ParseError} : error.line? = none ↔ error = .empty := by
  cases error <;> simp [ParseError.line?]

theorem parse_eq_error {error : ParseError} (refused : parse source = .error error) :
    (∃ fault, Template.rows source = .error fault ∧ error = .layout fault) ∨
      ∃ found, Template.rows source = .ok found ∧ parseRows found = .error error := by
  rw [parse] at refused
  cases read : Template.rows source with
  | error fault =>
      rw [read] at refused
      exact .inl ⟨fault, rfl, (Except.error.inj refused).symm⟩
  | ok found =>
      rw [read] at refused
      exact .inr ⟨found, rfl, refused⟩

/-- The rows of a source have the numbers of the lines that are not blank, in ascending order. -/
theorem mem_lines_of_rows (read : Template.rows source = .ok rows) :
    (∀ line, line ∈ rows.map Row.line ↔ Seen source line) ∧
      (rows.map Row.line).Pairwise fun early late => early < late := by
  rw [lines_of_rowsFrom read]
  exact ⟨fun _ => mem_numbers, List.pairwise_map.2 (sourceLinesFrom_ascending _ 1)⟩

/-- The next row is that of the next line which is not blank. -/
theorem Follows.head {before after : List Row} {row : Row} {next : Nat}
    (follows : Follows source row.line next)
    (read : Template.rows source = .ok (before ++ row :: after)) : next ∈ after.head?.map Row.line := by
  obtain ⟨seen, ascending⟩ := mem_lines_of_rows read
  rw [List.map_append, List.map_cons, List.pairwise_append, List.pairwise_cons] at ascending
  obtain ⟨-, ⟨beyond, ordered⟩, apart⟩ := ascending
  have later := follows.later
  have member := (seen next).2 follows.seen
  rw [List.map_append, List.map_cons, List.mem_append, List.mem_cons] at member
  rcases member with early | rfl | late
  · have less := apart next early row.line List.mem_cons_self
    omega
  · exact absurd later (lt_irrefl _)
  · cases after with
    | nil => cases late
    | cons following rest =>
        have after := beyond following.line List.mem_cons_self
        have listed := (seen following.line).1 (by simp)
        rcases List.mem_cons.1 late with rfl | farther
        · rfl
        · have less := (List.pairwise_cons.1 ordered).1 next farther
          exact absurd listed (follows.nearest _ after less)

/-- If all lines are blank, there are no rows. -/
theorem rows_eq_nil_iff (read : Template.rows source = .ok rows) :
    rows = [] ↔ ∀ text ∈ Text.lines source.toList, Blank text := by
  have seen := (mem_lines_of_rows read).1
  constructor
  · rintro rfl text member
    by_contra apart
    obtain ⟨place, inside, rfl⟩ := List.mem_iff_getElem.1 member
    have listed := (seen (place + 1)).2
      ⟨Nat.succ_pos place, _, List.getElem?_eq_getElem inside, apart⟩
    cases listed
  · intro blank
    cases rows with
    | nil => rfl
    | cons row later =>
        obtain ⟨_, text, found, apart⟩ := (seen row.line).1 List.mem_cons_self
        exact absurd (blank text (List.mem_of_getElem? found)) apart

/-- What is reported of a source that is refused.  No line is named if and only if all are blank.
Otherwise a line is named that is not blank, and the mistake is made there or before: whatever comes after
that line, the source is refused.  Of a missing block this holds for the next line that is not blank. -/
theorem parse_located {error : ParseError} (refused : parse source = .error error) :
    (error.line? = none ↔ error = .empty) ∧
      (error.line? = none ↔ ∀ text ∈ Text.lines source.toList, Blank text) ∧
        ∀ line, error.line? = some line → Seen source line ∧
          (¬ error.Awaits → ∀ other, SameUpTo line source other → Refused other) ∧
            (error.Awaits → ∀ next, Follows source line next → ∀ other, SameUpTo next source other →
              Refused other) := by
  refine ⟨ParseError.line?_eq_none_iff, ?_⟩
  rcases parse_eq_error refused with ⟨fault, failed, rfl⟩ | ⟨found, read, failed⟩
  · obtain ⟨positive, text, listed, apart⟩ := mem_numbers.1 (line_of_rowsFrom failed)
    refine ⟨iff_of_false nofun fun blank => apart (blank text (List.mem_of_getElem? listed)), ?_⟩
    rintro line ⟨⟩
    exact ⟨⟨positive, text, listed, apart⟩, fun _ other same => refused_of_layout failed same, False.elim⟩
  · rw [← rows_eq_nil_iff read]
    cases found with
    | nil =>
        obtain rfl := Except.error.inj failed
        exact ⟨iff_of_true rfl rfl, nofun⟩
    | cons first later =>
        obtain ⟨before, row, after, whole, blames⟩ := blames_of_parseRows failed
        rw [whole] at read
        obtain ⟨seen, ascending⟩ := mem_lines_of_rows read
        rw [List.map_append, List.map_cons, List.pairwise_append] at ascending
        have earlier : ∀ other ∈ before, other.line < row.line := fun other member =>
          ascending.2.2 _ (List.mem_map_of_mem member) _ List.mem_cons_self
        refine ⟨iff_of_false (by simp [blames.line]) (List.cons_ne_nil _ _), fun line named => ?_⟩
        obtain rfl := Option.some.inj (blames.line.symm.trans named)
        refine ⟨(seen row.line).1 (by simp), fun reached other same => ?_,
          fun awaits next follows other same => ?_⟩
        · have split : before ++ row :: after = before ++ [row] ++ after := by simp
          refine refused_of_doomed (split ▸ read) (blames.reached reached) ?_ same
          simp only [List.forall_mem_append, List.forall_mem_singleton, le_refl, and_true]
          exact fun other member => (earlier other member).le
        · obtain ⟨below, there, rfl⟩ := Option.map_eq_some_iff.1 (follows.head read)
          obtain ⟨rest, rfl⟩ := List.head?_eq_some_iff.1 there
          have less := follows.later
          have split : before ++ row :: below :: rest = before ++ [row, below] ++ rest := by simp
          refine refused_of_doomed (split ▸ read) (blames.awaited awaits below rfl) ?_ same
          simp only [List.forall_mem_append, List.forall_mem_cons, List.not_mem_nil, false_imp_iff,
            implies_true, and_true, le_refl]
          exact ⟨fun other member => ((earlier other member).trans less).le, less.le⟩

end Sources

/-- A condition without a block. -/
def unfilled : String :=
  "ul\n  - if @shown\n\n  li \"first\"\n"

/-- The same lines up to the one that comes in place of the block, and then others. -/
def refilled : String :=
  "ul\n  - if @shown  \n\t\n  li \"first\"\n    li \"second\"\n- if @other\n"

/-- The line without a block is named, and the next one decides. -/
theorem parse_located_unfilled :
    parse unfilled = .error (.missingBlock 2 .if) ∧ Follows unfilled 2 4 ∧
      SameUpTo 4 unfilled refilled ∧ Refused refilled := by
  have refused : parse unfilled = .error (.missingBlock 2 .if) := by cbv
  have lines : Text.lines unfilled.toList =
    ["ul".toList, "  - if @shown".toList, [], "  li \"first\"".toList, []] := by cbv
  have follows : Follows unfilled 2 4 := by
    refine ⟨by decide, ⟨by decide, _, by rw [lines]; rfl, by decide⟩, fun between after before => ?_⟩
    obtain rfl : between = 3 := by omega
    rintro ⟨-, text, found, apart⟩
    rw [lines] at found
    cases found
    exact apart (by decide)
  have same : SameUpTo 4 unfilled refilled := by
    rw [SameUpTo, lines]
    cbv
  exact ⟨refused, follows, same, ((parse_located refused).2.2 2 rfl).2.2 trivial 4 follows _ same⟩

end LiveTemplate.Template
