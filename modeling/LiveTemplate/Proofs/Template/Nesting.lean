import LiveTemplate.Proofs.Template.Outline
import Mathlib

/-!
# Nesting by indentation

Each line is enclosed by the nearest earlier line that is indented less.  This alone decides which
sources are templates, once every line can be read by itself, and what these templates are.

The outline of a source is read off the depths of its rows.  A row's children are the rows that it
encloses; so the proof follows the outline, from the last line to the first.
-/

namespace LiveTemplate.Template

/-- The line at position `above` is the nearest one before that at position `place` that is indented
less. -/
structure Encloses (lines : List SourceLine) (above place : Nat) : Prop where
  inside : place < lines.length
  nearest : Nearest (widthAt lines) above place

/-- What a line is by itself. -/
def SourceLine.Heads (line : SourceLine) (header : Header) : Prop :=
  ∃ units, lexemes line.content = .ok units ∧ readHeader units = .ok header

/-- The line at a position stands for these nodes: those of its header around those of the lines that
it encloses, in source order. -/
inductive Denotes (lines : List SourceLine) : Nat → List Node → Prop where
  | line {place : Nat} {line : SourceLine} {header : Header} {inner : List Nat}
      {bodies : List (List Node)} (found : lines[place]? = some line) (heads : line.Heads header)
      (ordered : inner.Pairwise (· < ·)) (encloses : ∀ below, below ∈ inner ↔ Encloses lines place below)
      (denote : List.Forall₂ (Denotes lines) inner bodies) :
      Denotes lines place (header.around line.number bodies.flatten)

/-- Lines are nested as those of a template. -/
structure Nested (lines : List SourceLine) : Prop where
  uniform : ∃ character, ∀ line ∈ lines, ∀ c ∈ line.indentation, c = character
  outermost : ∃ line tag attributes content, lines[0]? = some line ∧ line.width = 0 ∧
    line.Heads (.element tag attributes content)
  single : ∀ place, 0 < place → place < lines.length → ∃ above, Encloses lines above place
  aligned : ∀ above first second, Encloses lines above first → Encloses lines above second →
    widthAt lines first = widthAt lines second
  filled : ∀ place line keyword rule path, lines[place]? = some line →
    line.Heads (.block keyword rule path) → ∃ below, Encloses lines place below
  bare : ∀ place line header, lines[place]? = some line → line.Heads header →
    (∃ content, header = .text content) ∨ (∃ name path, header = .view name path) →
      ∀ below, ¬ Encloses lines place below

theorem SourceLine.Heads.unique {line : SourceLine} {first second : Header} (one : line.Heads first)
    (other : line.Heads second) : first = second := by
  obtain ⟨units, read, reads⟩ := one
  obtain ⟨also, again, same⟩ := other
  obtain rfl := Except.ok.inj (read.symm.trans again)
  exact Except.ok.inj (reads.symm.trans same)

/-- A line stands for one sequence of nodes at most. -/
theorem Denotes.unique {lines : List SourceLine} {place : Nat} {first second : List Node}
    (one : Denotes lines place first) (other : Denotes lines place second) : first = second := by
  induction count : lines.length - place using Nat.strong_induction_on
    generalizing place first second with
  | _ remaining induction =>
      obtain ⟨found, heads, ordered, encloses, denote⟩ := one
      obtain ⟨again, also, sorted, same, denotes⟩ := other
      obtain rfl := Option.some.inj (found.symm.trans again)
      obtain rfl := heads.unique also
      obtain rfl := eq_of_ascending ordered sorted fun below => by rw [encloses, same]
      have bodies := forall₂_unique denote denotes fun below member a b one other => by
        have enclosed := (encloses below).1 member
        have after := enclosed.nearest.before
        have inside := enclosed.inside
        exact induction _ (by omega) one other rfl
      rw [bodies]

/-! ## Rows and lines -/

/-- The lexemes of a line that can be read. -/
def SourceLine.units (line : SourceLine) : List Lexeme :=
  match lexemes line.content with
  | .ok units => units
  | .error _ => []

/-- The rows of lines with the blocks that are open after each of them. -/
def laidOut (lines : List SourceLine) (levels : List (List Nat)) : List Row :=
  List.zipWith (fun line blocks => ⟨line.number, blocks.length, line.units⟩) lines levels

/-- One character is used for all indentation, and it is the known one, if there is one. -/
def Uniform (known : Option Char) (lines : List SourceLine) : Prop :=
  ∃ character, (∀ other ∈ known, other = character) ∧
    ∀ line ∈ lines, ∀ other ∈ line.indentation, other = character

theorem indentationCharacter_eq_ok {known character : Option Char} {indentation : List Char} :
    indentationCharacter known indentation = .ok character ↔
      (∃ c, (∀ other ∈ known, other = c) ∧ ∀ other ∈ indentation, other = c) ∧
        known.or indentation.head? = character := by
  induction indentation generalizing known with
  | nil =>
      cases known <;> simp [indentationCharacter, eq_comm]
  | cons first later induction =>
      cases known with
      | none =>
          rw [indentationCharacter, induction]
          simp
      | some expected =>
          rw [indentationCharacter]
          by_cases same : expected = first
          · subst same
            rw [if_pos rfl, induction]
            simp
          · rw [if_neg same]
            simp only [reduceCtorEq, Option.mem_def, Option.some.injEq, forall_eq', List.mem_cons,
              forall_eq_or_imp, exists_eq_left', false_iff, not_and]
            exact fun ⟨other, _⟩ => (same other.symm).elim

/-- The first character met is the one for all later lines. -/
theorem uniform_cons {known : Option Char} {line : SourceLine} {later : List SourceLine} :
    Uniform known (line :: later) ↔
      ∃ character, indentationCharacter known line.indentation = .ok character ∧
        Uniform character later := by
  simp only [indentationCharacter_eq_ok]
  constructor
  · rintro ⟨c, same, all⟩
    have here := all line List.mem_cons_self
    refine ⟨_, ⟨⟨c, same, here⟩, rfl⟩, c, fun other member => ?_,
      fun other member => all other (List.mem_cons_of_mem line member)⟩
    rcases Option.or_eq_some_iff.1 member with found | ⟨_, found⟩
    · exact same other found
    · exact here other (List.mem_of_mem_head? found)
  · rintro ⟨_, ⟨⟨c, same, here⟩, rfl⟩, d, also, all⟩
    cases first : known.or line.indentation.head? with
    | none =>
        obtain ⟨rfl, empty⟩ := Option.or_eq_none_iff.1 first
        refine ⟨d, by simp, ?_⟩
        rintro other (_ | ⟨_, member⟩)
        · simp [List.head?_eq_none_iff.1 empty]
        · exact all other member
    | some found =>
        have one : found = c := by
          rcases Option.or_eq_some_iff.1 first with known | ⟨_, head⟩
          · exact same found known
          · exact here found (List.mem_of_mem_head? head)
        have other : found = d := also found first
        subst one
        subst other
        refine ⟨found, same, ?_⟩
        rintro other (_ | ⟨_, member⟩)
        · exact here
        · exact all other member

/-- A line that can be read is a row if its indentation and its block are right. -/
theorem readRow_eq_ok {known character : Option Char} {widths blocks : List Nat} {line : SourceLine}
    {row : Row} (readable : ∃ header, line.Heads header) :
    readRow known widths line = .ok (character, blocks, row) ↔
      indentationCharacter known line.indentation = .ok character ∧
        openBlocks widths line.width = .ok blocks ∧
          row = ⟨line.number, blocks.length, line.units⟩ := by
  obtain ⟨header, units, read, _⟩ := readable
  rw [readRow, read, SourceLine.units, read]
  cases indentationCharacter known line.indentation with
  | error fault => simp [bind, Except.bind]
  | ok found =>
      cases openBlocks widths line.width with
      | error fault => simp [bind, Except.bind]
      | ok opened =>
          simp only [bind, Except.bind, Except.ok.injEq, Prod.mk.injEq]
          constructor <;>
          · rintro ⟨rfl, rfl, rfl⟩
            exact ⟨rfl, rfl, rfl⟩

theorem rowsFrom_cons_eq_ok {known : Option Char} {widths : List Nat} {line : SourceLine}
    {later : List SourceLine} {rows : List Row} :
    rowsFrom known widths (line :: later) = .ok rows ↔
      ∃ character blocks row following, readRow known widths line = .ok (character, blocks, row) ∧
        rowsFrom character blocks later = .ok following ∧ rows = row :: following := by
  rw [rowsFrom]
  cases readRow known widths line with
  | error fault => simp
  | ok read =>
      obtain ⟨character, blocks, row⟩ := read
      dsimp only
      cases follow : rowsFrom character blocks later with
      | error fault =>
          constructor
          · intro same
            cases same
          · rintro ⟨_, _, _, _, same, also, _⟩
            cases same
            cases follow.symm.trans also
      | ok following =>
          constructor
          · intro same
            exact ⟨character, blocks, row, following, rfl, follow, (Except.ok.inj same).symm⟩
          · rintro ⟨_, _, _, _, same, also, rfl⟩
            cases same
            rw [Except.ok.inj (follow.symm.trans also)]

/-- Lines are rows if one character is used for indentation, their blocks can be laid out, and their
contents can be read. -/
theorem rowsFrom_eq_ok {known : Option Char} {widths : List Nat} {lines : List SourceLine}
    {rows : List Row} (readable : ∀ line ∈ lines, ∃ header, line.Heads header) :
    rowsFrom known widths lines = .ok rows ↔
      Uniform known lines ∧ ∃ levels, Layers widths lines levels ∧ rows = laidOut lines levels := by
  induction lines generalizing known widths rows with
  | nil =>
      rw [rowsFrom]
      constructor
      · intro same
        obtain rfl := Except.ok.inj same
        refine ⟨?_, [], .nil, rfl⟩
        cases known with
        | none => exact ⟨' ', by simp⟩
        | some c => exact ⟨c, by simp⟩
      · rintro ⟨_, levels, layers, rfl⟩
        cases layers
        rfl
  | cons line later induction =>
      have here := readable line List.mem_cons_self
      have there := fun other member => readable other (List.mem_cons_of_mem line member)
      rw [rowsFrom_cons_eq_ok]
      constructor
      · rintro ⟨character, blocks, row, following, read, follow, rfl⟩
        obtain ⟨characters, opens, rfl⟩ := (readRow_eq_ok here).1 read
        obtain ⟨uniform, levels, layers, rfl⟩ := (induction there).1 follow
        exact ⟨uniform_cons.2 ⟨character, characters, uniform⟩, _, .cons opens layers, rfl⟩
      · rintro ⟨uniform, levels, layers, rfl⟩
        cases layers with
        | cons opens layers =>
            obtain ⟨character, characters, rest⟩ := uniform_cons.1 uniform
            exact ⟨character, _, _, _, (readRow_eq_ok here).2 ⟨characters, opens, rfl⟩,
              (induction there).2 ⟨rest, _, layers, rfl⟩, rfl⟩

section LaidOut

variable {lines : List SourceLine} {levels : List (List Nat)} {line : SourceLine} {header : Header}
  {place below : Nat} {nodes : List Node}

theorem Layers.length_laidOut (layers : Layers [] lines levels) :
    (laidOut lines levels).length = lines.length := by
  simp [laidOut, layers.length_eq]

theorem Layers.row (layers : Layers [] lines levels) (found : lines[place]? = some line) :
    (laidOut lines levels)[place]? = some ⟨line.number, depthAt levels place, line.units⟩ := by
  obtain ⟨inside, rfl⟩ := List.getElem?_eq_some_iff.1 found
  have also : place < levels.length := layers.length_eq ▸ inside
  simp [laidOut, depthAt, inside, also]

theorem Layers.rowDepth_eq (layers : Layers [] lines levels) :
    rowDepth (laidOut lines levels) = depthAt levels := by
  funext place
  cases found : lines[place]? with
  | some line => rw [rowDepth, layers.row found, Option.map_some, Option.getD_some]
  | none =>
      have outside := List.getElem?_eq_none_iff.1 found
      have rows : (laidOut lines levels)[place]? = none := by
        rwa [List.getElem?_eq_none_iff, layers.length_laidOut]
      have blocks : levels[place]? = none := by
        rwa [List.getElem?_eq_none_iff, layers.length_eq]
      rw [rowDepth, depthAt, rows, blocks]
      rfl

/-- The positions of the lines that the one at a position encloses. -/
def innerLines (lines : List SourceLine) (levels : List (List Nat)) (place : Nat) : List Nat :=
  enclosed (depthAt levels) place (lines.length - (place + 1))

theorem Layers.mem_innerLines (layers : Layers [] lines levels) (inside : place < lines.length) :
    below ∈ innerLines lines levels place ↔ Encloses lines place below := by
  rw [innerLines, mem_enclosed]
  constructor
  · rintro ⟨within, nearest⟩
    have within : below < lines.length := by omega
    exact ⟨within, (layers.nearest_iff within).2 nearest⟩
  · rintro ⟨within, nearest⟩
    exact ⟨by omega, (layers.nearest_iff within).1 nearest⟩

/-- A line is read if it takes the lines that it encloses and they are read. -/
theorem Layers.readBranch_eq_ok (layers : Layers [] lines levels) (found : lines[place]? = some line)
    (heads : line.Heads header) :
    readBranch (branchAt (laidOut lines levels) place) = .ok nodes ↔
      header.Takes (innerLines lines levels place) ∧ ∃ bodies,
        List.Forall₂ (fun below body => readBranch (branchAt (laidOut lines levels) below) = .ok body)
            (innerLines lines levels place) bodies ∧
          nodes = header.around line.number bodies.flatten := by
  obtain ⟨units, read, reads⟩ := heads
  have inside := (List.getElem?_eq_some_iff.1 found).1
  have whole : place + 1 + (lines.length - (place + 1)) = (laidOut lines levels).length := by
    rw [layers.length_laidOut]
    omega
  have same : line.units = units := by rw [SourceLine.units, read]
  rw [← Header.nodes_eq_ok, block_branchAt (layers.row found) whole, layers.rowDepth_eq, readBranch,
    same, reads]
  rfl

/-- What is read of a line is what it stands for. -/
theorem Layers.denotes (layers : Layers [] lines levels)
    (readable : ∀ line ∈ lines, ∃ header, line.Heads header) (inside : place < lines.length)
    (read : readBranch (branchAt (laidOut lines levels) place) = .ok nodes) :
    Denotes lines place nodes := by
  induction count : lines.length - place using Nat.strong_induction_on generalizing place nodes with
  | _ remaining induction =>
      have found := List.getElem?_eq_getElem inside
      obtain ⟨header, heads⟩ := readable _ (List.getElem_mem inside)
      obtain ⟨_, bodies, all, rfl⟩ := (layers.readBranch_eq_ok found heads).1 read
      refine .line found heads (outermost_ascending.filter _)
        (fun below => layers.mem_innerLines inside) (forall₂_imp_mem all ?_)
      intro below member body read
      have encloses := (layers.mem_innerLines inside).1 member
      have after := encloses.nearest.before
      exact induction _ (by omega) encloses.inside read rfl

/-- Whether all lines take the lines that they enclose. -/
def Filled (lines : List SourceLine) (levels : List (List Nat)) : Prop :=
  ∀ (place : Nat) (line : SourceLine) (header : Header), lines[place]? = some line →
    line.Heads header → header.Takes (innerLines lines levels place)

/-- All lines are read if all of them take the lines that they enclose. -/
theorem Layers.exists_read (layers : Layers [] lines levels)
    (readable : ∀ line ∈ lines, ∃ header, line.Heads header) (filled : Filled lines levels)
    (inside : place < lines.length) :
    ∃ nodes, readBranch (branchAt (laidOut lines levels) place) = .ok nodes := by
  induction count : lines.length - place using Nat.strong_induction_on generalizing place with
  | _ remaining induction =>
      have found := List.getElem?_eq_getElem inside
      obtain ⟨header, heads⟩ := readable _ (List.getElem_mem inside)
      have inner : ∀ below ∈ innerLines lines levels place,
          ∃ body, readBranch (branchAt (laidOut lines levels) below) = .ok body := by
        intro below member
        have encloses := (layers.mem_innerLines inside).1 member
        have after := encloses.nearest.before
        exact induction _ (by omega) encloses.inside rfl
      obtain ⟨bodies, all⟩ := exists_forall₂ inner
      exact ⟨_, (layers.readBranch_eq_ok found heads).2 ⟨filled _ _ _ found heads, bodies, all, rfl⟩⟩

/-- If the first line is read and encloses all others in the end, all lines take what they enclose. -/
theorem Layers.filled (layers : Layers [] lines levels)
    (readable : ∀ line ∈ lines, ∃ header, line.Heads header)
    (read : ∃ nodes, readBranch (branchAt (laidOut lines levels) 0) = .ok nodes)
    (single : ∀ place, 0 < place → place < lines.length → ∃ above, Encloses lines above place) :
    Filled lines levels := by
  have all : ∀ place, place < lines.length →
      ∃ nodes, readBranch (branchAt (laidOut lines levels) place) = .ok nodes := by
    intro place
    induction place using Nat.strong_induction_on with
    | _ place induction =>
        intro inside
        rcases Nat.eq_zero_or_pos place with rfl | positive
        · exact read
        · obtain ⟨above, encloses⟩ := single place positive inside
          have before := encloses.nearest.before
          have found := List.getElem?_eq_getElem (before.trans inside)
          obtain ⟨header, heads⟩ := readable _ (List.getElem_mem (before.trans inside))
          obtain ⟨nodes, read⟩ := induction above before (before.trans inside)
          obtain ⟨_, bodies, all, _⟩ := (layers.readBranch_eq_ok found heads).1 read
          obtain ⟨body, _, there⟩ := exists_of_mem_forall₂ all
            ((layers.mem_innerLines (before.trans inside)).2 encloses)
          exact ⟨body, there⟩
  intro place line header found heads
  obtain ⟨nodes, read⟩ := all place (List.getElem?_eq_some_iff.1 found).1
  exact ((layers.readBranch_eq_ok found heads).1 read).1

/-- Lines that take what they enclose, in the words of their headers. -/
theorem Layers.filled_iff (layers : Layers [] lines levels) : Filled lines levels ↔
    (∀ place line keyword rule path, lines[place]? = some line →
      line.Heads (.block keyword rule path) → ∃ below, Encloses lines place below) ∧
    ∀ place line header, lines[place]? = some line → line.Heads header →
      (∃ content, header = .text content) ∨ (∃ name path, header = .view name path) →
        ∀ below, ¬ Encloses lines place below := by
  have inside : ∀ {place line}, lines[place]? = some line → place < lines.length :=
    fun found => (List.getElem?_eq_some_iff.1 found).1
  constructor
  · refine fun filled => ⟨fun place line keyword rule path found heads => ?_,
      fun place line header found heads kind below encloses => ?_⟩
    · obtain ⟨below, member⟩ := List.exists_mem_of_ne_nil _ (filled place line _ found heads)
      exact ⟨below, (layers.mem_innerLines (inside found)).1 member⟩
    · have member := (layers.mem_innerLines (inside found)).2 encloses
      have takes := filled place line header found heads
      rcases kind with ⟨_, rfl⟩ | ⟨_, _, rfl⟩ <;>
      · rw [show innerLines lines levels place = [] from takes] at member
        cases member
  · rintro ⟨blocks, bare⟩ place line header found heads
    have empty : (∀ below, ¬ Encloses lines place below) → innerLines lines levels place = [] :=
      fun none => List.eq_nil_iff_forall_not_mem.2 fun below member =>
        none below ((layers.mem_innerLines (inside found)).1 member)
    cases header with
    | element => trivial
    | block =>
        obtain ⟨below, encloses⟩ := blocks place line _ _ _ found heads
        exact List.ne_nil_of_mem ((layers.mem_innerLines (inside found)).2 encloses)
    | text content => exact empty (bare place line _ found heads (.inl ⟨_, rfl⟩))
    | view name path => exact empty (bare place line _ found heads (.inr ⟨_, _, rfl⟩))

/-- All later lines are enclosed by others if the first is the only outermost one. -/
theorem Layers.outermost_iff (layers : Layers [] lines levels) (some : 0 < lines.length) :
    outermost (depthAt levels) 0 lines.length = [0] ↔
      ∀ place, 0 < place → place < lines.length → ∃ above, Encloses lines above place := by
  constructor
  · intro only place positive inside
    by_cases least : ∀ other, other < place → depthAt levels place ≤ depthAt levels other
    · have member : place ∈ outermost (depthAt levels) 0 lines.length :=
        mem_outermost.2 ⟨Nat.zero_le place, by omega, fun other _ before => least other before⟩
      rw [only, List.mem_singleton] at member
      omega
    · push Not at least
      obtain ⟨other, before, smaller⟩ := least
      obtain ⟨above, nearest⟩ := exists_nearest before smaller
      exact ⟨above, inside, (layers.nearest_iff inside).2 nearest⟩
  · refine fun single => eq_of_ascending outermost_ascending (List.pairwise_singleton _ _)
      fun place => ?_
    rw [mem_outermost, List.mem_singleton]
    constructor
    · rintro ⟨_, inside, least⟩
      by_contra later
      obtain ⟨above, encloses⟩ := single place (Nat.pos_of_ne_zero later) (by omega)
      have nearest := (layers.nearest_iff encloses.inside).1 encloses.nearest
      exact absurd (least above (Nat.zero_le above) nearest.before) (not_le.2 nearest.smaller)
    · rintro rfl
      exact ⟨le_rfl, by omega, fun other _ before => by omega⟩

theorem Layers.depth_zero (layers : Layers [] lines levels) (some : 0 < lines.length) :
    depthAt levels 0 = 0 ↔ widthAt lines 0 = 0 := by
  cases lines with
  | nil => cases some
  | cons line later =>
      rcases openBlocks_eq_ok.1 layers.start with ⟨deeper, same⟩ | ⟨flush, same, _⟩
      · rw [depthAt, same, widthAt_zero]
        rw [List.headD_nil] at deeper
        simp only [List.length_cons, List.length_nil]
        omega
      · rw [depthAt, same, widthAt_zero]
        exact iff_of_true rfl (Nat.le_zero.1 flush)

theorem Layers.parseRows_eq_ok (layers : Layers [] lines levels) {template : Template}
    (some : 0 < lines.length) :
    parseRows (laidOut lines levels) = .ok template ↔
      widthAt lines 0 = 0 ∧
        (∀ place, 0 < place → place < lines.length → ∃ above, Encloses lines above place) ∧
          readBranch (branchAt (laidOut lines levels) 0) = .ok [template.root] := by
  rw [Template.parseRows_eq_ok (by rwa [layers.length_laidOut]), layers.rowDepth_eq,
    layers.length_laidOut, layers.depth_zero some, layers.outermost_iff some]

end LaidOut

theorem parse_eq_ok {source : String} {template : Template}
    (readable : ∀ line ∈ sourceLines source.toList, ∃ header, line.Heads header) :
    parse source = .ok template ↔
      Uniform none (sourceLines source.toList) ∧ ∃ levels, Layers [] (sourceLines source.toList) levels ∧
        parseRows (laidOut (sourceLines source.toList) levels) = .ok template := by
  rw [parse]
  cases read : rows source with
  | error fault =>
      constructor
      · intro same
        cases same
      · rintro ⟨uniform, levels, layers, _⟩
        cases read.symm.trans ((rowsFrom_eq_ok readable).2 ⟨uniform, levels, layers, rfl⟩)
  | ok found =>
      constructor
      · intro same
        obtain ⟨uniform, levels, layers, rfl⟩ := (rowsFrom_eq_ok readable).1 read
        exact ⟨uniform, levels, layers, same⟩
      · rintro ⟨uniform, levels, layers, same⟩
        cases read.symm.trans ((rowsFrom_eq_ok readable).2 ⟨uniform, levels, layers, rfl⟩)
        exact same

/-- Nesting is decided by indentation alone.  If every line can be read by itself, a source is a
template if and only if its lines are nested, and the template is what the first line stands for. -/
theorem parse_nesting (source : String)
    (readable : ∀ line ∈ sourceLines source.toList, ∃ header, line.Heads header) :
    ((∃ template, parse source = .ok template) ↔ Nested (sourceLines source.toList)) ∧
      ∀ template, parse source = .ok template →
        ∀ nodes, Denotes (sourceLines source.toList) 0 nodes ↔ nodes = [template.root] := by
  have parsed := fun template => @parse_eq_ok source template readable
  generalize sourceLines source.toList = lines at readable parsed
  have nonempty : ∀ {levels template}, Layers [] lines levels →
      parseRows (laidOut lines levels) = .ok template → 0 < lines.length := by
    intro levels template layers same
    refine List.length_pos_iff.2 fun empty => ?_
    subst empty
    cases layers
    cases same
  refine ⟨⟨?_, ?_⟩, ?_⟩
  · rintro ⟨template, accepted⟩
    obtain ⟨uniform, levels, layers, same⟩ := (parsed template).1 accepted
    have some := nonempty layers same
    obtain ⟨flush, single, read⟩ := (layers.parseRows_eq_ok some).1 same
    obtain ⟨filled, bare⟩ := layers.filled_iff.1 (layers.filled readable ⟨_, read⟩ single)
    have found := List.getElem?_eq_getElem some
    obtain ⟨header, heads⟩ := readable _ (List.getElem_mem some)
    obtain ⟨_, bodies, _, around⟩ := (layers.readBranch_eq_ok found heads).1 read
    obtain ⟨tag, attributes, content, rfl⟩ := Header.around_eq_root around.symm
    refine ⟨uniform.imp fun _ all => all.2,
      ⟨_, tag, attributes, content, found, (widthAt_eq found).symm.trans flush, heads⟩, single,
      fun above first second one other => ?_, filled, bare⟩
    rcases Nat.le_total first second with order | order
    · exact layers.aligned order other.inside one.nearest other.nearest
    · exact (layers.aligned order one.inside other.nearest one.nearest).symm
  · intro nested
    obtain ⟨line, tag, attributes, content, found, flush, heads⟩ := nested.outermost
    have some := (List.getElem?_eq_some_iff.1 found).1
    have flush := (widthAt_eq found).trans flush
    obtain ⟨levels, layers⟩ := exists_layers flush fun above first last within inside one other =>
      nested.aligned above first last ⟨within, one⟩ ⟨inside, other⟩
    obtain ⟨nodes, read⟩ := layers.exists_read readable
      (layers.filled_iff.2 ⟨nested.filled, nested.bare⟩) some
    obtain ⟨_, bodies, _, rfl⟩ := (layers.readBranch_eq_ok found heads).1 read
    refine ⟨⟨tag, attributes, content.map Node.text ++ bodies.flatten, line.number⟩, (parsed _).2
      ⟨nested.uniform.imp fun _ all => ⟨by simp, all⟩, levels, layers,
        (layers.parseRows_eq_ok some).2 ⟨flush, nested.single, read⟩⟩⟩
  · intro template accepted nodes
    obtain ⟨_, levels, layers, same⟩ := (parsed template).1 accepted
    have some := nonempty layers same
    have denotes := layers.denotes readable some ((layers.parseRows_eq_ok some).1 same).2.2
    constructor
    · exact fun other => other.unique denotes
    · rintro rfl
      exact denotes

/-- A list with an item that is shown if the model has one. -/
def listing : String :=
  "ul\n\n  - if @shown\n    li \"first\"\n  li @name\n"

theorem parse_nesting_listing :
    (∀ line ∈ sourceLines listing.toList, ∃ header, line.Heads header) ∧
      Nested (sourceLines listing.toList) ∧
      Denotes (sourceLines listing.toList) 0
        [.element "ul" [] [
          .directive .showIf ⟨"shown", []⟩ [.element "li" [] [.text (.literal "first")] 4],
          .element "li" [] [.text (.bound ⟨"name", []⟩)] 5] 1] := by
  have lines : sourceLines listing.toList = [⟨1, [], "ul".toList⟩,
      ⟨3, "  ".toList, "- if @shown".toList⟩, ⟨4, "    ".toList, "li \"first\"".toList⟩,
      ⟨5, "  ".toList, "li @name".toList⟩] := by cbv
  have readable : ∀ line ∈ sourceLines listing.toList, ∃ header, line.Heads header := by
    rw [lines]
    simp only [List.forall_mem_cons, List.not_mem_nil, false_imp_iff, implies_true, and_true]
    exact ⟨⟨.element "ul" [] [], [.identifier "ul"], by cbv, by cbv⟩,
      ⟨.block .if .showIf ⟨"shown", []⟩, [.dash, .keyword .if, .bound "shown"], by cbv, by cbv⟩,
      ⟨.element "li" [] [.literal "first"], [.identifier "li", .literal "first"], by cbv, by cbv⟩,
      ⟨.element "li" [] [.bound ⟨"name", []⟩], [.identifier "li", .bound "name"], by cbv, by cbv⟩⟩
  have accepted : parse listing = .ok ⟨"ul", [], [
      .directive .showIf ⟨"shown", []⟩ [.element "li" [] [.text (.literal "first")] 4],
      .element "li" [] [.text (.bound ⟨"name", []⟩)] 5], 1⟩ := by cbv
  obtain ⟨nested, denotes⟩ := parse_nesting listing readable
  exact ⟨readable, nested.1 ⟨_, accepted⟩, (denotes _ accepted _).2 rfl⟩

end LiveTemplate.Template
