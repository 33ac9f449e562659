import LiveTemplate.Proofs.Matching
import LiveTemplate.Proofs.Template.Lines
import LiveTemplate.Proofs.Template.RoundTrip
import Mathlib.Order.Monotone.Defs

/-!
# The layout of a source may change

Blank lines may come and go, and so may blanks at the ends of lines; a carriage return before a line
feed is one of them.  Indentation may be made of another character and have other widths, if wider lines
stay wider.  The tokens of the source stay the same, but for the numbers of their lines.
-/

namespace LiveTemplate.Template

/-- The text begins and ends with characters that are no blanks. -/
structure Stands (body : List Char) : Prop where
  begins : ∃ first rest, body = first :: rest ∧ Text.isBlank first = false
  ends : Ended body

/-- The lines of a source and of the same source in another layout.  Where an indentation consists of
`width` times the one character, the other one consists of `widths width` times the other. -/
inductive Relaid (widths : Nat → Nat) (one other : Char) :
    List (List Char) → List (List Char) → Prop where
  | done : Relaid widths one other [] []
  | removed {line : List Char} {lines others : List (List Char)} (blank : Blank line)
      (rest : Relaid widths one other lines others) : Relaid widths one other (line :: lines) others
  | added {line : List Char} {lines others : List (List Char)} (blank : Blank line)
      (rest : Relaid widths one other lines others) : Relaid widths one other lines (line :: others)
  | kept {body trail tail : List Char} {lines others : List (List Char)} (width : Nat)
      (stands : Stands body) (blank : Blank trail) (also : Blank tail)
      (rest : Relaid widths one other lines others) :
      Relaid widths one other ((List.replicate width one ++ body ++ trail) :: lines)
        ((List.replicate (widths width) other ++ body ++ tail) :: others)

/-- The number that the same line has in another source: as many lines are seen before it. -/
def renumbering (source other : String) (line : Nat) : Nat :=
  (((sourceLines source.toList).map SourceLine.number).zip
    ((sourceLines other.toList).map SourceLine.number)).lookup line |>.getD 0

/-- The token on another line. -/
def Token.moved (lines : Nat → Nat) (token : Token) : Token :=
  { token with line := lines token.line }

/-- The fault with other widths. -/
def LayoutFault.widened (widths : Nat → Nat) : LayoutFault → LayoutFault
  | .mixedIndentation => .mixedIndentation
  | .strayIndentation width => .strayIndentation (widths width)
  | .unreadable sequence => .unreadable sequence

/-- The error on another line and with other widths. -/
def LayoutError.moved (widths lines : Nat → Nat) (error : LayoutError) : LayoutError :=
  ⟨lines error.line, error.fault.widened widths⟩

/-- The row on another line. -/
def Row.moved (lines : Nat → Nat) (row : Row) : Row :=
  { row with line := lines row.line }

/-- The same line in the two sources. -/
structure Alike (widths : Nat → Nat) (one other : Char) (lines : Nat → Nat) (first second : SourceLine) :
    Prop where
  number : second.number = lines first.number
  indentation : ∃ width, first.indentation = List.replicate width one ∧
    second.indentation = List.replicate (widths width) other
  content : second.content = first.content

section Relayout

variable {widths lines : Nat → Nat} {one other : Char}

/-! ## The lines that are seen -/

/-- Of a line, its indentation and its body are found. -/
theorem sourceLinesFrom_kept {body trail : List Char} {c : Char} (blank : Text.isBlank c = true)
    (stands : Stands body) (trailing : Blank trail) (number width : Nat) (later : List (List Char)) :
    sourceLinesFrom number ((List.replicate width c ++ body ++ trail) :: later) =
      ⟨number, List.replicate width c, body⟩ :: sourceLinesFrom (number + 1) later := by
  obtain ⟨first, rest, same, seen⟩ := stands.begins
  have blanks : ∀ d ∈ List.replicate width c, Text.isBlank d = true := by
    intro d member
    rw [List.eq_of_mem_replicate member]
    exact blank
  have stops : ¬ Text.isBlank first = true := by simp [seen]
  rw [sourceLinesFrom, trimEnd_append_blanks trailing, (stands.ends.append _).trimEnd,
    List.dropWhile_append_of_pos blanks, List.takeWhile_append_of_pos blanks, same,
    List.dropWhile_cons_of_neg stops, List.takeWhile_cons_of_neg stops, List.append_nil]
  rfl

/-- The same lines are seen, with other indentation and other numbers. -/
theorem Relaid.alike {first second : List (List Char)} (relaid : Relaid widths one other first second)
    (blank : Text.isBlank one = true) (also : Text.isBlank other = true) (number place : Nat) :
    List.Forall₂ (fun line another => Alike widths one other (fun _ => another.number) line another)
      (sourceLinesFrom number first) (sourceLinesFrom place second) := by
  induction relaid generalizing number place with
  | done => exact .nil
  | removed empty _ induction =>
      rw [sourceLinesFrom_blank empty]
      exact induction (number + 1) place
  | added empty _ induction =>
      rw [sourceLinesFrom_blank empty]
      exact induction number (place + 1)
  | kept width stands trailing tailing _ induction =>
      rw [sourceLinesFrom_kept blank stands trailing, sourceLinesFrom_kept also stands tailing]
      exact .cons ⟨rfl, ⟨width, rfl, rfl⟩, rfl⟩ (induction (number + 1) (place + 1))

/-- Items that are told apart are found beside those that they match. -/
theorem lookup_zip_of_forall₂ {Item : Type} {related : Item → Item → Prop} {number : Item → Nat}
    {firsts seconds : List Item} (all : List.Forall₂ related firsts seconds)
    (apart : (firsts.map number).Nodup) :
    List.Forall₂ (fun first second => related first second ∧
      ((firsts.map number).zip (seconds.map number)).lookup (number first) = some (number second))
        firsts seconds := by
  induction all with
  | nil => exact .nil
  | @cons first second later others here _ induction =>
      obtain ⟨differs, distinct⟩ := List.nodup_cons.1 apart
      refine .cons ⟨here, by simp⟩ (forall₂_imp_mem (induction distinct) ?_)
      rintro item member another ⟨matched, found⟩
      have unlike : (number item == number first) = false := by
        rw [beq_eq_false_iff_ne]
        intro same
        exact differs (same ▸ List.mem_map_of_mem member)
      refine ⟨matched, ?_⟩
      rw [List.map_cons, List.map_cons, List.zip_cons_cons, List.lookup_cons, unlike]
      exact found

/-! ## Rows -/

theorem openBlocks_widened (rising : StrictMono widths) (flush : widths 0 = 0) (blocks : List Nat)
    (width : Nat) : openBlocks (blocks.map widths) (widths width) =
      ((openBlocks blocks width).map (List.map widths)).mapError (LayoutFault.widened widths) := by
  have innermost : ∀ inner : List Nat, (inner.map widths).headD 0 = widths (inner.headD 0) := by
    intro inner
    cases inner with
    | nil => exact flush.symm
    | cons first later => rfl
  have wider : (fun blockWidth => decide (widths width < blockWidth)) ∘ widths =
      fun blockWidth => decide (width < blockWidth) := by
    funext blockWidth
    exact decide_eq_decide.2 rising.lt_iff_lt
  have closed : (blocks.map widths).dropWhile (widths width < ·) =
      (blocks.dropWhile (width < ·)).map widths := by
    rw [List.dropWhile_map, wider]
  unfold openBlocks
  simp only [innermost, closed, rising.lt_iff_lt, rising.injective.eq_iff]
  split
  · rfl
  · split <;> rfl

/-- Indentation of the one character that is known is in order. -/
theorem indentationCharacter_only {known : Option Char} {c : Char} (only : ∀ found ∈ known, found = c)
    (width : Nat) : ∃ character, indentationCharacter known (List.replicate width c) = .ok character ∧
      ∀ found ∈ character, found = c := by
  have same : ∀ found ∈ List.replicate width c, found = c := fun _ member =>
    List.eq_of_mem_replicate member
  refine ⟨_, indentationCharacter_eq_ok.2 ⟨⟨c, only, same⟩, rfl⟩, fun found member => ?_⟩
  rcases Option.or_eq_some_iff.1 member with known | ⟨-, first⟩
  · exact only found known
  · exact same found (List.mem_of_mem_head? first)

/-- The same rows are read, with other numbers, or the same line is at fault. -/
theorem rowsFrom_moved (rising : StrictMono widths) (flush : widths 0 = 0)
    {firsts seconds : List SourceLine}
    (alike : List.Forall₂ (Alike widths one other lines) firsts seconds) {known also : Option Char}
    (only : ∀ found ∈ known, found = one) (onlyOther : ∀ found ∈ also, found = other)
    (blocks : List Nat) : rowsFrom also (blocks.map widths) seconds =
      ((rowsFrom known blocks firsts).map (List.map (Row.moved lines))).mapError
        (LayoutError.moved widths lines) := by
  induction alike generalizing known also blocks with
  | nil => rfl
  | @cons first second later others here _ induction =>
      obtain ⟨number, ⟨width, indented, indentedOther⟩, content⟩ := here
      obtain ⟨character, read, single⟩ := indentationCharacter_only only width
      obtain ⟨characterOther, readOther, singleOther⟩ :=
        indentationCharacter_only onlyOther (widths width)
      have opened := openBlocks_widened rising flush blocks width
      rw [rowsFrom, rowsFrom, readRow, readRow, SourceLine.width, SourceLine.width, indented,
        indentedOther, content, number, read, readOther, List.length_replicate, List.length_replicate]
      simp only [bind, Except.bind, opened]
      cases openBlocks blocks width with
      | error fault => rfl
      | ok opened =>
          cases lexemes first.content with
          | error sequence => rfl
          | ok units =>
              have following := induction single singleOther opened
              simp only [Except.map, Except.mapError, following, List.length_map]
              cases rowsFrom character opened later <;> rfl

/-! ## Tokens -/

theorem tokensFrom_moved (depth line : Nat) (rows : List Row) :
    tokensFrom depth (lines line) (rows.map (Row.moved lines)) =
      (tokensFrom depth line rows).map (Token.moved lines) := by
  induction rows generalizing depth line with
  | nil => simp [tokensFrom, Token.moved]
  | cons row later induction =>
      have following := induction row.depth row.line
      have content : (row.moved lines).tokens = row.tokens.map (Token.moved lines) := by
        simp [Row.tokens, Row.moved, Token.moved]
      have entrance : (row.moved lines).entrance depth =
          (row.entrance depth).map (Token.moved lines) := by
        simp [Row.entrance, Row.moved, Token.moved]
      rw [List.map_cons, tokensFrom, tokensFrom, List.map_append, List.map_append, content, entrance]
      exact congrArg _ following

/-- No line has the number zero. -/
theorem renumbering_zero (source another : String) : renumbering source another 0 = 0 := by
  have unseen : ∀ numbers : List Nat,
      (((sourceLines source.toList).map SourceLine.number).zip numbers).lookup 0 = none := by
    intro numbers
    rw [List.lookup_eq_none_iff]
    intro pair member
    obtain ⟨line, listed, same⟩ := List.mem_map.1 (List.of_mem_zip member).1
    have positive := (mem_sourceLinesFrom listed).1
    rw [← same, bne_iff_ne]
    omega
  rw [renumbering, unseen]
  rfl

/-- The same lines are seen in the two sources. -/
theorem Relaid.sourceLines {source another : String}
    (relaid : Relaid widths one other (Text.lines source.toList) (Text.lines another.toList))
    (blank : Text.isBlank one = true) (also : Text.isBlank other = true) :
    List.Forall₂ (Alike widths one other (renumbering source another))
      (Template.sourceLines source.toList) (Template.sourceLines another.toList) := by
  have distinct : ((Template.sourceLines source.toList).map SourceLine.number).Nodup :=
    List.pairwise_map.2 ((sourceLinesFrom_ascending _ 1).imp Nat.ne_of_lt)
  refine (lookup_zip_of_forall₂ (relaid.alike blank also 1 1) distinct).imp ?_
  rintro line matching ⟨alike, found⟩
  refine ⟨?_, alike.indentation, alike.content⟩
  have listed := congrArg (Option.getD · 0) found
  exact listed.symm

/-- However the layout of a source changes, its tokens stay the same, or the same line is at fault.  Only
the numbers of lines change, and the width that a fault names. -/
theorem tokenize_relaid (rising : StrictMono widths) (flush : widths 0 = 0)
    (blank : Text.isBlank one = true) (also : Text.isBlank other = true) {source another : String}
    (relaid : Relaid widths one other (Text.lines source.toList) (Text.lines another.toList)) :
    tokenize another =
      ((tokenize source).map (List.map (Token.moved (renumbering source another)))).mapError
        (LayoutError.moved widths (renumbering source another)) := by
  have moved := @rowsFrom_moved _ _ _ _ rising flush _ _ (relaid.sourceLines blank also) none none
    nofun nofun []
  rw [List.map_nil] at moved
  rw [tokenize, tokenize, rows, rows, moved]
  cases rowsFrom none [] (sourceLines source.toList) with
  | error fault => rfl
  | ok found =>
      have tokens := @tokensFrom_moved (renumbering source another) 0 0 found
      rw [renumbering_zero] at tokens
      exact congrArg Except.ok tokens

end Relayout

/-- A list of which one item has a text below it. -/
def plain : String :=
  "ul\n  li\n    \"a\"\n  li"

/-- The same list, with tabs for indentation, blank lines, other ends of lines, and blanks before them. -/
def noisy : String :=
  "\r\nul \u00a0\r\n\t\t\t\tli\n \t\n\t\t\t\t\t\t\t\t\"a\"\r\n\t\t\t\tli\t\n"

theorem relaid_noisy : Relaid (fun width => width + width) ' ' '\t' (Text.lines plain.toList)
    (Text.lines noisy.toList) := by
  have list : Stands "ul".toList := ⟨⟨'u', ['l'], rfl, by decide⟩, ['u'], 'l', rfl, by decide⟩
  have item : Stands "li".toList := ⟨⟨'l', ['i'], rfl, by decide⟩, ['l'], 'i', rfl, by decide⟩
  have text : Stands "\"a\"".toList :=
    ⟨⟨'"', ['a', '"'], rfl, by decide⟩, ['"', 'a'], '"', rfl, by decide⟩
  have none : Blank [] := nofun
  have blank : Blank "\r".toList := by decide
  have later : Relaid (fun width => width + width) ' ' '\t' ["    \"a\"".toList, "  li".toList]
      [" \t".toList, "\t\t\t\t\t\t\t\t\"a\"\r".toList, "\t\t\t\tli\t".toList, []] :=
    .added (by decide) (.kept 4 text none blank
      (.kept 2 item none (by decide : Blank "\t".toList) (.added none .done)))
  exact .added blank (.kept 0 list none (by decide : Blank " \u00a0\r".toList)
    (.kept 2 item none none later))

/-- Both are read, and the lines of the tokens are told apart. -/
theorem tokenize_relaid_noisy :
    StrictMono (fun width : Nat => width + width) ∧
    Relaid (fun width => width + width) ' ' '\t' (Text.lines plain.toList) (Text.lines noisy.toList) ∧
    ∃ tokens, tokenize plain = .ok tokens ∧
      tokenize noisy = .ok (tokens.map (Token.moved (renumbering plain noisy))) ∧
      tokens.map (fun token => (token.line, renumbering plain noisy token.line)) =
        [(1, 2), (1, 2), (2, 3), (2, 3), (2, 3), (3, 5), (3, 5), (3, 5), (4, 6), (4, 6), (4, 6), (4, 6),
          (4, 6)] := by
  have rising : StrictMono (fun width : Nat => width + width) := fun first second less =>
    Nat.add_lt_add less less
  have same := tokenize_relaid rising rfl (by decide) (by decide) relaid_noisy
  have read : tokenize plain = .ok [⟨.lexeme (.identifier "ul"), 1⟩, ⟨.newline, 1⟩, ⟨.indent, 2⟩,
      ⟨.lexeme (.identifier "li"), 2⟩, ⟨.newline, 2⟩, ⟨.indent, 3⟩, ⟨.lexeme (.literal "a"), 3⟩,
      ⟨.newline, 3⟩, ⟨.outdent, 4⟩, ⟨.lexeme (.identifier "li"), 4⟩, ⟨.newline, 4⟩, ⟨.outdent, 4⟩,
      ⟨.endOfInput, 4⟩] := by cbv
  rw [read] at same
  exact ⟨rising, relaid_noisy, _, read, same, by decide +kernel⟩

end LiveTemplate.Template
