import LiveTemplate.Template.Lexeme
import LiveTemplate.Text.Blank
import Mathlib.Data.List.Basic
import Mathlib.Data.List.TakeWhile

/-!
# Units of a line and their spelling

Every lexeme that can be read has a spelling, and from spellings with single spaces between them the
lexemes are read back.
-/

namespace LiveTemplate.Template

/-! ## Lexemes that can be written -/

/-- A letter or an underscore, and then letters, digits, underscores and dashes. -/
def IsName (text : List Char) : Prop :=
  ∃ first later, text = first :: later ∧ isNameStart first = true ∧
    ∀ c ∈ later, isNameCharacter c = true

/-- A letter or an underscore, and then letters, digits and underscores. -/
def IsSegment (text : List Char) : Prop :=
  ∃ first later, text = first :: later ∧ isNameStart first = true ∧
    ∀ c ∈ later, isSegmentCharacter c = true

/-- Segments with dots between them. -/
def IsPath (text : List Char) : Prop :=
  ∀ segment ∈ Text.pieces '.' text, IsSegment segment

/-- Identifiers are names that are not keywords, and paths are made of segments.  A literal may be any
text. -/
def Lexeme.Proper : Lexeme → Prop
  | .identifier name => IsName name.toList ∧ Keyword.ofWord? name = none
  | .bound path => IsPath path.toList
  | _ => True

/-- A character as it is written between quotes. -/
def escaped (c : Char) : List Char :=
  if c = '\\' then ['\\', '\\']
  else if c = '"' then ['\\', '"']
  else if c = '\n' then ['\\', 'n']
  else if c = '\t' then ['\\', 't']
  else [c]

/-- A lexeme as it is written. -/
def Lexeme.spelling : Lexeme → List Char
  | .identifier name => name.toList
  | .keyword which => which.word.toList
  | .bound path => '@' :: path.toList
  | .literal text => '"' :: (text.toList.flatMap escaped ++ ['"'])
  | .bracketOpen => ['[']
  | .bracketClose => [']']
  | .equals => ['=']
  | .colon => [':']
  | .bang => ['!']
  | .dash => ['-']

/-- Lexemes with a space before each of them. -/
def spaced (units : List Lexeme) : List Char :=
  units.flatMap fun unit => ' ' :: unit.spelling

/-- Lexemes with single spaces between them. -/
def spelled : List Lexeme → List Char
  | [] => []
  | unit :: later => unit.spelling ++ spaced later

/-! ## Paths -/

section Paths

variable {first c : Char} {later rest : List Char}

theorem pieces_cons_self (separator : Char) (text : List Char) :
    Text.pieces separator (separator :: text) = [] :: Text.pieces separator text := by
  simp [Text.pieces]

theorem exists_pieces_cons {separator : Char} (text : List Char) (other : c ≠ separator) :
    ∃ piece pieces, Text.pieces separator text = piece :: pieces ∧
      Text.pieces separator (c :: text) = (c :: piece) :: pieces := by
  have some : ∃ piece pieces, Text.pieces separator text = piece :: pieces := by
    cases text with
    | nil => exact ⟨[], [], rfl⟩
    | cons d later =>
        rw [Text.pieces]
        split
        · exact ⟨_, _, rfl⟩
        · split <;> exact ⟨_, _, rfl⟩
  obtain ⟨piece, pieces, same⟩ := some
  exact ⟨piece, pieces, same, by simp [Text.pieces, other, same]⟩

/-- A piece ends at the first separator. -/
theorem pieces_append {separator : Char} {text : List Char} (unbroken : separator ∉ text)
    (later : List Char) : Text.pieces separator (text ++ separator :: later) =
      text :: Text.pieces separator later := by
  induction text with
  | nil => exact pieces_cons_self separator later
  | cons c rest induction =>
      obtain ⟨other, within⟩ := List.ne_and_not_mem_of_not_mem_cons unbroken
      rw [List.cons_append, Text.pieces, if_neg (Ne.symm other), induction within]

theorem pieces_of_not_mem {separator : Char} {text : List Char} (unbroken : separator ∉ text) :
    Text.pieces separator text = [text] := by
  induction text with
  | nil => rfl
  | cons c rest induction =>
      obtain ⟨other, within⟩ := List.ne_and_not_mem_of_not_mem_cons unbroken
      rw [Text.pieces, if_neg (Ne.symm other), induction within]

theorem isNameStart_ne_dot (start : isNameStart first = true) : first ≠ '.' := by
  rintro rfl
  cases start

theorem not_isPath_nil : ¬ IsPath [] := by
  intro path
  obtain ⟨_, _, same, _⟩ := path [] List.mem_cons_self
  cases same

theorem IsPath.start (path : IsPath (first :: later)) : isNameStart first = true := by
  by_cases dot : first = '.'
  · subst dot
    rw [IsPath, pieces_cons_self] at path
    obtain ⟨_, _, same, _⟩ := path [] List.mem_cons_self
    cases same
  · obtain ⟨piece, pieces, -, same⟩ := exists_pieces_cons later dot
    rw [IsPath, same] at path
    obtain ⟨_, _, equal, start, _⟩ := path _ List.mem_cons_self
    rw [(List.cons.inj equal).1]
    exact start

theorem isPath_singleton (start : isNameStart first = true) : IsPath [first] := by
  intro segment member
  rw [Text.pieces, if_neg (isNameStart_ne_dot start)] at member
  obtain rfl := List.mem_singleton.1 member
  exact ⟨first, [], rfl, start, nofun⟩

/-- A path goes on with a segment after a dot. -/
theorem isPath_dot (start : isNameStart first = true) :
    IsPath (first :: '.' :: later) ↔ IsPath later := by
  have same : Text.pieces '.' (first :: '.' :: later) = [first] :: Text.pieces '.' later := by
    rw [Text.pieces, if_neg (isNameStart_ne_dot start), pieces_cons_self]
  rw [IsPath, same, List.forall_mem_cons]
  exact and_iff_right ⟨first, [], rfl, start, nofun⟩

/-- A path goes on with a character of its segment. -/
theorem isPath_cons (start : isNameStart first = true) (other : c ≠ '.') :
    IsPath (first :: c :: later) ↔ isSegmentCharacter c = true ∧ IsPath (first :: later) := by
  obtain ⟨piece, pieces, here, longer⟩ := exists_pieces_cons later other
  have notDot := isNameStart_ne_dot start
  have whole : Text.pieces '.' (first :: c :: later) = (first :: c :: piece) :: pieces := by
    rw [Text.pieces, if_neg notDot, longer]
  have short : Text.pieces '.' (first :: later) = (first :: piece) :: pieces := by
    rw [Text.pieces, if_neg notDot, here]
  have segment : ∀ text, IsSegment (first :: text) ↔ ∀ c ∈ text, isSegmentCharacter c = true := by
    intro text
    constructor
    · rintro ⟨_, _, same, _, all⟩
      obtain ⟨rfl, rfl⟩ := List.cons.inj same
      exact all
    · exact fun all => ⟨first, text, rfl, start, all⟩
  simp only [IsPath, whole, short, List.forall_mem_cons, segment, and_assoc]

/-- What is read after the first character of a path makes it a path. -/
theorem isPath_pathTail (start : isNameStart first = true) (input : List Char) :
    IsPath (first :: (pathTail input).1) := by
  fun_induction pathTail input generalizing first with
  | case1 => exact isPath_singleton start
  | case2 c later starts path after same induction =>
      rw [same] at induction
      exact (isPath_dot start).2 (induction starts)
  | case3 => exact isPath_singleton start
  | case4 c later notDot segment path after same induction =>
      rw [same] at induction
      have other : c ≠ '.' := by
        rintro rfl
        cases segment
      exact (isPath_cons start other).2 ⟨segment, induction start⟩
  | case5 => exact isPath_singleton start

/-- The sequence ends here, or a space follows. -/
def Ends (rest : List Char) : Prop :=
  rest = [] ∨ ∃ later, rest = ' ' :: later

theorem Ends.pathTail (ends : Ends rest) : pathTail rest = ([], rest) := by
  rcases ends with rfl | ⟨later, rfl⟩
  · rfl
  · cases later <;> rfl

theorem pathTail_cons (segment : isSegmentCharacter c = true) :
    pathTail (c :: rest) = (c :: (pathTail rest).1, (pathTail rest).2) := by
  have other : ∀ (d : Char) (later : List Char), c = '.' → rest = d :: later → False := by
    rintro d later rfl
    cases segment
  rw [pathTail.eq_3 c rest other, if_pos segment]

theorem pathTail_append (path : IsPath (first :: later)) (ends : Ends rest) :
    pathTail (later ++ rest) = (later, rest) := by
  have start := path.start
  fun_induction pathTail later generalizing first with
  | case1 => exact ends.pathTail
  | case2 c later starts inner after same induction =>
      simp only [List.cons_append, pathTail, starts, if_true,
        induction ((isPath_dot start).1 path) starts]
  | case3 c later notStart => exact (notStart ((isPath_dot start).1 path).start).elim
  | case4 c later notDot segment inner after same induction =>
      have other : c ≠ '.' := by
        rintro rfl
        cases segment
      rw [List.cons_append, pathTail_cons segment,
        induction ((isPath_cons start other).1 path).2 start]
  | case5 c later notDot notSegment =>
      by_cases dot : c = '.'
      · subst dot
        cases later with
        | nil => exact (not_isPath_nil ((isPath_dot start).1 path)).elim
        | cons d beyond => exact (notDot d beyond rfl rfl).elim
      · exact (notSegment ((isPath_cons start dot).1 path).1).elim

end Paths

/-! ## Names -/

theorem ofName_word (which : Keyword) : Lexeme.ofName which.word = .keyword which := by
  cases which <;> decide

theorem isName_word (which : Keyword) : IsName which.word.toList := by
  cases which <;> exact ⟨_, _, rfl, by decide, List.all_eq_true.1 (by decide)⟩

theorem ofName_proper {name : String} (named : IsName name.toList) : (Lexeme.ofName name).Proper := by
  rw [Lexeme.ofName]
  cases found : Keyword.ofWord? name with
  | some which => trivial
  | none => exact ⟨named, found⟩

/-! ## Literals -/

theorem read_escaped (text rest : List Char) :
    Text.Quoted.read (text.flatMap escaped ++ '"' :: rest) = .closed text rest := by
  induction text with
  | nil => rfl
  | cons c later induction =>
      rw [List.flatMap_cons, List.append_assoc, escaped]
      split_ifs with backslash quote line tab <;>
        simp_all [Text.Quoted.read, Text.Quoted.Reading.after, Text.Quoted.meaning]

/-! ## Reading what is written -/

theorem Ends.takeWhile_name {rest : List Char} (ends : Ends rest) :
    rest.takeWhile isNameCharacter = [] := by
  rcases ends with rfl | ⟨later, rfl⟩ <;> rfl

theorem Ends.dropWhile_name {rest : List Char} (ends : Ends rest) :
    rest.dropWhile isNameCharacter = rest := by
  rcases ends with rfl | ⟨later, rfl⟩ <;> rfl

/-- A lexeme that is written is read back, if a space or nothing follows. -/
theorem lexeme_spelling {unit : Lexeme} (proper : unit.Proper) {rest : List Char} (ends : Ends rest) :
    ∃ first later, unit.spelling = first :: later ∧ isSeparator first = false ∧
      lexeme first (later ++ rest) = .ok (unit, rest) := by
  have named : ∀ {name : String}, IsName name.toList → ∃ first later, name.toList = first :: later ∧
      isSeparator first = false ∧ lexeme first (later ++ rest) = .ok (.ofName name, rest) := by
    rintro name ⟨first, later, same, start, all⟩
    refine ⟨first, later, same, ?_, ?_⟩
    · exact Bool.eq_false_iff.2 fun separates => by
        rcases (by simpa [isSeparator] using separates : first = ' ' ∨ first = '\t') with rfl | rfl <;>
          cases start
    · have read : lexeme first (later ++ rest) =
          .ok (.ofName (String.ofList (first :: (later ++ rest).takeWhile isNameCharacter)),
            (later ++ rest).dropWhile isNameCharacter) := if_pos start
      rw [read, List.takeWhile_append_of_pos all, List.dropWhile_append_of_pos all,
        ends.takeWhile_name, ends.dropWhile_name, List.append_nil, ← same, String.ofList_toList]
  cases unit with
  | identifier name =>
      obtain ⟨isName, free⟩ := proper
      obtain ⟨first, later, same, apart, read⟩ := named isName
      refine ⟨first, later, same, apart, ?_⟩
      rw [read, Lexeme.ofName, free]
  | keyword which =>
      obtain ⟨first, later, same, apart, read⟩ := named (isName_word which)
      refine ⟨first, later, same, apart, ?_⟩
      rw [read, ofName_word]
  | bound path =>
      have path' : IsPath path.toList := proper
      cases text : path.toList with
      | nil => exact (not_isPath_nil (text ▸ path')).elim
      | cons first later =>
          rw [text] at path'
          refine ⟨'@', first :: later, by rw [Lexeme.spelling, text], rfl, ?_⟩
          have read : lexeme '@' (first :: (later ++ rest)) =
              .ok (.bound (String.ofList (first :: (pathTail (later ++ rest)).1)),
                (pathTail (later ++ rest)).2) := if_pos path'.start
          rw [List.cons_append, read, pathTail_append path' ends, ← text, String.ofList_toList]
  | literal text =>
      refine ⟨'"', text.toList.flatMap escaped ++ ['"'], rfl, rfl, ?_⟩
      rw [List.append_assoc, List.cons_append, List.nil_append, lexeme.eq_def, if_neg (by decide),
        if_neg (by decide), if_pos rfl, read_escaped]
      simp only [String.ofList_toList]
  | bracketOpen => exact ⟨'[', [], rfl, rfl, rfl⟩
  | bracketClose => exact ⟨']', [], rfl, rfl, rfl⟩
  | equals => exact ⟨'=', [], rfl, rfl, rfl⟩
  | colon => exact ⟨':', [], rfl, rfl, rfl⟩
  | bang => exact ⟨'!', [], rfl, rfl, rfl⟩
  | dash => exact ⟨'-', [], rfl, rfl, rfl⟩

theorem ends_spaced (units : List Lexeme) : Ends (spaced units) := by
  cases units with
  | nil => exact .inl rfl
  | cons unit later => exact .inr ⟨_, rfl⟩

theorem lexemes_space (input : List Char) : lexemes (' ' :: input) = lexemes input := by
  rw [lexemes.eq_def]
  rfl

/-- Reading goes on after a lexeme. -/
theorem lexemes_cons {first : Char} {input after : List Char} {unit : Lexeme} {units : List Lexeme}
    (apart : isSeparator first = false) (here : lexeme first input = .ok (unit, after))
    (there : lexemes after = .ok units) : lexemes (first :: input) = .ok (unit :: units) := by
  rw [lexemes.eq_def]
  simp only [apart, Bool.false_eq_true, if_false]
  split
  · rename_i failed
    cases here.symm.trans failed
  · rename_i found
    cases here.symm.trans found
    rw [there]

/-- Lexemes that are written one after the other are read back. -/
theorem lexemes_spelled {units : List Lexeme} (proper : ∀ unit ∈ units, unit.Proper) :
    lexemes (spelled units) = .ok units := by
  induction units with
  | nil => rw [spelled, lexemes]
  | cons unit later induction =>
      obtain ⟨here, there⟩ := List.forall_mem_cons.1 proper
      obtain ⟨first, inner, same, apart, read⟩ := lexeme_spelling here (ends_spaced later)
      rw [spelled, same, List.cons_append]
      refine lexemes_cons apart read ?_
      cases later with
      | nil => exact induction there
      | cons next beyond =>
          rw [spaced, List.flatMap_cons, List.cons_append, lexemes_space]
          exact induction there

/-! ## What is read can be written -/

theorem proper_of_lexeme {c : Char} {input after : List Char} {unit : Lexeme}
    (read : lexeme c input = .ok (unit, after)) : unit.Proper := by
  unfold lexeme at read
  split at read
  · rename_i start
    cases read
    apply ofName_proper
    rw [String.toList_ofList]
    exact ⟨c, _, rfl, start, fun d member => List.mem_takeWhile_imp member⟩
  · split at read
    · split at read
      · cases read
      · split at read
        · rename_i start
          cases read
          rw [Lexeme.Proper, String.toList_ofList]
          exact isPath_pathTail start _
        · cases read
    · split at read
      · split at read
        · cases read
          trivial
        · cases read
      · split at read
        · rename_i mark marked
          cases read
          unfold punctuation? at marked
          split at marked <;> cases marked <;> trivial
        · cases read

theorem proper_of_lexemes {input : List Char} {units : List Lexeme}
    (read : lexemes input = .ok units) : ∀ unit ∈ units, unit.Proper := by
  fun_induction lexemes input generalizing units with
  | case1 =>
      cases read
      exact nofun
  | case2 c later separates induction => exact induction read
  | case3 => cases read
  | case4 => cases read
  | case5 c later apart first after here following there induction =>
      cases read
      exact List.forall_mem_cons.2 ⟨proper_of_lexeme here, induction there⟩

/-! ## Where a line begins and ends -/

/-- The character is seen, and is one of ASCII. -/
def IsMark (c : Char) : Prop :=
  0x21 ≤ c.toNat ∧ c.toNat ≤ 0x7E

theorem IsMark.not_blank {c : Char} (mark : IsMark c) : Text.isBlank c = false := by
  obtain ⟨low, high⟩ := mark
  simp only [Text.isBlank, Text.blankRanges, List.any_cons, List.any_nil, Bool.or_false,
    Bool.or_eq_false_iff, Bool.and_eq_false_iff, decide_eq_false_iff_not]
  omega

theorem isMark_of_name {c : Char} (named : isNameCharacter c = true) : IsMark c := by
  unfold isNameCharacter isSegmentCharacter isNameStart Char.isAlpha Char.isUpper Char.isLower at named
  simp only [Char.isDigit, Bool.or_eq_true, Bool.and_eq_true, decide_eq_true_eq, beq_iff_eq,
    UInt32.le_iff_toNat_le, ge_iff_le] at named
  have code : c.toNat = c.val.toNat := rfl
  rcases named with (((upper | lower) | rfl) | digit) | rfl
  · obtain ⟨low, high⟩ := upper
    constructor <;> simp at low high <;> omega
  · obtain ⟨low, high⟩ := lower
    constructor <;> simp at low high <;> omega
  · exact ⟨by decide, by decide⟩
  · obtain ⟨low, high⟩ := digit
    constructor <;> simp at low high <;> omega
  · exact ⟨by decide, by decide⟩

theorem isMark_of_start {c : Char} (start : isNameStart c = true) : IsMark c :=
  isMark_of_name (by rw [isNameCharacter, isSegmentCharacter, start]; rfl)

theorem isMark_of_segment {c : Char} (segment : isSegmentCharacter c = true) : IsMark c :=
  isMark_of_name (by rw [isNameCharacter, segment]; rfl)

theorem IsName.marks {text : List Char} (named : IsName text) : ∀ c ∈ text, IsMark c := by
  obtain ⟨first, later, rfl, start, all⟩ := named
  exact List.forall_mem_cons.2 ⟨isMark_of_start start, fun c member => isMark_of_name (all c member)⟩

/-- All characters of a text are in its pieces, but for the separators. -/
theorem mem_pieces {separator c : Char} {text : List Char} (member : c ∈ text) :
    c = separator ∨ ∃ piece ∈ Text.pieces separator text, c ∈ piece := by
  induction text with
  | nil => cases member
  | cons d later induction =>
      by_cases same : d = separator
      · subst same
        rw [pieces_cons_self]
        rcases List.mem_cons.1 member with rfl | inside
        · exact .inl rfl
        · exact (induction inside).imp_right fun ⟨piece, listed, here⟩ =>
            ⟨piece, List.mem_cons_of_mem _ listed, here⟩
      · obtain ⟨piece, pieces, short, long⟩ := exists_pieces_cons later same
        rw [long]
        rw [short] at induction
        rcases List.mem_cons.1 member with rfl | inside
        · exact .inr ⟨_, List.mem_cons_self, List.mem_cons_self⟩
        · refine (induction inside).imp_right ?_
          rintro ⟨other, listed, here⟩
          rcases List.mem_cons.1 listed with rfl | listed
          · exact ⟨_, List.mem_cons_self, List.mem_cons_of_mem _ here⟩
          · exact ⟨other, List.mem_cons_of_mem _ listed, here⟩

theorem IsPath.marks {text : List Char} (path : IsPath text) : ∀ c ∈ text, IsMark c := by
  intro c member
  rcases @mem_pieces '.' c text member with rfl | ⟨piece, listed, inside⟩
  · exact ⟨by decide, by decide⟩
  · obtain ⟨first, later, rfl, start, all⟩ := path piece listed
    rcases List.mem_cons.1 inside with rfl | inside
    · exact isMark_of_start start
    · exact isMark_of_segment (all c inside)

theorem newline_escaped (text : List Char) : '\n' ∉ text.flatMap escaped := by
  intro member
  obtain ⟨c, -, inside⟩ := List.mem_flatMap.1 member
  unfold escaped at inside
  split_ifs at inside with backslash quote line tab <;> simp at inside
  exact line inside.symm

/-- A lexeme is written in one line, and begins and ends with characters that are no blanks. -/
theorem spelling_within {unit : Lexeme} (proper : unit.Proper) :
    '\n' ∉ unit.spelling ∧ (∀ first ∈ unit.spelling.head?, IsMark first) ∧
      ∀ last ∈ unit.spelling.getLast?, IsMark last := by
  have marked : (∀ c ∈ unit.spelling, IsMark c) → '\n' ∉ unit.spelling ∧
      (∀ first ∈ unit.spelling.head?, IsMark first) ∧
        ∀ last ∈ unit.spelling.getLast?, IsMark last := fun all =>
    ⟨fun member => absurd (all _ member).1 (by decide),
      fun first head => all first (List.mem_of_mem_head? head),
      fun last final => all last (List.mem_of_mem_getLast? final)⟩
  cases unit with
  | identifier name => exact marked proper.1.marks
  | keyword which => exact marked (isName_word which).marks
  | bound path =>
      exact marked (List.forall_mem_cons.2 ⟨⟨by decide, by decide⟩, IsPath.marks proper⟩)
  | literal text =>
      have quote : IsMark '"' := ⟨by decide, by decide⟩
      refine ⟨?_, ?_, ?_⟩
      · simpa [Lexeme.spelling] using newline_escaped text.toList
      · rintro first ⟨⟩
        exact quote
      · intro last final
        rw [Lexeme.spelling, ← List.cons_append, List.getLast?_append] at final
        cases final
        exact quote
  | bracketOpen | bracketClose | equals | colon | bang | dash =>
      exact marked (List.forall_mem_singleton.2 ⟨by decide, by decide⟩)

end LiveTemplate.Template
