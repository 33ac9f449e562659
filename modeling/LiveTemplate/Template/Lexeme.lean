import LiveTemplate.Template.Token
import LiveTemplate.Text.Quoted

/-!
# Reading the lexemes of a line

At every place the longest lexeme is taken.  A name that spells a keyword is that keyword.  Spaces
and tabs separate lexemes and are dropped.  All character classes are those of ASCII.
-/

namespace LiveTemplate.Template

/-- Whether a name may begin with the character: an ASCII letter or an underscore. -/
def isNameStart (c : Char) : Bool :=
  c.isAlpha || c == '_'

/-- Whether a path segment may go on with the character. -/
def isSegmentCharacter (c : Char) : Bool :=
  isNameStart c || c.isDigit

/-- Whether an identifier may go on with the character. -/
def isNameCharacter (c : Char) : Bool :=
  isSegmentCharacter c || c == '-'

/-- Whether the character only separates lexemes. -/
def isSeparator (c : Char) : Bool :=
  c == ' ' || c == '\t'

/-- The longest continuation of a bound path: segment characters, and dots that a further segment
follows. -/
def pathTail : List Char → List Char × List Char
  | [] => ([], [])
  | '.' :: c :: rest =>
    if isNameStart c then
      let (path, after) := pathTail rest
      ('.' :: c :: path, after)
    else ([], '.' :: c :: rest)
  | c :: rest =>
    if isSegmentCharacter c then
      let (path, after) := pathTail rest
      (c :: path, after)
    else ([], c :: rest)

/-- What a name stands for: the keyword it spells, or itself. -/
def Lexeme.ofName (name : String) : Lexeme :=
  match Keyword.ofWord? name with
  | some which => .keyword which
  | none => .identifier name

/-- The punctuation mark that a character is. -/
def punctuation? : Char → Option Lexeme
  | '[' => some .bracketOpen
  | ']' => some .bracketClose
  | '=' => some .equals
  | ':' => some .colon
  | '!' => some .bang
  | '-' => some .dash
  | _ => none

/-- One lexeme and what follows it, or the character sequence that starts none. -/
def lexeme (c : Char) (rest : List Char) : Except (List Char) (Lexeme × List Char) :=
  if isNameStart c then
    .ok (.ofName (String.ofList (c :: rest.takeWhile isNameCharacter)),
      rest.dropWhile isNameCharacter)
  else if c = '@' then
    match rest with
    | [] => .error ['@']
    | first :: later =>
      if isNameStart first then
        let (path, after) := pathTail later
        .ok (.bound (String.ofList (first :: path)), after)
      else .error ['@']
  else if c = '"' then
    match Text.Quoted.read rest with
    | .closed text after => .ok (.literal (String.ofList text), after)
    | .unclosed seen => .error ('"' :: seen)
  else
    match punctuation? c with
    | some mark => .ok (mark, rest)
    | none => .error [c]

theorem length_pathTail_le (input : List Char) : (pathTail input).2.length ≤ input.length := by
  fun_induction pathTail input <;> simp_all <;> omega

/-- A lexeme takes at least its first character. -/
theorem length_le_of_lexeme {c : Char} {input after : List Char} {found : Lexeme}
    (read : lexeme c input = .ok (found, after)) : after.length ≤ input.length := by
  unfold lexeme at read
  split at read
  · simp only [Except.ok.injEq, Prod.mk.injEq] at read
    rw [← read.2]
    exact (List.dropWhile_sublist _).length_le
  · split at read
    · split at read
      · simp at read
      · split at read
        · simp only [Except.ok.injEq, Prod.mk.injEq] at read
          rw [← read.2, List.length_cons]
          exact Nat.le_succ_of_le (length_pathTail_le _)
        · simp at read
    · split at read
      · split at read
        · rename_i closed
          simp only [Except.ok.injEq, Prod.mk.injEq] at read
          rw [← read.2]
          exact Nat.le_of_lt (Text.Quoted.length_lt_of_read closed)
        · simp at read
      · split at read
        · simp only [Except.ok.injEq, Prod.mk.injEq] at read
          exact Nat.le_of_eq (congrArg List.length read.2).symm
        · simp at read

/-- All lexemes of a line, or the first character sequence that starts none. -/
def lexemes (input : List Char) : Except (List Char) (List Lexeme) :=
  match input with
  | [] => .ok []
  | c :: rest =>
    if isSeparator c then lexemes rest
    else
      match _found : lexeme c rest with
      | .error sequence => .error sequence
      | .ok (first, after) =>
        match lexemes after with
        | .error sequence => .error sequence
        | .ok later => .ok (first :: later)
termination_by input.length
decreasing_by
  · simp
  · have := length_le_of_lexeme _found
    simp only [List.length_cons]
    omega

end LiveTemplate.Template
