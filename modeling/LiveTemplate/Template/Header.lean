import LiveTemplate.Template.Error
import LiveTemplate.Template.Syntax

/-!
# The header of a line

What a line says by itself, before its block is looked at: an element with its attributes and inline
text, a text, a directive, or a view.
-/

namespace LiveTemplate.Template

/-- What a line by itself says. -/
inductive Header where
  | element (tag : String) (attributes : List Attribute) (content : List Expression)
  | text (content : List Expression)
  /-- A directive that needs a block. -/
  | block (keyword : Keyword) (rule : Rule) (path : Path)
  | view (name : String) (path : Option Path)
deriving Repr

/-- Why a line by itself cannot be read. -/
inductive HeaderFault where
  | unexpected (expected : Expectation) (found : Symbol)
  | unclosedAttributes
  | unknownDirective (name : String)
deriving DecidableEq, Repr

/-- The error for a fault on a line. -/
def HeaderFault.on (fault : HeaderFault) (line : Nat) : ParseError :=
  match fault with
  | .unexpected expected found => .unexpected line expected found
  | .unclosedAttributes => .unclosedAttributes line
  | .unknownDirective name => .unknownDirective line name

/-- Refuse the next lexeme, or the end of the line if there is none. -/
def refuse (expected : Expectation) : List Lexeme → HeaderFault
  | [] => .unexpected expected .newline
  | found :: _ => .unexpected expected (.lexeme found)

/-- Nothing more may stand in the line. -/
def endOfLine (input : List Lexeme) : Except HeaderFault Unit :=
  if input.isEmpty then .ok () else .error (refuse .endOfLine input)

/-- A name; keywords are plain names here. -/
def readName (input : List Lexeme) : Except HeaderFault (String × List Lexeme) :=
  match input with
  | [] => .error (refuse .name input)
  | first :: rest =>
    match first.name? with
    | some name => .ok (name, rest)
    | none => .error (refuse .name input)

/-- An equals sign. -/
def readEquals : List Lexeme → Except HeaderFault (List Lexeme)
  | .equals :: rest => .ok rest
  | input => .error (refuse .equals input)

/-- A value: quoted text, or a property with or without its `@`. -/
def readValue : List Lexeme → Except HeaderFault (Expression × List Lexeme)
  | .literal text :: rest => .ok (.literal text, rest)
  | .bound path :: rest => .ok (.bound (.ofText path), rest)
  | .identifier name :: rest => .ok (.bound (.ofText name), rest)
  | input => .error (refuse .value input)

/-- A directive's property, with or without its `@`. -/
def readPath : List Lexeme → Except HeaderFault (Path × List Lexeme)
  | .bound path :: rest => .ok (.ofText path, rest)
  | .identifier name :: rest => .ok (.ofText name, rest)
  | input => .error (refuse .path input)

/-- An exclamation mark if there is one. -/
def readBang : List Lexeme → Bool × List Lexeme
  | .bang :: rest => (true, rest)
  | input => (false, input)

/-- The rest of an attribute that is called `name`.  `written` is the lexeme of that name. -/
def readAttribute (written : Lexeme) (name : String) (input : List Lexeme) :
    Except HeaderFault (Attribute × List Lexeme) :=
  match input with
  | .colon :: rest => do
    let (qualified, rest) ← readName rest
    let rest ← readEquals rest
    if name = "style" then
      let (value, rest) ← readValue rest
      return (.style qualified value, rest)
    else if name = "event" then
      let (action, rest) ← readName rest
      let (prevents, rest) := readBang rest
      return (.event qualified action prevents, rest)
    else
      .error (.unexpected .qualifier (.lexeme written))
  | _ => do
    let rest ← readEquals input
    let (value, rest) ← readValue rest
    return (.property name value, rest)

theorem length_lt_of_readName {input rest : List Lexeme} {name : String}
    (read : readName input = .ok (name, rest)) : rest.length < input.length := by
  unfold readName at read
  split at read
  · simp at read
  · split at read
    · simp only [Except.ok.injEq, Prod.mk.injEq] at read
      simp [read.2]
    · simp at read

theorem length_lt_of_readEquals {input rest : List Lexeme}
    (read : readEquals input = .ok rest) : rest.length < input.length := by
  unfold readEquals at read
  split at read
  · simp only [Except.ok.injEq] at read
    simp [read]
  · simp at read

theorem length_lt_of_readValue {input rest : List Lexeme} {value : Expression}
    (read : readValue input = .ok (value, rest)) : rest.length < input.length := by
  unfold readValue at read
  split at read
  iterate 3
    · simp only [Except.ok.injEq, Prod.mk.injEq] at read
      simp [read.2]
  · simp at read

theorem length_readBang_le (input : List Lexeme) :
    (readBang input).2.length ≤ input.length := by
  unfold readBang
  split <;> simp

/-- An attribute takes at least one lexeme after its name. -/
theorem length_lt_of_readAttribute {written : Lexeme} {name : String} {input rest : List Lexeme}
    {entry : Attribute} (read : readAttribute written name input = .ok (entry, rest)) :
    rest.length < input.length := by
  unfold readAttribute at read
  split at read
  · rename_i afterColon
    cases first : readName afterColon with
    | error fault => simp [first, bind, Except.bind] at read
    | ok named =>
      obtain ⟨qualified, afterName⟩ := named
      have nameShorter := length_lt_of_readName first
      cases second : readEquals afterName with
      | error fault => simp [first, second, bind, Except.bind] at read
      | ok afterEquals =>
        have equalsShorter := length_lt_of_readEquals second
        simp only [first, second, bind, Except.bind, pure, Except.pure] at read
        simp only [List.length_cons]
        split at read
        · cases third : readValue afterEquals with
          | error fault => simp [third] at read
          | ok valued =>
            obtain ⟨value, afterValue⟩ := valued
            have valueShorter := length_lt_of_readValue third
            simp only [third, Except.ok.injEq, Prod.mk.injEq] at read
            rw [← read.2]
            omega
        · split at read
          · cases third : readName afterEquals with
            | error fault => simp [third] at read
            | ok acted =>
              obtain ⟨action, afterAction⟩ := acted
              have actionShorter := length_lt_of_readName third
              have bangShorter := length_readBang_le afterAction
              simp only [third, Except.ok.injEq, Prod.mk.injEq] at read
              rw [← read.2]
              omega
          · simp at read
  · cases first : readEquals input with
    | error fault => simp [first, bind, Except.bind] at read
    | ok afterEquals =>
      have equalsShorter := length_lt_of_readEquals first
      cases second : readValue afterEquals with
      | error fault => simp [first, second, bind, Except.bind] at read
      | ok valued =>
        obtain ⟨value, afterValue⟩ := valued
        have valueShorter := length_lt_of_readValue second
        simp only [first, second, bind, Except.bind, pure, Except.pure, Except.ok.injEq,
          Prod.mk.injEq] at read
        rw [← read.2]
        omega

/-- The attributes up to the closing bracket, and what follows it. -/
def readAttributes (input : List Lexeme) : Except HeaderFault (List Attribute × List Lexeme) :=
  match input with
  | [] => .error .unclosedAttributes
  | .bracketClose :: rest => .ok ([], rest)
  | first :: rest =>
    match first.name? with
    | none => .error (refuse .attributeOrBracket input)
    | some name =>
      match _read : readAttribute first name rest with
      | .error fault => .error fault
      | .ok (entry, rest) =>
        match readAttributes rest with
        | .error fault => .error fault
        | .ok (entries, rest) => .ok (entry :: entries, rest)
termination_by input.length
decreasing_by
  have := length_lt_of_readAttribute _read
  simp only [List.length_cons]
  omega

/-- The longest sequence of texts and bound properties, and what follows it. -/
def readContent : List Lexeme → List Expression × List Lexeme
  | .literal text :: rest => (.literal text :: (readContent rest).1, (readContent rest).2)
  | .bound path :: rest => (.bound (.ofText path) :: (readContent rest).1, (readContent rest).2)
  | input => ([], input)

/-- The rule of a directive that needs a block. -/
def Keyword.blockRule? : Keyword → Option Rule
  | .if => some .showIf
  | .unless => some .showUnless
  | .in => some .each
  | .collection => some .collection
  | .view => none

/-- What follows the word `view`: a quoted name, with or without a path, or a path whose last
segment is the name. -/
def readView : List Lexeme → Except HeaderFault (Header × List Lexeme)
  | .literal name :: .bound path :: rest => .ok (.view name (some (.ofText path)), rest)
  | .literal name :: rest => .ok (.view name none, rest)
  | .bound text :: rest =>
    let path := Path.ofText text
    .ok (.view path.last (some path), rest)
  | input => .error (refuse .viewOrPath input)

/-- What follows the dash of a directive. -/
def readDirective (input : List Lexeme) : Except HeaderFault (Header × List Lexeme) :=
  match input with
  | .keyword which :: rest =>
    match which.blockRule? with
    | some rule => do
      let (path, rest) ← readPath rest
      return (.block which rule path, rest)
    | none => readView rest
  | .identifier name :: _ => .error (.unknownDirective name)
  | _ => .error (refuse .directive input)

/-- What follows the tag of an element. -/
def readElement (tag : String) (input : List Lexeme) :
    Except HeaderFault (Header × List Lexeme) := do
  let (attributes, rest) ←
    match input with
    | .bracketOpen :: rest => readAttributes rest
    | _ => pure ([], input)
  let (content, rest) := readContent rest
  return (.element tag attributes content, rest)

/-- The header of a line.  All of the line belongs to it. -/
def readHeader (input : List Lexeme) : Except HeaderFault Header := do
  let (header, rest) ←
    match input with
    | .dash :: rest => readDirective rest
    | .identifier tag :: rest => readElement tag rest
    | .literal _ :: _ => pure (.text (readContent input).1, (readContent input).2)
    | .bound _ :: _ => pure (.text (readContent input).1, (readContent input).2)
    | _ => .error (refuse .line input)
  endOfLine rest
  return header

end LiveTemplate.Template
