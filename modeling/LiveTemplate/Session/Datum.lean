/-!
# Data in requests and answers

Requests and answers are trees of plain data: nothing, truth values, decimal numbers, texts,
sequences and records with named entries.
-/

namespace LiveTemplate.Session

/-- A tree of plain data.  A number is `digits * 10 ^ exponent`, with its sign; zero may be
negative. -/
inductive Datum where
  | null
  | bool (value : Bool)
  | number (negative : Bool) (digits : Nat) (exponent : Int)
  | text (value : String)
  | list (items : List Datum)
  | record (entries : List (String × Datum))
deriving Repr, Inhabited

namespace Datum

/-- A natural number. -/
def natural (n : Nat) : Datum :=
  .number false n 0

/-- A text, or nothing. -/
def optionalText : Option String → Datum
  | none => .null
  | some value => .text value

/-- The entry of a record with a given name; nothing else has entries. -/
def entry? (datum : Datum) (name : String) : Option Datum :=
  match datum with
  | .record entries => entries.lookup name
  | _ => none

/-- The entry of a record with a given name, unless it is null. -/
def present? (datum : Datum) (name : String) : Option Datum :=
  match datum.entry? name with
  | some .null => none
  | other => other

/-- The text that a datum is. -/
def text? : Datum → Option String
  | .text value => some value
  | _ => none

/-- The truth value that a datum is. -/
def bool? : Datum → Option Bool
  | .bool value => some value
  | _ => none

/-- The sequence that a datum is. -/
def list? : Datum → Option (List Datum)
  | .list items => some items
  | _ => none

/-- The entries that a datum has. -/
def record? : Datum → Option (List (String × Datum))
  | .record entries => some entries
  | _ => none

/-- The position that a datum is: a whole number from zero to the largest 64-bit one. -/
def position? : Datum → Option Nat
  | .number false digits 0 => if digits < Nat.pow 2 64 then some digits else none
  | _ => none

/-- The double that a datum is, correctly rounded. -/
def double? : Datum → Option Float
  | .number negative digits exponent =>
    let magnitude :=
      match exponent with
      | .ofNat up => Float.ofScientific digits false up
      | .negSucc down => Float.ofScientific digits true (down + 1)
    some (if negative then -magnitude else magnitude)
  | _ => none

end Datum

/-- An answer that reports an error of a given kind. -/
def failure (kind message : String) : Datum :=
  .record [("error", .text kind), ("message", .text message)]

/-- The answer to a request that cannot be carried out because of `what`: a missing or ill-typed
entry, an unknown word, or something that was not found. -/
def badInput (what : String) : Datum :=
  failure "BadInput" what

end LiveTemplate.Session
