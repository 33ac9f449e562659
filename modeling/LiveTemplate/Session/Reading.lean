import LiveTemplate.Session.Script

/-!
# Reading steps

A step is a record.  Its entries are looked at one after the other, and the first one that is
missing, of the wrong sort, or names something that does not exist is what is wrong with the step.
-/

namespace LiveTemplate.Session

/-- The record of a step. -/
abbrev Step : Type := Datum

namespace Step

/-- An entry. -/
def datum (step : Step) (name : String) : Script Datum :=
  Script.expect name (step.entry? name)

/-- A text. -/
def text (step : Step) (name : String) : Script String := do
  Script.expect name (← step.datum name).text?

/-- A position. -/
def position (step : Step) (name : String) : Script Nat := do
  Script.expect name (← step.datum name).position?

/-- A sequence. -/
def list (step : Step) (name : String) : Script (List Datum) := do
  Script.expect name (← step.datum name).list?

/-- A text that may be missing. -/
def text? (step : Step) (name : String) : Script (Option String) :=
  match step.present? name with
  | none => return none
  | some datum => return some (← Script.expect name datum.text?)

/-- A sequence that may be missing. -/
def list? (step : Step) (name : String) : Script (Option (List Datum)) :=
  match step.present? name with
  | none => return none
  | some datum => return some (← Script.expect name datum.list?)

/-- A text, or null for none; the entry itself is needed. -/
def optionalText (step : Step) (name : String) : Script (Option String) := do
  match ← step.datum name with
  | .null => return none
  | datum => return some (← Script.expect name datum.text?)

/-- Whether an entry is true. -/
def flag (step : Step) (name : String) : Bool :=
  (step.entry? name).bind Datum.bool? == some true

/-- The object that an entry names; `what` is wrong if there is none. -/
def named {Item : Type} (step : Step) (entry what : String) (items : Book → List (String × Item)) :
    Script Item := do
  let name ← step.text entry
  Script.expect what ((items (← Script.book)).lookup name)

/-- A model. -/
def model (step : Step) (entry : String) : Script ModelId :=
  step.named entry "model" Book.models

/-- A model, which may be the one that an action was run for. -/
def actingModel (step : Step) (entry : String) : Script ModelId := do
  let name ← step.text entry
  if name == "$model" then Script.expect name (← get).model
  else step.model entry

/-- A collection. -/
def collection (step : Step) (entry : String) : Script CollectionId :=
  step.named entry "coll" Book.collections

/-- A controller. -/
def controller (behaviour : Behaviour Book) (step : Step) (entry : String) :
    Script ControllerId := do
  let name ← step.text entry
  let world ← Script.world
  Script.expect "controller" (world.client.controller? (world.inUse behaviour) name)

end Step

/-- The formatter of a given name. -/
def formatterNamed : String → Option Formatter
  | "dollar" => some Formatter.dollar
  | "yesno" => some Formatter.yesNo
  | "not" => some Formatter.negation
  | "null" => some Formatter.hidden
  | "twice" => some Formatter.twice
  | "half" => some Formatter.half
  | _ => none

/-- The number that has no digits, or the negative zero, of a given spelling. -/
def specialNumber : String → Option Float
  | "NaN" => some (0.0 / 0.0)
  | "inf" => some (1.0 / 0.0)
  | "-inf" => some (-1.0 / 0.0)
  | "-0" => some (-0.0)
  | _ => none

/-- The entries by which a record can stand for a value.  The first of them that a record has says
what the record stands for. -/
def valueEntries : List String :=
  ["num", "model", "coll", "obj", "items"]

mutual

/-- A value.  Records stand for special numbers, for named models and collections, and for new ones
that have no name. -/
def readValue : Datum → Script Value
  | .null => return .null
  | .bool value => return .bool value
  | .number negative digits exponent => do
    return .number (← Script.expect "value" (Datum.number negative digits exponent).double?)
  | .text value => return .text value
  | .list items => do return .list (← readValues items)
  | .record entries =>
    match valueEntries.find? fun name => (entries.lookup name).isSome with
    | some name => readEntry name entries
    | none => Script.reject "value"

/-- Several values. -/
def readValues : List Datum → Script (List Value)
  | [] => return []
  | item :: later => do
    let value ← readValue item
    return value :: (← readValues later)

/-- The value that a record stands for by its entry `name`. -/
def readEntry (name : String) : List (String × Datum) → Script Value
  | [] => Script.reject name
  | (key, datum) :: later => if name == key then readReference name datum else readEntry name later

/-- The value that an entry with a given name stands for.  If it stands for none, it is the entry
that is wrong. -/
def readReference : String → Datum → Script Value
  | "num", .text spelling => do
    return .number (← Script.expect "num" (specialNumber spelling))
  | "model", .text name => do
    return .model (← Script.expect "model" ((← Script.book).models.lookup name))
  | "coll", .text name => do
    return .collection (← Script.expect "coll" ((← Script.book).collections.lookup name))
  | "obj", .list fields => do
    let fields ← readFields "obj" fields
    return .model (← Script.actOnData (·.addModel (.ofSchema (Schema.ofFields fields))))
  | "items", .list items => do
    let items ← readValues items
    return .collection (← Script.actOnData (·.addCollection items))
  | name, _ => Script.reject name

/-- Declarations of properties; if one is none, the entry `what` is wrong. -/
def readFields (what : String) : List Datum → Script (List Field)
  | [] => return []
  | .list parts :: later => do
    let field ← readField what parts
    return field :: (← readFields what later)
  | _ :: _ => Script.reject what

/-- The declaration of a property: its name, its initial value and perhaps a formatter. -/
def readField (what : String) : List Datum → Script Field
  | .text name :: value :: more => do
    let initial ← readValue value
    match more with
    | .text formatter :: _ =>
      return { name, initial, formatter := some (← Script.expect what (formatterNamed formatter)) }
    | _ => return { name, initial }
  | _ => Script.reject what

end

namespace Step

/-- A value. -/
def value (step : Step) (entry : String) : Script Value := do
  readValue (← step.datum entry)

/-- Several values. -/
def values (step : Step) (entry : String) : Script (List Value) := do
  readValues (← step.list entry)

/-- A schema that is written out. -/
def schema (step : Step) (entry : String) : Script Schema := do
  return Schema.ofFields (← readFields entry (← step.list entry))

end Step

/-- The node of an event that a word stands for. -/
def eventNode? : String → Option (Event → NodeId)
  | "$target" => some Event.target
  | "$current" => some Event.current
  | _ => none

/-- An entry of a record is smaller than the record. -/
theorem sizeOf_lt_of_entry? {datum inner : Datum} {name : String}
    (found : datum.entry? name = some inner) : sizeOf inner < sizeOf datum := by
  cases datum with
  | record entries =>
    simp only [Datum.entry?] at found
    have smaller : sizeOf inner < sizeOf entries := by
      induction entries with
      | nil => simp at found
      | cons first later induction =>
        obtain ⟨key, value⟩ := first
        rw [List.lookup_cons] at found
        split at found
        · cases found
          simp only [List.cons.sizeOf_spec, Prod.mk.sizeOf_spec]
          omega
        · have := induction found
          simp only [List.cons.sizeOf_spec]
          omega
    simp only [Datum.record.sizeOf_spec]
    omega
  | _ => simp [Datum.entry?] at found

/-- A node of the session's document: a name, or the position among the elements that have a tag
under another node.  If it is neither a text nor a record, the entry `what` is wrong. -/
def readNode (what : String) (datum : Datum) : Script NodeId := do
  match datum with
  | .text name =>
    match eventNode? name with
    | some node => Script.expect name ((← get).event.map node)
    | none => Script.expect "node" ((← Script.book).nodes.nodes.lookup name)
  | datum =>
    match datum.entry? "tag", _found : datum.entry? "in" with
    | some (.text tag), some inner =>
      let root ← readNode "in" inner
      let nth ←
        match datum.present? "nth" with
        | none => pure 0
        | some nth => Script.expect "nth" nth.position?
      Script.expect "nth" (((← Script.document).queryAllByTag root tag)[nth]?)
    | some (.text _), none => Script.reject "in"
    | some _, _ => Script.reject "tag"
    | none, _ => Script.reject (if datum.record?.isSome then "tag" else what)
termination_by sizeOf datum
decreasing_by exact sizeOf_lt_of_entry? _found

namespace Step

/-- A node of the session's document. -/
def node (step : Step) (entry : String) : Script NodeId := do
  readNode entry (← step.datum entry)

/-- Whom a new piece of behaviour serves is known; its effects and how often it has them are read
from a step. -/
def reaction (step : Step) (role : Role) : Script Reaction := do
  let effects ← step.list? "effects"
  let remaining ←
    match step.present? "times" with
    | none => pure none
    | some times => some <$> Script.expect "times" times.position?
  return { role, effects := effects.getD [], remaining }

end Step

end LiveTemplate.Session
