import LiveTemplate.Decimal.Notation
import LiveTemplate.Identity

/-!
# Values

The value of a property is plain data or refers to a model or a collection.  Reading a property that
does not exist gives `null`.

What is said about a collection depends on its items at the time, so these functions look at the
`Contents` of all collections.
-/

namespace LiveTemplate

/-- A property value.  Models and collections are referred to, not copied. -/
inductive Value where
  | null
  | bool (value : Bool)
  | number (value : Float)
  | text (value : String)
  | list (items : List Value)
  | model (id : ModelId)
  | collection (id : CollectionId)
deriving Repr, Inhabited

/-- The items of every collection at one time. -/
structure Contents where
  lists : Array (List Value) := #[]

/-- The items of one collection. -/
def Contents.items (contents : Contents) (id : CollectionId) : List Value :=
  (contents.lists[id.index]?).getD []

namespace Value

/-- Whether a condition holds for the value.  Nothing, false, zero, not-a-number, and empty texts,
lists and collections are falsy; everything else is truthy. -/
def isTruthy (contents : Contents) : Value → Bool
  | .null => false
  | .bool value => value
  | .number value => value != 0 && !value.isNaN
  | .text value => !value.isEmpty
  | .list items => !items.isEmpty
  | .model _ => true
  | .collection id => !(contents.items id).isEmpty

mutual

/-- Equality of values: plain data by content, numbers as numbers, models and collections by
identity. -/
def same : Value → Value → Bool
  | .null, .null => true
  | .bool left, .bool right => left == right
  | .number left, .number right => left == right
  | .text left, .text right => left == right
  | .list left, .list right => sameAll left right
  | .model left, .model right => left == right
  | .collection left, .collection right => left == right
  | _, _ => false

/-- Equality of sequences, item by item. -/
def sameAll : List Value → List Value → Bool
  | [], [] => true
  | left :: lefts, right :: rights => same left right && sameAll lefts rights
  | _, _ => false

end

mutual

/-- The text of a value, given the texts of collections.  Nothing and models have an empty text; the
items of a list are joined by commas. -/
def textWith (collectionText : CollectionId → String) : Value → String
  | .null => ""
  | .bool value => if value then "true" else "false"
  | .number value => Decimal.plain value
  | .text value => value
  | .list items => ",".intercalate (textsWith collectionText items)
  | .model _ => ""
  | .collection id => collectionText id

/-- The texts of a sequence of values. -/
def textsWith (collectionText : CollectionId → String) : List Value → List String
  | [] => []
  | item :: later => textWith collectionText item :: textsWith collectionText later

end

end Value

/-- The text of a collection: its items joined by commas.  Collections inside it are followed
`levels` deep; as many levels as there are collections reach to the end of every chain in which no
collection is inside itself. -/
def Contents.collectionText (contents : Contents) : Nat → CollectionId → String
  | 0, _ => ""
  | levels + 1, id =>
    ",".intercalate (Value.textsWith (contents.collectionText levels) (contents.items id))

/-- The text of a value. -/
def Value.displayText (contents : Contents) (value : Value) : String :=
  value.textWith (contents.collectionText contents.lists.size)

/-- A function from a raw value to the value that is displayed for it. -/
abbrev Formatter : Type := Contents → Value → Value

namespace Formatter

/-- A dollar sign before the text. -/
def dollar : Formatter := fun contents value => .text ("$" ++ value.displayText contents)

/-- `Yes` for truthy values and `No` for the others. -/
def yesNo : Formatter := fun contents value =>
  .text (if value.isTruthy contents then "Yes" else "No")

/-- The opposite truth value. -/
def negation : Formatter := fun contents value => .bool (!value.isTruthy contents)

/-- Nothing is displayed. -/
def hidden : Formatter := fun _ _ => .null

/-- A list of the value twice. -/
def twice : Formatter := fun _ value => .list [value, value]

/-- Half of a number; nothing for other values. -/
def half : Formatter := fun _ value =>
  match value with
  | .number value => .number (value / 2)
  | _ => .null

end Formatter

end LiveTemplate
