import LiveTemplate.Pairs
import LiveTemplate.Reactive.Channel
import LiveTemplate.Reactive.Value

/-!
# Models

A model holds the values of declared properties and channels on which changes are announced.  A
property may have a formatter, which is applied when the value is displayed.
-/

namespace LiveTemplate

/-- The name of the channel that announces changes of a property. -/
def changeChannel (property : String) : String :=
  "change:" ++ property

/-- Why a model refuses to be written. -/
inductive ModelError where
  | undeclaredProperty (property : String)
deriving DecidableEq, Repr

/-- The wording of a refusal. -/
def ModelError.message : ModelError → String
  | .undeclaredProperty property =>
    "property `" ++ property ++ "` is not declared on this model"

/-- The declaration of a property. -/
structure Field where
  name : String
  initial : Value
  formatter : Option Formatter := none

/-- Declared properties in order. -/
abbrev Schema : Type := List Field

/-- Declare a property.  An earlier declaration of the name is replaced by one at the end. -/
def Schema.declare (schema : Schema) (field : Field) : Schema :=
  schema.filter (·.name ≠ field.name) ++ [field]

/-- The schema of fields that are declared one after the other. -/
def Schema.ofFields (fields : List Field) : Schema :=
  fields.foldl Schema.declare []

/-- The declared names in order. -/
def Schema.names (schema : Schema) : List String :=
  schema.map (·.name)

/-- Property values, formatters and channels. -/
structure Model (Callback : Type) where
  values : List (String × Value) := []
  formatters : List (String × Formatter) := []
  channels : List (String × Channel Callback) := []

namespace Model

variable {Callback : Type}

/-- A fresh model with every property at its initial value. -/
def ofSchema (schema : Schema) : Model Callback :=
  { values := schema.map fun field => (field.name, field.initial)
    formatters := schema.filterMap fun field => field.formatter.map (field.name, ·) }

/-- The same model without formatters. -/
def unformatted (model : Model Callback) : Model Callback :=
  { model with formatters := [] }

/-- Whether a property is declared. -/
def declares (model : Model Callback) (property : String) : Bool :=
  (model.values.lookup property).isSome

/-- The raw value of a property; `null` if it is not declared. -/
def get (model : Model Callback) (property : String) : Value :=
  (model.values.lookup property).getD .null

/-- The value of a property as it is shown. -/
def display (model : Model Callback) (contents : Contents) (property : String) : Value :=
  match model.formatters.lookup property with
  | some formatter => formatter contents (model.get property)
  | none => model.get property

/-- Store the value of a declared property. -/
def put (model : Model Callback) (property : String) (value : Value) : Model Callback :=
  { model with values := Pairs.modify model.values property fun _ => value }

/-- The channel of a given name.  One that nobody ever subscribed to is empty. -/
def channel (model : Model Callback) (name : String) : Channel Callback :=
  (model.channels.lookup name).getD {}

/-- Register a callback on a channel. -/
def subscribe (model : Model Callback) (name : String) (callback : Callback) : Model Callback :=
  { model with
    channels := Pairs.set model.channels name ((model.channel name).subscribe callback) }

/-- End a registration on a channel. -/
def unsubscribe (model : Model Callback) (name : String) (id : SubscriptionId) : Model Callback :=
  { model with channels := Pairs.modify model.channels name (·.unsubscribe id) }

/-- The number of registrations on all channels. -/
def totalSubscribers (model : Model Callback) : Nat :=
  model.channels.foldl (fun total entry => total + entry.2.size) 0

end Model

end LiveTemplate
