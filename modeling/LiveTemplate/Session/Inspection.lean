import LiveTemplate.Session.Book
import LiveTemplate.Text.Marked

/-!
# Texts for inspection

Values and the objects of a session written out for a reader who wants to see what they are: texts
in quotes with escapes, numbers in their source form, entries between brackets or braces.
-/

namespace LiveTemplate.Session

/-- The spelling of a character within quotes. -/
def escaped (c : Char) : String :=
  if c = '"' then "\\\""
  else if c = '\\' then "\\\\"
  else if c = '\n' then "\\n"
  else if c = '\r' then "\\r"
  else if c = '\t' then "\\t"
  else if c = '\x00' then "\\0"
  else if Text.isMarked c then c.toString
  else "\\u\x7b" ++ String.ofList (Nat.toDigits 16 c.toNat) ++ "\x7d"

/-- A text within quotes. -/
def quoted (text : String) : String :=
  "\"" ++ "".intercalate (text.toList.map escaped) ++ "\""

/-- Texts between brackets. -/
def bracketed (items : List String) : String :=
  "[" ++ ", ".intercalate items ++ "]"

/-- Named entries between braces after a heading. -/
def braced (heading : String) (entries : List (String × String)) : String :=
  heading ++ " \x7b " ++
    ", ".intercalate (entries.map fun entry => entry.1 ++ ": " ++ entry.2) ++ " \x7d"

/-- A truth value. -/
def inspectBool (value : Bool) : String :=
  if value then "true" else "false"

mutual

/-- A value, given how collections are written. -/
def inspectWith (collectionText : CollectionId → String) : Value → String
  | .null => "Null"
  | .bool value => "Bool(" ++ inspectBool value ++ ")"
  | .number value => "Number(" ++ Decimal.source value ++ ")"
  | .text value => "Str(" ++ quoted value ++ ")"
  | .list items => "List(" ++ bracketed (inspectAll collectionText items) ++ ")"
  | .model _ => "Model"
  | .collection id => "Collection(" ++ collectionText id ++ ")"

/-- Several values. -/
def inspectAll (collectionText : CollectionId → String) : List Value → List String
  | [] => []
  | item :: later => inspectWith collectionText item :: inspectAll collectionText later

end

/-- The items of a collection between brackets; collections inside it are followed `levels` deep. -/
def inspectItems (contents : Contents) : Nat → CollectionId → String
  | 0, _ => "[]"
  | levels + 1, id => bracketed (inspectAll (inspectItems contents levels) (contents.items id))

/-- A collection. -/
def inspectCollection (contents : Contents) (id : CollectionId) : String :=
  inspectItems contents contents.lists.size id

/-- A value. -/
def inspectValue (contents : Contents) (value : Value) : String :=
  inspectWith (inspectCollection contents) value

/-- A schema: its names. -/
def inspectSchema (schema : Schema) : String :=
  bracketed (schema.names.map quoted)

/-- A model: its values and the number of its subscribers. -/
def inspectModel (contents : Contents) (model : Model ValueObserver) : String :=
  let values := model.values.map fun entry =>
    quoted entry.1 ++ ": " ++ inspectValue contents entry.2
  braced "PropertyHolder" [
    ("values", "\x7b" ++ ", ".intercalate values ++ "\x7d"),
    ("subscribers", toString model.totalSubscribers)]

/-- A channel: the number of its subscribers. -/
def inspectChannel {Callback : Type} (channel : Channel Callback) : String :=
  braced "Channel" [("subscribers", toString channel.size)]

/-- Names in order. -/
def inspectNames (names : List String) : String :=
  bracketed ((names.mergeSort fun left right => decide (left ≤ right)).map quoted)

/-- A registry: the names of its views and of its factories. -/
def inspectRegistry (registry : Registry) : String :=
  braced "ViewRegistry" [
    ("views", inspectNames (registry.views.map Prod.fst)),
    ("controllers", inspectNames (registry.factories.map Prod.fst))]

/-- Settings. -/
def inspectConfig (config : RenderConfig) : String :=
  let label :=
    match config.anchorLabel with
    | none => "None"
    | some label => "Some(" ++ quoted label ++ ")"
  braced "RenderConfig" [
    ("max_view_depth", toString config.maxViewDepth),
    ("inherit_controller", inspectBool config.inheritsController), ("anchor_label", label)]

/-- A registry with settings. -/
def inspectRenderer (registry : Registry) (config : RenderConfig) : String :=
  braced "Renderer" [
    ("registry", inspectRegistry registry), ("config", inspectConfig config)]

/-- A controller: the actions that it knows. -/
def inspectController : Controller → String
  | .inert => "Inert"
  | .actions table _ => braced "Actions" [("actions", inspectNames (table.map Prod.fst))]

end LiveTemplate.Session
