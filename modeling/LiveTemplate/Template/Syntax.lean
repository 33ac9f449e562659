import LiveTemplate.Template.Path
import LiveTemplate.Template.Token

/-!
# Templates as trees

A template is one element.  Below it stand elements, texts, directives that are governed by a
property path, and views to be shown in place.
-/

namespace LiveTemplate.Template

/-- What stands in a value position: fixed text or a property. -/
inductive Expression where
  | literal (text : String)
  | bound (path : Path)
deriving DecidableEq, Repr

/-- One entry of an element's attribute list. -/
inductive Attribute where
  /-- The attribute `name` shows the value. -/
  | property (name : String) (value : Expression)
  /-- The style property `name` shows the value. -/
  | style (name : String) (value : Expression)
  /-- The event `name` runs `action`; `prevents` suppresses the default action. -/
  | event (name : String) (action : String) (prevents : Bool)
deriving DecidableEq, Repr

/-- What a directive makes of the value of its path. -/
inductive Rule where
  /-- The body is shown while the value is truthy. -/
  | showIf
  /-- The body is shown while the value is falsy. -/
  | showUnless
  /-- The body is shown once for each item of the value, and built anew when they change. -/
  | each
  /-- The body is shown once for each item of the value; a collection's items are followed one by
  one. -/
  | collection
  /-- The named view is shown for the model that the value is.  There is no body. -/
  | view (name : String)
deriving DecidableEq, Repr

/-- A node of a template. -/
inductive Node where
  | element (tag : String) (attributes : List Attribute) (children : List Node) (line : Nat)
  | text (content : Expression)
  | directive (rule : Rule) (path : Path) (body : List Node)
  /-- A view shown for the model at hand. -/
  | view (name : String)
deriving Repr

end Template

/-- A parsed template: exactly one root element. -/
structure Template where
  tag : String
  attributes : List Template.Attribute
  children : List Template.Node
  /-- The source line of the tag. -/
  line : Nat
deriving Repr

namespace Template

/-- The root element as a node. -/
def root (template : Template) : Node :=
  .element template.tag template.attributes template.children template.line

mutual

/-- The names of the views that a node refers to, in source order. -/
def Node.viewNames : Node → List String
  | .element _ _ children _ => viewNamesOf children
  | .text _ => []
  | .directive (.view name) _ body => name :: viewNamesOf body
  | .directive _ _ body => viewNamesOf body
  | .view name => [name]

/-- The names of the views that a sequence of nodes refers to, in source order. -/
def viewNamesOf : List Node → List String
  | [] => []
  | node :: later => node.viewNames ++ viewNamesOf later

end

/-- The names of the views that a template refers to, in source order, repetitions included. -/
def viewNames (template : Template) : List String :=
  viewNamesOf template.children

end Template

end LiveTemplate
