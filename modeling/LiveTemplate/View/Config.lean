import LiveTemplate.Template.Error

/-!
# Settings and failures of a render
-/

namespace LiveTemplate

/-- Settings of a render. -/
structure RenderConfig where
  /-- How many views may be nested. -/
  maxViewDepth : Nat := 32
  /-- Whether a view without a controller of its own uses the enclosing one. -/
  inheritsController : Bool := true
  /-- The label of the anchors of directives. -/
  anchorLabel : Option String := none
deriving DecidableEq, Repr

/-- Why a template cannot be shown. -/
inductive RenderError where
  | unknownView (name : String)
  | viewDepthExceeded (name : String) (depth : Nat)
  | parse (error : Template.ParseError)
deriving DecidableEq, Repr

/-- The wording of a failure. -/
def RenderError.message : RenderError → String
  | .unknownView name => "unknown view `" ++ name ++ "`"
  | .viewDepthExceeded name depth =>
    "view `" ++ name ++ "` exceeds the maximum nesting depth of " ++ toString depth
  | .parse error => error.message

end LiveTemplate
