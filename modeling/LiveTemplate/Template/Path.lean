import LiveTemplate.Text.Blank

/-!
# Property paths

A path such as `author.name` names a property of a model that is reached through properties of
other models.  It has at least one segment.
-/

namespace LiveTemplate.Template

/-- A dotted property reference: its first segment and the others. -/
structure Path where
  head : String
  tail : List String
deriving DecidableEq, Repr

namespace Path

/-- All segments, outermost first. -/
def segments (path : Path) : List String :=
  path.head :: path.tail

/-- The segment that is read on the innermost model. -/
def last (path : Path) : String :=
  path.tail.getLastD path.head

/-- The segments on the way to the innermost model. -/
def init (path : Path) : List String :=
  path.segments.dropLast

/-- The path with the given dotted text; segments may be empty. -/
def ofText (text : String) : Path :=
  match Text.pieces '.' text.toList with
  | [] => ⟨"", []⟩
  | first :: others => ⟨String.ofList first, others.map String.ofList⟩

/-- The dotted text of a path. -/
def text (path : Path) : String :=
  ".".intercalate path.segments

end Path

end LiveTemplate.Template
