import LiveTemplate.Document.Basic

/-!
# Documents as HTML

Attributes stand in order; style properties are gathered in a last attribute called `style`.
Anchors are seen only if they have a label, as comments.
-/

namespace LiveTemplate.Html

/-- The spelling of a character within a text. -/
def escapeText (c : Char) : List Char :=
  if c = '&' then "&amp;".toList
  else if c = '<' then "&lt;".toList
  else if c = '>' then "&gt;".toList
  else [c]

/-- The spelling of a character within a quoted attribute value. -/
def escapeValue (c : Char) : List Char :=
  if c = '"' then "&quot;".toList else escapeText c

/-- A text as it is written between tags. -/
def writtenText (text : String) : String :=
  String.ofList (text.toList.flatMap escapeText)

/-- A text as it is written within quotes. -/
def writtenValue (text : String) : String :=
  String.ofList (text.toList.flatMap escapeValue)

/-- An attribute with a space before it. -/
def writtenAttribute (name value : String) : String :=
  " " ++ name ++ "=\"" ++ writtenValue value ++ "\""

/-- The style properties as one attribute value. -/
def styleValue (styles : List (String × String)) : String :=
  "; ".intercalate (styles.map fun style => style.1 ++ ": " ++ style.2)

/-- The attributes of an element, the gathered style properties last. -/
def writtenAttributes (data : NodeData) : String :=
  "".intercalate (data.attributes.map fun entry => writtenAttribute entry.1 entry.2) ++
    (if data.styles.isEmpty then "" else writtenAttribute "style" (styleValue data.styles))

/-- The HTML of a forest.  Only elements show what is below them. -/
def written : Forest NodeId NodeData → String
  | .nil => ""
  | .cons _ data children rest =>
    (match data.kind with
      | .text content => writtenText content
      | .anchor none => ""
      | .anchor (some label) => "<!--" ++ label ++ "-->"
      | .element tag =>
        "<" ++ tag ++ writtenAttributes data ++ ">" ++ written children ++ "</" ++ tag ++ ">") ++
      written rest

end LiveTemplate.Html

namespace LiveTemplate.Document

/-- The HTML of a node and what is below it; empty if the node is gone. -/
def html (document : Document) (node : NodeId) : String :=
  Html.written (document.nodes.subtree node)

end LiveTemplate.Document
