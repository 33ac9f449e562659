import LiveTemplate.Document.Basic

/-!
# Finding nodes

Results stand in tree order.  The node under which the search takes place is searched too.
-/

namespace LiveTemplate.Document

/-- The nodes under a node whose data satisfy a predicate. -/
def queryAll (document : Document) (root : NodeId) (holds : NodeData → Bool) : List NodeId :=
  ((document.nodes.subtree root).entries.filter fun entry => holds entry.2).map Prod.fst

/-- The elements under a node that have a tag. -/
def queryAllByTag (document : Document) (root : NodeId) (tag : String) : List NodeId :=
  document.queryAll root fun data => data.tag? == some tag

/-- The first element under a node that has a tag. -/
def queryByTag (document : Document) (root : NodeId) (tag : String) : Option NodeId :=
  (document.queryAllByTag root tag).head?

/-- The first node under a node that has an attribute with a value. -/
def queryByAttribute (document : Document) (root : NodeId) (name value : String) :
    Option NodeId :=
  (document.queryAll root fun data => data.attribute? name == some value).head?

/-- The contents of all texts under a node, joined. -/
def textContent (document : Document) (root : NodeId) : String :=
  "".intercalate ((document.nodes.subtree root).entries.filterMap fun entry => entry.2.content?)

end LiveTemplate.Document
