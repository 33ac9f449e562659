/-!
# Ordered forests with named nodes

A forest is a sequence of trees.  It is either empty or a first tree, which is a named and labelled
node over the forest of its children, followed by the rest.  There is one list of children for each
node and no other record of who is whose parent, so links can neither disagree nor run in circles.

The operations name nodes.  Where a name is meant to be unique, that is an invariant of the forest's
owner, who only ever adds fresh names.
-/

namespace LiveTemplate

/-- A sequence of trees with named and labelled nodes. -/
inductive Forest (Name Label : Type) where
  | nil
  | cons (name : Name) (label : Label) (children rest : Forest Name Label)
deriving Repr

namespace Forest

variable {Name Label : Type}

instance : Inhabited (Forest Name Label) := ⟨nil⟩

/-- The forest of a single node. -/
def leaf (name : Name) (label : Label) : Forest Name Label :=
  cons name label nil nil

/-- The trees of one forest followed by those of another. -/
def append : Forest Name Label → Forest Name Label → Forest Name Label
  | nil, later => later
  | cons name label children rest, later => cons name label children (rest.append later)

instance : Append (Forest Name Label) := ⟨append⟩

/-- Whether there is no node. -/
def isEmpty : Forest Name Label → Bool
  | nil => true
  | cons .. => false

/-- All nodes with their labels, each before its children, trees in order. -/
def entries : Forest Name Label → List (Name × Label)
  | nil => []
  | cons name label children rest => (name, label) :: (children.entries ++ rest.entries)

/-- The names of all nodes in the order of `entries`. -/
def names (forest : Forest Name Label) : List Name :=
  forest.entries.map Prod.fst

/-- Names level by level put beside those of later trees. -/
def besideLevels : List (List Name) → List (List Name) → List (List Name)
  | [], later => later
  | level, [] => level
  | first :: below, other :: later => (first ++ other) :: besideLevels below later

/-- The names of the roots, of their children, of the children of those, and so on. -/
def levels : Forest Name Label → List (List Name)
  | nil => []
  | cons name _ children rest => besideLevels ([name] :: children.levels) rest.levels

/-- The number of nodes. -/
def size : Forest Name Label → Nat
  | nil => 0
  | cons _ _ children rest => children.size + rest.size + 1

/-- The names of the roots of the trees, in order. -/
def roots : Forest Name Label → List Name
  | nil => []
  | cons name _ _ rest => name :: rest.roots

/-- The trees in front of position `index`; all of them if there are no more than `index`. -/
def take : Nat → Forest Name Label → Forest Name Label
  | 0, _ => nil
  | _ + 1, nil => nil
  | index + 1, cons name label children rest => cons name label children (take index rest)

/-- The trees from position `index` on. -/
def drop : Nat → Forest Name Label → Forest Name Label
  | 0, forest => forest
  | _ + 1, nil => nil
  | index + 1, cons _ _ _ rest => drop index rest

/-- The given trees put in front of position `index`, or at the end if there is no such position. -/
def insertAt (forest : Forest Name Label) (index : Nat) (trees : Forest Name Label) :
    Forest Name Label :=
  forest.take index ++ (trees ++ forest.drop index)

section Search

variable [DecidableEq Name]

/-- Whether a node has the name. -/
def contains (forest : Forest Name Label) (target : Name) : Bool :=
  match forest with
  | nil => false
  | cons name _ children rest =>
    decide (name = target) || children.contains target || rest.contains target

/-- The label of the named node. -/
def label? (forest : Forest Name Label) (target : Name) : Option Label :=
  match forest with
  | nil => none
  | cons name label children rest =>
    if name = target then some label
    else (children.label? target).or (rest.label? target)

/-- The forest below the named node; empty if there is no such node. -/
def under (forest : Forest Name Label) (target : Name) : Forest Name Label :=
  match forest with
  | nil => nil
  | cons name _ children rest =>
    if name = target then children
    else if children.contains target then children.under target
    else rest.under target

/-- The tree at the named node, as a forest of one tree; empty if there is no such node. -/
def subtree (forest : Forest Name Label) (target : Name) : Forest Name Label :=
  match forest with
  | nil => nil
  | cons name label children rest =>
    if name = target then cons name label children nil
    else if children.contains target then children.subtree target
    else rest.subtree target

/-- The names of the children of the named node, in order. -/
def childrenOf (forest : Forest Name Label) (target : Name) : List Name :=
  (forest.under target).roots

/-- The named node and everything below it, each node before its children. -/
def walk (forest : Forest Name Label) (target : Name) : List Name :=
  (forest.subtree target).names

/-- The nodes above the named one, the nearest first; none if there is no such node. -/
def ancestors (forest : Forest Name Label) (target : Name) : List Name :=
  match forest with
  | nil => []
  | cons name _ children rest =>
    if name = target then []
    else if children.contains target then children.ancestors target ++ [name]
    else rest.ancestors target

/-- The node directly above the named one. -/
def parent? (forest : Forest Name Label) (target : Name) : Option Name :=
  (forest.ancestors target).head?

/-- The forest without the named node and everything below it. -/
def prune (forest : Forest Name Label) (target : Name) : Forest Name Label :=
  match forest with
  | nil => nil
  | cons name label children rest =>
    if name = target then rest.prune target
    else cons name label (children.prune target) (rest.prune target)

/-- Change the label of the named node. -/
def modify (forest : Forest Name Label) (target : Name) (change : Label → Label) :
    Forest Name Label :=
  match forest with
  | nil => nil
  | cons name label children rest =>
    cons name (if name = target then change label else label) (children.modify target change)
      (rest.modify target change)

/-- Change the forest below the named node. -/
def modifyUnder (forest : Forest Name Label) (target : Name)
    (change : Forest Name Label → Forest Name Label) : Forest Name Label :=
  match forest with
  | nil => nil
  | cons name label children rest =>
    cons name label
      (if name = target then change children else children.modifyUnder target change)
      (rest.modifyUnder target change)

/-- Put trees directly after the named node, under the same parent. -/
def insertAfter (forest : Forest Name Label) (target : Name) (trees : Forest Name Label) :
    Forest Name Label :=
  match forest with
  | nil => nil
  | cons name label children rest =>
    if name = target then cons name label children (trees ++ rest)
    else cons name label (children.insertAfter target trees) (rest.insertAfter target trees)

end Search

end Forest

end LiveTemplate
