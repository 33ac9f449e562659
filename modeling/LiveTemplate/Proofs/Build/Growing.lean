import LiveTemplate.Proofs.Bound.Edit
import LiveTemplate.Proofs.Bound.Ledger
import LiveTemplate.Proofs.Build.Runs

/-!
# What building makes

Building only adds: registrations that are held by the new bound nodes, new numbers, new document
nodes.  `Grows` says so of some steps, and that the piece of document has the shape of the skeleton
of the bound nodes.  Registrations that a bound node yet to be put above will hold are listed apart.
-/

namespace LiveTemplate

namespace Build

variable {Client : Type}

/-- Between two states, registrations, bound nodes and document nodes were made. -/
structure Makes (render : RenderId) (before after : BuildState Client) (account : Account)
    (numbers : List BoundId) (nodes : List NodeId) : Prop where
  data : before.data.Extends render after.data account
  numbering : before.nextBound ≤ after.nextBound
  numbered : ∀ id ∈ numbers, before.nextBound ≤ id.index ∧ id.index < after.nextBound
  numbersDistinct : numbers.Nodup
  issued : ∀ node, after.places.Issued node ↔ before.places.Issued node ∨ node ∈ nodes
  fresh : ∀ node ∈ nodes, ¬ before.places.Issued node
  nodesDistinct : nodes.Nodup

variable {render : RenderId} {before middle after : BuildState Client}
  {account later : Account} {numbers others : List BoundId} {nodes added : List NodeId}

theorem Makes.trans (first : Makes render before middle account numbers nodes)
    (second : Makes render middle after later others added) :
    Makes render before after (account ++ later) (numbers ++ others) (nodes ++ added) where
  data := first.data.trans second.data
  numbering := first.numbering.trans second.numbering
  numbered := by
    intro id member
    rcases List.mem_append.1 member with early | late
    · have bounds := first.numbered id early
      exact ⟨bounds.1, bounds.2.trans_le second.numbering⟩
    · have bounds := second.numbered id late
      exact ⟨first.numbering.trans bounds.1, bounds.2⟩
  numbersDistinct := by
    refine List.nodup_append'.2 ⟨first.numbersDistinct, second.numbersDistinct, ?_⟩
    intro id early late
    have high := (first.numbered id early).2
    have low := (second.numbered id late).1
    omega
  issued := by
    intro node
    rw [second.issued, first.issued, List.mem_append, or_assoc]
  fresh := by
    intro node member
    rcases List.mem_append.1 member with early | late
    · exact first.fresh node early
    · exact fun given => second.fresh node late ((first.issued node).2 (.inl given))
  nodesDistinct := by
    refine List.nodup_append'.2 ⟨first.nodesDistinct, second.nodesDistinct, ?_⟩
    intro node early late
    exact second.fresh node late ((first.issued node).2 (.inr early))

theorem Makes.perm (makes : Makes render before after account numbers nodes)
    (accounts : account.Perm later) (ids : numbers.Perm others) (documents : nodes.Perm added) :
    Makes render before after later others added where
  data := makes.data.perm accounts
  numbering := makes.numbering
  numbered := fun id member => makes.numbered id (ids.symm.subset member)
  numbersDistinct := ids.nodup_iff.1 makes.numbersDistinct
  issued := fun node => by rw [makes.issued, documents.mem_iff]
  fresh := fun node member => makes.fresh node (documents.symm.subset member)
  nodesDistinct := documents.nodup_iff.1 makes.nodesDistinct

theorem Makes.of_same (data : after.data = before.data) (places : after.places = before.places)
    (numbers : after.nextBound = before.nextBound) : Makes render before after [] [] [] where
  data := data ▸ .refl render before.data
  numbering := numbers.ge
  numbered := by simp
  numbersDistinct := .nil
  issued := by simp [places]
  fresh := by simp
  nodesDistinct := .nil

theorem makes_node (before : BuildState Client) :
    Makes render before { before with places := before.places.take } [] []
      [before.places.next] where
  data := .refl render before.data
  numbering := le_rfl
  numbered := by simp
  numbersDistinct := .nil
  issued := fun node => by simp [Places.issued_take_iff]
  fresh := by simpa using before.places.not_issued_next
  nodesDistinct := by simp

theorem makes_bound (before : BuildState Client) :
    Makes render before { before with nextBound := before.nextBound + 1 } []
      [⟨before.nextBound⟩] [] where
  data := .refl render before.data
  numbering := Nat.le_succ _
  numbered := by simp
  numbersDistinct := by simp
  issued := by simp
  fresh := by simp
  nodesDistinct := .nil

theorem makes_registration {data : Data} {subscription : Subscription} {observer : Observer}
    {owner : BoundId} (registers : before.data.Registers data subscription observer)
    (owned : observer.owner? = some (render, owner)) :
    Makes render before { before with data } [(subscription, owner)] [] [] where
  data := registers.extends owned
  numbering := le_rfl
  numbered := by simp
  numbersDistinct := .nil
  issued := by simp
  fresh := by simp
  nodesDistinct := .nil

/-- Between two states, a piece of document and bound nodes for it were made, and registrations
`held` by others. -/
structure Grows (render : RenderId) (before after : BuildState Client) (held : Account)
    (page : Forest NodeId NodeData) (bound : Bindings) : Prop where
  makes : Makes render before after (held ++ BoundForest.account bound) bound.names page.names
  shape : page.shape = BoundForest.skeleton bound
  regular : BoundForest.AllRegular bound
  scopes : ∀ entry ∈ bound.entries, entry.2.scope.model.index < before.data.models.next

variable {held more : Account} {page document : Forest NodeId NodeData} {bound beside : Bindings}

theorem Grows.agrees (grows : Grows render before after held page bound) :
    before.data.Agrees after.data :=
  grows.makes.data.agrees

theorem Grows.sound (grows : Grows render before after held page bound)
    (sound : before.data.Sound) : after.data.Sound :=
  grows.makes.data.sound sound

theorem Grows.refl (render : RenderId) (before : BuildState Client) :
    Grows render before before [] .nil .nil where
  makes := .of_same rfl rfl rfl
  shape := rfl
  regular := trivial
  scopes := by simp [Forest.entries]

/-- Steps that make nothing. -/
theorem Grows.of_same (data : after.data = before.data) (places : after.places = before.places)
    (numbers : after.nextBound = before.nextBound) :
    Grows render before after [] .nil .nil where
  makes := .of_same data places numbers
  shape := rfl
  regular := trivial
  scopes := by simp [Forest.entries]

theorem grows_registration (render : RenderId) (before : BuildState Client) (owner : BoundId)
    {data : Data} {subscription : Subscription} {observer : Observer} (registers : before.data.Registers data subscription observer)
    (owned : observer.owner? = some (render, owner)) :
    Grows render before { before with data } [(subscription, owner)] .nil .nil where
  makes := makes_registration registers owned
  shape := rfl
  regular := trivial
  scopes := by simp [Forest.entries]

/-- One growth beside another. -/
theorem Grows.trans (first : Grows render before middle held page bound)
    (second : Grows render middle after more document beside) :
    Grows render before after (held ++ more) (page ++ document) (bound ++ beside) where
  makes := by
    refine (first.makes.trans second.makes).perm ?_ ?_ ?_
    · simp only [BoundForest.account_append, List.append_assoc]
      refine List.Perm.append_left _ ?_
      rw [← List.append_assoc, ← List.append_assoc]
      exact List.perm_append_comm.append_right _
    · rw [Forest.names_append]
    · rw [Forest.names_append]
  shape := by
    rw [Forest.shape_append, first.shape, second.shape, BoundForest.skeleton_append]
  regular := BoundForest.allRegular_append.2 ⟨first.regular, second.regular⟩
  scopes := by
    intro entry member
    rw [Forest.entries_append] at member
    rcases List.mem_append.1 member with early | late
    · exact first.scopes entry early
    · rw [← first.agrees.models]
      exact second.scopes entry late

/-- Everything made is put under a new bound node without a document node. -/
theorem Grows.within {node : BoundNode Part}
    (grows : Grows render { before with nextBound := before.nextBound + 1 } after held page bound)
    (holds : held = node.ledger.map fun subscription => (subscription, ⟨before.nextBound⟩))
    (bare : node.dom = none)
    (scope : node.scope.model.index < before.data.models.next)
    (regular : BoundForest.Regular node bound) :
    Grows render before after [] page (.cons ⟨before.nextBound⟩ node bound .nil) where
  makes := by
    refine ((makes_bound before).trans grows.makes).perm ?_ ?_ ?_
    · simp [holds]
    · simp
    · simp
  shape := by simp [grows.shape, BoundForest.around_of_none bare]
  regular := ⟨regular, grows.regular, trivial⟩
  scopes := by
    intro entry member
    simp only [Forest.entries, List.append_nil, List.mem_cons] at member
    rcases member with rfl | member
    · exact scope
    · exact grows.scopes entry member

/-- Everything made is put under a new bound node with a document node of its own. -/
theorem Grows.under {node : BoundNode Part}
    (grows : Grows render
      { before with places := before.places.take, nextBound := before.nextBound + 1 } after
      held page bound)
    (holds : held = node.ledger.map fun subscription => (subscription, ⟨before.nextBound⟩))
    (scope : node.scope.model.index < before.data.models.next)
    (regular : BoundForest.Regular node bound)
    (names : document.names = before.places.next :: page.names)
    (shape : document.shape = node.around page.shape) :
    Grows render before after [] document (.cons ⟨before.nextBound⟩ node bound .nil) where
  makes := by
    refine (((makes_node before).trans (makes_bound _)).trans grows.makes).perm ?_ ?_ ?_
    · simp [holds]
    · simp
    · simp [names]
  shape := by simp [shape, grows.shape]
  regular := ⟨regular, grows.regular, trivial⟩
  scopes := by
    intro entry member
    simp only [Forest.entries, List.append_nil, List.mem_cons] at member
    rcases member with rfl | member
    · exact scope
    · exact grows.scopes entry member

end Build

end LiveTemplate
