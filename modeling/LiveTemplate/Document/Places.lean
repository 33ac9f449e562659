import LiveTemplate.Identity

/-!
# Places

The nodes of a document stand in numbered places.  A place that was vacated is taken again, the one
vacated last first, before a new place is opened.  A node is referred to by its place and by the
number of nodes that stood there before it.  So no two nodes of one document are ever referred to
alike, and nodes of two documents are whenever they stand in the same place for the same time.

The main statement is that the next reference has not been given out yet, and that taking a place
gives out that reference and no other.
-/

namespace LiveTemplate

/-- The places of a document. -/
structure Places where
  /-- How many nodes have stood in each place so far. -/
  taken : Array Nat
  /-- The places in which no node stands, the one vacated last first. -/
  vacant : List Nat
  vacant_lt : ∀ place ∈ vacant, place < taken.size

namespace Places

/-- No place has been opened yet. -/
def empty : Places where
  taken := #[]
  vacant := []
  vacant_lt := by simp

instance : Inhabited Places := ⟨empty⟩

/-- How many nodes have stood in a place so far. -/
def count (places : Places) (place : Nat) : Nat :=
  places.taken[place]?.getD 0

/-- Whether a reference has been given out. -/
def Issued (places : Places) (node : NodeId) : Prop :=
  node.generation < places.count node.place

instance (places : Places) (node : NodeId) : Decidable (places.Issued node) :=
  inferInstanceAs (Decidable (_ < _))

/-- The reference of the next node. -/
def next (places : Places) : NodeId :=
  let place := places.vacant.headD places.taken.size
  ⟨place, places.count place⟩

/-- The places after the next node has taken one. -/
def take (places : Places) : Places :=
  match places with
  | ⟨taken, place :: later, vacant_lt⟩ =>
    { taken := taken.modify place (· + 1)
      vacant := later
      vacant_lt := fun other member => by
        simpa using vacant_lt other (List.mem_cons_of_mem place member) }
  | ⟨taken, [], _⟩ => { taken := taken.push 1, vacant := [], vacant_lt := by simp }

/-- The places after a node has gone from its place. -/
def vacate (places : Places) (node : NodeId) : Places :=
  if inside : node.place < places.taken.size then
    { places with
      vacant := node.place :: places.vacant
      vacant_lt := by simpa [inside] using places.vacant_lt }
  else places

/-- The places after several nodes have gone, one after the other. -/
def vacateAll (places : Places) (nodes : List NodeId) : Places :=
  nodes.foldl vacate places

/-- The next reference has not been given out. -/
theorem not_issued_next (places : Places) : ¬ places.Issued places.next := by
  simp [Issued, next]

theorem count_take (places : Places) (place : Nat) :
    places.take.count place =
      if place = places.next.place then places.count place + 1 else places.count place := by
  obtain ⟨taken, vacant, vacant_lt⟩ := places
  cases vacant with
  | nil =>
    simp only [take, next, count, List.headD_nil, Array.getElem?_push]
    by_cases here : place = taken.size <;> simp [here]
  | cons first later =>
    have inside : first < taken.size := vacant_lt first List.mem_cons_self
    simp only [take, next, count, List.headD_cons, Array.getElem?_modify]
    by_cases here : place = first
    · subst here
      simp [inside]
    · simp [here, Ne.symm here]

/-- Taking a place gives out the next reference and no other. -/
theorem issued_take_iff (places : Places) (node : NodeId) :
    places.take.Issued node ↔ places.Issued node ∨ node = places.next := by
  obtain ⟨place, generation⟩ := node
  simp only [Issued, count_take]
  by_cases here : place = places.next.place
  · have same : (⟨place, generation⟩ : NodeId) = places.next ↔
        generation = places.count place := by
      rw [here, next]
      simp
    rw [if_pos here, same]
    omega
  · have different : (⟨place, generation⟩ : NodeId) ≠ places.next := fun equal =>
      here (congrArg NodeId.place equal)
    simp [here, different]

/-- What has been given out is not given out again after a node has gone. -/
theorem issued_vacate_iff (places : Places) (gone node : NodeId) :
    (places.vacate gone).Issued node ↔ places.Issued node := by
  unfold vacate
  split <;> rfl

theorem issued_vacateAll_iff (places : Places) (gone : List NodeId) (node : NodeId) :
    (places.vacateAll gone).Issued node ↔ places.Issued node := by
  induction gone generalizing places with
  | nil => rfl
  | cons first later induction =>
    exact (induction (places.vacate first)).trans (issued_vacate_iff places first node)

end Places

end LiveTemplate
