/-!
# Stores

A store holds objects under the numbers zero, one, two and so on in the order in which they were
added.  Nothing is ever taken out.
-/

namespace LiveTemplate

/-- Objects under consecutive numbers. -/
structure Store (Item : Type) where
  items : Array Item := #[]

namespace Store

variable {Item : Type}

instance : Inhabited (Store Item) := ⟨{}⟩

/-- The number that the next object will get. -/
def next (store : Store Item) : Nat :=
  store.items.size

/-- The object with a number. -/
def get? (store : Store Item) (index : Nat) : Option Item :=
  store.items[index]?

/-- Add an object under the next number. -/
def add (store : Store Item) (item : Item) : Store Item :=
  ⟨store.items.push item⟩

/-- Change the object with a number, if there is one. -/
def modify (store : Store Item) (index : Nat) (change : Item → Item) : Store Item :=
  ⟨store.items.modify index change⟩

/-- All objects in the order of their numbers. -/
def toList (store : Store Item) : List Item :=
  store.items.toList

@[simp] theorem next_add (store : Store Item) (item : Item) :
    (store.add item).next = store.next + 1 := by
  simp [next, add]

@[simp] theorem next_modify (store : Store Item) (index : Nat) (change : Item → Item) :
    (store.modify index change).next = store.next := by
  simp [next, modify]

theorem get?_add (store : Store Item) (item : Item) (index : Nat) :
    (store.add item).get? index =
      if index = store.next then some item else store.get? index := by
  by_cases last : index = store.items.size <;> simp [get?, add, next, Array.getElem?_push, last]

theorem get?_modify (store : Store Item) (index other : Nat) (change : Item → Item) :
    (store.modify index change).get? other =
      if other = index then (store.get? other).map change else store.get? other := by
  simp [get?, modify, Array.getElem?_modify, eq_comm]

theorem modify_congr {store : Store Item} {index : Nat} {item : Item} {first second : Item → Item}
    (found : store.get? index = some item) (same : first item = second item) :
    store.modify index first = store.modify index second := by
  simp only [modify, mk.injEq]
  apply Array.ext_getElem?
  intro other
  simp only [Array.getElem?_modify]
  by_cases here : index = other
  · subst here
    rw [get?] at found
    simp [found, same]
  · simp [here]

/-- A change of the object that was added last. -/
theorem modify_add (store : Store Item) (item : Item) (change : Item → Item) :
    (store.add item).modify store.next change = store.add (change item) := by
  simp only [modify, add, next, mk.injEq]
  apply Array.ext_getElem?
  intro index
  simp only [Array.getElem?_modify, Array.getElem?_push]
  by_cases here : store.items.size = index
  · simp [here]
  · simp [here, Ne.symm here]

theorem modify_eq_self {store : Store Item} {index : Nat} {item : Item} {change : Item → Item}
    (found : store.get? index = some item) (same : change item = item) :
    store.modify index change = store := by
  obtain ⟨items⟩ := store
  simp only [modify, mk.injEq]
  apply Array.ext_getElem?
  intro other
  simp only [Array.getElem?_modify]
  by_cases here : index = other
  · subst here
    rw [get?] at found
    simp [found, same]
  · simp [here]

theorem modify_modify (store : Store Item) (index : Nat) (first second : Item → Item) :
    (store.modify index first).modify index second =
      store.modify index fun item => second (first item) := by
  simp only [modify, mk.injEq]
  apply Array.ext_getElem?
  intro other
  simp only [Array.getElem?_modify]
  by_cases here : index = other <;> simp [here, Function.comp_def]

theorem get?_isSome_iff {store : Store Item} {index : Nat} :
    (store.get? index).isSome = true ↔ index < store.next := by
  simp [get?, next]

theorem lt_next_of_get? {store : Store Item} {index : Nat} {item : Item}
    (found : store.get? index = some item) : index < store.next :=
  get?_isSome_iff.1 (found ▸ rfl)

theorem get?_eq_none {store : Store Item} {index : Nat} (beyond : store.next ≤ index) :
    store.get? index = none := by
  simpa [get?, next] using beyond

end Store

end LiveTemplate
