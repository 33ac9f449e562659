import LiveTemplate.Proofs.Upkeep.Spliced

/-!
# Mutations and the changes they make

A mutation says what is wanted of a list, a change what is done to it.  Here what is wanted is said for
itself, and so is what a reader does who has nothing but a copy of the list and the change: it refuses
a position that its copy does not have.
-/

namespace LiveTemplate

/-- A change is made to a copy, if the position is there. -/
def Change.replay? : Change → List Value → Option (List Value)
  | .insert index item, copy =>
    if index ≤ copy.length then some (copy.take index ++ item :: copy.drop index) else none
  | .remove index _, copy => if index < copy.length then some (copy.eraseIdx index) else none
  | .update index item, copy => if index < copy.length then some (copy.set index item) else none
  | .replace items, _ => some items

theorem Change.replay?_of_within {change : Change} {items : List Value} (within : change.Within items) :
    change.replay? items = some (change.apply items) := by
  cases change with
  | insert index item =>
      have inside : index ≤ items.length := within
      rw [replay?, if_pos inside, apply, insertIdx_eq inside]
  | remove index item =>
      have inside : index < items.length := within
      rw [replay?, if_pos inside, apply]
  | update index item =>
      have inside : index < items.length := within
      rw [replay?, if_pos inside, apply]
  | replace items => rfl

namespace Mutation

/-- The items that are asked for. -/
def outcome : Mutation → List Value → List Value
  | .insert index item, items => items.take index ++ item :: items.drop index
  | .push item, items => items ++ [item]
  | .remove item, items => items.eraseP (·.same item)
  | .removeAt index, items => items.eraseIdx index
  | .update index item, items => items.set index item
  | .replace items, _ => items

/-- What is to be removed or updated is not there. -/
def Beyond : Mutation → List Value → Prop
  | .removeAt index, items | .update index _, items => items.length ≤ index
  | .remove item, items => ∀ found ∈ items, found.same item = false
  | .insert .., _ | .push _, _ | .replace _, _ => False

variable {mutation : Mutation} {items : List Value} {change : Change} {item : Value} {index : Nat}

theorem removal?_eq_some : removal? items index = some change ↔
    ∃ found, items[index]? = some found ∧ change = .remove index found := by
  rw [removal?, Option.map_eq_some_iff]
  constructor
  · rintro ⟨found, there, rfl⟩
    exact ⟨found, there, rfl⟩
  · rintro ⟨found, there, rfl⟩
    exact ⟨found, there, rfl⟩

/-- The first item that is equal is removed. -/
theorem change?_remove_eq_some : (Mutation.remove item).change? items = some change ↔
    ∃ index found, items[index]? = some found ∧ found.same item = true ∧
      (∀ other ∈ items.take index, other.same item = false) ∧ change = .remove index found := by
  rw [change?, Option.bind_eq_some_iff]
  constructor
  · rintro ⟨index, first, removal⟩
    obtain ⟨found, there, rfl⟩ := removal?_eq_some.1 removal
    obtain ⟨inside, same, before⟩ := List.findIdx?_eq_some_iff_getElem.1 first
    obtain ⟨_, rfl⟩ := List.getElem?_eq_some_iff.1 there
    refine ⟨index, items[index], there, same, ?_, rfl⟩
    intro other early
    obtain ⟨place, less, rfl⟩ := List.mem_take_iff_getElem.1 early
    simpa using before place (by omega)
  · rintro ⟨index, found, there, same, before, rfl⟩
    obtain ⟨inside, rfl⟩ := List.getElem?_eq_some_iff.1 there
    refine ⟨index, List.findIdx?_eq_some_iff_getElem.2 ⟨inside, same, ?_⟩,
      removal?_eq_some.2 ⟨_, there, rfl⟩⟩
    intro place early
    have member : items.get ⟨place, early.trans inside⟩ ∈ items.take index :=
      List.mem_take_iff_getElem.2 ⟨place, by omega, rfl⟩
    have differs := before _ member
    simpa using differs

/-- Only what asks for something that is not there makes no change. -/
theorem change?_eq_none : mutation.change? items = none ↔ mutation.Beyond items := by
  cases mutation with
  | insert index item => simp [change?, Beyond]
  | push item => simp [change?, Beyond]
  | removeAt index => simp [change?, Beyond, removal?]
  | update index item => simp [change?, Beyond]
  | replace items => simp [change?, Beyond]
  | remove item =>
      have found : ∀ index, indexOf? items item = some index → removal? items index ≠ none := by
        intro index first
        obtain ⟨inside, _⟩ := List.findIdx?_eq_some_iff_getElem.1 first
        simp [removal?, inside]
      rw [change?, Option.bind_eq_none_iff]
      constructor
      · intro nowhere
        have absent : indexOf? items item = none :=
          Option.eq_none_iff_forall_ne_some.2 fun index first => found index first (nowhere index first)
        exact List.findIdx?_eq_none_iff.1 absent
      · intro absent index first
        rw [indexOf?, List.findIdx?_eq_none_iff.2 absent] at first
        cases first

/-- The change that is made is the one that is asked for. -/
theorem apply_eq_outcome (made : mutation.change? items = some change) :
    change.apply items = mutation.outcome items := by
  cases mutation with
  | insert index item =>
      obtain rfl := Option.some.inj made
      rw [Change.apply, Change.insertIdx_eq (Nat.min_le_right ..), outcome]
      rcases Nat.le_total index items.length with inside | outside
      · rw [Nat.min_eq_left inside]
      · rw [Nat.min_eq_right outside, List.take_length, List.drop_length,
          List.take_of_length_le outside, List.drop_of_length_le outside]
  | push item =>
      obtain rfl := Option.some.inj made
      rw [Change.apply, List.insertIdx_length_self, outcome]
  | remove item =>
      obtain ⟨index, found, there, same, before, rfl⟩ := change?_remove_eq_some.1 made
      obtain ⟨inside, rfl⟩ := List.getElem?_eq_some_iff.1 there
      have parts : items = items.take index ++ items[index] :: items.drop (index + 1) := by
        rw [List.getElem_cons_drop, List.take_append_drop]
      rw [Change.apply, outcome, List.eraseIdx_eq_take_drop_succ]
      conv_rhs => rw [parts]
      have first : (items[index] :: items.drop (index + 1)).eraseP (·.same item) =
          items.drop (index + 1) := by
        rw [List.eraseP_cons, same, cond_true]
      rw [List.eraseP_append_right _ fun other early => by simp [before other early], first]
  | removeAt index =>
      obtain ⟨found, _, rfl⟩ := removal?_eq_some.1 made
      rfl
  | update index item =>
      simp only [change?] at made
      split at made
      · obtain rfl := Option.some.inj made
        rfl
      · cases made
  | replace items =>
      obtain rfl := Option.some.inj made
      rfl

/-- Where nothing is found, the items stay as they are. -/
theorem outcome_of_beyond (beyond : mutation.Beyond items) : mutation.outcome items = items := by
  cases mutation with
  | insert index item => exact beyond.elim
  | push item => exact beyond.elim
  | replace items => exact beyond.elim
  | remove item =>
      apply List.eraseP_of_forall_not
      intro found member
      simp [beyond found member]
  | removeAt index => exact List.eraseIdx_of_length_le beyond
  | update index item => exact List.set_eq_of_length_le beyond

end Mutation

end LiveTemplate
