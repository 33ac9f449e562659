import LiveTemplate.Proofs.Apart.Mounts

/-!
# What a client sees in both worlds

The names that a client gives stand for the same in both worlds, so it points at the same nodes and is
answered the same.
-/

namespace LiveTemplate

variable {hidden own : String → Bool} {ties later : Ties} {first second : World Journal}

theorem getElem?_forall₂ {First Second : Type} {related : First → Second → Prop}
    {here : List First} {there : List Second} (all : List.Forall₂ related here there) (index : Nat) :
    Option.Rel related here[index]? there[index]? := by
  induction all generalizing index with
  | nil => exact .none
  | cons same _ induction =>
      cases index with
      | zero => exact .some same
      | succ index => exact induction index

/-! ## Names -/

section Named

variable {First Second : Type} {related : String → First → Second → Prop}
  {table : List (String × First)} {also : List (String × Second)}

theorem lookup_of_named (named : List.Forall₂ (Named related) table also) (name : String) :
    Option.Rel (related name) (table.lookup name) (also.lookup name) := by
  induction named with
  | nil => exact .none
  | @cons one other _ _ here _ induction =>
      obtain ⟨key, value⟩ := one
      obtain ⟨_, twin⟩ := other
      obtain ⟨rfl, same⟩ := here
      rw [Pairs.lookup_cons, Pairs.lookup_cons]
      split
      · rename_i found
        subst found
        exact .some same
      · exact induction

theorem named_set (named : List.Forall₂ (Named related) table also) {name : String} {one : First}
    {other : Second} (same : related name one other) :
    List.Forall₂ (Named related) (Pairs.set table name one) (Pairs.set also name other) := by
  induction named with
  | nil => exact .cons ⟨rfl, same⟩ .nil
  | @cons one other _ _ here rest induction =>
      obtain ⟨key, value⟩ := one
      obtain ⟨_, twin⟩ := other
      obtain ⟨rfl, alike⟩ := here
      rw [Pairs.set, Pairs.set]
      split
      · rename_i found
        subst found
        exact .cons ⟨rfl, same⟩ rest
      · exact .cons ⟨rfl, alike⟩ induction

theorem named_erase (named : List.Forall₂ (Named related) table also) (name : String) :
    List.Forall₂ (Named related) (Pairs.erase table name) (Pairs.erase also name) := by
  induction named with
  | nil => exact .nil
  | @cons one other _ _ here rest induction =>
      obtain ⟨key, value⟩ := one
      obtain ⟨_, twin⟩ := other
      obtain ⟨rfl, alike⟩ := here
      rw [Pairs.erase, Pairs.erase]
      split
      · exact rest
      · exact .cons ⟨rfl, alike⟩ induction

end Named

namespace World

/-! ## Nodes -/

variable (all : World.Matches hidden own ties first second)

include all

/-- The client points at the same node in both worlds. -/
theorem Matches.spot? : ∀ spot : Spot, spot.Spares hidden →
    Option.Rel ties.nodes.pairs (first.spot? spot) (second.spot? spot)
  | .made name, _ => lookup_of_named all.client.nodes name
  | .root name, shown => by
      rw [World.spot?, World.spot?]
      rcases some_or_none (all.client.shown name shown) with ⟨_, _, one, other, tied⟩ | ⟨one, other⟩
      · obtain ⟨_, _, here, there, shown⟩ := all.rendered tied
        rw [one, other, Option.bind_some, Option.bind_some, here, there]
        exact .some shown.node
      · rw [one, other]
        exact .none
  | .child above index, shown => by
      rw [World.spot?, World.spot?]
      rcases some_or_none (Matches.spot? above shown) with ⟨_, _, one, other, tied⟩ | ⟨one, other⟩
      · rw [one, other, Option.bind_some, Option.bind_some]
        exact getElem?_forall₂ (all.documents.shared.children tied) index
      · rw [one, other]
        exact .none
  | .parent below, shown => by
      rw [World.spot?, World.spot?]
      rcases some_or_none (Matches.spot? below shown) with ⟨_, _, one, other, tied⟩ | ⟨one, other⟩
      · rw [one, other, Option.bind_some, Option.bind_some, Document.parent?, Document.parent?,
          Forest.parent?, Forest.parent?, List.head?_eq_getElem?, List.head?_eq_getElem?]
        exact getElem?_forall₂ (all.documents.shared.ancestors tied) 0
      · rw [one, other]
        exact .none

/-! ## Answers -/

/-- The numbers of registrations and of bound nodes of a render are the same in both worlds. -/
theorem Matches.counts_eq {one other : RenderId} (tied : ties.renders.pairs one other) :
    first.subscriptionCount one = second.subscriptionCount other ∧
      first.boundCount one = second.boundCount other := by
  obtain ⟨render, twin, here, there, shown⟩ := all.rendered tied
  have trees := shown.alike.nodes.subtree twin.root
  rw [World.subscriptionCount, World.subscriptionCount, World.boundCount, World.boundCount, here,
    there]
  dsimp only
  rw [shown.alike.root]
  exact ⟨trees.ledger.length_eq, trees.size_eq⟩

theorem Matches.answer_eq {question : Question} (spares : question.Spares hidden) :
    first.answer question = second.answer question := by
  cases question with
  | property model property =>
      exact congrArg Answer.value (all.data.agrees.get model property).symm
  | shown model property =>
      exact congrArg Answer.value (all.data.agrees.display model property).symm
  | items collection =>
      exact congrArg Answer.values (all.data.agrees.collection_items collection).symm
  | html spot =>
      rw [World.answer, World.answer]
      rcases some_or_none (all.spot? spot spares) with ⟨_, _, one, other, tied⟩ | ⟨one, other⟩
      · rw [one, other]
        exact congrArg Answer.text (all.documents.shared.html_eq tied)
      · rw [one, other]
        rfl
  | subscriptions name =>
      rw [World.answer, World.answer]
      rcases some_or_none (all.client.shown name spares) with
        ⟨_, _, one, other, tied⟩ | ⟨one, other⟩
      · rw [one, other]
        exact congrArg Answer.count (all.counts_eq tied).1
      · rw [one, other]
        rfl
  | bounds name =>
      rw [World.answer, World.answer]
      rcases some_or_none (all.client.shown name spares) with
        ⟨_, _, one, other, tied⟩ | ⟨one, other⟩
      · rw [one, other]
        exact congrArg Answer.count (all.counts_eq tied).2
      · rw [one, other]
        rfl
  | failure name =>
      rw [World.answer, World.answer, all.client.failures name spares]

end World

end LiveTemplate
