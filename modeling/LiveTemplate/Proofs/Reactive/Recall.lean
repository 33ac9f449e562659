import LiveTemplate.Proofs.Reactive.Change

/-!
# What registrations have been through

No number is given out twice, and so a registration that is in force, and whose number had been
given out earlier, was in force then, for the same observer.  Besides, whoever changes something
changes what one channel announces and nothing else.
-/

namespace LiveTemplate.Data

variable {data other : Data}

/-- What is registered under an early number was registered early. -/
structure Recalls (data other : Data) : Prop where
  numbers : ∀ source, data.nextNumber source ≤ other.nextNumber source
  holds : ∀ subscription observer, other.Holds subscription observer →
    subscription.id < data.nextNumber subscription.source → data.Holds subscription observer

theorem Recalls.refl (data : Data) : data.Recalls data :=
  ⟨fun _ => le_rfl, fun _ _ holds _ => holds⟩

theorem Recalls.trans {last : Data} (first : data.Recalls other) (second : other.Recalls last) :
    data.Recalls last where
  numbers := fun source => (first.numbers source).trans (second.numbers source)
  holds := fun _ _ holds early => first.holds _ _
    (second.holds _ _ holds (early.trans_le (first.numbers _))) early

theorem Recalls.of_observers (same : ∀ source, other.observers source = data.observers source ∧
    other.nextNumber source = data.nextNumber source) : data.Recalls other where
  numbers := fun source => (same source).2.ge
  holds := fun subscription observer holds _ => by
    rw [Holds, (same _).1] at holds
    exact holds

theorem Registers.recalls {subscription : Subscription} {observer : Observer}
    (registers : data.Registers other subscription observer) : data.Recalls other where
  numbers := by
    intro source
    rw [registers.nextNumber]
    split
    · exact Nat.le_succ _
    · exact le_rfl
  holds := by
    intro also who holds early
    rcases registers.holds.1 holds with old | ⟨rfl, rfl⟩
    · exact old
    · exact absurd early (by rw [registers.number]; exact lt_irrefl _)

theorem Cancels.recalls {gone : List Subscription} (cancels : data.Cancels other gone) :
    data.Recalls other where
  numbers := fun source => (cancels.nextNumber source).ge
  holds := fun _ _ holds _ => (cancels.holds.1 holds).1

theorem Extends.recalls {render : RenderId} {account : Account}
    (extended : data.Extends render other account) : data.Recalls other where
  numbers := extended.nextNumber
  holds := by
    intro subscription observer holds early
    rcases extended.made _ _ holds with old | ⟨owner, _, member⟩
    · exact old
    · exact absurd early (Nat.not_lt.2 (extended.noted _ _ member).1)

/-- There is a model or a collection for every registration. -/
theorem Holds.hasSource {subscription : Subscription} {observer : Observer}
    (holds : data.Holds subscription observer) : data.HasSource subscription.source := by
  obtain ⟨source, id⟩ := subscription
  cases source with
  | model model channel =>
      by_contra outside
      rw [Holds, observers, Data.model, Store.get?_eq_none (Nat.not_lt.1 outside)] at holds
      cases holds
  | collection collection =>
      by_contra outside
      rw [Holds, observers, Data.collection, Store.get?_eq_none (Nat.not_lt.1 outside)] at holds
      cases holds

/-- Only what some channels announce has been changed.  New models and collections may have come. -/
structure Alters (data other : Data) (touched : Source → Prop) : Prop where
  values : ∀ model segment, model.index < data.models.next →
    ¬ touched (.model model (changeChannel segment)) →
      other.get model segment = data.get model segment
  formatters : ∀ model : ModelId, model.index < data.models.next →
    (other.model model).formatters = (data.model model).formatters
  items : ∀ collection : CollectionId, collection.index < data.collections.next →
    ¬ touched (.collection collection) →
      other.contents.items collection = data.contents.items collection

theorem Agrees.alters (agrees : data.Agrees other) : data.Alters other fun _ => False where
  values := fun model segment _ _ => agrees.get model segment
  formatters := fun model _ => agrees.formatters model
  items := fun collection _ _ => by rw [agrees.contents]

theorem put_alters {model : ModelId} {property : String} {value : Value}
    (stored : data.put model property value = .ok other) :
    data.Recalls other ∧ data.Alters other (· = .model model (changeChannel property)) ∧
      other.get model property = value := by
  obtain ⟨declared, rfl⟩ := put_spec stored
  have there : model.index < data.models.next := by
    by_contra outside
    rw [Data.model, Store.get?_eq_none (Nat.not_lt.1 outside)] at declared
    cases declared
  refine ⟨.of_observers (observers_modifyModel_of_channels fun _ => rfl), ⟨?_, ?_, ?_⟩, ?_⟩
  · intro holder segment _ apart
    rw [get, get, model_modifyModel data model holder _ there]
    split
    · rename_i same
      subst same
      rw [get_put, if_neg]
      rintro ⟨rfl, _⟩
      exact apart rfl
    · rfl
  · intro holder _
    rw [model_modifyModel data model holder _ there]
    split
    · rename_i same
      rw [same]
      rfl
    · rfl
  · exact fun _ _ _ => rfl
  · rw [get, model_modifyModel data model model _ there, if_pos rfl, get_put, if_pos ⟨rfl, declared⟩]

theorem apply_alters {id : CollectionId} {change : Change}
    (stored : other = data.modifyCollection id fun collection =>
      { collection with items := change.apply collection.items }) :
    data.Recalls other ∧ data.Alters other (· = .collection id) ∧
      (id.index < data.collections.next →
        other.contents.items id = change.apply (data.contents.items id)) := by
  subst stored
  refine ⟨.of_observers (observers_modifyCollection_of_channel fun _ => rfl), ⟨?_, ?_, ?_⟩, ?_⟩
  · exact fun _ _ _ _ => rfl
  · exact fun _ _ => rfl
  · intro collection _ apart
    by_cases there : id.index < data.collections.next
    · rw [contents_items, contents_items, collection_modifyCollection data id collection _ there,
        if_neg]
      rintro rfl
      exact apart rfl
    · rw [contents_items, contents_items, modifyCollection_of_absent _ there]
  · intro there
    rw [contents_items, contents_items, collection_modifyCollection data id id _ there, if_pos rfl]

theorem addModel_alters (data : Data) (schema : Schema) :
    data.Recalls (data.addModel (.ofSchema schema)).2 ∧
      data.Alters (data.addModel (.ofSchema schema)).2 fun _ => False := by
  have same : ∀ id : ModelId, id.index < data.models.next →
      (data.addModel (.ofSchema schema)).2.model id = data.model id := by
    intro id there
    rw [model_addModel, if_neg there.ne]
  refine ⟨.of_observers (data.observers_addModel schema), ⟨?_, ?_, fun _ _ _ => rfl⟩⟩
  · intro id segment there _
    rw [get, same id there, get]
  · intro id there
    rw [same id there]

theorem addCollection_alters (data : Data) (items : List Value) :
    data.Recalls (data.addCollection items).2 ∧
      data.Alters (data.addCollection items).2 fun _ => False := by
  refine ⟨.of_observers (data.observers_addCollection items), ⟨fun _ _ _ _ => rfl, fun _ _ => rfl, ?_⟩⟩
  intro id there _
  rw [contents_items, contents_items, collection_addCollection, if_neg there.ne]

end LiveTemplate.Data
