import LiveTemplate.Proofs.Reactive.Account
import Mathlib.Data.List.InsertIdx

/-!
# Changes from outside

What the client does to models and collections: it stores values, changes items, adds models and
collections, and makes and ends registrations of its own.  All of this moves on from data in the
sense of `Moves`: what was there is still there, and registrations of renders are as before.
-/

namespace LiveTemplate

namespace Data

/-- Something was changed or added, and no registration of a render was made or ended. -/
structure Moves (data other : Data) : Prop where
  sound : other.Sound
  models : data.models.next ≤ other.models.next
  collections : data.collections.next ≤ other.collections.next
  owned : ∀ subscription observer, observer.owner? ≠ none →
    (other.Holds subscription observer ↔ data.Holds subscription observer)

variable {data other : Data}

theorem Refers.mono {value : Value} (refers : data.Refers value)
    (models : data.models.next ≤ other.models.next)
    (collections : data.collections.next ≤ other.collections.next) : other.Refers value :=
  Value.Within.mono refers models collections

/-- Registrations and their numbers are the same. -/
private theorem Sound.of_observers (sound : data.Sound) (keyed : other.Keyed)
    (observers : ∀ source, other.observers source = data.observers source ∧
      other.nextNumber source = data.nextNumber source)
    (values : ∀ id property, other.Refers (other.get id property))
    (items : ∀ id, ∀ item ∈ (other.collection id).items, other.Refers item) : other.Sound where
  keyed := keyed
  distinct := fun source => by
    rw [(observers source).1]
    exact sound.distinct source
  below := by
    intro subscription observer holds
    rw [Holds, (observers _).1] at holds
    rw [(observers _).2]
    exact sound.below subscription observer holds
  values := values
  items := items

private theorem holds_congr {subscription : Subscription} {observer : Observer}
    (observers : ∀ source, other.observers source = data.observers source ∧
      other.nextNumber source = data.nextNumber source) :
    other.Holds subscription observer ↔ data.Holds subscription observer := by
  rw [Holds, (observers _).1, Holds]

theorem put_spec {id : ModelId} {property : String} {value : Value}
    (stored : data.put id property value = .ok other) :
    (data.model id).declares property = true ∧ other = data.modifyModel id (·.put property value) := by
  unfold put at stored
  split at stored
  · rename_i declared
    exact ⟨declared, (Except.ok.inj stored).symm⟩
  · cases stored

theorem get_put (model : Model ValueObserver) (property other : String) (value : Value) :
    (model.put property value).get other =
      if other = property ∧ model.declares property then value else model.get other := by
  simp only [Model.get, Model.put, Model.declares, Pairs.lookup_modify]
  by_cases same : other = property
  · subst same
    rcases Option.eq_none_or_eq_some (model.values.lookup other) with absent | ⟨old, found⟩
    · simp [absent]
    · simp [found]
  · simp [same]

theorem put_moves (sound : data.Sound) {id : ModelId} {property : String} {value : Value}
    (refers : data.Refers value) (stored : data.put id property value = .ok other) :
    data.Moves other := by
  obtain ⟨_, rfl⟩ := put_spec stored
  have observers : ∀ source,
      (data.modifyModel id (·.put property value)).observers source = data.observers source ∧
        (data.modifyModel id (·.put property value)).nextNumber source = data.nextNumber source :=
    observers_modifyModel_of_channels fun _ => rfl
  have counts : (data.modifyModel id (·.put property value)).models.next = data.models.next := by
    simp [modifyModel]
  refine ⟨sound.of_observers (fun also => ?_) observers (fun also name => ?_) (fun also item inside => ?_),
    counts.ge, le_rfl, fun _ _ _ => holds_congr observers⟩
  · by_cases inside : id.index < data.models.next
    · rw [model_modifyModel data id also _ inside]
      split
      · exact sound.keyed also
      · exact sound.keyed also
    · rw [modifyModel_of_absent _ inside]
      exact sound.keyed also
  · have old : (data.modifyModel id (·.put property value)).Refers (data.get also name) :=
      (sound.values also name).mono counts.ge le_rfl
    by_cases inside : id.index < data.models.next
    · rw [get, model_modifyModel data id also _ inside]
      split
      · rw [get_put]
        split
        · exact refers.mono counts.ge le_rfl
        · exact old
      · exact old
    · rw [get, modifyModel_of_absent _ inside]
      exact old
  · exact (sound.items also item inside).mono counts.ge le_rfl

end Data

/-- Every new item of a change refers to what is there. -/
def Data.RefersIn (data : Data) : Change → Prop
  | .insert _ item | .update _ item => data.Refers item
  | .remove _ _ => True
  | .replace items => ∀ item ∈ items, data.Refers item

namespace Data

variable {data other : Data}

theorem RefersIn.mono {change : Change} (refers : data.RefersIn change)
    (models : data.models.next ≤ other.models.next)
    (collections : data.collections.next ≤ other.collections.next) : other.RefersIn change := by
  cases change with
  | insert index item => exact Refers.mono refers models collections
  | remove index item => trivial
  | update index item => exact Refers.mono refers models collections
  | replace items => exact fun item member => (refers item member).mono models collections

theorem refers_apply {change : Change} (refers : data.RefersIn change) {items : List Value}
    (before : ∀ item ∈ items, data.Refers item) : ∀ item ∈ change.apply items, data.Refers item := by
  intro item member
  cases change with
  | insert index new =>
      rcases List.eq_or_mem_of_mem_insertIdx member with rfl | old
      · exact refers
      · exact before item old
  | remove index gone => exact before item (List.mem_of_mem_eraseIdx member)
  | update index new =>
      rcases List.mem_or_eq_of_mem_set member with old | rfl
      · exact before item old
      · exact refers
  | replace new => exact refers item member

theorem apply_moves (sound : data.Sound) {id : CollectionId} {change : Change}
    (refers : data.RefersIn change) :
    data.Moves (data.modifyCollection id fun collection =>
      { collection with items := change.apply collection.items }) := by
  generalize equal : (data.modifyCollection id fun collection =>
    { collection with items := change.apply collection.items }) = other
  have observers : ∀ source, other.observers source = data.observers source ∧
      other.nextNumber source = data.nextNumber source := by
    rw [← equal]
    exact observers_modifyCollection_of_channel fun _ => rfl
  have counts : other.collections.next = data.collections.next := by
    simp [← equal, modifyCollection]
  subst equal
  refine ⟨sound.of_observers sound.keyed observers (fun also name => ?_) (fun also item member => ?_),
    le_rfl, counts.ge, fun _ _ _ => holds_congr observers⟩
  · exact (sound.values also name).mono le_rfl counts.ge
  · by_cases inside : id.index < data.collections.next
    · rw [collection_modifyCollection data id also _ inside] at member
      split at member
      · exact (refers_apply refers (sound.items also) item member).mono le_rfl counts.ge
      · exact (sound.items also item member).mono le_rfl counts.ge
    · rw [modifyCollection_of_absent _ inside] at member
      exact (sound.items also item member).mono le_rfl counts.ge

theorem model_addModel (data : Data) (model : Model ValueObserver) (id : ModelId) :
    (data.addModel model).2.model id =
      if id.index = data.models.next then model else data.model id := by
  simp only [Data.model, addModel, Store.get?_add]
  split <;> rfl

theorem channels_addModel (data : Data) (schema : Schema) (id : ModelId) :
    ((data.addModel (.ofSchema schema)).2.model id).channels = (data.model id).channels := by
  rw [model_addModel]
  split
  · rename_i last
    rw [model, Store.get?_eq_none last.ge]
    rfl
  · rfl

theorem observers_addModel (data : Data) (schema : Schema) (source : Source) :
    (data.addModel (.ofSchema schema)).2.observers source = data.observers source ∧
      (data.addModel (.ofSchema schema)).2.nextNumber source = data.nextNumber source := by
  cases source with
  | model id name =>
      simp only [Data.observers, nextNumber, Model.channel, channels_addModel, and_self]
  | collection id => exact ⟨rfl, rfl⟩

theorem addModel_moves (sound : data.Sound) {schema : Schema}
    (refers : ∀ field ∈ schema, data.Refers field.initial) :
    data.Moves (data.addModel (.ofSchema schema)).2 := by
  have grown : data.models.next ≤ (data.addModel (.ofSchema schema)).2.models.next := by
    simp [addModel]
  have observers := data.observers_addModel schema
  refine ⟨sound.of_observers (fun id => ?_) observers (fun id name => ?_) (fun id item member => ?_),
    grown, le_rfl, fun _ _ _ => holds_congr observers⟩
  · rw [channels_addModel]
    exact sound.keyed id
  · rw [get, model_addModel]
    split
    · rw [Model.get]
      cases found : (Model.ofSchema schema : Model ValueObserver).values.lookup name with
      | none => exact .null
      | some value =>
          obtain ⟨before, after, split, _⟩ := List.lookup_eq_some_iff.1 found
          have member : (name, value) ∈
              (Model.ofSchema schema : Model ValueObserver).values := by
            rw [split]
            exact List.mem_append_right before List.mem_cons_self
          rw [Model.ofSchema] at member
          obtain ⟨field, listed, same⟩ := List.mem_map.1 member
          obtain rfl : field.initial = value := congrArg Prod.snd same
          exact (refers field listed).mono grown le_rfl
    · exact (sound.values id name).mono grown le_rfl
  · exact (sound.items id item member).mono grown le_rfl

theorem collection_addCollection (data : Data) (items : List Value) (id : CollectionId) :
    (data.addCollection items).2.collection id =
      if id.index = data.collections.next then { items := items } else data.collection id := by
  simp only [collection, addCollection, Store.get?_add]
  split <;> rfl

theorem observers_addCollection (data : Data) (items : List Value) (source : Source) :
    (data.addCollection items).2.observers source = data.observers source ∧
      (data.addCollection items).2.nextNumber source = data.nextNumber source := by
  cases source with
  | model id name => exact ⟨rfl, rfl⟩
  | collection id =>
      have channel : ((data.addCollection items).2.collection id).channel =
          (data.collection id).channel := by
        rw [collection_addCollection]
        split
        · rename_i last
          rw [collection, Store.get?_eq_none last.ge]
          rfl
        · rfl
      simp only [Data.observers, nextNumber, channel, and_self]

theorem addCollection_moves (sound : data.Sound) {items : List Value}
    (refers : ∀ item ∈ items, data.Refers item) :
    data.Moves (data.addCollection items).2 := by
  have grown : data.collections.next ≤ (data.addCollection items).2.collections.next := by
    simp [addCollection]
  have observers := data.observers_addCollection items
  refine ⟨sound.of_observers sound.keyed observers (fun id name => ?_) (fun id item member => ?_),
    le_rfl, grown, fun _ _ _ => holds_congr observers⟩
  · exact (sound.values id name).mono le_rfl grown
  · rw [collection_addCollection] at member
    split at member
    · exact (refers item member).mono le_rfl grown
    · exact (sound.items id item member).mono le_rfl grown

/-- A registration of the client was made. -/
theorem Registers.moves {subscription : Subscription} {observer : Observer}
    (registers : data.Registers other subscription observer) (sound : data.Sound)
    (client : observer.owner? = none) : data.Moves other where
  sound := registers.sound sound
  models := registers.agrees.models.ge
  collections := registers.agrees.collections.ge
  owned := by
    intro also who owned
    rw [registers.holds, or_iff_left_of_imp]
    rintro ⟨_, rfl⟩
    exact (owned client).elim

/-- A registration of the client was ended. -/
theorem cancel_moves (sound : data.Sound) {subscription : Subscription}
    (own : ∀ observer, data.Holds subscription observer → observer.owner? = none) :
    data.Moves (data.cancel subscription) where
  sound := (cancel_cancels data subscription).sound sound
  models := (cancel_cancels data subscription).agrees.models.ge
  collections := (cancel_cancels data subscription).agrees.collections.ge
  owned := by
    intro also who owned
    rw [(cancel_cancels data subscription).holds, and_iff_left_of_imp]
    intro holds member
    rw [List.mem_singleton.1 member] at holds
    exact owned (own who holds)

end Data

end LiveTemplate
