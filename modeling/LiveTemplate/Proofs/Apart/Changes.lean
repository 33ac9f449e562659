import LiveTemplate.Proofs.Apart.States
import LiveTemplate.Proofs.Upkeep.Runs

/-!
# Changes in both worlds

What the client stores, changes and adds, it stores, changes and adds in both worlds.  So the same can
be read afterwards, and registrations are as before.
-/

namespace LiveTemplate

namespace Data

/-- A change of items, seen in what all collections contain. -/
theorem contents_apply (data : Data) (id : CollectionId) (change : Change) :
    (data.modifyCollection id fun collection =>
      { collection with items := change.apply collection.items }).contents =
        ⟨data.contents.lists.modify id.index change.apply⟩ := by
  simp only [contents, modifyCollection, Store.modify, Contents.mk.injEq]
  apply Array.ext_getElem?
  intro index
  simp only [Array.getElem?_map, Array.getElem?_modify]
  split
  · simp only [Option.map_map]
    rfl
  · rfl

namespace Agrees

variable {first second : Data} (agrees : first.Agrees second)

include agrees

theorem declares (model : ModelId) (property : String) :
    (second.model model).declares property = (first.model model).declares property := by
  rw [Model.declares, Model.declares, agrees.values]

/-- A value is stored in both, if the property is declared, which it is in both or in neither. -/
theorem put (model : ModelId) (property : String) (value : Value) :
    (∃ data other, first.put model property value = .ok data ∧
      second.put model property value = .ok other ∧ data.Agrees other) ∨
    ∃ error, first.put model property value = .error error ∧
      second.put model property value = .error error := by
  unfold Data.put
  rw [agrees.declares]
  split
  · refine .inl ⟨_, _, rfl, rfl, ?_⟩
    constructor
    · simpa [modifyModel] using agrees.models
    · exact agrees.contents
    · intro id
      by_cases inside : model.index < first.models.next
      · rw [model_modifyModel first _ _ _ inside,
          model_modifyModel second _ _ _ (agrees.models.symm ▸ inside)]
        split
        · rw [Model.put, Model.put, agrees.values]
        · exact agrees.values id
      · rw [modifyModel_of_absent _ inside, modifyModel_of_absent _ (agrees.models.symm ▸ inside)]
        exact agrees.values id
    · intro id
      by_cases inside : model.index < first.models.next
      · rw [model_modifyModel first _ _ _ inside,
          model_modifyModel second _ _ _ (agrees.models.symm ▸ inside)]
        split
        · exact agrees.formatters id
        · exact agrees.formatters id
      · rw [modifyModel_of_absent _ inside, modifyModel_of_absent _ (agrees.models.symm ▸ inside)]
        exact agrees.formatters id
  · exact .inr ⟨_, rfl, rfl⟩

theorem addModel (schema : Schema) :
    (first.addModel (.ofSchema schema)).2.Agrees (second.addModel (.ofSchema schema)).2 where
  models := by simpa [Data.addModel] using agrees.models
  contents := agrees.contents
  values id := by
    rw [model_addModel, model_addModel, agrees.models]
    split
    · rfl
    · exact agrees.values id
  formatters id := by
    rw [model_addModel, model_addModel, agrees.models]
    split
    · rfl
    · exact agrees.formatters id

theorem addCollection (items : List Value) :
    (first.addCollection items).2.Agrees (second.addCollection items).2 where
  models := agrees.models
  contents := by
    have contents : second.collections.items.map (·.items) = first.collections.items.map (·.items) :=
      congrArg Contents.lists agrees.contents
    simp only [Data.contents, Data.addCollection, Store.add, Array.map_push, contents]
  values := agrees.values
  formatters := agrees.formatters

theorem collection_items (id : CollectionId) :
    (second.collection id).items = (first.collection id).items := by
  rw [← contents_items, ← contents_items, agrees.contents]

theorem apply (id : CollectionId) (change : Change) :
    (first.modifyCollection id fun collection =>
      { collection with items := change.apply collection.items }).Agrees
    (second.modifyCollection id fun collection =>
      { collection with items := change.apply collection.items }) where
  models := agrees.models
  contents := by
    rw [contents_apply, contents_apply, agrees.contents]
  values := agrees.values
  formatters := agrees.formatters

end Agrees

end Data

/-- Nothing but registrations, models and collections has come. -/
structure Ties.Gathers (ties later : Ties) : Prop where
  le : ties ≤ later
  nodes : later.nodes = ties.nodes
  renders : later.renders = ties.renders
  controllers : later.controllers = ties.controllers
  roots : later.roots = ties.roots

theorem Ties.gathers_withMarks {ties : Ties} {marks : Tie Subscription} (grow : ties.marks ≤ marks) :
    ties.Gathers (ties.withMarks marks) :=
  ⟨le_withMarks grow, rfl, rfl, rfl, rfl⟩

namespace Data.Matches

variable {ties : Ties} {first second : Data} (all : Data.Matches ties first second)

include all

/-- Whatever was changed or added in both worlds, it is seen in both. -/
theorem moved {data other : Data} (moves : first.Moves data) (agrees : data.Agrees other)
    (here : ∀ source, data.observers source = first.observers source ∧
      data.nextNumber source = first.nextNumber source)
    (there : ∀ source, other.observers source = second.observers source ∧
      other.nextNumber source = second.nextNumber source) :
    ∃ later, ties.Gathers later ∧ Data.Matches later data other := by
  refine ⟨_, ?_, all.moves moves agrees here there⟩
  refine ⟨⟨le_rfl, le_rfl, le_rfl, le_rfl, le_rfl, ?_, ?_⟩, rfl, rfl, rfl, rfl⟩
  · exact all.models.ge.trans moves.models
  · exact all.collections.ge.trans moves.collections

theorem put {model : ModelId} {property : String} {value : Value} (refers : first.Refers value)
    {data other : Data} (stored : first.put model property value = .ok data)
    (also : second.put model property value = .ok other) (agrees : data.Agrees other) :
    ∃ later, ties.Gathers later ∧ Data.Matches later data other := by
  refine all.moved (put_moves all.sound refers stored) agrees ?_ ?_
  · obtain ⟨_, rfl⟩ := put_spec stored
    exact observers_modifyModel_of_channels fun _ => rfl
  · obtain ⟨_, rfl⟩ := put_spec also
    exact observers_modifyModel_of_channels fun _ => rfl

theorem apply {change : Change} (refers : first.RefersIn change) (id : CollectionId) :
    ∃ later, ties.Gathers later ∧ Data.Matches later
      (first.modifyCollection id fun collection =>
        { collection with items := change.apply collection.items })
      (second.modifyCollection id fun collection =>
        { collection with items := change.apply collection.items }) :=
  all.moved (apply_moves all.sound refers) (all.agrees.apply id change)
    (observers_modifyCollection_of_channel fun _ => rfl)
    (observers_modifyCollection_of_channel fun _ => rfl)

theorem addModel {schema : Schema} (refers : ∀ field ∈ schema, first.Refers field.initial) :
    ∃ later, ties.Gathers later ∧ Data.Matches later (first.addModel (.ofSchema schema)).2
      (second.addModel (.ofSchema schema)).2 :=
  all.moved (addModel_moves all.sound refers) (all.agrees.addModel schema)
    (observers_addModel first schema) (observers_addModel second schema)

theorem addCollection {items : List Value} (refers : ∀ item ∈ items, first.Refers item) :
    ∃ later, ties.Gathers later ∧ Data.Matches later (first.addCollection items).2
      (second.addCollection items).2 :=
  all.moved (addCollection_moves all.sound refers) (all.agrees.addCollection items)
    (observers_addCollection first items) (observers_addCollection second items)

/-- The client registers in both worlds. -/
theorem subscribe {model : ModelId} (inside : model.index < first.models.next) (channel : String)
    (hook : Hook) :
    ∃ later, ties.Gathers later ∧
      later.marks.pairs (first.subscribe model channel (.client hook)).1
        (second.subscribe model channel (.client hook)).1 ∧
      Data.Matches later (first.subscribe model channel (.client hook)).2
        (second.subscribe model channel (.client hook)).2 := by
  obtain ⟨marks, grow, tied, alike⟩ := all.registers (subscribe_registers channel _ inside)
    (subscribe_registers channel _ (all.agrees.models.symm ▸ inside)) rfl (.client hook)
  exact ⟨_, Ties.gathers_withMarks grow, tied, alike⟩

theorem subscribeChanges {collection : CollectionId}
    (inside : collection.index < first.collections.next) (hook : Hook) :
    ∃ later, ties.Gathers later ∧
      later.marks.pairs (first.subscribeChanges collection (.client hook)).1
        (second.subscribeChanges collection (.client hook)).1 ∧
      Data.Matches later (first.subscribeChanges collection (.client hook)).2
        (second.subscribeChanges collection (.client hook)).2 := by
  obtain ⟨marks, grow, tied, alike⟩ := all.registers (subscribeChanges_registers (.client hook) inside)
    (subscribeChanges_registers (.client hook) (all.agrees.collections.symm ▸ inside)) rfl
    (.clientChanges hook)
  exact ⟨_, Ties.gathers_withMarks grow, tied, alike⟩

/-- A registration ends in both worlds. -/
theorem cancel {one other : Subscription} (tied : ties.marks.pairs one other) :
    Data.Matches ties (first.cancel one) (second.cancel other) :=
  all.cancels (cancel_cancels first one) (cancel_cancels second other) (.cons tied .nil)

end Data.Matches

end LiveTemplate
