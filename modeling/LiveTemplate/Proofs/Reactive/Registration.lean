import LiveTemplate.Reactive.Data
import Mathlib.Data.List.Nodup

/-!
# Registrations

`observers` lists who is registered on one channel, in order.  Registering adds one entry at the end
of one list, under a number that was never used there; ending registrations takes entries out.
Neither of them changes what is read from models and collections, which is what `Agrees` says.
-/

namespace LiveTemplate

/-- Whoever is registered somewhere. -/
inductive Observer where
  | value (observer : ValueObserver)
  | change (observer : ChangeObserver)
deriving DecidableEq

/-- The render, and the bound node of it, that a registration was made for. -/
def Observer.owner? : Observer → Option (RenderId × BoundId)
  | .value (.path observer) => some (observer.render, observer.owner)
  | .change (.rebuild render content _) => some (render, content)
  | .change (.splice render list) => some (render, list)
  | .value (.client _) | .change (.client _) => none

namespace Data

/-- Whoever is registered on a channel, in order. -/
def observers (data : Data) : Source → List (SubscriptionId × Observer)
  | .model id channel =>
    ((data.model id).channel channel).subscribers.map fun entry => (entry.1, .value entry.2)
  | .collection id =>
    (data.collection id).channel.subscribers.map fun entry => (entry.1, .change entry.2)

/-- The number that the next registration on a channel will get. -/
def nextNumber (data : Data) : Source → SubscriptionId
  | .model id channel => ((data.model id).channel channel).next
  | .collection id => (data.collection id).channel.next

/-- There is such a model or such a collection. -/
def HasSource (data : Data) : Source → Prop
  | .model id _ => id.index < data.models.next
  | .collection id => id.index < data.collections.next

/-- No model has two channels of one name. -/
def Keyed (data : Data) : Prop :=
  ∀ id, ((data.model id).channels.map Prod.fst).Nodup

/-- Nothing that can be read differs. -/
structure Agrees (data other : Data) : Prop where
  models : other.models.next = data.models.next
  contents : other.contents = data.contents
  values : ∀ id, (other.model id).values = (data.model id).values
  formatters : ∀ id, (other.model id).formatters = (data.model id).formatters

theorem Agrees.refl (data : Data) : data.Agrees data :=
  ⟨rfl, rfl, fun _ => rfl, fun _ => rfl⟩

theorem Agrees.symm {data other : Data} (agrees : data.Agrees other) : other.Agrees data :=
  ⟨agrees.models.symm, agrees.contents.symm, fun id => (agrees.values id).symm,
    fun id => (agrees.formatters id).symm⟩

theorem Agrees.trans {first second third : Data} (agrees : first.Agrees second)
    (later : second.Agrees third) : first.Agrees third :=
  ⟨later.models.trans agrees.models, later.contents.trans agrees.contents,
    fun id => (later.values id).trans (agrees.values id),
    fun id => (later.formatters id).trans (agrees.formatters id)⟩

theorem contents_size (data : Data) : data.contents.lists.size = data.collections.next := by
  simp [contents, Store.next]

theorem contents_items (data : Data) (id : CollectionId) :
    data.contents.items id = (data.collection id).items := by
  simp only [contents, Contents.items, collection, Store.get?, Array.getElem?_map]
  cases data.collections.items[id.index]? <;> rfl

section Agrees

variable {data other : Data}

theorem Agrees.collections (agrees : data.Agrees other) :
    other.collections.next = data.collections.next := by
  rw [← contents_size, ← contents_size, agrees.contents]

theorem Agrees.get (agrees : data.Agrees other) (id : ModelId) (property : String) :
    other.get id property = data.get id property := by
  simp [Data.get, Model.get, agrees.values]

theorem Agrees.display (agrees : data.Agrees other) (id : ModelId) (property : String) :
    other.display id property = data.display id property := by
  simp [Data.display, Model.display, Model.get, agrees.values, agrees.formatters, agrees.contents]

theorem Agrees.follow (agrees : data.Agrees other) (id : ModelId) (segments : List String) :
    other.follow id segments = data.follow id segments := by
  induction segments generalizing id with
  | nil => rfl
  | cons segment later induction =>
      simp only [Data.follow, agrees.get]
      cases data.get id segment <;> simp [induction]

theorem Agrees.resolveRaw (agrees : data.Agrees other) (id : ModelId) (path : Template.Path) :
    other.resolveRaw id path = data.resolveRaw id path := by
  simp [Data.resolveRaw, agrees.follow, agrees.get]

theorem Agrees.resolve (agrees : data.Agrees other) (id : ModelId) (path : Template.Path) :
    other.resolve id path = data.resolve id path := by
  simp [Data.resolve, agrees.follow, agrees.display]

end Agrees

/-- One registration has been made. -/
structure Registers (data other : Data) (subscription : Subscription) (observer : Observer) :
    Prop where
  agrees : data.Agrees other
  keyed : data.Keyed → other.Keyed
  number : subscription.id = data.nextNumber subscription.source
  observers : ∀ source, other.observers source =
    data.observers source ++
      if source = subscription.source then [(subscription.id, observer)] else []
  nextNumber : ∀ source, other.nextNumber source =
    if source = subscription.source then data.nextNumber source + 1 else data.nextNumber source

/-- Registrations have been ended. -/
structure Cancels (data other : Data) (gone : List Subscription) : Prop where
  agrees : data.Agrees other
  keyed : data.Keyed → other.Keyed
  observers : ∀ source, other.observers source =
    (data.observers source).filter fun entry => decide (⟨source, entry.1⟩ ∉ gone)
  nextNumber : ∀ source, other.nextNumber source = data.nextNumber source

end Data

namespace Model

variable {Callback : Type}

@[simp] theorem channel_subscribe (model : Model Callback) (name other : String)
    (callback : Callback) :
    (model.subscribe name callback).channel other =
      if other = name then (model.channel name).subscribe callback else model.channel other := by
  simp only [channel, subscribe, Pairs.lookup_set]
  by_cases same : other = name <;> simp [same]

@[simp] theorem channel_unsubscribe (model : Model Callback) (name other : String)
    (id : SubscriptionId) :
    (model.unsubscribe name id).channel other =
      if other = name then (model.channel other).unsubscribe id else model.channel other := by
  simp only [channel, unsubscribe, Pairs.lookup_modify]
  by_cases same : other = name
  · subst same
    cases model.channels.lookup other <;> simp [Channel.unsubscribe]
  · simp [same]

end Model

namespace Data

theorem model_modifyModel (data : Data) (id other : ModelId)
    (change : Model ValueObserver → Model ValueObserver) (inside : id.index < data.models.next) :
    (data.modifyModel id change).model other =
      if other = id then change (data.model other) else data.model other := by
  simp only [model, modifyModel, Store.get?_modify]
  by_cases same : other = id
  · subst same
    obtain ⟨model, found⟩ := Option.isSome_iff_exists.1 (Store.get?_isSome_iff.2 inside)
    simp [found]
  · have different : other.index ≠ id.index := fun equal => same (by cases other; cases id; simp_all)
    simp [same, different]

theorem modifyModel_of_absent {data : Data} {id : ModelId}
    (change : Model ValueObserver → Model ValueObserver) (outside : ¬ id.index < data.models.next)
    (other : ModelId) : (data.modifyModel id change).model other = data.model other := by
  simp only [model, modifyModel, Store.get?_modify]
  split
  · rename_i same
    rw [Store.get?_eq_none (by omega)]
    rfl
  · rfl

theorem collection_modifyCollection (data : Data) (id other : CollectionId)
    (change : Collection ChangeObserver → Collection ChangeObserver)
    (inside : id.index < data.collections.next) :
    (data.modifyCollection id change).collection other =
      if other = id then change (data.collection other) else data.collection other := by
  simp only [collection, modifyCollection, Store.get?_modify]
  by_cases same : other = id
  · subst same
    obtain ⟨collection, found⟩ := Option.isSome_iff_exists.1 (Store.get?_isSome_iff.2 inside)
    simp [found]
  · have different : other.index ≠ id.index := fun equal => same (by cases other; cases id; simp_all)
    simp [same, different]

theorem modifyCollection_of_absent {data : Data} {id : CollectionId}
    (change : Collection ChangeObserver → Collection ChangeObserver)
    (outside : ¬ id.index < data.collections.next) (other : CollectionId) :
    (data.modifyCollection id change).collection other = data.collection other := by
  simp only [collection, modifyCollection, Store.get?_modify]
  split
  · rename_i same
    rw [Store.get?_eq_none (by omega)]
    rfl
  · rfl

theorem contents_modifyCollection {data : Data} {id : CollectionId}
    {change : Collection ChangeObserver → Collection ChangeObserver}
    (same : ∀ collection, (change collection).items = collection.items) :
    (data.modifyCollection id change).contents = data.contents := by
  simp only [contents, modifyCollection, Store.modify, Contents.mk.injEq]
  apply Array.ext_getElem?
  intro index
  simp only [Array.getElem?_map, Array.getElem?_modify]
  by_cases here : id.index = index
  · simp only [if_pos here, Option.map_map]
    congr 1
    exact funext same
  · simp [here]

/-- A change of one model that touches neither values nor formatters. -/
theorem agrees_modifyModel {data : Data} {id : ModelId}
    {change : Model ValueObserver → Model ValueObserver}
    (values : ∀ model, (change model).values = model.values)
    (formatters : ∀ model, (change model).formatters = model.formatters) :
    data.Agrees (data.modifyModel id change) := by
  by_cases inside : id.index < data.models.next
  · refine ⟨by simp [modifyModel], rfl, fun other => ?_, fun other => ?_⟩
    · rw [model_modifyModel data id other change inside]
      split <;> simp [values]
    · rw [model_modifyModel data id other change inside]
      split <;> simp [formatters]
  · exact ⟨by simp [modifyModel], rfl, fun other => by rw [modifyModel_of_absent change inside],
      fun other => by rw [modifyModel_of_absent change inside]⟩

/-- A change of one collection that does not touch its items. -/
theorem agrees_modifyCollection {data : Data} {id : CollectionId}
    {change : Collection ChangeObserver → Collection ChangeObserver}
    (items : ∀ collection, (change collection).items = collection.items) :
    data.Agrees (data.modifyCollection id change) :=
  ⟨rfl, contents_modifyCollection items, fun _ => rfl, fun _ => rfl⟩

theorem subscribe_registers {data : Data} {id : ModelId} (channel : String)
    (observer : ValueObserver) (inside : id.index < data.models.next) :
    data.Registers (data.subscribe id channel observer).2 (data.subscribe id channel observer).1
      (.value observer) where
  agrees := agrees_modifyModel (fun _ => rfl) (fun _ => rfl)
  keyed := by
    intro keyed other
    simp only [subscribe, model_modifyModel data id other _ inside]
    split
    · rw [Model.subscribe, Pairs.keys_set]
      split
      · simpa using keyed other
      · rename_i fresh
        exact List.nodup_append'.2 ⟨keyed other, by simp, by simpa using fresh⟩
    · exact keyed other
  number := rfl
  observers := by
    intro source
    cases source with
    | model other name =>
        simp only [observers, subscribe, model_modifyModel data id other _ inside,
          Source.model.injEq]
        by_cases same : other = id
        · subst same
          by_cases here : name = channel
          · subst here
            simp [Channel.subscribe]
          · simp [here]
        · simp [same]
    | collection other => simp [observers, subscribe, modifyModel, collection]
  nextNumber := by
    intro source
    cases source with
    | model other name =>
        simp only [nextNumber, subscribe, model_modifyModel data id other _ inside,
          Source.model.injEq]
        by_cases same : other = id
        · subst same
          by_cases here : name = channel
          · subst here
            simp [Channel.subscribe]
          · simp [here]
        · simp [same]
    | collection other => simp [nextNumber, subscribe, modifyModel, collection]

theorem subscribeChanges_registers {data : Data} {id : CollectionId} (observer : ChangeObserver)
    (inside : id.index < data.collections.next) :
    data.Registers (data.subscribeChanges id observer).2 (data.subscribeChanges id observer).1
      (.change observer) where
  agrees := agrees_modifyCollection fun _ => rfl
  keyed := fun keyed => keyed
  number := rfl
  observers := by
    intro source
    cases source with
    | model other name => simp [observers, subscribeChanges, modifyCollection, model]
    | collection other =>
        simp only [observers, subscribeChanges, collection_modifyCollection data id other _ inside,
          Source.collection.injEq]
        by_cases same : other = id
        · subst same
          simp [Channel.subscribe]
        · simp [same]
  nextNumber := by
    intro source
    cases source with
    | model other name => simp [nextNumber, subscribeChanges, modifyCollection, model]
    | collection other =>
        simp only [nextNumber, subscribeChanges, collection_modifyCollection data id other _ inside,
          Source.collection.injEq]
        by_cases same : other = id
        · subst same
          simp [Channel.subscribe]
        · simp [same]

theorem observers_modifyModel_of_channels {data : Data} {id : ModelId}
    {change : Model ValueObserver → Model ValueObserver}
    (channels : ∀ model, (change model).channels = model.channels) (source : Source) :
    (data.modifyModel id change).observers source = data.observers source ∧
      (data.modifyModel id change).nextNumber source = data.nextNumber source := by
  cases source with
  | collection other => exact ⟨rfl, rfl⟩
  | model other name =>
      by_cases inside : id.index < data.models.next
      · simp only [observers, nextNumber, model_modifyModel data id other _ inside]
        split <;> simp [Model.channel, channels]
      · simp [observers, nextNumber, modifyModel_of_absent change inside]

theorem observers_modifyCollection_of_channel {data : Data} {id : CollectionId}
    {change : Collection ChangeObserver → Collection ChangeObserver}
    (channel : ∀ collection, (change collection).channel = collection.channel) (source : Source) :
    (data.modifyCollection id change).observers source = data.observers source ∧
      (data.modifyCollection id change).nextNumber source = data.nextNumber source := by
  cases source with
  | model other name => exact ⟨rfl, rfl⟩
  | collection other =>
      by_cases inside : id.index < data.collections.next
      · simp only [observers, nextNumber, collection_modifyCollection data id other _ inside]
        split <;> simp [channel]
      · simp [observers, nextNumber, modifyCollection_of_absent change inside]

private theorem map_filter_number {Callback : Type} (wrap : Callback → Observer)
    (entries : List (SubscriptionId × Callback)) (source : Source) (id : SubscriptionId) :
    (entries.filter (·.1 != id)).map (fun entry => (entry.1, wrap entry.2)) =
      (entries.map fun entry => (entry.1, wrap entry.2)).filter fun entry =>
        decide ((⟨source, entry.1⟩ : Subscription) ∉ [⟨source, id⟩]) := by
  rw [List.filter_map]
  congr 1
  refine List.filter_congr fun entry _ => ?_
  simp [bne, beq_eq_decide]

private theorem filter_elsewhere (entries : List (SubscriptionId × Observer)) {source : Source}
    {subscription : Subscription} (elsewhere : source ≠ subscription.source) :
    entries.filter (fun entry => decide ((⟨source, entry.1⟩ : Subscription) ∉ [subscription])) =
      entries := by
  refine List.filter_eq_self.2 fun entry _ => ?_
  have different : (⟨source, entry.1⟩ : Subscription) ≠ subscription := fun same =>
    elsewhere (same ▸ rfl)
  simpa using different

private theorem cancel_model (data : Data) (id : ModelId) (channel : String) (number : SubscriptionId) :
    data.Cancels (data.cancel ⟨.model id channel, number⟩) [⟨.model id channel, number⟩] := by
  refine ⟨agrees_modifyModel (fun _ => rfl) (fun _ => rfl), fun keyed other => ?_,
    fun source => ?_, fun source => ?_⟩
  · by_cases inside : id.index < data.models.next
    · simp only [cancel, model_modifyModel data id other _ inside]
      split
      · rw [Model.unsubscribe, Pairs.keys_modify]
        exact keyed other
      · exact keyed other
    · simpa [cancel, modifyModel_of_absent _ inside] using keyed other
  · by_cases here : source = .model id channel
    · subst here
      simp only [cancel, observers]
      by_cases inside : id.index < data.models.next
      · simpa only [model_modifyModel data id id _ inside, if_true, Model.channel_unsubscribe,
          Channel.unsubscribe] using map_filter_number .value _ _ number
      · have empty : data.model id = {} := by
          simp [model, Store.get?_eq_none (Nat.not_lt.1 inside)]
        simp [modifyModel_of_absent _ inside, empty, Model.channel]
    · rw [filter_elsewhere _ here]
      cases source with
      | collection other => rfl
      | model other name =>
          simp only [cancel, observers]
          by_cases inside : id.index < data.models.next
          · rw [model_modifyModel data id other _ inside]
            split
            · rename_i same
              subst same
              have differs : name ≠ channel := fun equal => here (by rw [equal])
              simp [differs]
            · rfl
          · rw [modifyModel_of_absent _ inside]
  · cases source with
    | collection other => rfl
    | model other name =>
        simp only [cancel, nextNumber]
        by_cases inside : id.index < data.models.next
        · rw [model_modifyModel data id other _ inside]
          split
          · simp only [Model.channel_unsubscribe]
            split <;> rfl
          · rfl
        · rw [modifyModel_of_absent _ inside]

private theorem cancel_collection (data : Data) (id : CollectionId) (number : SubscriptionId) :
    data.Cancels (data.cancel ⟨.collection id, number⟩) [⟨.collection id, number⟩] := by
  refine ⟨agrees_modifyCollection fun _ => rfl, fun keyed => keyed, fun source => ?_,
    fun source => ?_⟩
  · by_cases here : source = .collection id
    · subst here
      simp only [cancel, observers]
      by_cases inside : id.index < data.collections.next
      · simpa only [collection_modifyCollection data id id _ inside, if_true,
          Channel.unsubscribe] using map_filter_number .change _ _ number
      · have empty : data.collection id = {} := by
          simp [collection, Store.get?_eq_none (Nat.not_lt.1 inside)]
        simp [modifyCollection_of_absent _ inside, empty]
    · rw [filter_elsewhere _ here]
      cases source with
      | model other name => rfl
      | collection other =>
          simp only [cancel, observers]
          have differs : other ≠ id := fun equal => here (by rw [equal])
          by_cases inside : id.index < data.collections.next
          · rw [collection_modifyCollection data id other _ inside, if_neg differs]
          · rw [modifyCollection_of_absent _ inside]
  · cases source with
    | model other name => rfl
    | collection other =>
        simp only [cancel, nextNumber]
        by_cases inside : id.index < data.collections.next
        · rw [collection_modifyCollection data id other _ inside]
          split <;> rfl
        · rw [modifyCollection_of_absent _ inside]

theorem cancel_cancels (data : Data) (subscription : Subscription) :
    data.Cancels (data.cancel subscription) [subscription] := by
  obtain ⟨source, number⟩ := subscription
  cases source with
  | model id channel => exact cancel_model data id channel number
  | collection id => exact cancel_collection data id number

theorem Cancels.nil (data : Data) : data.Cancels data [] :=
  ⟨.refl data, id, fun source => by simp, fun _ => rfl⟩

theorem Cancels.trans {first second third : Data} {gone also : List Subscription}
    (cancels : first.Cancels second gone) (later : second.Cancels third also) :
    first.Cancels third (gone ++ also) where
  agrees := cancels.agrees.trans later.agrees
  keyed := fun keyed => later.keyed (cancels.keyed keyed)
  observers := by
    intro source
    rw [later.observers, cancels.observers, List.filter_filter]
    refine List.filter_congr fun entry _ => ?_
    simp [Bool.and_comm]
  nextNumber := fun source => (later.nextNumber source).trans (cancels.nextNumber source)

theorem cancelAll_cancels (data : Data) (gone : List Subscription) :
    data.Cancels (data.cancelAll gone) gone := by
  induction gone generalizing data with
  | nil => exact .nil data
  | cons first later induction =>
      exact (cancel_cancels data first).trans (induction (data.cancel first))

end Data

end LiveTemplate
