import LiveTemplate.Proofs.Reactive.Account
import Mathlib.Data.List.Nodup

/-!
# All registrations

`registrations` goes through every channel of every model and through every collection.  In sound
data no registration turns up twice, so a balanced account lists the registrations of its render, in
some order.
-/

namespace LiveTemplate

/-- Whether an observer was registered for a render. -/
def Observer.isFor (observer : Observer) (render : RenderId) : Bool :=
  match observer.owner? with
  | some (owner, _) => owner == render
  | none => false

theorem Observer.isFor_iff {observer : Observer} {render : RenderId} :
    observer.isFor render = true ↔ ∃ owner, observer.owner? = some (render, owner) := by
  unfold isFor
  cases owned : observer.owner? with
  | none => simp
  | some pair =>
      obtain ⟨other, owner⟩ := pair
      simp

namespace Data

/-- Every channel on which anybody ever registered. -/
def sources (data : Data) : List Source :=
  ((List.range data.models.next).flatMap fun index =>
    (data.model ⟨index⟩).channels.map fun entry => .model ⟨index⟩ entry.1) ++
  (List.range data.collections.next).map fun index => .collection ⟨index⟩

/-- The registrations on one channel. -/
def registrationsOn (data : Data) (source : Source) : List (Subscription × Observer) :=
  (data.observers source).map fun entry => (⟨source, entry.1⟩, entry.2)

/-- Every registration, with whoever is registered. -/
def registrations (data : Data) : List (Subscription × Observer) :=
  data.sources.flatMap data.registrationsOn

variable {data : Data}

theorem mem_registrationsOn {source : Source} {subscription : Subscription} {observer : Observer} :
    (subscription, observer) ∈ data.registrationsOn source ↔
      subscription.source = source ∧ data.Holds subscription observer := by
  obtain ⟨other, id⟩ := subscription
  simp only [registrationsOn, List.mem_map, Holds, Prod.mk.injEq, Subscription.mk.injEq]
  constructor
  · rintro ⟨entry, member, ⟨rfl, rfl⟩, rfl⟩
    exact ⟨rfl, member⟩
  · rintro ⟨rfl, member⟩
    exact ⟨_, member, ⟨rfl, rfl⟩, rfl⟩

theorem mem_sources {source : Source} (used : data.observers source ≠ []) :
    source ∈ data.sources := by
  cases source with
  | model id name =>
      cases found : (data.model id).channels.lookup name with
      | none => simp [observers, Model.channel, found] at used
      | some channel =>
          obtain ⟨before, after, split, _⟩ := List.lookup_eq_some_iff.1 found
          have inside : id.index < data.models.next := by
            by_contra outside
            rw [model, Store.get?_eq_none (by omega)] at split
            simp at split
          refine List.mem_append_left _ (List.mem_flatMap.2 ⟨id.index, List.mem_range.2 inside, ?_⟩)
          rw [split]
          simp
  | collection id =>
      have inside : id.index < data.collections.next := by
        by_contra outside
        rw [observers, collection, Store.get?_eq_none (by omega)] at used
        exact used rfl
      exact List.mem_append_right _ (List.mem_map.2 ⟨id.index, List.mem_range.2 inside, rfl⟩)

theorem nodup_sources (keyed : data.Keyed) : data.sources.Nodup := by
  rw [sources, List.nodup_append', List.nodup_flatMap]
  refine ⟨⟨fun index _ => ?_, ?_⟩, ?_, ?_⟩
  · have names : ((data.model ⟨index⟩).channels.map fun entry => Source.model ⟨index⟩ entry.1) =
        ((data.model ⟨index⟩).channels.map Prod.fst).map (Source.model ⟨index⟩) := by
      rw [List.map_map]
      rfl
    rw [names]
    exact (keyed ⟨index⟩).map fun first second same => by simpa using same
  · refine List.nodup_range.imp fun {first second} differs => ?_
    intro source early late
    obtain ⟨entry, _, rfl⟩ := List.mem_map.1 early
    obtain ⟨other, _, same⟩ := List.mem_map.1 late
    simp only [Source.model.injEq, ModelId.mk.injEq] at same
    exact differs same.1.symm
  · exact List.nodup_range.map fun first second same => by simpa using same
  · intro source early late
    obtain ⟨index, _, member⟩ := List.mem_flatMap.1 early
    obtain ⟨entry, _, rfl⟩ := List.mem_map.1 member
    obtain ⟨other, _, same⟩ := List.mem_map.1 late
    cases same

theorem mem_registrations {subscription : Subscription} {observer : Observer} :
    (subscription, observer) ∈ data.registrations ↔ data.Holds subscription observer := by
  simp only [registrations, List.mem_flatMap, mem_registrationsOn]
  constructor
  · rintro ⟨_, _, _, holds⟩
    exact holds
  · intro holds
    exact ⟨_, mem_sources (List.ne_nil_of_mem holds), rfl, holds⟩

/-- No registration turns up twice on a channel. -/
theorem Sound.registrationsOn_nodup (sound : data.Sound) (source : Source) :
    ((data.registrationsOn source).map Prod.fst).Nodup := by
  have numbers : (data.registrationsOn source).map Prod.fst =
      ((data.observers source).map Prod.fst).map fun id => ⟨source, id⟩ := by
    simp only [registrationsOn, List.map_map]
    rfl
  rw [numbers]
  exact (sound.distinct source).map fun first second same => by simpa using same

/-- No registration turns up twice. -/
theorem Sound.registrations_nodup (sound : data.Sound) :
    (data.registrations.map Prod.fst).Nodup := by
  rw [registrations, List.map_flatMap, List.nodup_flatMap]
  refine ⟨fun source _ => sound.registrationsOn_nodup source, ?_⟩
  refine (nodup_sources sound.keyed).imp fun {first second} differs => ?_
  intro subscription early late
  obtain ⟨⟨_, observer⟩, member, rfl⟩ := List.mem_map.1 early
  obtain ⟨⟨_, other⟩, also, same⟩ := List.mem_map.1 late
  dsimp only at same
  rw [same] at also
  exact differs ((mem_registrationsOn.1 member).1.symm.trans (mem_registrationsOn.1 also).1)

/-- The registrations that were made for a render. -/
def registrationsFor (data : Data) (render : RenderId) : List Subscription :=
  (data.registrations.filter fun entry => entry.2.isFor render).map Prod.fst

theorem mem_registrationsFor {render : RenderId} {subscription : Subscription} :
    subscription ∈ data.registrationsFor render ↔
      ∃ observer owner, data.Holds subscription observer ∧
        observer.owner? = some (render, owner) := by
  simp only [registrationsFor, List.mem_map, List.mem_filter, Observer.isFor_iff]
  constructor
  · rintro ⟨⟨_, observer⟩, ⟨listed, owner, owned⟩, rfl⟩
    exact ⟨observer, owner, mem_registrations.1 listed, owned⟩
  · rintro ⟨observer, owner, holds, owned⟩
    exact ⟨(subscription, observer), ⟨mem_registrations.2 holds, owner, owned⟩, rfl⟩

theorem Sound.registrationsFor_nodup (sound : data.Sound) (render : RenderId) :
    (data.registrationsFor render).Nodup :=
  sound.registrations_nodup.sublist (List.filter_sublist.map _)

/-- A balanced account lists what was registered for its render. -/
theorem Balanced.perm_registrationsFor {render : RenderId} {account : Account}
    (balanced : data.Balanced render account) (sound : data.Sound) :
    (data.registrationsFor render).Perm (account.map Prod.fst) := by
  refine (List.perm_ext_iff_of_nodup (sound.registrationsFor_nodup render) balanced.distinct).2
    fun subscription => ?_
  rw [mem_registrationsFor, List.mem_map]
  constructor
  · rintro ⟨observer, owner, holds, owned⟩
    exact ⟨(subscription, owner), balanced.complete _ _ _ holds owned, rfl⟩
  · rintro ⟨⟨_, owner⟩, member, rfl⟩
    obtain ⟨observer, holds, owned⟩ := balanced.held _ _ member
    exact ⟨observer, owner, holds, owned⟩

end Data

end LiveTemplate
