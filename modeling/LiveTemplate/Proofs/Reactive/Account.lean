import LiveTemplate.Proofs.Reactive.Registration
import Mathlib.Order.Basic
import Mathlib.Data.Nat.Basic

/-!
# Accounts

An account lists registrations together with the bound nodes that hold them.  It is balanced for a
render if it lists exactly the registrations that were made for the render, each of them once and
under the right node.  Building extends the account, ending registrations takes entries out of it.
-/

namespace LiveTemplate

/-- Every model and every collection that a value refers to is there. -/
inductive Value.Within (models collections : Nat) : Value → Prop
  | null : Within models collections .null
  | bool (value : Bool) : Within models collections (.bool value)
  | number (value : Float) : Within models collections (.number value)
  | text (value : String) : Within models collections (.text value)
  | list {items : List Value} (inside : ∀ item ∈ items, Within models collections item) :
      Within models collections (.list items)
  | model {id : ModelId} (inside : id.index < models) : Within models collections (.model id)
  | collection {id : CollectionId} (inside : id.index < collections) :
      Within models collections (.collection id)

theorem Value.Within.mono {models collections moreModels moreCollections : Nat} {value : Value}
    (within : value.Within models collections) (moreM : models ≤ moreModels)
    (moreC : collections ≤ moreCollections) : value.Within moreModels moreCollections := by
  induction within with
  | null => exact .null
  | bool value => exact .bool value
  | number value => exact .number value
  | text value => exact .text value
  | list _ induction => exact .list induction
  | model inside => exact .model (by omega)
  | collection inside => exact .collection (by omega)

/-- Registrations with the bound nodes that hold them. -/
abbrev Account : Type := List (Subscription × BoundId)

namespace Data

/-- Everything that a value refers to is there. -/
def Refers (data : Data) (value : Value) : Prop :=
  value.Within data.models.next data.collections.next

theorem Agrees.refers {data other : Data} (agrees : data.Agrees other) {value : Value} :
    other.Refers value ↔ data.Refers value := by
  rw [Refers, agrees.models, agrees.collections, Refers]

/-- An observer is registered under a number of a channel. -/
def Holds (data : Data) (subscription : Subscription) (observer : Observer) : Prop :=
  (subscription.id, observer) ∈ data.observers subscription.source

/-- Registrations are numbered, and values refer to what is there. -/
structure Sound (data : Data) : Prop where
  keyed : data.Keyed
  distinct : ∀ source, ((data.observers source).map Prod.fst).Nodup
  below : ∀ subscription observer, data.Holds subscription observer →
    subscription.id < data.nextNumber subscription.source
  values : ∀ id property, data.Refers (data.get id property)
  items : ∀ id, ∀ item ∈ (data.collection id).items, data.Refers item

theorem Sound.unique {data : Data} (sound : data.Sound) {subscription : Subscription}
    {observer other : Observer} (holds : data.Holds subscription observer)
    (also : data.Holds subscription other) : observer = other := by
  have same := List.inj_on_of_nodup_map (sound.distinct subscription.source) holds also rfl
  exact congrArg Prod.snd same

theorem Sound.of_agrees {data other : Data} (sound : data.Sound) (agrees : data.Agrees other)
    (keyed : other.Keyed) (distinct : ∀ source, ((other.observers source).map Prod.fst).Nodup)
    (below : ∀ subscription observer, other.Holds subscription observer →
      subscription.id < other.nextNumber subscription.source) : other.Sound where
  keyed := keyed
  distinct := distinct
  below := below
  values := fun id property => by
    rw [agrees.get, agrees.refers]
    exact sound.values id property
  items := fun id item member => by
    rw [agrees.refers]
    rw [← contents_items, agrees.contents, contents_items] at member
    exact sound.items id item member

theorem Registers.holds {data other : Data} {subscription : Subscription} {observer : Observer}
    (registers : data.Registers other subscription observer) {also : Subscription}
    {who : Observer} :
    other.Holds also who ↔ data.Holds also who ∨ also = subscription ∧ who = observer := by
  obtain ⟨source, number⟩ := also
  simp only [Holds, registers.observers, List.mem_append]
  by_cases here : source = subscription.source
  · subst here
    simp only [if_true, List.mem_singleton, Prod.mk.injEq]
    refine or_congr_right (and_congr_left' ⟨fun same => ?_, fun same => ?_⟩)
    · rw [same]
    · rw [← same]
  · have differs : (⟨source, number⟩ : Subscription) ≠ subscription := fun same =>
      here (same ▸ rfl)
    simp [here, differs]

theorem Cancels.holds {data other : Data} {gone : List Subscription}
    (cancels : data.Cancels other gone) {subscription : Subscription} {observer : Observer} :
    other.Holds subscription observer ↔
      data.Holds subscription observer ∧ subscription ∉ gone := by
  simp [Holds, cancels.observers]

theorem Registers.sound {data other : Data} {subscription : Subscription} {observer : Observer}
    (registers : data.Registers other subscription observer) (sound : data.Sound) :
    other.Sound := by
  refine sound.of_agrees registers.agrees (registers.keyed sound.keyed) (fun source => ?_)
    fun also who holds => ?_
  · rw [registers.observers]
    split
    · rename_i here
      subst here
      rw [List.map_append, List.nodup_append']
      refine ⟨sound.distinct _, by simp, ?_⟩
      intro number earlier later
      obtain ⟨⟨_, who⟩, member, rfl⟩ := List.mem_map.1 earlier
      have bound := sound.below ⟨subscription.source, _⟩ who member
      dsimp only at bound later
      rw [List.mem_singleton.1 later, registers.number] at bound
      exact lt_irrefl _ bound
    · simpa using sound.distinct source
  · rw [registers.nextNumber]
    rcases registers.holds.1 holds with earlier | ⟨rfl, _⟩
    · have bound := sound.below also who earlier
      split
      · exact Nat.lt_succ_of_lt bound
      · exact bound
    · rw [if_pos rfl, registers.number]
      exact Nat.lt_succ_self _

theorem Cancels.sound {data other : Data} {gone : List Subscription}
    (cancels : data.Cancels other gone) (sound : data.Sound) : other.Sound := by
  refine sound.of_agrees cancels.agrees (cancels.keyed sound.keyed) (fun source => ?_)
    fun subscription observer holds => ?_
  · rw [cancels.observers]
    exact (sound.distinct source).sublist (List.filter_sublist.map _)
  · rw [cancels.nextNumber]
    exact sound.below subscription observer (cancels.holds.1 holds).1

/-- Registrations were added for a render, exactly those of the account. -/
structure Extends (render : RenderId) (data other : Data) (account : Account) : Prop where
  agrees : data.Agrees other
  sound : data.Sound → other.Sound
  nextNumber : ∀ source, data.nextNumber source ≤ other.nextNumber source
  kept : ∀ subscription observer, data.Holds subscription observer →
    other.Holds subscription observer
  made : ∀ subscription observer, other.Holds subscription observer →
    data.Holds subscription observer ∨
      ∃ owner, observer.owner? = some (render, owner) ∧ (subscription, owner) ∈ account
  noted : ∀ subscription owner, (subscription, owner) ∈ account →
    data.nextNumber subscription.source ≤ subscription.id ∧
      subscription.id < other.nextNumber subscription.source ∧
      ∃ observer, other.Holds subscription observer ∧ observer.owner? = some (render, owner)
  distinct : (account.map Prod.fst).Nodup

theorem Extends.refl (render : RenderId) (data : Data) : data.Extends render data [] :=
  ⟨.refl data, id, fun _ => le_rfl, fun _ _ => id, fun _ _ => .inl, by simp, by simp⟩

theorem Extends.trans {render : RenderId} {first second third : Data} {account later : Account}
    (extends₁ : first.Extends render second account)
    (extends₂ : second.Extends render third later) :
    first.Extends render third (account ++ later) where
  agrees := extends₁.agrees.trans extends₂.agrees
  sound := fun sound => extends₂.sound (extends₁.sound sound)
  nextNumber := fun source => (extends₁.nextNumber source).trans (extends₂.nextNumber source)
  kept := fun _ _ holds => extends₂.kept _ _ (extends₁.kept _ _ holds)
  made := by
    intro subscription observer holds
    rcases extends₂.made _ _ holds with earlier | ⟨owner, owned, member⟩
    · exact (extends₁.made _ _ earlier).imp_right fun ⟨owner, owned, member⟩ =>
        ⟨owner, owned, List.mem_append_left _ member⟩
    · exact .inr ⟨owner, owned, List.mem_append_right _ member⟩
  noted := by
    intro subscription owner member
    rcases List.mem_append.1 member with early | late
    · obtain ⟨low, high, observer, holds, owned⟩ := extends₁.noted _ _ early
      exact ⟨low, high.trans_le (extends₂.nextNumber _), observer, extends₂.kept _ _ holds, owned⟩
    · obtain ⟨low, high, observer, holds, owned⟩ := extends₂.noted _ _ late
      exact ⟨(extends₁.nextNumber _).trans low, high, observer, holds, owned⟩
  distinct := by
    rw [List.map_append, List.nodup_append']
    refine ⟨extends₁.distinct, extends₂.distinct, ?_⟩
    intro subscription early late
    obtain ⟨⟨_, owner⟩, member, rfl⟩ := List.mem_map.1 early
    obtain ⟨⟨_, other⟩, also, same⟩ := List.mem_map.1 late
    dsimp only at same
    subst same
    have high := (extends₁.noted _ _ member).2.1
    have low := (extends₂.noted _ _ also).1
    exact absurd (high.trans_le low) (lt_irrefl _)

theorem Extends.perm {render : RenderId} {data other : Data} {account also : Account}
    (extended : data.Extends render other account) (same : account.Perm also) :
    data.Extends render other also where
  agrees := extended.agrees
  sound := extended.sound
  nextNumber := extended.nextNumber
  kept := extended.kept
  made := fun _ _ holds => (extended.made _ _ holds).imp_right fun ⟨owner, owned, member⟩ =>
    ⟨owner, owned, same.subset member⟩
  noted := fun _ _ member => extended.noted _ _ (same.symm.subset member)
  distinct := (same.map Prod.fst).nodup_iff.1 extended.distinct

theorem Registers.extends {data other : Data} {subscription : Subscription} {observer : Observer}
    {render : RenderId} {owner : BoundId}
    (registers : data.Registers other subscription observer)
    (owned : observer.owner? = some (render, owner)) :
    data.Extends render other [(subscription, owner)] where
  agrees := registers.agrees
  sound := registers.sound
  nextNumber := by
    intro source
    rw [registers.nextNumber]
    split
    · exact Nat.le_succ _
    · exact le_rfl
  kept := fun _ _ holds => registers.holds.2 (.inl holds)
  made := by
    intro also who holds
    rcases registers.holds.1 holds with earlier | ⟨rfl, rfl⟩
    · exact .inl earlier
    · exact .inr ⟨owner, owned, by simp⟩
  noted := by
    intro also holder member
    obtain ⟨rfl, rfl⟩ := Prod.mk.injEq .. ▸ List.mem_singleton.1 member
    refine ⟨registers.number.ge, ?_, observer, registers.holds.2 (.inr ⟨rfl, rfl⟩), owned⟩
    rw [registers.nextNumber, if_pos rfl, registers.number]
    exact Nat.lt_succ_self _
  distinct := by simp

/-- The account lists the registrations of a render, each once and under the node that holds it. -/
structure Balanced (data : Data) (render : RenderId) (account : Account) : Prop where
  distinct : (account.map Prod.fst).Nodup
  held : ∀ subscription owner, (subscription, owner) ∈ account →
    ∃ observer, data.Holds subscription observer ∧ observer.owner? = some (render, owner)
  complete : ∀ subscription observer owner, data.Holds subscription observer →
    observer.owner? = some (render, owner) → (subscription, owner) ∈ account

theorem Balanced.perm {data : Data} {render : RenderId} {account also : Account}
    (balanced : data.Balanced render account) (same : account.Perm also) :
    data.Balanced render also :=
  ⟨(same.map Prod.fst).nodup_iff.1 balanced.distinct,
    fun _ _ member => balanced.held _ _ (same.symm.subset member),
    fun _ _ _ holds owned => same.subset (balanced.complete _ _ _ holds owned)⟩

/-- Registrations of others do not count. -/
theorem Balanced.of_same {data other : Data} {render : RenderId} {account : Account}
    (balanced : data.Balanced render account)
    (same : ∀ subscription observer owner, observer.owner? = some (render, owner) →
      (other.Holds subscription observer ↔ data.Holds subscription observer)) :
    other.Balanced render account where
  distinct := balanced.distinct
  held := by
    intro subscription owner member
    obtain ⟨observer, holds, owned⟩ := balanced.held _ _ member
    exact ⟨observer, (same _ _ _ owned).2 holds, owned⟩
  complete := fun _ _ _ holds owned =>
    balanced.complete _ _ _ ((same _ _ _ owned).1 holds) owned

theorem Balanced.extended {data other : Data} {render : RenderId} {account more : Account}
    (balanced : data.Balanced render account) (sound : data.Sound)
    (extended : data.Extends render other more) : other.Balanced render (account ++ more) where
  distinct := by
    rw [List.map_append, List.nodup_append']
    refine ⟨balanced.distinct, extended.distinct, ?_⟩
    intro subscription early late
    obtain ⟨⟨_, owner⟩, member, rfl⟩ := List.mem_map.1 early
    obtain ⟨⟨_, other⟩, also, same⟩ := List.mem_map.1 late
    dsimp only at same
    subst same
    obtain ⟨observer, holds, _⟩ := balanced.held _ _ member
    have high := sound.below _ _ holds
    have low := (extended.noted _ _ also).1
    exact absurd (high.trans_le low) (lt_irrefl _)
  held := by
    intro subscription owner member
    rcases List.mem_append.1 member with early | late
    · obtain ⟨observer, holds, owned⟩ := balanced.held _ _ early
      exact ⟨observer, extended.kept _ _ holds, owned⟩
    · exact (extended.noted _ _ late).2.2
  complete := by
    intro subscription observer owner holds owned
    rcases extended.made _ _ holds with earlier | ⟨holder, also, member⟩
    · exact List.mem_append_left _ (balanced.complete _ _ _ earlier owned)
    · obtain rfl : owner = holder := by simpa [owned] using also
      exact List.mem_append_right _ member

/-- Registrations of another render are not touched by an extension. -/
theorem Balanced.beside {data other : Data} {render busy : RenderId} {account more : Account}
    (balanced : data.Balanced render account) (apart : render ≠ busy)
    (extended : data.Extends busy other more) : other.Balanced render account := by
  refine balanced.of_same fun subscription observer owner owned => ⟨fun holds => ?_, ?_⟩
  · rcases extended.made _ _ holds with earlier | ⟨holder, also, _⟩
    · exact earlier
    · exact (apart (by simpa using congrArg (Option.map Prod.fst) (owned.symm.trans also))).elim
  · exact extended.kept _ _

/-- Ending part of the registrations leaves the others. -/
theorem Balanced.cancelled {data other : Data} {render : RenderId} {gone left : Account}
    (balanced : data.Balanced render (gone ++ left))
    (cancels : data.Cancels other (gone.map Prod.fst)) : other.Balanced render left := by
  have distinct := balanced.distinct
  rw [List.map_append, List.nodup_append'] at distinct
  refine ⟨distinct.2.1, fun subscription owner member => ?_,
    fun subscription observer owner holds owned => ?_⟩
  · obtain ⟨observer, holds, owned⟩ := balanced.held _ _ (List.mem_append_right _ member)
    exact ⟨observer, cancels.holds.2 ⟨holds, fun early =>
      distinct.2.2 early (List.mem_map_of_mem member)⟩, owned⟩
  · obtain ⟨earlier, spared⟩ := cancels.holds.1 holds
    rcases List.mem_append.1 (balanced.complete _ _ _ earlier owned) with member | member
    · exact (spared (List.mem_map_of_mem member)).elim
    · exact member

/-- Ending registrations of one render leaves those of another. -/
theorem Balanced.aside {data other : Data} {render busy : RenderId} {account gone : Account}
    (balanced : data.Balanced render account) (apart : render ≠ busy) (sound : data.Sound)
    (held : ∀ subscription owner, (subscription, owner) ∈ gone →
      ∃ observer, data.Holds subscription observer ∧ observer.owner? = some (busy, owner))
    (cancels : data.Cancels other (gone.map Prod.fst)) : other.Balanced render account := by
  refine balanced.of_same fun subscription observer owner owned => ?_
  rw [cancels.holds, and_iff_left_of_imp]
  intro holds member
  obtain ⟨⟨_, holder⟩, listed, rfl⟩ := List.mem_map.1 member
  obtain ⟨other, also, theirs⟩ := held _ _ listed
  obtain rfl := sound.unique holds also
  exact apart (by simpa using congrArg (Option.map Prod.fst) (owned.symm.trans theirs))

end Data

end LiveTemplate
