import LiveTemplate.Proofs.Upkeep.Replay
import LiveTemplate.Proofs.View.Lossless

/-!
# Changes are a faithful log

Client code that subscribes to a collection may keep a copy of the items for itself and bring it up to
date by the changes that it is told, without ever looking at the collection again.  As long as no
mutation is nested in another, each position that it is told is one of its copy, and after every call
the copy has the items of the collection.
-/

namespace LiveTemplate

namespace Data

variable {data other : Data} {collection : CollectionId} {id : SubscriptionId}

theorem isSubscribed_eq (data : Data) (collection : CollectionId) (id : SubscriptionId) :
    (data.collection collection).channel.isSubscribed id = data.isHeld ⟨.collection collection, id⟩ := by
  simp [isHeld, observers, Channel.isSubscribed, Function.comp_def]

/-- Whoever registered early has been registered all the time. -/
theorem Recalls.isSubscribed (recalls : data.Recalls other)
    (early : id < data.nextNumber (.collection collection))
    (there : (other.collection collection).channel.isSubscribed id = true) :
    (data.collection collection).channel.isSubscribed id = true := by
  rw [isSubscribed_eq, isHeld_iff] at there ⊢
  obtain ⟨observer, holds⟩ := there
  exact ⟨observer, recalls.holds _ observer holds early⟩

end Data

namespace World

variable {Client : Type} {world after : World Client}

theorem Chronicled.recalls (chronicled : Chronicled world after) (sound : world.Sound) :
    world.data.Recalls after.data := by
  obtain ⟨log, chronicle⟩ := chronicled
  exact (chronicle.segment sound.data.below).recalls

theorem Sound.subscribers_nodup (sound : world.Sound) (collection : CollectionId) :
    ((world.data.collection collection).channel.subscribers.map Prod.fst).Nodup := by
  have numbers := sound.data.distinct (.collection collection)
  rwa [Data.observers, List.map_map] at numbers

end World

/-- Client code that keeps a copy of a collection. -/
structure Replica (Client : Type) where
  collection : CollectionId
  /-- The callback by which it hears of changes. -/
  hook : Hook
  /-- The number of its registration. -/
  id : SubscriptionId
  /-- The copy.  There is none any more once a change did not fit it. -/
  copy : Client → Option (List Value)

namespace Replica

variable {Client : Type} (replica : Replica Client)

/-- The items of the collection. -/
def items (world : World Client) : List Value :=
  (world.data.collection replica.collection).items

/-- Whether it is told of changes. -/
def Listens (world : World Client) : Prop :=
  (world.data.collection replica.collection).channel.isSubscribed replica.id = true

/-- The copy has the items of the collection. -/
def Faithful (world : World Client) : Prop :=
  replica.Listens world → replica.copy world.client = some (replica.items world)

/-- When it is told a change, it makes the change to its copy and leaves the collection alone. -/
def Copies (behaviour : Behaviour Client) : Prop :=
  ∀ change world,
    replica.copy (behaviour.change replica.hook change world).client =
        (replica.copy world.client).bind change.replay? ∧
      replica.items (behaviour.change replica.hook change world) = replica.items world

/-- Both the collection and the copy are left alone. -/
def Spares (world after : World Client) : Prop :=
  replica.items after = replica.items world ∧ replica.copy after.client = replica.copy world.client

/-- Whoever else is told of a change leaves the collection and the copy alone.  So no mutation is nested
in another. -/
def Unnested (behaviour : Behaviour Client) (change : Change) :
    List (SubscriptionId × ChangeObserver) → World Client → Prop
  | [], _ => True
  | (id, observer) :: later, world =>
    if (world.data.collection replica.collection).channel.isSubscribed id then
      (id ≠ replica.id → replica.Spares world (world.tellChange behaviour change observer)) ∧
        Unnested behaviour change later (world.tellChange behaviour change observer)
    else Unnested behaviour change later world

/-- The collection has been changed, and nobody has been told yet. -/
def changed (change : Change) (world : World Client) : World Client :=
  { world with data := world.data.modifyCollection replica.collection fun collection =>
      { collection with items := change.apply collection.items } }

/-- A call of a mutation while the copy is kept up to date, and no other is nested in it. -/
structure Calls (behaviour : Behaviour Client) (mutation : Mutation) (world : World Client) : Prop where
  copies : replica.Copies behaviour
  refers : ∀ change, mutation.change? (replica.items world) = some change →
    world.data.RefersIn change
  told : ∀ change, mutation.change? (replica.items world) = some change →
    World.ToldChange behaviour replica.collection change
      ((replica.changed change world).data.collection replica.collection).channel.subscribers
      (replica.changed change world)
  unnested : ∀ change, mutation.change? (replica.items world) = some change →
    replica.Unnested behaviour change
      ((replica.changed change world).data.collection replica.collection).channel.subscribers
      (replica.changed change world)

/-- What may have come of a world since the client subscribed and copied the items.  Mutations of the
collection are called one after the other, and whatever else is done leaves the collection and the copy
alone. -/
inductive Reaches : World Client → Prop where
  | subscribe {start client : Client} {world : World Client}
      (conduct : World.Conduct { client := start } world)
      (inside : replica.collection.index < world.data.collections.next)
      (number : replica.id = (world.data.subscribeChanges replica.collection (.client replica.hook)).1.id)
      (copied : replica.copy client = some (replica.items world)) :
      Reaches { world with
        data := (world.data.subscribeChanges replica.collection (.client replica.hook)).2, client }
  | mutate {behaviour : Behaviour Client} {mutation : Mutation} {world : World Client}
      (reaches : Reaches world) (calls : replica.Calls behaviour mutation world) :
      Reaches (world.mutate behaviour replica.collection mutation).2
  | other {world after : World Client} (reaches : Reaches world) (conduct : World.Conduct world after)
      (spares : replica.Spares world after) : Reaches after

/-- What is known of a world since the client subscribed. -/
structure Tracks (world : World Client) : Prop where
  sound : world.Sound
  inside : replica.collection.index < world.data.collections.next
  given : replica.id < world.data.nextNumber (.collection replica.collection)
  own : ∀ observer, world.data.Holds ⟨.collection replica.collection, replica.id⟩ observer →
    observer = .change (.client replica.hook)
  faithful : replica.Faithful world

section Tracks

variable {replica : Replica Client} {world after : World Client} {behaviour : Behaviour Client}
  {mutation : Mutation} {change : Change} {entries : List (SubscriptionId × ChangeObserver)}

/-- Things go on, and nobody touches the collection or the copy. -/
theorem Tracks.spared (tracks : replica.Tracks world) (sequel : world.Sequel after)
    (recalls : world.data.Recalls after.data) (spares : replica.Spares world after) :
    replica.Tracks after where
  sound := sequel.sound
  inside := tracks.inside.trans_le sequel.collections
  given := tracks.given.trans_le (recalls.numbers _)
  own := fun observer holds => tracks.own observer (recalls.holds _ _ holds tracks.given)
  faithful := by
    intro listens
    rw [spares.2, spares.1]
    exact tracks.faithful (recalls.isSubscribed tracks.given listens)

/-- Whoever is still registered under the number of the replica is the replica. -/
theorem Tracks.own_subscriber (tracks : replica.Tracks world) (recalls : world.data.Recalls after.data)
    {observer : ChangeObserver} (member : (replica.id, observer) ∈
      (after.data.collection replica.collection).channel.subscribers) :
    observer = .client replica.hook := by
  have holds : after.data.Holds ⟨.collection replica.collection, replica.id⟩ (.change observer) :=
    List.mem_map.2 ⟨_, member, rfl⟩
  exact Observer.change.inj (tracks.own _ (recalls.holds _ _ holds tracks.given))

end Tracks

end Replica

namespace World

variable {Client : Type} {world : World Client} {behaviour : Behaviour Client}
  {collection : CollectionId} {change : Change} {id : SubscriptionId} {observer : ChangeObserver}
  {later : List (SubscriptionId × ChangeObserver)}

/-- Whoever is registered is told, and then the others are. -/
theorem ToldChange.uncons (told : ToldChange behaviour collection change ((id, observer) :: later) world)
    (sound : world.Sound) (refers : world.data.RefersIn change)
    (there : (world.data.collection collection).channel.isSubscribed id = true) :
    world.Sequel (world.tellChange behaviour change observer) ∧
      world.data.Recalls (world.tellChange behaviour change observer).data ∧
        ToldChange behaviour collection change later (world.tellChange behaviour change observer) := by
  cases told with
  | passed gone rest =>
      rw [gone] at there
      cases there
  | client there acts rest => exact ⟨acts.sequel sound, (acts.chronicled sound).recalls sound, rest⟩
  | render there own rest =>
      obtain ⟨⟨render, owner⟩, owned⟩ := Option.ne_none_iff_exists'.1 own
      have concerns := tellChange_concerns behaviour sound refers owned
      exact ⟨concerns.kept.sequel, concerns.data, rest⟩

theorem ToldChange.tail (told : ToldChange behaviour collection change ((id, observer) :: later) world)
    (gone : (world.data.collection collection).channel.isSubscribed id = false) :
    ToldChange behaviour collection change later world := by
  cases told with
  | passed _ rest => exact rest
  | client there =>
      rw [gone] at there
      cases there
  | render there =>
      rw [gone] at there
      cases there

end World

namespace Replica

variable {Client : Type} {replica : Replica Client} {world after : World Client}
  {behaviour : Behaviour Client} {mutation : Mutation} {change : Change}
  {entries : List (SubscriptionId × ChangeObserver)}

/-- Those in the list have been told a change. -/
structure Delivered (replica : Replica Client) (change : Change)
    (entries : List (SubscriptionId × ChangeObserver)) (world after : World Client) : Prop where
  sequel : world.Sequel after
  recalls : world.data.Recalls after.data
  items : replica.items after = replica.items world
  /-- Whoever is not in the list is not told. -/
  aside : replica.id ∉ entries.map Prod.fst → replica.copy after.client = replica.copy world.client
  /-- Whoever is in the list and still listens has been told once. -/
  told : replica.id ∈ entries.map Prod.fst → replica.Listens after →
    replica.copy after.client = (replica.copy world.client).bind change.replay?

theorem delivered (told : World.ToldChange behaviour replica.collection change entries world)
    (unnested : replica.Unnested behaviour change entries world) (copies : replica.Copies behaviour)
    (sound : world.Sound) (refers : world.data.RefersIn change)
    (given : replica.id < world.data.nextNumber (.collection replica.collection))
    (distinct : (entries.map Prod.fst).Nodup)
    (own : ∀ observer, (replica.id, observer) ∈ entries → observer = .client replica.hook) :
    replica.Delivered change entries world
      (deliver (fun world => (world.data.collection replica.collection).channel)
        (World.tellChange behaviour change) entries world) := by
  induction entries generalizing world with
  | nil => exact ⟨.refl sound, .refl _, rfl, fun _ => rfl, nofun⟩
  | cons entry later induction =>
      obtain ⟨id, observer⟩ := entry
      obtain ⟨outside, distinct⟩ := List.nodup_cons.1 distinct
      have others : ∀ observer, (replica.id, observer) ∈ later → observer = .client replica.hook :=
        fun observer member => own observer (List.mem_cons_of_mem _ member)
      unfold Unnested at unnested
      rw [deliver]
      cases there : (world.data.collection replica.collection).channel.isSubscribed id with
      | false =>
          rw [there, if_neg Bool.false_ne_true] at unnested
          rw [if_neg Bool.false_ne_true]
          have rest := induction (told.tail there) unnested sound refers given distinct others
          refine ⟨rest.sequel, rest.recalls, rest.items, ?_, ?_⟩
          · intro absent
            exact rest.aside fun member => absent (List.mem_cons_of_mem _ member)
          · intro member listens
            rcases List.mem_cons.1 member with rfl | member
            -- Whoever has left does not come back under the same number.
            · have before := rest.recalls.isSubscribed given listens
              rw [there] at before
              cases before
            · exact rest.told member listens
      | true =>
          rw [there, if_pos rfl] at unnested
          rw [if_pos rfl]
          obtain ⟨spares, unnested⟩ := unnested
          obtain ⟨sequel, recalls, told⟩ := told.uncons sound refers there
          have rest := induction told unnested sequel.sound
            (refers.mono sequel.models sequel.collections) (given.trans_le (recalls.numbers _)) distinct
            others
          by_cases same : id = replica.id
          · obtain rfl := same
            obtain rfl := own observer List.mem_cons_self
            obtain ⟨copied, items⟩ := copies change world
            refine ⟨sequel.trans rest.sequel, recalls.trans rest.recalls, rest.items.trans items, ?_, ?_⟩
            · intro absent
              exact (absent List.mem_cons_self).elim
            · intro _ _
              exact (rest.aside outside).trans copied
          · obtain ⟨items, copied⟩ := spares same
            refine ⟨sequel.trans rest.sequel, recalls.trans rest.recalls, rest.items.trans items, ?_, ?_⟩
            · intro absent
              rw [rest.aside fun member => absent (List.mem_cons_of_mem _ member), copied]
            · intro member listens
              have later := (List.mem_cons.1 member).resolve_left (Ne.symm same)
              rw [rest.told later listens, copied]

theorem mutate_of_beyond (behaviour : Behaviour Client) (world : World Client)
    (beyond : mutation.Beyond (replica.items world)) :
    world.mutate behaviour replica.collection mutation = (none, world) := by
  have nothing : mutation.change? (world.data.collection replica.collection).items = none :=
    Mutation.change?_eq_none.2 beyond
  rw [World.mutate, nothing]

/-- A change that is made is told to all subscribers. -/
theorem mutate_of_change? (behaviour : Behaviour Client)
    (made : mutation.change? (replica.items world) = some change) :
    (world.mutate behaviour replica.collection mutation).2 =
      deliver (fun world => (world.data.collection replica.collection).channel)
        (World.tellChange behaviour change)
        ((replica.changed change world).data.collection replica.collection).channel.subscribers
        (replica.changed change world) := by
  have found : mutation.change? (world.data.collection replica.collection).items = some change := made
  rw [World.mutate, found]
  rfl

/-- The collection has been changed: it has the new items, and the copy still has the old ones. -/
theorem Tracks.changed (tracks : replica.Tracks world) (refers : world.data.RefersIn change) :
    world.Sequel (replica.changed change world) ∧ world.data.Recalls (replica.changed change world).data ∧
      replica.items (replica.changed change world) = change.apply (replica.items world) := by
  have sequel : world.Sequel (replica.changed change world) := tracks.sound.applied refers rfl
  have stored : (replica.changed change world).data = world.data.modifyCollection replica.collection
      fun collection => { collection with items := change.apply collection.items } := rfl
  obtain ⟨recalls, _, items⟩ := Data.apply_alters stored
  have applied := items tracks.inside
  rw [Data.contents_items, Data.contents_items] at applied
  exact ⟨sequel, recalls, applied⟩

/-- A mutation does what it is asked for, and the copy is kept up to date. -/
theorem Tracks.mutate (tracks : replica.Tracks world) (calls : replica.Calls behaviour mutation world) :
    replica.Tracks (world.mutate behaviour replica.collection mutation).2 ∧
      replica.items (world.mutate behaviour replica.collection mutation).2 =
        mutation.outcome (replica.items world) := by
  cases made : mutation.change? (replica.items world) with
  | none =>
      have beyond := Mutation.change?_eq_none.1 made
      rw [mutate_of_beyond behaviour world beyond, Mutation.outcome_of_beyond beyond]
      exact ⟨tracks, rfl⟩
  | some change =>
      have refers := calls.refers change made
      obtain ⟨sequel, recalls, items⟩ := tracks.changed refers
      have given := tracks.given.trans_le (recalls.numbers _)
      have delivered := delivered (calls.told change made) (calls.unnested change made) calls.copies
        sequel.sound (refers.mono sequel.models sequel.collections) given
        (sequel.sound.subscribers_nodup replica.collection) fun _ => tracks.own_subscriber recalls
      rw [mutate_of_change? behaviour made]
      have last := delivered.items.trans items
      refine ⟨⟨delivered.sequel.sound, ?_, ?_, ?_, ?_⟩, last.trans (Mutation.apply_eq_outcome made)⟩
      · exact tracks.inside.trans_le (sequel.collections.trans delivered.sequel.collections)
      · exact given.trans_le (delivered.recalls.numbers _)
      · intro observer holds
        have before := (recalls.trans delivered.recalls).holds _ _ holds tracks.given
        exact tracks.own observer before
      · intro listens
        have between := delivered.recalls.isSubscribed given listens
        have before := recalls.isSubscribed tracks.given between
        have listed : replica.id ∈ ((replica.changed change world).data.collection
            replica.collection).channel.subscribers.map Prod.fst := by
          obtain ⟨observer, member⟩ := Channel.isSubscribed_iff.1 between
          exact List.mem_map.2 ⟨_, member, rfl⟩
        rw [delivered.told listed listens, last]
        have copied : replica.copy (replica.changed change world).client = some (replica.items world) :=
          tracks.faithful before
        rw [copied]
        exact Change.replay?_of_within (Mutation.change?_within made)

theorem Reaches.tracks (reaches : replica.Reaches world) : replica.Tracks world := by
  induction reaches with
  | @subscribe start client world conduct inside number copied =>
      have sound := conduct.sound
      have registers := Data.subscribeChanges_registers (.client replica.hook) inside
      have moved := sound.moved (registers.moves sound.data rfl)
      have named : (world.data.subscribeChanges replica.collection (.client replica.hook)).1 =
          ⟨.collection replica.collection, replica.id⟩ := by
        rw [number]
        rfl
      rw [named] at registers
      have here : replica.id = world.data.nextNumber (.collection replica.collection) := registers.number
      refine ⟨moved.sound.of_eq rfl rfl rfl, inside.trans_le moved.collections, ?_, ?_, ?_⟩
      · show replica.id < (world.data.subscribeChanges _ _).2.nextNumber _
        rw [registers.nextNumber, if_pos rfl, ← here]
        exact Nat.lt_succ_self _
      · intro observer holds
        rcases registers.holds.1 holds with old | ⟨_, rfl⟩
        · have less := sound.data.below _ _ old
          exact absurd less (here ▸ lt_irrefl _)
        · rfl
      · intro _
        have same : replica.items { world with
            data := (world.data.subscribeChanges replica.collection (.client replica.hook)).2, client } =
            replica.items world := by
          have contents := registers.agrees.contents
          exact ((Data.contents_items _ _).symm.trans
            (congrArg (·.items replica.collection) contents)).trans (Data.contents_items _ _)
        rw [same]
        exact copied
  | mutate _ calls tracks => exact (tracks.mutate calls).1
  | other _ conduct spares tracks =>
      exact tracks.spared (conduct.sequel tracks.sound)
        ((conduct.chronicled tracks.sound).recalls tracks.sound) spares

/-- However a collection is mutated, whoever has copied its items and makes each change that it is told to
its copy has the items of the collection after every call, and no change is out of range for the copy.  A
call that asks for something that is not there changes nothing, and nobody is told.  What is removed is
the first item that is equal, and where it was is known afterwards. -/
theorem Reaches.copy_faithful (reaches : replica.Reaches world) :
    replica.Faithful world ∧
    (∀ behaviour mutation, replica.Calls behaviour mutation world →
      replica.items (world.mutate behaviour replica.collection mutation).2 =
          mutation.outcome (replica.items world) ∧
        replica.Faithful (world.mutate behaviour replica.collection mutation).2 ∧
        ∀ change, (world.mutate behaviour replica.collection mutation).1 = some change →
          replica.Listens world → ∃ copy brought,
            replica.copy world.client = some copy ∧ change.replay? copy = some brought) ∧
    (∀ behaviour mutation,
      ((world.mutate behaviour replica.collection mutation).1 = none ↔
        mutation.Beyond (replica.items world)) ∧
      (mutation.Beyond (replica.items world) →
        world.mutate behaviour replica.collection mutation = (none, world))) ∧
    ∀ behaviour item index,
      (∃ found, (world.mutate behaviour replica.collection (.remove item)).1 =
        some (.remove index found)) ↔
      ∃ found, (replica.items world)[index]? = some found ∧ found.same item = true ∧
        ∀ other ∈ (replica.items world).take index, other.same item = false := by
  have tracks := reaches.tracks
  have returned : ∀ behaviour mutation, (world.mutate behaviour replica.collection mutation).1 =
      mutation.change? (replica.items world) := by
    intro behaviour mutation
    rw [World.mutate, items]
    split
    · rename_i made
      exact made.symm
    · rename_i made
      exact made.symm
  refine ⟨tracks.faithful, ?_, ?_, ?_⟩
  · intro behaviour mutation calls
    obtain ⟨after, items⟩ := tracks.mutate calls
    refine ⟨items, after.faithful, ?_⟩
    intro change made listens
    rw [returned] at made
    exact ⟨_, _, tracks.faithful listens, Change.replay?_of_within (Mutation.change?_within made)⟩
  · intro behaviour mutation
    rw [returned]
    exact ⟨Mutation.change?_eq_none, mutate_of_beyond behaviour world⟩
  · intro behaviour item index
    rw [returned]
    constructor
    · rintro ⟨found, made⟩
      obtain ⟨place, first, there, same, before, change⟩ := Mutation.change?_remove_eq_some.1 made
      obtain ⟨rfl, rfl⟩ := Change.remove.inj change
      exact ⟨found, there, same, before⟩
    · rintro ⟨found, there, same, before⟩
      exact ⟨found, Mutation.change?_remove_eq_some.2 ⟨index, found, there, same, before, rfl⟩⟩

/-! ## A list of letters -/

/-- A copy is all that the client has. -/
def letters : Replica (Option (List Value)) where
  collection := ⟨0⟩
  hook := ⟨0⟩
  id := 0
  copy := fun client => client

/-- The callback makes each change to the copy. -/
def copying : Behaviour (Option (List Value)) :=
  { World.still _ with
    change := fun hook change world =>
      if hook = ⟨0⟩ then { world with client := world.client.bind change.replay? } else world }

/-- Three letters, two of which are the same. -/
def written : World (Option (List Value)) :=
  { data := (({} : Data).addCollection [.text "b", .text "a", .text "a"]).2
    client := none }

/-- The client subscribes and copies the letters; another one listens, too. -/
def copied : World (Option (List Value)) :=
  { written with
    data :=
      ((written.data.subscribeChanges ⟨0⟩ (.client ⟨0⟩)).2.subscribeChanges ⟨0⟩ (.client ⟨1⟩)).2
    client := some [.text "b", .text "a", .text "a"] }

theorem reaches_copied : letters.Reaches copied := by
  have conduct : World.Conduct { client := none } written := by
    refine .next (.addCollection ?_) (.done _)
    intro item member
    simp only [List.mem_cons, List.not_mem_nil, or_false, or_self] at member
    rcases member with rfl | rfl
    · exact .text _
    · exact .text _
  have subscribed : letters.Reaches { written with
      data := (written.data.subscribeChanges ⟨0⟩ (.client ⟨0⟩)).2
      client := some [.text "b", .text "a", .text "a"] } :=
    .subscribe conduct (by decide) rfl rfl
  exact .other subscribed (.next (.subscribeChanges ⟨1⟩ (by decide)) (.done _)) ⟨rfl, rfl⟩

/-- The first of the two letters is removed. -/
theorem calls_remove : letters.Calls copying (.remove (.text "a")) copied where
  copies := by
    intro change world
    exact ⟨rfl, rfl⟩
  refers := by
    intro change made
    obtain ⟨_, _, _, _, _, rfl⟩ := Mutation.change?_remove_eq_some.1 made
    trivial
  told := by
    intro change _
    have call : World.Call (letters.changed change copied)
        (copying.change ⟨0⟩ change (letters.changed change copied)) := .other rfl rfl rfl
    exact .client rfl (.next call (.done _)) (.client rfl (.done _) (.done _))
  unnested := by
    intro change _
    exact ⟨fun differs => (differs rfl).elim, fun _ => ⟨rfl, rfl⟩, trivial⟩

theorem copy_faithful_letters : letters.Reaches copied ∧
    letters.Calls copying (.remove (.text "a")) copied ∧ letters.Faithful copied ∧
    letters.items (copied.mutate copying ⟨0⟩ (.remove (.text "a"))).2 = [.text "b", .text "a"] ∧
    letters.Faithful (copied.mutate copying ⟨0⟩ (.remove (.text "a"))).2 ∧
    (∃ found, (copied.mutate copying ⟨0⟩ (.remove (.text "a"))).1 = some (.remove 1 found)) ∧
    copied.mutate copying ⟨0⟩ (.removeAt 3) = (none, copied) := by
  obtain ⟨faithful, mutates, refused, removed⟩ := reaches_copied.copy_faithful
  obtain ⟨items, copy, _⟩ := mutates copying _ calls_remove
  refine ⟨reaches_copied, calls_remove, faithful, items, copy, ?_, ?_⟩
  · refine (removed copying (.text "a") 1).2 ⟨.text "a", rfl, by simp [Value.same], ?_⟩
    intro other early
    obtain rfl := List.mem_singleton.1 early
    simp [Value.same]
  · have outside : Mutation.Beyond (.removeAt 3) (letters.items copied) := le_refl 3
    exact (refused copying (.removeAt 3)).2 outside

end Replica

end LiveTemplate
