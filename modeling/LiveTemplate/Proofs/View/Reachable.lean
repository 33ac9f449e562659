import LiveTemplate.Proofs.View.Conduct

/-!
# Worlds that can be reached

Conduct keeps the world sound, whatever client code does in the middle of a call.  The proof follows
the derivation: what one call does by itself is kept by the lemmas about calls, what client code does
meanwhile is conduct again.
-/

namespace LiveTemplate.World

open BoundForest (account skeleton shown AllRegular)

variable {Client : Type} {world after : World Client}

/-- The world is sound, and what was there is still there. -/
structure Sequel (world after : World Client) : Prop where
  sound : after.Sound
  models : world.data.models.next ≤ after.data.models.next
  collections : world.data.collections.next ≤ after.data.collections.next

theorem Sequel.refl (sound : world.Sound) : world.Sequel world :=
  ⟨sound, le_rfl, le_rfl⟩

theorem Sequel.trans {last : World Client} (first : world.Sequel after)
    (second : after.Sequel last) : world.Sequel last :=
  ⟨second.sound, first.models.trans second.models, first.collections.trans second.collections⟩

theorem Kept.sequel (kept : world.Kept after) : world.Sequel after :=
  ⟨kept.sound, kept.agrees.models.ge, kept.agrees.collections.ge⟩

/-- Soundness does not depend on the rest of the world. -/
theorem Sequel.of_eq {other : World Client} (sequel : world.Sequel after)
    (data : other.data = after.data) (documents : other.documents = after.documents)
    (renders : other.renders = after.renders) : world.Sequel other :=
  ⟨sequel.sound.of_eq data documents renders, data ▸ sequel.models, data ▸ sequel.collections⟩

theorem Sequel.from_eq {other : World Client} (sequel : other.Sequel after)
    (data : other.data = world.data) : world.Sequel after :=
  ⟨sequel.sound, data ▸ sequel.models, data ▸ sequel.collections⟩

/-- The client moves the data on. -/
theorem Sound.moved {data : Data} (sound : world.Sound) (moves : world.data.Moves data) :
    world.Sequel { world with data } where
  sound :=
    { data := moves.sound
      documents := sound.documents
      renders := by
        intro id render known
        obtain ⟨document, stored, own⟩ := sound.renders id render known
        refine ⟨document, stored, own.of_aside moves.models (fun balanced => ?_) fun mirrors => mirrors⟩
        exact balanced.of_same fun subscription observer owner owned =>
          moves.owned subscription observer (by simp [owned])
      apart := sound.apart
      owners := by
        intro subscription observer id owner holds owned
        have old := (moves.owned subscription observer (by simp [owned])).1 holds
        exact sound.owners subscription observer id owner old owned }
  models := moves.models
  collections := moves.collections

/-- The client changes the items of a collection. -/
theorem Sound.applied {data : Data} {collection : CollectionId} {change : Change}
    (sound : world.Sound) (refers : world.data.RefersIn change)
    (stored : data = world.data.modifyCollection collection fun collection =>
      { collection with items := change.apply collection.items }) :
    world.Sequel { world with data } :=
  sound.moved (stored ▸ Data.apply_moves sound.data refers)

theorem Sound.addDocument (sound : world.Sound) :
    ({ world with documents := world.documents.add {} } : World Client).Sound where
  data := sound.data
  documents := by
    intro index document stored
    rw [Store.get?_add] at stored
    split at stored
    · obtain rfl := Option.some.inj stored
      exact ⟨List.nodup_nil, fun node member => nomatch member⟩
    · exact sound.documents index document stored
  renders := by
    intro id render known
    obtain ⟨document, stored, own⟩ := sound.renders id render known
    refine ⟨document, ?_, own⟩
    rw [Store.get?_add, if_neg (Store.lt_next_of_get? stored).ne, stored]
  apart := sound.apart
  owners := sound.owners

theorem Sound.edit (sound : world.Sound) {place : DocumentId} {document edited : Document}
    (stored : world.documents.get? place.index = some document) (tidy : edited.Sound)
    (respects : ∀ id render, world.render? id = some render → render.document = place →
      document.Respects edited render) : (world.setDocument place edited).Sound := by
  refine sound.of_edit rfl rfl rfl (fun _ _ => tidy) fun id render other known here also mirrors => ?_
  obtain rfl : document = other := Option.some.inj (stored.symm.trans also)
  have kept := respects id render known here
  exact ⟨kept.subtree.trans mirrors.shape, mirrors.covered,
    fun node made inside => mirrors.present node made (kept.created node made inside),
    mirrors.own, fun node made => kept.issued node (mirrors.issued node made)⟩

theorem unmount_sequel (sound : world.Sound) (id : RenderId) : world.Sequel (world.unmount id) := by
  unfold unmount
  split
  · rename_i render known
    obtain ⟨_, cancels⟩ := data_teardown world id render.root
    exact Kept.sequel ⟨sound.teardown (sound.spares_root known), cancels.agrees⟩
  · exact .refl sound

/-- A render that is told a change reacts to it. -/
theorem tellChange_kept (behaviour : Behaviour Client) (sound : world.Sound) {change : Change}
    (refers : world.data.RefersIn change) {observer : ChangeObserver}
    (own : (Observer.change observer).owner? ≠ none) :
    world.Kept (world.tellChange behaviour change observer) := by
  cases observer with
  | client hook => exact (own rfl).elim
  | rebuild id content directive =>
      unfold tellChange
      dsimp only
      split
      · exact rebuild_kept behaviour sound id directive
      · exact .refl sound
  | splice id list => exact splice_kept behaviour sound id list refers

/-- It does not matter who is at work. -/
theorem engaging_sequel {Result : Type} {controllers : List ControllerId}
    {act : World Client → Result × World Client} {result : Result}
    (acted : ({ world with engaged := controllers ++ world.engaged } : World Client).Sequel
      (act { world with engaged := controllers ++ world.engaged }).2)
    (run : world.engaging controllers act = (result, after)) : world.Sequel after := by
  obtain rfl : _ = after := congrArg Prod.snd run
  have done : ({ world with engaged := controllers ++ world.engaged } : World Client).Sequel
      (world.engaging controllers act).2 := acted.of_eq rfl rfl rfl
  exact done.from_eq rfl

mutual

theorem Conduct.sequel {world after : World Client} :
    Conduct world after → world.Sound → world.Sequel after
  | .done _, sound => .refl sound
  | .next call rest, sound =>
    have first := call.sequel sound
    first.trans (rest.sequel first.sound)

theorem Call.sequel {world after : World Client} :
    Call world after → world.Sound → world.Sequel after
  | .set refers stored told set, sound => by
      have moved := sound.moved (Data.put_moves sound.data refers stored)
      have notified := told.sequel moved.sound (refers.mono moved.models moved.collections)
      unfold World.set at set
      rw [stored] at set
      obtain rfl := Except.ok.inj set
      exact moved.trans notified
  | .mutate made refers stored told, sound => by
      have moved := sound.applied refers stored
      have notified := told.sequel moved.sound (refers.mono moved.models moved.collections)
      unfold World.mutate
      rw [made]
      subst stored
      exact moved.trans notified
  | .mount there inside, sound => (mount_kept _ sound _ _ _ _ there inside).sequel
  | .unmount id, sound => unmount_sequel sound id
  | .dispatch travels, sound => travels.sequel sound
  | .handle handles, sound => handles.sequel sound
  | .subscribe channel hook inside, sound =>
    sound.moved ((Data.subscribe_registers channel _ inside).moves sound.data rfl)
  | .subscribeChanges hook inside, sound =>
    sound.moved ((Data.subscribeChanges_registers _ inside).moves sound.data rfl)
  | .cancel own, sound => sound.moved (Data.cancel_moves sound.data own)
  | .addModel refers, sound => sound.moved (Data.addModel_moves sound.data refers)
  | .addCollection refers, sound => sound.moved (Data.addCollection_moves sound.data refers)
  | .addDocument world, sound => ⟨sound.addDocument, le_rfl, le_rfl⟩
  | .edit stored tidy respects, sound => ⟨sound.edit stored tidy respects, le_rfl, le_rfl⟩
  | .other data documents renders, sound => (Sequel.refl sound).of_eq data documents renders

theorem Told.sequel {world : World Client} {behaviour : Behaviour Client} {model : ModelId} {property : String}
    {value : Value} {entries : List (SubscriptionId × ValueObserver)} :
    Told behaviour model property value entries world → world.Sound → world.data.Refers value →
      world.Sequel (deliver (fun world => (world.data.model model).channel (changeChannel property))
        (tell behaviour value) entries world)
  | .done _, sound, _ => .refl sound
  | .passed gone rest, sound, refers => by
      rw [deliver, if_neg (by simp [gone])]
      exact rest.sequel sound refers
  | .client there acts rest, sound, refers => by
      rw [deliver, if_pos there]
      have first := acts.sequel sound
      exact first.trans (rest.sequel first.sound (refers.mono first.models first.collections))
  | .render observer there rest, sound, refers => by
      rw [deliver, if_pos there]
      have first := (react_kept behaviour sound observer refers).sequel
      exact first.trans (rest.sequel first.sound (refers.mono first.models first.collections))

theorem ToldChange.sequel {world : World Client} {behaviour : Behaviour Client} {collection : CollectionId}
    {change : Change} {entries : List (SubscriptionId × ChangeObserver)} :
    ToldChange behaviour collection change entries world → world.Sound →
      world.data.RefersIn change →
        world.Sequel (deliver (fun world => (world.data.collection collection).channel)
          (tellChange behaviour change) entries world)
  | .done _, sound, _ => .refl sound
  | .passed gone rest, sound, refers => by
      rw [deliver, if_neg (by simp [gone])]
      exact rest.sequel sound refers
  | .client there acts rest, sound, refers => by
      rw [deliver, if_pos there]
      have first := acts.sequel sound
      exact first.trans (rest.sequel first.sound (refers.mono first.models first.collections))
  | .render there own rest, sound, refers => by
      rw [deliver, if_pos there]
      have first := (tellChange_kept behaviour sound refers own).sequel
      exact first.trans (rest.sequel first.sound (refers.mono first.models first.collections))

theorem Travels.sequel {world : World Client} {behaviour : Behaviour Client} {document : DocumentId} {path : List NodeId}
    {event : Event} : Travels behaviour document path event world → world.Sound →
      world.Sequel (travel behaviour document path event world).2
  | .done _ _, sound => .refl sound
  | .gone absent rest, sound => by
      unfold travel
      rw [absent]
      exact rest.sequel sound
  | .there found hears result rest, sound => by
      have first := hears.sequel sound
      rw [result] at first
      unfold travel
      rw [found]
      dsimp only
      rw [result]
      dsimp only
      split
      · exact first
      · rename_i goes
        exact first.trans ((rest (by simpa using goes)).sequel first.sound)

theorem HearsAll.sequel {world : World Client} {behaviour : Behaviour Client}
    {listeners : List (Listener × Option ControllerId)} {event : Event} :
    HearsAll behaviour listeners event world → world.Sound →
      world.Sequel (hearAll behaviour listeners event world).2
  | .done _ _, sound => .refl sound
  | .next hears result rest, sound => by
      have first := engaging_sequel (hears.sequel (sound.of_eq rfl rfl rfl)) result
      unfold hearAll
      rw [result]
      exact first.trans (rest.sequel first.sound)

theorem Hears.sequel {world : World Client} {behaviour : Behaviour Client} {listener : Listener} {event : Event} :
    Hears behaviour listener event world → world.Sound →
      world.Sequel (world.hear behaviour listener event).2
  | .client acts, sound => acts.sequel sound
  | .gone absent, sound => by
      unfold hear
      dsimp only
      rw [absent]
      exact .refl sound
  | .action found handles, sound => by
      unfold hear
      dsimp only
      rw [found]
      exact handles.sequel sound

theorem Handles.sequel {world : World Client} {behaviour : Behaviour Client} {id : ControllerId} {action : String}
    {event : Event} {model : ModelId} :
    Handles behaviour id action event model world → world.Sound →
      world.Sequel (world.handle behaviour id action event model).2
  | .unknown nobody, sound => by
      unfold handle
      rw [nobody]
      exact .refl sound
  | .known found acts, sound => by
      unfold handle
      rw [found]
      exact engaging_sequel (acts.sequel (sound.of_eq rfl rfl rfl)) rfl

end

theorem Conduct.trans {world middle after : World Client} :
    Conduct world middle → Conduct middle after → Conduct world after
  | .done _, second => second
  | .next call rest, second => .next call (rest.trans second)

/-- Nothing is there but the client. -/
theorem sound_empty (client : Client) : ({ client } : World Client).Sound where
  data :=
    { keyed := fun _ => List.nodup_nil
      distinct := fun source => by cases source <;> exact List.nodup_nil
      below := fun subscription observer holds => by
        obtain ⟨source, id⟩ := subscription
        cases source <;> exact nomatch holds
      values := fun _ _ => .null
      items := fun _ item member => nomatch member }
  documents := fun id document stored => by simp [Store.get?] at stored
  renders := fun id render known => by simp [render?, Store.get?] at known
  apart := fun id other render another _ known => by simp [render?, Store.get?] at known
  owners := fun subscription observer id owner holds => by
    obtain ⟨source, number⟩ := subscription
    cases source <;> exact nomatch holds

theorem Conduct.sound {client : Client} (conduct : Conduct { client } world) : world.Sound :=
  (conduct.sequel (sound_empty client)).sound

/-! ## A greeting

The smallest world in which something is shown: one model with a name, and a paragraph that shows the
name if there is one. -/

/-- Client code that does nothing. -/
def still (Client : Type) : Behaviour Client where
  value := fun _ _ world => world
  change := fun _ _ world => world
  listen := fun _ event world => (event, world)
  act := fun _ event _ world => (event, world)
  build := fun _ _ controllers client => (⟨0⟩, controllers, client)
  keeps := fun _ => []

/-- The name in a paragraph. -/
def greeting : Template :=
  ⟨"p", [], [.directive .showIf ⟨"name", []⟩ [.text (.bound ⟨"name", []⟩)]], 1⟩

/-- A model with a name, and an empty document. -/
def prepared : World Unit :=
  { data := (({} : Data).addModel (.ofSchema [⟨"name", .text "Ada", none⟩])).2
    documents := ({} : Store Document).add {}
    client := () }

/-- The greeting is shown. -/
def greeted : World Unit :=
  (prepared.mount (still Unit) ⟨0⟩ ⟨0⟩ {} greeting ⟨0⟩ ⟨0⟩).2

theorem conduct_prepared : Conduct { client := () } prepared :=
  .next (.addModel fun field member => by
      obtain rfl := List.mem_singleton.1 member
      exact .text _)
    (.next (.addDocument _) (.done _))

private theorem missingView?_greeting :
    (prepared.registry ⟨0⟩).missingView? greeting = none := by
  show Registry.missing? _ [] [] = none
  simp [Registry.missing?]

theorem mount_greeting :
    prepared.mount (still Unit) ⟨0⟩ ⟨0⟩ {} greeting ⟨0⟩ ⟨0⟩ = (.ok ⟨0⟩, greeted) := by
  refine Prod.ext ?_ rfl
  rw [mount, missingView?_greeting]
  decide +kernel

theorem conduct_greeted : Conduct { client := () } greeted :=
  conduct_prepared.trans (.next (.mount (Nat.lt_succ_self 0) (Nat.lt_succ_self 0)) (.done _))

/-- The greeting is the first render, and follows the name in two places. -/
theorem render?_greeted :
    ∃ render, greeted.render? ⟨0⟩ = some render ∧ greeted.subscriptionCount ⟨0⟩ = 2 := by
  have shown : (greeted.render? ⟨0⟩).isSome = true ∧ greeted.subscriptionCount ⟨0⟩ = 2 := by
    rw [greeted, mount, missingView?_greeting]
    decide +kernel
  obtain ⟨render, known⟩ := Option.isSome_iff_exists.1 shown.1
  exact ⟨render, known, shown.2⟩

end LiveTemplate.World
