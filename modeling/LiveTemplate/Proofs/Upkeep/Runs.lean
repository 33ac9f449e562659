import LiveTemplate.Proofs.Upkeep.Announcement

/-!
# Runs

Models are set and collections are changed, one call after the other, and client code that is told of
it may itself do so before the rest of the announcement goes on.  What distinguishes these runs from
conduct in general is that everybody who is still to be told is kept in view.  So a rule can say which
calls may be made in the middle of an announcement.
-/

namespace LiveTemplate.World

variable {Client : Type}

/-- What calls may be made, while some observers are still to be told: what is announced, and the worlds
before the call and after it. -/
abbrev Rule (Client : Type) : Type := Notices → News → World Client → World Client → Prop

mutual

/-- Calls one after the other, while some observers are still to be told. -/
inductive Run (rule : Rule Client) : Notices → World Client → World Client → Prop where
  | done (pending : Notices) (world : World Client) : Run rule pending world world
  | next {pending : Notices} {world middle after : World Client} (step : Step rule pending world middle)
      (rest : Run rule pending middle after) : Run rule pending world after

/-- One call, together with the calls that client code makes while it is in progress. -/
inductive Step (rule : Rule Client) : Notices → World Client → World Client → Prop where
  | set {behaviour : Behaviour Client} {pending : Notices} {world after : World Client} {data : Data}
      {model : ModelId} {property : String} {value : Value} (refers : world.data.Refers value)
      (stored : world.data.put model property value = .ok data)
      (tells : Telling rule behaviour (.value model property value) pending
        (data.registrationsOn (.model model (changeChannel property))) { world with data })
      (set : world.set behaviour model property value = .ok after)
      (ruled : rule pending (.value model property value) world after) : Step rule pending world after
  | mutate {behaviour : Behaviour Client} {pending : Notices} {world : World Client} {data : Data}
      {collection : CollectionId} {mutation : Mutation} {change : Change}
      (made : mutation.change? (world.data.collection collection).items = some change)
      (refers : world.data.RefersIn change)
      (stored : data = world.data.modifyCollection collection fun collection =>
        { collection with items := change.apply collection.items })
      (tells : Telling rule behaviour (.change collection change) pending
        (data.registrationsOn (.collection collection)) { world with data })
      (ruled : rule pending (.change collection change) world
        (world.mutate behaviour collection mutation).2) :
      Step rule pending world (world.mutate behaviour collection mutation).2
  | subscribe {pending : Notices} {world : World Client} {model : ModelId} (channel : String)
      (hook : Hook) (inside : model.index < world.data.models.next) :
      Step rule pending world
        { world with data := (world.data.subscribe model channel (.client hook)).2 }
  | subscribeChanges {pending : Notices} {world : World Client} {collection : CollectionId}
      (hook : Hook) (inside : collection.index < world.data.collections.next) :
      Step rule pending world
        { world with data := (world.data.subscribeChanges collection (.client hook)).2 }
  | cancel {pending : Notices} {world : World Client} {subscription : Subscription}
      (own : ∀ observer, world.data.Holds subscription observer → observer.owner? = none) :
      Step rule pending world { world with data := world.data.cancel subscription }
  | addModel {pending : Notices} {world : World Client} {schema : Schema}
      (refers : ∀ field ∈ schema, world.data.Refers field.initial) :
      Step rule pending world { world with data := (world.data.addModel (.ofSchema schema)).2 }
  | addCollection {pending : Notices} {world : World Client} {items : List Value}
      (refers : ∀ item ∈ items, world.data.Refers item) :
      Step rule pending world { world with data := (world.data.addCollection items).2 }
  /-- Controllers and what the client keeps for itself. -/
  | other {pending : Notices} {world after : World Client} (data : after.data = world.data)
      (documents : after.documents = world.documents) (renders : after.renders = world.renders)
      (registries : after.registries = world.registries) (failures : after.failures = world.failures) :
      Step rule pending world after

/-- What client code does while an announcement goes on: first who has been waiting for longer, and then
who is still to be told of this one. -/
inductive Telling (rule : Rule Client) : Behaviour Client → News → Notices → Notices →
    World Client → Prop where
  | done {behaviour : Behaviour Client} {news : News} {pending : Notices} (world : World Client) :
      Telling rule behaviour news pending [] world
  | passed {behaviour : Behaviour Client} {news : News} {pending later : Notices}
      {world : World Client} {subscription : Subscription} {observer : Observer}
      (gone : world.data.isHeld subscription = false)
      (rest : Telling rule behaviour news pending later world) :
      Telling rule behaviour news pending ((subscription, observer) :: later) world
  | client {behaviour : Behaviour Client} {news : News} {pending later : Notices}
      {world : World Client} {subscription : Subscription} {observer : Observer}
      (there : world.data.isHeld subscription = true) (free : observer.owner? = none)
      (acts : Run rule (later ++ pending) world (world.receive behaviour news observer))
      (rest : Telling rule behaviour news pending later (world.receive behaviour news observer)) :
      Telling rule behaviour news pending ((subscription, observer) :: later) world
  | render {behaviour : Behaviour Client} {news : News} {pending later : Notices}
      {world : World Client} {subscription : Subscription} {observer : Observer}
      (there : world.data.isHeld subscription = true) (own : observer.owner? ≠ none)
      (rest : Telling rule behaviour news pending later (world.receive behaviour news observer)) :
      Telling rule behaviour news pending ((subscription, observer) :: later) world

end

/-- Whoever of a render is still to be told and will go by what it is told is not told of something else
that has happened there in the meantime. -/
def InTurn (id : RenderId) (pending : Notices) (source : Source) (world : World Client) : Prop :=
  ∀ subscription observer owner, (subscription, observer) ∈ pending →
    world.data.Holds subscription observer → observer.owner? = some (id, owner) → observer.Steers →
      subscription.source ≠ source

end LiveTemplate.World

namespace LiveTemplate

/-- What is announced on a channel is the same. -/
def Data.SameOn (data other : Data) : Source → Prop
  | .model model channel => ∀ segment, channel = changeChannel segment →
      other.get model segment = data.get model segment
  | .collection collection => other.contents.items collection = data.contents.items collection

namespace Data

variable {data other last : Data} {source : Source}

theorem SameOn.refl (data : Data) (source : Source) : data.SameOn data source := by
  cases source with
  | model => exact fun _ _ => rfl
  | collection => rfl

theorem SameOn.trans (first : data.SameOn other source) (second : other.SameOn last source) :
    data.SameOn last source := by
  cases source with
  | model => exact fun segment called => (second segment called).trans (first segment called)
  | collection => exact Eq.trans second first

theorem Agrees.sameOn (agrees : data.Agrees other) (source : Source) : data.SameOn other source := by
  cases source with
  | model model => exact fun segment _ => agrees.get model segment
  | collection => rw [SameOn, agrees.contents]

theorem Alters.sameOn {touched : Source → Prop} (alters : data.Alters other touched)
    (inside : data.HasSource source) (spared : ¬ touched source) : data.SameOn other source := by
  cases source with
  | model model channel =>
      rintro segment rfl
      exact alters.values model segment inside spared
  | collection collection => exact alters.items collection inside spared

end Data

namespace World

variable {Client : Type} {world middle after : World Client} {id other : RenderId}
  {pending fewer entries : Notices} {rule : Rule Client} {behaviour : Behaviour Client} {news : News}

/-- The world has gone on. -/
structure Proceeds (world after : World Client) : Prop where
  sound : after.Sound
  data : world.data.Recalls after.data
  models : world.data.models.next ≤ after.data.models.next
  collections : world.data.collections.next ≤ after.data.collections.next
  registries : after.registries = world.registries
  failures : world.failures <+: after.failures

theorem Proceeds.refl (sound : world.Sound) : world.Proceeds world :=
  ⟨sound, .refl _, le_rfl, le_rfl, rfl, List.prefix_refl _⟩

theorem Proceeds.trans (first : world.Proceeds middle) (second : middle.Proceeds after) :
    world.Proceeds after where
  sound := second.sound
  data := first.data.trans second.data
  models := first.models.trans second.models
  collections := first.collections.trans second.collections
  registries := second.registries.trans first.registries
  failures := first.failures.trans second.failures

/-- The client moves the data on. -/
theorem Proceeds.of_moves {data : Data} (sound : world.Sound) (moves : world.data.Moves data)
    (recalls : world.data.Recalls data) : world.Proceeds { world with data } where
  sound := (sound.moved moves).sound
  data := recalls
  models := moves.models
  collections := moves.collections
  registries := rfl
  failures := List.prefix_refl _

theorem Concerns.proceeds (concerns : world.Concerns after other) : world.Proceeds after where
  sound := concerns.kept.sound
  data := concerns.data
  models := concerns.kept.sequel.models
  collections := concerns.kept.sequel.collections
  registries := concerns.registries
  failures := concerns.failures

/-- Besides, nothing has changed for whoever of a render is still to be told and goes by what it is
told. -/
structure Onward (id : RenderId) (pending : Notices) (world after : World Client) : Prop
    extends world.Proceeds after where
  steadfast : ∀ subscription observer owner, (subscription, observer) ∈ pending →
    after.data.Holds subscription observer → observer.owner? = some (id, owner) → observer.Steers →
      world.data.SameOn after.data subscription.source

theorem Issued.later (issued : world.Issued pending) (data : world.data.Recalls after.data) :
    after.Issued pending :=
  fun notice member => (issued notice member).trans_le (data.numbers _)

theorem Issued.tail {entry : Subscription × Observer}
    (issued : world.Issued (entry :: entries ++ pending)) : world.Issued (entries ++ pending) :=
  fun notice member => issued notice (List.mem_cons_of_mem _ member)

theorem Issued.left (issued : world.Issued (entries ++ pending)) : world.Issued entries :=
  fun notice member => issued notice (List.mem_append_left _ member)

theorem Issued.right (issued : world.Issued (entries ++ pending)) : world.Issued pending :=
  fun notice member => issued notice (List.mem_append_right _ member)

theorem Onward.refl (sound : world.Sound) (id : RenderId) (pending : Notices) :
    Onward id pending world world :=
  ⟨.refl sound, fun _ _ _ _ _ _ _ => .refl _ _⟩

theorem Onward.trans (first : Onward id pending world middle) (second : Onward id pending middle after)
    (issued : world.Issued pending) : Onward id pending world after where
  toProceeds := first.toProceeds.trans second.toProceeds
  steadfast := by
    intro subscription observer owner listed held owned steers
    have between := second.data.holds _ _ held (issued.later first.data _ listed)
    exact (first.steadfast _ _ _ listed between owned steers).trans
      (second.steadfast _ _ _ listed held owned steers)

theorem Onward.mono (onward : Onward id pending world after) (less : fewer ⊆ pending) :
    Onward id fewer world after :=
  { onward with
    steadfast := fun subscription observer owner listed =>
      onward.steadfast subscription observer owner (less listed) }

/-- The client moves the data on. -/
theorem Onward.of_alters {data : Data} {touched : Source → Prop} (sound : world.Sound)
    (moves : world.data.Moves data) (recalls : world.data.Recalls data)
    (alters : world.data.Alters data touched)
    (turn : ∀ source, touched source → InTurn id pending source world) :
    Onward id pending world { world with data } where
  toProceeds := .of_moves sound moves recalls
  steadfast := by
    intro subscription observer owner listed held owned steers
    have before : world.data.Holds subscription observer := (moves.owned _ _ (by simp [owned])).1 held
    exact alters.sameOn before.hasSource fun touch =>
      turn _ touch subscription observer owner listed before owned steers rfl

theorem Concerns.onward (concerns : world.Concerns after other) (id : RenderId) (pending : Notices) :
    Onward id pending world after where
  toProceeds := concerns.proceeds
  steadfast := fun subscription _ _ _ _ _ _ => concerns.kept.agrees.sameOn subscription.source

/-- A render that is told something concerns nobody else. -/
theorem receive_concerns (behaviour : Behaviour Client) (sound : world.Sound)
    (refers : news.Refers world.data) {observer : Observer} {owner : BoundId}
    (own : observer.owner? = some (id, owner)) :
    world.Concerns (world.receive behaviour news observer) id := by
  match news, observer with
  | .value _ _ value, .value (.path observer) =>
      obtain rfl : observer.render = id := (Prod.mk.inj (Option.some.inj own)).1
      exact react_concerns behaviour sound observer refers
  | .change _ change, .change observer => exact tellChange_concerns behaviour sound refers own
  | .value .., .value (.client _) => cases own
  | .value .., .change _ | .change .., .value _ => exact .refl sound id

/-- By the rule, calls are made in turn only. -/
def Rule.Orderly (rule : Rule Client) (id : RenderId) : Prop :=
  ∀ pending news world after, rule pending news world after → InTurn id pending news.source world

theorem mutate_eq {collection : CollectionId} {mutation : Mutation} {change : Change} {data : Data}
    (behaviour : Behaviour Client)
    (made : mutation.change? (world.data.collection collection).items = some change)
    (stored : data = world.data.modifyCollection collection fun collection =>
      { collection with items := change.apply collection.items }) :
    (world.mutate behaviour collection mutation).2 = announce behaviour (.change collection change)
      (data.registrationsOn (.collection collection)) { world with data } := by
  unfold World.mutate
  rw [made]
  exact change_eq behaviour world collection change stored

mutual

theorem Run.proceeds {pending : Notices} {world after : World Client} :
    Run rule pending world after → world.Sound → world.Proceeds after
  | .done _ _, sound => .refl sound
  | .next step rest, sound =>
    have first := step.proceeds sound
    first.trans (rest.proceeds first.sound)

theorem Step.proceeds {pending : Notices} {world after : World Client} :
    Step rule pending world after → world.Sound → world.Proceeds after
  | .set refers stored tells set _, sound => by
      obtain ⟨recalls, _, _⟩ := Data.put_alters stored
      have moves := Data.put_moves sound.data refers stored
      have first := Proceeds.of_moves sound moves recalls
      rw [set_eq, stored] at set
      obtain rfl := Except.ok.inj set
      exact first.trans (tells.proceeds first.sound
        (Data.Refers.mono refers moves.models moves.collections))
  | .mutate made refers stored tells _, sound => by
      obtain ⟨recalls, _, _⟩ := Data.apply_alters stored
      have moves := stored ▸ Data.apply_moves sound.data refers
      have first := Proceeds.of_moves sound moves recalls
      rw [mutate_eq _ made stored]
      exact first.trans (tells.proceeds first.sound
        (Data.RefersIn.mono refers moves.models moves.collections))
  | .subscribe channel hook inside, sound =>
    have registers := Data.subscribe_registers channel (.client hook) inside
    .of_moves sound (registers.moves sound.data rfl) registers.recalls
  | .subscribeChanges hook inside, sound =>
    have registers := Data.subscribeChanges_registers (.client hook) inside
    .of_moves sound (registers.moves sound.data rfl) registers.recalls
  | .cancel own, sound =>
    .of_moves sound (Data.cancel_moves sound.data own) (Data.cancel_cancels _ _).recalls
  | .addModel refers, sound =>
    .of_moves sound (Data.addModel_moves sound.data refers) (Data.addModel_alters _ _).1
  | .addCollection refers, sound =>
    .of_moves sound (Data.addCollection_moves sound.data refers) (Data.addCollection_alters _ _).1
  | .other data documents renders registries failures, sound => by
      refine ⟨sound.of_eq data documents renders, ?_, ?_, ?_, registries, ?_⟩
      · rw [data]
        exact .refl _
      · rw [data]
      · rw [data]
      · exact failures ▸ List.prefix_refl _

theorem Telling.proceeds {behaviour : Behaviour Client} {news : News} {pending entries : Notices}
    {world : World Client} :
    Telling rule behaviour news pending entries world → world.Sound → news.Refers world.data →
      world.Proceeds (announce behaviour news entries world)
  | .done _, sound, _ => .refl sound
  | .passed gone rest, sound, refers => by
      rw [announce, if_neg (by simp [gone])]
      exact rest.proceeds sound refers
  | .client there free acts rest, sound, refers => by
      rw [announce, if_pos there]
      have first := acts.proceeds sound
      exact first.trans (rest.proceeds first.sound (refers.mono first.models first.collections))
  | .render there own rest, sound, refers => by
      rw [announce, if_pos there]
      obtain ⟨⟨render, owner⟩, owned⟩ := Option.ne_none_iff_exists'.1 own
      have first := (receive_concerns behaviour sound refers owned).proceeds
      exact first.trans (rest.proceeds first.sound (refers.mono first.models first.collections))

end

/-- Where only renders are still to be told, client code does nothing. -/
theorem Telling.of_owned (own : ∀ entry ∈ entries, entry.2.owner? ≠ none) (world : World Client) :
    Telling rule behaviour news pending entries world := by
  induction entries generalizing world with
  | nil => exact .done world
  | cons entry later induction =>
      have rest := induction fun other member => own other (List.mem_cons_of_mem _ member)
      cases there : world.data.isHeld entry.1 with
      | false => exact .passed there (rest world)
      | true => exact .render there (own entry List.mem_cons_self) (rest _)

/-! ## Runs of given client code -/

/-- Whatever client code does when it is told something is a run. -/
structure Abides (rule : Rule Client) (behaviour : Behaviour Client) : Prop where
  value : ∀ pending hook value world, Run rule pending world (behaviour.value hook value world)
  change : ∀ pending hook change world, Run rule pending world (behaviour.change hook change world)

/-- Client code that does nothing abides by every rule. -/
theorem Abides.of_idle (rule : Rule Client)
    (value : ∀ hook value world, behaviour.value hook value world = world)
    (change : ∀ hook change world, behaviour.change hook change world = world) :
    Abides rule behaviour where
  value := fun pending hook told world => by
    rw [value]
    exact .done pending world
  change := fun pending hook told world => by
    rw [change]
    exact .done pending world

theorem still_abides (rule : Rule Client) : Abides rule (still Client) :=
  .of_idle rule (fun _ _ _ => rfl) fun _ _ _ => rfl

theorem Abides.telling (abides : Abides rule behaviour) (news : News) (pending entries : Notices)
    (world : World Client) : Telling rule behaviour news pending entries world := by
  induction entries generalizing world with
  | nil => exact .done world
  | cons entry later induction =>
      obtain ⟨subscription, observer⟩ := entry
      cases there : world.data.isHeld subscription with
      | false => exact .passed there (induction world)
      | true =>
          by_cases free : observer.owner? = none
          · have acts : Run rule (later ++ pending) world (world.receive behaviour news observer) := by
              match news, observer with
              | .value .., .value (.client hook) => exact abides.value ..
              | .change .., .change (.client hook) => exact abides.change ..
              | .value .., .change _ | .change .., .value _ => exact .done ..
              | .value .., .value (.path _) | .change .., .change (.rebuild ..)
              | .change .., .change (.splice ..) => cases free
            exact .client there free acts (induction _)
          · exact .render there free (induction _)

/-- The world after a value has been set, or the same world if it could not be set. -/
def setOr (world : World Client) (behaviour : Behaviour Client) (model : ModelId) (property : String)
    (value : Value) : World Client :=
  match world.set behaviour model property value with
  | .ok after => after
  | .error _ => world

/-- A value is set, if the rule allows it. -/
theorem Abides.set (abides : Abides rule behaviour) {model : ModelId} {property : String} {value : Value}
    (refers : world.data.Refers value)
    (ruled : rule pending (.value model property value) world
      (world.setOr behaviour model property value)) :
    Run rule pending world (world.setOr behaviour model property value) := by
  have stored := set_eq behaviour world model property value
  unfold setOr at ruled ⊢
  cases put : world.data.put model property value with
  | error error =>
      rw [put] at stored
      rw [stored]
      exact .done pending world
  | ok data =>
      rw [put] at stored
      simp only [stored] at ruled ⊢
      exact .next (.set refers put (abides.telling ..) stored ruled) (.done _ _)

/-- A collection is changed, if the rule allows it. -/
theorem Abides.mutate (abides : Abides rule behaviour) {collection : CollectionId} {mutation : Mutation}
    (refers : ∀ change, mutation.change? (world.data.collection collection).items = some change →
      world.data.RefersIn change)
    (ruled : ∀ change, mutation.change? (world.data.collection collection).items = some change →
      rule pending (.change collection change) world (world.mutate behaviour collection mutation).2) :
    Run rule pending world (world.mutate behaviour collection mutation).2 := by
  cases made : mutation.change? (world.data.collection collection).items with
  | none =>
      rw [World.mutate, made]
      exact .done pending world
  | some change =>
      exact .next (.mutate made (refers change made) rfl (abides.telling ..) (ruled change made))
        (.done _ _)

theorem Run.trans {world middle after : World Client} : Run rule pending world middle →
    Run rule pending middle after → Run rule pending world after
  | .done _ _, second => second
  | .next step rest, second => .next step (rest.trans second)

end World

end LiveTemplate
