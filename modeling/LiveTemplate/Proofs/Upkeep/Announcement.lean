import LiveTemplate.Proofs.Upkeep.Upheld
import LiveTemplate.View.Mutation

/-!
# Announcements

A value that has been stored is announced on a channel of its model, a change on the channel of its
collection.  Either goes to whoever was registered there, one after the other, as long as they still
are.
-/

namespace LiveTemplate

/-- What is announced. -/
inductive News where
  | value (model : ModelId) (property : String) (value : Value)
  | change (collection : CollectionId) (change : Change)

namespace News

/-- Where something is announced. -/
def source : News → Source
  | .value model property _ => .model model (changeChannel property)
  | .change collection _ => .collection collection

/-- What is announced refers to models and collections that are there. -/
def Refers (news : News) (data : Data) : Prop :=
  match news with
  | .value _ _ stored => data.Refers stored
  | .change _ made => data.RefersIn made

theorem Refers.mono {data other : Data} {news : News} (refers : news.Refers data)
    (models : data.models.next ≤ other.models.next)
    (collections : data.collections.next ≤ other.collections.next) : news.Refers other := by
  match news, refers with
  | .value .., refers => exact Data.Refers.mono refers models collections
  | .change .., refers => exact Data.RefersIn.mono refers models collections

end News

namespace Data

/-- Whether a registration is in force. -/
def isHeld (data : Data) (subscription : Subscription) : Bool :=
  (data.observers subscription.source).any (·.1 == subscription.id)

theorem isHeld_iff {data : Data} {subscription : Subscription} :
    data.isHeld subscription = true ↔ ∃ observer, data.Holds subscription observer := by
  simp [isHeld, Holds]

theorem not_holds_of_isHeld {data : Data} {subscription : Subscription}
    (gone : data.isHeld subscription = false) (observer : Observer) :
    ¬ data.Holds subscription observer := fun held => by
  rw [isHeld_iff.2 ⟨observer, held⟩] at gone
  cases gone

end Data

namespace World

variable {Client : Type} {behaviour : Behaviour Client} {news : News} {world : World Client}

/-- An observer is told. -/
def receive (behaviour : Behaviour Client) (news : News) (observer : Observer)
    (world : World Client) : World Client :=
  match news, observer with
  | .value _ _ value, .value observer => tell behaviour value observer world
  | .change _ change, .change observer => tellChange behaviour change observer world
  | .value .., .change _ | .change .., .value _ => world

/-- Whoever is still registered is told. -/
def announce (behaviour : Behaviour Client) (news : News) : Notices → World Client → World Client
  | [], world => world
  | (subscription, observer) :: later, world =>
    if world.data.isHeld subscription then
      announce behaviour news later (world.receive behaviour news observer)
    else announce behaviour news later world

theorem announce_eq_deliver {Callback : Type} {source : Source} (observe : Callback → Observer)
    (current : World Client → Channel Callback) (call : Callback → World Client → World Client)
    (there : ∀ world : World Client, ∀ id,
      (current world).isSubscribed id = world.data.isHeld ⟨source, id⟩)
    (calls : ∀ callback world, receive behaviour news (observe callback) world = call callback world)
    (entries : List (SubscriptionId × Callback)) (world : World Client) :
    announce behaviour news (entries.map fun entry => (⟨source, entry.1⟩, observe entry.2)) world =
      deliver current call entries world := by
  induction entries generalizing world with
  | nil => rfl
  | cons entry later induction =>
      rw [List.map_cons, announce, deliver, there, calls]
      split <;> exact induction _

/-- A value is stored and announced. -/
theorem set_eq (behaviour : Behaviour Client) (world : World Client) (model : ModelId)
    (property : String) (value : Value) : world.set behaviour model property value =
      (world.data.put model property value).map fun data => announce behaviour
        (.value model property value) (data.registrationsOn (.model model (changeChannel property)))
        { world with data } := by
  unfold World.set
  cases world.data.put model property value with
  | error => rfl
  | ok data =>
      have listed : data.registrationsOn (.model model (changeChannel property)) =
          ((data.model model).channel (changeChannel property)).subscribers.map fun entry =>
            (⟨.model model (changeChannel property), entry.1⟩, .value entry.2) := by
        simp [Data.registrationsOn, Data.observers, Function.comp_def]
      refine congrArg Except.ok ?_
      show notify _ _ _ = announce _ _ (data.registrationsOn _) _
      rw [listed, announce_eq_deliver .value
        (fun world => (world.data.model model).channel (changeChannel property)) (tell behaviour value)
        (fun _ _ => ?_) fun _ _ => rfl]
      · rfl
      simp [Data.isHeld, Data.observers, Channel.isSubscribed, Function.comp_def]

/-- A change is made and announced. -/
theorem change_eq (behaviour : Behaviour Client) (world : World Client) (collection : CollectionId)
    (change : Change) {data : Data}
    (stored : data = world.data.modifyCollection collection fun collection =>
      { collection with items := change.apply collection.items }) :
    world.change behaviour collection change = announce behaviour (.change collection change)
      (data.registrationsOn (.collection collection)) { world with data } := by
  subst stored
  generalize stored : (world.data.modifyCollection collection fun collection =>
    { collection with items := change.apply collection.items }) = data
  have listed : data.registrationsOn (.collection collection) =
      (data.collection collection).channel.subscribers.map fun entry =>
        (⟨.collection collection, entry.1⟩, .change entry.2) := by
    simp [Data.registrationsOn, Data.observers, Function.comp_def]
  unfold World.change
  rw [listed, stored, announce_eq_deliver .change
    (fun world => (world.data.collection collection).channel) (tellChange behaviour change)
    (fun _ _ => ?_) fun _ _ => rfl]
  · rfl
  simp [Data.isHeld, Data.observers, Channel.isSubscribed, Function.comp_def]

end World

end LiveTemplate
