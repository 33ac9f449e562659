import LiveTemplate.Proofs.Reactive.Passes
import LiveTemplate.Proofs.Reactive.Recall
import LiveTemplate.Proofs.Upkeep.Repair
import LiveTemplate.View.Mutation

/-!
# Chronicles

Whoever is told the new value of a property may set properties, that one or others, and come and go on
their channels.  A chronicle lists what happens in the order in which it begins, so that what an
observer does comes after its being told.  However old the values are that observers are still told,
the last one that was stored is read from then on, and whoever stays registered is told from then on.
-/

namespace LiveTemplate

namespace Data

variable {data other last : Data}

/-- Registrations have numbers that were given out. -/
def Below (data : Data) : Prop :=
  ∀ subscription observer, data.Holds subscription observer →
    subscription.id < data.nextNumber subscription.source

/-- No value of a model that is there has changed. -/
structure Leaves (data other : Data) : Prop where
  recalls : data.Recalls other
  below : data.Below → other.Below
  models : data.models.next ≤ other.models.next
  values : ∀ model property, model.index < data.models.next →
    other.get model property = data.get model property

theorem Leaves.refl (data : Data) : data.Leaves data :=
  ⟨.refl data, id, le_rfl, fun _ _ _ => rfl⟩

theorem Agrees.leaves (agrees : data.Agrees other) (recalls : data.Recalls other)
    (sound : other.Sound) : data.Leaves other :=
  ⟨recalls, fun _ => sound.below, agrees.models.ge, fun model property _ => agrees.get model property⟩

theorem Alters.leaves {touched : Source → Prop} (alters : data.Alters other touched)
    (spared : ∀ model channel, ¬ touched (.model model channel)) (recalls : data.Recalls other)
    (sound : other.Sound) (models : data.models.next ≤ other.models.next) : data.Leaves other :=
  ⟨recalls, fun _ => sound.below, models, fun model property inside =>
    alters.values model property inside (spared model _)⟩

/-- A value is stored: nobody comes or goes. -/
theorem put_observers {model : ModelId} {property : String} {value : Value}
    (stored : data.put model property value = .ok other) :
    model.index < data.models.next ∧ other.models.next = data.models.next ∧
      ∀ source, other.observers source = data.observers source ∧
        other.nextNumber source = data.nextNumber source := by
  obtain ⟨declared, rfl⟩ := put_spec stored
  refine ⟨?_, by simp [modifyModel], observers_modifyModel_of_channels fun _ => rfl⟩
  by_contra outside
  rw [Data.model, Store.get?_eq_none (Nat.not_lt.1 outside)] at declared
  cases declared

theorem put_channel {model : ModelId} {property channel : String} {value : Value}
    (stored : data.put model property value = .ok other) :
    (other.model model).channel channel = (data.model model).channel channel := by
  obtain ⟨inside, _, _⟩ := put_observers stored
  obtain ⟨_, rfl⟩ := put_spec stored
  rw [model_modifyModel data model model _ inside, if_pos rfl]
  rfl

theorem Below.of_observers (below : data.Below)
    (same : ∀ source, other.observers source = data.observers source ∧
      other.nextNumber source = data.nextNumber source) : other.Below := by
  intro subscription observer held
  rw [Holds, (same _).1] at held
  rw [(same _).2]
  exact below subscription observer held

theorem holds_iff_mem_subscribers {model : ModelId} {channel : String} {id : SubscriptionId}
    {observer : ValueObserver} : data.Holds ⟨.model model channel, id⟩ (.value observer) ↔
      (id, observer) ∈ ((data.model model).channel channel).subscribers := by
  simp [Holds, observers]

end Data

namespace World

variable {Client : Type}

/-- Where the value of a property is announced, and what is done about it. -/
def announcing (Client : Type) (model : ModelId) (property : String) :
    Host (World Client) ValueObserver (Behaviour Client × Value) where
  channel := fun world => (world.data.model model).channel (changeChannel property)
  call := fun told observer => tell told.1 told.2 observer

/-- What has been stored is announced. -/
theorem set_announces (behaviour : Behaviour Client) {world : World Client} {model : ModelId}
    {property : String} {value : Value} {data : Data}
    (stored : world.data.put model property value = .ok data) :
    world.set behaviour model property value = .ok (notify (announcing Client model property).channel
      ((announcing Client model property).call (behaviour, value)) { world with data }) := by
  rw [World.set, stored]
  rfl

/-- Only what is not declared cannot be set. -/
theorem set_eq_error_iff (behaviour : Behaviour Client) {world : World Client} {model : ModelId}
    {property : String} {value : Value} {error : ModelError} :
    world.set behaviour model property value = .error error ↔
      (world.data.model model).declares property = false ∧ error = .undeclaredProperty property := by
  rw [World.set, Data.put]
  cases (world.data.model model).declares property with
  | true => simp [bind, Except.bind, pure, Except.pure]
  | false => simp [bind, Except.bind, eq_comm]

/-- An observer is told the value of a property. -/
structure Report (Client : Type) where
  behaviour : Behaviour Client
  model : ModelId
  property : String
  value : Value
  id : SubscriptionId
  observer : ValueObserver
  /-- The world in which it is told. -/
  world : World Client

/-- Something that happens, with the world in which it begins. -/
inductive Occurrence (Client : Type) where
  /-- A value is stored and announced, to these observers. -/
  | set (behaviour : Behaviour Client) (world : World Client) (model : ModelId) (property : String)
      (value : Value) (reports : List (Report Client))
  /-- A value cannot be set. -/
  | refuse (behaviour : Behaviour Client) (world : World Client) (model : ModelId)
      (property : String) (value : Value)
  | tell (report : Report Client)
  | other (world : World Client)

namespace Occurrence

/-- The world in which it begins. -/
def world : Occurrence Client → World Client
  | .set _ world .. | .refuse _ world .. | .other world => world
  | .tell report => report.world

/-- Whether a value of the property is stored. -/
def Sets (model : ModelId) (property : String) : Occurrence Client → Prop
  | .set _ _ holder segment _ _ => holder = model ∧ segment = property
  | .refuse .. | .tell _ | .other _ => False

/-- Who is told. -/
def report? : Occurrence Client → Option (Report Client)
  | .tell report => some report
  | .set .. | .refuse .. | .other _ => none

/-- Who is told of what is set. -/
def reports : Occurrence Client → List (Report Client)
  | .set _ _ _ _ _ reports => reports
  | .refuse .. | .tell _ | .other _ => []

end Occurrence

mutual

/-- What happens from one world to another. -/
inductive Chronicle : World Client → List (Occurrence Client) → World Client → Prop where
  | done (world : World Client) : Chronicle world [] world
  | set {world middle after : World Client} {data : Data} {model : ModelId} {property : String}
      {value : Value} {inner log : List (Occurrence Client)} (behaviour : Behaviour Client)
      (reports : List (Report Client)) (stored : world.data.put model property value = .ok data)
      (delivery : Delivery behaviour model property value
        ((data.model model).channel (changeChannel property)).subscribers { world with data } reports
        inner)
      (set : world.set behaviour model property value = .ok middle)
      (rest : Chronicle middle log after) :
      Chronicle world (.set behaviour world model property value reports :: inner ++ log) after
  | refuse {behaviour : Behaviour Client} {world after : World Client} {model : ModelId}
      {property : String} {value : Value} {log : List (Occurrence Client)} (error : ModelError)
      (set : world.set behaviour model property value = .error error)
      (rest : Chronicle world log after) :
      Chronicle world (.refuse behaviour world model property value :: log) after
  /-- Anything else. -/
  | other {world middle after : World Client} {log : List (Occurrence Client)}
      (leaves : world.data.Leaves middle.data) (rest : Chronicle middle log after) :
      Chronicle world (.other world :: log) after

/-- What happens while observers are told. -/
inductive Delivery : Behaviour Client → ModelId → String → Value →
    List (SubscriptionId × ValueObserver) → World Client → List (Report Client) →
      List (Occurrence Client) → Prop where
  | done (behaviour : Behaviour Client) (model : ModelId) (property : String) (value : Value)
      (world : World Client) : Delivery behaviour model property value [] world [] []
  | passed {behaviour : Behaviour Client} {model : ModelId} {property : String} {value : Value}
      {later : List (SubscriptionId × ValueObserver)} {world : World Client}
      {reports : List (Report Client)} {log : List (Occurrence Client)} (id : SubscriptionId)
      (observer : ValueObserver)
      (gone : ((world.data.model model).channel (changeChannel property)).isSubscribed id = false)
      (rest : Delivery behaviour model property value later world reports log) :
      Delivery behaviour model property value ((id, observer) :: later) world reports log
  | told {behaviour : Behaviour Client} {model : ModelId} {property : String} {value : Value}
      {later : List (SubscriptionId × ValueObserver)} {world : World Client}
      {reports : List (Report Client)} {inner log : List (Occurrence Client)} (id : SubscriptionId)
      (observer : ValueObserver)
      (there : ((world.data.model model).channel (changeChannel property)).isSubscribed id = true)
      (acts : Chronicle world inner (tell behaviour value observer world))
      (rest : Delivery behaviour model property value later (tell behaviour value observer world)
        reports log) :
      Delivery behaviour model property value ((id, observer) :: later) world
        (⟨behaviour, model, property, value, id, observer, world⟩ :: reports)
        (.tell ⟨behaviour, model, property, value, id, observer, world⟩ :: inner ++ log)

end

/-- A value is the last one that was stored for a property. -/
def LastSet (log : List (Occurrence Client)) (model : ModelId) (property : String) (value : Value)
    (late : List (Occurrence Client)) : Prop :=
  (∃ early behaviour world reports,
    log = early ++ .set behaviour world model property value reports :: late) ∧
      ∀ occurrence ∈ late, ¬ occurrence.Sets model property

/-- What can be said of a chronicle on the whole. -/
structure Segment (world : World Client) (log : List (Occurrence Client)) (after : World Client) :
    Prop where
  recalls : world.data.Recalls after.data
  below : after.data.Below
  models : world.data.models.next ≤ after.data.models.next
  /-- The value of a property that is not set is the same at any time. -/
  unset : ∀ model property, model.index < world.data.models.next →
    (∀ occurrence ∈ log, ¬ occurrence.Sets model property) →
      after.data.get model property = world.data.get model property ∧
        ∀ occurrence ∈ log,
          occurrence.world.data.get model property = world.data.get model property
  /-- The last value that was stored is the value from then on. -/
  current : ∀ model property value late, LastSet log model property value late →
    model.index < after.data.models.next ∧ after.data.get model property = value ∧
      ∀ occurrence ∈ late, occurrence.world.data.get model property = value
  /-- Whoever stays registered is told from then on. -/
  heard : ∀ model property value late, LastSet log model property value late → ∀ id observer,
    world.data.Holds ⟨.model model (changeChannel property), id⟩ (.value observer) →
      after.data.Holds ⟨.model model (changeChannel property), id⟩ (.value observer) →
        ∃ report, .tell report ∈ late ∧ report.model = model ∧ report.property = property ∧
          report.id = id ∧ report.observer = observer

section Segment

variable {world middle after : World Client} {first second log late : List (Occurrence Client)}
  {behaviour : Behaviour Client} {model : ModelId} {property : String} {value : Value}

theorem LastSet.of_append (last : LastSet (first ++ second) model property value late) :
    LastSet second model property value late ∨ ∃ between, LastSet first model property value between ∧
      late = between ++ second ∧ ∀ occurrence ∈ second, ¬ occurrence.Sets model property := by
  obtain ⟨⟨early, behaviour, world, reports, parts⟩, quiet⟩ := last
  rcases List.append_eq_append_iff.1 parts with ⟨more, _, here⟩ | ⟨more, there, here⟩
  · exact .inl ⟨⟨more, behaviour, world, reports, here⟩, quiet⟩
  · cases more with
    | nil => exact .inl ⟨⟨[], behaviour, world, reports, here.symm⟩, quiet⟩
    | cons set between =>
        obtain ⟨rfl, rfl⟩ := List.cons.inj here
        obtain ⟨before, beyond⟩ := List.forall_mem_append.1 quiet
        exact .inr ⟨between, ⟨⟨early, behaviour, world, reports, there⟩, before⟩, rfl, beyond⟩

theorem Segment.append (early : Segment world first middle) (later : Segment middle second after)
    (below : world.data.Below) : Segment world (first ++ second) after where
  recalls := early.recalls.trans later.recalls
  below := later.below
  models := early.models.trans later.models
  unset := by
    intro model property inside quiet
    obtain ⟨before, beyond⟩ := List.forall_mem_append.1 quiet
    obtain ⟨between, here⟩ := early.unset model property inside before
    obtain ⟨last, there⟩ := later.unset model property (inside.trans_le early.models) beyond
    constructor
    · exact last.trans between
    · exact List.forall_mem_append.2
        ⟨here, fun occurrence member => (there occurrence member).trans between⟩
  current := by
    intro model property value late last
    rcases last.of_append with second | ⟨between, first, parts, quiet⟩
    · exact later.current model property value late second
    · obtain ⟨inside, amid, here⟩ := early.current model property value between first
      obtain ⟨last, there⟩ := later.unset model property inside quiet
      refine ⟨inside.trans_le later.models, last.trans amid, ?_⟩
      rw [parts]
      exact List.forall_mem_append.2
        ⟨here, fun occurrence member => (there occurrence member).trans amid⟩
  heard := by
    intro model property value late last id observer before beyond
    -- A number that was given out early is not given out again, so the registration was in force.
    have amid := later.recalls.holds _ _ beyond
      ((below _ _ before).trans_le (early.recalls.numbers _))
    rcases last.of_append with second | ⟨between, first, parts, quiet⟩
    · exact later.heard model property value late second id observer amid beyond
    · obtain ⟨report, listed, same⟩ :=
        early.heard model property value between first id observer before amid
      exact ⟨report, parts ▸ List.mem_append_left _ listed, same⟩

theorem Segment.nil (below : world.data.Below) : Segment world [] world where
  recalls := .refl _
  below := below
  models := le_rfl
  unset := fun _ _ _ _ => ⟨rfl, nofun⟩
  current := by
    intro model property value late last
    obtain ⟨⟨early, _, _, _, parts⟩, _⟩ := last
    exact absurd parts (by simp)
  heard := by
    intro model property value late last
    obtain ⟨⟨early, _, _, _, parts⟩, _⟩ := last
    exact absurd parts (by simp)

/-- First, nothing is set. -/
theorem Segment.cons {occurrence : Occurrence Client} (below : world.data.Below)
    (here : occurrence.world = world) (quiet : ∀ model property, ¬ occurrence.Sets model property)
    (leaves : world.data.Leaves middle.data) (rest : Segment middle log after) :
    Segment world (occurrence :: log) after := by
  have never : ∀ model property value late, ¬ LastSet [occurrence] model property value late := by
    intro model property value late last
    obtain ⟨⟨early, behaviour, other, reports, parts⟩, _⟩ := last
    have member : Occurrence.set behaviour other model property value reports ∈ [occurrence] := by
      rw [parts]
      simp
    apply quiet model property
    rw [← List.mem_singleton.1 member]
    exact ⟨rfl, rfl⟩
  have first : Segment world [occurrence] middle := by
    constructor
    · exact leaves.recalls
    · exact leaves.below below
    · exact leaves.models
    · intro model property inside _
      refine ⟨leaves.values model property inside, List.forall_mem_singleton.2 ?_⟩
      rw [here]
    · intro model property value late last
      exact (never model property value late last).elim
    · intro model property value late last
      exact (never model property value late last).elim
  exact first.append rest below

/-- A value is stored and announced. -/
theorem Segment.set {data : Data} (behaviour : Behaviour Client) (reports : List (Report Client))
    (stored : world.data.put model property value = .ok data)
    (inner : Segment { world with data } log after)
    (told : ∀ id observer, data.Holds ⟨.model model (changeChannel property), id⟩ (.value observer) →
      after.data.Holds ⟨.model model (changeChannel property), id⟩ (.value observer) →
        ∃ report, .tell report ∈ log ∧ report.model = model ∧ report.property = property ∧
          report.id = id ∧ report.observer = observer) :
    Segment world (.set behaviour world model property value reports :: log) after := by
  obtain ⟨recalls, alters, kept⟩ := Data.put_alters stored
  obtain ⟨inside, models, same⟩ := Data.put_observers stored
  have held : ∀ source id observer, world.data.Holds ⟨source, id⟩ observer →
      data.Holds ⟨source, id⟩ observer := by
    intro source id observer holds
    rw [Data.Holds, (same _).1]
    exact holds
  -- What is set last is either this value or one that is set in the meantime.
  have cases : ∀ holder segment stored late,
      LastSet (.set behaviour world model property value reports :: log) holder segment stored late →
        LastSet log holder segment stored late ∨
        holder = model ∧ segment = property ∧ stored = value ∧ late = log ∧
          ∀ occurrence ∈ log, ¬ occurrence.Sets model property := by
    intro holder segment stored late last
    obtain ⟨⟨early, other, before, others, parts⟩, quiet⟩ := last
    cases early with
    | nil =>
        obtain ⟨first, rest⟩ := List.cons.inj parts
        cases first
        exact .inr ⟨rfl, rfl, rfl, rest.symm, rest ▸ quiet⟩
    | cons first early =>
        exact .inl ⟨⟨early, other, before, others, (List.cons.inj parts).2⟩, quiet⟩
  constructor
  · exact recalls.trans inner.recalls
  · exact inner.below
  · exact models ▸ inner.models
  · intro holder segment there quiet
    obtain ⟨first, later⟩ := List.forall_mem_cons.1 quiet
    have apart :
        Source.model holder (changeChannel segment) ≠ .model model (changeChannel property) := by
      intro same
      obtain ⟨holds, names⟩ := Source.model.inj same
      exact first ⟨holds.symm, (changeChannel_injective names).symm⟩
    have before := alters.values holder segment there apart
    obtain ⟨last, always⟩ := inner.unset holder segment (there.trans_eq models.symm) later
    refine ⟨last.trans before, List.forall_mem_cons.2 ⟨rfl, fun occurrence member => ?_⟩⟩
    exact (always occurrence member).trans before
  · intro holder segment stored late last
    rcases cases holder segment stored late last with later | ⟨rfl, rfl, rfl, rfl, quiet⟩
    · exact inner.current holder segment stored late later
    · have there : holder.index < data.models.next := inside.trans_eq models.symm
      obtain ⟨last, always⟩ := inner.unset holder segment there quiet
      exact ⟨there.trans_le inner.models, last.trans kept, fun occurrence member =>
        (always occurrence member).trans kept⟩
  · intro holder segment stored late last id observer before beyond
    rcases cases holder segment stored late last with later | ⟨rfl, rfl, rfl, rfl, quiet⟩
    · exact inner.heard holder segment stored late later id observer (held _ _ _ before) beyond
    · exact told id observer (held _ _ _ before) beyond

end Segment

mutual

theorem Chronicle.segment {world after : World Client} {log : List (Occurrence Client)} :
    Chronicle world log after → world.data.Below → Segment world log after
  | .done _, below => .nil below
  | .set behaviour reports stored delivery set rest, below => by
      have put := below.of_observers (Data.put_observers stored).2.2
      have done := Except.ok.inj ((set_announces behaviour stored).symm.trans set)
      obtain ⟨inner, told⟩ := delivery.segment done put fun entry member =>
        put _ _ (Data.holds_iff_mem_subscribers.2 member)
      have first := Segment.set behaviour reports stored inner fun id observer held there =>
        told (id, observer) (Data.holds_iff_mem_subscribers.1 held) there
      exact first.append (rest.segment first.below) below
  | .refuse _ _ rest, below => by
      exact .cons below rfl (fun _ _ sets => sets) (.refl _) (rest.segment below)
  | .other leaves rest, below => by
      exact .cons below rfl (fun _ _ sets => sets) leaves (rest.segment (leaves.below below))

theorem Delivery.segment {behaviour : Behaviour Client} {model : ModelId} {property : String}
    {value : Value} {entries : List (SubscriptionId × ValueObserver)} {world after : World Client}
    {reports : List (Report Client)} {log : List (Occurrence Client)} :
    Delivery behaviour model property value entries world reports log →
      deliver (announcing Client model property).channel
        ((announcing Client model property).call (behaviour, value)) entries world = after →
      world.data.Below →
      (∀ entry ∈ entries, entry.1 < world.data.nextNumber (.model model (changeChannel property))) →
        Segment world log after ∧ ∀ entry ∈ entries,
          after.data.Holds ⟨.model model (changeChannel property), entry.1⟩ (.value entry.2) →
            ∃ report, .tell report ∈ log ∧ report.model = model ∧ report.property = property ∧
              report.id = entry.1 ∧ report.observer = entry.2
  | .done .., done, below, _ => by
      obtain rfl := done
      exact ⟨.nil below, nofun⟩
  | .passed id observer gone rest, done, below, early => by
      obtain ⟨first, later⟩ := List.forall_mem_cons.1 early
      have skips : ((announcing Client model property).channel world).isSubscribed id = false := gone
      rw [deliver, if_neg (by simp [skips])] at done
      obtain ⟨segment, told⟩ := rest.segment done below later
      refine ⟨segment, List.forall_mem_cons.2 ⟨fun held => ?_, told⟩⟩
      have here := Data.holds_iff_mem_subscribers.1 (segment.recalls.holds _ _ held first)
      rw [Channel.isSubscribed_iff.2 ⟨observer, here⟩] at gone
      cases gone
  | .told id observer there acts rest, done, below, early => by
      obtain ⟨_, later⟩ := List.forall_mem_cons.1 early
      have goes : ((announcing Client model property).channel world).isSubscribed id = true := there
      rw [deliver, if_pos goes] at done
      have first : Segment world
          (.tell ⟨behaviour, model, property, value, id, observer, world⟩ :: _) _ :=
        .cons below rfl (fun _ _ sets => sets) (.refl _) (acts.segment below)
      obtain ⟨segment, told⟩ := rest.segment done first.below fun entry member =>
        (later entry member).trans_le (first.recalls.numbers _)
      refine ⟨first.append segment below, List.forall_mem_cons.2 ⟨fun _ => ?_, ?_⟩⟩
      · exact ⟨_, List.mem_cons_self, rfl, rfl, rfl, rfl⟩
      · intro entry member held
        obtain ⟨report, listed, same⟩ := told entry member held
        exact ⟨report, List.mem_append_right _ listed, same⟩

end

/-! ## Who is told -/

/-- A value is stored and announced once, on the channel of its property, and these are told. -/
structure Announces (behaviour : Behaviour Client) (world : World Client) (model : ModelId)
    (property : String) (value : Value) (reports : List (Report Client)) : Prop where
  once : ∃ data, world.data.put model property value = .ok data ∧
    world.set behaviour model property value = .ok (notify (announcing Client model property).channel
      ((announcing Client model property).call (behaviour, value)) { world with data }) ∧
    (notify (announcing Client model property).noting.channel
      ((announcing Client model property).noting.call (behaviour, value)) ({ world with data }, [])).2 =
        reports.map fun report => (report.observer, behaviour, value)
  own : ∀ report ∈ reports, report.behaviour = behaviour ∧ report.model = model ∧
    report.property = property ∧ report.value = value
  ordered : (reports.map fun report => (report.id, report.observer)).Sublist
    ((world.data.model model).channel (changeChannel property)).subscribers

/-- The world in which the rest begins. -/
def onset (late : List (Occurrence Client)) (after : World Client) : World Client :=
  (late.head?.map Occurrence.world).getD after

/-- What is set is announced, and what cannot be set changes nothing. -/
structure Orderly (log : List (Occurrence Client)) (after : World Client) : Prop where
  announces : ∀ behaviour world model property value reports,
    .set behaviour world model property value reports ∈ log →
      Announces behaviour world model property value reports
  refused : ∀ early behaviour world model property value late,
    log = early ++ .refuse behaviour world model property value :: late →
      world.set behaviour model property value = .error (.undeclaredProperty property) ∧
        onset late after = world

theorem onset_append (first second : List (Occurrence Client)) (after : World Client) :
    onset (first ++ second) after = onset first (onset second after) := by
  cases first <;> rfl

theorem Chronicle.onset_eq {world after : World Client} {log : List (Occurrence Client)}
    (chronicle : Chronicle world log after) : onset log after = world := by
  cases chronicle <;> rfl

section Delivery

variable {behaviour : Behaviour Client} {model : ModelId} {property : String} {value : Value}

theorem Delivery.onset_eq {entries : List (SubscriptionId × ValueObserver)}
    {world after : World Client} {reports : List (Report Client)} {log : List (Occurrence Client)} :
    Delivery behaviour model property value entries world reports log →
      deliver (announcing Client model property).channel
        ((announcing Client model property).call (behaviour, value)) entries world = after →
      onset log after = world
  | .done .., ends => ends.symm
  | .passed id observer gone rest, ends => by
      have skips : ((announcing Client model property).channel world).isSubscribed id = false := gone
      rw [deliver, if_neg (by simp [skips])] at ends
      exact rest.onset_eq ends
  | .told .., _ => rfl

/-- Observers that note what they are told are told the same. -/
theorem Delivery.noted {entries : List (SubscriptionId × ValueObserver)} {world : World Client}
    {reports : List (Report Client)} {log : List (Occurrence Client)}
    (notes : List (ValueObserver × Behaviour Client × Value)) :
    Delivery behaviour model property value entries world reports log →
      deliver (announcing Client model property).noting.channel
        ((announcing Client model property).noting.call (behaviour, value)) entries (world, notes) =
          (deliver (announcing Client model property).channel
            ((announcing Client model property).call (behaviour, value)) entries world,
          notes ++ reports.map fun report => (report.observer, behaviour, value))
  | .done .. => by simp [deliver]
  | .passed id observer gone rest => by
      have skips : ((announcing Client model property).channel world).isSubscribed id = false := gone
      have also : ((announcing Client model property).noting.channel (world, notes)).isSubscribed id =
          false := gone
      rw [deliver, deliver, if_neg (by simp [also]), if_neg (by simp [skips])]
      exact rest.noted notes
  | .told id observer there acts rest => by
      have goes : ((announcing Client model property).channel world).isSubscribed id = true := there
      have also : ((announcing Client model property).noting.channel (world, notes)).isSubscribed id =
          true := there
      rw [deliver, deliver, if_pos also, if_pos goes, List.map_cons, ← List.singleton_append,
        ← List.append_assoc]
      exact rest.noted (notes ++ [(observer, behaviour, value)])

theorem Delivery.own {entries : List (SubscriptionId × ValueObserver)} {world : World Client}
    {reports : List (Report Client)} {log : List (Occurrence Client)} :
    Delivery behaviour model property value entries world reports log →
      (∀ report ∈ reports, report.behaviour = behaviour ∧ report.model = model ∧
        report.property = property ∧ report.value = value) ∧
      (reports.map fun report => (report.id, report.observer)).Sublist entries
  | .done .. => ⟨nofun, .slnil⟩
  | .passed _ _ _ rest => ⟨rest.own.1, rest.own.2.cons _⟩
  | .told _ _ _ _ rest =>
      ⟨List.forall_mem_cons.2 ⟨⟨rfl, rfl, rfl, rfl⟩, rest.own.1⟩, rest.own.2.cons_cons _⟩

/-- What is stored is announced in one delivery. -/
theorem Delivery.announces {world : World Client} {data : Data} {reports : List (Report Client)}
    {log : List (Occurrence Client)} (stored : world.data.put model property value = .ok data)
    (delivery : Delivery behaviour model property value
      ((data.model model).channel (changeChannel property)).subscribers { world with data } reports log) :
    Announces behaviour world model property value reports where
  once := ⟨data, stored, set_announces behaviour stored, congrArg Prod.snd (delivery.noted [])⟩
  own := delivery.own.1
  ordered := by
    have ordered := delivery.own.2
    rw [Data.put_channel stored] at ordered
    exact ordered

end Delivery

section Orderly

variable {world middle after : World Client} {first second log : List (Occurrence Client)}

theorem Orderly.nil (after : World Client) : Orderly [] after where
  announces := nofun
  refused := fun _ _ _ _ _ _ _ parts => absurd parts (by simp)

theorem Orderly.cons {occurrence : Occurrence Client} (rest : Orderly log after)
    (announces : ∀ behaviour world model property value reports,
      occurrence = .set behaviour world model property value reports →
        Announces behaviour world model property value reports)
    (refused : ∀ behaviour world model property value,
      occurrence = .refuse behaviour world model property value →
        world.set behaviour model property value = .error (.undeclaredProperty property) ∧
          onset log after = world) : Orderly (occurrence :: log) after where
  announces := by
    intro behaviour world model property value reports member
    rcases List.mem_cons.1 member with here | later
    · exact announces behaviour world model property value reports here.symm
    · exact rest.announces behaviour world model property value reports later
  refused := by
    intro early behaviour world model property value late parts
    cases early with
    | nil =>
        obtain ⟨here, rfl⟩ := List.cons.inj parts
        exact refused behaviour world model property value here
    | cons _ early =>
        exact rest.refused early behaviour world model property value late (List.cons.inj parts).2

theorem Orderly.append (early : Orderly first middle) (later : Orderly second after)
    (begins : onset second after = middle) : Orderly (first ++ second) after where
  announces := by
    intro behaviour world model property value reports member
    rcases List.mem_append.1 member with here | there
    · exact early.announces behaviour world model property value reports here
    · exact later.announces behaviour world model property value reports there
  refused := by
    intro front behaviour world model property value late parts
    rcases List.append_eq_append_iff.1 parts with ⟨more, _, here⟩ | ⟨more, there, here⟩
    · exact later.refused more behaviour world model property value late here
    · cases more with
      | nil => exact later.refused [] behaviour world model property value late here.symm
      | cons refuse between =>
          obtain ⟨same, rest⟩ := List.cons.inj here
          rw [← same] at there
          obtain ⟨error, still⟩ :=
            early.refused front behaviour world model property value between there
          refine ⟨error, ?_⟩
          have begun : onset (between ++ second) after = world := by
            rw [onset_append, begins, still]
          exact rest ▸ begun

end Orderly

mutual

theorem Chronicle.orderly {world after : World Client} {log : List (Occurrence Client)} :
    Chronicle world log after → Orderly log after
  | .done _ => .nil _
  | .set behaviour reports stored delivery set rest => by
      have ends := Except.ok.inj ((set_announces behaviour stored).symm.trans set)
      have announces := delivery.announces stored
      have inner := (delivery.orderly ends).append rest.orderly rest.onset_eq
      refine inner.cons ?_ nofun
      intro _ _ _ _ _ _ same
      cases same
      exact announces
  | .refuse error set rest => by
      refine rest.orderly.cons nofun ?_
      intro _ _ _ _ _ same
      cases same
      obtain ⟨_, rfl⟩ := (set_eq_error_iff _).1 set
      exact ⟨set, rest.onset_eq⟩
  | .other _ rest => rest.orderly.cons nofun nofun

theorem Delivery.orderly {behaviour : Behaviour Client} {model : ModelId} {property : String}
    {value : Value} {entries : List (SubscriptionId × ValueObserver)} {world after : World Client}
    {reports : List (Report Client)} {log : List (Occurrence Client)} :
    Delivery behaviour model property value entries world reports log →
      deliver (announcing Client model property).channel
        ((announcing Client model property).call (behaviour, value)) entries world = after →
      Orderly log after
  | .done .., _ => .nil _
  | .passed id observer gone rest, done => by
      have skips : ((announcing Client model property).channel world).isSubscribed id = false := gone
      rw [deliver, if_neg (by simp [skips])] at done
      exact rest.orderly done
  | .told id observer there acts rest, done => by
      have goes : ((announcing Client model property).channel world).isSubscribed id = true := there
      rw [deliver, if_pos goes] at done
      have first : Orderly (.tell ⟨behaviour, model, property, value, id, observer, world⟩ :: _) _ :=
        acts.orderly.cons nofun nofun
      exact first.append (rest.orderly done) (rest.onset_eq done)

end

mutual

/-- Nobody is told of anything but what is set. -/
theorem Chronicle.reports {world after : World Client} {log : List (Occurrence Client)} :
    Chronicle world log after →
      (log.filterMap Occurrence.report?).Perm (log.flatMap Occurrence.reports)
  | .done _ => .nil
  | .set behaviour reports stored delivery set rest => by
      rw [List.cons_append, List.filterMap_cons_none rfl, List.filterMap_append, List.flatMap_cons,
        List.flatMap_append, ← List.append_assoc]
      exact delivery.reports.append rest.reports
  | .refuse _ _ rest => rest.reports
  | .other _ rest => rest.reports

theorem Delivery.reports {behaviour : Behaviour Client} {model : ModelId} {property : String}
    {value : Value} {entries : List (SubscriptionId × ValueObserver)} {world : World Client}
    {reports : List (Report Client)} {log : List (Occurrence Client)} :
    Delivery behaviour model property value entries world reports log →
      (log.filterMap Occurrence.report?).Perm (reports ++ log.flatMap Occurrence.reports)
  | .done .. => .nil
  | .passed _ _ _ rest => rest.reports
  | .told id observer there acts rest => by
      simp only [List.cons_append, List.filterMap_cons, Occurrence.report?, List.filterMap_append,
        List.flatMap_cons, Occurrence.reports, List.nil_append, List.flatMap_append, List.perm_cons]
      exact (acts.reports.append rest.reports).trans (List.perm_append_comm_assoc ..)

end

end World

end LiveTemplate
