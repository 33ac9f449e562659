import LiveTemplate.Reactive.Channel
import Mathlib.Data.List.Nodup
import Mathlib.Order.Nat

/-!
# Passes

While a notification is going on, callbacks may register, end registrations and notify the channel
again, and whatever they do is done before the pass goes on.  A pass goes by numbers only.  As a number
is never given out twice, it tells exactly those who were registered when it began and whose
registration has not been ended before their turn.
-/

namespace LiveTemplate

namespace Channel

variable {Callback : Type} {channel middle after : Channel Callback} {ended more : List SubscriptionId}

/-- Registrations are in the order of their numbers, all of which are below the next one. -/
structure Numbered (channel : Channel Callback) : Prop where
  ascending : (channel.subscribers.map Prod.fst).Pairwise (· < ·)
  below : ∀ entry ∈ channel.subscribers, entry.1 < channel.next

theorem numbered_empty : ({} : Channel Callback).Numbered :=
  ⟨.nil, nofun⟩

theorem Numbered.subscribe (numbered : channel.Numbered) (callback : Callback) :
    (channel.subscribe callback).Numbered where
  ascending := by
    rw [Channel.subscribe, List.map_append, List.pairwise_append]
    refine ⟨numbered.ascending, List.pairwise_singleton .., ?_⟩
    intro early member late also
    obtain ⟨entry, listed, rfl⟩ := List.mem_map.1 member
    obtain rfl := List.mem_singleton.1 also
    exact numbered.below entry listed
  below := by
    intro entry member
    rcases List.mem_append.1 member with old | new
    · exact Nat.lt_succ_of_lt (numbered.below entry old)
    · obtain rfl := List.mem_singleton.1 new
      exact Nat.lt_succ_self _

theorem Numbered.unsubscribe (numbered : channel.Numbered) (id : SubscriptionId) :
    (channel.unsubscribe id).Numbered where
  ascending := numbered.ascending.sublist (List.filter_sublist.map _)
  below := fun entry member => numbered.below entry (List.mem_filter.1 member).1

/-- A number stands for one registration. -/
theorem Numbered.unique (numbered : channel.Numbered) {id : SubscriptionId}
    {callback other : Callback} (here : (id, callback) ∈ channel.subscribers)
    (also : (id, other) ∈ channel.subscribers) : callback = other := by
  have distinct : (channel.subscribers.map Prod.fst).Nodup :=
    numbered.ascending.imp fun less => less.ne
  exact congrArg Prod.snd (List.inj_on_of_nodup_map distinct here also rfl)

/-- Some registrations have been ended and others have been made since.  Those of the earlier ones that
were not ended are in force. -/
structure Since (channel : Channel Callback) (ended : List SubscriptionId)
    (after : Channel Callback) : Prop where
  next : channel.next ≤ after.next
  numbered : channel.Numbered → after.Numbered
  kept : ∀ entry, entry.1 < channel.next →
    (entry ∈ after.subscribers ↔ entry ∈ channel.subscribers ∧ entry.1 ∉ ended)

theorem Since.refl (channel : Channel Callback) : channel.Since [] channel :=
  ⟨le_rfl, id, fun _ _ => by simp⟩

theorem Since.trans (first : channel.Since ended middle) (second : middle.Since more after) :
    channel.Since (ended ++ more) after where
  next := first.next.trans second.next
  numbered := fun numbered => second.numbered (first.numbered numbered)
  kept := fun entry early => by
    rw [second.kept entry (early.trans_le first.next), first.kept entry early, List.mem_append,
      not_or, and_assoc]

theorem since_subscribe (channel : Channel Callback) (callback : Callback) :
    channel.Since [] (channel.subscribe callback) where
  next := Nat.le_succ _
  numbered := fun numbered => numbered.subscribe callback
  kept := by
    intro entry early
    have old : entry ≠ (channel.next, callback) := by
      rintro rfl
      exact lt_irrefl _ early
    simp [Channel.subscribe, old]

theorem since_unsubscribe (channel : Channel Callback) (id : SubscriptionId) :
    channel.Since [id] (channel.unsubscribe id) where
  next := le_rfl
  numbered := fun numbered => numbered.unsubscribe id
  kept := fun entry _ => by simp [Channel.unsubscribe]

theorem isSubscribed_iff {id : SubscriptionId} :
    channel.isSubscribed id = true ↔ ∃ callback, (id, callback) ∈ channel.subscribers := by
  simp [isSubscribed]

end Channel

/-- Where a channel is kept, and what its callbacks do there when they are told something. -/
structure Host (State Callback Payload : Type) where
  channel : State → Channel Callback
  call : Payload → Callback → State → State

namespace Host

variable {State Callback Payload : Type}

/-- A callback that was run in a pass, the state that it was run in, and the registrations that were
ended while it ran. -/
structure Turn (State Callback : Type) where
  entry : SubscriptionId × Callback
  state : State
  ended : List SubscriptionId

/-- A call on the channel, in the state before it. -/
inductive Incident (State Callback Payload : Type) where
  | subscribe (state : State) (callback : Callback)
  | unsubscribe (state : State) (id : SubscriptionId)
  /-- A pass, with the callbacks that it has run itself. -/
  | notify (state : State) (payload : Payload) (turns : List (Turn State Callback))

/-- The state before a call. -/
def Incident.state : Incident State Callback Payload → State
  | .subscribe state _ | .unsubscribe state _ | .notify state _ _ => state

/-- The registration that a call ends. -/
def Incident.ended? : Incident State Callback Payload → Option SubscriptionId
  | .unsubscribe _ id => some id
  | .subscribe .. | .notify .. => none

/-- The number that a call gives out. -/
def given? (host : Host State Callback Payload) :
    Incident State Callback Payload → Option SubscriptionId
  | .subscribe state _ => some (host.channel state).next
  | .unsubscribe .. | .notify .. => none

/-- The registrations that have been ended. -/
def ended (log : List (Incident State Callback Payload)) : List SubscriptionId :=
  log.filterMap Incident.ended?

mutual

/-- Calls on the channel, one after the other.  The log has them in the order in which they began,
those that callbacks made included. -/
inductive Runs (host : Host State Callback Payload) :
    State → List (Incident State Callback Payload) → State → Prop where
  | done (state : State) : Runs host state [] state
  | subscribe {state after : State} {log : List (Incident State Callback Payload)}
      (callback : Callback) (middle : State)
      (made : host.channel middle = (host.channel state).subscribe callback)
      (rest : Runs host middle log after) : Runs host state (.subscribe state callback :: log) after
  | unsubscribe {state after : State} {log : List (Incident State Callback Payload)}
      (id : SubscriptionId) (middle : State)
      (made : host.channel middle = (host.channel state).unsubscribe id)
      (rest : Runs host middle log after) : Runs host state (.unsubscribe state id :: log) after
  | notify {state after : State} {inner log : List (Incident State Callback Payload)}
      (payload : Payload) (turns : List (Turn State Callback))
      (passes : Passes host payload (host.channel state).subscribers state turns inner)
      (rest : Runs host (LiveTemplate.notify host.channel (host.call payload) state) log after) :
      Runs host state (.notify state payload turns :: inner ++ log) after
  /-- Something that does not concern the channel. -/
  | other {state middle after : State} {log : List (Incident State Callback Payload)}
      (same : host.channel middle = host.channel state) (rest : Runs host middle log after) :
      Runs host state log after

/-- A pass goes through a list of registrations. -/
inductive Passes (host : Host State Callback Payload) :
    Payload → List (SubscriptionId × Callback) → State → List (Turn State Callback) →
      List (Incident State Callback Payload) → Prop where
  | done (payload : Payload) (state : State) : Passes host payload [] state [] []
  | over {payload : Payload} {state : State} {later : List (SubscriptionId × Callback)}
      {turns : List (Turn State Callback)} {log : List (Incident State Callback Payload)}
      (id : SubscriptionId) (callback : Callback)
      (gone : (host.channel state).isSubscribed id = false)
      (rest : Passes host payload later state turns log) :
      Passes host payload ((id, callback) :: later) state turns log
  | call {payload : Payload} {state : State} {later : List (SubscriptionId × Callback)}
      {turns : List (Turn State Callback)} {inner log : List (Incident State Callback Payload)}
      (id : SubscriptionId) (callback : Callback)
      (there : (host.channel state).isSubscribed id = true)
      (acts : Runs host state inner (host.call payload callback state))
      (rest : Passes host payload later (host.call payload callback state) turns log) :
      Passes host payload ((id, callback) :: later) state
        (⟨(id, callback), state, ended inner⟩ :: turns) (inner ++ log)

end

/-- The same callbacks, each of which notes that it is run and what it is told. -/
def noting (host : Host State Callback Payload) :
    Host (State × List (Callback × Payload)) Callback Payload where
  channel := fun state => host.channel state.1
  call := fun payload callback state =>
    (host.call payload callback state.1, state.2 ++ [(callback, payload)])

/-- What a pass that began in the given state has to do with the channel. -/
structure Exact (host : Host State Callback Payload) (state : State) (payload : Payload)
    (turns : List (Turn State Callback)) : Prop where
  /-- These are the callbacks that the pass runs itself, and what it tells them. -/
  heard : (LiveTemplate.notify host.noting.channel (host.noting.call payload) (state, [])).2 =
    turns.map fun turn => (turn.entry.2, payload)
  /-- They were registered when the pass began, and are run once each and in that order. -/
  ordered : (turns.map Turn.entry).Sublist (host.channel state).subscribers
  /-- They are registered when they are run. -/
  registered : ∀ turn ∈ turns, turn.entry ∈ (host.channel turn.state).subscribers
  /-- Of those registered when the pass began, it runs those whose registration has not been ended
  before their turn. -/
  complete : ∀ entry ∈ (host.channel state).subscribers,
    entry ∈ turns.map Turn.entry ↔ ∀ turn ∈ turns, turn.entry.1 < entry.1 → entry.1 ∉ turn.ended

variable {host : Host State Callback Payload}

theorem ended_append (first second : List (Incident State Callback Payload)) :
    ended (first ++ second) = ended first ++ ended second :=
  List.filterMap_append

mutual

/-- What a run does to the channel. -/
theorem Runs.since {state after : State} {log : List (Incident State Callback Payload)} :
    Runs host state log after →
      (host.channel state).Since (ended log) (host.channel after)
  | .done state => .refl _
  | .subscribe callback _ made rest => by
      have first := Channel.since_subscribe (host.channel state) callback
      rw [← made] at first
      exact first.trans rest.since
  | .unsubscribe id _ made rest => by
      have first := Channel.since_unsubscribe (host.channel state) id
      rw [← made] at first
      exact first.trans rest.since
  | .notify payload _ passes rest => by
      show Channel.Since _ (ended (_ ++ _)) _
      rw [ended_append]
      exact passes.since.trans rest.since
  | .other same rest => same ▸ rest.since

theorem Passes.since {payload : Payload} {entries : List (SubscriptionId × Callback)} {state : State}
    {turns : List (Turn State Callback)} {log : List (Incident State Callback Payload)} :
    Passes host payload entries state turns log →
      (host.channel state).Since (ended log)
        (host.channel (deliver host.channel (host.call payload) entries state))
  | .done payload state => .refl _
  | .over _ _ gone rest => by
      rw [deliver, if_neg (by simp [gone])]
      exact rest.since
  | .call _ _ there acts rest => by
      rw [deliver, if_pos there, ended_append]
      exact acts.since.trans rest.since

end

/-- Callbacks that note what they are told are told the same. -/
theorem Passes.heard {payload : Payload} {entries : List (SubscriptionId × Callback)} {state : State}
    {turns : List (Turn State Callback)} {log : List (Incident State Callback Payload)}
    (notes : List (Callback × Payload)) :
    Passes host payload entries state turns log →
      deliver host.noting.channel (host.noting.call payload) entries (state, notes) =
        (deliver host.channel (host.call payload) entries state,
          notes ++ turns.map fun turn => (turn.entry.2, payload))
  | .done payload state => by simp [deliver]
  | .over id _ gone rest => by
      have also : (host.noting.channel (state, notes)).isSubscribed id = false := gone
      rw [deliver, deliver, if_neg (by simp [also]), if_neg (by simp [gone])]
      exact rest.heard notes
  | .call id callback there acts rest => by
      have also : (host.noting.channel (state, notes)).isSubscribed id = true := there
      rw [deliver, deliver, if_pos also, if_pos there, List.map_cons, ← List.singleton_append,
        ← List.append_assoc]
      exact rest.heard (notes ++ [(callback, payload)])

/-- Registrations in the order of their numbers, which stand for nobody else. -/
structure Recorded (channel : Channel Callback) (entries : List (SubscriptionId × Callback)) : Prop where
  ascending : (entries.map Prod.fst).Pairwise (· < ·)
  early : ∀ entry ∈ entries, entry.1 < channel.next
  known : ∀ entry ∈ entries, ∀ other, (entry.1, other) ∈ channel.subscribers → other = entry.2

theorem Recorded.of_numbered {channel : Channel Callback} (numbered : channel.Numbered) :
    Recorded channel channel.subscribers :=
  ⟨numbered.ascending, numbered.below, fun _ member _ also => numbered.unique also member⟩

section Recorded

variable {channel after : Channel Callback} {entry : SubscriptionId × Callback}
  {later : List (SubscriptionId × Callback)} {ended : List SubscriptionId}

theorem Recorded.tail (recorded : Recorded channel (entry :: later)) : Recorded channel later :=
  ⟨(List.pairwise_cons.1 recorded.ascending).2,
    fun other member => recorded.early other (List.mem_cons_of_mem _ member),
    fun other member => recorded.known other (List.mem_cons_of_mem _ member)⟩

theorem Recorded.since (recorded : Recorded channel later) (since : channel.Since ended after) :
    Recorded after later :=
  ⟨recorded.ascending, fun other member => (recorded.early other member).trans_le since.next,
    fun other member callback also => recorded.known other member callback
      ((since.kept (other.1, callback) (recorded.early other member)).1 also).1⟩

/-- Those that come later have higher numbers. -/
theorem Recorded.less (recorded : Recorded channel (entry :: later)) :
    ∀ other ∈ later, entry.1 < other.1 :=
  fun _ member => (List.pairwise_cons.1 recorded.ascending).1 _ (List.mem_map_of_mem member)

/-- Whoever's number is in force is registered. -/
theorem Recorded.mem_subscribers (recorded : Recorded channel (entry :: later))
    (there : channel.isSubscribed entry.1 = true) : entry ∈ channel.subscribers := by
  obtain ⟨callback, member⟩ := Channel.isSubscribed_iff.1 there
  obtain rfl := recorded.known entry List.mem_cons_self callback member
  exact member

end Recorded

/-- Of the registrations that it goes through, a pass runs the callbacks of those that are in force and
are not ended before their turn. -/
theorem Passes.runs {payload : Payload} {entries : List (SubscriptionId × Callback)} {state : State}
    {turns : List (Turn State Callback)} {log : List (Incident State Callback Payload)} :
    Passes host payload entries state turns log → Recorded (host.channel state) entries →
      (turns.map Turn.entry).Sublist entries ∧
        (∀ turn ∈ turns, turn.entry ∈ (host.channel turn.state).subscribers) ∧
        ∀ entry ∈ entries, entry ∈ turns.map Turn.entry ↔
          entry ∈ (host.channel state).subscribers ∧
            ∀ turn ∈ turns, turn.entry.1 < entry.1 → entry.1 ∉ turn.ended
  | .done _ _, _ => ⟨.slnil, nofun, nofun⟩
  | .over id callback gone rest, recorded => by
      obtain ⟨ordered, registered, complete⟩ := rest.runs recorded.tail
      refine ⟨ordered.cons _, registered, List.forall_mem_cons.2 ⟨iff_of_false ?_ ?_, complete⟩⟩
      · intro member
        exact lt_irrefl _ (recorded.less _ (ordered.subset member))
      · rintro ⟨member, _⟩
        rw [Channel.isSubscribed_iff.2 ⟨callback, member⟩] at gone
        cases gone
  | .call id callback there acts rest, recorded => by
      have since := acts.since
      have here := recorded.mem_subscribers there
      obtain ⟨ordered, registered, complete⟩ := rest.runs (recorded.tail.since since)
      have above : ∀ turn : Turn State Callback, turn ∈ _ → id < turn.entry.1 := fun turn member =>
        recorded.less _ (ordered.subset (List.mem_map_of_mem member))
      refine ⟨ordered.cons_cons _, List.forall_mem_cons.2 ⟨here, registered⟩,
        List.forall_mem_cons.2 ⟨iff_of_true List.mem_cons_self ⟨here, ?_⟩, fun entry member => ?_⟩⟩
      · refine List.forall_mem_cons.2 ⟨fun less => (lt_irrefl _ less).elim, fun turn member less => ?_⟩
        exact (lt_asymm less (above turn member)).elim
      · have less : id < entry.1 := recorded.less entry member
        have early := recorded.early entry (List.mem_cons_of_mem _ member)
        have different : entry ≠ (id, callback) := by
          rintro rfl
          exact lt_irrefl _ less
        rw [List.map_cons, List.mem_cons, or_iff_right different, complete entry member,
          since.kept entry early, List.forall_mem_cons, and_assoc]
        exact and_congr_right fun _ => and_congr_left' ⟨fun spared _ => spared, fun spared => spared less⟩

/-- A pass through those who are registered. -/
theorem Passes.exact {payload : Payload} {state : State} {turns : List (Turn State Callback)}
    {log : List (Incident State Callback Payload)}
    (passes : Passes host payload (host.channel state).subscribers state turns log)
    (numbered : (host.channel state).Numbered) : Exact host state payload turns := by
  obtain ⟨ordered, registered, complete⟩ := passes.runs (.of_numbered numbered)
  refine ⟨congrArg Prod.snd (passes.heard []), ordered, registered, fun entry member => ?_⟩
  rw [complete entry member]
  exact and_iff_right member

/-- What holds while calls are made, from one state to another. -/
structure Orderly (host : Host State Callback Payload) (state : State)
    (log : List (Incident State Callback Payload)) (after : State) : Prop where
  numbered : ∀ incident ∈ log, (host.channel incident.state).Numbered
  ascending : (log.filterMap host.given?).Pairwise (· < ·)
  between : ∀ id ∈ log.filterMap host.given?,
    (host.channel state).next ≤ id ∧ id < (host.channel after).next
  exact : ∀ state payload turns, .notify state payload turns ∈ log → Exact host state payload turns

section Orderly

variable {state middle after : State} {first second : List (Incident State Callback Payload)}

theorem Orderly.nil (host : Host State Callback Payload) (state : State) :
    host.Orderly state [] state :=
  ⟨nofun, .nil, nofun, nofun⟩

theorem Orderly.append (orderly : host.Orderly state first middle)
    (later : host.Orderly middle second after)
    (early : (host.channel state).next ≤ (host.channel middle).next)
    (late : (host.channel middle).next ≤ (host.channel after).next) :
    host.Orderly state (first ++ second) after where
  numbered := fun incident member => (List.mem_append.1 member).elim (orderly.numbered incident)
    (later.numbered incident)
  ascending := by
    rw [List.filterMap_append, List.pairwise_append]
    refine ⟨orderly.ascending, later.ascending, fun id member other also => ?_⟩
    exact (orderly.between id member).2.trans_le (later.between other also).1
  between := by
    intro id member
    rw [List.filterMap_append, List.mem_append] at member
    rcases member with here | beyond
    · obtain ⟨low, high⟩ := orderly.between id here
      exact ⟨low, high.trans_le late⟩
    · obtain ⟨low, high⟩ := later.between id beyond
      exact ⟨early.trans low, high⟩
  exact := fun state payload turns member => (List.mem_append.1 member).elim
    (orderly.exact state payload turns) (later.exact state payload turns)

/-- One call by itself. -/
theorem Orderly.single {incident : Incident State Callback Payload}
    (numbered : (host.channel incident.state).Numbered)
    (between : ∀ id ∈ host.given? incident,
      (host.channel state).next ≤ id ∧ id < (host.channel after).next)
    (exact : ∀ state payload turns, incident = .notify state payload turns →
      Exact host state payload turns) : host.Orderly state [incident] after := by
  have given : [incident].filterMap host.given? = (host.given? incident).toList := by
    cases found : host.given? incident <;> simp [found]
  refine ⟨List.forall_mem_singleton.2 numbered, ?_, ?_, fun state payload turns member =>
    exact state payload turns (List.mem_singleton.1 member).symm⟩
  · rw [given]
    cases host.given? incident with
    | none => exact .nil
    | some id => exact List.pairwise_singleton ..
  · rw [given]
    exact fun id member => between id (Option.mem_toList.1 member)

end Orderly

mutual

/-- A run on a numbered channel is orderly. -/
theorem Runs.orderly {state after : State} {log : List (Incident State Callback Payload)} :
    Runs host state log after → (host.channel state).Numbered → host.Orderly state log after
  | .done state, _ => .nil host state
  | .subscribe callback middle made rest, numbered => by
      have since := Channel.since_subscribe (host.channel state) callback
      rw [← made] at since
      have first : host.Orderly state [.subscribe state callback] middle := by
        refine .single numbered (fun id given => ?_) nofun
        obtain rfl := Option.some.inj given
        rw [made]
        exact ⟨le_rfl, Nat.lt_succ_self _⟩
      exact first.append (rest.orderly (since.numbered numbered)) since.next rest.since.next
  | .unsubscribe id middle made rest, numbered => by
      have since := Channel.since_unsubscribe (host.channel state) id
      rw [← made] at since
      have first : host.Orderly state [.unsubscribe state id] middle := .single numbered nofun nofun
      exact first.append (rest.orderly (since.numbered numbered)) since.next rest.since.next
  | .notify payload turns passes rest, numbered => by
      have since := passes.since
      have first : host.Orderly state [.notify state payload turns] state := by
        refine .single numbered nofun ?_
        rintro _ _ _ ⟨⟩
        exact passes.exact numbered
      have pass := first.append (passes.orderly numbered) le_rfl since.next
      exact pass.append (rest.orderly (since.numbered numbered)) since.next rest.since.next
  | .other same rest, numbered => by
      have later := rest.orderly (same ▸ numbered)
      exact ⟨later.numbered, later.ascending, same ▸ later.between, later.exact⟩

theorem Passes.orderly {payload : Payload} {entries : List (SubscriptionId × Callback)} {state : State}
    {turns : List (Turn State Callback)} {log : List (Incident State Callback Payload)} :
    Passes host payload entries state turns log → (host.channel state).Numbered →
      host.Orderly state log (deliver host.channel (host.call payload) entries state)
  | .done payload state, _ => .nil host state
  | .over _ _ gone rest, numbered => by
      rw [deliver, if_neg (by simp [gone])]
      exact rest.orderly numbered
  | .call _ _ there acts rest, numbered => by
      rw [deliver, if_pos there]
      exact (acts.orderly numbered).append (rest.orderly (acts.since.numbered numbered))
        acts.since.next rest.since.next

end

/-- However callbacks register, end registrations and notify the channel again, the registrations are at
any time in the order of their numbers, no number is given out twice, and each pass runs exactly the
callbacks that were registered when it began and are still registered when their turn comes. -/
theorem Runs.passes_exact {state after : State} {log : List (Incident State Callback Payload)}
    (runs : host.Runs state log after) (new : host.channel state = {}) :
    (∀ incident ∈ log, (host.channel incident.state).Numbered) ∧ (host.channel after).Numbered ∧
      (log.filterMap host.given?).Pairwise (· < ·) ∧
      ∀ state payload turns, .notify state payload turns ∈ log → host.Exact state payload turns := by
  have numbered : (host.channel state).Numbered := new ▸ Channel.numbered_empty
  have orderly := runs.orderly numbered
  exact ⟨orderly.numbered, runs.since.numbered numbered, orderly.ascending, orderly.exact⟩

/-! ## Three callbacks -/

/-- What callbacks do that may answer so many times: the one called `true` ends the second registration,
makes another one and notifies the channel again. -/
def answer : Nat → Bool → Channel Bool → Channel Bool
  | 0, _, channel => channel
  | _ + 1, false, channel => channel
  | times + 1, true, channel => notify id (answer times) ((channel.unsubscribe 1).subscribe false)

/-- A channel by itself, where it is told how many times to answer. -/
def alone : Host (Channel Bool) Bool Nat where
  channel := id
  call := answer

/-- Callbacks that do not answer are run one after the other. -/
theorem passes_alone (channel : Channel Bool) {entries : List (SubscriptionId × Bool)}
    (there : ∀ entry ∈ entries, channel.isSubscribed entry.1 = true) :
    alone.Passes 0 entries channel (entries.map fun entry => ⟨entry, channel, []⟩) [] := by
  induction entries with
  | nil => exact .done ..
  | cons entry later induction =>
      obtain ⟨here, beyond⟩ := List.forall_mem_cons.1 there
      have first : alone.Runs channel [] (alone.call 0 entry.2 channel) := .done _
      exact .call entry.1 entry.2 here first (induction beyond)

theorem passes_exact_alone : ∃ log after, alone.Runs {} log after ∧
    (log.filterMap fun
      | .notify _ times turns => some (times, turns.map fun turn => turn.entry.1)
      | _ => none) = [(1, [0]), (0, [0, 2])] ∧
    (∀ incident ∈ log, (alone.channel incident.state).Numbered) ∧ (alone.channel after).Numbered ∧
      (log.filterMap alone.given?).Pairwise (· < ·) ∧
      ∀ state payload turns, .notify state payload turns ∈ log → alone.Exact state payload turns := by
  let channel : Channel Bool := (({} : Channel Bool).subscribe true).subscribe false
  let second : Channel Bool := (channel.unsubscribe 1).subscribe false
  have inner : alone.Runs channel
      (.unsubscribe channel 1 :: .subscribe (channel.unsubscribe 1) false ::
        .notify second 0 (second.subscribers.map fun entry => ⟨entry, second, []⟩) :: ([] ++ []))
      (alone.call 1 true channel) :=
    .unsubscribe 1 (channel.unsubscribe 1) rfl
      (.subscribe false second rfl (.notify 0 _ (passes_alone second (by decide)) (.done _)))
  have pass : alone.Passes 1 (alone.channel channel).subscribers channel
      [⟨(0, true), channel, [1]⟩] _ :=
    .call 0 true rfl inner (.over 1 false rfl (.done 1 _))
  have runs : alone.Runs {} _ _ := .subscribe true (({} : Channel Bool).subscribe true) rfl
    (.subscribe false channel rfl (.notify 1 _ pass (.done _)))
  exact ⟨_, _, runs, rfl, runs.passes_exact rfl⟩

end Host

end LiveTemplate
