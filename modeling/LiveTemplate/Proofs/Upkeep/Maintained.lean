import LiveTemplate.Proofs.Upkeep.Runs
import LiveTemplate.Proofs.Upkeep.Spliced

/-!
# A render is kept up to date by a run

While something is announced, each observer of the render that is told brings it up to date as far as
that observer is concerned, and what client code does in between is a run again.  When everybody has
been told, nothing is owed any more.
-/

namespace LiveTemplate

/-- What is announced is what is read there now; and a change is one of the items that lists have shown
so far. -/
def News.Current (news : News) (former : CollectionId → List Value) (data : Data) : Prop :=
  match news with
  | .value model property stored => data.get model property = stored
  | .change collection made =>
    made.Within (former collection) ∧
      data.contents.items collection = made.apply (former collection)

theorem News.Current.later {news : News} {former : CollectionId → List Value} {data other : Data}
    (current : news.Current former data) (same : data.SameOn other news.source) :
    news.Current former other := by
  match news, current with
  | .value _ property _, current => exact (same property rfl).trans current
  | .change .., current => exact ⟨current.1, Eq.trans same current.2⟩

theorem Data.Holds.eq_value {data : Data} {subscription : Subscription} {observer : Observer}
    (holds : data.Holds subscription observer) {model : ModelId} {channel : String}
    (source : subscription.source = .model model channel) : ∃ told, observer = .value told := by
  rw [Holds, source, observers] at holds
  obtain ⟨entry, _, equal⟩ := List.mem_map.1 holds
  exact ⟨entry.2, (Prod.mk.inj equal).2.symm⟩

theorem Data.Holds.eq_change {data : Data} {subscription : Subscription} {observer : Observer}
    (holds : data.Holds subscription observer) {collection : CollectionId}
    (source : subscription.source = .collection collection) : ∃ told, observer = .change told := by
  rw [Holds, source, observers] at holds
  obtain ⟨entry, _, equal⟩ := List.mem_map.1 holds
  exact ⟨entry.2, (Prod.mk.inj equal).2.symm⟩

namespace World

variable {Client : Type} {world after : World Client} {frame : Frame} {task : Task} {render : Render}
  {former : CollectionId → List Value} {pending entries : Notices} {rule : Rule Client}
  {behaviour : Behaviour Client} {news : News} {subscription : Subscription} {observer : Observer}

/-- By the rule, no replacement of several items fails. -/
def Rule.Contains (rule : Rule Client) (id : RenderId) : Prop :=
  ∀ pending collection change world after, rule pending (.change collection change) world after →
    change.fresh.length ≤ 1 ∨ Spared id world after

/-- Every call is made in turn, as far as a render is concerned.  That goes without saying for calls
that are not made in the middle of others. -/
def inTurn (id : RenderId) : Rule Client :=
  fun pending news world _ => InTurn id pending news.source world

theorem inTurn_orderly (id : RenderId) : (inTurn id : Rule Client).Orderly id :=
  fun _ _ _ _ turn => turn

theorem InTurn.nil {id : RenderId} {source : Source} : InTurn id [] source world :=
  nofun

/-- Besides, no replacement of several items fails for it. -/
def contained (id : RenderId) : Rule Client := fun pending news world after =>
  InTurn id pending news.source world ∧ ∀ collection change, news = .change collection change →
    change.fresh.length ≤ 1 ∨ Spared id world after

theorem contained_orderly (id : RenderId) : (contained id : Rule Client).Orderly id :=
  fun _ _ _ _ ruled => ruled.1

theorem contained_contains (id : RenderId) : (contained id : Rule Client).Contains id :=
  fun _ collection change _ _ ruled => ruled.2 collection change rfl

theorem contained_value {id : RenderId} {model : ModelId} {property : String} {value : Value} :
    (contained id : Rule Client) [] (.value model property value) world after :=
  ⟨.nil, nofun⟩

theorem contained_change {id : RenderId} {collection : CollectionId} {change : Change}
    (few : change.fresh.length ≤ 1) :
    (contained id : Rule Client) [] (.change collection change) world after := by
  refine ⟨.nil, fun other made same => ?_⟩
  obtain ⟨_, rfl⟩ := News.change.inj same
  exact .inl few

/-- Building does not fail for the render, or it may do so where that does no harm. -/
def Excused (frame : Frame) (rule : Rule Client) (world after : World Client) : Prop :=
  Spared frame.render world after ∨ frame.mayFail ∧ rule.Contains frame.render

theorem Excused.spared (excused : Excused frame rule world after) :
    frame.mayFail ∨ Spared frame.render world after :=
  excused.symm.imp_left And.left

theorem Excused.later {middle : World Client} (excused : Excused frame rule world after)
    (failures : world.failures <+: middle.failures) : Excused frame rule middle after :=
  excused.imp_left fun spared => spared.later failures

theorem Excused.early {middle : World Client} (excused : Excused frame rule world after)
    (failures : middle.failures <+: after.failures) : Excused frame rule world middle :=
  excused.imp_left fun spared => spared.early failures

/-- A change of several items is put in without failing. -/
def Whole (news : News) (id : RenderId) (world after : World Client) : Prop :=
  ∀ collection change, news = .change collection change →
    change.fresh.length ≤ 1 ∨ Spared id world after

theorem Whole.later {id : RenderId} {middle : World Client} (whole : Whole news id world after)
    (failures : world.failures <+: middle.failures) : Whole news id middle after :=
  fun collection change same => (whole collection change same).imp_right fun spared =>
    spared.later failures

theorem Whole.early {id : RenderId} {middle : World Client} (whole : Whole news id world after)
    (failures : middle.failures <+: after.failures) : Whole news id world middle :=
  fun collection change same => (whole collection change same).imp_right fun spared =>
    spared.early failures

theorem Excused.whole (excused : Excused frame rule world after)
    (ruled : rule pending news world after) : Whole news frame.render world after := by
  rintro collection change rfl
  rcases excused with spared | ⟨_, contains⟩
  · exact .inr spared
  · exact contains _ _ _ _ _ ruled

/-- An observer of the render is told. -/
theorem Upholds.receive (behaviour : Behaviour Client)
    (upholds : world.Upholds frame task render former ((subscription, observer) :: pending)
      ((subscription, observer) :: pending))
    (held : world.data.Holds subscription observer) {owner : BoundId}
    (own : observer.owner? = some (frame.render, owner)) (source : subscription.source = news.source)
    (refers : news.Refers world.data) (current : observer.Steers → news.Current former world.data)
    (told : observer.Steers → (subscription, observer) ∉ pending)
    (spared : frame.mayFail ∨
      Spared frame.render world (world.receive behaviour news observer))
    (whole : Whole news frame.render world (world.receive behaviour news observer)) :
    ∃ changed, (world.receive behaviour news observer).Upholds frame task changed former pending
      pending := by
  match news, observer with
  | .value model property value, .value (.path observer) =>
      obtain same : observer.render = frame.render := (Prod.mk.inj (Option.some.inj own)).1
      exact upholds.react behaviour same held source (fun more => (current more).symm) spared
  | .change collection change, .change (.rebuild render content directive) =>
      obtain rfl : render = frame.render := (Prod.mk.inj (Option.some.inj own)).1
      exact upholds.rebuildItems behaviour change held spared
  | .change collection change, .change (.splice render list) =>
      obtain rfl : render = frame.render := (Prod.mk.inj (Option.some.inj own)).1
      obtain ⟨within, items⟩ := current trivial
      exact upholds.splice behaviour held source (told trivial) within items refers spared
        (whole _ _ rfl)
  | .value .., .value (.client _) | .change .., .change (.client _) => cases own
  | .value .., .change _ =>
      obtain ⟨_, same⟩ := held.eq_value source
      cases same
  | .change .., .value _ =>
      obtain ⟨_, same⟩ := held.eq_change source
      cases same

/-- What is known of an announcement while it goes on. -/
structure Announced (id : RenderId) (news : News) (former : CollectionId → List Value)
    (entries : Notices) (world : World Client) : Prop where
  sources : ∀ entry ∈ entries, entry.1.source = news.source
  single : entries.Nodup
  sure : ∀ subscription observer, (subscription, observer) ∈ entries →
    ∀ other, world.data.Holds subscription other → other = observer
  current : ∀ subscription observer owner, (subscription, observer) ∈ entries →
    world.data.Holds subscription observer → observer.owner? = some (id, owner) → observer.Steers →
      news.Current former world.data

theorem Announced.tail {id : RenderId} {entry : Subscription × Observer}
    (announced : Announced id news former (entry :: entries) world) :
    Announced id news former entries world where
  sources := fun other member => announced.sources other (.tail _ member)
  single := announced.single.of_cons
  sure := fun subscription observer member => announced.sure subscription observer (.tail _ member)
  current := fun subscription observer owner member =>
    announced.current subscription observer owner (.tail _ member)

theorem Announced.later {id : RenderId} (announced : Announced id news former entries world)
    (onward : Onward id entries world after) (issued : world.Issued entries) :
    Announced id news former entries after where
  sources := announced.sources
  single := announced.single
  sure := fun subscription observer member other held =>
    announced.sure subscription observer member other (onward.data.holds _ _ held (issued _ member))
  current := by
    intro subscription observer owner member held owned steers
    have before := onward.data.holds _ _ held (issued _ member)
    have same := onward.steadfast _ _ _ member held owned steers
    rw [announced.sources _ member] at same
    exact (announced.current _ _ _ member before owned steers).later same

theorem InTurn.later {id : RenderId} {source : Source} (turn : InTurn id pending source world)
    (data : world.data.Recalls after.data) (issued : world.Issued pending) :
    InTurn id pending source after :=
  fun subscription observer owner member held =>
    turn subscription observer owner member (data.holds _ _ held (issued _ member))

theorem registrationsOn_announced {data : Data} {id : RenderId} (sound : data.Sound)
    (current : ∀ subscription observer, subscription.source = news.source →
      data.Holds subscription observer → news.Current former data) :
    Announced id news former (data.registrationsOn news.source)
      ({ world with data } : World Client) where
  sources := fun _ member => (Data.mem_registrationsOn.1 member).1
  single := (sound.registrationsOn_nodup _).of_map
  sure := fun _ _ member _ held => sound.unique held (Data.mem_registrationsOn.1 member).2
  current := fun _ _ _ member held _ _ =>
    current _ _ (Data.mem_registrationsOn.1 member).1 held

/-- A mutation announces a change of the items that its collection had. -/
theorem News.current_change {data other : Data} {collection : CollectionId} {mutation : Mutation}
    {change : Change} (made : mutation.change? (data.collection collection).items = some change)
    (stored : other = data.modifyCollection collection fun collection =>
      { collection with items := change.apply collection.items })
    (before : former collection = data.contents.items collection)
    (there : subscription.source = .collection collection)
    (held : other.Holds subscription observer) :
    (News.change collection change).Current former other := by
  obtain ⟨_, _, now⟩ := Data.apply_alters stored
  have inside := held.hasSource
  rw [there, stored, Data.HasSource, Data.modifyCollection, Store.next_modify] at inside
  rw [News.Current, before]
  refine ⟨?_, now inside⟩
  rw [Data.contents_items]
  exact Mutation.change?_within made

/-- The client moves the data on, and nobody is told. -/
theorem Upholds.moved {data : Data}
    (upholds : world.Upholds frame task render former pending pending)
    (moves : world.data.Moves data) (recalls : world.data.Recalls data)
    (alters : world.data.Alters data fun _ => False) :
    ({ world with data } : World Client).Upholds frame task render former pending pending := by
  have unsettling : world.Unsettling data frame.render (fun _ => False) pending [] :=
    ⟨moves, recalls, alters, fun _ _ _ => False.elim, (fun _ _ listed => by cases listed),
      fun _ _ _ _ _ _ _ => id⟩
  exact upholds.unsettle unsettling (fun _ _ => rfl) fun _ => False.elim

/-- What is announced in turn is something that whoever is still to be told does not go by. -/
theorem InTurn.unsettling {id : RenderId} {source : Source} {data : Data}
    (turn : InTurn id pending source world) (moves : world.data.Moves data)
    (recalls : world.data.Recalls data) (alters : world.data.Alters data (· = source)) :
    world.Unsettling data id (· = source) pending (data.registrationsOn source) :=
  ⟨moves, recalls, alters, fun _ _ held there => Data.mem_registrationsOn.2 ⟨there, held⟩,
    fun _ _ => Data.mem_registrationsOn.1, turn⟩

/-- By the rule, and as long as the render is upheld, calls are made in turn only. -/
def Rule.Turns (rule : Rule Client) (frame : Frame) (task : Task) : Prop :=
  ∀ pending news world after render former, rule pending news world after →
    world.Upholds frame task render former pending pending →
      InTurn frame.render pending news.source world

theorem Rule.Orderly.turns (orderly : rule.Orderly frame.render) : rule.Turns frame task :=
  fun _ _ _ _ _ _ ruled _ => orderly _ _ _ _ ruled

/-- The client moves the data on, and nobody is told. -/
theorem Upholds.quiet {data : Data}
    (upholds : world.Upholds frame task render former pending pending)
    (moves : world.data.Moves data) (recalls : world.data.Recalls data)
    (alters : world.data.Alters data fun _ => False) :
    ∃ changed, ({ world with data } : World Client).Upholds frame task changed former pending pending ∧
      Onward frame.render pending world { world with data } :=
  ⟨render, upholds.moved moves recalls alters,
    .of_alters upholds.sound moves recalls alters fun _ => False.elim⟩

mutual

theorem Run.upholds {frame : Frame} {task : Task} {render : Render}
    {former : CollectionId → List Value} (turns : rule.Turns frame task) {pending : Notices}
    {world after : World Client} : Run rule pending world after →
      world.Upholds frame task render former pending pending → Excused frame rule world after →
        ∃ changed, after.Upholds frame task changed former pending pending ∧
          Onward frame.render pending world after
  | .done _ _, upholds, _ => ⟨render, upholds, .refl upholds.sound _ _⟩
  | .next step rest, upholds, excused => by
      have first := step.proceeds upholds.sound
      have second := rest.proceeds first.sound
      obtain ⟨_, between, here⟩ := step.upholds turns upholds (excused.early second.failures)
      obtain ⟨changed, last, there⟩ := rest.upholds turns between (excused.later first.failures)
      exact ⟨changed, last, here.trans there upholds.issued⟩

theorem Step.upholds {frame : Frame} {task : Task} {render : Render}
    {former : CollectionId → List Value} (turns : rule.Turns frame task) {pending : Notices}
    {world after : World Client} : Step rule pending world after →
      world.Upholds frame task render former pending pending → Excused frame rule world after →
        ∃ changed, after.Upholds frame task changed former pending pending ∧
          Onward frame.render pending world after
  | .set refers stored tells set ruled, upholds, excused => by
      have sound := upholds.sound
      obtain ⟨recalls, alters, now⟩ := Data.put_alters stored
      have moves := Data.put_moves sound.data refers stored
      have turn := turns _ _ _ _ _ _ ruled upholds
      have unsettled := upholds.unsettle (turn.unsettling moves recalls alters) (fun _ _ => rfl) nofun
      have first : Onward frame.render pending _ _ := .of_alters sound moves recalls alters
        fun source touched => touched.symm ▸ turn
      rw [set_eq, stored] at set
      obtain rfl := Except.ok.inj set
      obtain ⟨changed, told, second⟩ := tells.upholds turns unsettled
        (Data.Refers.mono refers moves.models moves.collections)
        (registrationsOn_announced moves.sound fun _ _ _ _ => now) (turn.later recalls upholds.issued)
        (excused.later (List.prefix_refl _)) ((excused.whole ruled).later (List.prefix_refl _))
      exact ⟨changed, told, first.trans second upholds.issued⟩
  | @Step.mutate _ _ behaviour pending world data collection mutation change made refers stored tells
      ruled, upholds, excused => by
      have sound := upholds.sound
      obtain ⟨recalls, alters, _⟩ := Data.apply_alters stored
      have moves := stored ▸ Data.apply_moves sound.data refers
      have turn := turns _ _ _ _ _ _ ruled upholds
      -- What the collection has had until now is what its lists show.
      let shown : CollectionId → List Value := fun other =>
        if other = collection then world.data.contents.items collection else former other
      have before : shown collection = world.data.contents.items collection := if_pos rfl
      have elsewhere : ∀ other, other ≠ collection → shown other = former other :=
        fun other apart => if_neg apart
      have unsettled : ({ world with data } : World Client).Upholds frame task render shown _ _ :=
        upholds.unsettle (turn.unsettling moves recalls alters)
          (fun other apart => elsewhere other fun same => apart (same ▸ rfl))
          (fun other touched => by rw [Source.collection.inj touched, before])
      have announced : Announced frame.render (.change collection change) shown
          (data.registrationsOn (.collection collection)) ({ world with data } : World Client) :=
        registrationsOn_announced moves.sound fun _ _ => News.current_change made stored before
      have first : Onward frame.render pending _ _ := .of_alters sound moves recalls alters
        fun source touched => touched.symm ▸ turn
      rw [mutate_eq _ made stored] at excused ruled ⊢
      obtain ⟨changed, told, second⟩ := tells.upholds turns unsettled
        (Data.RefersIn.mono refers moves.models moves.collections)
        announced (turn.later recalls upholds.issued)
        (excused.later (List.prefix_refl _)) ((excused.whole ruled).later (List.prefix_refl _))
      refine ⟨changed, told.reform fun subscription list listed held other there => ?_,
        first.trans second upholds.issued⟩
      have early := recalls.holds _ _ (second.data.holds _ _ held
        (upholds.issued.later recalls _ listed)) (upholds.issued _ listed)
      refine (elsewhere other ?_).symm
      rintro rfl
      exact turn _ _ list listed early rfl trivial there
  | .subscribe channel hook inside, upholds, _ =>
    have registers := Data.subscribe_registers channel (.client hook) inside
    upholds.quiet (registers.moves upholds.sound.data rfl) registers.recalls registers.agrees.alters
  | .subscribeChanges hook inside, upholds, _ =>
    have registers := Data.subscribeChanges_registers (.client hook) inside
    upholds.quiet (registers.moves upholds.sound.data rfl) registers.recalls registers.agrees.alters
  | .cancel own, upholds, _ =>
    have cancels := Data.cancel_cancels _ _
    upholds.quiet (Data.cancel_moves upholds.sound.data own) cancels.recalls cancels.agrees.alters
  | .addModel refers, upholds, _ =>
    have ⟨recalls, alters⟩ := Data.addModel_alters _ _
    upholds.quiet (Data.addModel_moves upholds.sound.data refers) recalls alters
  | .addCollection refers, upholds, _ =>
    have ⟨recalls, alters⟩ := Data.addCollection_alters _ _
    upholds.quiet (Data.addCollection_moves upholds.sound.data refers) recalls alters
  | .other data documents renders registries failures, upholds, _ => by
      have onward := (Step.other data documents renders registries failures :
        Step rule pending world after).proceeds upholds.sound
      refine ⟨render, ⟨onward.sound, ?_, ?_, upholds.label, upholds.limit, upholds.among, ?_, ?_⟩,
        onward, ?_⟩
      · rw [render?, renders]
        exact upholds.known
      · rw [registry, registries]
        exact upholds.registry
      · rw [Issued, data]
        exact upholds.issued
      · rw [standing, document, data, documents]
        exact upholds.fits
      · rw [data]
        exact fun _ _ _ _ _ _ _ => .refl _ _

theorem Telling.upholds {frame : Frame} {task : Task} {render : Render}
    {former : CollectionId → List Value} (turns : rule.Turns frame task)
    {behaviour : Behaviour Client} {news : News} {pending entries : Notices} {world : World Client} :
    Telling rule behaviour news pending entries world →
      world.Upholds frame task render former (entries ++ pending) (entries ++ pending) →
        news.Refers world.data → Announced frame.render news former entries world →
          InTurn frame.render pending news.source world →
            Excused frame rule world (announce behaviour news entries world) →
              Whole news frame.render world (announce behaviour news entries world) →
                ∃ changed, (announce behaviour news entries world).Upholds frame task changed former
                    pending pending ∧
                  Onward frame.render pending world (announce behaviour news entries world)
  | .done _, upholds, _, _, _, _, _ => ⟨render, upholds, .refl upholds.sound _ _⟩
  | .passed gone rest, upholds, refers, announced, turn, excused, whole => by
      rw [announce, if_neg (by simp [gone])] at excused whole ⊢
      rw [List.cons_append] at upholds
      have absent := Data.not_holds_of_isHeld gone
      exact rest.upholds turns (upholds.forget fun held => (absent _ held).elim) refers
        announced.tail turn excused whole
  | .client there free acts rest, upholds, refers, announced, turn, excused, whole => by
      rw [announce, if_pos there] at excused whole ⊢
      rw [List.cons_append] at upholds
      have waiting := upholds.forget fun _ owner owned => nomatch free.symm.trans owned
      have issued := waiting.issued
      have first := acts.proceeds waiting.sound
      have refersThen := refers.mono first.models first.collections
      have second := rest.proceeds first.sound refersThen
      obtain ⟨_, between, here⟩ := acts.upholds turns waiting (excused.early second.failures)
      obtain ⟨changed, told, there⟩ := rest.upholds turns between refersThen
        (announced.tail.later (here.mono (List.subset_append_left _ _)) issued.left)
        (turn.later first.data issued.right) (excused.later first.failures)
        (whole.later first.failures)
      exact ⟨changed, told,
        (here.mono (List.subset_append_right _ _)).trans there issued.right⟩
  | @Telling.render _ _ _ _ _ later _ subscription observer there own rest, upholds, refers,
      announced, turn, excused, whole => by
      rw [announce, if_pos there] at excused whole ⊢
      rw [List.cons_append] at upholds
      have sound := upholds.sound
      have issued : world.Issued (later ++ pending) := Issued.tail upholds.issued
      obtain ⟨other, held⟩ := Data.isHeld_iff.1 there
      rw [announced.sure _ _ List.mem_cons_self _ held] at held
      obtain ⟨⟨id, owner⟩, owned⟩ := Option.ne_none_iff_exists'.1 own
      have concerns := receive_concerns behaviour sound refers owned
      have first := concerns.onward frame.render (later ++ pending)
      have refersThen := refers.mono first.models first.collections
      have second := rest.proceeds first.sound refersThen
      obtain ⟨_, between⟩ : ∃ changed, (world.receive behaviour news observer).Upholds frame task
          changed former (later ++ pending) (later ++ pending) := by
        by_cases mine : id = frame.render
        · subst mine
          refine upholds.receive behaviour held owned (announced.sources _ List.mem_cons_self) refers
            ?_ ?_ (excused.early second.failures).spared (whole.early second.failures)
          · exact announced.current _ _ _ List.mem_cons_self held owned
          · intro steers listed
            rcases List.mem_append.1 listed with later | waiting
            · exact (List.nodup_cons.1 announced.single).1 later
            · exact turn _ _ _ waiting held owned steers (announced.sources _ List.mem_cons_self)
        · refine ⟨render, Upholds.aside (upholds.forget fun _ other also => ?_) concerns mine⟩
          exact mine (Prod.mk.inj (Option.some.inj (owned.symm.trans also))).1
      obtain ⟨changed, told, there⟩ := rest.upholds turns between refersThen
        (announced.tail.later (first.mono (List.subset_append_left _ _)) issued.left)
        (turn.later first.data issued.right) (excused.later first.failures)
        (whole.later first.failures)
      exact ⟨changed, told,
        (first.mono (List.subset_append_right _ _)).trans there issued.right⟩

end

end World

end LiveTemplate
