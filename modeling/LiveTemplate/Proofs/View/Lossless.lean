import LiveTemplate.Proofs.View.Chronicle
import LiveTemplate.Proofs.View.Company
import LiveTemplate.Proofs.View.PathFollowing

/-!
# No value is lost

There is a chronicle of whatever is done to a world.  So when a value is set, everything that observers
do about it is accounted for, and nothing of what they set themselves is lost.
-/

namespace LiveTemplate.World

variable {Client : Type}

/-- There is a chronicle from one world to the other. -/
def Chronicled (world after : World Client) : Prop :=
  ∃ log, Chronicle world log after

theorem Chronicle.trans {world middle after : World Client} {log more : List (Occurrence Client)}
    (later : Chronicle middle more after) :
    Chronicle world log middle → Chronicle world (log ++ more) after
  | .done _ => later
  | .set behaviour reports stored delivery result rest => by
      rw [List.append_assoc]
      exact .set behaviour reports stored delivery result (Chronicle.trans later rest)
  | .refuse error result rest => .refuse error result (Chronicle.trans later rest)
  | .other leaves rest => .other leaves (Chronicle.trans later rest)

section Chronicled

variable {world middle after : World Client}

theorem Chronicled.refl (world : World Client) : Chronicled world world :=
  ⟨[], .done world⟩

theorem Chronicled.trans (first : Chronicled world middle) (second : Chronicled middle after) :
    Chronicled world after := by
  obtain ⟨_, early⟩ := first
  obtain ⟨_, later⟩ := second
  exact ⟨_, later.trans early⟩

theorem Chronicled.of_leaves (leaves : world.data.Leaves after.data) : Chronicled world after :=
  ⟨_, .other leaves (.done after)⟩

theorem Chronicled.of_data (data : after.data = world.data) : Chronicled world after := by
  apply Chronicled.of_leaves
  rw [data]
  exact .refl _

theorem Concerns.chronicled {id : RenderId} (concerns : world.Concerns after id) :
    Chronicled world after :=
  .of_leaves (concerns.kept.agrees.leaves concerns.data concerns.kept.sound.data)

/-- It does not matter who is at work. -/
theorem Chronicled.engaging {Result : Type} {controllers : List ControllerId}
    {act : World Client → Result × World Client} {result : Result}
    (acted : Chronicled { world with engaged := controllers ++ world.engaged }
      (act { world with engaged := controllers ++ world.engaged }).2)
    (run : world.engaging controllers act = (result, after)) : Chronicled world after := by
  have first : Chronicled world { world with engaged := controllers ++ world.engaged } := .of_data rfl
  have last : Chronicled (act { world with engaged := controllers ++ world.engaged }).2 after := by
    apply Chronicled.of_data
    exact congrArg (fun pair : Result × World Client => pair.2.data) run.symm
  exact first.trans (acted.trans last)

end Chronicled

mutual

theorem Conduct.chronicled {world after : World Client} :
    Conduct world after → world.Sound → Chronicled world after
  | .done _, _ => .refl _
  | .next call rest, sound => (call.chronicled sound).trans (rest.chronicled (call.sequel sound).sound)

theorem Call.chronicled {world after : World Client} :
    Call world after → world.Sound → Chronicled world after
  | .set refers stored told set, sound => by
      have moved := sound.moved (Data.put_moves sound.data refers stored)
      obtain ⟨reports, log, delivery⟩ :=
        told.delivery moved.sound (refers.mono moved.models moved.collections)
      exact ⟨_, .set _ reports stored delivery set (.done _)⟩
  | .mutate made refers stored told, sound => by
      have moved := sound.applied refers stored
      obtain ⟨recalls, alters, _⟩ := Data.apply_alters stored
      have first : Chronicled world { world with data := _ } := .of_leaves
        (alters.leaves (fun _ _ => nofun) recalls moved.sound.data moved.models)
      have notified := told.chronicled moved.sound (refers.mono moved.models moved.collections)
      unfold World.mutate
      rw [made]
      subst stored
      exact first.trans notified
  | .mount there inside, sound => (mount_concerns _ sound _ _ _ _ there inside).chronicled
  | .unmount id, sound => (unmount_concerns sound id).chronicled
  | .dispatch travels, sound => travels.chronicled sound
  | .handle handles, sound => handles.chronicled sound
  | .subscribe channel hook inside, sound => by
      have registers := Data.subscribe_registers channel (.client hook) inside
      exact .of_leaves (registers.agrees.leaves registers.recalls
        (sound.moved (registers.moves sound.data rfl)).sound.data)
  | .subscribeChanges hook inside, sound => by
      have registers := Data.subscribeChanges_registers (.client hook) inside
      exact .of_leaves (registers.agrees.leaves registers.recalls
        (sound.moved (registers.moves sound.data rfl)).sound.data)
  | .cancel own, sound => by
      have cancels := Data.cancel_cancels world.data ‹Subscription›
      exact .of_leaves (cancels.agrees.leaves cancels.recalls
        (sound.moved (Data.cancel_moves sound.data own)).sound.data)
  | .addModel refers, sound => by
      obtain ⟨recalls, alters⟩ := Data.addModel_alters world.data _
      have moved := sound.moved (Data.addModel_moves sound.data refers)
      exact .of_leaves (alters.leaves (fun _ _ => id) recalls moved.sound.data moved.models)
  | .addCollection refers, sound => by
      obtain ⟨recalls, alters⟩ := Data.addCollection_alters world.data _
      have moved := sound.moved (Data.addCollection_moves sound.data refers)
      exact .of_leaves (alters.leaves (fun _ _ => id) recalls moved.sound.data moved.models)
  | .addDocument _, _ => .of_data rfl
  | .edit .., _ => .of_data rfl
  | .other data _ _, _ => .of_data data

theorem Told.delivery {world : World Client} {behaviour : Behaviour Client} {model : ModelId}
    {property : String} {value : Value} {entries : List (SubscriptionId × ValueObserver)} :
    Told behaviour model property value entries world → world.Sound → world.data.Refers value →
      ∃ reports log, Delivery behaviour model property value entries world reports log
  | .done _, _, _ => ⟨_, _, .done ..⟩
  | .passed gone rest, sound, refers => by
      obtain ⟨reports, log, delivery⟩ := rest.delivery sound refers
      exact ⟨reports, log, .passed _ _ gone delivery⟩
  | .client there acts rest, sound, refers => by
      have first := acts.sequel sound
      obtain ⟨inner, chronicle⟩ := acts.chronicled sound
      obtain ⟨reports, log, delivery⟩ :=
        rest.delivery first.sound (refers.mono first.models first.collections)
      exact ⟨_, _, .told _ (.client _) there chronicle delivery⟩
  | .render observer there rest, sound, refers => by
      have concerns := react_concerns behaviour sound observer refers
      have first := concerns.kept.sequel
      obtain ⟨inner, chronicle⟩ := concerns.chronicled
      obtain ⟨reports, log, delivery⟩ :=
        rest.delivery first.sound (refers.mono first.models first.collections)
      exact ⟨_, _, .told _ (.path observer) there chronicle delivery⟩

theorem ToldChange.chronicled {world : World Client} {behaviour : Behaviour Client}
    {collection : CollectionId} {change : Change} {entries : List (SubscriptionId × ChangeObserver)} :
    ToldChange behaviour collection change entries world → world.Sound → world.data.RefersIn change →
      Chronicled world (deliver (fun world => (world.data.collection collection).channel)
        (tellChange behaviour change) entries world)
  | .done _, _, _ => .refl _
  | .passed gone rest, sound, refers => by
      rw [deliver, if_neg (by simp [gone])]
      exact rest.chronicled sound refers
  | .client there acts rest, sound, refers => by
      rw [deliver, if_pos there]
      have first := acts.sequel sound
      exact (acts.chronicled sound).trans
        (rest.chronicled first.sound (refers.mono first.models first.collections))
  | .render there own rest, sound, refers => by
      rw [deliver, if_pos there]
      obtain ⟨⟨render, owner⟩, owned⟩ := Option.ne_none_iff_exists'.1 own
      have concerns := tellChange_concerns behaviour sound refers owned
      have first := concerns.kept.sequel
      exact concerns.chronicled.trans
        (rest.chronicled first.sound (refers.mono first.models first.collections))

theorem Travels.chronicled {world : World Client} {behaviour : Behaviour Client}
    {document : DocumentId} {path : List NodeId} {event : Event} :
    Travels behaviour document path event world → world.Sound →
      Chronicled world (travel behaviour document path event world).2
  | .done _ _, _ => .refl _
  | .gone absent rest, sound => by
      unfold travel
      rw [absent]
      exact rest.chronicled sound
  | .there found hears result rest, sound => by
      have first := hears.chronicled sound
      have sequel := hears.sequel sound
      rw [result] at first sequel
      unfold travel
      rw [found]
      dsimp only
      rw [result]
      dsimp only
      split
      · exact first
      · rename_i goes
        exact first.trans ((rest (by simpa using goes)).chronicled sequel.sound)

theorem HearsAll.chronicled {world : World Client} {behaviour : Behaviour Client}
    {listeners : List (Listener × Option ControllerId)} {event : Event} :
    HearsAll behaviour listeners event world → world.Sound →
      Chronicled world (hearAll behaviour listeners event world).2
  | .done _ _, _ => .refl _
  | .next hears result rest, sound => by
      have first := Chronicled.engaging (hears.chronicled (sound.of_eq rfl rfl rfl)) result
      have sequel := engaging_sequel (hears.sequel (sound.of_eq rfl rfl rfl)) result
      unfold hearAll
      rw [result]
      exact first.trans (rest.chronicled sequel.sound)

theorem Hears.chronicled {world : World Client} {behaviour : Behaviour Client} {listener : Listener}
    {event : Event} : Hears behaviour listener event world → world.Sound →
      Chronicled world (world.hear behaviour listener event).2
  | .client acts, sound => acts.chronicled sound
  | .gone absent, _ => by
      unfold hear
      dsimp only
      rw [absent]
      exact .refl _
  | .action found handles, sound => by
      unfold hear
      dsimp only
      rw [found]
      exact handles.chronicled sound

theorem Handles.chronicled {world : World Client} {behaviour : Behaviour Client} {id : ControllerId}
    {action : String} {event : Event} {model : ModelId} :
    Handles behaviour id action event model world → world.Sound →
      Chronicled world (world.handle behaviour id action event model).2
  | .unknown nobody, _ => by
      unfold handle
      rw [nobody]
      exact .refl _
  | .known found acts, sound => by
      unfold handle
      rw [found]
      exact Chronicled.engaging (acts.chronicled (sound.of_eq rfl rfl rfl)) rfl

end

/-- Nothing is lost of what is set in the course of a call: neither a value nor who is to be told. -/
structure Lossless (world : World Client) (log : List (Occurrence Client)) (after : World Client) :
    Prop where
  /-- Once the last value of a property has been stored, whoever stays registered for it is told. -/
  heard : ∀ model property value late, LastSet log model property value late → ∀ id observer,
    world.data.Holds ⟨.model model (changeChannel property), id⟩ (.value observer) →
      after.data.Holds ⟨.model model (changeChannel property), id⟩ (.value observer) →
        ∃ report, .tell report ∈ late ∧ report.model = model ∧ report.property = property ∧
          report.id = id ∧ report.observer = observer
  /-- That value is read from then on. -/
  current : ∀ model property value late, LastSet log model property value late →
    after.data.get model property = value ∧
      ∀ occurrence ∈ late, occurrence.world.data.get model property = value
  /-- Each value that is set is announced once, on the channel of its property. -/
  announces : ∀ behaviour world model property value reports,
    .set behaviour world model property value reports ∈ log →
      Announces behaviour world model property value reports
  /-- Nobody is told of anything else. -/
  reports : (log.filterMap Occurrence.report?).Perm (log.flatMap Occurrence.reports)
  /-- What is not declared cannot be set, and nothing comes of it. -/
  refused : ∀ early behaviour world model property value late,
    log = early ++ .refuse behaviour world model property value :: late →
      world.set behaviour model property value = .error (.undeclaredProperty property) ∧
        onset late after = world

theorem Chronicle.lossless {world after : World Client} {log : List (Occurrence Client)}
    (chronicle : Chronicle world log after) (below : world.data.Below) : Lossless world log after := by
  have segment := chronicle.segment below
  have orderly := chronicle.orderly
  constructor
  · exact segment.heard
  · intro model property value late last
    exact (segment.current model property value late last).2
  · exact orderly.announces
  · exact chronicle.reports
  · exact orderly.refused

/-- However observers set properties and come and go while they are told of a value, no value that is
set is lost. -/
theorem Conduct.set_lossless {client : Client} {world after : World Client}
    (conduct : Conduct { client } world) {behaviour : Behaviour Client} {data : Data} {model : ModelId}
    {property : String} {value : Value} (refers : world.data.Refers value)
    (stored : world.data.put model property value = .ok data)
    (told : Told behaviour model property value
      ((data.model model).channel (changeChannel property)).subscribers { world with data })
    (set : world.set behaviour model property value = .ok after) :
    (∃ reports log, Delivery behaviour model property value
      ((data.model model).channel (changeChannel property)).subscribers { world with data } reports
      log) ∧
    (∀ reports log, Delivery behaviour model property value
      ((data.model model).channel (changeChannel property)).subscribers { world with data } reports
      log → Lossless world (.set behaviour world model property value reports :: log) after) ∧
    ∀ behaviour model property value, (world.data.model model).declares property = false →
      world.set behaviour model property value = .error (.undeclaredProperty property) := by
  have sound := conduct.sound
  have moved := sound.moved (Data.put_moves sound.data refers stored)
  refine ⟨told.delivery moved.sound (refers.mono moved.models moved.collections), ?_, ?_⟩
  · intro reports log delivery
    have chronicle : Chronicle world _ after := .set behaviour reports stored delivery set (.done after)
    rw [List.append_nil] at chronicle
    exact chronicle.lossless sound.data.below
  · intro behaviour model property value undeclared
    exact (set_eq_error_iff behaviour).2 ⟨undeclared, rfl⟩

/-! ## A value that is set while another is announced -/

/-- The world of the fork after the third model has been led to another one. -/
def led (world : World Unit) (value : Value) : World Unit :=
  { world with data := world.data.modifyModel ⟨2⟩ (·.put "a" value) }

theorem set_lossless_forked : ∃ after,
    forked.set diverting ⟨2⟩ "a" (.model ⟨0⟩) = .ok after ∧
    (∃ reports log, Delivery diverting ⟨2⟩ "a" (.model ⟨0⟩)
      [(0, .client ⟨0⟩)] (led forked (.model ⟨0⟩)) reports log) ∧
    (∀ reports log, Delivery diverting ⟨2⟩ "a" (.model ⟨0⟩)
      [(0, .client ⟨0⟩)] (led forked (.model ⟨0⟩)) reports log →
        Lossless forked (.set diverting forked ⟨2⟩ "a" (.model ⟨0⟩) reports :: log) after) ∧
    ∀ behaviour model property value, (forked.data.model model).declares property = false →
      forked.set behaviour model property value = .error (.undeclaredProperty property) := by
  have first : forked.data.put ⟨2⟩ "a" (.model ⟨0⟩) = .ok (led forked (.model ⟨0⟩)).data :=
    if_pos (by decide +kernel)
  have second : (led forked (.model ⟨0⟩)).data.put ⟨2⟩ "a" (.model ⟨1⟩) =
      .ok (led (led forked (.model ⟨0⟩)) (.model ⟨1⟩)).data := if_pos (by decide +kernel)
  have listed : (((led forked (.model ⟨0⟩)).data.model ⟨2⟩).channel (changeChannel "a")).subscribers =
      [(0, .client ⟨0⟩)] := by
    decide +kernel
  have again : (((led (led forked (.model ⟨0⟩)) (.model ⟨1⟩)).data.model ⟨2⟩).channel
      (changeChannel "a")).subscribers = [(0, .client ⟨0⟩)] := by
    decide +kernel
  have diverts : diverting.value ⟨0⟩ (.model ⟨0⟩) (led forked (.model ⟨0⟩)) =
      (led forked (.model ⟨0⟩)).setOr (still Unit) ⟨2⟩ "a" (.model ⟨1⟩) := rfl
  have nested : (led forked (.model ⟨0⟩)).set (still Unit) ⟨2⟩ "a" (.model ⟨1⟩) =
      .ok ((led forked (.model ⟨0⟩)).setOr (still Unit) ⟨2⟩ "a" (.model ⟨1⟩)) := by
    rw [setOr, set_announces _ second]
  have inner : Told (still Unit) ⟨2⟩ "a" (.model ⟨1⟩) [(0, .client ⟨0⟩)]
      (led (led forked (.model ⟨0⟩)) (.model ⟨1⟩)) :=
    .client (by decide +kernel) (.done _) (.done _)
  have acts : Conduct (led forked (.model ⟨0⟩))
      (diverting.value ⟨0⟩ (.model ⟨0⟩) (led forked (.model ⟨0⟩))) := by
    rw [diverts]
    exact .next (.set (.model (by decide +kernel)) second (again ▸ inner) nested) (.done _)
  have told : Told diverting ⟨2⟩ "a" (.model ⟨0⟩) [(0, .client ⟨0⟩)] (led forked (.model ⟨0⟩)) :=
    .client (by decide +kernel) acts (.done _)
  refine ⟨_, set_announces diverting first, ?_⟩
  have lossless := conduct_forked.set_lossless (.model (by decide +kernel)) first (listed ▸ told)
    (set_announces diverting first)
  rw [listed] at lossless
  exact lossless

end LiveTemplate.World
