import LiveTemplate.Proofs.Command.Stories

/-!
# Calls are stories

If everything that client code does can be told as a story, then so can what the calls do during which it
runs: a property is set, a collection is changed, an event is fired, an action is handled.
-/

namespace LiveTemplate

namespace World

variable {Client : Type} {behaviour : Behaviour Client} {world middle after : World Client}

/-- There is a story that leads from one world to the other. -/
def Leads (behaviour : Behaviour Client) (world after : World Client) : Prop :=
  ∃ passed, Story behaviour world passed after

theorem Leads.refl (world : World Client) : world.Leads behaviour world :=
  ⟨_, .done⟩

theorem Leads.trans (first : world.Leads behaviour middle) (second : middle.Leads behaviour after) :
    world.Leads behaviour after := by
  obtain ⟨_, first⟩ := first
  obtain ⟨_, second⟩ := second
  exact ⟨_, first.trans second⟩

theorem Episode.leads {appointed : Option ControllerId}
    (episode : Episode behaviour world appointed after) : world.Leads behaviour after :=
  ⟨_, .next .done episode⟩

theorem Leads.sequel (leads : world.Leads behaviour after) (sound : world.Sound) :
    world.Sequel after := by
  obtain ⟨_, story⟩ := leads
  exact story.sequel sound

end World

open World (Leads)

/-- What client code does can be told as a story, wherever it runs. -/
structure Behaviour.Narrates {Client : Type} (behaviour : Behaviour Client) : Prop where
  value : ∀ hook value (world : World Client), world.Sound →
    world.Leads behaviour (behaviour.value hook value world)
  change : ∀ hook change (world : World Client), world.Sound →
    world.Leads behaviour (behaviour.change hook change world)
  listen : ∀ hook event (world : World Client), world.Sound →
    world.Leads behaviour (behaviour.listen hook event world).2
  act : ∀ hook event model (world : World Client), world.Sound →
    world.Leads behaviour (behaviour.act hook event model world).2

namespace World

variable {Client : Type} {behaviour : Behaviour Client} {world after : World Client}

/-- It does not matter who is at work. -/
theorem leads_engaged (world : World Client) (engaged : List ControllerId) :
    world.Leads behaviour { world with engaged } :=
  (@Episode.other _ _ world { world with engaged } rfl rfl rfl rfl (.refl _)).leads

theorem engaging_leads {Result : Type} {controllers : List ControllerId}
    {act : World Client → Result × World Client}
    (acted : Leads behaviour { world with engaged := controllers ++ world.engaged }
      (act { world with engaged := controllers ++ world.engaged }).2) :
    world.Leads behaviour (world.engaging controllers act).2 :=
  ((leads_engaged world _).trans acted).trans (leads_engaged _ world.engaged)

section Calls

variable (narrates : behaviour.Narrates) (sound : world.Sound)

include narrates sound

theorem handle_leads (id : ControllerId) (action : String) (event : Event) (model : ModelId) :
    world.Leads behaviour (world.handle behaviour id action event model).2 := by
  unfold handle
  split
  · exact .refl world
  · exact engaging_leads (narrates.act _ event model _ (sound.of_eq rfl rfl rfl))

theorem hear_leads (listener : Listener) (event : Event) :
    world.Leads behaviour (world.hear behaviour listener event).2 := by
  cases listener with
  | client hook => exact narrates.listen hook event world sound
  | action render owner slot =>
      unfold hear
      dsimp only
      split
      · exact .refl world
      · exact handle_leads narrates sound _ _ _ _

theorem hearAll_leads (listeners : List (Listener × Option ControllerId)) (event : Event) :
    world.Leads behaviour (hearAll behaviour listeners event world).2 := by
  induction listeners generalizing world event with
  | nil => exact .refl world
  | cons first later induction =>
      have here : world.Leads behaviour (world.engaging (first.2.toList ++ later.filterMap Prod.snd)
          fun world => world.hear behaviour first.1 event).2 := by
        refine engaging_leads (hear_leads narrates ?_ first.1 event)
        exact sound.of_eq rfl rfl rfl
      exact here.trans (induction (here.sequel sound).sound _)

theorem travel_leads (document : DocumentId) (path : List NodeId) (event : Event) :
    world.Leads behaviour (travel behaviour document path event world).2 := by
  induction path generalizing world event with
  | nil => exact .refl world
  | cons node above induction =>
      unfold travel
      split
      · exact induction sound event
      · rename_i data _
        have here := hearAll_leads narrates sound ((data.listenersFor event.name).map fun listener =>
          (listener, world.controllerOf? listener)) { event with current := node }
        dsimp only
        split
        · exact here
        · exact here.trans (induction (here.sequel sound).sound _)

/-- An event that is fired. -/
theorem dispatch_leads (document : DocumentId) (event : Event) :
    world.Leads behaviour (world.dispatch behaviour document event).2 :=
  travel_leads narrates sound document _ event

theorem tell_leads {value : Value} (refers : world.data.Refers value) (observer : ValueObserver) :
    world.Leads behaviour (world.tell behaviour value observer) := by
  cases observer with
  | client hook => exact narrates.value hook value world sound
  | path observer => exact (Episode.react observer refers).leads

theorem tellChange_leads {change : Change} (refers : world.data.RefersIn change)
    (observer : ChangeObserver) : world.Leads behaviour (world.tellChange behaviour change observer) := by
  by_cases own : (Observer.change observer).owner? = none
  · cases observer with
    | client hook => exact narrates.change hook change world sound
    | rebuild | splice => cases own
  · exact (Episode.follow refers own).leads

omit narrates in
/-- Observers are told one after the other, as long as they are registered. -/
theorem deliver_leads {Observer : Type} {current : World Client → Channel Observer}
    {call : Observer → World Client → World Client} {models collections : Nat}
    (tells : ∀ observer (world : World Client), world.Sound → models ≤ world.data.models.next →
      collections ≤ world.data.collections.next → world.Leads behaviour (call observer world))
    (entries : List (SubscriptionId × Observer)) (known : models ≤ world.data.models.next)
    (listed : collections ≤ world.data.collections.next) :
    world.Leads behaviour (deliver current call entries world) := by
  induction entries generalizing world with
  | nil => exact .refl world
  | cons first later induction =>
      obtain ⟨id, observer⟩ := first
      rw [deliver]
      split
      · have here := tells observer world sound known listed
        have sequel := here.sequel sound
        exact here.trans (induction sequel.sound (known.trans sequel.models)
          (listed.trans sequel.collections))
      · exact induction sound known listed

/-- A property that is set. -/
theorem set_leads {model : ModelId} {property : String} {value : Value}
    (refers : world.data.Refers value) (set : world.set behaviour model property value = .ok after) :
    world.Leads behaviour after := by
  unfold World.set at set
  cases stored : world.data.put model property value with
  | error error =>
      rw [stored] at set
      cases set
  | ok data =>
      rw [stored] at set
      obtain rfl := Except.ok.inj set
      have moves := Data.put_moves sound.data refers stored
      have sequel := sound.moved moves
      exact (Episode.move moves).leads.trans (deliver_leads sequel.sound (fun observer world sound models
        collections => tell_leads narrates sound (refers.mono (sequel.models.trans models)
          (sequel.collections.trans collections)) observer) _ le_rfl le_rfl)

/-- A collection that is changed. -/
theorem change_leads {change : Change} (refers : world.data.RefersIn change)
    (collection : CollectionId) : world.Leads behaviour (world.change behaviour collection change) := by
  have moves := @Data.apply_moves _ sound.data collection _ refers
  have sequel := sound.moved moves
  exact (Episode.move moves).leads.trans (deliver_leads sequel.sound (fun observer world sound models
    collections => tellChange_leads narrates sound (refers.mono (sequel.models.trans models)
      (sequel.collections.trans collections)) observer) _ le_rfl le_rfl)

end Calls

end World

end LiveTemplate
