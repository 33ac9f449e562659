import LiveTemplate.Proofs.Command.Chain
import LiveTemplate.Proofs.Command.Stories
import LiveTemplate.Proofs.Upkeep.Mounted

/-!
# Actions are handled in the chain

When the listener of an event attribute runs, the first controller of the element's chain that knows the
action handles it.  The listener of an element that has gone does nothing.
-/

namespace LiveTemplate.World

variable {Client : Type} {behaviour : Behaviour Client} {prepared mounted world : World Client}
  {passed : List (Passage Client)} {place : DocumentId} {registry : RegistryId} {config : RenderConfig}
  {template : Template} {model : ModelId} {controller : ControllerId} {id : RenderId}

/-- The first controller of a chain that knows the action runs it, once, for the event and the model;
others that are held on to in the meantime are let go again.  If nobody knows it, nothing happens. -/
def Obeys (behaviour : Behaviour Client) (world : World Client) (chain : List ControllerId)
    (action : String) (event : Event) (model : ModelId) (result : Event × World Client) : Prop :=
  match chain.findSome? fun id => (world.controllers.get id).action? action with
  | none => result = (event, world)
  | some hook => ∃ busy,
      let acted := behaviour.act hook event model { world with engaged := busy ++ world.engaged }
      result = (acted.1, { acted.2 with engaged := world.engaged })

theorem handle_obeys {chain : List ControllerId} {id : ControllerId} {action : String} (event : Event)
    (model : ModelId)
    (finds : (world.handler? behaviour action (world.controllers.next + 1) id).map Prod.snd =
      chain.findSome? fun id => (world.controllers.get id).action? action) :
    world.Obeys behaviour chain action event model
      ((world.handle behaviour id action event model).1.2,
        (world.handle behaviour id action event model).2) := by
  unfold Obeys handle
  rw [← finds]
  cases world.handler? behaviour action (world.controllers.next + 1) id with
  | none => rfl
  | some found => exact ⟨id :: found.1, rfl⟩

/-- A controller with which something live was built is in use. -/
theorem inUse_of_entry {render : Render} {entry : BoundId × BoundNode Part}
    (known : world.render? id = some render) (member : entry ∈ render.tree.nodes.entries) :
    world.inUse behaviour entry.2.scope.controller = true := by
  have listed : render ∈ world.renders.toList := by
    rw [World.render?, Store.get?] at known
    exact Array.mem_toList_iff.2 (Array.mem_of_getElem? known)
  refine Bool.or_eq_true_iff.2 (.inr (List.any_eq_true.2 ⟨render, listed, ?_⟩))
  exact List.any_eq_true.2 ⟨entry, member, beq_self_eq_true _⟩

theorem hear_of_dead {owner : BoundId} (dead : world.isLive id owner = false) (slot : Nat)
    (event : Event) : world.hear behaviour (.action id owner slot) event = (event, world) := by
  have nobody : world.bound? id owner = none := by simpa [isLive] using dead
  simp [hear, eventAttribute?, nobody]

/-- In a render that stands in ranks, an event attribute is answered along the chain of its element. -/
theorem Staffed.hear_obeys {staff : Staff} (staffed : world.Staffed staff)
    (successful : ∀ error, (staff.render, error) ∉ world.failures) {render : Render}
    (known : world.render? staff.render = some render) {owner : BoundId} {slot : Nat} {scope : Scope}
    {action : String} {prevents : Bool}
    (found : world.eventAttribute? staff.render owner slot = some (scope, action, prevents))
    (event : Event) :
    ∃ chain, staff.Chain staff.chief (BoundForest.views render.tree.nodes owner) chain ∧
      world.Obeys behaviour chain action (if prevents then event.prevent else event) scope.model
        (world.hear behaviour (.action staff.render owner slot) event) := by
  have led := staffed.ranked successful render known
  obtain ⟨top, stored, alone⟩ := staffed.chief
  obtain ⟨attributes, dom, ledger, live⟩ : ∃ attributes dom ledger,
      render.tree.nodes.label? owner = some ⟨.element attributes, dom, ledger, scope⟩ := by
    have bound : world.bound? staff.render owner = render.tree.nodes.label? owner := by
      rw [bound?, known]
      rfl
    unfold eventAttribute? at found
    rw [bound] at found
    split at found
    · rename_i there
      split at found
      · obtain ⟨rfl, _⟩ := Prod.mk.inj (Option.some.inj found)
        exact ⟨_, _, _, there⟩
      · cases found
    · cases found
  obtain ⟨same, stationed⟩ := led.ranked.views live (by rintro ⟨⟩)
  -- Something is live, so that something at the top is, which was built with the root controller.
  have used : world.inUse behaviour staff.chief = true := by
    cases shape : render.tree.nodes with
    | nil =>
        rw [shape] at live
        cases live
    | cons name node below rest =>
        have first : (name, node) ∈ render.tree.nodes.crown := by
          rw [shape]
          exact List.mem_cons_self
        rw [← led.top_controller _ first]
        exact inUse_of_entry known (Forest.crown_subset_entries _ first)
  obtain ⟨chain, leads, finds⟩ := exists_chain stored alone used _ stationed fun entry member => by
    obtain ⟨above, view⟩ := List.mem_filter.1 member
    exact ⟨of_decide_eq_true view, inUse_of_entry known (Forest.above_subset _ _ above)⟩
  refine ⟨chain, leads, ?_⟩
  -- Links lead to older controllers, so that as many steps as there are controllers are enough.
  have bounded : scope.controller.index < world.controllers.next + 1 := by
    obtain ⟨below, has⟩ := Forest.exists_has_of_label? live
    exact (led.ranked.known staffed.known _ has.mem_entries).2.trans (Nat.lt_succ_self _)
  have answered := handle_obeys (if prevents then event.prevent else event) scope.model
    (finds action _ (same ▸ bounded))
  rw [← same] at answered
  unfold hear
  dsimp only
  rw [found]
  exact answered

/-- A render that is mounted is a new one. -/
theorem mount_new (sound : world.Sound) (there : place.index < world.documents.next)
    (inside : model.index < world.data.models.next)
    (mount : world.mount behaviour place registry config template model controller = (.ok id, mounted)) :
    world.render? id = none ∧ (mounted.render? id).isSome = true := by
  obtain ⟨document, state, run⟩ := exists_raised behaviour sound registry config template there
    (show ({ model, controller } : Scope).model.index < _ from inside)
  unfold World.mount at mount
  split at mount
  · cases mount
  dsimp only at mount
  generalize world.raise behaviour _ template _ = result at mount run
  split at mount
  · cases mount
  obtain ⟨named, rfl⟩ := Prod.mk.inj mount
  obtain rfl := Except.ok.inj named
  exact ⟨Store.get?_eq_none le_rfl, Option.isSome_iff_exists.2 ⟨_, run.known⟩⟩

/-- Whatever happens after a render was mounted, as long as everything in it could be built: when the
listener of an event attribute runs, the first controller of the element's chain that knows the action
handles it, for the event and the model of the element's scope, after the default was prevented if the
attribute says so.  If the element has gone, nothing happens, and it does not come back. -/
theorem Conduct.actions_handled {client : Client} (conduct : Conduct { client } prepared)
    (hires : behaviour.Hires) (there : place.index < prepared.documents.next)
    (inside : model.index < prepared.data.models.next)
    (known : controller.index < prepared.controllers.next)
    (mount : prepared.mount behaviour place registry config template model controller =
      (.ok id, mounted))
    (story : Story behaviour mounted passed world) (owner : BoundId) (slot : Nat) (event : Event) :
    let staff := staffOf behaviour registry config.inheritsController controller id
      (passed ++ [⟨prepared, some controller⟩])
    (world.isLive id owner = false →
      world.hear behaviour (.action id owner slot) event = (event, world)) ∧
    (∀ past ∈ passed, owner.index < past.world.numbered id → past.world.isLive id owner = false →
      world.isLive id owner = false) ∧
    ((∀ error, (id, error) ∉ world.failures) → ∀ render scope action prevents,
      world.render? id = some render →
      world.eventAttribute? id owner slot = some (scope, action, prevents) →
      ∃ chain, staff.Chain controller (BoundForest.views render.tree.nodes owner) chain ∧
        (∀ other, staff.Chain controller (BoundForest.views render.tree.nodes owner) other →
          other = chain) ∧
        world.Obeys behaviour chain action (if prevents then event.prevent else event) scope.model
          (world.hear behaviour (.action id owner slot) event)) := by
  intro staff
  have sound : mounted.Sound := by
    have kept := mount_kept behaviour conduct.sound registry config template controller there inside
    rw [mount] at kept
    exact kept.sound
  obtain ⟨new, present⟩ := mount_new conduct.sound there inside mount
  have first : prepared.numbered id = 0 := by
    rw [numbered, new]
    rfl
  have takes : (staffOf behaviour registry config.inheritsController controller id
      [⟨prepared, some controller⟩]).Takes behaviour prepared 0 := by
    have early := @staffOf_takes _ behaviour prepared [] registry config.inheritsController controller id
      (List.forall_mem_nil _)
    rw [first] at early
    exact ⟨early.given, early.vacant, fun name other _ => by simp [staffOf, first]⟩
  have staffed := mount_staffed hires conduct.sound there inside known mount rfl rfl rfl rfl takes
  obtain ⟨_, lasting⟩ := story.lasting hires sound present
  refine ⟨fun dead => hear_of_dead dead slot event, fun past member old dead => ?_,
    fun successful render scope action prevents stored found => ?_⟩
  · refine Bool.eq_false_iff.2 fun live => ?_
    rw [(lasting past member).lasting owner old live] at dead
    cases dead
  · obtain ⟨chain, leads, obeys⟩ :=
      (story.staffed hires sound present first staffed).hear_obeys successful stored found event
    exact ⟨chain, leads, fun _ => leads.unique fun _ _ _ => staffOf_decides, obeys⟩

/-! ## A slip in a folder -/

/-- A button that saves something. -/
def slip : Template :=
  ⟨"button", [.event "click" "save" true], [], 1⟩

/-- The slip, as long as it is asked for. -/
def folder : Template :=
  ⟨"p", [], [.directive .showIf ⟨"open", []⟩ [.view "slip"]], 1⟩

/-- Client code that counts the actions that are run, and makes a new controller for every view. -/
def counting : Behaviour Nat where
  value := fun _ _ world => world
  change := fun _ _ world => world
  listen := fun _ event world => (event, world)
  act := fun _ event _ world => (event, { world with client := world.client + 1 })
  build := fun _ _ controllers client =>
    ((controllers.create (.actions [] none)).1, (controllers.create (.actions [] none)).2, client)
  keeps := fun _ => []

theorem counting_hires : counting.Hires := fun _ =>
  { kept := fun _ controllers _ => Controllers.extends_create controllers _
    fresh := fun _ _ _ => le_rfl
    acts := fun _ controllers _ => ⟨[], none, by
      show (controllers.add _).get? _ = _
      rw [Store.get?_add]
      exact if_pos rfl⟩ }

/-- A folder that is closed, the view of the slip with its factory, and a controller that saves. -/
def filed : World Nat :=
  { data := (({} : Data).addModel (.ofSchema [⟨"open", .bool false, none⟩])).2
    documents := ({} : Store Document).add {}
    registries := ({} : Store Registry).add { views := [("slip", slip)], factories := [("slip", ⟨0⟩)] }
    controllers := ({} : Controllers).add (.actions [("save", ⟨0⟩)] none)
    client := 0 }

theorem conduct_filed : Conduct { client := 0 } filed :=
  .next (@Call.addModel _ _ [⟨"open", .bool false, none⟩] (List.forall_mem_singleton.2 (.bool false)))
    (.next (.addDocument _) (.next (@Call.other _ _ filed rfl rfl rfl) (.done _)))

theorem missingView?_slip {template : Template} (only : template.viewNames = ["slip"]) :
    (filed.registry ⟨0⟩).missingView? template = none := by
  rw [Registry.missingView?, only]
  show Registry.missing? { views := [("slip", slip)], factories := [("slip", ⟨0⟩)] } [] ["slip"] = none
  rw [Registry.missing?, dif_neg (by decide)]
  split
  · rename_i missing
    simp [Registry.view?] at missing
  · rename_i view found
    obtain rfl : slip = view := by simpa [Registry.view?] using found
    exact Registry.missing?.eq_1 ..

/-- The folder is shown. -/
def shelved : World Nat :=
  (filed.mount counting ⟨0⟩ ⟨0⟩ {} folder ⟨0⟩ ⟨0⟩).2

theorem mount_shelved :
    filed.mount counting ⟨0⟩ ⟨0⟩ {} folder ⟨0⟩ ⟨0⟩ = (.ok ⟨0⟩, shelved) := by
  refine Prod.ext ?_ rfl
  rw [mount, missingView?_slip rfl]
  decide +kernel

/-- The folder has been opened, which has not been announced yet. -/
def asked : World Nat :=
  { shelved with data := shelved.data.modifyModel ⟨0⟩ (·.put "open" (.bool true)) }

/-- The slip is shown. -/
def opened : World Nat :=
  asked.react counting ⟨⟨0⟩, ⟨2⟩, ⟨2⟩, 0, []⟩ (.bool true)

theorem story_opened : Story counting shelved [⟨asked, none⟩, ⟨shelved, none⟩] opened := by
  have sound : shelved.Sound := by
    have kept := mount_kept counting conduct_filed.sound ⟨0⟩ {} folder (⟨0⟩ : ControllerId)
      (Nat.lt_succ_self 0 : (⟨0⟩ : DocumentId).index < _) (Nat.lt_succ_self 0 : (⟨0⟩ : ModelId).index < _)
    exact kept.sound
  have declared : (shelved.data.model ⟨0⟩).declares "open" = true := by
    rw [shelved, mount, missingView?_slip rfl]
    decide +kernel
  have stored : shelved.data.put ⟨0⟩ "open" (.bool true) = .ok asked.data := by
    rw [Data.put, if_pos declared]
    rfl
  exact .next (.next .done (.move (Data.put_moves sound.data (.bool true) stored)))
    (.react _ (.bool true))

/-- The slip's own controller knows nothing, so that the root controller saves. -/
theorem actions_handled_opened : Conduct { client := 0 } filed ∧ counting.Hires ∧
    filed.mount counting ⟨0⟩ ⟨0⟩ {} folder ⟨0⟩ ⟨0⟩ = (.ok ⟨0⟩, shelved) ∧
    Story counting shelved [⟨asked, none⟩, ⟨shelved, none⟩] opened ∧
    (∀ error, (⟨0⟩, error) ∉ opened.failures) ∧
    ∃ render chain, opened.render? ⟨0⟩ = some render ∧
      opened.eventAttribute? ⟨0⟩ ⟨6⟩ 0 = some (⟨⟨0⟩, ⟨1⟩, 1⟩, "save", true) ∧
      (staffOf counting ⟨0⟩ true ⟨0⟩ ⟨0⟩
        [⟨asked, none⟩, ⟨shelved, none⟩, ⟨filed, some ⟨0⟩⟩]).Chain ⟨0⟩
        (BoundForest.views render.tree.nodes ⟨6⟩) chain ∧
      opened.Obeys counting chain "save" (Event.fired "click" ⟨2, 0⟩).prevent ⟨0⟩
        (opened.hear counting (.action ⟨0⟩ ⟨6⟩ 0) (.fired "click" ⟨2, 0⟩)) := by
  obtain ⟨silent, there, found⟩ : opened.failures.length = 0 ∧ (opened.render? ⟨0⟩).isSome = true ∧
      opened.eventAttribute? ⟨0⟩ ⟨6⟩ 0 = some (⟨⟨0⟩, ⟨1⟩, 1⟩, "save", true) := by
    rw [opened, asked, shelved, mount, missingView?_slip rfl]
    decide +kernel
  have quiet : ∀ error, (⟨0⟩, error) ∉ opened.failures := by
    rw [List.length_eq_zero_iff.1 silent]
    exact fun _ => List.not_mem_nil
  obtain ⟨render, known⟩ := Option.isSome_iff_exists.1 there
  obtain ⟨_, _, handled⟩ := conduct_filed.actions_handled counting_hires (Nat.lt_succ_self 0)
    (Nat.lt_succ_self 0) (Nat.lt_succ_self 0) mount_shelved story_opened ⟨6⟩ 0 (.fired "click" ⟨2, 0⟩)
  obtain ⟨chain, leads, _, obeys⟩ := handled quiet render _ _ _ known found
  exact ⟨conduct_filed, counting_hires, mount_shelved, story_opened, quiet, render, chain, known, found,
    leads, obeys⟩

/-- The slip in a folder that cannot be closed. -/
def binder : Template :=
  ⟨"p", [], [.view "slip"], 1⟩

/-- The binder is shown. -/
def displayed : World Nat :=
  (filed.mount counting ⟨0⟩ ⟨0⟩ {} binder ⟨0⟩ ⟨0⟩).2

/-- The slip's own controller is made the root controller of another render. -/
def lent : World Nat :=
  (displayed.mount counting ⟨0⟩ ⟨0⟩ {} ⟨"p", [], [], 1⟩ ⟨0⟩ ⟨1⟩).2

theorem views_lent : (lent.render? ⟨0⟩).map (fun render => BoundForest.views render.tree.nodes ⟨3⟩) =
    some [(⟨2⟩, ⟨.view "slip", none, [], ⟨⟨0⟩, ⟨1⟩, 1⟩⟩)] := by
  rw [lent, mount, Registry.missingView?_of_nil rfl, displayed, mount, missingView?_slip rfl]
  rfl

/-- A controller keeps only the links of its latest showing: it no longer hands the action on to the
controller around its view, although that one knows the action. -/
theorem lending_ends_chain : Conduct { client := 0 } filed ∧ counting.Hires ∧
    filed.mount counting ⟨0⟩ ⟨0⟩ {} binder ⟨0⟩ ⟨0⟩ = (.ok ⟨0⟩, displayed) ∧
    Conduct displayed lent ∧ lent.failures.length = 0 ∧
    lent.eventAttribute? ⟨0⟩ ⟨3⟩ 0 = some (⟨⟨0⟩, ⟨1⟩, 1⟩, "save", true) ∧
    ∃ render, lent.render? ⟨0⟩ = some render ∧
      { staffOf counting ⟨0⟩ true ⟨0⟩ ⟨0⟩ [⟨displayed, some ⟨1⟩⟩, ⟨filed, some ⟨0⟩⟩] with
          lent := fun _ _ => False }.Chain ⟨0⟩
        (BoundForest.views render.tree.nodes ⟨3⟩) [⟨1⟩, ⟨0⟩] ∧
      (lent.controllers.get ⟨0⟩).action? "save" = some ⟨0⟩ ∧
      ¬ lent.Obeys counting [⟨1⟩, ⟨0⟩] "save" (Event.fired "click" ⟨1, 0⟩).prevent ⟨0⟩
        (lent.hear counting (.action ⟨0⟩ ⟨3⟩ 0) (.fired "click" ⟨1, 0⟩)) := by
  have mounted : filed.mount counting ⟨0⟩ ⟨0⟩ {} binder ⟨0⟩ ⟨0⟩ = (.ok ⟨0⟩, displayed) := by
    refine Prod.ext ?_ rfl
    rw [mount, missingView?_slip rfl]
    decide +kernel
  obtain ⟨numbered, inside, there⟩ : 2 < displayed.numbered ⟨0⟩ ∧
      0 < displayed.data.models.next ∧ 0 < displayed.documents.next := by
    rw [displayed, mount, missingView?_slip rfl]
    decide +kernel
  obtain ⟨silent, found, root, slips, idle⟩ : lent.failures.length = 0 ∧
      lent.eventAttribute? ⟨0⟩ ⟨3⟩ 0 = some (⟨⟨0⟩, ⟨1⟩, 1⟩, "save", true) ∧
      (lent.controllers.get ⟨0⟩).action? "save" = some ⟨0⟩ ∧
      (lent.controllers.get ⟨1⟩).action? "save" = none ∧
      (lent.hear counting (.action ⟨0⟩ ⟨3⟩ 0) (.fired "click" ⟨1, 0⟩)).2.client = 0 := by
    rw [lent, mount, Registry.missingView?_of_nil rfl, displayed, mount, missingView?_slip rfl]
    decide +kernel
  obtain ⟨render, known, views⟩ := Option.map_eq_some_iff.1 views_lent
  refine ⟨conduct_filed, counting_hires, mounted, .next (.mount there inside) (.done _), silent, found,
    render, known, ?_, root, ?_⟩
  · rw [views]
    refine .own rfl ⟨filed, (whenShown?_of_lt numbered).trans (whenShown?_of_le (Nat.zero_le _)), ?_⟩
      id .root
    exact ⟨fun _ => false, ⟨0⟩, rfl, filed.controllers, 0, rfl⟩
  · unfold Obeys
    rw [List.findSome?_cons, slips, List.findSome?_cons, root]
    rintro ⟨busy, result⟩
    rw [result] at idle
    cases idle

end LiveTemplate.World
