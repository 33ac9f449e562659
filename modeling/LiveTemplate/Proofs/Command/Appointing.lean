import LiveTemplate.Proofs.Command.Upholding

/-!
# Root controllers

A render is given its root controller when it is mounted.  That one is told that there is nobody above it.
If it is the instance of a view in another render, it hands nothing on from then on; beyond that the other
renders keep their ranks.
-/

namespace LiveTemplate

variable {Client : Type}

section Led

variable {roster : Roster} {controllers : Controllers} {chief : ControllerId} {nodes : Bindings}

/-- What is at the top has the root controller. -/
theorem BoundForest.Led.top_controller (led : BoundForest.Led (roster.Posted controllers) chief nodes) :
    ∀ entry ∈ nodes.crown, entry.2.scope.controller = chief := by
  obtain ⟨tops, ranked⟩ := led
  induction nodes with
  | nil => exact fun _ member => nomatch member
  | cons id node below rest _ beside =>
      intro entry member
      rcases List.mem_cons.1 member with rfl | member
      · exact ranked.1.same_of_kind (tops _ List.mem_cons_self)
      · exact beside (fun entry member => tops entry (List.mem_cons_of_mem _ member)) ranked.2.2 entry
          member

/-- A controller is made a root controller. -/
theorem BoundForest.Led.lend {controller : ControllerId} {links : ControllerLinks}
    (led : BoundForest.Led (roster.Posted controllers) chief nodes) (nobody : links.parent = none)
    {lent : BoundId → ControllerId → Prop}
    (lends : ∀ name ∈ nodes.names, ∀ other,
      lent name other ↔ roster.lent name other ∨ other = controller) :
    BoundForest.Led ({ roster with lent }.Posted (controllers.attach controller links)) chief nodes where
  tops := led.tops
  ranked := led.ranked.imp fun name _ _ member _ posted =>
    posted.lend nobody (lends name (List.mem_map_of_mem member) _)

end Led

/-- A controller that is told that nobody is above it has nobody to hand on to. -/
theorem Controller.parent?_attach_top (controller : Controller) {links : ControllerLinks}
    (top : links.parent = none) : (controller.attach links).parent? = none := by
  cases controller with
  | inert => rfl
  | actions table former => exact top

theorem Controllers.get?_attach_top {controllers : Controllers} {id other : ControllerId}
    {links : ControllerLinks} {controller : Controller} (top : links.parent = none)
    (stored : controllers.get? other.index = some controller)
    (parent : id = other ∨ controller.parent? = none) :
    ∃ told, (controllers.attach id links).get? other.index = some told ∧ told.parent? = none := by
  rw [attach, Store.get?_modify, stored]
  split
  · exact ⟨_, rfl, controller.parent?_attach_top top⟩
  · rename_i differs
    refine ⟨controller, rfl, parent.resolve_left ?_⟩
    rintro rfl
    exact differs rfl

namespace World

variable {world after : World Client} {staff : Staff} {behaviour : Behaviour Client} {start : Nat}
  {place : DocumentId} {registry : RegistryId} {config : RenderConfig} {template : Template}
  {model : ModelId} {controller : ControllerId}

/-- A controller is made a root controller. -/
theorem Staffed.lend (staffed : world.Staffed staff) {links : ControllerLinks}
    (nobody : links.parent = none) {lent : BoundId → ControllerId → Prop}
    (lends : ∀ render, world.render? staff.render = some render → ∀ name ∈ render.tree.nodes.names,
      ∀ other, lent name other ↔ staff.lent name other ∨ other = controller) :
    Staffed { world with controllers := world.controllers.attach controller links }
      { staff with lent } where
  chief := by
    obtain ⟨found, stored, parent⟩ := staffed.chief
    exact Controllers.get?_attach_top nobody stored (.inr parent)
  place := staffed.place
  ranked := fun quiet render known =>
    (staffed.ranked quiet render known).lend nobody (lends render known)

/-- What was raised, and the controllers afterwards. -/
theorem raise_runs (behaviour : Behaviour Client) (world : World Client) (render : Render)
    (template : Template) (scope : Scope) :
    let begun := { world with renders := world.renders.add render }
    let site := begun.site behaviour world.nextRender render
    ∃ state, Build.Runs (site.node site.viewIn template.root scope) (begun.buildState render)
        (world.raise behaviour render template scope).1 state ∧
      (world.raise behaviour render template scope).2.controllers = state.controllers :=
  ⟨_, rfl, rfl⟩

/-- Mounting leaves other renders as they are.  If it succeeds, the root controller is told at last that
nobody is above it. -/
theorem mount_shown (hires : behaviour.Hires) (sound : world.Sound) (registry : RegistryId)
    (config : RenderConfig) (template : Template) (controller : ControllerId)
    (there : place.index < world.documents.next) (inside : model.index < world.data.models.next) :
    ∃ shown, (∀ other, other ≠ world.nextRender → shown.render? other = world.render? other) ∧
      world.failures <+: shown.failures ∧ world.controllers.Extends shown.controllers ∧
      ((∃ error, world.mount behaviour place registry config template model controller =
          (.error error, shown)) ∨
        ∃ id links, links.parent = none ∧
          world.mount behaviour place registry config template model controller =
            (.ok id, { shown with controllers := shown.controllers.attach controller links })) := by
  have concerns := mount_concerns behaviour sound registry config template controller there inside
  obtain ⟨state, runs, controllers⟩ := raise_runs behaviour world
    (world.newRender place registry config { model, controller }) template { model, controller }
  have extended := ((hires _).permits.element (fun scope => (hires _).permits.view _ scope) _ _ _ _ _
    runs).controllers
  unfold mount at concerns ⊢
  cases missing : (world.registry registry).missingView? template with
  | some name => exact ⟨world, fun _ _ => rfl, List.prefix_refl _, .refl _, .inl ⟨_, rfl⟩⟩
  | none =>
      simp only [missing] at concerns ⊢
      generalize world.raise behaviour _ template _ = result at controllers concerns ⊢
      obtain ⟨growth, raised⟩ := result
      dsimp only at controllers concerns ⊢
      cases failed : growth.failure with
      | some error =>
          simp only [failed] at concerns ⊢
          refine ⟨_, concerns.there, concerns.failures, ?_, .inl ⟨error, rfl⟩⟩
          show world.controllers.Extends (raised.teardown _ _).controllers
          rw [(teardown_others raised _ _).2.2, controllers]
          exact extended
      | none =>
          simp only [failed] at concerns ⊢
          refine ⟨raised.present (world.newRender place registry config { model, controller }) growth,
            concerns.there, concerns.failures, ?_, .inr ⟨_, _, rfl, rfl⟩⟩
          show world.controllers.Extends raised.controllers
          rw [controllers]
          exact extended

/-- A render that has been mounted stands in ranks under its root controller. -/
theorem mount_staffed (hires : behaviour.Hires) (sound : world.Sound)
    (there : place.index < world.documents.next) (inside : model.index < world.data.models.next)
    (known : controller.index < world.controllers.next) {id : RenderId}
    (mount : world.mount behaviour place registry config template model controller = (.ok id, after))
    (render : staff.render = id) (same : staff.registry = registry)
    (inherits : staff.inherits = config.inheritsController) (chief : staff.chief = controller)
    (takes : staff.Takes behaviour world 0) : after.Staffed staff := by
  subst render same chief
  set scope : Scope := { model, controller := staff.chief } with whole
  obtain ⟨document, after', run⟩ := exists_raised behaviour sound staff.registry config template there
    (show scope.model.index < _ from inside)
  obtain ⟨state, runs, controllers⟩ := raise_runs behaviour world
    (world.newRender place staff.registry config scope) template scope
  have covers := Staff.Takes.covers (takes.later (show
      ({ world with renders := world.renders.add (world.newRender place staff.registry config scope) } :
        World Client).registries = world.registries from rfl)) world.nextRender
    (show (world.newRender place staff.registry config scope).registry = _ from rfl) inherits.symm
  have ranks := Site.node_ranks (hires _).permits (Site.viewIn_ranks (hires _) covers)
    (Site.viewIn_passes (hires _)) template.root scope _ _ _ runs (Nat.zero_le _) known
  have extended := ((hires _).permits.element (Site.viewIn_passes (hires _)) _ _ _ _ _
    runs).controllers
  unfold World.mount at mount
  split at mount
  · cases mount
  dsimp only at mount
  rw [← whole] at mount
  generalize world.raise behaviour _ template scope = result at mount run controllers ranks runs
  obtain ⟨growth, raised⟩ := result
  dsimp only at mount run controllers ranks
  split at mount
  · cases mount
  rename_i succeeded
  obtain ⟨named, rfl⟩ := Prod.mk.inj mount
  have named : staff.render = world.nextRender := (Except.ok.inj named).symm
  have here := run.known
  rw [← named] at here
  have only : ∀ render, raised.render? staff.render = some render →
      render = mounted (world.newRender place staff.registry config scope) growth scope after'.nextBound :=
    fun render also => Option.some.inj (also.symm.trans here)
  refine ⟨?_, fun render also => ?_, fun _ render also => ?_⟩
  · obtain ⟨found, stored⟩ := Option.isSome_iff_exists.1 (Store.get?_isSome_iff.2 known)
    have kept : raised.controllers.get? staff.chief.index = some found := by
      rw [controllers]
      exact extended.of_get? stored
    exact Controllers.get?_attach_top rfl kept (.inl rfl)
  · rw [only render also]
    exact ⟨rfl, inherits.symm⟩
  -- The root controller is told last.  The instances inside are younger, so that none of them is told anew.
  · rw [only render also]
    refine ⟨fun entry member => ?_, .plain (by rintro ⟨⟩) rfl, ?_, trivial⟩
    · rw [List.mem_singleton.1 member]
      rintro ⟨⟩
    · have below := ranks succeeded
      rw [← controllers] at below
      exact below.mono fun index found later stored =>
        (Controllers.get?_attach_of_ne _ later.ne').trans stored

end World

end LiveTemplate
