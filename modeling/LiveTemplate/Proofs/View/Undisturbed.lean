import LiveTemplate.Proofs.Upkeep.Mounted
import LiveTemplate.Proofs.View.Rest
import LiveTemplate.Proofs.View.Retention

/-!
# A set disturbs nothing that it need not

A property is set, and no directive that is told of it has to show anything else: it is a condition, and
the new value decides it as before.  Then no document node comes, goes or moves, and only what watches
paths comes and goes among the bound nodes.  What changes are texts, attributes and style properties of
bindings that are told.
-/

namespace LiveTemplate.World

variable {Client : Type} {world after : World Client} {id : RenderId} {render : Render}
  {behaviour : Behaviour Client} {value : Value} {calm : RenderId → Prop}
  {touched : RenderId → NodeId → Display → Prop}

/-! ## Whoever is registered is told -/

mutual

theorem Run.persists {pending : Notices} {world after : World Client} :
    Run Rule.hush pending world after → world.Sound → world.data.Persists after.data
  | .done _ world, _ => .refl world.data
  | .next step rest, sound =>
    (step.persists sound).trans (rest.persists (step.proceeds sound).sound)

theorem Step.persists {pending : Notices} {world after : World Client} :
    Step Rule.hush pending world after → world.Sound → world.data.Persists after.data
  | .set _ _ _ _ ruled, _ => ruled.elim
  | .mutate _ _ _ _ ruled, _ => ruled.elim
  | .subscribe channel hook inside, _ =>
    .of_agrees (Data.subscribe_registers channel (.client hook) inside).agrees
  | .subscribeChanges hook inside, _ =>
    .of_agrees (Data.subscribeChanges_registers (.client hook) inside).agrees
  | .cancel _, _ => .of_agrees (Data.cancel_cancels _ _).agrees
  | .addModel refers, sound => by
      have moves := Data.addModel_moves sound.data refers
      exact ⟨moves.models, moves.collections, (Data.addModel_alters _ _).2⟩
  | .addCollection refers, sound => by
      have moves := Data.addCollection_moves sound.data refers
      exact ⟨moves.models, moves.collections, (Data.addCollection_alters _ _).2⟩
  | .other data _ _ _ _, _ => data ▸ .refl _

end

/-- Nobody of the calm renders who is to be told need disturb anything. -/
def Mild (calm : RenderId → Prop) (touched : RenderId → NodeId → Display → Prop)
    (world : World Client) (entries : Notices) : Prop :=
  ∀ subscription observer, (subscription, .value (.path observer)) ∈ entries → calm observer.render →
    world.Calm observer ∧
      ∀ dom display, world.Touches observer dom display → touched observer.render dom display

theorem Rests.mild {entries later : Notices} (rests : Rests calm touched world after)
    (sound : world.Sound) (tidy : after.Sound) (persists : world.data.Persists after.data)
    (fewer : later ⊆ entries) (mild : Mild calm touched world entries) :
    Mild calm touched after later := by
  intro subscription observer listed quiet
  obtain ⟨still, may⟩ := mild subscription observer (fewer listed) quiet
  exact ⟨rests.calms sound tidy persists quiet still,
    fun dom display touch => may dom display (rests.touches sound tidy quiet touch)⟩

theorem Telling.rests {model : ModelId} {property : String} {pending entries : Notices}
    (telling : Telling Rule.hush behaviour (.value model property value) pending entries world)
    (sound : world.Sound) (kempt : world.Kempt) (refers : world.data.Refers value)
    (mild : Mild calm touched world entries) :
    Rests calm touched world (announce behaviour (.value model property value) entries world) := by
  induction entries generalizing world with
  | nil => exact .refl ..
  | cons entry later induction =>
      obtain ⟨subscription, observer⟩ := entry
      have fewer := List.subset_cons_self (subscription, observer) later
      cases telling with
      | passed gone rest =>
          rw [announce, if_neg (by simp [gone])]
          exact induction rest sound kempt refers fun _ _ listed => mild _ _ (fewer listed)
      | client there free acts rest =>
          rw [announce, if_pos there]
          have first := acts.proceeds sound
          have persists := acts.persists sound
          obtain ⟨renders, documents⟩ := acts.unmoved
          have still : Rests calm touched world
              (world.receive behaviour (.value model property value) observer) :=
            .of_nodes renders fun place => congrArg Document.nodes (documents place)
          apply still.trans
          apply induction rest first.sound
          · intro id render known
            exact kempt id render ((renders id).symm.trans known)
          · exact refers.mono first.models first.collections
          · exact still.mild sound first.sound persists fewer mild
      | render there own rest =>
          rw [announce, if_pos there]
          match observer with
          | .value (.client _) => exact (own rfl).elim
          | .change _ =>
              exact induction rest sound kempt refers fun _ _ listed => mild _ _ (fewer listed)
          | .value (.path observer) =>
              have kept := react_kept behaviour sound observer refers
              have first : Rests calm touched world (world.react behaviour observer value) := by
                apply react_rests behaviour sound kempt refers
                · exact fun quiet => (mild subscription observer List.mem_cons_self quiet).1
                · exact fun dom display quiet =>
                    (mild subscription observer List.mem_cons_self quiet).2 dom display
              apply first.trans
              exact induction rest kept.sound (react_kempt behaviour sound observer refers kempt)
                (kept.agrees.refers.2 refers)
                (first.mild sound kept.sound (.of_agrees kept.agrees) fewer mild)

/-! ## A property is set -/

/-- Every directive of a render that is registered on a channel is a condition, and it decides as it
last did. -/
def Quiet (world : World Client) (source : Source) (id : RenderId) : Prop :=
  ∀ subscription observer, world.data.Holds subscription (.value (.path observer)) →
    subscription.source = source → observer.render = id → world.Calm observer

/-- Where the bindings of a render that are registered on a channel, for a segment of their path, show
their values. -/
def Depends (world : World Client) (source : Source) (id : RenderId) (dom : NodeId)
    (display : Display) : Prop :=
  ∃ subscription observer, world.data.Holds subscription (.value (.path observer)) ∧
    subscription.source = source ∧ observer.render = id ∧ world.Touches observer dom display

/-- A set disturbs nothing that it need not.  In a render whose directives need not show anything else,
no document node comes, goes or moves, the bound nodes stay apart from those that watch paths, and of
the document nodes only what bindings to the property show is different.  If all renders of a document
are such, the same is true of the document as a whole. -/
theorem Conduct.set_undisturbing {client : Client} (conduct : Conduct { client } world)
    {model : ModelId} {property : String} {data : Data} {source : Source}
    (refers : world.data.Refers value) (stored : world.data.put model property value = .ok data)
    (called : source = .model model (changeChannel property))
    (telling : Telling Rule.hush behaviour (.value model property value) []
      (data.registrationsOn source) { world with data })
    (result : world.set behaviour model property value = .ok after)
    (known : world.render? id = some render)
    (quiet : ({ world with data } : World Client).Quiet source id) :
    ∃ changed, after.render? id = some changed ∧ render.Stays changed ∧
      ((after.document render.document).nodes.subtree render.node).shape =
        ((world.document render.document).nodes.subtree render.node).shape ∧
      (∀ dom ∈ render.created, Option.Rel (NodeData.Varies (world.Depends source id dom))
        ((world.document render.document).data? dom) ((after.document render.document).data? dom)) ∧
      ((∀ other another, world.render? other = some another → another.document = render.document →
          ({ world with data } : World Client).Quiet source other) →
        (world.document render.document).Varies (fun dom display => ∃ other another,
          world.render? other = some another ∧ another.document = render.document ∧
            world.Depends source other dom display) (after.document render.document)) := by
  subst called
  have sound := conduct.sound
  have moves := Data.put_moves sound.data refers stored
  have moved : ({ world with data } : World Client).Sound := (sound.moved moves).sound
  rw [set_eq, stored] at result
  obtain rfl := Except.ok.inj result
  have further := refers.mono moves.models moves.collections
  have mild : Mild (({ world with data } : World Client).Quiet (.model model (changeChannel property)))
      (world.Depends (.model model (changeChannel property))) { world with data }
      (data.registrationsOn (.model model (changeChannel property))) := by
    intro subscription observer listed quiet
    obtain ⟨same, holds⟩ := Data.mem_registrationsOn.1 listed
    have before := (moves.owned _ _ (by simp [Observer.owner?])).1 holds
    refine ⟨quiet subscription observer holds same rfl, fun dom display touch => ?_⟩
    exact ⟨subscription, observer, before, same, rfl, touch⟩
  have rests := telling.rests moved conduct.kempt further mild
  have tidy := (telling.proceeds moved further).sound
  obtain ⟨changed, here, stays⟩ := rests.renders id render quiet known
  refine ⟨changed, here, stays, ?_, rests.data id render quiet known, fun all =>
    rests.documents render.document all⟩
  obtain ⟨document, found, own⟩ := sound.renders id render known
  obtain ⟨later, also, next⟩ := tidy.renders id changed here
  have shape := next.mirrors.shape
  rw [stays.same.node, ← BoundForest.skeleton_solid next.regular, stays.bound,
    BoundForest.skeleton_solid own.regular, ← own.mirrors.shape] at shape
  rw [stays.same.document] at also
  rw [document_eq found, document_eq also]
  exact shape

/-- Another name is stored, and nobody has been told yet. -/
def unannounced : World Unit :=
  { greeted with data := greeted.data.modifyModel ⟨0⟩ (·.put "name" (.text "Grace")) }

/-- The condition and the text are told, and the condition is as true as it was. -/
theorem quiet_unannounced (id : RenderId) :
    unannounced.Quiet (.model ⟨0⟩ (changeChannel "name")) id := by
  have registered : unannounced.data.registrationsOn (.model ⟨0⟩ (changeChannel "name")) =
      [(⟨.model ⟨0⟩ (changeChannel "name"), 0⟩, .value (.path ⟨⟨0⟩, ⟨2⟩, ⟨2⟩, 0, []⟩)),
        (⟨.model ⟨0⟩ (changeChannel "name"), 1⟩, .value (.path ⟨⟨0⟩, ⟨4⟩, ⟨4⟩, 0, []⟩))] := by
    rw [unannounced, greeted, mount, Registry.missingView?_of_nil rfl]
    decide +kernel
  have condition : (unannounced.bound? ⟨0⟩ ⟨2⟩).bind (fun node => node.part.switch?.map fun found =>
      (found.2, Site.decision unannounced.data.contents found.1.rule
        (unannounced.data.resolveRaw node.scope.model found.1.path))) = some (some true, some true) := by
    rw [unannounced, greeted, mount, Registry.missingView?_of_nil rfl]
    decide +kernel
  have text : (unannounced.bound? ⟨0⟩ ⟨4⟩).map (·.part.kind) = some .text := by
    rw [unannounced, greeted, mount, Registry.missingView?_of_nil rfl]
    decide +kernel
  intro subscription observer holds source _ node directive shown found part
  have listed := Data.mem_registrationsOn.2 ⟨source, holds⟩
  rw [registered] at listed
  simp only [List.mem_cons, List.not_mem_nil, or_false, Prod.mk.injEq] at listed
  obtain ⟨_, same⟩ | ⟨_, same⟩ := listed <;> cases same
  · rw [found, Option.bind_some, part, Option.map_some, Option.some_inj, Prod.mk.injEq] at condition
    exact ⟨true, condition⟩
  · rw [found, Option.map_some, Part.eq_switch_of_switch? part] at text
    cases text

theorem set_undisturbing_greeting : ∃ render changed,
    greeted.render? ⟨0⟩ = some render ∧
      (greeted.setOr (still Unit) ⟨0⟩ "name" (.text "Grace")).render? ⟨0⟩ = some changed ∧
      render.Stays changed ∧
      (greeted.document render.document).Varies (fun dom display => ∃ other another,
        greeted.render? other = some another ∧ another.document = render.document ∧
          greeted.Depends (.model ⟨0⟩ (changeChannel "name")) other dom display)
        ((greeted.setOr (still Unit) ⟨0⟩ "name" (.text "Grace")).document render.document) := by
  obtain ⟨render, known, _⟩ := render?_greeted
  have declared : (greeted.data.model ⟨0⟩).declares "name" = true := by
    rw [greeted, mount, Registry.missingView?_of_nil rfl]
    decide +kernel
  have stored : greeted.data.put ⟨0⟩ "name" (.text "Grace") = .ok unannounced.data := if_pos declared
  have result := set_eq (still Unit) greeted ⟨0⟩ "name" (.text "Grace")
  rw [stored] at result
  have set : greeted.set (still Unit) ⟨0⟩ "name" (.text "Grace") =
      .ok (greeted.setOr (still Unit) ⟨0⟩ "name" (.text "Grace")) := by
    rw [setOr, result]
    rfl
  obtain ⟨changed, here, stays, _, _, whole⟩ := conduct_greeted.set_undisturbing (.text _) stored rfl
    ((still_abides _).telling ..) set known (quiet_unannounced ⟨0⟩)
  exact ⟨render, changed, known, here, stays, whole fun other _ _ _ => quiet_unannounced other⟩

end LiveTemplate.World
