import LiveTemplate.Proofs.Build.Kempt
import LiveTemplate.Proofs.View.Company

/-!
# Invariants of renders

What holds of all renders and is kept up by reactions, by mounting and by taking renders down holds
in every world that can be reached.  In this way all bound nodes turn out to be well kept.
-/

namespace LiveTemplate

namespace World

variable {Client : Type}

/-- A property of the renders of a world that no call destroys by what it does itself. -/
structure Invariant (holds : World Client → Prop) : Prop where
  of_renders : ∀ {world after : World Client}, holds world → after.renders = world.renders →
    holds after
  react : ∀ (behaviour : Behaviour Client) {world : World Client} (observer : PathObserver)
    {value : Value}, world.Sound → world.data.Refers value → holds world →
      holds (world.react behaviour observer value)
  tellChange : ∀ (behaviour : Behaviour Client) {world : World Client} {change : Change}
    {observer : ChangeObserver}, world.Sound → world.data.RefersIn change →
      (Observer.change observer).owner? ≠ none → holds world →
        holds (world.tellChange behaviour change observer)
  mount : ∀ (behaviour : Behaviour Client) {world : World Client} {place : DocumentId}
    (registry : RegistryId) (config : RenderConfig) (template : Template) {model : ModelId}
    (controller : ControllerId), world.Sound → place.index < world.documents.next →
      model.index < world.data.models.next → holds world →
        holds (world.mount behaviour place registry config template model controller).2
  unmount : ∀ {world : World Client} (id : RenderId), world.Sound → holds world →
    holds (world.unmount id)

section Conduct

variable {holds : World Client → Prop}

theorem Invariant.engaging (invariant : Invariant holds) {Result : Type} {world after : World Client}
    {controllers : List ControllerId} {act : World Client → Result × World Client} {result : Result}
    (acted : holds (act { world with engaged := controllers ++ world.engaged }).2)
    (run : world.engaging controllers act = (result, after)) : holds after := by
  obtain rfl : _ = after := congrArg Prod.snd run
  exact invariant.of_renders acted rfl

mutual

theorem Conduct.preserves (invariant : Invariant holds) {world after : World Client} :
    Conduct world after → world.Sound → holds world → holds after
  | .done _, _, held => held
  | .next call rest, sound, held =>
    rest.preserves invariant (call.sequel sound).sound (call.preserves invariant sound held)

theorem Call.preserves (invariant : Invariant holds) {world after : World Client} :
    Call world after → world.Sound → holds world → holds after
  | .set refers stored told set, sound, held => by
      have moved := sound.moved (Data.put_moves sound.data refers stored)
      have notified := told.preserves invariant moved.sound
        (refers.mono moved.models moved.collections) (invariant.of_renders held rfl)
      unfold World.set at set
      rw [stored] at set
      obtain rfl := Except.ok.inj set
      exact notified
  | .mutate made refers stored told, sound, held => by
      have moved := sound.applied refers stored
      have notified := told.preserves invariant moved.sound
        (refers.mono moved.models moved.collections) (invariant.of_renders held rfl)
      unfold World.mutate
      rw [made]
      subst stored
      exact notified
  | .mount there inside, sound, held => invariant.mount _ _ _ _ _ sound there inside held
  | .unmount id, sound, held => invariant.unmount id sound held
  | .dispatch travels, sound, held => travels.preserves invariant sound held
  | .handle handles, sound, held => handles.preserves invariant sound held
  | .subscribe .., _, held | .subscribeChanges .., _, held | .cancel _, _, held
  | .addModel _, _, held | .addCollection _, _, held | .addDocument _, _, held
  | .edit .., _, held => invariant.of_renders held rfl
  | .other _ _ renders, _, held => invariant.of_renders held renders

theorem Told.preserves (invariant : Invariant holds) {world : World Client}
    {behaviour : Behaviour Client} {model : ModelId} {property : String} {value : Value}
    {entries : List (SubscriptionId × ValueObserver)} :
    Told behaviour model property value entries world → world.Sound → world.data.Refers value →
      holds world → holds (deliver
        (fun world => (world.data.model model).channel (changeChannel property))
        (tell behaviour value) entries world)
  | .done _, _, _, held => held
  | .passed gone rest, sound, refers, held => by
      rw [deliver, if_neg (by simp [gone])]
      exact rest.preserves invariant sound refers held
  | .client there acts rest, sound, refers, held => by
      rw [deliver, if_pos there]
      have first := acts.sequel sound
      exact rest.preserves invariant first.sound (refers.mono first.models first.collections)
        (acts.preserves invariant sound held)
  | .render observer there rest, sound, refers, held => by
      rw [deliver, if_pos there]
      have first := (react_kept behaviour sound observer refers).sequel
      exact rest.preserves invariant first.sound (refers.mono first.models first.collections)
        (invariant.react _ observer sound refers held)

theorem ToldChange.preserves (invariant : Invariant holds) {world : World Client}
    {behaviour : Behaviour Client} {collection : CollectionId} {change : Change}
    {entries : List (SubscriptionId × ChangeObserver)} :
    ToldChange behaviour collection change entries world → world.Sound → world.data.RefersIn change →
      holds world → holds (deliver (fun world => (world.data.collection collection).channel)
        (tellChange behaviour change) entries world)
  | .done _, _, _, held => held
  | .passed gone rest, sound, refers, held => by
      rw [deliver, if_neg (by simp [gone])]
      exact rest.preserves invariant sound refers held
  | .client there acts rest, sound, refers, held => by
      rw [deliver, if_pos there]
      have first := acts.sequel sound
      exact rest.preserves invariant first.sound (refers.mono first.models first.collections)
        (acts.preserves invariant sound held)
  | .render there own rest, sound, refers, held => by
      rw [deliver, if_pos there]
      have first := (tellChange_kept behaviour sound refers own).sequel
      exact rest.preserves invariant first.sound (refers.mono first.models first.collections)
        (invariant.tellChange _ sound refers own held)

theorem Travels.preserves (invariant : Invariant holds) {world : World Client}
    {behaviour : Behaviour Client} {document : DocumentId} {path : List NodeId} {event : Event} :
    Travels behaviour document path event world → world.Sound → holds world →
      holds (travel behaviour document path event world).2
  | .done _ _, _, held => held
  | .gone absent rest, sound, held => by
      unfold travel
      rw [absent]
      exact rest.preserves invariant sound held
  | .there found hears result rest, sound, held => by
      have first := hears.preserves invariant sound held
      have sequel := hears.sequel sound
      rw [result] at first sequel
      unfold travel
      rw [found]
      dsimp only
      rw [result]
      dsimp only
      split
      · exact first
      · rename_i goes
        exact (rest (by simpa using goes)).preserves invariant sequel.sound first

theorem HearsAll.preserves (invariant : Invariant holds) {world : World Client}
    {behaviour : Behaviour Client} {listeners : List (Listener × Option ControllerId)}
    {event : Event} :
    HearsAll behaviour listeners event world → world.Sound → holds world →
      holds (hearAll behaviour listeners event world).2
  | .done _ _, _, held => held
  | .next hears result rest, sound, held => by
      have engaged := hears.preserves invariant (sound.of_eq rfl rfl rfl)
        (invariant.of_renders held rfl)
      have first := invariant.engaging engaged result
      have sequel := engaging_sequel (hears.sequel (sound.of_eq rfl rfl rfl)) result
      unfold hearAll
      rw [result]
      exact rest.preserves invariant sequel.sound first

theorem Hears.preserves (invariant : Invariant holds) {world : World Client}
    {behaviour : Behaviour Client} {listener : Listener} {event : Event} :
    Hears behaviour listener event world → world.Sound → holds world →
      holds (world.hear behaviour listener event).2
  | .client acts, sound, held => acts.preserves invariant sound held
  | .gone absent, _, held => by
      unfold hear
      dsimp only
      rw [absent]
      exact held
  | .action found handles, sound, held => by
      unfold hear
      dsimp only
      rw [found]
      exact handles.preserves invariant sound held

theorem Handles.preserves (invariant : Invariant holds) {world : World Client}
    {behaviour : Behaviour Client} {id : ControllerId} {action : String} {event : Event}
    {model : ModelId} :
    Handles behaviour id action event model world → world.Sound → holds world →
      holds (world.handle behaviour id action event model).2
  | .unknown nobody, _, held => by
      unfold handle
      rw [nobody]
      exact held
  | .known found acts, sound, held => by
      unfold handle
      rw [found]
      have acted := acts.preserves invariant (sound.of_eq rfl rfl rfl)
        (invariant.of_renders held rfl)
      exact invariant.engaging acted rfl

end

end Conduct

/-! ## Well kept bound nodes -/

open BoundForest (AllKempt AllWatch)

/-- The bound nodes of all renders are well kept. -/
def Kempt (world : World Client) : Prop :=
  ∀ id render, world.render? id = some render → AllKempt render.tree.nodes

section Kempt

variable {world after : World Client} {id : RenderId} {render changed : Render}

theorem Kempt.of_progress (kempt : world.Kempt) (progress : world.Progress after id render changed)
    (here : AllKempt changed.tree.nodes) : after.Kempt := by
  intro other another known
  by_cases same : other = id
  · subst same
    obtain rfl := Option.some.inj (progress.here.symm.trans known)
    exact here
  · rw [progress.there other same] at known
    exact kempt other another known

theorem relink_kempt (behaviour : Behaviour Client) (sound : world.Sound) (observer : PathObserver)
    {value : Value} (refers : world.data.Refers value) (kempt : world.Kempt) :
    (world.relink behaviour observer value).Kempt := by
  rcases relink_cases behaviour sound observer value with same | ⟨render, _, _, known, has⟩
  · rw [same]
    exact kempt
  · obtain ⟨watches, changed, progress, nodes, built⟩ :=
      relink_stages behaviour sound known has refers
    obtain ⟨site, before, later, _, runs, _⟩ := built.runs
    have watching := Site.watch_watches runs
    apply kempt.of_progress progress
    rw [nodes]
    have whole := kempt _ render known
    apply AllKempt.edit whole
    intro node under there
    have proper := Forest.Everywhere.at whole there
    refine ⟨rfl, ⟨proper.list, fun kind => ?_⟩, ?_⟩
    · exact (AllWatch.without (proper.watch kind) _).append watching
    · exact (AllKempt.without (Forest.Everywhere.below whole there) _).append watching.kempt

theorem rebuild_kempt (behaviour : Behaviour Client) (sound : world.Sound) (kempt : world.Kempt)
    (id : RenderId) (switch : BoundId) : (world.rebuild behaviour id switch).Kempt := by
  rcases rebuild_cases behaviour sound id switch with
    same | ⟨render, directive, _, _, _, _, _, known, has⟩
  · rw [same]
    exact kempt
  obtain ⟨_, _, own⟩ := sound.renders id render known
  obtain ⟨decision, _, unchanged | ⟨growth, changed, progress, nodes, built, _⟩⟩ :=
    rebuild_stages behaviour sound known has
  · rw [unchanged.1]
    exact kempt
  · obtain ⟨site, before, later, _, runs, _⟩ := built.runs
    have tidies := Site.content_tidies (fun scope => site.view_tidies _ scope)
      (site.body_tidies directive.body) _ _ _ runs
    apply kempt.of_progress progress
    rw [nodes]
    have whole := kempt id render known
    apply AllKempt.edit whole
    intro node under there
    obtain ⟨rfl, rfl⟩ := there.unique own.distinct has
    refine ⟨(decided_same _ _).1, ⟨nofun, nofun⟩, ?_⟩
    exact (AllKempt.keep (Forest.Everywhere.below whole there) _).append tidies

theorem splice_kempt (behaviour : Behaviour Client) (sound : world.Sound) (kempt : world.Kempt)
    (id : RenderId) (list : BoundId) {change : Change} (refers : world.data.RefersIn change) :
    (world.splice behaviour id list change).Kempt := by
  rcases splice_cases behaviour sound id list change with
    same | ⟨render, _, body, _, _, _, _, known, has⟩
  · rw [same]
    exact kempt
  · obtain ⟨_, _, own⟩ := sound.renders id render known
    obtain ⟨growth, changed, progress, nodes, built, _⟩ :=
      splice_stages behaviour sound known has refers
    obtain ⟨site, before, later, _, runs, _⟩ := built.runs
    have tidies := Site.items_tidies (site.body_tidies body) _ _ _ runs
    apply kempt.of_progress progress
    rw [nodes]
    have whole := kempt id render known
    apply AllKempt.edit whole
    intro node under found
    have proper := Forest.Everywhere.at whole found
    obtain ⟨rfl, rfl⟩ := found.unique own.distinct has
    refine ⟨rfl, ⟨proper.list, nofun⟩, ?_⟩
    exact AllKempt.insertAt (AllKempt.without (Forest.Everywhere.below whole found) _) tidies _

theorem refresh_kempt (behaviour : Behaviour Client) (sound : world.Sound) (kempt : world.Kempt)
    (id : RenderId) (root : BoundId) (slot : Nat) : (world.refresh behaviour id root slot).Kempt := by
  unfold refresh
  split
  · split
    · exact kempt
    · split
      · exact rebuild_kempt behaviour sound kempt id root
      · exact kempt
  · exact kempt

theorem react_kempt (behaviour : Behaviour Client) (sound : world.Sound) (observer : PathObserver)
    {value : Value} (refers : world.data.Refers value) (kempt : world.Kempt) :
    (world.react behaviour observer value).Kempt := by
  unfold react
  split
  · dsimp only
    split
    · exact refresh_kempt behaviour sound kempt _ _ _
    · have linked := relink_kept behaviour sound observer refers
      exact refresh_kempt behaviour linked.sound (relink_kempt behaviour sound observer refers kempt)
        _ _ _
  · exact kempt

theorem tellChange_kempt (behaviour : Behaviour Client) (sound : world.Sound) {change : Change}
    (refers : world.data.RefersIn change) {observer : ChangeObserver}
    (own : (Observer.change observer).owner? ≠ none) (kempt : world.Kempt) :
    (world.tellChange behaviour change observer).Kempt := by
  cases observer with
  | client hook => exact (own rfl).elim
  | rebuild id content directive =>
      unfold tellChange
      dsimp only
      split
      · exact rebuild_kempt behaviour sound kempt id directive
      · exact kempt
  | splice id list => exact splice_kempt behaviour sound kempt id list refers

theorem raise_tidies (behaviour : Behaviour Client) (world : World Client) (render : Render)
    (template : Template) (scope : Scope) :
    AllKempt (world.raise behaviour render template scope).1.bound := by
  obtain ⟨after, run⟩ := exists_grown behaviour { world with renders := world.renders.add render }
    world.nextRender render fun site => site.node site.viewIn template.root scope
  exact Site.node_tidies _ (fun scope => Site.view_tidies _ _ scope) _ _ _ _ _ run.runs

/-- A render that comes to those that are there. -/
theorem Kempt.add (kempt : world.Kempt) (renders : after.renders = world.renders.add render)
    (here : AllKempt render.tree.nodes) : after.Kempt := by
  intro other another known
  rw [render?, renders, Store.get?_add] at known
  split at known
  · obtain rfl := Option.some.inj known
    exact here
  · exact kempt other another known

theorem mount_kempt (behaviour : Behaviour Client) (sound : world.Sound) {place : DocumentId}
    (registry : RegistryId) (config : RenderConfig) (template : Template) {model : ModelId}
    (controller : ControllerId) (there : place.index < world.documents.next)
    (inside : model.index < world.data.models.next) (kempt : world.Kempt) :
    (world.mount behaviour place registry config template model controller).2.Kempt := by
  unfold mount
  split
  · exact kempt
  · have modelled : ({ model, controller } : Scope).model.index < world.data.models.next := inside
    obtain ⟨document, state, run⟩ :=
      exists_raised behaviour sound registry config template there modelled
    have tidies := raise_tidies behaviour world (world.newRender place registry config
      { model, controller }) template { model, controller }
    dsimp only
    generalize world.raise behaviour _ template _ = result at run tidies ⊢
    obtain ⟨growth, raised⟩ := result
    dsimp only at run tidies ⊢
    have shown : AllKempt (mounted (world.newRender place registry config { model, controller }) growth
        { model, controller } state.nextBound).tree.nodes := ⟨.of_other rfl, tidies, trivial⟩
    split
    · obtain ⟨_, _, _, adds⟩ := run.abandons sound
      exact kempt.add adds.renders (AllKempt.prune shown
        (world.newRender place registry config { model, controller }).root)
    · exact kempt.add run.renders shown

theorem unmount_kempt (sound : world.Sound) (id : RenderId) (kempt : world.Kempt) :
    (world.unmount id).Kempt := by
  unfold unmount
  split
  · rename_i render known
    exact kempt.of_progress (teardown_progress sound known render.root)
      (AllKempt.prune (kempt id render known) _)
  · exact kempt

theorem kempt_invariant : @Invariant Client Kempt where
  of_renders := by
    intro world after kempt renders id render known
    rw [render?, renders] at known
    exact kempt id render known
  react := fun behaviour _ observer _ sound refers kempt =>
    react_kempt behaviour sound observer refers kempt
  tellChange := fun behaviour _ _ _ sound refers own kempt =>
    tellChange_kempt behaviour sound refers own kempt
  mount := fun behaviour _ _ registry config template _ controller sound there inside kempt =>
    mount_kempt behaviour sound registry config template controller there inside kempt
  unmount := fun id sound kempt => unmount_kempt sound id kempt

/-- Whatever has happened, bound nodes are well kept. -/
theorem Conduct.kempt {client : Client} (conduct : Conduct { client } world) : world.Kempt := by
  apply conduct.preserves kempt_invariant (sound_empty client)
  intro id render known
  simp [render?, Store.get?] at known

end Kempt

end World

end LiveTemplate
