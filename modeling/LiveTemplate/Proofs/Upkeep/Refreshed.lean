import LiveTemplate.Proofs.Upkeep.Aim
import LiveTemplate.Proofs.Upkeep.Relinked
import Mathlib.Data.List.Infix

/-!
# A render shows something anew

An observer has been told, or the path that it is there for has just been followed anew.  What is
shown for the path is shown anew in place; a directive is built anew.  Afterwards nothing is owed to
that observer.
-/

namespace LiveTemplate

open Template (Node Path)

namespace World

variable {Client : Type} {world after : World Client} {frame : Frame} {task : Task}
  {render changed : Render} {former : CollectionId → List Value}
  {pending owed pending' owed' : Notices} {id : RenderId} {behaviour : Behaviour Client}

/-- No view of a render was nested too deeply in the meantime. -/
def Spared (id : RenderId) (world after : World Client) : Prop :=
  ∀ name depth, (id, .viewDepthExceeded name depth) ∉ after.failures.drop world.failures.length

theorem spared_of_length_le (few : after.failures.length ≤ world.failures.length) (id : RenderId) :
    Spared id world after := by
  intro name depth listed
  rw [List.drop_eq_nil_of_le few] at listed
  cases listed

theorem Spared.later {middle : World Client} (spared : Spared id world after)
    (failures : world.failures <+: middle.failures) : Spared id middle after := by
  intro name depth listed
  refine spared name depth ?_
  rw [← Nat.sub_add_cancel failures.length_le, Nat.add_comm, ← List.drop_drop] at listed
  exact List.mem_of_mem_drop listed

theorem Spared.early {middle : World Client} (spared : Spared id world after)
    (failures : middle.failures <+: after.failures) : Spared id world middle := by
  intro name depth listed
  exact spared name depth ((List.IsPrefix.drop failures _).subset listed)

theorem Notes.success {growth : Growth} (notes : world.Notes after id growth)
    (failure : ∀ error, growth.failure = some error →
      ∃ name depth, error = .viewDepthExceeded name depth)
    (spared : Spared id world after) : growth.failure = none := by
  cases failed : growth.failure with
  | none => rfl
  | some error =>
      obtain ⟨name, depth, rfl⟩ := failure error failed
      exact (spared name depth (notes _ failed)).elim

theorem Notes.allows {growth : Growth} (notes : world.Notes after frame.render growth)
    (failure : ∀ error, growth.failure = some error →
      ∃ name depth, error = .viewDepthExceeded name depth)
    (spared : frame.mayFail ∨ Spared frame.render world after) : Site.Allows frame growth :=
  spared.symm.imp_left (notes.success failure)

/-- An observer that shows something anew is there for a path that is followed. -/
theorem Upholds.aimed (upholds : world.Upholds frame task render former pending owed)
    {subscription : Subscription} {observer : Observer} {goal : BoundId} {slot : Nat}
    (held : world.data.Holds subscription observer)
    (target : observer.target? = some (frame.render, goal, slot)) :
    ∃ node below path, Forest.Has render.tree.nodes goal node below ∧
      node.part.path? slot = some path ∧ (observer.Rebuilds → node.kind = .switch) := by
  obtain ⟨owner, owned⟩ := Observer.owner?_of_target? target
  obtain ⟨mark, member, own⟩ := upholds.sound.owned upholds.known held owned
  have single : Standing.Single (world.standing render.document frame.render former pending owed) :=
    standing_single upholds.sound
  rcases upholds.fits.aimed single member own held target with
    ⟨_, ⟨more, _⟩ | ⟨_, _, _, called, more⟩⟩ | there
  · exact (more rfl).elim
  · simp only [List.mem_singleton, Task.content.injEq] at called
    exact (more called.2).elim
  · exact there

section Building

variable {site : Site Client} {before : BuildState Client}

/-- What is known is built for a render that is upheld. -/
theorem Upholds.views_serve (upholds : world.Upholds frame task render former pending owed)
    (building : world.Building frame.render render site before) (depth : Nat) :
    Site.ViewsServe frame depth site.viewIn := by
  apply Site.viewIn_serves building.own.symm
  · rw [building.config, upholds.label]
  · rw [building.registry, upholds.registry]
  · rw [building.config, upholds.limit]

theorem Upholds.body_serves (upholds : world.Upholds frame task render former pending owed)
    (building : world.Building frame.render render site before) (depth : Nat) {body : List Node}
    (proper : Template.AllProper frame.known frame.strict body) :
    Site.BodyServes frame depth body (site.body body) := by
  intro scope here
  have label : site.config.anchorLabel = frame.label := by
    rw [building.config, upholds.label]
  exact here ▸ Site.nodes_serves building.own.symm label (fun scope => site.view_grows _ scope) body
    scope (upholds.views_serve building _) proper

end Building

/-! ## A directive is built anew -/

theorem watches_decided (node : BoundNode Part)
    (decision : Option Bool) (slot : Nat) :
    (node.decided decision).part.watches slot = node.part.watches slot := by
  obtain ⟨part, _, _, _⟩ := node
  cases part <;> rfl

theorem decided_of_watches {node : BoundNode Part} {slot : Nat}
    (watches : node.part.watches slot = true) (decision : Option Bool) :
    node.decided decision = node := by
  obtain ⟨part, _, _, _⟩ := node
  cases part <;> simp_all [Part.watches, BoundNode.decided]

section Rebuild

variable {notice : Subscription × Observer} {switch : BoundId} {directive : Directive}
  {shown decision : Option Bool} {anchor : NodeId} {ledger : List Subscription} {scope : Scope}
  {below : Bindings} {growth : Growth}

/-- Whoever is there for something else is still owed it. -/
theorem owed_of_apart {goal name : BoundId} {slot position : Nat} {subscription : Subscription}
    {observer : Observer} (target : notice.2.target? = some (id, goal, slot))
    (aims : observer.target? = some (id, name, position)) (apart : ¬ (name = goal ∧ position = slot))
    (listed : (subscription, observer) ∈ notice :: owed) : (subscription, observer) ∈ owed := by
  refine (List.mem_cons.1 listed).resolve_left ?_
  rintro rfl
  exact apart (Prod.mk.inj (Prod.mk.inj (Option.some.inj (aims.symm.trans target))).2)

/-- Whoever is owed something for another bound node is still owed it. -/
theorem Upholds.stale_apart {goal name : BoundId} {slot position : Nat} {node : BoundNode Part}
    {label : BoundNode Part → BoundNode Part} {change : Bindings → Bindings}
    (upholds : world.Upholds frame task render former pending (notice :: owed))
    (progress : world.Progress after frame.render render changed) (tidy : after.Sound)
    (has : Forest.Has render.tree.nodes goal node below)
    (nodes : changed.tree.nodes = render.tree.nodes.edit goal label change)
    (ledger : (label node).ledger = node.ledger) (calm : ∀ slot, node.part.watches slot = false)
    (target : notice.2.target? = some (frame.render, goal, slot)) (apart : name ≠ goal)
    (outside : name ∉ below.names)
    (excused : (world.standing render.document frame.render former pending (notice :: owed)).stale name
      position) :
    (after.standing changed.document frame.render former pending owed).stale name position := by
  refine progress.stale upholds.sound tidy has nodes ledger ?_ ?_ excused
  · exact fun _ _ listed aims => owed_of_apart target aims (fun same => apart same.1) listed
  · intro owner mark member subscription own observer _ held aims
    obtain ⟨_, _, _, alone⟩ := upholds.fits.at has
    obtain ⟨other, also, targets⟩ := alone.target_below calm member own
    obtain rfl := upholds.sound.data.unique held also
    exact ((targets _ _ _ aims).elim apart outside).elim

/-- What has been built for a directive is what it calls for now. -/
theorem Upholds.content_built (upholds : world.Upholds frame task render former pending owed)
    (progress : world.Progress after frame.render render changed) (fewer : pending' ⊆ owed)
    (inside : scope.model.index < world.data.models.next)
    (proper : (Node.directive directive.rule directive.path directive.body).Proper frame.known
      frame.strict)
    (built : Built world after frame.render render (fun site =>
      site.content site.viewIn (site.body directive.body) switch directive scope) growth growth.page)
    (notes : world.Notes after frame.render growth)
    (spared : frame.mayFail ∨ Spared frame.render world after) (way : Nat → List String) :
    Fits frame (after.standing changed.document frame.render former pending' owed') switch way
      [.content (after.data.wanted after.data.contents directive scope.model scope.depth).2.1
        (after.data.wanted after.data.contents directive scope.model scope.depth).2.2] growth.bound := by
  obtain ⟨site, before, later, building, runs, sees⟩ := built.sees upholds progress fewer
  have content := Site.content_completes building.own.symm (by rw [building.config, upholds.label])
    (body_grower site directive.body) (upholds.views_serve building _)
    (upholds.body_serves building _ proper.2) proper runs building.sound
    (building.agrees.models.symm ▸ inside)
  rw [progress.agrees.wanted, ← building.agrees.wanted]
  exact content.fits (notes.allows content.failure spared) _ way sees

/-- The content of a directive is exchanged for what it calls for now. -/
theorem Upholds.rebuilt (upholds : world.Upholds frame task render former pending (notice :: pending))
    (progress : world.Progress after frame.render render changed) (tidy : after.Sound)
    (has : Forest.Has render.tree.nodes switch ⟨.switch directive shown, some anchor, ledger, scope⟩
      below)
    (target : notice.2.target? = some (frame.render, switch, 0))
    (decided : decision = Site.decision world.data.contents directive.rule
      (world.data.resolveRaw scope.model directive.path))
    (nodes : changed.tree.nodes = render.tree.nodes.edit switch (·.decided decision) fun below =>
      (below.keep fun node => node.kind == .watch) ++ growth.bound)
    (built : Built world after frame.render render (fun site =>
      site.content site.viewIn (site.body directive.body) switch directive scope) growth growth.page)
    (notes : world.Notes after frame.render growth)
    (spared : frame.mayFail ∨ Spared frame.render world after) :
    after.Upholds frame task changed former pending pending := by
  have sound := upholds.sound
  obtain ⟨_, _, mine⟩ := sound.renders _ render upholds.known
  have here : Forest.Has changed.tree.nodes switch
      ⟨.switch directive decision, some anchor, ledger, scope⟩
      ((below.keep fun node => node.kind == .watch) ++ growth.bound) := by
    rw [nodes]
    exact has.edit mine.distinct (·.decided decision) _
  have less := Forest.keep_entries_subset below fun node => node.kind == .watch
  apply upholds.exchange progress tidy has nodes
  · exact fun node slot => watches_decided node decision slot
  · exact fun node slot watches => decided_of_watches watches decision
  · exact List.Subset.refl _
  · exact List.subset_cons_self _ _
  · exact List.Subset.refl _
  · exact fun _ _ listed _ => .inl listed
  · exact fun name slot apart outside => upholds.stale_apart progress tidy has nodes rfl (fun _ => rfl)
      target apart outside
  · intro root way tasks fits
    have look := progress.look sound tidy has.mem_entries here.mem_entries rfl rfl
    refine fits.rebuild (progress.steady sound tidy here.mem_entries rfl) look ?_ ?_
      (upholds.content_built progress (List.subset_cons_self _ _) (mine.scopes _ has.mem_entries)
        fits.directive_proper built notes spared)
    · show _ = after.data.wanted after.data.contents directive scope.model scope.depth
      rw [progress.agrees.wanted, decided]
      rfl
    · -- What watches the path shows nothing, so that it does not matter what is owed to it.
      intro way watches
      apply watches.carry
      intro name mark listed
      obtain ⟨slot, watch⟩ := watches.watch_of_mem rfl listed
      have later : (name, mark) ∈ changed.tree.nodes.entries := here.entries_subset (by simp [listed])
      refine ⟨progress.steady sound tidy later rfl, ?_, ?_, ?_⟩
      · exact fun dom => progress.look sound tidy (has.entries_subset (less listed)) later rfl
      · intro slot display path shown
        rw [watch] at shown
        cases shown
      · intro directive shown part
        rw [watch] at part
        cases part

/-- A condition that has been decided in the same way is left alone. -/
theorem Upholds.decided_alike
    (upholds : world.Upholds frame task render former pending (notice :: pending))
    (has : Forest.Has render.tree.nodes switch ⟨.switch directive shown, some anchor, ledger, scope⟩
      below)
    (target : notice.2.target? = some (frame.render, switch, 0)) (some : shown.isSome = true)
    (same : Site.decision world.data.contents directive.rule
      (world.data.resolveRaw scope.model directive.path) = shown) :
    world.Upholds frame task render former pending pending := by
  have sound := upholds.sound
  have progress : world.Progress world frame.render render render := .refl upholds.known
  have whole := Forest.edit_same render.tree.nodes switch
  have apart : ∀ name slot, name ≠ switch →
      (world.standing render.document frame.render former pending (notice :: pending)).stale name
        slot → (world.standing render.document frame.render former pending pending).stale name
          slot := by
    rintro name slot other ⟨subscription, observer, listed, held, aims⟩
    exact ⟨subscription, observer, owed_of_apart target aims (fun same => other same.1) listed, held,
      aims⟩
  obtain ⟨_, _, mine⟩ := sound.renders _ render upholds.known
  have inner := List.nodup_cons.1 (has.nodup mine.distinct)
  apply upholds.exchange progress sound has whole.symm (fun _ _ => rfl) (fun _ _ _ => rfl)
    (List.Subset.refl _) (List.subset_cons_self _ _) (List.Subset.refl _)
  · exact fun _ _ listed _ => .inl listed
  · exact fun name slot other _ => apart name slot other
  · intro root way tasks fits
    refine fits.undecided (progress.steady sound sound has.mem_entries rfl) rfl some same ?_
    intro way inside deeper
    apply progress.remains sound sound deeper has.entries_subset has.entries_subset
      (List.Subset.refl _)
    · exact fun _ _ listed _ => .inl listed
    · exact fun name member slot => apart name slot fun same => inner.1 (same ▸ member)

/-- A directive has been built anew. -/
theorem Upholds.rebuild (behaviour : Behaviour Client)
    (upholds : world.Upholds frame task render former pending (notice :: pending))
    (has : Forest.Has render.tree.nodes switch ⟨.switch directive shown, some anchor, ledger, scope⟩
      below)
    (target : notice.2.target? = some (frame.render, switch, 0))
    (spared : frame.mayFail ∨
      Spared frame.render world (world.rebuild behaviour frame.render switch)) :
    ∃ changed, (world.rebuild behaviour frame.render switch).Upholds frame task changed former pending
      pending := by
  have sound := upholds.sound
  obtain ⟨decision, decided, ⟨still, some, same⟩ | ⟨growth, changed, progress, nodes, built, notes⟩⟩ :=
    rebuild_stages behaviour sound upholds.known has
  · rw [still]
    exact ⟨render, upholds.decided_alike has target some (decided.symm.trans same)⟩
  · have tidy := (rebuild_kept behaviour sound frame.render switch).sound
    exact ⟨changed, upholds.rebuilt progress tidy has target decided nodes built notes spared⟩

end Rebuild

/-! ## A text or an attribute is shown anew -/

section Show

variable {notice : Subscription × Observer} {goal : BoundId} {slot : Nat} {node : BoundNode Part}
  {below : Bindings} {dom : NodeId} {display : Display} {path : Path}

theorem data?_modifyDocument {document : Document}
    (stored : world.documents.get? render.document.index = some document) (dom other : NodeId)
    (change : NodeData → NodeData) :
    ((world.modifyDocument render.document (·.modify dom change)).document render.document).data? other =
      if other = dom then ((world.document render.document).data? other).map change
      else (world.document render.document).data? other := by
  have edited : (world.modifyDocument render.document (·.modify dom change)).documents.get?
      render.document.index = some (document.modify dom change) := by
    rw [modifyDocument, Store.get?_modify, if_pos rfl, stored]
    rfl
  rw [document_eq edited, document_eq stored, Document.data?_modify]

/-- What is read along a path is shown in its place. -/
theorem Upholds.show (upholds : world.Upholds frame task render former pending (notice :: pending))
    (has : Forest.Has render.tree.nodes goal node below)
    (target : notice.2.target? = some (frame.render, goal, slot))
    (shown : node.part.display? slot = some (display, .bound path)) (own : node.dom = some dom) :
    (world.modifyDocument render.document (·.modify dom (display.show world.data.contents
      (world.data.resolve node.scope.model path)))).Upholds frame task render former pending
        pending := by
  have sound := upholds.sound
  obtain ⟨document, stored, mine⟩ := sound.renders _ render upholds.known
  have distinct := mine.shown_nodup (sound.documents _ _ stored)
  have look := fun other => data?_modifyDocument stored dom other (display.show world.data.contents
    (world.data.resolve node.scope.model path))
  refine ⟨(modifyNode_kept sound _ _ _).sound, upholds.known, upholds.registry, upholds.label,
    upholds.limit, List.Subset.refl _, fun notice member => upholds.issued notice
      (List.mem_cons_of_mem _ member), ?_⟩
  have data : (world.modifyDocument render.document (·.modify dom (display.show world.data.contents
      (world.data.resolve node.scope.model path)))).data = world.data := rfl
  generalize world.modifyDocument render.document _ = after at look data
  have agrees : world.data.Agrees after.data := data ▸ .refl _
  have holds : ∀ {subscription : Subscription} {observer : Observer},
      world.data.Holds subscription observer ↔ after.data.Holds subscription observer := by
    rw [data]
  have stale : ∀ name position, ¬ (name = goal ∧ position = slot) →
      (world.standing render.document frame.render former pending (notice :: pending)).stale name
        position → (after.standing render.document frame.render former pending pending).stale name
          position := by
    rintro name position other ⟨subscription, observer, listed, held, aims⟩
    exact ⟨subscription, observer, owed_of_apart target aims other listed, holds.1 held, aims⟩
  have carries : ∀ name mark, name ≠ goal → (name, mark) ∈ render.tree.nodes.entries →
      Carries (world.standing render.document frame.render former pending (notice :: pending))
        (after.standing render.document frame.render former pending pending) name mark := by
    intro name mark apart member
    apply carries_of_agrees agrees (fun _ _ _ => holds.1)
    · exact fun _ _ _ listed _ => listed
    · exact fun _ _ _ listed held => ⟨listed, holds.2 held⟩
    · intro other shows
      rw [look, if_neg]
      rintro rfl
      have same := BoundForest.dom_unique distinct member has.mem_entries shows own
      exact apart (Prod.mk.inj same).1
    · exact fun position => stale name position fun both => apart both.1
  rw [← Forest.edit_same render.tree.nodes goal]
  apply upholds.fits.edit (fun _ _ => rfl) (fun _ _ _ => rfl)
  · intro name mark apart member
    exact carries name mark apart (Forest.apart_of_mem_entries mine.distinct has member).1
  · intro root way tasks mark under found fits
    obtain ⟨rfl, rfl⟩ := has.unique mine.distinct found
    obtain ⟨data', seen⟩ : ∃ data, (world.document render.document).data? dom = some data := by
      obtain ⟨_, inside⟩ := sound.dom_inside upholds.known has.mem_entries own
      rw [document_eq stored]
      exact Option.isSome_iff_exists.1 (Forest.label?_isSome_iff.2 (inside document stored))
    refine fits.refresh shown ?_ own seen ?_ data ?_ ?_
    · refine steady_of_agrees agrees (fun _ _ _ => holds.1) ?_ ?_
      · exact fun _ _ observer listed held => ⟨observer, listed, holds.1 held⟩
      · rintro _ _ _ _ _ ⟨observer, listed, held⟩
        exact ⟨observer, listed, holds.2 held⟩
    · show (after.document render.document).data? dom = some
        (display.show after.data.contents (after.data.resolve node.scope.model path) data')
      rw [look, if_pos rfl, seen, data]
      rfl
    · exact fun position other => stale goal position fun both => other both.2
    · intro way inner deeper
      apply deeper.carry
      intro name mark member
      refine carries name mark ?_ (has.entries_subset member)
      rintro rfl
      exact (List.nodup_cons.1 (has.nodup mine.distinct)).1 (List.mem_map_of_mem member)

end Show

/-- What an observer is there for is shown anew. -/
theorem Upholds.refresh {notice : Subscription × Observer} {goal : BoundId} {slot : Nat}
    (behaviour : Behaviour Client)
    (upholds : world.Upholds frame task render former pending (notice :: pending))
    (held : world.data.Holds notice.1 notice.2)
    (target : notice.2.target? = some (frame.render, goal, slot))
    (spared : frame.mayFail ∨
      Spared frame.render world (world.refresh behaviour frame.render goal slot)) :
    ∃ changed, (world.refresh behaviour frame.render goal slot).Upholds frame task changed former
      pending pending := by
  obtain ⟨node, below, path, has, follows, _⟩ := upholds.aimed held target
  obtain ⟨_, _, mine⟩ := upholds.sound.renders _ render upholds.known
  have found : world.bound? frame.render goal = some node := by
    rw [bound?, upholds.known]
    exact has.label?_eq mine.distinct
  have regular := Forest.Everywhere.at mine.regular has
  unfold World.refresh at spared ⊢
  rw [upholds.known, found] at spared ⊢
  rcases Part.shown_of_path? follows with ⟨display, shown, displays⟩ | ⟨rfl, directive, decision, part⟩
  · obtain ⟨dom, own⟩ : ∃ dom, node.dom = some dom := by
      apply Option.isSome_iff_exists.1
      obtain ⟨part, _, _, _⟩ := node
      cases part with
      | element => exact regular
      | text => exact regular.1
      | switch | list | group | watch | view => cases displays
    simp only [shown, own]
    exact ⟨render, upholds.show has target displays own⟩
  · obtain ⟨_, dom, ledger, scope⟩ := node
    obtain rfl : _ = Part.switch directive decision := part
    obtain ⟨anchor, rfl⟩ := Option.isSome_iff_exists.1 regular.1
    exact upholds.rebuild behaviour has target spared

/-- A path observer has been told what is read now, or anything if it is there for the last segment of
its path. -/
theorem Upholds.react {subscription : Subscription} {observer : PathObserver} {model : ModelId}
    {segment : String} {value : Value} (behaviour : Behaviour Client)
    (upholds : world.Upholds frame task render former
      ((subscription, .value (.path observer)) :: pending)
      ((subscription, .value (.path observer)) :: pending))
    (own : observer.render = frame.render)
    (held : world.data.Holds subscription (.value (.path observer)))
    (source : subscription.source = .model model (changeChannel segment))
    (now : observer.rest ≠ [] → value = world.data.get model segment)
    (spared : frame.mayFail ∨
      Spared frame.render world (world.react behaviour observer value)) :
    ∃ changed, (world.react behaviour observer value).Upholds frame task changed former pending
      pending := by
  have sound := upholds.sound
  have target : (Observer.value (.path observer)).target? =
      some (frame.render, observer.root, observer.slot) :=
    congrArg (fun render => some (render, observer.root, observer.slot)) own
  have live : world.isLive observer.render observer.owner = true := by
    obtain ⟨node, member, _⟩ := sound.owned upholds.known held
      (congrArg (fun render => some (render, observer.owner)) own)
    obtain ⟨_, _, mine⟩ := sound.renders _ render upholds.known
    rw [isLive, bound?, own, upholds.known]
    exact Forest.label?_isSome_iff.2 (List.mem_map_of_mem member)
  unfold World.react at spared ⊢
  rw [if_pos live, own] at spared ⊢
  by_cases last : observer.rest = []
  · simp only [last, List.isEmpty_nil, if_true] at spared ⊢
    have still : ¬ (Observer.value (.path observer)).Steers := fun more => more last
    exact (upholds.relax still).refresh behaviour held target spared
  · have more : observer.rest.isEmpty = false := by simpa using last
    simp only [more] at spared ⊢
    rw [now last] at spared ⊢
    obtain ⟨_, linked, still⟩ := upholds.relink behaviour own held source
    refine linked.refresh behaviour still target (spared.imp_right fun all => all.later ?_)
    exact (relink_concerns behaviour sound observer (sound.data.values model segment)).failures

/-- The group of what a directive shows has been told that items have changed. -/
theorem Upholds.rebuildItems {subscription : Subscription} {content switch : BoundId}
    (behaviour : Behaviour Client) (change : Change)
    (upholds : world.Upholds frame task render former
      ((subscription, .change (.rebuild frame.render content switch)) :: pending)
      ((subscription, .change (.rebuild frame.render content switch)) :: pending))
    (held : world.data.Holds subscription (.change (.rebuild frame.render content switch)))
    (spared : frame.mayFail ∨ Spared frame.render world
      (world.tellChange behaviour change (.rebuild frame.render content switch))) :
    ∃ changed, (world.tellChange behaviour change (.rebuild frame.render content switch)).Upholds
      frame task changed former pending pending := by
  have sound := upholds.sound
  obtain ⟨_, _, mine⟩ := sound.renders _ render upholds.known
  have live : world.isLive frame.render content = true := by
    obtain ⟨node, member, _⟩ := sound.owned upholds.known held rfl
    rw [isLive, bound?, upholds.known]
    exact Forest.label?_isSome_iff.2 (List.mem_map_of_mem member)
  unfold tellChange at spared ⊢
  simp only [live, if_true] at spared ⊢
  obtain ⟨node, below, _, has, _, directs⟩ := upholds.aimed held rfl
  have kind := directs trivial
  have regular := Forest.Everywhere.at mine.regular has
  obtain ⟨part, dom, ledger, scope⟩ := node
  cases part with
  | switch directive shown =>
      obtain ⟨anchor, rfl⟩ := Option.isSome_iff_exists.1 regular.1
      exact (upholds.relax id).rebuild behaviour has rfl spared
  | element | text | list | group | watch | view => cases kind

end World

end LiveTemplate
