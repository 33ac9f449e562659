import LiveTemplate.Proofs.Upkeep.Refreshed
import Mathlib.Data.List.InsertIdx

/-!
# A list follows a change

A list that is told a change takes out the items that the change took out of the collection, and puts
in those that it put in.  If it has shown the items that the collection had before the change, it
shows those that the collection has afterwards.
-/

namespace LiveTemplate

open Template (Node)

namespace Change

/-- The change is one of a list with these items. -/
def Within : Change → List Value → Prop
  | .insert index _, items => index ≤ items.length
  | .remove index _, items | .update index _, items => index < items.length
  | .replace _, _ => True

/-- What a change leaves there. -/
def left : Change → List Value → List Value
  | .insert .., items => items
  | .remove index _, items | .update index _, items => items.eraseIdx index
  | .replace _, _ => []

theorem insertIdx_eq {items : List Value} {index : Nat} (within : index ≤ items.length)
    (item : Value) : items.insertIdx index item = items.take index ++ item :: items.drop index := by
  induction items generalizing index with
  | nil =>
      obtain rfl := Nat.le_zero.1 within
      rfl
  | cons first later induction =>
      cases index with
      | zero => rfl
      | succ index =>
          rw [List.insertIdx_succ_cons, induction (Nat.le_of_succ_le_succ within)]
          rfl

/-- A change puts its items among those that it leaves there. -/
theorem apply_eq {change : Change} {items : List Value} (within : change.Within items) :
    change.apply items = (change.left items).take change.place ++
      (change.fresh ++ (change.left items).drop change.place) := by
  cases change with
  | insert index item =>
      exact insertIdx_eq within item
  | remove index item => simp [apply, left, place, fresh]
  | update index item =>
      have inside : index < items.length := within
      simp only [apply, left, place, fresh, List.eraseIdx_eq_take_drop_succ]
      rw [List.set_eq_take_append_cons_drop, if_pos inside,
        List.take_left' (by simp [inside.le]), List.drop_left' (by simp [inside.le])]
      rfl
  | replace items => simp [apply, left, place, fresh]

end Change

/-- A mutation makes a change of the items that are there. -/
theorem Mutation.change?_within {mutation : Mutation} {items : List Value} {change : Change}
    (made : mutation.change? items = some change) : change.Within items := by
  have removed : ∀ index, removal? items index = some change → change.Within items := by
    intro index there
    obtain ⟨item, found, rfl⟩ := Option.map_eq_some_iff.1 there
    exact (List.getElem?_eq_some_iff.1 found).1
  cases mutation with
  | insert index item =>
      obtain rfl := Option.some.inj made
      exact Nat.min_le_right ..
  | push item =>
      obtain rfl := Option.some.inj made
      exact le_rfl
  | remove item =>
      obtain ⟨index, _, there⟩ := Option.bind_eq_some_iff.1 made
      exact removed index there
  | removeAt index => exact removed index made
  | update index item =>
      simp only [Mutation.change?] at made
      split at made
      · obtain rfl := Option.some.inj made
        assumption
      · cases made
  | replace items =>
      obtain rfl := Option.some.inj made
      trivial

theorem Forest.without_roots {Name Label : Type} [DecidableEq Name] {forest : Forest Name Label}
    {gone : List Name} (covered : forest.roots ⊆ gone) : forest.without gone = .nil := by
  induction forest with
  | nil => rfl
  | cons name label children rest _ beside =>
      have here : name ∈ gone := covered (by simp [Forest.roots])
      rw [Forest.without, if_pos here]
      exact beside fun other member => covered (by simp [Forest.roots, member])

section Fits

variable {frame : Frame} {standing : Standing} {root : BoundId} {way : Nat → List String}
  {tasks : List Task} {forest : Bindings} {index : Nat}

/-- What is taken away fits by itself. -/
theorem Fits.taken (fits : Fits frame standing root way tasks forest)
    (still : ∀ slot, way slot = []) (distinct : forest.names.Nodup) {kid : BoundId}
    (there : forest.roots[index]? = some kid) :
    ∃ also lost, Fits frame standing root way also lost ∧
      forest.entries.Perm (lost.entries ++ (forest.prune kid).entries) := by
  induction fits generalizing index with
  | nil => cases there
  | watch ahead => rw [still] at ahead; cases ahead
  | @cons _ first _ _ _ _ _ _ _ rest proper here covers inside _ _ others =>
      obtain ⟨_, notBeside, _, outside, apart⟩ := Forest.distinct_parts distinct
      cases index with
      | zero =>
          obtain rfl := Option.some.inj there
          refine ⟨_, _, .cons proper here covers inside .nil, ?_⟩
          simp [Forest.prune, Forest.prune_eq_self notBeside, Forest.entries]
      | succ index =>
          have later : (Forest.roots rest)[index]? = some kid := there
          have member := Forest.roots_subset_names _ (List.mem_of_getElem? later)
          have differs : first ≠ kid := fun same => notBeside (same ▸ member)
          have notBelow := fun inside => apart inside member
          obtain ⟨also, lost, fits, split⟩ := others still outside later
          refine ⟨also, lost, fits, ?_⟩
          rw [Forest.prune, if_neg differs, Forest.prune_eq_self notBelow, Forest.entries,
            Forest.entries]
          refine (List.Perm.cons _ ((split.append_left _).trans ?_)).trans List.perm_middle.symm
          rw [← List.append_assoc, ← List.append_assoc]
          exact List.perm_append_comm.append_right _

/-- What a change leaves there fits, and so does what it takes out. -/
theorem Fits.without {change : Change} {items : List Value} {task : Value → Task}
    (fits : Fits frame standing root way (items.map task) forest) (still : ∀ slot, way slot = [])
    (distinct : forest.names.Nodup) (within : change.Within items) :
    Fits frame standing root way ((change.left items).map task)
        (forest.without (change.gone forest.roots)) ∧
      ∃ also lost, Fits frame standing root way also lost ∧ forest.entries.Perm
        (lost.entries ++ (forest.without (change.gone forest.roots)).entries) := by
  have one : ∀ index, index < items.length →
      Fits frame standing root way ((items.eraseIdx index).map task)
          (forest.without forest.roots[index]?.toList) ∧
        ∃ also lost, Fits frame standing root way also lost ∧ forest.entries.Perm
          (lost.entries ++ (forest.without forest.roots[index]?.toList).entries) := by
    intro index inside
    have long := fits.length_eq still
    obtain ⟨kid, there⟩ : ∃ kid, forest.roots[index]? = some kid := by
      refine ⟨_, List.getElem?_eq_getElem ?_⟩
      rwa [long, List.length_map]
    rw [there, Option.toList, ← Forest.prune_eq_without]
    refine ⟨?_, fits.taken still distinct there⟩
    rw [← List.eraseIdx_map]
    exact fits.eraseIdx still distinct there
  cases change with
  | insert index item =>
      rw [Change.gone, Forest.without_nil_names]
      exact ⟨fits, [], .nil, .nil, .refl _⟩
  | remove index item => exact one index within
  | update index item => exact one index within
  | replace items =>
      rw [Change.gone, Forest.without_roots (List.Subset.refl _)]
      exact ⟨.nil, _, _, fits, by simp [Forest.entries]⟩

theorem Fits.list_proper {collection : CollectionId} {body : List Node} {dom : Option NodeId}
    {ledger : List Subscription} {scope : Scope} {name : BoundId} {below : Bindings}
    (fits : Fits frame standing root way tasks
      (.cons name ⟨.list collection body, dom, ledger, scope⟩ below .nil)) :
    Template.AllProper frame.known frame.strict body := by
  cases fits with
  | cons proper here _ _ _ =>
      cases here with
      | list | unfinished =>
          cases proper with
          | list proper => exact proper

/-- The observer of a list is held by that list. -/
theorem Fits.list_of_holds {subscription : Subscription} {collection : CollectionId} {name : BoundId}
    {node : BoundNode Part} {below : Bindings} {render : RenderId} {list : BoundId}
    (fits : Fits frame standing root way tasks (.cons name node below .nil))
    (single : standing.Single) (own : subscription ∈ node.ledger)
    (holds : standing.holds subscription (.change (.splice render list)))
    (source : subscription.source = .collection collection) :
    ∃ body anchor scope, node = ⟨.list collection body, some anchor, [subscription], scope⟩ := by
  cases fits with
  | watch _ linked =>
      obtain rfl := List.mem_singleton.1 own
      cases single _ _ _ holds linked.holds
  | cons _ here _ _ _ =>
      cases here with
      | element _ _ _ follows =>
          obtain ⟨_, _, linked⟩ := exists_of_mem_forall₂ follows own
          cases single _ _ _ holds linked.holds
      | text _ _ _ follows =>
          obtain ⟨_, _, linked⟩ := exists_of_mem_forall₂ follows own
          cases single _ _ _ holds linked.holds
      | switch _ _ _ follows =>
          obtain ⟨_, _, linked⟩ := exists_of_mem_forall₂ follows own
          cases single _ _ _ holds linked.holds
      | content observes =>
          obtain ⟨_, _, _, other⟩ := exists_of_mem_forall₂ observes own
          cases single _ _ _ holds other
      | list _ there _ _ =>
          obtain rfl := List.mem_singleton.1 own
          obtain rfl : _ = collection := Source.collection.inj (there.symm.trans source)
          exact ⟨_, _, _, rfl⟩
      | view | item | unfinished => cases own

end Fits

namespace World

variable {Client : Type} {world after : World Client} {frame : Frame} {task : Task}
  {render changed : Render} {former : CollectionId → List Value}
  {pending owed pending' owed' : Notices}
  {subscription : Subscription} {list : BoundId} {collection : CollectionId} {body : List Node}
  {anchor : NodeId} {scope : Scope} {below : Bindings} {growth : Growth} {change : Change}

/-- The items that have been built for a list are those that a change puts in. -/
theorem Upholds.items_built (upholds : world.Upholds frame task render former pending owed)
    (progress : world.Progress after frame.render render changed) (fewer : pending' ⊆ owed)
    (inside : scope.model.index < world.data.models.next) (refers : world.data.RefersIn change)
    (proper : Template.AllProper frame.known frame.strict body)
    (built : Built world after frame.render render (fun site =>
      Site.items (site.body body) scope change.fresh) growth growth.page)
    (notes : world.Notes after frame.render growth)
    (spared : frame.mayFail ∨ Spared frame.render world after)
    (whole : change.fresh.length ≤ 1 ∨ Spared frame.render world after) :
    Fits frame (after.standing changed.document frame.render former pending' owed') list (fun _ => [])
      (change.fresh.map (.item body · scope.model scope.depth)) growth.bound := by
  obtain ⟨site, before, later, building, runs, sees⟩ := built.sees upholds progress fewer
  have reaches : scope.model.index < before.data.models.next := building.agrees.models.symm ▸ inside
  have listed := fun item member => building.agrees.refers.2 (refers.fresh item member)
  have serves := upholds.body_serves building scope.depth proper
  have grower := body_grower site body
  have failure := (Site.items_fulfils grower serves proper runs building.sound reaches listed).failure
  have complete := Site.items_complete grower serves proper runs building.sound reaches listed
    (whole.imp_right (notes.success failure))
  exact complete.fits (notes.allows failure spared) _ list _ sees

/-- The items of a list are exchanged as a change says. -/
theorem Upholds.spliced (upholds : world.Upholds frame task render former owed owed)
    (queue : owed = (subscription, .change (.splice frame.render list)) :: pending)
    (held : world.data.Holds subscription (.change (.splice frame.render list)))
    (told : (subscription, .change (.splice frame.render list)) ∉ pending)
    (within : change.Within (former collection))
    (items : world.data.contents.items collection = change.apply (former collection))
    (refers : world.data.RefersIn change)
    (progress : world.Progress after frame.render render changed) (tidy : after.Sound)
    (has : Forest.Has render.tree.nodes list
      ⟨.list collection body, some anchor, [subscription], scope⟩ below)
    (nodes : changed.tree.nodes = render.tree.nodes.edit list (fun node => node) fun below =>
      (below.without (change.gone below.roots)).insertAt change.place growth.bound)
    (built : Built world after frame.render render (fun site =>
      Site.items (site.body body) scope change.fresh) growth growth.page)
    (notes : world.Notes after frame.render growth)
    (spared : frame.mayFail ∨ Spared frame.render world after)
    (whole : change.fresh.length ≤ 1 ∨ Spared frame.render world after) :
    after.Upholds frame task changed former pending pending := by
  have sound := upholds.sound
  have fewer : pending ⊆ owed := queue ▸ List.subset_cons_self _ _
  obtain ⟨_, _, mine⟩ := sound.renders _ render upholds.known
  obtain ⟨outside, distinct⟩ := List.nodup_cons.1 (has.nodup mine.distinct)
  have here : Forest.Has changed.tree.nodes list
      ⟨.list collection body, some anchor, [subscription], scope⟩
      ((below.without (change.gone below.roots)).insertAt change.place growth.bound) := by
    rw [nodes]
    exact has.edit mine.distinct (fun node => node) fun below =>
      (below.without (change.gone below.roots)).insertAt change.place growth.bound
  have still := progress.holds sound tidy here.mem_entries (List.mem_singleton_self _) held
  have others : ∀ other observer, (other, observer) ∈ owed →
      (other, observer) ∈ pending ∨ observer = .change (.splice frame.render list) := by
    intro other observer listed
    rw [queue] at listed
    rcases List.mem_cons.1 listed with same | later
    · exact .inr (Prod.mk.inj same).2
    · exact .inl later
  -- What the list shows now is what it leaves there and what goes.
  obtain ⟨_, _, _, alone⟩ := upholds.fits.at has
  have shows := alone.shown_formerly ⟨_, queue ▸ List.mem_cons_self, held⟩
  obtain ⟨stays, also, lost, goes, split⟩ := shows.without (fun _ => rfl) distinct within
  have names := (split.map Prod.fst).nodup_iff.1 distinct
  rw [List.map_append, List.nodup_append'] at names
  have before : (below.without (change.gone below.roots)).entries ⊆ below.entries :=
    fun _ kept => split.symm.subset (List.mem_append_right _ kept)
  have later : (below.without (change.gone below.roots)).entries ⊆ changed.tree.nodes.entries :=
    fun _ kept => here.entries_subset
      ((insertAt_entries _ growth.bound change.place).symm.subset (List.mem_append_left _ kept))
  -- Registrations of the items that have gone were there for what has gone.
  have owes : ∀ name, name ≠ list → name ∉ lost.names → ∀ slot,
      (world.standing render.document frame.render former owed owed).stale name slot →
        (after.standing changed.document frame.render former pending pending).stale name slot := by
    intro name apart gone slot
    have less : ∀ other observer, (other, observer) ∈ owed →
        observer.target? = some (frame.render, name, slot) → (other, observer) ∈ pending := by
      intro other observer listed target
      refine (others _ _ listed).resolve_right ?_
      rintro rfl
      cases target
    exact progress.stale_split sound tidy has nodes rfl less split.subset later goes apart gone
  apply upholds.exchange progress tidy has nodes (fun _ _ => rfl) (fun _ _ _ => rfl) fewer fewer
    (List.Subset.refl _)
  · intro other observer listed _
    refine (others _ _ listed).imp_right ?_
    rintro rfl
    exact ⟨list, rfl, List.mem_cons_self⟩
  · intro name slot apart absent
    refine owes name apart (fun gone => absent ?_) slot
    exact (split.map Prod.fst).symm.subset (by rw [List.map_append]; exact List.mem_append_left _ gone)
  · intro root way tasks fits
    refine fits.splice ?_ ?_ ?_ ?_
    · rintro ⟨observer, listed, also⟩
      obtain rfl := tidy.data.unique also still
      exact told listed
    · intro observer also
      obtain rfl := sound.data.unique also held
      exact still
    · exact progress.look sound tidy has.mem_entries here.mem_entries rfl rfl
    · have kept : Fits frame (after.standing changed.document frame.render former pending pending) list
          (fun _ => []) ((change.left (former collection)).map (.item body · scope.model scope.depth))
          (below.without (change.gone below.roots)) := by
        apply progress.remains sound tidy stays (fun _ kept => has.entries_subset (before kept)) later
          fewer
        · intro other observer listed _
          refine (others _ _ listed).imp_right ?_
          rintro rfl
          exact ⟨list, rfl, fun inside => outside (List.map_subset _ before inside)⟩
        · intro name member
          refine owes name ?_ fun gone => names.2.2 gone member
          rintro rfl
          exact outside (List.map_subset _ before member)
      have shown : after.data.contents.items collection = change.apply (former collection) := by
        rw [progress.agrees.contents, items]
      show Fits frame _ list _ ((after.data.contents.items collection).map _) _
      rw [shown, Change.apply_eq within, List.map_append, List.map_append, List.map_take,
        List.map_drop]
      exact kept.insertAt (fun _ => rfl) (upholds.items_built progress fewer
        (mine.scopes _ has.mem_entries) refers fits.list_proper built notes spared whole) change.place

/-- A list has been told a change of the items that it has shown. -/
theorem Upholds.splice (behaviour : Behaviour Client)
    (upholds : world.Upholds frame task render former
      ((subscription, .change (.splice frame.render list)) :: pending)
      ((subscription, .change (.splice frame.render list)) :: pending))
    (held : world.data.Holds subscription (.change (.splice frame.render list)))
    (source : subscription.source = .collection collection)
    (told : (subscription, .change (.splice frame.render list)) ∉ pending)
    (within : change.Within (former collection))
    (items : world.data.contents.items collection = change.apply (former collection))
    (refers : world.data.RefersIn change)
    (spared : frame.mayFail ∨
      Spared frame.render world (world.splice behaviour frame.render list change))
    (whole : change.fresh.length ≤ 1 ∨
      Spared frame.render world (world.splice behaviour frame.render list change)) :
    ∃ changed, (world.splice behaviour frame.render list change).Upholds frame task changed former
      pending pending := by
  have sound := upholds.sound
  obtain ⟨node, member, own⟩ := sound.owned upholds.known held rfl
  obtain ⟨below, has⟩ := Forest.has_iff_mem_entries.2 member
  obtain ⟨_, _, _, alone⟩ := upholds.fits.at has
  obtain ⟨body, anchor, scope, rfl⟩ := alone.list_of_holds (standing_single sound) own held source
  obtain ⟨growth, changed, progress, nodes, built, notes⟩ :=
    splice_stages behaviour sound upholds.known has refers
  have tidy := (splice_kept behaviour sound frame.render list refers).sound
  exact ⟨changed, upholds.spliced rfl held told within items refers progress tidy has nodes built notes
    spared whole⟩

end World

end LiveTemplate
