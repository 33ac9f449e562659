import LiveTemplate.Proofs.Upkeep.Made
import LiveTemplate.Proofs.Upkeep.Upheld

/-!
# A render brings itself up to date

When one of its observers is told, a render exchanges one bound node.  The exchange puts right what
the observer was there for, and everything else fits as before.
-/

namespace LiveTemplate

open BoundForest (watchers watchers_append watchers_keep watching)

section Fits

variable {frame : Frame} {standing : Standing} {root name : BoundId} {way : Nat → List String}
  {tasks : List Task} {node : BoundNode Part} {forest below : Bindings}

/-- Every bound node fits by itself. -/
theorem Fits.at (fits : Fits frame standing root way tasks forest)
    (has : Forest.Has forest name node below) :
    ∃ root way tasks, Fits frame standing root way tasks (.cons name node below .nil) := by
  induction fits with
  | nil => exact has.elim
  | watch ahead linked inside _ deeper others =>
      rcases has with ⟨rfl, rfl, rfl⟩ | found | found
      · exact ⟨_, _, [], .watch ahead linked inside .nil⟩
      · exact deeper found
      · exact others found
  | cons proper here covers inside _ deeper others =>
      rcases has with ⟨rfl, rfl, rfl⟩ | found | found
      · exact ⟨_, fun _ => [], _, .cons proper here covers inside .nil⟩
      · exact deeper found
      · exact others found

/-- Whatever is observed below a bound node that watches nothing is observed for it or for what is
below it. -/
theorem Fits.target_below (fits : Fits frame standing root way tasks (.cons name node below .nil))
    (calm : ∀ slot, node.part.watches slot = false) {owner : BoundId} {mark : BoundNode Part}
    (member : (owner, mark) ∈ below.entries) {subscription : Subscription}
    (own : subscription ∈ mark.ledger) :
    ∃ observer, standing.holds subscription observer ∧ ∀ render owner slot,
      observer.target? = some (render, owner, slot) → owner = name ∨ owner ∈ below.names := by
  cases fits with
  | watch => simp [Part.watches] at calm
  | cons _ _ _ inside _ => exact inside.target member own

end Fits

namespace World

variable {Client : Type} {world after : World Client} {frame : Frame} {task : Task}
  {render changed : Render} {former former' : CollectionId → List Value}
  {pending owed pending' owed' : Notices} {place : DocumentId} {id : RenderId}
  {behaviour : Behaviour Client}

/-- What has been built on the way is seen at its end. -/
theorem Built.sees {Result : Type} {steps : Site Client → Build Client Result} {result : Result}
    {page : Forest NodeId NodeData} {also : Notices}
    (built : Built world after frame.render render steps result page)
    (upholds : world.Upholds frame task render former also owed)
    (progress : world.Progress after frame.render render changed) (fewer : pending ⊆ owed) :
    ∃ site before later, world.Building frame.render render site before ∧
      Build.Runs (steps site) before result later ∧
      Site.Sees (after.standing changed.document frame.render former pending owed') before later
        page := by
  obtain ⟨site, before, later, building, runs, data⟩ := built.runs
  refine ⟨site, before, later, building, runs, ?_, ?_, ?_, ?_⟩
  · exact progress.agrees.symm.trans building.agrees
  · intro subscription observer held
    show after.data.Holds subscription observer
    rwa [data]
  · rintro subscription ⟨observer, listed, _⟩
    exact (upholds.issued _ (fewer listed)).trans_le (building.numbers _)
  · intro dom found member
    show (after.document changed.document).data? dom = some found
    rw [progress.same.document]
    exact built.shown dom found member

section Stale

variable {target name : BoundId} {node : BoundNode Part} {below : Bindings}
  {label : BoundNode Part → BoundNode Part} {change : Bindings → Bindings} {slot : Nat}

/-- What is owed is still owed, unless it was owed to what is gone. -/
theorem Progress.stale (progress : world.Progress after id render changed) (sound : world.Sound)
    (tidy : after.Sound) (has : Forest.Has render.tree.nodes target node below)
    (nodes : changed.tree.nodes = render.tree.nodes.edit target label change)
    (ledger : (label node).ledger = node.ledger)
    (less : ∀ subscription observer, (subscription, observer) ∈ owed →
      observer.target? = some (id, name, slot) → (subscription, observer) ∈ owed')
    (inside : ∀ owner mark, (owner, mark) ∈ below.entries → ∀ subscription ∈ mark.ledger,
      ∀ observer, (subscription, observer) ∈ owed → world.data.Holds subscription observer →
        observer.target? = some (id, name, slot) →
          (after.standing changed.document id former' pending' owed').stale name slot)
    (excused : (world.standing render.document id former pending owed).stale name slot) :
    (after.standing changed.document id former' pending' owed').stale name slot := by
  obtain ⟨subscription, observer, listed, held, targets⟩ := excused
  obtain ⟨_, _, own⟩ := sound.renders id render progress.known
  obtain ⟨owner, owned⟩ := Observer.owner?_of_target? targets
  obtain ⟨mark, member, mine⟩ := sound.owned progress.known held owned
  have stays : ∀ other, (owner, other) ∈ changed.tree.nodes.entries → subscription ∈ other.ledger →
      (after.standing changed.document id former' pending' owed').stale name slot :=
    fun other there also => ⟨subscription, observer, less _ _ listed targets,
      progress.holds sound tidy there also held, targets⟩
  by_cases deep : owner ∈ below.names
  · obtain ⟨sign, lower, found⟩ := Forest.exists_has deep
    obtain ⟨under, also⟩ := Forest.has_iff_mem_entries.2 member
    obtain ⟨rfl, _⟩ := also.unique own.distinct (has.trans found)
    exact inside owner mark found.mem_entries subscription mine observer listed held targets
  · by_cases here : owner = target
    · subst here
      obtain ⟨under, also⟩ := Forest.has_iff_mem_entries.2 member
      obtain ⟨rfl, _⟩ := also.unique own.distinct has
      refine stays (label mark) ?_ (ledger.symm ▸ mine)
      rw [nodes]
      exact (has.edit own.distinct label change).mem_entries
    · refine stays mark ?_ mine
      rw [nodes]
      exact Forest.mem_entries_edit label change here
        (Forest.mem_entries_apart own.distinct has member deep)

/-- What is owed to a bound node that stays is still owed. -/
theorem Progress.stale_split {lost kept : Bindings} {way : Nat → List String} {tasks : List Task}
    (progress : world.Progress after id render changed) (sound : world.Sound) (tidy : after.Sound)
    (has : Forest.Has render.tree.nodes target node below)
    (nodes : changed.tree.nodes = render.tree.nodes.edit target label change)
    (ledger : (label node).ledger = node.ledger)
    (less : ∀ subscription observer, (subscription, observer) ∈ owed →
      observer.target? = some (id, name, slot) → (subscription, observer) ∈ owed')
    (split : below.entries ⊆ lost.entries ++ kept.entries)
    (later : kept.entries ⊆ changed.tree.nodes.entries)
    (goes : Fits frame (world.standing render.document id former pending owed) target way tasks lost)
    (apart : name ≠ target) (gone : name ∉ lost.names)
    (excused : (world.standing render.document id former pending owed).stale name slot) :
    (after.standing changed.document id former' pending' owed').stale name slot := by
  refine progress.stale sound tidy has nodes ledger less ?_ excused
  intro owner mark member subscription own observer listed holds aims
  rcases List.mem_append.1 (split member) with taken | stays
  · obtain ⟨also, there, targets⟩ := goes.target taken own
    obtain rfl := sound.data.unique holds there
    exact ((targets _ _ _ aims).elim apart gone).elim
  · exact ⟨subscription, observer, less _ _ listed aims,
      progress.holds sound tidy (later stays) own holds, aims⟩

end Stale

/-! ## A path is followed anew -/

/-- The one node that watches the rest of a path. -/
theorem watcher?_toList {tree : BoundTree Part} {owner : BoundId} {node : BoundNode Part}
    {below : Bindings} {slot : Nat} {found : Option (BoundId × BoundNode Part)}
    (distinct : tree.nodes.names.Nodup) (has : Forest.Has tree.nodes owner node below)
    (single : watchers below slot = found.toList) :
    (tree.watcher? owner slot).toList = (watchers below slot).map Prod.fst := by
  have first : ∀ test : BoundId → Bool,
      (∀ entry ∈ below.crown, test entry.1 = entry.2.part.watches slot) →
        ((below.crown.find? (test ∘ Prod.fst)).map Prod.fst).toList =
          (watchers below slot).map Prod.fst := by
    intro test same
    have kids : below.crown.filter (test ∘ Prod.fst) = watchers below slot := List.filter_congr same
    rw [← List.head?_filter, kids, single]
    cases found <;> rfl
  rw [BoundTree.watcher?, BoundTree.children_eq distinct has, ← Forest.map_fst_crown, List.find?_map]
  apply first
  rintro ⟨name, label⟩ member
  obtain ⟨deeper, inside⟩ := Forest.has_iff_mem_entries.2 (Forest.crown_subset_entries _ member)
  simp only [BoundTree.get?, (has.trans inside).label?_eq distinct]
  obtain ⟨part, _, _, _⟩ := label
  cases part <;> rfl

section Relink

variable {subscription : Subscription} {owner root : BoundId} {slot : Nat} {rest : List String}
  {model : ModelId} {segment : String} {node : BoundNode Part} {below watches : Bindings}

/-- What is taken away when a path is followed anew is what watches the rest of it. -/
theorem Upholds.watcher_gone (upholds : world.Upholds frame task render former pending owed)
    (has : Forest.Has render.tree.nodes owner node below) (own : subscription ∈ node.ledger)
    (held : world.data.Holds subscription
      (.value (.path ⟨frame.render, owner, root, slot, rest⟩))) :
    below.without (render.tree.watcher? owner slot).toList =
      below.keep fun node => !node.part.watches slot := by
  obtain ⟨_, _, mine⟩ := upholds.sound.renders _ render upholds.known
  obtain ⟨_, _, _, alone⟩ := upholds.fits.at has
  obtain ⟨_, _, _, _, linked, _, _⟩ := alone.linked (standing_single upholds.sound) own held
  obtain ⟨found, there, _⟩ := linked.next
  rw [watcher?_toList mine.distinct has there,
    ← Forest.without_eq_keep (has.nodup mine.distinct).of_cons]
  simp only [Bool.not_not]
  rfl

/-- What is owed while a path is followed anew is still owed: registrations that have ended were there
for that path. -/
theorem Upholds.stale_relinked (upholds : world.Upholds frame task render former owed owed)
    (first : (subscription, .value (.path ⟨frame.render, owner, root, slot, rest⟩)) ∈ owed)
    (held : world.data.Holds subscription
      (.value (.path ⟨frame.render, owner, root, slot, rest⟩)))
    (progress : world.Progress after frame.render render changed) (tidy : after.Sound)
    (has : Forest.Has render.tree.nodes owner node below) (ledger : subscription ∈ node.ledger)
    (nodes : changed.tree.nodes = render.tree.nodes.edit owner (fun node => node) fun below =>
      (below.keep fun node => !node.part.watches slot) ++ watches) {name : BoundId} {position : Nat}
    (excused : (world.standing render.document frame.render former owed owed).stale name position) :
    (after.standing changed.document frame.render former pending owed).stale name position := by
  have sound := upholds.sound
  obtain ⟨_, _, mine⟩ := sound.renders _ render upholds.known
  have here := has.edit mine.distinct (fun node => node) fun below =>
    (below.keep fun node => !node.part.watches slot) ++ watches
  rw [← nodes] at here
  obtain ⟨_, _, _, alone⟩ := upholds.fits.at has
  obtain ⟨_, _, _, _, _, _, inside⟩ := alone.linked (standing_single sound) ledger held
  refine progress.stale sound tidy has nodes rfl (fun _ _ listed _ => listed) ?_ excused
  intro holder mark within registration own observer listed holds target
  rcases Forest.mem_entries_keep (fun node => node.part.watches slot) within with lost | kept
  · obtain ⟨rest, watched⟩ := (inside.keep_slot slot).path_of_watch rfl
      (fun position other => if_neg other) lost own
    obtain rfl := sound.data.unique holds watched
    exact ⟨subscription, _, first, progress.holds sound tidy here.mem_entries ledger held, target⟩
  · have there : (holder, mark) ∈ changed.tree.nodes.entries := here.entries_subset (by simp [kept])
    exact ⟨registration, observer, listed, progress.holds sound tidy there own holds, target⟩

/-- Apart from the watching node that is replaced, what is below the owner of a registration stays. -/
theorem Upholds.relinked (upholds : world.Upholds frame task render former owed owed)
    (whole : owed = (subscription, .value (.path ⟨frame.render, owner, root, slot, rest⟩)) :: pending)
    (held : world.data.Holds subscription
      (.value (.path ⟨frame.render, owner, root, slot, rest⟩)))
    (source : subscription.source = .model model (changeChannel segment))
    (progress : world.Progress after frame.render render changed) (tidy : after.Sound)
    (has : Forest.Has render.tree.nodes owner node below) (ledger : subscription ∈ node.ledger)
    (nodes : changed.tree.nodes = render.tree.nodes.edit owner (fun node => node) fun below =>
      (below.keep fun node => !node.part.watches slot) ++ watches)
    (built : Built world after frame.render render (fun site =>
      site.watch root slot node.scope (world.data.get model segment) rest) watches .nil) :
    after.Upholds frame task changed former pending owed := by
  have sound := upholds.sound
  have first : (subscription, .value (.path ⟨frame.render, owner, root, slot, rest⟩)) ∈ owed :=
    whole ▸ List.mem_cons_self
  have fewer : pending ⊆ owed := whole ▸ List.subset_cons_self _ _
  have late : ∀ other observer, (other, observer) ∈ owed → (other, observer) ∈ pending ∨
      other = subscription ∧ observer.owner? = some (frame.render, owner) := by
    intro other observer listed
    rw [whole] at listed
    rcases List.mem_cons.1 listed with same | later
    · obtain ⟨rfl, rfl⟩ := Prod.mk.inj same
      exact .inr ⟨rfl, rfl⟩
    · exact .inl later
  obtain ⟨_, _, mine⟩ := sound.renders _ render upholds.known
  have here := has.edit mine.distinct (fun node => node) fun below =>
    (below.keep fun node => !node.part.watches slot) ++ watches
  rw [← nodes] at here
  have still : ∀ {other : Subscription} {observer : Observer}, other ∈ node.ledger →
      world.data.Holds other observer → after.data.Holds other observer :=
    progress.holds sound tidy here.mem_entries
  have owes : ∀ name position,
      (world.standing render.document frame.render former owed owed).stale name position →
        (after.standing changed.document frame.render former pending owed).stale name position :=
    fun _ _ => upholds.stale_relinked first held progress tidy has ledger nodes
  apply upholds.exchange progress tidy has nodes (fun _ _ => rfl) (fun _ _ _ => rfl) fewer
    (List.Subset.refl _) fewer
  · exact fun other observer listed _ => (late _ _ listed).imp_right fun told =>
      ⟨owner, told.2, List.mem_cons_self⟩
  · exact fun name position _ _ => owes name position
  · intro root' way tasks fits
    obtain ⟨site, before, later, building, runs, sees⟩ := built.sees upholds progress fewer
    have watched := Site.watch_watched building.own.symm runs building.sound
      (building.agrees.refers.2 (sound.data.values model segment)) sees
    apply fits.relink (standing_single sound) ledger held source
    · apply steady_of_agrees progress.agrees
      · exact fun other own observer => still own
      · exact fun other own observer listed holds => (late _ _ listed).imp
          (fun waiting => ⟨observer, waiting, still own holds⟩) And.left
      · rintro other own _ _ holds (⟨observer, waiting, there⟩ | same)
        · exact ⟨observer, fewer waiting,
            progress.data.holds _ _ there (sound.data.below _ _ holds)⟩
        · rw [same]
          exact ⟨_, first, held⟩
    · exact fun dom shown => progress.look sound tidy has.mem_entries here.mem_entries rfl shown
    · exact progress.agrees
    · exact fun position => owes owner position
    · intro other apart
      rw [watchers_append, watched.others other apart, List.append_nil, watchers_keep,
        List.filter_eq_self]
      rintro ⟨name, mark⟩ listed
      have watching := (List.mem_filter.1 listed).2
      obtain ⟨part, _, _, _⟩ := mark
      cases part <;> simp_all [Part.watches]
    · intro way inner ahead fits
      refine ⟨?_, ?_⟩
      · have kept : Fits frame _ root way inner (below.keep fun node => !node.part.watches slot) :=
          fits.keep fun node calm => by simp [calm slot]
        have less := Forest.keep_entries_subset below fun node => !node.part.watches slot
        have again : Fits frame (after.standing changed.document frame.render former pending owed)
            root way inner (below.keep fun node => !node.part.watches slot) := by
          apply progress.remains sound tidy kept (fun _ listed => has.entries_subset (less listed))
            (fun _ listed => here.entries_subset (by simp [listed])) fewer
          · intro other observer listed _
            refine (late _ _ listed).imp_right fun told => ⟨owner, told.2, fun inside => ?_⟩
            exact (List.nodup_cons.1 (has.nodup mine.distinct)).1 (List.map_subset _ less inside)
          · exact fun name _ => owes name
        simpa using again.append (watched.fits way ahead)
      · obtain ⟨kid, shown, reads⟩ := watched.here
        refine ⟨kid, ?_, ?_⟩
        · rw [watchers_append, shown, watchers_keep]
          simp [BoundForest.watchers, List.filter_filter]
        · rw [reads]
          exact congrArg (Value.next? · rest) (progress.agrees.get model segment).symm

/-- A path is followed anew from what is read there now. -/
theorem Upholds.relink {observer : PathObserver} (behaviour : Behaviour Client)
    (upholds : world.Upholds frame task render former
      ((subscription, .value (.path observer)) :: pending)
      ((subscription, .value (.path observer)) :: pending))
    (own : observer.render = frame.render)
    (held : world.data.Holds subscription (.value (.path observer)))
    (source : subscription.source = .model model (changeChannel segment)) :
    ∃ changed, (world.relink behaviour observer (world.data.get model segment)).Upholds frame task
        changed former pending ((subscription, .value (.path observer)) :: pending) ∧
      (world.relink behaviour observer (world.data.get model segment)).data.Holds subscription
        (.value (.path observer)) := by
  have sound := upholds.sound
  obtain ⟨node, member, mine⟩ := sound.owned upholds.known held
    (congrArg (fun render => some (render, observer.owner)) own)
  obtain ⟨below, has⟩ := Forest.has_iff_mem_entries.2 member
  have known := upholds.known
  rw [← own] at known
  have refers := sound.data.values model segment
  obtain ⟨watches, changed, progress, nodes, built⟩ := relink_stages behaviour sound known has refers
  have tidy := (relink_kept behaviour sound observer refers).sound
  obtain ⟨_, owner, root, slot, rest⟩ := observer
  obtain rfl : _ = frame.render := own
  obtain ⟨_, _, whole⟩ := sound.renders _ render upholds.known
  have gone := upholds.watcher_gone has mine held
  have edits : changed.tree.nodes = render.tree.nodes.edit owner (fun node => node) fun below =>
      (below.keep fun node => !node.part.watches slot) ++ watches :=
    nodes.trans (Forest.edit_congr whole.distinct has rfl (congrArg (· ++ watches) gone))
  have stays := has.edit whole.distinct (fun node => node) fun below =>
    (below.keep fun node => !node.part.watches slot) ++ watches
  rw [← edits] at stays
  exact ⟨changed, upholds.relinked rfl held source progress tidy has mine edits built,
    progress.holds sound tidy stays.mem_entries mine held⟩

end Relink

end World

end LiveTemplate
