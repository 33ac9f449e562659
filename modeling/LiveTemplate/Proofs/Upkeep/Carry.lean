import LiveTemplate.Proofs.Forest.Exchange
import LiveTemplate.Proofs.Matching
import LiveTemplate.Proofs.Upkeep.Fit

/-!
# How things may come to stand otherwise

Bound nodes that fit still fit when things stand otherwise, as long as nothing changes for each of
them, and when one of them is exchanged for one that fits as well.
-/

namespace LiveTemplate

namespace BoundForest

variable {bound more : Bindings} {slot : Nat}

@[simp] theorem watchers_nil : watchers .nil slot = [] := rfl

theorem watchers_cons (name : BoundId) (node : BoundNode Part) (below beside : Bindings) :
    watchers (.cons name node below beside) slot =
      (if node.part.watches slot then [(name, node)] else []) ++ watchers beside slot := by
  by_cases here : node.part.watches slot = true <;> simp [watchers, Forest.crown, here]

theorem watchers_single {name : BoundId} {node : BoundNode Part} {below : Bindings}
    (watching : node.part.watches slot = true) :
    watchers (.cons name node below .nil) slot = [(name, node)] := by
  rw [watchers_cons, if_pos watching]
  rfl

@[simp] theorem watchers_append :
    watchers (bound ++ more) slot = watchers bound slot ++ watchers more slot := by
  simp [watchers]

theorem watchers_keep (bound : Bindings) (kept : BoundNode Part → Bool) (slot : Nat) :
    watchers (Forest.keep bound kept) slot =
      (watchers bound slot).filter fun entry => kept entry.2 := by
  simp only [watchers, Forest.crown_keep, List.filter_filter, Bool.and_comm]

/-- An exchange that spares watching nodes. -/
theorem watchers_edit (bound : Bindings) {target : BoundId}
    {label : BoundNode Part → BoundNode Part} (change : Bindings → Bindings)
    (other : ∀ node, (label node).part.watches slot = node.part.watches slot)
    (same : ∀ node, node.part.watches slot = true → label node = node) :
    watchers (Forest.edit bound target label change) slot = watchers bound slot := by
  induction bound with
  | nil => rfl
  | cons name node below beside _ induction =>
      by_cases here : name = target
      · simp only [Forest.edit, if_pos here, watchers_cons, induction, other]
        by_cases watching : node.part.watches slot = true
        · rw [same node watching]
        · simp [watching]
      · simp only [Forest.edit, if_neg here, watchers_cons, induction]

end BoundForest

open BoundForest (watchers watchers_edit)

/-- Nothing changes for the registrations of a bound node, unless they are late afterwards. -/
structure Steady (standing later : Standing) (node : BoundNode Part) : Prop where
  holds : ∀ subscription ∈ node.ledger, ∀ observer, standing.holds subscription observer →
    later.holds subscription observer
  next : ∀ subscription ∈ node.ledger, ∀ observer : PathObserver,
    standing.holds subscription (.value (.path observer)) → observer.rest ≠ [] → ∀ model segment,
      subscription.source = .model model (changeChannel segment) → ¬ later.late subscription →
        ¬ standing.late subscription ∧
          later.data.get model segment = standing.data.get model segment
  lists : ∀ subscription ∈ node.ledger, ∀ render list,
    standing.holds subscription (.change (.splice render list)) → ∀ collection items,
      subscription.source = .collection collection → standing.Lists subscription collection items →
        later.Lists subscription collection items

/-- Nothing changes for a bound node, unless something is late or stale afterwards. -/
structure Carries (standing later : Standing) (name : BoundId) (node : BoundNode Part) : Prop
    extends Steady standing later node where
  look : ∀ dom, node.dom = some dom → later.look dom = standing.look dom
  shows : ∀ slot display path, node.part.display? slot = some (display, .bound path) →
    ¬ later.stale name slot → ¬ standing.stale name slot ∧
      ∀ contents, later.data.outcome contents display node.scope.model path =
        standing.data.outcome contents display node.scope.model path
  wanted : ∀ directive shown, node.part = .switch directive shown → ¬ later.stale name 0 →
    ¬ standing.stale name 0 ∧
      ∀ outcome, standing.data.Wants directive node.scope.model node.scope.depth outcome →
        later.data.Wants directive node.scope.model node.scope.depth outcome

section Carry

variable {frame : Frame} {standing later : Standing} {root name : BoundId} {way : Nat → List String}
  {task : Task} {tasks more inner : List Task} {node : BoundNode Part}
  {forest below changed beside : Bindings}

theorem Linked.carry {slot : Nat} {subscription : Subscription} {model : ModelId} {segment : String}
    {rest : List String}
    (linked : Linked frame standing name root slot subscription model segment rest below)
    (steady : Steady standing later node) (member : subscription ∈ node.ledger)
    (same : watchers changed slot = watchers below slot) :
    Linked frame later name root slot subscription model segment rest changed where
  source := linked.source
  holds := steady.holds _ member _ linked.holds
  next := by
    obtain ⟨found, there, current⟩ := linked.next
    refine ⟨found, same.trans there, ?_⟩
    by_cases late : rest ≠ [] ∧ later.late subscription
    · exact .inl late
    · cases rest with
      | nil => exact .inr (current.resolve_left fun excused => excused.1 rfl)
      | cons next beyond =>
          obtain ⟨notLate, read⟩ := steady.next _ member _ linked.holds nofun _ _ linked.source
            fun excused => late ⟨nofun, excused⟩
          rw [read]
          exact .inr (current.resolve_left fun excused => notLate excused.2)

theorem Follows.carry {model : ModelId} {part : Part} {ledger : List Subscription}
    (follows : Follows frame standing name model part ledger below)
    (steady : Steady standing later node) (own : ledger ⊆ node.ledger)
    (same : ∀ slot, watchers changed slot = watchers below slot) :
    Follows frame later name model part ledger changed := by
  apply forall₂_imp_mem follows
  intro subscription member entry linked
  exact linked.carry steady (own member) (same _)

theorem Wears.carry {data : NodeData} (wears : Wears standing name node.scope.model node.part data)
    (carries : Carries standing later name node) :
    Wears later name node.scope.model node.part data where
  neat := wears.neat
  written := wears.written
  shows := by
    intro slot display path shown
    by_cases stale : later.stale name slot
    · exact .inl stale
    · obtain ⟨notStale, same⟩ := carries.shows slot display path shown stale
      obtain ⟨contents, there⟩ := (wears.shows slot display path shown).resolve_left notStale
      exact .inr ⟨contents, same contents ▸ there⟩

theorem Local.carry (here : Local frame standing root name task node below inner)
    (carries : Carries standing later name node)
    (same : ∀ slot, watchers changed slot = watchers below slot) :
    Local frame later root name task node changed inner := by
  cases here with
  | element look kind wears follows =>
      exact .element ((carries.look _ rfl).trans look) kind
        (fun strict => (wears strict).carry carries)
        (follows.carry carries.toSteady (List.Subset.refl _) same)
  | text look kind wears follows =>
      exact .text ((carries.look _ rfl).trans look) kind (wears.carry carries)
        (follows.carry carries.toSteady (List.Subset.refl _) same)
  | switch look possible wanted follows =>
      refine .switch ((carries.look _ rfl).trans look) possible ?_
        (follows.carry carries.toSteady (List.Subset.refl _) same)
      by_cases stale : later.stale name 0
      · exact .inl stale
      · obtain ⟨notStale, same⟩ := carries.wanted _ _ rfl stale
        exact .inr (same _ (wanted.resolve_left notStale))
  | view found room => exact .view found room
  | content observes =>
      apply Local.content
      apply forall₂_imp_mem observes
      intro subscription member collection
      rintro ⟨source, holds⟩
      exact ⟨source, carries.holds _ member _ holds⟩
  | item => exact .item
  | list look source holds lists =>
      exact .list ((carries.look _ rfl).trans look) source
        (carries.holds _ (List.mem_singleton_self _) _ holds)
        (carries.lists _ (List.mem_singleton_self _) _ _ holds _ _ source lists)
  | unfinished look failed => exact .unfinished ((carries.look _ rfl).trans look) failed

theorem Fits.append (fits : Fits frame standing root way tasks forest)
    (also : Fits frame standing root way more beside) :
    Fits frame standing root way (tasks ++ more) (forest ++ beside) := by
  induction fits with
  | nil => exact also
  | watch ahead linked inside _ _ induction => exact .watch ahead linked inside (induction also)
  | cons proper here covers inside _ _ induction =>
      exact .cons proper here covers inside (induction also)

theorem Fits.after_watches (fits : Fits frame standing root way [] forest)
    (also : Fits frame standing root way tasks beside) :
    Fits frame standing root way tasks (forest ++ beside) :=
  fits.append also

theorem Fits.carry (fits : Fits frame standing root way tasks forest)
    (carries : ∀ name node, (name, node) ∈ forest.entries → Carries standing later name node) :
    Fits frame later root way tasks forest := by
  induction fits with
  | nil => exact .nil
  | watch ahead linked _ _ inside others =>
      simp only [Forest.entries, List.mem_cons, List.mem_append] at carries
      apply Fits.watch ahead
      · exact linked.carry (carries _ _ (.inl rfl)).toSteady (List.mem_singleton_self _) rfl
      · exact inside fun name node member => carries name node (.inr (.inl member))
      · exact others fun name node member => carries name node (.inr (.inr member))
  | cons proper here covers _ _ inside others =>
      simp only [Forest.entries, List.mem_cons, List.mem_append] at carries
      apply Fits.cons proper
      · exact here.carry (carries _ _ (.inl rfl)) fun _ => rfl
      · exact covers
      · exact inside fun name node member => carries name node (.inr (.inl member))
      · exact others fun name node member => carries name node (.inr (.inr member))

/-- One bound node is exchanged for another that fits as well; for those that are not below it,
nothing changes. -/
theorem Fits.edit {target : BoundId} {label : BoundNode Part → BoundNode Part}
    {change : Bindings → Bindings} (fits : Fits frame standing root way tasks forest)
    (other : ∀ node slot, (label node).part.watches slot = node.part.watches slot)
    (same : ∀ node slot, node.part.watches slot = true → label node = node)
    (carries : ∀ name node, name ≠ target →
      (name, node) ∈ (forest.modifyUnder target fun _ => .nil).entries →
        Carries standing later name node)
    (there : ∀ root way tasks node below, forest.Has target node below →
      Fits frame standing root way tasks (.cons target node below .nil) →
        Fits frame later root way tasks (.cons target (label node) (change below) .nil)) :
    Fits frame later root way tasks (forest.edit target label change) := by
  have kept : ∀ (bound : Bindings) (slot : Nat),
      watchers (bound.edit target label change) slot = watchers bound slot :=
    fun bound slot => watchers_edit bound change (fun node => other node slot)
      fun node => same node slot
  induction fits with
  | nil => exact .nil
  | @watch root name way tasks slot segment rest subscription scope below beside ahead linked inside
      _ deeper others =>
      simp only [Forest.modifyUnder, Forest.entries, List.mem_cons, List.mem_append] at carries
      have further := others (fun name node apart member => carries name node apart
        (.inr (.inr member))) fun root way tasks node below has => there root way tasks node below
          (.inr (.inr has))
      by_cases here : name = target
      · subst here
        have exchanged := there root way [] _ below (.inl ⟨rfl, rfl, rfl⟩)
          (.watch ahead linked inside .nil)
        simpa [Forest.edit] using exchanged.append further
      · simp only [if_neg here] at carries
        simp only [Forest.edit, if_neg here]
        apply Fits.watch ahead
        · exact linked.carry (carries _ _ here (.inl rfl)).toSteady (List.mem_singleton_self _)
            (kept below _)
        · exact deeper (fun name node apart member => carries name node apart (.inr (.inl member)))
            fun root way tasks node below has => there root way tasks node below (.inr (.inl has))
        · exact further
  | @cons root name way task tasks full inner node below beside proper local_ covers inside _ deeper
      others =>
      simp only [Forest.modifyUnder, Forest.entries, List.mem_cons, List.mem_append] at carries
      have further := others (fun name node apart member => carries name node apart
        (.inr (.inr member))) fun root way tasks node below has => there root way tasks node below
          (.inr (.inr has))
      by_cases here : name = target
      · subst here
        have exchanged := there root way [task] _ below (.inl ⟨rfl, rfl, rfl⟩)
          (.cons proper local_ covers inside .nil)
        simpa [Forest.edit] using exchanged.append further
      · simp only [if_neg here] at carries
        simp only [Forest.edit, if_neg here]
        apply Fits.cons proper
        · exact local_.carry (carries _ _ here (.inl rfl)) (kept below)
        · exact covers
        · exact deeper (fun name node apart member => carries name node apart (.inr (.inl member)))
            fun root way tasks node below has => there root way tasks node below (.inr (.inl has))
        · exact further

end Carry

end LiveTemplate
