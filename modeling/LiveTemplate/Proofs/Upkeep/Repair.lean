import LiveTemplate.Proofs.Upkeep.Carry

/-!
# Bringing one bound node up to date

Each kind of reaction exchanges one bound node: its path is followed anew, what it shows is shown
anew, what a directive calls for is built anew, or a list follows a change.  Afterwards the node fits
again.
-/

namespace LiveTemplate

open Template (Attribute Path)
open BoundForest (watchers watchers_cons)

namespace Part

theorem mem_paths {slot position : Nat} {path : Path} {attributes : List Attribute} :
    (position, path) ∈ paths slot attributes ↔ slot ≤ position ∧ ∃ display,
      attributes[position - slot]?.bind Attribute.display? = some (display, .bound path) := by
  induction attributes generalizing slot with
  | nil => simp [paths]
  | cons entry later induction =>
      simp only [paths, List.mem_append, induction]
      by_cases here : position = slot
      · subst here
        have apart : ¬ position + 1 ≤ position := by omega
        simp only [apart, false_and, or_false, Nat.sub_self, List.getElem?_cons_zero,
          Option.bind_some, Nat.le_refl, true_and]
        cases entry.display? with
        | none => simp
        | some pair =>
            obtain ⟨display, expression⟩ := pair
            cases expression <;> simp [eq_comm]
      · rw [or_iff_right (by split <;> simp [here])]
        constructor
        · rintro ⟨beyond, display, found⟩
          obtain ⟨more, rfl⟩ : ∃ more, position = slot + 1 + more := ⟨position - (slot + 1), by omega⟩
          refine ⟨by omega, display, ?_⟩
          rw [show slot + 1 + more - slot = more + 1 by omega, List.getElem?_cons_succ]
          simpa using found
        · rintro ⟨beyond, display, found⟩
          obtain ⟨more, rfl⟩ : ∃ more, position = slot + 1 + more := ⟨position - (slot + 1), by omega⟩
          refine ⟨by omega, display, ?_⟩
          rw [show slot + 1 + more - slot = more + 1 by omega, List.getElem?_cons_succ] at found
          simpa using found

theorem mem_followed {part : Part} {slot : Nat} {path : Path} :
    (slot, path) ∈ part.followed ↔ part.path? slot = some path := by
  match part with
  | .text (.literal _) => simp [followed, path?]
  | .text (.bound other) => simp [followed, path?, eq_comm]
  | .element attributes =>
      simp only [followed, mem_paths, path?, Nat.zero_le, true_and, Nat.sub_zero]
      constructor
      · rintro ⟨display, found⟩
        rw [found]
      · intro found
        split at found
        · rename_i display path equal
          exact ⟨display, by rw [equal, Option.some.inj found]⟩
        · cases found
  | .switch directive _ => simp [followed, path?, eq_comm]
  | .list .. | .group | .watch _ | .view _ => simp [followed, path?]

theorem way_of_path? {part : Part} {slot : Nat} {path : Path} (found : part.path? slot = some path) :
    part.way slot = path.tail := by
  rw [way, found]

end Part

/-- A registration counts as late. -/
def Standing.owing (standing : Standing) (subscription : Subscription) : Standing :=
  { standing with late := fun other => standing.late other ∨ other = subscription }

section Keep

variable {frame : Frame} {standing later : Standing} {root name : BoundId} {way : Nat → List String}
  {task : Task} {tasks inner : List Task} {node : BoundNode Part} {forest below changed : Bindings}
  {slot : Nat}

theorem Local.watches_eq_false (here : Local frame standing root name task node below inner)
    (slot : Nat) : node.part.watches slot = false := by
  cases here <;> rfl

/-- Watching nodes may be taken away. -/
theorem Fits.keep {kept : BoundNode Part → Bool}
    (spares : ∀ node : BoundNode Part, (∀ slot, node.part.watches slot = false) → kept node = true)
    (fits : Fits frame standing root way tasks forest) :
    Fits frame standing root way tasks (forest.keep kept) := by
  induction fits with
  | nil => exact .nil
  | watch ahead linked inside _ _ others =>
      rw [Forest.keep]
      split
      · exact .watch ahead linked inside others
      · exact others
  | cons proper here covers inside _ _ others =>
      rw [Forest.keep, if_pos (spares _ here.watches_eq_false)]
      exact .cons proper here covers inside others

/-- Everything but watching nodes may be taken away. -/
theorem Fits.keep_watches (fits : Fits frame standing root way tasks forest) :
    Fits frame standing root way [] (forest.keep fun node => node.kind == .watch) := by
  induction fits with
  | nil => exact .nil
  | watch ahead linked inside _ _ others => exact .watch ahead linked inside others
  | cons _ here _ _ _ _ others =>
      rw [Forest.keep, if_neg]
      · exact others
      · cases here <;> simp [BoundNode.kind, HasBoundKind.kind, Part.kind]

theorem Fits.watchers_eq_nil (fits : Fits frame standing root way tasks forest)
    (ahead : way slot = []) : watchers forest slot = [] := by
  induction fits with
  | nil => rfl
  | @watch _ _ _ _ position _ _ _ _ _ _ more _ _ _ _ others =>
      have apart : position ≠ slot := by
        rintro rfl
        rw [ahead] at more
        cases more
      rw [watchers_cons, others ahead]
      simp [Part.watches, apart]
  | cons _ here _ _ _ _ others => simp [watchers_cons, here.watches_eq_false, others ahead]

/-! ## Following a path anew -/

theorem Linked.relink {owner : BoundId} {subscription other : Subscription} {model : ModelId}
    {segment : String} {rest : List String} {position : Nat}
    (linked : Linked frame standing owner root position other model segment rest below)
    (steady : Steady standing (later.owing subscription) node) (member : other ∈ node.ledger)
    (apart : other ≠ subscription)
    (same : watchers changed position = watchers below position) :
    Linked frame later owner root position other model segment rest changed := by
  have carried := linked.carry steady member same
  refine ⟨carried.source, carried.holds, ?_⟩
  obtain ⟨found, there, excused⟩ := carried.next
  refine ⟨found, there, excused.imp_left fun late => ⟨late.1, ?_⟩⟩
  exact late.2.resolve_right apart

theorem changeChannel_injective {first second : String}
    (same : changeChannel first = changeChannel second) : first = second := by
  have lists := congrArg String.toList same
  simp only [changeChannel, String.toList_append, List.append_cancel_left_eq] at lists
  exact String.toList_inj.1 lists

/-- No registration has two observers. -/
def Standing.Single (standing : Standing) : Prop :=
  ∀ subscription observer other, standing.holds subscription observer →
    standing.holds subscription other → observer = other

section Relink

variable {model : ModelId} {part : Part} {ledger : List Subscription}
  {subscription : Subscription} {path : Path} {rest : List String} {owner : BoundId}

/-- The path that a registration of a bound node is there for. -/
theorem Follows.path_of_holds (follows : Follows frame standing name model part ledger below)
    (single : standing.Single) (member : subscription ∈ ledger)
    (holds : standing.holds subscription (.value (.path ⟨frame.render, name, root, slot, rest⟩))) :
    root = name ∧ ∃ path, part.path? slot = some path ∧ rest = path.tail ∧
      Linked frame standing name name slot subscription model path.head path.tail below := by
  obtain ⟨⟨position, path⟩, listed, linked⟩ := exists_of_mem_forall₂ follows member
  have told := single _ _ _ holds linked.holds
  simp only [Observer.value.injEq, ValueObserver.path.injEq, PathObserver.mk.injEq, true_and] at told
  obtain ⟨rfl, rfl, rfl⟩ := told
  exact ⟨rfl, path, Part.mem_followed.1 listed, rfl, linked⟩

theorem Local.path_of_holds (here : Local frame standing root name task node below inner)
    (single : standing.Single) (member : subscription ∈ node.ledger)
    (holds : standing.holds subscription (.value (.path ⟨frame.render, name, owner, slot, rest⟩))) :
    owner = name ∧ ∃ path, node.part.path? slot = some path ∧ rest = path.tail ∧
      Linked frame standing name name slot subscription node.scope.model path.head path.tail
        below := by
  cases here with
  | element _ _ _ follows => exact follows.path_of_holds single member holds
  | text _ _ _ follows => exact follows.path_of_holds single member holds
  | switch _ _ _ follows => exact follows.path_of_holds single member holds
  | view | item | unfinished => cases member
  | content observes =>
      obtain ⟨collection, _, _, other⟩ := exists_of_mem_forall₂ observes member
      cases single _ _ _ holds other
  | list _ _ other _ =>
      obtain rfl := List.mem_singleton.1 member
      cases single _ _ _ holds other

theorem Follows.relink (follows : Follows frame standing name model part ledger below)
    (single : standing.Single) (own : ledger ⊆ node.ledger) (found : part.path? slot = some path)
    (holds : standing.holds subscription
      (.value (.path ⟨frame.render, name, name, slot, path.tail⟩)))
    (steady : Steady standing (later.owing subscription) node)
    (others : ∀ other, other ≠ slot → watchers changed other = watchers below other)
    (next : ∃ found : Option (BoundId × BoundNode Part), watchers changed slot = found.toList ∧
      found.map (·.2.scope.model) = (later.data.get model path.head).next? path.tail) :
    Follows frame later name model part ledger changed := by
  unfold Follows at follows ⊢
  rw [List.forall₂_iff_zip] at follows ⊢
  refine ⟨follows.1, ?_⟩
  intro other entry zipped
  have there := follows.2 zipped
  by_cases same : entry.1 = slot
  · have also := Part.mem_followed.1 (List.of_mem_zip zipped).2
    rw [same, found] at also
    obtain rfl := Option.some.inj also
    obtain ⟨kid, below, reads⟩ := next
    exact ⟨there.source, steady.holds _ (own (List.of_mem_zip zipped).1) _ there.holds,
      kid, same ▸ below, .inr reads⟩
  · apply there.relink steady (own (List.of_mem_zip zipped).1)
    · rintro rfl
      have told := single _ _ _ there.holds holds
      simp only [Observer.value.injEq, ValueObserver.path.injEq, PathObserver.mk.injEq] at told
      exact same told.2.2.2.1
    · exact others _ same

theorem Wears.mono {data : NodeData} (wears : Wears standing name model part data)
    (agrees : standing.data.Agrees later.data)
    (stale : ∀ slot, standing.stale name slot → later.stale name slot) :
    Wears later name model part data where
  neat := wears.neat
  written := wears.written
  shows := by
    intro slot display path shown
    simp only [agrees.outcome]
    exact (wears.shows slot display path shown).imp_left (stale slot)

theorem Local.relink (here : Local frame standing root name task node below inner)
    (single : standing.Single) (found : node.part.path? slot = some path)
    (holds : standing.holds subscription
      (.value (.path ⟨frame.render, name, name, slot, path.tail⟩)))
    (steady : Steady standing (later.owing subscription) node)
    (unseen : ∀ dom, node.dom = some dom → later.look dom = standing.look dom)
    (agrees : standing.data.Agrees later.data)
    (stale : ∀ slot, standing.stale name slot → later.stale name slot)
    (others : ∀ other, other ≠ slot → watchers changed other = watchers below other)
    (next : ∃ found : Option (BoundId × BoundNode Part), watchers changed slot = found.toList ∧
      found.map (·.2.scope.model) = (later.data.get node.scope.model path.head).next? path.tail) :
    Local frame later root name task node changed inner := by
  cases here with
  | element look kind wears follows =>
      exact .element ((unseen _ rfl).trans look) kind (fun strict => (wears strict).mono agrees stale)
        (follows.relink single (List.Subset.refl _) found holds steady others next)
  | text look kind wears follows =>
      exact .text ((unseen _ rfl).trans look) kind (wears.mono agrees stale)
        (follows.relink single (List.Subset.refl _) found holds steady others next)
  | switch look possible wanted follows =>
      exact .switch ((unseen _ rfl).trans look) possible
        (wanted.imp (stale 0) agrees.wants)
        (follows.relink single (List.Subset.refl _) found holds steady others next)
  | view | content | item | list | unfinished => cases found

/-- What a registration on a path is there for. -/
theorem Fits.linked (fits : Fits frame standing root way tasks (.cons name node below .nil))
    (single : standing.Single) (member : subscription ∈ node.ledger)
    (holds : standing.holds subscription
      (.value (.path ⟨frame.render, name, owner, slot, rest⟩))) :
    ∃ model segment ahead inner,
      Linked frame standing name owner slot subscription model segment rest below ∧
        ahead slot = rest ∧ Fits frame standing owner ahead inner below := by
  cases fits with
  | watch ahead linked inside _ =>
      obtain rfl := List.mem_singleton.1 member
      have told := single _ _ _ holds linked.holds
      simp only [Observer.value.injEq, ValueObserver.path.injEq, PathObserver.mk.injEq,
        true_and] at told
      obtain ⟨rfl, rfl, rfl⟩ := told
      exact ⟨_, _, _, _, linked, if_pos rfl, inside⟩
  | cons _ here _ inside _ =>
      obtain ⟨rfl, path, found, rfl, linked⟩ := here.path_of_holds single member holds
      exact ⟨_, _, _, _, linked, Part.way_of_path? found, inside⟩

/-- The path of a bound node is followed anew from one of its segments on. -/
theorem Fits.relink {holder : ModelId} {segment : String}
    (fits : Fits frame standing root way tasks (.cons name node below .nil))
    (single : standing.Single) (member : subscription ∈ node.ledger)
    (holds : standing.holds subscription (.value (.path ⟨frame.render, name, owner, slot, rest⟩)))
    (source : subscription.source = .model holder (changeChannel segment))
    (steady : Steady standing (later.owing subscription) node)
    (unseen : ∀ dom, node.dom = some dom → later.look dom = standing.look dom)
    (agrees : standing.data.Agrees later.data)
    (stale : ∀ slot, standing.stale name slot → later.stale name slot)
    (others : ∀ other, other ≠ slot → watchers changed other = watchers below other)
    (inside : ∀ way inner, way slot = rest → Fits frame standing owner way inner below →
      Fits frame later owner way inner changed ∧
        ∃ found : Option (BoundId × BoundNode Part), watchers changed slot = found.toList ∧
          found.map (·.2.scope.model) = (later.data.get holder segment).next? rest) :
    Fits frame later root way tasks (.cons name node changed .nil) := by
  cases fits with
  | watch ahead linked beyond nothing =>
      obtain rfl := List.mem_singleton.1 member
      have told := single _ _ _ holds linked.holds
      simp only [Observer.value.injEq, ValueObserver.path.injEq, PathObserver.mk.injEq,
        true_and] at told
      obtain ⟨rfl, rfl, rfl⟩ := told
      have here := linked.source
      rw [source] at here
      obtain ⟨rfl, channel⟩ := Source.model.inj here
      obtain rfl := changeChannel_injective channel
      obtain ⟨again, kid, there, reads⟩ := inside _ [] (if_pos rfl) beyond
      cases nothing
      refine .watch ahead ⟨source, ?_, kid, there, .inr reads⟩ again .nil
      exact steady.holds _ (List.mem_singleton_self _) _ linked.holds
  | cons proper here covers beyond nothing =>
      obtain ⟨rfl, path, found, rfl, linked⟩ := here.path_of_holds single member holds
      have origin := linked.source
      rw [source] at origin
      obtain ⟨rfl, channel⟩ := Source.model.inj origin
      obtain rfl := changeChannel_injective channel
      obtain ⟨again, next⟩ := inside _ _ (Part.way_of_path? found) beyond
      cases nothing
      exact .cons proper (here.relink single found holds steady unseen agrees stale others next) covers
        again .nil

end Relink

end Keep

end LiveTemplate
