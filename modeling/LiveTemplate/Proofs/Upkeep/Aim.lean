import LiveTemplate.Proofs.Upkeep.Renewal
import Mathlib.Data.List.Pairwise

/-!
# What an observer is there for

An observer that brings something up to date is there for a bound node that follows a path in that
slot, and one that has a directive built anew is there for that directive.  This is read off the way
from the render's root down to the bound node that holds the registration.
-/

namespace LiveTemplate

open Template (Node Attribute Path)

namespace BoundForest

theorem shown_perm (forest : Bindings) :
    (shown forest).Perm (forest.entries.filterMap (·.2.dom)) := by
  induction forest with
  | nil => exact .nil
  | cons name node below beside inside others =>
      have own : ([(name, node)].filterMap (·.2.dom)) = node.dom.toList := by
        cases h : node.dom <;> simp [h]
      rw [Forest.entries, ← List.singleton_append, List.filterMap_append, List.filterMap_append, own,
        shown, ← List.append_assoc]
      exact (List.perm_append_comm.trans (inside.append_left _)).append others

/-- No two bound nodes have the same document node. -/
theorem dom_unique {forest : Bindings} (distinct : (shown forest).Nodup)
    {first second : BoundId × BoundNode Part} {dom : NodeId} (here : first ∈ forest.entries)
    (there : second ∈ forest.entries) (own : first.2.dom = some dom)
    (also : second.2.dom = some dom) : first = second := by
  have apart := (shown_perm forest).nodup_iff.1 distinct
  rw [List.Nodup, List.pairwise_filterMap] at apart
  have : Std.Symm fun first second : BoundId × BoundNode Part =>
      ∀ dom, first.2.dom = some dom → ∀ other, second.2.dom = some other → dom ≠ other :=
    ⟨fun _ _ differs dom own other also => (differs other also dom own).symm⟩
  by_contra differs
  exact apart.forall here there differs dom own dom also rfl

end BoundForest

section Aim

variable {frame : Frame} {standing : Standing} {root name goal : BoundId} {way : Nat → List String}
  {task : Task} {tasks full : List Task} {node : BoundNode Part} {forest below : Bindings}
  {subscription : Subscription} {observer : Observer} {render : RenderId} {slot : Nat}

theorem Frame.Covers.subset {kind : BoundKind} {inner : List Task}
    (covers : frame.Covers kind full inner) : inner ⊆ full := by
  rcases covers with rfl | ⟨_, _, _, part⟩
  · exact List.Subset.refl _
  · exact part.subset

/-- Whether an observer has a directive built anew. -/
def Observer.Rebuilds : Observer → Prop
  | .change (.rebuild ..) => True
  | .value (.client _) | .value (.path _) | .change (.client _) | .change (.splice ..) => False

/-- An observer is there for the bound node that holds it, or for the directive above. -/
theorem Local.aimed (here : Local frame standing root name task node below full)
    (single : standing.Single) (own : subscription ∈ node.ledger)
    (holds : standing.holds subscription observer)
    (target : observer.target? = some (render, goal, slot)) :
    (goal = name ∧ (∃ path, node.part.path? slot = some path) ∧ ¬ observer.Rebuilds) ∨
      goal = root ∧ slot = 0 ∧ ∃ shows observed, task = .content shows observed ∧ observed ≠ [] := by
  have followed : ∀ {model : ModelId} {part : Part} {ledger : List Subscription},
      Follows frame standing name model part ledger below → subscription ∈ ledger →
        goal = name ∧ (∃ path, part.path? slot = some path) ∧ ¬ observer.Rebuilds := by
    intro model part ledger follows member
    obtain ⟨⟨position, path⟩, listed, linked⟩ := exists_of_mem_forall₂ follows member
    obtain rfl := single _ _ _ holds linked.holds
    simp only [Observer.target?, Option.some.injEq, Prod.mk.injEq] at target
    obtain ⟨-, rfl, rfl⟩ := target
    exact ⟨rfl, ⟨path, Part.mem_followed.1 listed⟩, id⟩
  cases here with
  | element _ _ _ follows => exact .inl (followed follows own)
  | text _ _ _ follows => exact .inl (followed follows own)
  | switch _ _ _ follows => exact .inl (followed follows own)
  | view | item | unfinished => cases own
  | content observes =>
      obtain ⟨collection, listed, _, other⟩ := exists_of_mem_forall₂ observes own
      obtain rfl := single _ _ _ holds other
      simp only [Observer.target?, Option.some.injEq, Prod.mk.injEq] at target
      obtain ⟨-, rfl, rfl⟩ := target
      exact .inr ⟨rfl, rfl, _, _, rfl, List.ne_nil_of_mem listed⟩
  | list _ _ other _ =>
      obtain rfl := List.mem_singleton.1 own
      obtain rfl := single _ _ _ holds other
      cases target

/-- Only directives call for contents. -/
theorem Local.directive_of_content (here : Local frame standing root name task node below full)
    (proper : task.Proper frame) {shows : List Task} {observed : List CollectionId}
    (called : .content shows observed ∈ full) :
    node.kind = .switch ∧ ∃ path, node.part.path? 0 = some path := by
  cases here with
  | switch => exact ⟨rfl, _, rfl⟩
  | content =>
      cases proper with
      | content _ plain => exact (plain _ _ called).elim
  | view => simp at called
  | element | text | item | list | unfinished => simp at called

/-- An observer is there for a bound node that follows a path in that slot, unless it is there for the
one above. -/
theorem Fits.aimed (fits : Fits frame standing root way tasks forest) (single : standing.Single)
    (member : (name, node) ∈ forest.entries) (own : subscription ∈ node.ledger)
    (holds : standing.holds subscription observer)
    (target : observer.target? = some (render, goal, slot)) :
    (goal = root ∧ (way slot ≠ [] ∧ ¬ observer.Rebuilds ∨ slot = 0 ∧ ∃ shows observed,
        .content shows observed ∈ tasks ∧ observed ≠ [])) ∨
      ∃ node below path, Forest.Has forest goal node below ∧ node.part.path? slot = some path ∧
        (observer.Rebuilds → node.kind = .switch) := by
  induction fits with
  | nil => cases member
  | @watch root first way tasks position segment later told scope below beside ahead linked _ _ inside
      others =>
      simp only [Forest.entries, List.mem_cons, List.mem_append] at member
      rcases member with here | deeper | beyond
      · obtain ⟨rfl, rfl⟩ := Prod.mk.inj here
        obtain rfl := List.mem_singleton.1 own
        obtain rfl := single _ _ _ holds linked.holds
        simp only [Observer.target?, Option.some.injEq, Prod.mk.injEq] at target
        obtain ⟨-, rfl, rfl⟩ := target
        exact .inl ⟨rfl, .inl ⟨by simp [ahead], id⟩⟩
      · rcases inside deeper with ⟨rfl, ⟨more, plain⟩ | ⟨_, _, _, nothing, _⟩⟩ |
          ⟨found, under, path, has, calls⟩
        · refine .inl ⟨rfl, .inl ⟨?_, plain⟩⟩
          by_cases same : slot = position
          · rw [same, ahead]
            exact List.cons_ne_nil _ _
          · exact (more (if_neg same)).elim
        · cases nothing
        · exact .inr ⟨found, under, path, .inr (.inl has), calls⟩
      · rcases others beyond with above | ⟨found, under, path, has, calls⟩
        · exact .inl above
        · exact .inr ⟨found, under, path, .inr (.inr has), calls⟩
  | @cons root first way task tasks full inner mark below beside proper here covers _ _ inside others =>
      simp only [Forest.entries, List.mem_cons, List.mem_append] at member
      rcases member with now | deeper | beyond
      · obtain ⟨rfl, rfl⟩ := Prod.mk.inj now
        rcases here.aimed single own holds target with
          ⟨rfl, ⟨path, calls⟩, plain⟩ | ⟨rfl, rfl, _, _, rfl, more⟩
        · exact .inr ⟨_, _, path, .inl ⟨rfl, rfl, rfl⟩, calls, fun other => (plain other).elim⟩
        · exact .inl ⟨rfl, .inr ⟨rfl, _, _, List.mem_cons_self, more⟩⟩
      · rcases inside deeper with ⟨rfl, ⟨more, plain⟩ | ⟨rfl, _, _, called, _⟩⟩ |
          ⟨found, under, path, has, calls⟩
        · cases calls : mark.part.path? slot with
          | none => simp [Part.way, calls] at more
          | some path =>
              exact .inr ⟨_, _, path, .inl ⟨rfl, rfl, rfl⟩, calls, fun other => (plain other).elim⟩
        · obtain ⟨kind, path, calls⟩ := here.directive_of_content proper (covers.subset called)
          exact .inr ⟨_, _, path, .inl ⟨rfl, rfl, rfl⟩, calls, fun _ => kind⟩
        · exact .inr ⟨found, under, path, .inr (.inl has), calls⟩
      · rcases others beyond with ⟨rfl, above⟩ | ⟨found, under, path, has, calls⟩
        · refine .inl ⟨rfl, above.imp_right ?_⟩
          rintro ⟨rfl, shows, observed, called, more⟩
          exact ⟨rfl, shows, observed, List.mem_cons_of_mem _ called, more⟩
        · exact .inr ⟨found, under, path, .inr (.inr has), calls⟩

/-- A path is followed to show something in place, or by a directive. -/
theorem Part.shown_of_path? {part : Part} {path : Path} (follows : part.path? slot = some path) :
    (∃ display, part.shown? slot = some (path, display) ∧
        part.display? slot = some (display, .bound path)) ∨
      slot = 0 ∧ ∃ directive shown, part = .switch directive shown := by
  match part with
  | .text (.bound _) =>
      simp only [Part.path?] at follows
      split at follows
      · rename_i here
        obtain rfl := Option.some.inj follows
        exact .inl ⟨.text, rfl, if_pos here⟩
      · cases follows
  | .element attributes =>
      simp only [Part.path?] at follows
      split at follows
      · rename_i display _ calls
        obtain rfl := Option.some.inj follows
        obtain ⟨entry, there, called⟩ := Option.bind_eq_some_iff.1 calls
        refine .inl ⟨display, ?_, calls⟩
        simp only [Part.shown?, there]
        cases entry <;> simp_all [Attribute.display?]
      · cases follows
  | .switch directive shown =>
      simp only [Part.path?] at follows
      split at follows
      · rename_i here
        exact .inr ⟨here, directive, shown, rfl⟩
      · cases follows
  | .text (.literal _) | .list .. | .group | .watch _ | .view _ => cases follows

theorem Fits.watch_of_mem (fits : Fits frame standing root way tasks forest) (nothing : tasks = [])
    (member : (name, node) ∈ forest.entries) : ∃ slot, node.part = .watch slot := by
  induction fits with
  | nil => cases member
  | watch _ _ _ _ inside others =>
      simp only [Forest.entries, List.mem_cons, List.mem_append] at member
      rcases member with here | deeper | beyond
      · obtain ⟨rfl, rfl⟩ := Prod.mk.inj here
        exact ⟨_, rfl⟩
      · exact inside rfl deeper
      · exact others nothing beyond
  | cons => cases nothing

theorem Fits.directive_proper {directive : Directive} {shown : Option Bool} {dom : Option NodeId}
    {ledger : List Subscription} {scope : Scope}
    (fits : Fits frame standing root way tasks
      (.cons name ⟨.switch directive shown, dom, ledger, scope⟩ below .nil)) :
    (Node.directive directive.rule directive.path directive.body).Proper frame.known
      frame.strict := by
  cases fits with
  | cons proper here _ _ _ =>
      cases here with
      | switch =>
          cases proper with
          | node proper => exact proper

end Aim

end LiveTemplate
