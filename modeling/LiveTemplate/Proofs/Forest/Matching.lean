import LiveTemplate.Proofs.Forest.Graft
import Mathlib.Data.List.Forall2

/-!
# Forests that match

Two forests match if they have the same shape and their nodes match one by one, except that some trees
of the first may be skipped.  Edits of nodes that match keep this up, and so do edits of nodes that are
skipped.
-/

namespace LiveTemplate.Forest

variable {Name Other Label Mark : Type}

/-- The forests match node by node, where trees of the first are left out if all their names may be
skipped.  Below a node that matches, nothing is skipped. -/
inductive Matches (names : Name → Other → Prop) (labels : Label → Mark → Prop) :
    (Name → Prop) → Forest Name Label → Forest Other Mark → Prop where
  | nil {skip : Name → Prop} : Matches names labels skip .nil .nil
  | pass {skip : Name → Prop} {name : Name} {label : Label} {children rest : Forest Name Label}
      {second : Forest Other Mark} (first : skip name) (below : ∀ inner ∈ children.names, skip inner)
      (later : Matches names labels skip rest second) :
      Matches names labels skip (.cons name label children rest) second
  | keep {skip : Name → Prop} {name : Name} {other : Other} {label : Label} {mark : Mark}
      {children rest : Forest Name Label} {inner second : Forest Other Mark}
      (same : names name other) (alike : labels label mark)
      (below : Matches names labels (fun _ => False) children inner)
      (later : Matches names labels skip rest second) :
      Matches names labels skip (.cons name label children rest) (.cons other mark inner second)

/-- Nodes are put after another, and no others come. -/
theorem mem_names_insertAfter [DecidableEq Name] {forest trees : Forest Name Label}
    {target name : Name} (member : name ∈ (forest.insertAfter target trees).names) :
    name ∈ forest.names ∨ name ∈ trees.names := by
  induction forest with
  | nil => exact .inl member
  | cons first label children rest inside induction =>
      rw [insertAfter] at member
      split at member
      · simp only [names_cons, names_append, List.mem_cons, List.mem_append] at member ⊢
        tauto
      · simp only [names_cons, List.mem_cons, List.mem_append] at member ⊢
        tauto

variable {names : Name → Other → Prop} {labels : Label → Mark → Prop} {skip : Name → Prop}
  {first third : Forest Name Label} {second fourth : Forest Other Mark}

namespace Matches

theorem mono {moreNames : Name → Other → Prop} {moreLabels : Label → Mark → Prop}
    (all : Matches names labels skip first second)
    (named : ∀ name other, names name other → moreNames name other)
    (labelled : ∀ label mark, labels label mark → moreLabels label mark) :
    ∀ {more : Name → Prop}, (∀ name, skip name → more name) →
      Matches moreNames moreLabels more first second := by
  induction all with
  | nil => exact fun _ => .nil
  | pass here below _ induction =>
      intro more skipped
      exact .pass (skipped _ here) (fun inner member => skipped inner (below inner member))
        (induction skipped)
  | keep same alike _ _ inside induction =>
      intro more skipped
      exact .keep (named _ _ same) (labelled _ _ alike) (inside fun _ none => none)
        (induction skipped)

/-- Where nothing is skipped, anything may be. -/
theorem relax (all : Matches names labels (fun _ => False) first second) (skip : Name → Prop) :
    Matches names labels skip first second :=
  all.mono (fun _ _ => id) (fun _ _ => id) fun _ none => none.elim

theorem append (all : Matches names labels skip first second)
    (also : Matches names labels skip third fourth) :
    Matches names labels skip (first ++ third) (second ++ fourth) := by
  induction all with
  | nil => exact also
  | pass here below _ induction => exact .pass here below (induction also)
  | keep same alike below _ _ induction => exact .keep same alike below (induction also)

/-- Trees that may be skipped match nothing. -/
theorem of_skipped (skipped : ∀ name ∈ first.names, skip name) :
    Matches names labels skip first (.nil : Forest Other Mark) := by
  induction first with
  | nil => exact .nil
  | cons name label children rest _ induction =>
      simp only [names_cons, List.forall_mem_cons, List.forall_mem_append] at skipped
      exact .pass skipped.1 skipped.2.1 (induction skipped.2.2)

/-- Where nothing is skipped, nodes match one by one. -/
theorem whole {motive : (first : Forest Name Label) → (second : Forest Other Mark) →
      Matches names labels (fun _ => False) first second → Prop} (nil : motive .nil .nil .nil)
    (keep : ∀ {name other label mark children rest inner second} (same : names name other)
      (alike : labels label mark) (below : Matches names labels (fun _ => False) children inner)
      (later : Matches names labels (fun _ => False) rest second), motive children inner below →
        motive rest second later → motive (.cons name label children rest)
          (.cons other mark inner second) (.keep same alike below later))
    {first : Forest Name Label} {second : Forest Other Mark}
    (all : Matches names labels (fun _ => False) first second) : motive first second all := by
  suffices any : ∀ skip : Name → Prop, Matches names labels skip first second →
      skip = (fun _ => False) → motive first second all from any _ all rfl
  intro skip also nothing
  induction also with
  | nil => exact nil
  | pass here =>
      subst nothing
      exact here.elim
  | keep same alike below rest inside induction =>
      subst nothing
      exact keep same alike below rest (inside below rfl) (induction rest rfl)

theorem entries (all : Matches names labels (fun _ => False) first second) :
    List.Forall₂ (fun entry other => names entry.1 other.1 ∧ labels entry.2 other.2) first.entries
      second.entries := by
  induction all using whole with
  | nil => exact .nil
  | keep same alike _ _ inside induction =>
      exact .cons ⟨same, alike⟩ (List.rel_append inside induction)

theorem names_forall₂ (all : Matches names labels (fun _ => False) first second) :
    List.Forall₂ names first.names second.names :=
  List.rel_map (fun _ _ both => both.1) all.entries

theorem size_eq (all : Matches names labels (fun _ => False) first second) :
    first.size = second.size := by
  induction all using whole with
  | nil => rfl
  | keep _ _ _ _ inside induction => rw [size, size, inside, induction]

theorem roots_forall₂ (all : Matches names labels (fun _ => False) first second) :
    List.Forall₂ names first.roots second.roots := by
  induction all using whole with
  | nil => exact .nil
  | keep same _ _ _ _ induction => exact .cons same induction

theorem take (all : Matches names labels (fun _ => False) first second) (index : Nat) :
    Matches names labels (fun _ => False) (first.take index) (second.take index) := by
  induction all using whole generalizing index with
  | nil => cases index <;> exact .nil
  | keep same alike below _ _ induction =>
      cases index with
      | zero => exact .nil
      | succ index => exact .keep same alike below (induction index)

theorem drop (all : Matches names labels (fun _ => False) first second) (index : Nat) :
    Matches names labels (fun _ => False) (first.drop index) (second.drop index) := by
  induction all using whole generalizing index with
  | nil => cases index <;> exact .nil
  | keep same alike below later _ induction =>
      cases index with
      | zero => exact .keep same alike below later
      | succ index => exact induction index

theorem insertAt (all : Matches names labels (fun _ => False) first second) (index : Nat)
    (trees : Matches names labels (fun _ => False) third fourth) :
    Matches names labels (fun _ => False) (first.insertAt index third)
      (second.insertAt index fourth) :=
  (all.take index).append (trees.append (all.drop index))

/-- A node that is neither skipped nor matched is not there. -/
theorem not_mem {target : Name} (all : Matches names labels skip first second)
    (none : ∀ name, skip name → name ≠ target)
    (unmatched : ∀ name other, names name other → name ≠ target) : target ∉ first.names := by
  induction all with
  | nil => simp
  | pass here below _ induction =>
      simp only [names_cons, List.mem_cons, List.mem_append, not_or]
      exact ⟨(none _ here).symm, fun member => none _ (below target member) rfl, induction none⟩
  | keep same _ _ _ inside induction =>
      simp only [names_cons, List.mem_cons, List.mem_append, not_or]
      exact ⟨(unmatched _ _ same).symm, inside fun _ none => none.elim, induction none⟩

section Search

variable [DecidableEq Name] {target : Name}

/-! ## At nodes that match -/

section Matching

variable [DecidableEq Other] {goal : Other} (all : Matches names labels skip first second)
  (exact : ∀ name other, names name other → (name = target ↔ other = goal))
  (apart : ∀ name, skip name → name ≠ target)

include all exact apart

theorem contains_eq : first.contains target = second.contains goal := by
  induction all with
  | nil => rfl
  | pass here below _ induction =>
      have absent := contains_eq_false_iff.2 fun member => apart _ (below target member) rfl
      rw [contains, decide_eq_false (apart _ here), absent, induction apart]
      rfl
  | keep same _ _ _ inside induction =>
      rw [contains, contains, inside (fun _ none => none.elim), induction apart,
        decide_eq_decide.2 (exact _ _ same)]

theorem label? : Option.Rel labels (first.label? target) (second.label? goal) := by
  induction all with
  | nil => exact .none
  | @pass _ name label children rest _ here below _ induction =>
      have absent : children.label? target = none := by
        rw [← Option.not_isSome_iff_eq_none, label?_isSome_iff]
        exact fun member => apart _ (below target member) rfl
      rw [Forest.label?, if_neg (apart _ here), absent]
      exact induction apart
  | @keep _ name other _ _ _ _ _ _ same alike _ _ inside induction =>
      rw [Forest.label?, Forest.label?]
      by_cases found : name = target
      · rw [if_pos found, if_pos ((exact _ _ same).1 found)]
        exact .some alike
      · rw [if_neg found, if_neg fun also => found ((exact _ _ same).2 also)]
        have within := inside fun _ none => none.elim
        revert within
        generalize Forest.label? _ target = label, Forest.label? _ goal = mark
        rintro (related | _)
        · exact .some related
        · exact induction apart

theorem under : Matches names labels (fun _ => False) (first.under target) (second.under goal) := by
  induction all with
  | nil => exact .nil
  | pass here below _ induction =>
      have absent := contains_eq_false_iff.2 fun member => apart _ (below target member) rfl
      rw [Forest.under, if_neg (apart _ here), absent]
      exact induction apart
  | @keep _ name other _ _ children _ inner _ same _ below _ inside induction =>
      have there : children.contains target = inner.contains goal :=
        below.contains_eq exact fun _ none => none.elim
      rw [Forest.under, Forest.under, there]
      by_cases found : name = target
      · rw [if_pos found, if_pos ((exact _ _ same).1 found)]
        exact below
      · rw [if_neg found, if_neg fun also => found ((exact _ _ same).2 also)]
        split
        · exact inside fun _ none => none.elim
        · exact induction apart

theorem subtree :
    Matches names labels (fun _ => False) (first.subtree target) (second.subtree goal) := by
  induction all with
  | nil => exact .nil
  | pass here below _ induction =>
      have absent := contains_eq_false_iff.2 fun member => apart _ (below target member) rfl
      rw [Forest.subtree, if_neg (apart _ here), absent]
      exact induction apart
  | @keep _ name other _ _ children _ inner _ same alike below _ inside induction =>
      have there : children.contains target = inner.contains goal :=
        below.contains_eq exact fun _ none => none.elim
      rw [Forest.subtree, Forest.subtree, there]
      by_cases found : name = target
      · rw [if_pos found, if_pos ((exact _ _ same).1 found)]
        exact .keep same alike below .nil
      · rw [if_neg found, if_neg fun also => found ((exact _ _ same).2 also)]
        split
        · exact inside fun _ none => none.elim
        · exact induction apart

theorem ancestors : List.Forall₂ names (first.ancestors target) (second.ancestors goal) := by
  induction all with
  | nil => exact .nil
  | pass here below _ induction =>
      have absent := contains_eq_false_iff.2 fun member => apart _ (below target member) rfl
      rw [Forest.ancestors, if_neg (apart _ here), absent]
      exact induction apart
  | @keep _ name other _ _ children _ inner _ same _ below _ inside induction =>
      have there : children.contains target = inner.contains goal :=
        below.contains_eq exact fun _ none => none.elim
      rw [Forest.ancestors, Forest.ancestors, there]
      by_cases found : name = target
      · rw [if_pos found, if_pos ((exact _ _ same).1 found)]
        exact .nil
      · rw [if_neg found, if_neg fun also => found ((exact _ _ same).2 also)]
        split
        · exact List.rel_append (inside fun _ none => none.elim) (.cons same .nil)
        · exact induction apart

theorem prune : Matches names labels skip (first.prune target) (second.prune goal) := by
  induction all with
  | nil => exact .nil
  | pass here below _ induction =>
      rw [Forest.prune, if_neg (apart _ here),
        prune_eq_self fun member => apart _ (below target member) rfl]
      exact .pass here below (induction apart)
  | @keep _ name other _ _ _ _ _ _ same alike _ _ inside induction =>
      rw [Forest.prune, Forest.prune]
      by_cases found : name = target
      · rw [if_pos found, if_pos ((exact _ _ same).1 found)]
        exact induction apart
      · rw [if_neg found, if_neg fun also => found ((exact _ _ same).2 also)]
        exact .keep same alike (inside fun _ none => none.elim) (induction apart)

theorem modify {change : Label → Label} {also : Mark → Mark}
    (changes : ∀ label mark, labels label mark → labels (change label) (also mark)) :
    Matches names labels skip (first.modify target change) (second.modify goal also) := by
  induction all with
  | nil => exact .nil
  | pass here below _ induction =>
      rw [Forest.modify, if_neg (apart _ here),
        modify_eq_self fun member => apart _ (below target member) rfl]
      exact .pass here below (induction apart)
  | @keep _ name other _ _ _ _ _ _ same alike _ _ inside induction =>
      rw [Forest.modify, Forest.modify]
      refine .keep same ?_ (inside fun _ none => none.elim) (induction apart)
      by_cases found : name = target
      · rw [if_pos found, if_pos ((exact _ _ same).1 found)]
        exact changes _ _ alike
      · rw [if_neg found, if_neg fun also => found ((exact _ _ same).2 also)]
        exact alike

theorem modifyUnder {change : Forest Name Label → Forest Name Label}
    {also : Forest Other Mark → Forest Other Mark}
    (changes : ∀ below inner, Matches names labels (fun _ => False) below inner →
      Matches names labels (fun _ => False) (change below) (also inner)) :
    Matches names labels skip (first.modifyUnder target change) (second.modifyUnder goal also) := by
  induction all with
  | nil => exact .nil
  | pass here below _ induction =>
      rw [Forest.modifyUnder, if_neg (apart _ here),
        modifyUnder_eq_self fun member => apart _ (below target member) rfl]
      exact .pass here below (induction apart)
  | @keep _ name other _ _ _ _ _ _ same alike below _ inside induction =>
      rw [Forest.modifyUnder, Forest.modifyUnder]
      refine .keep same alike ?_ (induction apart)
      by_cases found : name = target
      · rw [if_pos found, if_pos ((exact _ _ same).1 found)]
        exact changes _ _ below
      · rw [if_neg found, if_neg fun also => found ((exact _ _ same).2 also)]
        exact inside fun _ none => none.elim

theorem insertAfter (trees : Matches names labels (fun _ => False) third fourth) :
    Matches names labels skip (first.insertAfter target third)
      (second.insertAfter goal fourth) := by
  induction all with
  | nil => exact .nil
  | pass here below _ induction =>
      rw [insertAfter_of_ne (apart _ here),
        insertAfter_eq_self fun member => apart _ (below target member) rfl]
      exact .pass here below (induction apart)
  | @keep _ name other _ _ _ _ _ _ same alike below later inside induction =>
      rw [Forest.insertAfter, Forest.insertAfter]
      by_cases found : name = target
      · rw [if_pos found, if_pos ((exact _ _ same).1 found)]
        exact .keep same alike below
          ((trees.relax _).append later)
      · rw [if_neg found, if_neg fun also => found ((exact _ _ same).2 also)]
        exact .keep same alike (inside fun _ none => none.elim) (induction apart)

end Matching

/-! ## At nodes that are skipped -/

section Skipped

variable (all : Matches names labels skip first second)
  (unmatched : ∀ name other, names name other → name ≠ target)

include all unmatched

theorem prune_skipped : Matches names labels skip (first.prune target) second := by
  induction all with
  | nil => exact .nil
  | pass here below _ induction =>
      rw [Forest.prune]
      split
      · exact induction
      · refine .pass here (fun inner member => below inner ?_) induction
        rw [prune_eq_without] at member
        exact (names_without_sublist _ _).subset member
  | keep same alike below _ _ induction =>
      rw [Forest.prune, if_neg (unmatched _ _ same),
        prune_eq_self (below.not_mem (fun _ none => none.elim) unmatched)]
      exact .keep same alike below induction

theorem modify_skipped (change : Label → Label) :
    Matches names labels skip (first.modify target change) second := by
  induction all with
  | nil => exact .nil
  | pass here below _ induction =>
      rw [Forest.modify]
      exact .pass here (fun inner member => below inner (by simpa using member)) induction
  | keep same alike below _ _ induction =>
      rw [Forest.modify, if_neg (unmatched _ _ same),
        modify_eq_self (below.not_mem (fun _ none => none.elim) unmatched)]
      exact .keep same alike below induction

theorem insertAfter_skipped (skipped : ∀ name ∈ third.names, skip name) :
    Matches names labels skip (first.insertAfter target third) second := by
  induction all with
  | nil => exact .nil
  | @pass _ name label children rest _ here below later induction =>
      rw [Forest.insertAfter]
      split
      · exact .pass here below ((of_skipped skipped).append later)
      · refine .pass here (fun inner member => ?_) (induction skipped)
        rcases mem_names_insertAfter member with old | new
        · exact below inner old
        · exact skipped inner new
  | keep same alike below _ _ induction =>
      rw [insertAfter_of_ne (unmatched _ _ same),
        insertAfter_eq_self (below.not_mem (fun _ none => none.elim) unmatched)]
      exact .keep same alike below (induction skipped)

end Skipped

end Search

end Matches

end LiveTemplate.Forest
