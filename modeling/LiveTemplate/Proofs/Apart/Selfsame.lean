import LiveTemplate.Proofs.Apart.Parts

/-!
# What matches itself only

Where each name stands for itself only, parts match that are equal.  So whatever is built for a hidden
render, side by side with itself, comes out the same.
-/

namespace LiveTemplate

/-- Each name stands for itself only. -/
structure Links.Selfsame (links : Links) : Prop where
  nodes : ∀ {first second}, links.nodes first second → first = second
  marks : ∀ {first second}, links.marks first second → first = second
  renders : ∀ {first second}, links.renders first second → first = second
  controllers : ∀ {first second}, links.controllers first second → first = second

theorem Ties.unseen_selfsame (ties : Ties) : ties.unseen.Selfsame :=
  ⟨And.left, And.left, And.left, And.left⟩

theorem Forest.Matches.eq {Name Label : Type} {names : Name → Name → Prop}
    {labels : Label → Label → Prop} {first second : Forest Name Label}
    (all : Forest.Matches names labels (fun _ => False) first second)
    (same : ∀ one other, names one other → one = other)
    (alike : ∀ one other, labels one other → one = other) : first = second := by
  induction all using Forest.Matches.whole with
  | nil => rfl
  | keep here there _ _ inside induction =>
      rw [same _ _ here, alike _ _ there, inside, induction]

theorem forall₂_eq {Item : Type} {related : Item → Item → Prop} {first second : List Item}
    (all : List.Forall₂ related first second) (same : ∀ one other, related one other → one = other) :
    first = second :=
  List.forall₂_eq_eq_eq ▸ all.imp same

theorem rel_eq {Item : Type} {related : Item → Item → Prop} {first second : Option Item}
    (all : Option.Rel related first second) (same : ∀ one other, related one other → one = other) :
    first = second := by
  cases all with
  | none => rfl
  | some here => rw [same _ _ here]

section Parts

variable {links : Links} (same : links.Selfsame)

include same

theorem NodeData.Matches.eq {first second : NodeData} (all : first.Matches links second) :
    first = second := by
  obtain ⟨kind, attributes, styles, listeners⟩ := first
  obtain ⟨rfl, rfl, rfl, matching⟩ := all
  congr
  refine forall₂_eq matching ?_
  rintro ⟨event, listener⟩ ⟨_, _⟩ ⟨rfl, heard⟩
  congr
  cases heard with
  | client hook => rfl
  | action render owner slot => rw [same.renders render]

theorem Scope.Matches.eq {first second : Scope} (all : first.Matches links second) :
    first = second := by
  obtain ⟨model, controller, depth⟩ := first
  obtain ⟨rfl, linked, rfl, _⟩ := all
  congr
  exact same.controllers linked

theorem BoundNode.Matches.eq {first second : BoundNode Part} (all : first.Matches links second) :
    first = second := by
  obtain ⟨part, dom, ledger, scope⟩ := first
  obtain ⟨rfl, doms, ledgers, scopes⟩ := all
  congr
  · exact rel_eq doms fun _ _ => same.nodes
  · exact forall₂_eq ledgers fun _ _ => same.marks
  · exact scopes.eq same

theorem Page.Matches.eq {first second : Forest NodeId NodeData}
    (all : Page.Matches links first second) : first = second :=
  Forest.Matches.eq all (fun _ _ => same.nodes) fun _ _ => NodeData.Matches.eq same

theorem Bindings.Matches.eq {first second : Bindings} (all : Bindings.Matches links first second) :
    first = second :=
  Forest.Matches.eq all (fun _ _ => id) fun _ _ => BoundNode.Matches.eq same

theorem Growth.Matches.eq {first second : Growth} (all : first.Matches links second) :
    first = second := by
  obtain ⟨page, bound, failure⟩ := first
  obtain ⟨pages, bounds, rfl⟩ := all
  congr
  · exact pages.eq same
  · exact bounds.eq same

end Parts

end LiveTemplate
