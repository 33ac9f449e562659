import LiveTemplate.Reactive.Data
import Mathlib.Data.List.Forall2
import Mathlib.Order.Monotone.Defs

/-!
# Names in two worlds

The same is done in two worlds, but some renders are there in the first world only.  So names are not
given out alike.  A tie says which names of the first world stand for which of the second, and which
are lone: names of what is there in the first world only.  Ties only grow, and a name that is tied or
lone remains so.
-/

namespace LiveTemplate

/-- Which names stand for which, and which of the first world stand for none. -/
structure Tie (Name : Type) where
  pairs : Name → Name → Prop
  lone : Name → Prop
  functional : ∀ {name one other}, pairs name one → pairs name other → one = other
  injective : ∀ {name one other}, pairs one name → pairs other name → one = other
  apart : ∀ {first second}, pairs first second → ¬ lone first

namespace Tie

variable {Name : Type} {tie : Tie Name} {first second : Name} {there here : Name → Prop}

instance : Preorder (Tie Name) where
  le tie later := (∀ first second, tie.pairs first second → later.pairs first second) ∧
    ∀ first, tie.lone first → later.lone first
  le_refl _ := ⟨fun _ _ => id, fun _ => id⟩
  le_trans _ _ _ early late := ⟨fun _ _ tied => late.1 _ _ (early.1 _ _ tied),
    fun _ lone => late.2 _ (early.2 _ lone)⟩

theorem eq_iff (tied : tie.pairs first second) {one other : Name} (also : tie.pairs one other) :
    one = first ↔ other = second := by
  constructor
  · rintro rfl
    exact tie.functional also tied
  · rintro rfl
    exact tie.injective also tied

theorem ne_of_lone (tied : tie.pairs first second) {name : Name} (lone : tie.lone name) :
    name ≠ first := by
  rintro rfl
  exact tie.apart tied lone

theorem ne_of_pairs {name : Name} (lone : tie.lone name) (tied : tie.pairs first second) :
    first ≠ name :=
  (ne_of_lone tied lone).symm

/-- What is tied is in both of two sequences that match or in none. -/
theorem mem_iff {gone lost : List Name} (all : List.Forall₂ tie.pairs gone lost)
    (tied : tie.pairs first second) : first ∈ gone ↔ second ∈ lost := by
  induction all with
  | nil => simp
  | cons here _ induction =>
      rw [List.mem_cons, List.mem_cons, induction, eq_comm, tie.eq_iff tied here, eq_comm]

/-- Nothing is tied or lone but what has been given out. -/
structure Among (tie : Tie Name) (there here : Name → Prop) : Prop where
  first : ∀ {first second}, tie.pairs first second → there first
  second : ∀ {first second}, tie.pairs first second → here second
  lone : ∀ {first}, tie.lone first → there first

theorem Among.mono (among : tie.Among there here) {moreThere moreHere : Name → Prop}
    (one : ∀ name, there name → moreThere name) (other : ∀ name, here name → moreHere name) :
    tie.Among moreThere moreHere where
  first tied := one _ (among.first tied)
  second tied := other _ (among.second tied)
  lone lone := one _ (among.lone lone)

/-- Two names that have just been given out are tied. -/
def couple (tie : Tie Name) (among : tie.Among there here) (new : ¬ there first)
    (also : ¬ here second) : Tie Name where
  pairs one other := tie.pairs one other ∨ one = first ∧ other = second
  lone := tie.lone
  functional := by
    rintro name one other (tied | ⟨rfl, rfl⟩) (again | ⟨same, rfl⟩)
    · exact tie.functional tied again
    · exact absurd (among.first (same ▸ tied)) new
    · exact absurd (among.first again) new
    · rfl
  injective := by
    rintro name one other (tied | ⟨rfl, rfl⟩) (again | ⟨rfl, same⟩)
    · exact tie.injective tied again
    · exact absurd (among.second (same ▸ tied)) also
    · exact absurd (among.second again) also
    · rfl
  apart := by
    rintro one other (tied | ⟨rfl, rfl⟩) lone
    · exact tie.apart tied lone
    · exact new (among.lone lone)

/-- A name that has just been given out in the first world is lone. -/
def seclude (tie : Tie Name) (among : tie.Among there here) (new : ¬ there first) : Tie Name where
  pairs := tie.pairs
  lone one := tie.lone one ∨ one = first
  functional := tie.functional
  injective := tie.injective
  apart := by
    rintro one other tied (lone | rfl)
    · exact tie.apart tied lone
    · exact new (among.first tied)

section New

variable (among : tie.Among there here) (new : ¬ there first) (also : ¬ here second)

theorem le_couple : tie ≤ tie.couple among new also :=
  ⟨fun _ _ => .inl, fun _ => id⟩

theorem couple_pairs : (tie.couple among new also).pairs first second :=
  .inr ⟨rfl, rfl⟩

theorem le_seclude : tie ≤ tie.seclude among new :=
  ⟨fun _ _ => id, fun _ => .inl⟩

theorem seclude_lone : (tie.seclude among new).lone first :=
  .inr rfl

variable {moreThere moreHere : Name → Prop}

theorem Among.couple (one : ∀ name, there name → moreThere name)
    (other : ∀ name, here name → moreHere name) (given : moreThere first) (too : moreHere second) :
    (tie.couple among new also).Among moreThere moreHere where
  first := by
    rintro _ _ (tied | ⟨rfl, rfl⟩)
    · exact one _ (among.first tied)
    · exact given
  second := by
    rintro _ _ (tied | ⟨rfl, rfl⟩)
    · exact other _ (among.second tied)
    · exact too
  lone lone := one _ (among.lone lone)

theorem Among.seclude (one : ∀ name, there name → moreThere name)
    (given : moreThere first) : (tie.seclude among new).Among moreThere here where
  first tied := one _ (among.first tied)
  second tied := among.second tied
  lone := by
    rintro _ (lone | rfl)
    · exact one _ (among.lone lone)
    · exact given

end New

end Tie

/-- How names of two worlds stand for each other, and how many models and collections there are. -/
structure Links where
  nodes : NodeId → NodeId → Prop
  marks : Subscription → Subscription → Prop
  renders : RenderId → RenderId → Prop
  controllers : ControllerId → ControllerId → Prop
  models : Nat
  collections : Nat

namespace Links

/-- Whatever is linked stays linked. -/
structure Grow (links later : Links) : Prop where
  nodes : ∀ first second, links.nodes first second → later.nodes first second
  marks : ∀ first second, links.marks first second → later.marks first second
  renders : ∀ first second, links.renders first second → later.renders first second
  controllers : ∀ first second, links.controllers first second → later.controllers first second
  models : links.models ≤ later.models
  collections : links.collections ≤ later.collections

instance : Preorder Links where
  le := Grow
  le_refl _ := ⟨fun _ _ => id, fun _ _ => id, fun _ _ => id, fun _ _ => id, Nat.le_refl _, Nat.le_refl _⟩
  le_trans _ _ _ early late :=
    ⟨fun _ _ linked => late.nodes _ _ (early.nodes _ _ linked),
      fun _ _ linked => late.marks _ _ (early.marks _ _ linked),
      fun _ _ linked => late.renders _ _ (early.renders _ _ linked),
      fun _ _ linked => late.controllers _ _ (early.controllers _ _ linked),
      Nat.le_trans early.models late.models, Nat.le_trans early.collections late.collections⟩

end Links

/-- All ties.  The root controllers of hidden renders are controllers of both worlds and yet lone among
the others; `roots` ties them to each other. -/
structure Ties where
  nodes : Tie NodeId
  marks : Tie Subscription
  renders : Tie RenderId
  controllers : Tie ControllerId
  roots : Tie ControllerId
  models : Nat
  collections : Nat
  concealed : ∀ {first second}, roots.pairs first second → controllers.lone first
  unlike : ∀ {first second other}, roots.pairs first second → ¬ controllers.pairs other second

namespace Ties

/-- Whatever is tied or lone stays so. -/
structure Grow (ties later : Ties) : Prop where
  nodes : ties.nodes ≤ later.nodes
  marks : ties.marks ≤ later.marks
  renders : ties.renders ≤ later.renders
  controllers : ties.controllers ≤ later.controllers
  roots : ties.roots ≤ later.roots
  models : ties.models ≤ later.models
  collections : ties.collections ≤ later.collections

instance : Preorder Ties where
  le := Grow
  le_refl _ := ⟨le_rfl, le_rfl, le_rfl, le_rfl, le_rfl, Nat.le_refl _, Nat.le_refl _⟩
  le_trans _ _ _ early late :=
    ⟨early.nodes.trans late.nodes, early.marks.trans late.marks, early.renders.trans late.renders,
      early.controllers.trans late.controllers, early.roots.trans late.roots,
      Nat.le_trans early.models late.models, Nat.le_trans early.collections late.collections⟩

/-- What is there in both worlds. -/
def seen (ties : Ties) : Links where
  nodes := ties.nodes.pairs
  marks := ties.marks.pairs
  renders := ties.renders.pairs
  controllers := ties.controllers.pairs
  models := ties.models
  collections := ties.collections

/-- What is there in the first world only.  Each name stands for itself. -/
def unseen (ties : Ties) : Links where
  nodes first second := first = second ∧ ties.nodes.lone first
  marks first second := first = second ∧ ties.marks.lone first
  renders first second := first = second ∧ ties.renders.lone first
  controllers first second := first = second ∧ ties.controllers.lone first
  models := ties.models
  collections := ties.collections

theorem monotone_seen : Monotone seen := fun _ _ grow => Links.Grow.mk grow.nodes.1 grow.marks.1
  grow.renders.1 grow.controllers.1 grow.models grow.collections

theorem monotone_unseen : Monotone unseen := fun _ _ grow =>
  Links.Grow.mk (fun _ _ linked => linked.imp_right (grow.nodes.2 _))
    (fun _ _ linked => linked.imp_right (grow.marks.2 _))
    (fun _ _ linked => linked.imp_right (grow.renders.2 _))
    (fun _ _ linked => linked.imp_right (grow.controllers.2 _)) grow.models grow.collections

end Ties

end LiveTemplate
