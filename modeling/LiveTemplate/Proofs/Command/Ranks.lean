import Mathlib.Order.Nat
import Mathlib.Tactic.Tauto
import LiveTemplate.Proofs.Forest.Edit
import LiveTemplate.View.World

/-!
# Who stands under whom

Every bound node was built with a controller.  A node that is no view has the controller of what is
around it.  A view has an instance of its own if a factory gave it one, which then hands on to the
controller around it until it is made a root controller itself; otherwise it shares that controller, or it
has one that knows nothing.  Controllers that are handed on to are older than those that hand on, so that
every way up ends.
-/

namespace LiveTemplate

namespace Controllers

variable {controllers more last : Controllers}

/-- Controllers have come, and those that were there are as they were. -/
structure Extends (controllers more : Controllers) : Prop where
  next : controllers.next ≤ more.next
  kept : ∀ index, index < controllers.next → more.get? index = controllers.get? index

theorem Extends.refl (controllers : Controllers) : controllers.Extends controllers :=
  ⟨le_rfl, fun _ _ => rfl⟩

theorem Extends.trans (first : controllers.Extends more) (second : more.Extends last) :
    controllers.Extends last where
  next := first.next.trans second.next
  kept := fun index inside =>
    (second.kept index (inside.trans_le first.next)).trans (first.kept index inside)

theorem Extends.of_get? (extended : controllers.Extends more) {index : Nat} {controller : Controller}
    (stored : controllers.get? index = some controller) : more.get? index = some controller :=
  (extended.kept index (Store.lt_next_of_get? stored)).trans stored

theorem extends_create (controllers : Controllers) (controller : Controller) :
    controllers.Extends (controllers.create controller).2 where
  next := (Store.next_add controllers controller).ge.trans' (Nat.le_succ _)
  kept := fun index inside => by
    show (controllers.add controller).get? index = _
    rw [Store.get?_add, if_neg inside.ne]

/-- Telling a controller of its view changes no other. -/
theorem get?_attach_of_ne {id : ControllerId} (links : ControllerLinks) {index : Nat}
    (other : index ≠ id.index) : (controllers.attach id links).get? index = controllers.get? index := by
  rw [attach, Store.get?_modify, if_neg other]

@[simp] theorem next_attach (id : ControllerId) (links : ControllerLinks) :
    (controllers.attach id links).next = controllers.next :=
  Store.next_modify ..

end Controllers

/-- What is known of the views of a render: the controllers that factories gave to them, those for which
there was no factory when they were shown, and whose controllers were made root controllers later. -/
structure Roster where
  /-- Whether a view without a controller of its own uses the enclosing one. -/
  inherits : Bool
  given : BoundId → String → ControllerId → Prop
  vacant : BoundId → String → Prop
  lent : BoundId → ControllerId → Prop

/-- How the controller of a bound node stands to the one around it. -/
inductive Roster.Posted (roster : Roster) (controllers : Controllers) (id : BoundId)
    (node : BoundNode Part) (outer : ControllerId) : Prop where
  | plain (kind : node.kind ≠ .view) (same : node.scope.controller = outer)
  /-- A factory gave the view an instance of its own, which hands on to the controller around it unless it
  was made a root controller. -/
  | own {name : String} {table : List (String × Hook)} {links : ControllerLinks}
      (part : node.part = .view name) (given : roster.given id name node.scope.controller)
      (stored : controllers.get? node.scope.controller.index = some (.actions table (some links)))
      (parent : ¬ roster.lent id node.scope.controller → links.parent = some outer)
      (top : roster.lent id node.scope.controller → links.parent = none)
      (later : outer.index < node.scope.controller.index)
  | shared {name : String} (part : node.part = .view name) (vacant : roster.vacant id name)
      (inherits : roster.inherits = true) (same : node.scope.controller = outer)
  | closed {name : String} (part : node.part = .view name) (vacant : roster.vacant id name)
      (apart : roster.inherits = false)
      (inert : controllers.get? node.scope.controller.index = some .inert)
      (later : outer.index < node.scope.controller.index)

namespace Roster.Posted

variable {roster other : Roster} {controllers more : Controllers} {id : BoundId}
  {node : BoundNode Part} {outer : ControllerId}

theorem rises (posted : roster.Posted controllers id node outer) :
    outer.index ≤ node.scope.controller.index := by
  cases posted with
  | plain _ same | shared _ _ _ same => rw [same]
  | own _ _ _ _ _ later | closed _ _ _ _ later => exact later.le

theorem known (posted : roster.Posted controllers id node outer)
    (inside : outer.index < controllers.next) :
    node.scope.controller.index < controllers.next := by
  cases posted with
  | plain _ same | shared _ _ _ same => rwa [same]
  | own _ _ stored | closed _ _ _ stored => exact Store.lt_next_of_get? stored

/-- Of the controllers, only the one that a view has for itself counts. -/
theorem mono (posted : roster.Posted controllers id node outer)
    (kept : outer.index < node.scope.controller.index → ∀ controller,
      controllers.get? node.scope.controller.index = some controller →
        more.get? node.scope.controller.index = some controller) :
    roster.Posted more id node outer := by
  cases posted with
  | plain kind same => exact .plain kind same
  | own part given stored parent top later =>
      exact .own part given (kept later _ stored) parent top later
  | shared part vacant inherits same => exact .shared part vacant inherits same
  | closed part vacant apart inert later =>
      exact .closed part vacant apart (kept later _ inert) later

/-- What is no view has the controller around it. -/
theorem same_of_kind (posted : roster.Posted controllers id node outer) (kind : node.kind ≠ .view) :
    node.scope.controller = outer := by
  cases posted with
  | plain _ same => exact same
  | own part | shared part | closed part =>
      exact (kind (by rw [BoundNode.kind, HasBoundKind.kind, part]; rfl)).elim

/-- Another roster that says the same of the node. -/
theorem entered (posted : roster.Posted controllers id node outer)
    (inherits : roster.inherits = other.inherits)
    (given : ∀ name controller, roster.given id name controller → other.given id name controller)
    (vacant : ∀ name, roster.vacant id name → other.vacant id name)
    (lent : roster.lent id node.scope.controller ↔ other.lent id node.scope.controller) :
    other.Posted controllers id node outer := by
  cases posted with
  | plain kind same => exact .plain kind same
  | own part was stored parent top later =>
      rw [lent] at parent top
      exact .own part (given _ _ was) stored parent top later
  | shared part was shares same => exact .shared part (vacant _ was) (inherits ▸ shares) same
  | closed part was apart inert later =>
      exact .closed part (vacant _ was) (inherits ▸ apart) inert later

/-- Another label for a node that is no view, or the same part. -/
theorem relabel {label : BoundNode Part} (posted : roster.Posted controllers id node outer)
    (scope : label.scope = node.scope) (kind : label.kind = node.kind)
    (views : ∀ name, node.part = .view name → label.part = .view name) :
    roster.Posted controllers id label outer := by
  cases posted with
  | plain other same => exact .plain (kind ▸ other) (scope ▸ same)
  | own part given stored parent top later =>
      rw [← scope] at given stored parent top later
      exact .own (views _ part) given stored parent top later
  | shared part vacant inherits same => exact .shared (views _ part) vacant inherits (scope ▸ same)
  | closed part vacant apart inert later =>
      rw [← scope] at inert later
      exact .closed (views _ part) vacant apart inert later

/-- A controller is made a root controller: it hands nothing on any more. -/
theorem lend (posted : roster.Posted controllers id node outer) {controller : ControllerId}
    {links : ControllerLinks} (nobody : links.parent = none) {lent : BoundId → ControllerId → Prop}
    (lends : lent id node.scope.controller ↔
      roster.lent id node.scope.controller ∨ node.scope.controller = controller) :
    { roster with lent }.Posted (controllers.attach controller links) id node outer := by
  cases posted with
  | plain kind same => exact .plain kind same
  | @own name table former part given stored parent top later =>
      by_cases same : node.scope.controller = controller
      · have told : (controllers.attach controller links).get? node.scope.controller.index =
            some (.actions table (some links)) := by
          rw [Controllers.attach, Store.get?_modify, if_pos (by rw [same]), stored]
          rfl
        exact .own part given told (fun kept => (kept (lends.2 (.inr same))).elim) (fun _ => nobody)
          later
      · have apart : node.scope.controller.index ≠ controller.index :=
          fun equal => same (congrArg ControllerId.mk equal)
        rw [← lends.trans (or_iff_left same)] at parent top
        exact .own part given ((Controllers.get?_attach_of_ne links apart).trans stored) parent top later
  | shared part vacant inherits same => exact .shared part vacant inherits same
  | closed part vacant apart inert later =>
      refine .closed part vacant apart ?_ later
      rw [Controllers.attach, Store.get?_modify, inert]
      split <;> rfl

end Roster.Posted

/-- Every node stands to the controller around it as required, from the outermost one on. -/
def BoundForest.Ranked (posted : BoundId → BoundNode Part → ControllerId → Prop) :
    ControllerId → Bindings → Prop
  | _, .nil => True
  | outer, .cons id node below rest =>
    posted id node outer ∧ Ranked posted node.scope.controller below ∧ Ranked posted outer rest

namespace BoundForest

variable {posted further : BoundId → BoundNode Part → ControllerId → Prop} {outer : ControllerId}
  {forest trees : Bindings}

@[simp] theorem ranked_nil : Ranked posted outer .nil := trivial

theorem ranked_append :
    Ranked posted outer (forest ++ trees) ↔ Ranked posted outer forest ∧ Ranked posted outer trees := by
  induction forest with
  | nil => exact ⟨fun ranked => ⟨trivial, ranked⟩, And.right⟩
  | cons id node below rest _ beside =>
      show _ ∧ _ ∧ Ranked posted outer (rest ++ trees) ↔ (_ ∧ _ ∧ _) ∧ _
      rw [beside]
      tauto

theorem Ranked.without (ranked : Ranked posted outer forest) (gone : List BoundId) :
    Ranked posted outer (forest.without gone) := by
  induction forest generalizing outer with
  | nil => trivial
  | cons id node below rest inner beside =>
      obtain ⟨here, lower, later⟩ := ranked
      rw [Forest.without]
      split
      · exact beside later
      · exact ⟨here, inner lower, beside later⟩

theorem Ranked.modify (ranked : Ranked posted outer forest) {change : BoundNode Part → BoundNode Part}
    (target : BoundId) (scope : ∀ node, (change node).scope = node.scope)
    (keeps : ∀ id node outer, posted id node outer → posted id (change node) outer) :
    Ranked posted outer (forest.modify target change) := by
  induction forest generalizing outer with
  | nil => trivial
  | cons id node below rest inner beside =>
      obtain ⟨here, lower, later⟩ := ranked
      rw [Forest.modify]
      split
      · exact ⟨keeps _ _ _ here, scope node ▸ inner lower, beside later⟩
      · exact ⟨here, inner lower, beside later⟩

theorem Ranked.modifyUnder (ranked : Ranked posted outer forest) {target : BoundId}
    {change : Bindings → Bindings}
    (keeps : ∀ node below, (target, node) ∈ forest.entries →
      Ranked posted node.scope.controller below → Ranked posted node.scope.controller (change below)) :
    Ranked posted outer (forest.modifyUnder target change) := by
  induction forest generalizing outer with
  | nil => trivial
  | cons id node below rest inner beside =>
      obtain ⟨here, lower, later⟩ := ranked
      have deeper := inner lower fun label under member =>
        keeps label under (List.mem_cons_of_mem _ (List.mem_append_left _ member))
      have further := beside later fun label under member =>
        keeps label under (List.mem_cons_of_mem _ (List.mem_append_right _ member))
      rw [Forest.modifyUnder]
      split
      · rename_i same
        exact ⟨here, keeps node below (same ▸ List.mem_cons_self) lower, further⟩
      · exact ⟨here, deeper, further⟩

theorem Ranked.insertAt (ranked : Ranked posted outer forest) (index : Nat)
    (more : Ranked posted outer trees) : Ranked posted outer (forest.insertAt index trees) := by
  rw [← Forest.take_append_drop forest index, ranked_append] at ranked
  exact ranked_append.2 ⟨ranked.1, ranked_append.2 ⟨more, ranked.2⟩⟩

section Rosters

variable {roster other : Roster} {controllers more : Controllers}

/-- The requirement is changed node by node; no controller inside is older than the outermost one. -/
theorem Ranked.imp (ranked : Ranked (roster.Posted controllers) outer forest)
    (keeps : ∀ id node upper, (id, node) ∈ forest.entries → outer.index ≤ upper.index →
      roster.Posted controllers id node upper → further id node upper) :
    Ranked further outer forest := by
  induction forest generalizing outer with
  | nil => trivial
  | cons id node below rest inner beside =>
      obtain ⟨here, lower, later⟩ := ranked
      refine ⟨keeps id node outer List.mem_cons_self le_rfl here, inner lower ?_, beside later ?_⟩
      · intro name label upper member above
        exact keeps name label upper (List.mem_cons_of_mem _ (List.mem_append_left _ member))
          (here.rises.trans above)
      · intro name label upper member above
        exact keeps name label upper (List.mem_cons_of_mem _ (List.mem_append_right _ member)) above

theorem Ranked.mono (ranked : Ranked (roster.Posted controllers) outer forest)
    (kept : ∀ index controller, outer.index < index → controllers.get? index = some controller →
      more.get? index = some controller) : Ranked (roster.Posted more) outer forest :=
  ranked.imp fun _ _ _ _ above posted =>
    posted.mono fun later controller => kept _ controller (above.trans_lt later)

theorem Ranked.extended (ranked : Ranked (roster.Posted controllers) outer forest)
    (extended : controllers.Extends more) : Ranked (roster.Posted more) outer forest :=
  ranked.mono fun _ _ _ => extended.of_get?

/-- All controllers inside are known and no older than the outermost one. -/
theorem Ranked.known (ranked : Ranked (roster.Posted controllers) outer forest)
    (inside : outer.index < controllers.next) : ∀ entry ∈ forest.entries,
      outer.index ≤ entry.2.scope.controller.index ∧
        entry.2.scope.controller.index < controllers.next := by
  induction forest generalizing outer with
  | nil => exact fun _ member => nomatch member
  | cons id node below rest inner beside =>
      obtain ⟨here, lower, later⟩ := ranked
      have there := here.known inside
      intro entry member
      simp only [Forest.entries, List.mem_cons, List.mem_append] at member
      rcases member with rfl | member | member
      · exact ⟨here.rises, there⟩
      · exact (inner lower there entry member).imp_left here.rises.trans
      · exact beside later inside entry member

/-- Nothing but nodes that are no views and have the controller around them. -/
theorem ranked_of_plain (plain : ∀ entry ∈ forest.entries,
      entry.2.kind ≠ .view ∧ entry.2.scope.controller = outer) :
    Ranked (roster.Posted controllers) outer forest := by
  induction forest with
  | nil => trivial
  | cons id node below rest inner beside =>
      obtain ⟨kind, same⟩ := plain _ List.mem_cons_self
      refine ⟨.plain kind same, ?_, beside fun entry member =>
        plain entry (List.mem_cons_of_mem _ (List.mem_append_right _ member))⟩
      rw [same]
      exact inner fun entry member =>
        plain entry (List.mem_cons_of_mem _ (List.mem_append_left _ member))

end Rosters

end BoundForest

end LiveTemplate
