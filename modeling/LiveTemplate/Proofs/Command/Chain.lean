import LiveTemplate.Proofs.Command.Ranks
import LiveTemplate.Proofs.Forest.Family
import LiveTemplate.View.Dispatch

/-!
# The chain of an element

The controllers that an action may come to are found in the tree: those that the views around an element
have for themselves, from the inside out, and at last the root controller.  A view that knows nothing ends
the chain, and so does an instance that was made a root controller.  The links that controllers were told
of lead along the same chain.
-/

namespace LiveTemplate

namespace Forest

variable {Name Label : Type} [DecidableEq Name]

/-- The nodes above the named one with their labels, the nearest first; none if there is no such
node. -/
def above (forest : Forest Name Label) (target : Name) : List (Name × Label) :=
  match forest with
  | nil => []
  | cons name label children rest =>
    if name = target then []
    else if children.contains target then children.above target ++ [(name, label)]
    else rest.above target

theorem map_fst_above (forest : Forest Name Label) (target : Name) :
    (forest.above target).map Prod.fst = forest.ancestors target := by
  induction forest with
  | nil => rfl
  | cons name label children rest inner beside =>
      rw [above, ancestors]
      split
      · rfl
      · split
        · rw [List.map_append, inner]
          rfl
        · exact beside

theorem above_subset (forest : Forest Name Label) (target : Name) :
    forest.above target ⊆ forest.entries := by
  induction forest with
  | nil => exact List.Subset.refl _
  | cons name label children rest inner beside =>
      rw [above]
      split
      · exact List.nil_subset _
      · split
        · intro entry member
          rcases List.mem_append.1 member with member | member
          · exact List.mem_cons_of_mem _ (List.mem_append_left _ (inner member))
          · rw [List.mem_singleton.1 member]
            exact List.mem_cons_self
        · exact fun entry member => List.mem_cons_of_mem _ (List.mem_append_right _ (beside member))

end Forest

/-- The views around a bound node, the innermost first. -/
def BoundForest.views (nodes : Bindings) (name : BoundId) : List (BoundId × BoundNode Part) :=
  (nodes.above name).filter fun entry => decide (entry.2.kind = .view)

/-- The controllers that an action may come to, given the views around: the instances that factories gave
to them, and the root controller after the outermost one.  An instance that was made a root controller
elsewhere ends the chain.  A view for which there was no factory when it was shown adds none, and ends the
chain unless views share the enclosing controller. -/
inductive Roster.Chain (roster : Roster) (chief : ControllerId) :
    List (BoundId × BoundNode Part) → List ControllerId → Prop where
  | root : Chain roster chief [] [chief]
  | own {id : BoundId} {view : BoundNode Part} {name : String}
      {around : List (BoundId × BoundNode Part)} {chain : List ControllerId}
      (part : view.part = .view name) (given : roster.given id name view.scope.controller)
      (kept : ¬ roster.lent id view.scope.controller) (rest : Chain roster chief around chain) :
      Chain roster chief ((id, view) :: around) (view.scope.controller :: chain)
  | lent {id : BoundId} {view : BoundNode Part} {name : String}
      {around : List (BoundId × BoundNode Part)} (part : view.part = .view name)
      (given : roster.given id name view.scope.controller)
      (lent : roster.lent id view.scope.controller) :
      Chain roster chief ((id, view) :: around) [view.scope.controller]
  | shared {id : BoundId} {view : BoundNode Part} {name : String}
      {around : List (BoundId × BoundNode Part)} {chain : List ControllerId}
      (part : view.part = .view name) (vacant : roster.vacant id name)
      (inherits : roster.inherits = true) (rest : Chain roster chief around chain) :
      Chain roster chief ((id, view) :: around) chain
  | closed {id : BoundId} {view : BoundNode Part} {name : String}
      {around : List (BoundId × BoundNode Part)} (part : view.part = .view name)
      (vacant : roster.vacant id name) (apart : roster.inherits = false) :
      Chain roster chief ((id, view) :: around) []

/-- There is one chain, if no view both had a factory and had none. -/
theorem Roster.Chain.unique {roster : Roster} {chief : ControllerId}
    (decides : ∀ id name controller, roster.given id name controller → ¬ roster.vacant id name)
    {around : List (BoundId × BoundNode Part)} {chain other : List ControllerId}
    (leads : roster.Chain chief around chain) (also : roster.Chain chief around other) :
    other = chain := by
  induction leads generalizing other with
  | root =>
      cases also
      rfl
  | own part given kept _ induction =>
      cases also with
      | own _ _ _ rest => rw [induction rest]
      | lent _ _ lent => exact (kept lent).elim
      | shared same vacant | closed same vacant =>
          cases part.symm.trans same
          exact (decides _ _ _ given vacant).elim
  | lent part given lent =>
      cases also with
      | own _ _ kept => exact (kept lent).elim
      | lent => rfl
      | shared same vacant | closed same vacant =>
          cases part.symm.trans same
          exact (decides _ _ _ given vacant).elim
  | shared part vacant inherits _ induction =>
      cases also with
      | own same given | lent same given =>
          cases part.symm.trans same
          exact (decides _ _ _ given vacant).elim
      | shared _ _ _ rest => exact induction rest
      | closed _ _ apart => cases inherits.symm.trans apart
  | closed part vacant apart =>
      cases also with
      | own same given | lent same given =>
          cases part.symm.trans same
          exact (decides _ _ _ given vacant).elim
      | shared _ _ inherits => cases inherits.symm.trans apart
      | closed => rfl

/-- The controller of what is directly inside the views. -/
def innermost (chief : ControllerId) : List (BoundId × BoundNode Part) → ControllerId
  | [] => chief
  | (_, view) :: _ => view.scope.controller

/-- Each of the views stands to the controller around it as it should. -/
def Roster.Stationed (roster : Roster) (controllers : Controllers) (chief : ControllerId) :
    List (BoundId × BoundNode Part) → Prop
  | [] => True
  | (id, view) :: around =>
    roster.Posted controllers id view (innermost chief around) ∧
      roster.Stationed controllers chief around

section Tree

variable {roster : Roster} {controllers : Controllers} {chief outer : ControllerId} {forest : Bindings}
  {target : BoundId} {node : BoundNode Part}

theorem innermost_append (views : List (BoundId × BoundNode Part)) (id : BoundId) :
    innermost outer (views ++ [(id, node)]) = innermost node.scope.controller views := by
  cases views with
  | nil => rfl
  | cons => rfl

theorem Roster.Stationed.append {views : List (BoundId × BoundNode Part)} {id : BoundId}
    (stationed : roster.Stationed controllers node.scope.controller views)
    (posted : roster.Posted controllers id node outer) :
    roster.Stationed controllers outer (views ++ [(id, node)]) := by
  induction views with
  | nil => exact ⟨posted, trivial⟩
  | cons view around induction =>
      obtain ⟨here, rest⟩ := stationed
      have upper : innermost outer (around ++ [(id, node)]) = innermost node.scope.controller around :=
        innermost_append around id
      exact ⟨upper.symm ▸ here, induction rest⟩

/-- In a tree that stands in ranks, the views around a node do, and the node has the controller of what is
directly inside them. -/
theorem BoundForest.Ranked.views (ranked : BoundForest.Ranked (roster.Posted controllers) outer forest)
    (found : forest.label? target = some node) (kind : node.kind ≠ .view) :
    node.scope.controller = innermost outer (BoundForest.views forest target) ∧
      roster.Stationed controllers outer (BoundForest.views forest target) := by
  -- On the way down only views change the controller, which is the one that `innermost` reads.
  induction forest generalizing outer with
  | nil => cases found
  | cons id label below rest inner beside =>
      obtain ⟨here, lower, later⟩ := ranked
      unfold BoundForest.views
      rw [Forest.above]
      rw [Forest.label?] at found
      split at found
      · rename_i same
        obtain rfl := Option.some.inj found
        rw [if_pos same]
        exact ⟨here.same_of_kind kind, trivial⟩
      · rename_i differs
        rw [if_neg differs]
        cases deep : below.label? target with
        | some other =>
            rw [deep, Option.some_or] at found
            rw [found] at deep
            have inside : below.contains target = true :=
              Forest.contains_iff_mem.2 (Forest.label?_isSome_iff.1 (by rw [deep]; rfl))
            obtain ⟨same, stationed⟩ := inner lower deep
            rw [if_pos inside, List.filter_append]
            by_cases view : label.kind = .view
            · have single : [(id, label)].filter (fun entry => decide (entry.2.kind = .view)) =
                  [(id, label)] := by simp [view]
              rw [single]
              exact ⟨same.trans (innermost_append _ _).symm, stationed.append here⟩
            · have single : [(id, label)].filter (fun entry => decide (entry.2.kind = .view)) = [] := by
                simp [view]
              rw [single, List.append_nil, ← here.same_of_kind view]
              exact ⟨same, stationed⟩
        | none =>
            rw [deep, Option.none_or] at found
            have outside : ¬ below.contains target = true := by
              rw [Forest.contains_iff_mem, ← Forest.label?_isSome_iff, deep]
              simp
            rw [if_neg outside]
            exact beside later found

end Tree

namespace World

variable {Client : Type} {world : World Client} {behaviour : Behaviour Client} {roster : Roster}
  {chief : ControllerId}

theorem get_of_get? {id : ControllerId} {controller : Controller}
    (stored : world.controllers.get? id.index = some controller) :
    world.controllers.get id = controller := by
  rw [Controllers.get, stored, Option.getD_some]

/-- Who is found first is the controller itself or who is found from its parent on. -/
theorem map_handler? (action : String) (length : Nat) (id : ControllerId) :
    (world.handler? behaviour action (length + 1) id).map Prod.snd =
      ((world.controllers.get id).action? action).or
        (((world.controllers.get id).parent?.filter (world.inUse behaviour)).bind fun parent =>
          (world.handler? behaviour action length parent).map Prod.snd) := by
  rw [handler?]
  dsimp only
  cases known : (world.controllers.get id).action? action with
  | some hook => rfl
  | none =>
      cases above : (world.controllers.get id).parent? with
      | none => rfl
      | some parent =>
          by_cases used : world.inUse behaviour parent = true
          · simp [used, Option.filter_some, Option.map_map, Function.comp_def]
          · simp [used, Option.filter_some]

/-- The links lead along the chain: who is found by following them is the first in the chain that knows
the action.  Every link leads to an older controller, so that the way is not too long. -/
theorem exists_chain {top : Controller}
    (stored : world.controllers.get? chief.index = some top) (alone : top.parent? = none)
    (used : world.inUse behaviour chief = true) (around : List (BoundId × BoundNode Part))
    (stationed : roster.Stationed world.controllers chief around)
    (inside : ∀ entry ∈ around, entry.2.kind = .view ∧
      world.inUse behaviour entry.2.scope.controller = true) :
    ∃ chain, roster.Chain chief around chain ∧ ∀ action length,
      (innermost chief around).index < length →
        (world.handler? behaviour action length (innermost chief around)).map Prod.snd =
          chain.findSome? fun id => (world.controllers.get id).action? action := by
  -- From the outermost view inwards: what the enclosing controller leads to is known already.
  induction around with
  | nil =>
      refine ⟨[chief], .root, fun action length enough => ?_⟩
      obtain ⟨length, rfl⟩ := Nat.exists_eq_add_of_lt enough
      rw [map_handler?, innermost, get_of_get? stored, alone]
      cases known : top.action? action <;> simp [known, get_of_get? stored]
  | cons entry around induction =>
      obtain ⟨id, view⟩ := entry
      obtain ⟨posted, rest⟩ := stationed
      obtain ⟨kind, _⟩ := inside _ List.mem_cons_self
      obtain ⟨chain, leads, finds⟩ := induction rest fun entry member =>
        inside entry (List.mem_cons_of_mem _ member)
      have above : world.inUse behaviour (innermost chief around) = true := by
        cases around with
        | nil => exact used
        | cons next _ => exact (inside next (by simp)).2
      cases posted with
      | plain other => exact (other kind).elim
      | @own name table links part given own parent top later =>
          have linked : (world.controllers.get view.scope.controller).parent? = links.parent := by
            rw [get_of_get? own]
            rfl
          by_cases lent : roster.lent id view.scope.controller
          · refine ⟨_, .lent part given lent, fun action length enough => ?_⟩
            obtain ⟨length, rfl⟩ := Nat.exists_eq_add_of_lt enough
            rw [innermost, map_handler?, linked, top lent]
            cases known : (world.controllers.get view.scope.controller).action? action <;> simp [known]
          · refine ⟨_, .own part given lent leads, fun action length enough => ?_⟩
            obtain ⟨length, rfl⟩ := Nat.exists_eq_add_of_lt enough
            have further := finds action _ (later.trans_le (Nat.le_add_right _ length))
            rw [innermost, map_handler?, linked, parent lent, Option.filter_some, if_pos above,
              Option.bind_some, further, List.findSome?_cons]
            cases (world.controllers.get view.scope.controller).action? action <;> rfl
      | shared part vacant inherits same =>
          refine ⟨chain, .shared part vacant inherits leads, fun action length enough => ?_⟩
          rw [innermost, same] at enough ⊢
          exact finds action length enough
      | closed part vacant apart inert later =>
          refine ⟨[], .closed part vacant apart, fun action length enough => ?_⟩
          obtain ⟨length, rfl⟩ := Nat.exists_eq_add_of_lt enough
          rw [innermost, map_handler?, get_of_get? inert]
          rfl

end World

end LiveTemplate
