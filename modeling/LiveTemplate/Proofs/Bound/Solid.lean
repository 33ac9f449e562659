import LiveTemplate.Proofs.Build.Kempt

/-!
# Bound nodes that do not watch

What is left of a bound forest without the nodes that only watch a path: the nodes that stand for
something in the document or are an anchor in it.  Following a path anew exchanges watching nodes and so
leaves these alone.
-/

namespace LiveTemplate.BoundForest

variable {bound : Bindings} {name : BoundId} {node : BoundNode Part}

/-- The bound nodes that do not watch a path. -/
def solid : Bindings → Bindings
  | .nil => .nil
  | .cons name node children rest =>
    if node.kind = .watch then solid children ++ solid rest
    else .cons name node (solid children) (solid rest)

@[simp] theorem solid_nil : solid .nil = .nil := rfl

@[simp] theorem solid_append (first second : Bindings) :
    solid (first ++ second) = solid first ++ solid second := by
  induction first with
  | nil => rfl
  | cons name node children rest _ beside =>
      rw [Forest.cons_append, solid, solid, beside]
      split
      · rw [Forest.append_assoc]
      · rfl

theorem mem_solid {entry : BoundId × BoundNode Part} :
    entry ∈ (solid bound).entries ↔ entry ∈ bound.entries ∧ entry.2.kind ≠ .watch := by
  induction bound with
  | nil => simp [Forest.entries]
  | cons name node children rest inside beside =>
      rw [solid]
      split
      · rename_i watch
        simp only [Forest.entries_append, Forest.entries, List.mem_append, List.mem_cons, inside, beside]
        constructor
        · rintro (⟨here, other⟩ | ⟨here, other⟩)
          · exact ⟨.inr (.inl here), other⟩
          · exact ⟨.inr (.inr here), other⟩
        · rintro ⟨rfl | here | here, other⟩
          · exact (other watch).elim
          · exact .inl ⟨here, other⟩
          · exact .inr ⟨here, other⟩
      · rename_i other
        simp only [Forest.entries, List.mem_append, List.mem_cons, inside, beside]
        constructor
        · rintro (rfl | ⟨here, apart⟩ | ⟨here, apart⟩)
          · exact ⟨.inl rfl, other⟩
          · exact ⟨.inr (.inl here), apart⟩
          · exact ⟨.inr (.inr here), apart⟩
        · rintro ⟨rfl | here | here, apart⟩
          · exact .inl rfl
          · exact .inr (.inl ⟨here, apart⟩)
          · exact .inr (.inr ⟨here, apart⟩)

theorem AllWatch.solid_eq_nil (watch : AllWatch bound) : solid bound = .nil := by
  induction bound with
  | nil => rfl
  | cons name node children rest inside beside =>
      have here : node.kind = .watch := watch _ List.mem_cons_self
      have below := inside fun entry member => watch entry (by simp [Forest.entries, member])
      have later := beside fun entry member => watch entry (by simp [Forest.entries, member])
      rw [solid, if_pos here, below, later]
      rfl

/-- Watching nodes are taken out. -/
theorem solid_without {gone : List BoundId} (watching : ∀ name ∈ gone, ∀ node below,
    Forest.Has bound name node below → node.kind = .watch ∧ AllWatch below) :
    solid (Forest.without bound gone) = solid bound := by
  induction bound with
  | nil => rfl
  | cons name node children rest inside beside =>
      have within := inside fun other member label below has =>
        watching other member label below (.inr (.inl has))
      have later := beside fun other member label below has =>
        watching other member label below (.inr (.inr has))
      rw [Forest.without]
      split
      · rename_i here
        obtain ⟨watch, below⟩ := watching name here node children (Forest.has_of_root ..)
        rw [solid, if_pos watch, later, below.solid_eq_nil, Forest.nil_append]
      · rw [solid, solid, within, later]

/-- An exchange of watching nodes below a node. -/
theorem solid_edit {target : BoundId} {change : Bindings → Bindings}
    (same : ∀ node below, Forest.Has bound target node below → solid (change below) = solid below) :
    solid (bound.edit target (fun node => node) change) = solid bound := by
  induction bound with
  | nil => rfl
  | cons name node children rest inside beside =>
      have within := inside fun label below has => same label below (.inr (.inl has))
      have later := beside fun label below has => same label below (.inr (.inr has))
      rw [Forest.edit]
      split
      · rename_i here
        subst here
        rw [solid, solid, same node children (Forest.has_of_root ..), later]
      · rw [solid, solid, within, later]

/-- Watching nodes have no document nodes, and so none goes with them. -/
theorem skeleton_solid (regular : AllRegular bound) : skeleton (solid bound) = skeleton bound := by
  induction bound with
  | nil => rfl
  | cons name node children rest inside beside =>
      obtain ⟨here, within, later⟩ := regular
      rw [solid]
      split
      · rename_i watch
        simp only [Regular, watch] at here
        rw [skeleton_append, inside within, beside later, skeleton_cons, around_of_none here.1]
      · rw [skeleton_cons, skeleton_cons, inside within, beside later]

end LiveTemplate.BoundForest
