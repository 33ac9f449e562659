import LiveTemplate.Proofs.Forest.Graft
import LiveTemplate.Proofs.Reactive.Account
import LiveTemplate.View.Part

/-!
# The account of bound nodes

The account of a bound forest is read off the ledgers of its nodes.  An edit of the forest adds or
takes out what the nodes hold that come or go.
-/

namespace LiveTemplate.BoundForest

variable {Part : Type}

/-- The registrations held by the nodes, each with its holder. -/
def account (forest : BoundForest Part) : Account :=
  forest.entries.flatMap fun entry => entry.2.ledger.map fun subscription => (subscription, entry.1)

@[simp] theorem account_nil : account (.nil : BoundForest Part) = [] := rfl

@[simp] theorem account_cons (id : BoundId) (node : BoundNode Part)
    (children rest : BoundForest Part) :
    account (.cons id node children rest) =
      node.ledger.map (fun subscription => (subscription, id)) ++
        (account children ++ account rest) := by
  simp [account, Forest.entries]

@[simp] theorem account_append (first second : BoundForest Part) :
    account (first ++ second) = account first ++ account second := by
  simp [account]

theorem map_fst_account (forest : BoundForest Part) :
    (account forest).map Prod.fst = ledger forest := by
  simp [account, ledger, List.map_flatMap, Function.comp_def]

theorem mem_account {forest : BoundForest Part} {subscription : Subscription} {owner : BoundId} :
    (subscription, owner) ∈ account forest ↔
      ∃ node, (owner, node) ∈ forest.entries ∧ subscription ∈ node.ledger := by
  simp only [account, List.mem_flatMap, List.mem_map, Prod.mk.injEq]
  constructor
  · rintro ⟨⟨id, node⟩, member, _, listed, rfl, rfl⟩
    exact ⟨node, member, listed⟩
  · rintro ⟨node, member, listed⟩
    exact ⟨(owner, node), member, subscription, listed, rfl, rfl⟩

/-- The account is divided between a node with what is below it and the others. -/
theorem account_prune_perm {forest below : BoundForest Part} {id : BoundId}
    {node : BoundNode Part} (distinct : forest.names.Nodup)
    (has : Forest.Has forest id node below) :
    (account forest).Perm (account (.cons id node below .nil) ++ account (forest.prune id)) := by
  obtain ⟨before, after, whole, _, _, pruned⟩ := Forest.exists_split distinct has
  simp only [account, whole, pruned, Forest.entries, List.append_nil, ← List.flatMap_append]
  exact (List.perm_append_comm_assoc ..).flatMap_right _

/-- Another label with the same ledger leaves the account alone. -/
theorem account_modify {forest : BoundForest Part} {id : BoundId}
    {change : BoundNode Part → BoundNode Part}
    (same : ∀ node below, Forest.Has forest id node below → (change node).ledger = node.ledger) :
    account (forest.modify id change) = account forest := by
  induction forest with
  | nil => rfl
  | cons name node children rest inside beside =>
      have within := inside fun node below has => same node below (.inr (.inl has))
      have later := beside fun node below has => same node below (.inr (.inr has))
      simp only [Forest.modify, account_cons, within, later]
      by_cases here : name = id
      · simp [here, same node children (.inl ⟨here, rfl, rfl⟩)]
      · simp [here]

end LiveTemplate.BoundForest
