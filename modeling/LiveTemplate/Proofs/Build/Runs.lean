import LiveTemplate.Proofs.Reactive.Account
import LiveTemplate.View.Build

/-!
# Runs of building steps

`Runs steps before result after` says that the steps lead from one state to another with a result.
The equations take compound steps apart.
-/

namespace LiveTemplate.Build

variable {Client Result Other : Type}

/-- The steps lead from `before` to `after` with the result. -/
def Runs (steps : Build Client Result) (before : BuildState Client) (result : Result)
    (after : BuildState Client) : Prop :=
  steps.run before = (result, after)

variable {before after : BuildState Client} {result : Result}

@[simp] theorem runs_pure {value : Result} :
    Runs (pure value : Build Client Result) before result after ↔
      value = result ∧ before = after := by
  simp only [Runs, StateT.run_pure]
  exact Prod.mk.injEq .. ▸ Iff.rfl

@[simp] theorem runs_bind {steps : Build Client Other} {next : Other → Build Client Result} :
    Runs (steps >>= next) before result after ↔
      ∃ value middle, Runs steps before value middle ∧ Runs (next value) middle result after := by
  simp only [Runs, StateT.run_bind]
  constructor
  · intro run
    exact ⟨_, _, rfl, run⟩
  · rintro ⟨value, middle, first, second⟩
    rw [first]
    exact second

@[simp] theorem runs_map {steps : Build Client Other} {change : Other → Result} :
    Runs (change <$> steps) before result after ↔
      ∃ value, Runs steps before value after ∧ change value = result := by
  rw [map_eq_pure_bind, runs_bind]
  simp only [runs_pure]
  constructor
  · rintro ⟨value, _, run, same, rfl⟩
    exact ⟨value, run, same⟩
  · rintro ⟨value, run, same⟩
    exact ⟨value, after, run, same, rfl⟩

@[simp] theorem runs_ask {Answer : Type} {question : Data → Answer} {answer : Answer} :
    Runs (ask question : Build Client Answer) before answer after ↔
      question before.data = answer ∧ before = after := by
  simp only [Runs, ask]
  exact Prod.mk.injEq .. ▸ Iff.rfl

@[simp] theorem runs_modifyGet {change : BuildState Client → Result × BuildState Client} :
    Runs (modifyGet change : Build Client Result) before result after ↔
      change before = (result, after) :=
  Iff.rfl

@[simp] theorem runs_newNode {node : NodeId} :
    Runs (newNode : Build Client NodeId) before node after ↔
      before.places.next = node ∧ { before with places := before.places.take } = after := by
  simp only [newNode, runs_modifyGet, Prod.mk.injEq]

@[simp] theorem runs_newBound {id : BoundId} :
    Runs (newBound : Build Client BoundId) before id after ↔
      ⟨before.nextBound⟩ = id ∧ { before with nextBound := before.nextBound + 1 } = after := by
  simp only [newBound, runs_modifyGet, Prod.mk.injEq]

@[simp] theorem runs_observe {model : ModelId} {property : String} {observer : PathObserver}
    {subscription : Subscription} :
    Runs (observe model property observer : Build Client Subscription) before subscription after ↔
      (before.data.subscribe model (changeChannel property) (.path observer)).1 = subscription ∧
        { before with
          data := (before.data.subscribe model (changeChannel property) (.path observer)).2 } =
          after := by
  simp only [observe, runs_modifyGet, Prod.mk.injEq]

@[simp] theorem runs_observeChanges {collection : CollectionId} {observer : ChangeObserver}
    {subscription : Subscription} :
    Runs (observeChanges collection observer : Build Client Subscription) before subscription
        after ↔
      (before.data.subscribeChanges collection observer).1 = subscription ∧
        { before with data := (before.data.subscribeChanges collection observer).2 } = after := by
  simp only [observeChanges, runs_modifyGet, Prod.mk.injEq]

end LiveTemplate.Build
