import LiveTemplate.Proofs.Meaning.Picture

/-!
# Room for nested views

More room changes no picture: the number of nested views that are allowed only decides whether there
is one.
-/

namespace LiveTemplate.Setting

open Template (Node Attribute Expression Path Rule)

variable {setting : Setting} {body fuller : ModelId → Option Picture}
  {view more : ModelId → String → Option Picture} {picture : Picture}

theorem items_mono
    (bodies : ∀ model picture, body model = some picture → fuller model = some picture)
    {model : ModelId} {values : List Value} (drawn : items body model values = some picture) :
    items fuller model values = some picture := by
  induction values generalizing picture with
  | nil => exact drawn
  | cons value later induction =>
      simp only [items, Option.bind_eq_bind, Option.bind_eq_some_iff] at drawn ⊢
      obtain ⟨first, here, rest, there, same⟩ := drawn
      exact ⟨first, bodies _ _ here, rest, induction there, same⟩

theorem shown_mono
    (views : ∀ model name picture, view model name = some picture → more model name = some picture)
    (bodies : ∀ model picture, body model = some picture → fuller model = some picture)
    {model : ModelId} {rule : Rule} {value : Value}
    (drawn : setting.shown view body model rule value = some picture) :
    setting.shown more fuller model rule value = some picture := by
  cases rule with
  | showIf =>
      simp only [shown] at drawn ⊢
      cases truth : value.isTruthy setting.data.contents <;> simp only [truth] at drawn ⊢
      · exact drawn
      · exact bodies _ _ drawn
  | showUnless =>
      simp only [shown] at drawn ⊢
      cases truth : value.isTruthy setting.data.contents <;> simp only [truth] at drawn ⊢
      · exact bodies _ _ drawn
      · exact drawn
  | each =>
      simp only [shown, Option.map_eq_some_iff] at drawn ⊢
      obtain ⟨inner, there, same⟩ := drawn
      exact ⟨inner, items_mono bodies there, same⟩
  | collection =>
      simp only [shown] at drawn ⊢
      split at drawn
      · simp only [Option.map_eq_some_iff] at drawn ⊢
        obtain ⟨inner, there, same⟩ := drawn
        exact ⟨inner, items_mono bodies there, same⟩
      · exact items_mono bodies drawn
  | view name =>
      simp only [shown] at drawn ⊢
      split at drawn
      · exact views _ _ _ drawn
      · exact drawn

mutual

theorem node_mono
    (views : ∀ model name picture, view model name = some picture → more model name = some picture) :
    ∀ (source : Node) (model : ModelId) (picture : Picture),
      setting.node view source model = some picture → setting.node more source model = some picture
  | .element tag entries children line, model, picture, drawn => by
      simp only [node, Option.bind_eq_bind, Option.bind_eq_some_iff] at drawn ⊢
      obtain ⟨inner, there, same⟩ := drawn
      exact ⟨inner, nodes_mono views children model inner there, same⟩
  | .text content, model, picture, drawn => drawn
  | .directive rule path source, model, picture, drawn => by
      simp only [node, directive, Option.map_eq_some_iff] at drawn ⊢
      obtain ⟨inner, there, same⟩ := drawn
      exact ⟨inner, shown_mono views (nodes_mono views source) there, same⟩
  | .view name, model, picture, drawn => views model name picture drawn

theorem nodes_mono
    (views : ∀ model name picture, view model name = some picture → more model name = some picture) :
    ∀ (sources : List Node) (model : ModelId) (picture : Picture),
      setting.nodes view sources model = some picture →
        setting.nodes more sources model = some picture
  | [], model, picture, drawn => drawn
  | first :: later, model, picture, drawn => by
      simp only [nodes, Option.bind_eq_bind, Option.bind_eq_some_iff] at drawn ⊢
      obtain ⟨one, here, others, there, same⟩ := drawn
      exact ⟨one, node_mono views first model one here, others,
        nodes_mono views later model others there, same⟩

end

end LiveTemplate.Setting
