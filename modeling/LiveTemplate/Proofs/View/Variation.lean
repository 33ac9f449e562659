import LiveTemplate.Proofs.View.Stages

/-!
# Document nodes that vary

What may become of a document when nothing in it comes, goes or moves: the contents of texts, attributes
and style properties are others, as far as they are touched, and everything else is the same.
-/

namespace LiveTemplate

/-- Only what is touched of a document node is different: the content of a text, attributes, and style
properties. -/
structure NodeData.Varies (touched : Display → Prop) (data other : NodeData) : Prop where
  kind : other.kind = data.kind ∨
    touched .text ∧ ∃ before now, data.kind = .text before ∧ other.kind = .text now
  attributes : ∀ kept : String → Bool, (∀ name, touched (.attribute name) → kept name = false) →
    (other.attributes.filter fun entry => kept entry.1) =
      data.attributes.filter fun entry => kept entry.1
  styles : ∀ kept : String → Bool, (∀ name, touched (.style name) → kept name = false) →
    (other.styles.filter fun entry => kept entry.1) = data.styles.filter fun entry => kept entry.1
  listeners : other.listeners = data.listeners

theorem Pairs.filter_assign {pairs : List (String × String)} {key : String} {kept : String → Bool}
    (dropped : kept key = false) (value : Option String) :
    ((assign pairs key value).filter fun entry => kept entry.1) =
      pairs.filter fun entry => kept entry.1 := by
  cases value with
  | none =>
      rw [assign]
      induction pairs with
      | nil => rfl
      | cons first rest induction =>
          rw [erase]
          split
          · rename_i here
            rw [List.filter_cons_of_neg (by simp [here, dropped])]
          · rw [List.filter_cons, List.filter_cons, induction]
  | some value =>
      rw [assign]
      induction pairs with
      | nil => simp [set, dropped]
      | cons first rest induction =>
          rw [set]
          split
          · rename_i here
            rw [List.filter_cons_of_neg (by simp [here, dropped]),
              List.filter_cons_of_neg (by simp [here, dropped])]
          · rw [List.filter_cons, List.filter_cons, induction]

namespace NodeData.Varies

variable {touched more : Display → Prop} {data other last : NodeData}

theorem refl (touched : Display → Prop) (data : NodeData) : data.Varies touched data :=
  ⟨.inl rfl, fun _ _ => rfl, fun _ _ => rfl, rfl⟩

theorem trans (first : data.Varies touched other) (second : other.Varies touched last) :
    data.Varies touched last where
  kind := by
    rcases first.kind, second.kind with ⟨same | ⟨may, before, now, was, is⟩,
      also | ⟨might, middle, after, held, holds⟩⟩
    · exact .inl (also.trans same)
    · exact .inr ⟨might, middle, after, same.symm.trans held, holds⟩
    · exact .inr ⟨may, before, now, was, also.trans is⟩
    · exact .inr ⟨may, before, after, was, holds⟩
  attributes := fun kept dropped =>
    (second.attributes kept dropped).trans (first.attributes kept dropped)
  styles := fun kept dropped => (second.styles kept dropped).trans (first.styles kept dropped)
  listeners := second.listeners.trans first.listeners

theorem mono (varies : data.Varies touched other) (less : ∀ display, touched display → more display) :
    data.Varies more other where
  kind := varies.kind.imp_right fun found => ⟨less _ found.1, found.2⟩
  attributes := fun kept dropped => varies.attributes kept fun name touch => dropped name (less _ touch)
  styles := fun kept dropped => varies.styles kept fun name touch => dropped name (less _ touch)
  listeners := varies.listeners

theorem of_show {display : Display} (touch : touched display) (contents : Contents) (value : Value) :
    data.Varies touched (display.show contents value data) := by
  match display with
  | .attribute name =>
      exact ⟨.inl rfl, fun kept dropped => Pairs.filter_assign (dropped name touch) _,
        fun _ _ => rfl, rfl⟩
  | .style name =>
      exact ⟨.inl rfl, fun _ _ => rfl, fun kept dropped => Pairs.filter_assign (dropped name touch) _,
        rfl⟩
  | .text =>
      rw [Display.show, setText]
      split
      · rename_i before kind
        exact ⟨.inr ⟨touch, before, _, kind, rfl⟩, fun _ _ => rfl, fun _ _ => rfl, rfl⟩
      · exact .refl _ _

/-! ### Nodes that may be gone -/

variable {early late final : Option NodeData}

theorem rel_refl (touched : Display → Prop) (found : Option NodeData) :
    Option.Rel (NodeData.Varies touched) found found := by
  cases found with
  | none => exact .none
  | some data => exact .some (.refl touched data)

theorem rel_trans (first : Option.Rel (NodeData.Varies touched) early late)
    (second : Option.Rel (NodeData.Varies touched) late final) :
    Option.Rel (NodeData.Varies touched) early final := by
  cases first with
  | none => exact second
  | some one =>
      cases second with
      | some two => exact .some (one.trans two)

theorem rel_mono (varies : Option.Rel (NodeData.Varies touched) early late)
    (less : ∀ display, touched display → more display) :
    Option.Rel (NodeData.Varies more) early late := by
  cases varies with
  | none => exact .none
  | some one => exact .some (one.mono less)

end NodeData.Varies

/-- No document node comes, goes or moves, and only what is touched of them is different. -/
structure Document.Varies (touched : NodeId → Display → Prop) (document edited : Document) : Prop where
  shape : edited.nodes.shape = document.nodes.shape
  data : ∀ dom, Option.Rel (NodeData.Varies (touched dom)) (document.data? dom) (edited.data? dom)

namespace Document.Varies

variable {touched more : NodeId → Display → Prop} {document edited last : Document}

theorem of_nodes (touched : NodeId → Display → Prop) (same : edited.nodes = document.nodes) :
    document.Varies touched edited := by
  refine ⟨congrArg _ same, fun dom => ?_⟩
  rw [Document.data?, Document.data?, same]
  exact NodeData.Varies.rel_refl ..

theorem trans (first : document.Varies touched edited) (second : edited.Varies touched last) :
    document.Varies touched last where
  shape := second.shape.trans first.shape
  data := fun dom => NodeData.Varies.rel_trans (first.data dom) (second.data dom)

theorem mono (varies : document.Varies touched edited)
    (less : ∀ dom display, touched dom display → more dom display) : document.Varies more edited where
  shape := varies.shape
  data := fun dom => NodeData.Varies.rel_mono (varies.data dom) (less dom)

theorem of_modify {dom : NodeId} {display : Display} (touch : touched dom display)
    (contents : Contents) (value : Value) :
    document.Varies touched (document.modify dom (display.show contents value)) where
  shape := by rw [Document.modify, Forest.shape_modify]
  data := by
    intro other
    rw [Document.data?_modify]
    split
    · rename_i here
      subst here
      cases document.data? other with
      | none => exact .none
      | some data => exact .some (.of_show touch contents value)
    · exact NodeData.Varies.rel_refl ..

end Document.Varies

end LiveTemplate
