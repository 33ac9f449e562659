import LiveTemplate.Proofs.Build.Constructs
import Mathlib.Data.List.Nodup

/-!
# What document nodes wear

Attributes and style properties are tables.  What counts about them is what they say under each
name; the order of their entries is that in which they happened to be set.
-/

namespace LiveTemplate

namespace Pairs

variable {Item : Type}

theorem lookup_eq_none {pairs : List (String × Item)} {key : String}
    (absent : key ∉ pairs.map Prod.fst) : pairs.lookup key = none := by
  rw [List.lookup_eq_none_iff]
  intro entry member
  rw [bne_iff_ne]
  rintro rfl
  exact absent (List.mem_map_of_mem member)

theorem lookup_eq_some_iff {pairs : List (String × Item)} (single : (pairs.map Prod.fst).Nodup)
    {key : String} {item : Item} : pairs.lookup key = some item ↔ (key, item) ∈ pairs := by
  induction pairs with
  | nil => simp
  | cons first rest induction =>
      obtain ⟨name, value⟩ := first
      simp only [List.map_cons, List.nodup_cons] at single
      rw [lookup_cons, List.mem_cons]
      by_cases here : key = name
      · subst here
        have absent : (key, item) ∉ rest := fun member => single.1 (List.mem_map_of_mem member)
        simp [absent, eq_comm]
      · simp [here, induction single.2]

theorem keys_erase_sublist (pairs : List (String × Item)) (key : String) :
    ((erase pairs key).map Prod.fst).Sublist (pairs.map Prod.fst) := by
  induction pairs with
  | nil => simp [erase]
  | cons first rest induction =>
      obtain ⟨name, value⟩ := first
      by_cases here : name = key
      · simp [erase, here]
      · simpa [erase, here] using induction

theorem lookup_erase {pairs : List (String × Item)} (single : (pairs.map Prod.fst).Nodup)
    (key other : String) :
    (erase pairs key).lookup other = if other = key then none else pairs.lookup other := by
  induction pairs with
  | nil => simp [erase]
  | cons first rest induction =>
      obtain ⟨name, value⟩ := first
      simp only [List.map_cons, List.nodup_cons] at single
      by_cases here : name = key
      · subst here
        simp only [erase, if_pos, lookup_cons]
        by_cases same : other = name
        · subst same
          simp [lookup_eq_none single.1]
        · simp [same]
      · simp only [erase, if_neg here, lookup_cons, induction single.2]
        by_cases same : other = name
        · simp [same, here]
        · simp [same]

theorem lookup_assign {pairs : List (String × Item)} (single : (pairs.map Prod.fst).Nodup)
    (key other : String) (item : Option Item) :
    (assign pairs key item).lookup other = if other = key then item else pairs.lookup other := by
  cases item with
  | none => exact lookup_erase single key other
  | some value => exact lookup_set pairs key other value

theorem keys_assign {pairs : List (String × Item)} (single : (pairs.map Prod.fst).Nodup)
    (key : String) (item : Option Item) :
    ((assign pairs key item).map Prod.fst).Nodup ∧
      ∀ name ∈ (assign pairs key item).map Prod.fst, name = key ∨ name ∈ pairs.map Prod.fst := by
  cases item with
  | none =>
      have fewer := keys_erase_sublist pairs key
      exact ⟨single.sublist fewer, fun name member => .inr (fewer.subset member)⟩
  | some value =>
      rw [assign, keys_set]
      by_cases known : key ∈ pairs.map Prod.fst
      · simp only [if_pos known, List.append_nil]
        exact ⟨single, fun name member => .inr member⟩
      · simp only [if_neg known]
        constructor
        · rw [List.nodup_append']
          exact ⟨single, List.nodup_singleton key, by simpa using known⟩
        · intro name member
          rcases List.mem_append.1 member with old | new
          · exact .inr old
          · exact .inl (List.mem_singleton.1 new)

/-- Tables without repeated names that say the same have the same entries. -/
theorem perm_of_lookup {first second : List (String × Item)}
    (single : (first.map Prod.fst).Nodup) (also : (second.map Prod.fst).Nodup)
    (same : ∀ key, first.lookup key = second.lookup key) : first.Perm second := by
  rw [List.perm_ext_iff_of_nodup single.of_map also.of_map]
  rintro ⟨key, item⟩
  rw [← lookup_eq_some_iff single, ← lookup_eq_some_iff also, same]

end Pairs

/-- Two document nodes look alike: the order of attributes and of style properties aside. -/
structure NodeData.Alike (first second : NodeData) : Prop where
  kind : first.kind = second.kind
  attributes : first.attributes.Perm second.attributes
  styles : first.styles.Perm second.styles

theorem NodeData.Alike.refl (data : NodeData) : data.Alike data :=
  ⟨rfl, .refl _, .refl _⟩

theorem NodeData.Alike.trans {first second third : NodeData} (alike : first.Alike second)
    (also : second.Alike third) : first.Alike third :=
  ⟨alike.kind.trans also.kind, alike.attributes.trans also.attributes,
    alike.styles.trans also.styles⟩

namespace Display

/-- What is shown for a value: a text, or nothing. -/
def outcome (display : Display) (contents : Contents) (value : Value) : Option String :=
  match display with
  | .attribute _ | .style _ => attributeText contents value
  | .text => some (value.displayText contents)

@[simp] theorem outcome_text (display : Display) (contents : Contents) (text : String) :
    display.outcome contents (.text text) = some text := by
  cases display <;> simp [outcome, attributeText, Value.displayText, Value.textWith]

/-- A document node shows it. -/
def Shows (display : Display) (outcome : Option String) (data : NodeData) : Prop :=
  match display with
  | .attribute name => data.attributes.lookup name = outcome
  | .style name => data.styles.lookup name = outcome
  | .text => ∃ content, data.kind = .text content ∧ outcome = some content

end Display

/-- A document node has no attributes and style properties but those that are shown there. -/
structure NodeData.Neat (data : NodeData) (displays : List Display) : Prop where
  attributes : (data.attributes.map Prod.fst).Nodup
  styles : (data.styles.map Prod.fst).Nodup
  named : ∀ name ∈ data.attributes.map Prod.fst, Display.attribute name ∈ displays
  styled : ∀ name ∈ data.styles.map Prod.fst, Display.style name ∈ displays

section Show

variable {data other : NodeData} {display : Display} {displays : List Display}

theorem NodeData.Neat.show (neat : data.Neat displays) (member : display ∈ displays)
    (contents : Contents) (value : Value) : (display.show contents value data).Neat displays := by
  match display with
  | .attribute name =>
      obtain ⟨single, known⟩ := Pairs.keys_assign neat.attributes name (attributeText contents value)
      refine ⟨single, neat.styles, ?_, neat.styled⟩
      intro key there
      rcases known key there with rfl | old
      · exact member
      · exact neat.named key old
  | .style name =>
      obtain ⟨single, known⟩ := Pairs.keys_assign neat.styles name (attributeText contents value)
      refine ⟨neat.attributes, single, neat.named, ?_⟩
      intro key there
      rcases known key there with rfl | old
      · exact member
      · exact neat.styled key old
  | .text =>
      simp only [Display.show, NodeData.setText]
      split
      · exact ⟨neat.attributes, neat.styles, neat.named, neat.styled⟩
      · exact neat

theorem Display.kind_show (display : Display) (contents : Contents) (value : Value)
    (data : NodeData) (other : display ≠ .text) :
    (display.show contents value data).kind = data.kind := by
  match display with
  | .attribute name => rfl
  | .style name => rfl
  | .text => exact (other rfl).elim

/-- What is shown anew is there afterwards. -/
theorem Display.shows_show (neat : data.Neat displays)
    (text : display = .text → ∃ content, data.kind = .text content) (contents : Contents)
    (value : Value) :
    display.Shows (display.outcome contents value) (display.show contents value data) := by
  match display with
  | .attribute name =>
      simp [Shows, Display.show, NodeData.setAttribute, Pairs.lookup_assign neat.attributes, outcome]
  | .style name =>
      simp [Shows, Display.show, NodeData.setStyle, Pairs.lookup_assign neat.styles, outcome]
  | .text =>
      obtain ⟨content, kind⟩ := text rfl
      exact ⟨_, by simp [Display.show, NodeData.setText, kind], rfl⟩

/-- What is shown elsewhere stays. -/
theorem Display.shows_show_of_ne (neat : data.Neat displays) {another : Display}
    (apart : another ≠ display) (contents : Contents) (value : Value) {outcome : Option String} :
    another.Shows outcome (display.show contents value data) ↔ another.Shows outcome data := by
  match display, another with
  | .attribute name, .attribute key =>
      have differs : key ≠ name := fun same => apart (by rw [same])
      simp [Shows, Display.show, NodeData.setAttribute, Pairs.lookup_assign neat.attributes, differs]
  | .style name, .style key =>
      have differs : key ≠ name := fun same => apart (by rw [same])
      simp [Shows, Display.show, NodeData.setStyle, Pairs.lookup_assign neat.styles, differs]
  | .text, .text => exact (apart rfl).elim
  | .attribute _, .style _ | .attribute _, .text | .style _, .attribute _ | .style _, .text =>
      rfl
  | .text, .attribute _ | .text, .style _ =>
      simp only [Shows, Display.show, NodeData.setText]
      split <;> rfl

end Show

/-- Two document nodes look alike if they show the same and nothing else. -/
theorem NodeData.Neat.alike {first second : NodeData} {displays : List Display}
    (neat : first.Neat displays) (also : second.Neat displays) (kind : first.kind = second.kind)
    (same : ∀ display ∈ displays, ∃ outcome, display.Shows outcome first ∧
      display.Shows outcome second) : first.Alike second where
  kind := kind
  attributes := by
    apply Pairs.perm_of_lookup neat.attributes also.attributes
    intro key
    by_cases called : Display.attribute key ∈ displays
    · obtain ⟨outcome, here, there⟩ := same _ called
      exact here.trans there.symm
    · rw [Pairs.lookup_eq_none fun member => called (neat.named key member),
        Pairs.lookup_eq_none fun member => called (also.named key member)]
  styles := by
    apply Pairs.perm_of_lookup neat.styles also.styles
    intro key
    by_cases called : Display.style key ∈ displays
    · obtain ⟨outcome, here, there⟩ := same _ called
      exact here.trans there.symm
    · rw [Pairs.lookup_eq_none fun member => called (neat.styled key member),
        Pairs.lookup_eq_none fun member => called (also.styled key member)]

end LiveTemplate
