import Mathlib.Data.List.Forall2

/-!
# Sequences that match item by item
-/

namespace LiveTemplate

section Matching

variable {First Second : Type} {related : First → Second → Prop} {firsts : List First}
  {seconds others : List Second}

theorem exists_of_mem_forall₂ (all : List.Forall₂ related firsts seconds) {first : First}
    (member : first ∈ firsts) : ∃ second ∈ seconds, related first second := by
  induction all with
  | nil => cases member
  | cons here _ induction =>
      rcases List.mem_cons.1 member with rfl | later
      · exact ⟨_, List.mem_cons_self, here⟩
      · obtain ⟨second, listed, there⟩ := induction later
        exact ⟨second, List.mem_cons_of_mem _ listed, there⟩

theorem forall₂_imp_mem {after : First → Second → Prop} (all : List.Forall₂ related firsts seconds)
    (imp : ∀ first ∈ firsts, ∀ second, related first second → after first second) :
    List.Forall₂ after firsts seconds := by
  induction all with
  | nil => exact .nil
  | cons here _ induction =>
      constructor
      · exact imp _ List.mem_cons_self _ here
      · exact induction fun first member => imp first (List.mem_cons_of_mem _ member)

/-- Whatever matches each item makes a matching sequence. -/
theorem exists_forall₂ (each : ∀ first ∈ firsts, ∃ second, related first second) :
    ∃ seconds, List.Forall₂ related firsts seconds := by
  induction firsts with
  | nil => exact ⟨[], .nil⟩
  | cons first later induction =>
      obtain ⟨second, here⟩ := each first List.mem_cons_self
      obtain ⟨seconds, all⟩ := induction fun other member => each other (List.mem_cons_of_mem _ member)
      exact ⟨second :: seconds, .cons here all⟩

/-- If no item has two matches, no sequence has. -/
theorem forall₂_unique (one : List.Forall₂ related firsts seconds)
    (other : List.Forall₂ related firsts others)
    (single : ∀ first ∈ firsts, ∀ a b, related first a → related first b → a = b) :
    seconds = others := by
  induction one generalizing others with
  | nil =>
      cases other
      rfl
  | cons here _ induction =>
      cases other with
      | cons there later =>
          rw [single _ List.mem_cons_self _ _ here there,
            induction later fun first member => single first (List.mem_cons_of_mem _ member)]

end Matching

end LiveTemplate
