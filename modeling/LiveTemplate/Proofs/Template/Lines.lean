import LiveTemplate.Template.Layout
import Mathlib.Data.List.TakeWhile
import Mathlib.Order.Nat

/-!
# The lines of a source that are seen

A line is seen if it is not blank.  What counts of it is its text without the blanks at its end.  Lines
that are seen keep their numbers, so that they are found in ascending order.
-/

namespace LiveTemplate.Template

/-- The text has no characters but blanks. -/
def Blank (text : List Char) : Prop :=
  ∀ c ∈ text, Text.isBlank c = true

instance (text : List Char) : Decidable (Blank text) :=
  decidable_of_iff (text.all Text.isBlank = true) List.all_eq_true

section Trimming

variable {text other blanks : List Char} {number : Nat} {later lines others : List (List Char)}

theorem trimEnd_eq_nil_iff : Text.trimEnd text = [] ↔ Blank text := by
  induction text with
  | nil => exact iff_of_true rfl nofun
  | cons c rest induction =>
      rw [Blank, List.forall_mem_cons, ← Blank, ← induction, Text.trimEnd]
      split
      · rename_i empty
        simp [empty]
      · rename_i kept
        exact iff_of_false (List.cons_ne_nil _ _) fun both => kept both.2

/-- Blanks at the end make no difference. -/
theorem trimEnd_append_blanks (blank : Blank blanks) (text : List Char) :
    Text.trimEnd (text ++ blanks) = Text.trimEnd text := by
  induction text with
  | nil => exact trimEnd_eq_nil_iff.2 blank
  | cons c rest induction => rw [List.cons_append, Text.trimEnd, induction, Text.trimEnd]

/-- Only blanks are taken away. -/
theorem exists_blanks (text : List Char) : ∃ blanks, Blank blanks ∧ text = Text.trimEnd text ++ blanks := by
  induction text with
  | nil => exact ⟨[], nofun, rfl⟩
  | cons c rest induction =>
      obtain ⟨blanks, blank, same⟩ := induction
      rw [Text.trimEnd]
      split
      · rename_i empty
        split
        · rename_i here
          exact ⟨c :: rest, List.forall_mem_cons.2 ⟨here, trimEnd_eq_nil_iff.1 empty⟩, rfl⟩
        · exact ⟨rest, trimEnd_eq_nil_iff.1 empty, rfl⟩
      · exact ⟨blanks, blank, congrArg (c :: ·) same⟩

/-- What is left without the blanks at both ends is empty if and only if all are blanks. -/
theorem content_isEmpty_iff :
    ((Text.trimEnd text).dropWhile Text.isBlank).isEmpty = true ↔ Blank text := by
  rw [List.isEmpty_iff]
  constructor
  · intro empty
    obtain ⟨blanks, blank, same⟩ := exists_blanks text
    have inner := List.takeWhile_append_dropWhile (p := Text.isBlank) (l := Text.trimEnd text)
    rw [empty, List.append_nil] at inner
    rw [same, ← inner, Blank, List.forall_mem_append]
    exact ⟨fun c member => List.mem_takeWhile_imp member, blank⟩
  · intro blank
    rw [trimEnd_eq_nil_iff.2 blank]
    rfl

theorem sourceLinesFrom_blank (blank : Blank text) (number : Nat) (later : List (List Char)) :
    sourceLinesFrom number (text :: later) = sourceLinesFrom (number + 1) later := by
  rw [sourceLinesFrom]
  exact if_pos (content_isEmpty_iff.2 blank)

theorem sourceLinesFrom_seen (seen : ¬ Blank text) (number : Nat) (later : List (List Char)) :
    sourceLinesFrom number (text :: later) =
      ⟨number, (Text.trimEnd text).takeWhile Text.isBlank,
        (Text.trimEnd text).dropWhile Text.isBlank⟩ :: sourceLinesFrom (number + 1) later := by
  rw [sourceLinesFrom]
  exact if_neg fun empty => seen (content_isEmpty_iff.1 empty)

theorem sourceLinesFrom_append (lines others : List (List Char)) (number : Nat) :
    sourceLinesFrom number (lines ++ others) =
      sourceLinesFrom number lines ++ sourceLinesFrom (number + lines.length) others := by
  induction lines generalizing number with
  | nil => rfl
  | cons text later induction =>
      have shift : number + (text :: later).length = number + 1 + later.length := by
        simp only [List.length_cons]
        omega
      rw [List.cons_append, shift]
      by_cases blank : Blank text
      · rw [sourceLinesFrom_blank blank, sourceLinesFrom_blank blank, induction]
      · rw [sourceLinesFrom_seen blank, sourceLinesFrom_seen blank, induction, List.cons_append]

/-- Lines that differ in blanks at their ends are the same. -/
theorem sourceLinesFrom_congr (same : lines.map Text.trimEnd = others.map Text.trimEnd)
    (number : Nat) : sourceLinesFrom number lines = sourceLinesFrom number others := by
  induction lines generalizing number others with
  | nil =>
      obtain rfl := List.map_eq_nil_iff.1 same.symm
      rfl
  | cons text later induction =>
      cases others with
      | nil => cases same
      | cons other following =>
          obtain ⟨here, there⟩ := List.cons.inj same
          rw [sourceLinesFrom, sourceLinesFrom, here, induction there]

/-- The lines that are seen have the numbers of lines that are not blank. -/
theorem mem_sourceLinesFrom {line : SourceLine} (member : line ∈ sourceLinesFrom number lines) :
    number ≤ line.number ∧ ∃ text, lines[line.number - number]? = some text ∧ ¬ Blank text := by
  induction lines generalizing number with
  | nil => cases member
  | cons text later induction =>
      have beyond : line ∈ sourceLinesFrom (number + 1) later →
          number ≤ line.number ∧
            ∃ seen, (text :: later)[line.number - number]? = some seen ∧ ¬ Blank seen := by
        intro member
        obtain ⟨less, seen, found, apart⟩ := induction member
        have shift : line.number - number = line.number - (number + 1) + 1 := by omega
        exact ⟨by omega, seen, by rw [shift, List.getElem?_cons_succ, found], apart⟩
      by_cases blank : Blank text
      · rw [sourceLinesFrom_blank blank] at member
        exact beyond member
      · rw [sourceLinesFrom_seen blank] at member
        rcases List.mem_cons.1 member with rfl | member
        · exact ⟨le_rfl, text, by simp, blank⟩
        · exact beyond member

/-- Every line that is not blank is seen. -/
theorem exists_sourceLine {place : Nat} (found : lines[place]? = some text) (seen : ¬ Blank text)
    (number : Nat) : ∃ line ∈ sourceLinesFrom number lines, line.number = number + place := by
  induction lines generalizing number place with
  | nil => cases found
  | cons first later induction =>
      cases place with
      | zero =>
          cases found
          rw [sourceLinesFrom_seen seen]
          exact ⟨_, List.mem_cons_self, rfl⟩
      | succ place =>
          obtain ⟨line, member, same⟩ := induction found (number + 1)
          refine ⟨line, ?_, by omega⟩
          by_cases blank : Blank first
          · rwa [sourceLinesFrom_blank blank]
          · rw [sourceLinesFrom_seen blank]
            exact List.mem_cons_of_mem _ member

/-- The lines that are seen are found in ascending order. -/
theorem sourceLinesFrom_ascending (lines : List (List Char)) (number : Nat) :
    (sourceLinesFrom number lines).Pairwise fun early late => early.number < late.number := by
  induction lines generalizing number with
  | nil => exact .nil
  | cons text later induction =>
      by_cases blank : Blank text
      · rw [sourceLinesFrom_blank blank]
        exact induction (number + 1)
      · rw [sourceLinesFrom_seen blank]
        refine .cons (fun line member => ?_) (induction (number + 1))
        exact (mem_sourceLinesFrom member).1

end Trimming

end LiveTemplate.Template
