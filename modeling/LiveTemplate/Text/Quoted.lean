/-!
# Quoted text

A string literal stands between double quotes.  A backslash takes away the meaning of the character
after it; before `n` and `t` it stands for a line feed and a tab.
-/

namespace LiveTemplate.Text.Quoted

/-- The character that a backslash and `c` stand for. -/
def meaning (c : Char) : Char :=
  if c = 'n' then '\n' else if c = 't' then '\t' else c

/-- What is found after an opening quote. -/
inductive Reading where
  /-- The text up to the closing quote, escapes resolved, and what follows that quote. -/
  | closed (text : List Char) (rest : List Char)
  /-- The input ends first.  `seen` is the input as written, without a backslash at its very end. -/
  | unclosed (seen : List Char)

/-- Put an already read piece in front: its meaning before the text, its spelling before what was
seen. -/
def Reading.after (text spelling : List Char) : Reading → Reading
  | .closed later rest => .closed (text ++ later) rest
  | .unclosed seen => .unclosed (spelling ++ seen)

/-- Read from just after an opening quote to the quote that closes it. -/
def read : List Char → Reading
  | [] => .unclosed []
  | ['\\'] => .unclosed []
  | '\\' :: c :: rest => (read rest).after [meaning c] ['\\', c]
  | c :: rest => if c = '"' then .closed [] rest else (read rest).after [c] [c]

theorem Reading.after_eq_closed_iff {text spelling found rest : List Char} {reading : Reading} :
    reading.after text spelling = .closed found rest ↔
      ∃ later, reading = .closed later rest ∧ found = text ++ later := by
  cases reading with
  | closed later remaining =>
    simp only [after, closed.injEq]
    constructor
    · rintro ⟨rfl, rfl⟩
      exact ⟨later, ⟨rfl, rfl⟩, rfl⟩
    · rintro ⟨_, ⟨rfl, rfl⟩, rfl⟩
      exact ⟨rfl, rfl⟩
  | unclosed seen => simp [after]

/-- What follows a closing quote is shorter than what followed the opening one. -/
theorem length_lt_of_read {input text rest : List Char} (found : read input = .closed text rest) :
    rest.length < input.length := by
  fun_induction read input generalizing text rest with
  | case1 => simp at found
  | case2 => simp at found
  | case3 c later induction =>
    obtain ⟨_, inner, -⟩ := Reading.after_eq_closed_iff.1 found
    have := induction inner
    simp only [List.length_cons]
    omega
  | case4 =>
    simp only [Reading.closed.injEq] at found
    simp [found.2]
  | case5 c later _ _ _ induction =>
    obtain ⟨_, inner, -⟩ := Reading.after_eq_closed_iff.1 found
    have := induction inner
    simp only [List.length_cons]
    omega

end LiveTemplate.Text.Quoted
