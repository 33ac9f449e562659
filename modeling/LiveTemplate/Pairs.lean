/-!
# Named entries in order

A sequence of pairs stands for a table with text keys whose order of entries counts.  Looking up is
`List.lookup`: the first entry with a key is the one that counts.
-/

namespace LiveTemplate.Pairs

variable {Value : Type}

/-- Set the entry under a key.  An existing entry keeps its position; a new one comes last. -/
def set (pairs : List (String × Value)) (key : String) (value : Value) : List (String × Value) :=
  match pairs with
  | [] => [(key, value)]
  | (name, old) :: rest =>
    if name = key then (name, value) :: rest else (name, old) :: set rest key value

/-- Remove the entry under a key. -/
def erase (pairs : List (String × Value)) (key : String) : List (String × Value) :=
  match pairs with
  | [] => []
  | (name, value) :: rest => if name = key then rest else (name, value) :: erase rest key

/-- Set the entry under a key, or remove it when there is no value. -/
def assign (pairs : List (String × Value)) (key : String) : Option Value → List (String × Value)
  | some value => set pairs key value
  | none => erase pairs key

/-- Change the entry under a key, if there is one. -/
def modify (pairs : List (String × Value)) (key : String) (change : Value → Value) :
    List (String × Value) :=
  match pairs with
  | [] => []
  | (name, value) :: rest =>
    if name = key then (name, change value) :: rest else (name, value) :: modify rest key change

theorem lookup_cons (name other : String) (value : Value) (rest : List (String × Value)) :
    ((name, value) :: rest).lookup other =
      if other = name then some value else rest.lookup other := by
  rw [List.lookup_cons]
  by_cases same : other = name
  · simp [same]
  · have different : (other == name) = false := by simpa using same
    simp [same, different]

theorem lookup_set (pairs : List (String × Value)) (key other : String) (value : Value) :
    (set pairs key value).lookup other =
      if other = key then some value else pairs.lookup other := by
  induction pairs with
  | nil => simp [set, lookup_cons]
  | cons first rest induction =>
      obtain ⟨name, old⟩ := first
      by_cases here : name = key
      · subst here
        by_cases same : other = name <;> simp [set, lookup_cons, same]
      · simp only [set, if_neg here, lookup_cons, induction]
        by_cases same : other = name
        · have different : other ≠ key := same ▸ here
          simp [same, here]
        · simp [same]

theorem lookup_modify (pairs : List (String × Value)) (key other : String)
    (change : Value → Value) :
    (modify pairs key change).lookup other =
      if other = key then (pairs.lookup other).map change else pairs.lookup other := by
  induction pairs with
  | nil => simp [modify]
  | cons first rest induction =>
      obtain ⟨name, old⟩ := first
      by_cases here : name = key
      · subst here
        by_cases same : other = name <;> simp [modify, lookup_cons, same]
      · simp only [modify, if_neg here, lookup_cons, induction]
        by_cases same : other = name
        · simp [same, here]
        · simp [same]

theorem keys_modify (pairs : List (String × Value)) (key : String) (change : Value → Value) :
    (modify pairs key change).map Prod.fst = pairs.map Prod.fst := by
  induction pairs with
  | nil => rfl
  | cons first rest induction =>
      obtain ⟨name, old⟩ := first
      by_cases here : name = key <;> simp [modify, here, induction]

theorem keys_set (pairs : List (String × Value)) (key : String) (value : Value) :
    (set pairs key value).map Prod.fst =
      pairs.map Prod.fst ++ if key ∈ pairs.map Prod.fst then [] else [key] := by
  induction pairs with
  | nil => rfl
  | cons first rest induction =>
      obtain ⟨name, old⟩ := first
      by_cases here : name = key
      · simp [set, here]
      · have different : key ≠ name := Ne.symm here
        simp only [set, if_neg here, List.map_cons, induction, List.cons_append, List.mem_cons,
          different, false_or]

end LiveTemplate.Pairs
