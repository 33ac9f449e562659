import LiveTemplate.Forest.Basic
import Mathlib.Data.List.Basic
import Mathlib.Data.List.Nodup

/-!
# What stands in a forest

`Has` says that a node stands somewhere in a forest, with its label and with the forest below it.
If no name is used twice, it determines the label and what is below, and the look-ups by name find
exactly these.  `Everywhere` says that something holds of each node with what is below it.
-/

namespace LiveTemplate.Forest

variable {Name Label Other : Type}

@[simp] theorem nil_append (forest : Forest Name Label) : nil ++ forest = forest := rfl

@[simp] theorem cons_append (name : Name) (label : Label)
    (children rest later : Forest Name Label) :
    cons name label children rest ++ later = cons name label children (rest ++ later) := rfl

@[simp] theorem append_nil (forest : Forest Name Label) : forest ++ nil = forest := by
  induction forest with
  | nil => rfl
  | cons name label children rest _ induction => simp [induction]

theorem append_assoc (first second third : Forest Name Label) :
    first ++ second ++ third = first ++ (second ++ third) := by
  induction first with
  | nil => rfl
  | cons name label children rest _ induction => simp [induction]

@[simp] theorem names_nil : (nil : Forest Name Label).names = [] := rfl

@[simp] theorem names_cons (name : Name) (label : Label) (children rest : Forest Name Label) :
    (cons name label children rest).names = name :: (children.names ++ rest.names) := by
  simp [names, entries]

theorem length_names (forest : Forest Name Label) : forest.names.length = forest.size := by
  induction forest with
  | nil => rfl
  | cons name label children rest inside beside =>
      rw [names_cons, List.length_cons, List.length_append, inside, beside, size]

@[simp] theorem entries_append (first second : Forest Name Label) :
    (first ++ second).entries = first.entries ++ second.entries := by
  induction first with
  | nil => rfl
  | cons name label children rest _ induction => simp [entries, induction]

@[simp] theorem names_append (first second : Forest Name Label) :
    (first ++ second).names = first.names ++ second.names := by
  simp [names]

@[simp] theorem roots_append (first second : Forest Name Label) :
    (first ++ second).roots = first.roots ++ second.roots := by
  induction first with
  | nil => rfl
  | cons name label children rest _ induction => simp [roots, induction]

@[simp] theorem leaf_names (name : Name) (label : Label) : (leaf name label).names = [name] := rfl

theorem roots_subset_names (forest : Forest Name Label) : forest.roots ⊆ forest.names := by
  induction forest with
  | nil => simp [roots]
  | cons name label children rest _ induction =>
      intro root member
      rcases List.mem_cons.1 member with rfl | later
      · simp
      · have found := induction later
        simp [found]

/-- The same trees with other labels. -/
def map (change : Label → Other) : Forest Name Label → Forest Name Other
  | nil => nil
  | cons name label children rest =>
    cons name (change label) (children.map change) (rest.map change)

/-- The same trees without labels. -/
def shape (forest : Forest Name Label) : Forest Name Unit :=
  forest.map fun _ => ()

@[simp] theorem map_append (change : Label → Other) (first second : Forest Name Label) :
    (first ++ second).map change = first.map change ++ second.map change := by
  induction first with
  | nil => rfl
  | cons name label children rest _ induction => simp [map, induction]

@[simp] theorem names_map (change : Label → Other) (forest : Forest Name Label) :
    (forest.map change).names = forest.names := by
  induction forest with
  | nil => rfl
  | cons name label children rest below beside => simp [map, below, beside]

@[simp] theorem roots_map (change : Label → Other) (forest : Forest Name Label) :
    (forest.map change).roots = forest.roots := by
  induction forest with
  | nil => rfl
  | cons name label children rest _ beside => simp [map, roots, beside]

@[simp] theorem names_shape (forest : Forest Name Label) : forest.shape.names = forest.names :=
  names_map _ forest

@[simp] theorem roots_shape (forest : Forest Name Label) : forest.shape.roots = forest.roots :=
  roots_map _ forest

@[simp] theorem shape_nil : (nil : Forest Name Label).shape = nil := rfl

@[simp] theorem shape_cons (name : Name) (label : Label) (children rest : Forest Name Label) :
    (cons name label children rest).shape = cons name () children.shape rest.shape := rfl

@[simp] theorem shape_append (first second : Forest Name Label) :
    (first ++ second).shape = first.shape ++ second.shape :=
  map_append _ first second

/-- The roots with their labels. -/
def crown : Forest Name Label → List (Name × Label)
  | nil => []
  | cons name label _ rest => (name, label) :: rest.crown

theorem map_fst_crown (forest : Forest Name Label) :
    forest.crown.map Prod.fst = forest.roots := by
  induction forest with
  | nil => rfl
  | cons name label children rest _ beside => simp [crown, roots, beside]

@[simp] theorem crown_append (first second : Forest Name Label) :
    (first ++ second).crown = first.crown ++ second.crown := by
  induction first with
  | nil => rfl
  | cons name label children rest _ induction => simp [crown, induction]

theorem crown_subset_entries (forest : Forest Name Label) : forest.crown ⊆ forest.entries := by
  induction forest with
  | nil => simp [crown]
  | cons name label children rest _ beside =>
      intro entry member
      rcases List.mem_cons.1 member with rfl | later
      · simp [entries]
      · have found := beside later
        simp [entries, found]

/-- A node stands in the forest, with its label and with the forest below it. -/
def Has (forest : Forest Name Label) (name : Name) (label : Label)
    (below : Forest Name Label) : Prop :=
  match forest with
  | nil => False
  | cons first mark children rest =>
    (first = name ∧ mark = label ∧ children = below) ∨
      children.Has name label below ∨ rest.Has name label below

theorem has_append {first second : Forest Name Label} {name : Name} {label : Label}
    {below : Forest Name Label} :
    (first ++ second).Has name label below ↔
      first.Has name label below ∨ second.Has name label below := by
  induction first with
  | nil => simp [Has]
  | cons name label children rest _ induction => simp [Has, induction, or_assoc]

theorem has_of_root (name : Name) (label : Label) (children rest : Forest Name Label) :
    (cons name label children rest).Has name label children :=
  .inl ⟨rfl, rfl, rfl⟩

theorem Has.mem {forest below : Forest Name Label} {name : Name} {label : Label}
    (has : forest.Has name label below) : name ∈ forest.names := by
  induction forest with
  | nil => exact has.elim
  | cons first mark children rest inside beside =>
      rcases has with ⟨rfl, _, _⟩ | found | found
      · simp
      · simp [inside found]
      · simp [beside found]

theorem exists_has {forest : Forest Name Label} {name : Name} (member : name ∈ forest.names) :
    ∃ label below, forest.Has name label below := by
  induction forest with
  | nil => simp at member
  | cons first mark children rest inside beside =>
      simp only [names_cons, List.mem_cons, List.mem_append] at member
      rcases member with rfl | found | found
      · exact ⟨mark, children, has_of_root ..⟩
      · obtain ⟨label, below, has⟩ := inside found
        exact ⟨label, below, .inr (.inl has)⟩
      · obtain ⟨label, below, has⟩ := beside found
        exact ⟨label, below, .inr (.inr has)⟩

theorem has_iff_mem_entries {forest : Forest Name Label} {name : Name} {label : Label} :
    (∃ below, forest.Has name label below) ↔ (name, label) ∈ forest.entries := by
  induction forest with
  | nil => simp [Has, entries]
  | cons first mark children rest inside beside =>
      simp only [Has, entries, List.mem_cons, List.mem_append, Prod.mk.injEq, exists_or, inside,
        beside, exists_and_left, exists_eq', and_true]
      constructor
      · rintro (⟨rfl, rfl⟩ | found)
        · exact .inl ⟨rfl, rfl⟩
        · exact .inr found
      · rintro (⟨rfl, rfl⟩ | found)
        · exact .inl ⟨rfl, rfl⟩
        · exact .inr found

theorem Has.mem_entries {forest below : Forest Name Label} {name : Name} {label : Label}
    (has : forest.Has name label below) : (name, label) ∈ forest.entries :=
  has_iff_mem_entries.1 ⟨below, has⟩

theorem Has.sublist {forest below : Forest Name Label} {name : Name} {label : Label}
    (has : forest.Has name label below) : (name :: below.names).Sublist forest.names := by
  induction forest with
  | nil => exact has.elim
  | cons first mark children rest inside beside =>
      rw [names_cons]
      rcases has with ⟨rfl, _, rfl⟩ | found | found
      · exact (List.sublist_append_left ..).cons_cons first
      · exact ((inside found).trans (List.sublist_append_left ..)).cons first
      · exact ((beside found).trans (List.sublist_append_right ..)).cons first

theorem Has.nodup {forest below : Forest Name Label} {name : Name} {label : Label}
    (has : forest.Has name label below) (distinct : forest.names.Nodup) :
    (name :: below.names).Nodup :=
  distinct.sublist has.sublist

theorem Has.trans {forest middle below : Forest Name Label} {upper name : Name}
    {mark label : Label} (outer : forest.Has upper mark middle)
    (inner : middle.Has name label below) : forest.Has name label below := by
  induction forest with
  | nil => exact outer.elim
  | cons first sign children rest inside beside =>
      rcases outer with ⟨_, _, rfl⟩ | found | found
      · exact .inr (.inl inner)
      · exact .inr (.inl (inside found))
      · exact .inr (.inr (beside found))

theorem Has.entries_subset {forest below : Forest Name Label} {name : Name} {label : Label}
    (has : forest.Has name label below) : below.entries ⊆ forest.entries := by
  rintro ⟨other, mark⟩ member
  obtain ⟨_, inside⟩ := has_iff_mem_entries.2 member
  exact (has.trans inside).mem_entries

theorem exists_has_of_map {change : Label → Other} {forest : Forest Name Label} {name : Name}
    {mark : Other} {below : Forest Name Other} (has : (forest.map change).Has name mark below) :
    ∃ label inner, forest.Has name label inner ∧ mark = change label ∧
      below = inner.map change := by
  induction forest with
  | nil => exact has.elim
  | cons first label children rest inside beside =>
      rcases has with ⟨rfl, rfl, rfl⟩ | found | found
      · exact ⟨label, children, has_of_root .., rfl, rfl⟩
      · obtain ⟨sign, inner, old, same⟩ := inside found
        exact ⟨sign, inner, .inr (.inl old), same⟩
      · obtain ⟨sign, inner, old, same⟩ := beside found
        exact ⟨sign, inner, .inr (.inr old), same⟩

theorem distinct_parts {name : Name} {label : Label} {children rest : Forest Name Label}
    (distinct : (cons name label children rest).names.Nodup) :
    name ∉ children.names ∧ name ∉ rest.names ∧ children.names.Nodup ∧ rest.names.Nodup ∧
      children.names.Disjoint rest.names := by
  simp only [names_cons, List.nodup_cons, List.mem_append, not_or, List.nodup_append'] at distinct
  tauto

/-- Names determine nodes. -/
theorem Has.unique {forest below other : Forest Name Label} {name : Name} {label mark : Label}
    (distinct : forest.names.Nodup) (has : forest.Has name label below)
    (also : forest.Has name mark other) : label = mark ∧ below = other := by
  induction forest with
  | nil => exact has.elim
  | cons first sign children rest inside beside =>
      obtain ⟨notInside, notBeside, distinctInside, distinctBeside, apart⟩ :=
        distinct_parts distinct
      rcases has with ⟨rfl, rfl, rfl⟩ | found | found
      · rcases also with ⟨_, rfl, rfl⟩ | again | again
        · exact ⟨rfl, rfl⟩
        · exact (notInside again.mem).elim
        · exact (notBeside again.mem).elim
      · rcases also with ⟨rfl, _, _⟩ | again | again
        · exact (notInside found.mem).elim
        · exact inside distinctInside found again
        · exact (apart found.mem again.mem).elim
      · rcases also with ⟨rfl, _, _⟩ | again | again
        · exact (notBeside found.mem).elim
        · exact (apart again.mem found.mem).elim
        · exact beside distinctBeside found again

/-- Something holds of each node with its label and what is below it. -/
def Everywhere (holds : Name → Label → Forest Name Label → Prop) : Forest Name Label → Prop
  | nil => True
  | cons name label children rest =>
    holds name label children ∧ children.Everywhere holds ∧ rest.Everywhere holds

theorem everywhere_iff {holds : Name → Label → Forest Name Label → Prop}
    {forest : Forest Name Label} :
    forest.Everywhere holds ↔
      ∀ name label below, forest.Has name label below → holds name label below := by
  induction forest with
  | nil => simp [Everywhere, Has]
  | cons first mark children rest inside beside =>
      simp only [Everywhere, Has, inside, beside]
      constructor
      · rintro ⟨here, within, later⟩ name label below (⟨rfl, rfl, rfl⟩ | found | found)
        · exact here
        · exact within _ _ _ found
        · exact later _ _ _ found
      · intro all
        exact ⟨all _ _ _ (.inl ⟨rfl, rfl, rfl⟩),
          fun name label below found => all _ _ _ (.inr (.inl found)),
          fun name label below found => all _ _ _ (.inr (.inr found))⟩

theorem Everywhere.at {holds : Name → Label → Forest Name Label → Prop}
    {forest below : Forest Name Label} {name : Name} {label : Label}
    (all : forest.Everywhere holds) (has : forest.Has name label below) :
    holds name label below :=
  everywhere_iff.1 all _ _ _ has

theorem Everywhere.below {holds : Name → Label → Forest Name Label → Prop}
    {forest below : Forest Name Label} {name : Name} {label : Label}
    (all : forest.Everywhere holds) (has : forest.Has name label below) :
    below.Everywhere holds :=
  everywhere_iff.2 fun _ _ _ inner => all.at (has.trans inner)

@[simp] theorem everywhere_append {holds : Name → Label → Forest Name Label → Prop}
    {first second : Forest Name Label} :
    (first ++ second).Everywhere holds ↔ first.Everywhere holds ∧ second.Everywhere holds := by
  induction first with
  | nil => simp [Everywhere]
  | cons name label children rest _ induction => simp [Everywhere, induction, and_assoc]

/-- The trees in front of a position and those from it on. -/
theorem take_append_drop (forest : Forest Name Label) (index : Nat) :
    forest.take index ++ forest.drop index = forest := by
  induction forest generalizing index with
  | nil => cases index <;> rfl
  | cons name label children rest _ induction =>
      cases index with
      | zero => rfl
      | succ index => simp [take, drop, induction]

theorem roots_take (forest : Forest Name Label) (index : Nat) :
    (forest.take index).roots = forest.roots.take index := by
  induction forest generalizing index with
  | nil => cases index <;> simp [take, roots]
  | cons name label children rest _ induction =>
      cases index with
      | zero => simp [take, roots]
      | succ index => simp [take, roots, induction]

section Search

variable [DecidableEq Name]

theorem contains_iff_mem {forest : Forest Name Label} {target : Name} :
    forest.contains target = true ↔ target ∈ forest.names := by
  induction forest with
  | nil => simp [contains]
  | cons name label children rest inside beside =>
      have flip : name = target ↔ target = name := eq_comm
      simp [contains, flip, inside, beside, or_assoc]

theorem contains_eq_false_iff {forest : Forest Name Label} {target : Name} :
    forest.contains target = false ↔ target ∉ forest.names := by
  rw [← contains_iff_mem, Bool.not_eq_true]

theorem exists_has_of_label? {forest : Forest Name Label} {target : Name} {label : Label}
    (found : forest.label? target = some label) : ∃ below, forest.Has target label below := by
  induction forest with
  | nil => simp [label?] at found
  | cons name mark children rest inside beside =>
      by_cases here : name = target
      · simp only [label?, if_pos here, Option.some.injEq] at found
        exact ⟨children, .inl ⟨here, found, rfl⟩⟩
      · simp only [label?, if_neg here, Option.or_eq_some_iff] at found
        rcases found with found | ⟨_, found⟩
        · obtain ⟨below, has⟩ := inside found
          exact ⟨below, .inr (.inl has)⟩
        · obtain ⟨below, has⟩ := beside found
          exact ⟨below, .inr (.inr has)⟩

theorem label?_isSome_iff {forest : Forest Name Label} {target : Name} :
    (forest.label? target).isSome = true ↔ target ∈ forest.names := by
  constructor
  · intro found
    obtain ⟨label, found⟩ := Option.isSome_iff_exists.1 found
    obtain ⟨below, has⟩ := exists_has_of_label? found
    exact has.mem
  · intro member
    induction forest with
    | nil => simp at member
    | cons name label children rest inside beside =>
        by_cases here : name = target
        · simp [label?, here]
        · simp only [names_cons, List.mem_cons, List.mem_append, Ne.symm here, false_or] at member
          simp only [label?, if_neg here, Option.isSome_or, Bool.or_eq_true]
          exact member.imp inside beside

theorem Has.label?_eq {forest below : Forest Name Label} {name : Name} {label : Label}
    (distinct : forest.names.Nodup) (has : forest.Has name label below) :
    forest.label? name = some label := by
  obtain ⟨mark, found⟩ := Option.isSome_iff_exists.1 (label?_isSome_iff.2 has.mem)
  obtain ⟨other, also⟩ := exists_has_of_label? found
  rw [found, (has.unique distinct also).1]

/-- Labels are told by the entries. -/
theorem label?_eq_some_iff {forest : Forest Name Label} {name : Name} {label : Label}
    (distinct : forest.names.Nodup) : forest.label? name = some label ↔
      (name, label) ∈ forest.entries := by
  rw [← has_iff_mem_entries]
  exact ⟨exists_has_of_label?, fun ⟨_, has⟩ => has.label?_eq distinct⟩

theorem Has.under_eq {forest below : Forest Name Label} {name : Name} {label : Label}
    (distinct : forest.names.Nodup) (has : forest.Has name label below) :
    forest.under name = below := by
  induction forest with
  | nil => exact has.elim
  | cons first mark children rest inside beside =>
      obtain ⟨notInside, notBeside, distinctInside, distinctBeside, apart⟩ :=
        distinct_parts distinct
      rcases has with ⟨rfl, _, rfl⟩ | found | found
      · simp [under]
      · have different : first ≠ name := fun same => notInside (same ▸ found.mem)
        simp [under, different, contains_iff_mem.2 found.mem, inside distinctInside found]
      · have different : first ≠ name := fun same => notBeside (same ▸ found.mem)
        have absent : children.contains name = false :=
          contains_eq_false_iff.2 fun member => apart member found.mem
        simp [under, different, absent, beside distinctBeside found]

theorem Has.subtree_eq {forest below : Forest Name Label} {name : Name} {label : Label}
    (distinct : forest.names.Nodup) (has : forest.Has name label below) :
    forest.subtree name = cons name label below nil := by
  induction forest with
  | nil => exact has.elim
  | cons first mark children rest inside beside =>
      obtain ⟨notInside, notBeside, distinctInside, distinctBeside, apart⟩ :=
        distinct_parts distinct
      rcases has with ⟨rfl, rfl, rfl⟩ | found | found
      · simp [subtree]
      · have different : first ≠ name := fun same => notInside (same ▸ found.mem)
        simp [subtree, different, contains_iff_mem.2 found.mem, inside distinctInside found]
      · have different : first ≠ name := fun same => notBeside (same ▸ found.mem)
        have absent : children.contains name = false :=
          contains_eq_false_iff.2 fun member => apart member found.mem
        simp [subtree, different, absent, beside distinctBeside found]

theorem subtree_eq_nil_of_not_mem {forest : Forest Name Label} {target : Name}
    (absent : target ∉ forest.names) : forest.subtree target = nil := by
  induction forest with
  | nil => rfl
  | cons name label children rest inside beside =>
      simp only [names_cons, List.mem_cons, List.mem_append, not_or] at absent
      obtain ⟨notHere, notInside, notBeside⟩ := absent
      simp [subtree, Ne.symm notHere, contains_eq_false_iff.2 notInside, beside notBeside]

/-- What stands in the tree at a node stands in the forest. -/
theorem Has.of_subtree {forest below : Forest Name Label} {target name : Name} {label : Label}
    (distinct : forest.names.Nodup) (has : (forest.subtree target).Has name label below) :
    forest.Has name label below := by
  by_cases member : target ∈ forest.names
  · obtain ⟨top, inner, found⟩ := exists_has member
    rw [found.subtree_eq distinct] at has
    rcases has with ⟨rfl, rfl, rfl⟩ | deeper | none
    · exact found
    · exact found.trans deeper
    · exact none.elim
  · rw [subtree_eq_nil_of_not_mem member] at has
    exact has.elim

end Search

end LiveTemplate.Forest
