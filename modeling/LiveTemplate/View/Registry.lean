import LiveTemplate.Identity
import LiveTemplate.Pairs
import LiveTemplate.Template.Syntax

/-!
# The registry of views

Views are templates under a name.  A name may also have a factory, which gives a controller each
time the view is shown.  Before a template is shown, every view that it may ever need is looked up.
-/

namespace LiveTemplate

/-- Named templates and named factories. -/
structure Registry where
  views : List (String × Template) := []
  factories : List (String × Hook) := []

namespace Registry

instance : Inhabited Registry := ⟨{}⟩

/-- Register a view; an earlier one of the name is replaced. -/
def addView (registry : Registry) (name : String) (template : Template) : Registry :=
  { registry with views := Pairs.set registry.views name template }

/-- Register a factory; an earlier one of the name is replaced. -/
def addFactory (registry : Registry) (name : String) (factory : Hook) : Registry :=
  { registry with factories := Pairs.set registry.factories name factory }

/-- The view of a name. -/
def view? (registry : Registry) (name : String) : Option Template :=
  registry.views.lookup name

/-- The factory of a name. -/
def factory? (registry : Registry) (name : String) : Option Hook :=
  registry.factories.lookup name

/-- The number of registered views whose names are not yet among the given ones. -/
def unvisited (registry : Registry) (visited : List String) : Nat :=
  registry.views.countP fun entry => !visited.contains entry.1

private theorem countP_lt_of_imp {Item : Type} {p q : Item → Bool} (item : Item)
    (items : List Item) (imp : ∀ other, q other = true → p other = true) (member : item ∈ items)
    (holds : p item = true) (fails : q item = false) : items.countP q < items.countP p := by
  induction items with
  | nil => simp at member
  | cons first later induction =>
    have mono : later.countP q ≤ later.countP p := List.countP_mono_left fun other _ => imp other
    rcases List.mem_cons.1 member with rfl | member
    · simp only [List.countP_cons, holds, fails]
      simp only [Bool.false_eq_true, if_false, if_true]
      omega
    · have smaller := induction member
      simp only [List.countP_cons]
      by_cases firstHolds : q first = true
      · simp only [firstHolds, imp first firstHolds, if_true]
        omega
      · simp only [firstHolds]
        simp only [Bool.false_eq_true, if_false]
        omega

private theorem mem_of_lookup {Item : Type} {pairs : List (String × Item)} {name : String}
    {item : Item} (found : pairs.lookup name = some item) : (name, item) ∈ pairs := by
  induction pairs with
  | nil => simp at found
  | cons first later induction =>
    obtain ⟨key, value⟩ := first
    rw [List.lookup_cons] at found
    by_cases same : name = key
    · subst same
      simp only [BEq.rfl, Option.some.injEq] at found
      simp [found]
    · have different : (name == key) = false := by simpa using same
      simp only [different] at found
      exact List.mem_cons_of_mem _ (induction found)

/-- Visiting a registered view for the first time leaves fewer to visit. -/
theorem unvisited_cons_lt {registry : Registry} {visited : List String} {name : String}
    {template : Template} (found : registry.view? name = some template)
    (fresh : visited.contains name = false) :
    registry.unvisited (name :: visited) < registry.unvisited visited := by
  apply countP_lt_of_imp (name, template)
  · intro other notVisited
    simp only [List.contains_cons, Bool.not_or, Bool.and_eq_true] at notVisited
    exact notVisited.2
  · exact mem_of_lookup found
  · simpa using fresh
  · simp

/-- Look up pending views, last one first, and then those that they refer to.  The first name that
is not registered is the answer. -/
def missing? (registry : Registry) (visited : List String) (pending : List String) :
    Option String :=
  match pending with
  | [] => none
  | name :: later =>
    if _seen : visited.contains name then registry.missing? visited later
    else
      match _found : registry.view? name with
      | none => some name
      | some template =>
        registry.missing? (name :: visited) (template.viewNames.reverse ++ later)
termination_by (registry.unvisited visited, pending.length)
decreasing_by
  · exact Prod.Lex.right _ (by simp)
  · exact Prod.Lex.left _ _ (unvisited_cons_lt _found (by simpa using _seen))

/-- A view that the template may need and that is not registered. -/
def missingView? (registry : Registry) (template : Template) : Option String :=
  registry.missing? [] template.viewNames.reverse

end Registry

end LiveTemplate
