import LiveTemplate.Proofs.Meaning.Chains

/-!
# The search for missing views

Before a template is shown, the views that it refers to are looked up, and so are those that they refer
to, and so on.  Names still to be looked up wait on a stack, and no name is looked up twice.  The search
ends however views refer to each other, and it finds a view that is needed and not registered exactly if
there is one.
-/

namespace LiveTemplate

open Template (Node Attribute Path Rule)

/-- A node shows a view by a directive, be it itself or, at any depth, in what is inside it. -/
inductive Template.Node.Mentions : Node → String → Prop where
  | view (name : String) : Mentions (.view name) name
  | directive (name : String) (path : Path) (body : List Node) :
      Mentions (.directive (.view name) path body) name
  | inElement {tag : String} {attributes : List Attribute} {children : List Node} {line : Nat}
      {child : Node} {name : String} (member : child ∈ children) (mentions : Mentions child name) :
      Mentions (.element tag attributes children line) name
  | inBody {rule : Rule} {path : Path} {body : List Node} {child : Node} {name : String}
      (member : child ∈ body) (mentions : Mentions child name) :
      Mentions (.directive rule path body) name

namespace Template

variable {name : String}

theorem Node.mem_viewNames_directive {rule : Rule} {path : Path} {body : List Node} :
    name ∈ (Node.directive rule path body).viewNames ↔ rule = .view name ∨ name ∈ viewNamesOf body := by
  cases rule <;> simp [Node.viewNames, eq_comm]

mutual

theorem Node.mentions_of_mem : ∀ node : Node, name ∈ node.viewNames → node.Mentions name
  | .element tag attributes children line, member => by
      obtain ⟨child, inside, mentions⟩ := exists_mentions_of_mem children member
      exact .inElement inside mentions
  | .text _, member => by cases member
  | .directive rule path body, member => by
      rcases Node.mem_viewNames_directive.1 member with rfl | below
      · exact .directive name path body
      · obtain ⟨child, inside, mentions⟩ := exists_mentions_of_mem body below
        exact .inBody inside mentions
  | .view _, member => by
      obtain rfl := List.mem_singleton.1 member
      exact .view name

theorem exists_mentions_of_mem :
    ∀ nodes : List Node, name ∈ viewNamesOf nodes → ∃ node ∈ nodes, node.Mentions name
  | [], member => by cases member
  | node :: later, member => by
      rcases List.mem_append.1 member with here | there
      · exact ⟨node, List.mem_cons_self, node.mentions_of_mem here⟩
      · obtain ⟨other, listed, mentions⟩ := exists_mentions_of_mem later there
        exact ⟨other, List.mem_cons_of_mem _ listed, mentions⟩

end

theorem mem_viewNamesOf {nodes : List Node} :
    name ∈ viewNamesOf nodes ↔ ∃ node ∈ nodes, name ∈ node.viewNames := by
  induction nodes with
  | nil => simp [viewNamesOf]
  | cons node later induction => simp [viewNamesOf, induction]

/-- The names that are listed for a node are those of the views that it shows. -/
theorem Node.mentions_iff {node : Node} : node.Mentions name ↔ name ∈ node.viewNames := by
  constructor
  · intro mentions
    induction mentions with
    | view => exact List.mem_singleton_self _
    | directive => exact Node.mem_viewNames_directive.2 (.inl rfl)
    | inElement member _ induction => exact mem_viewNamesOf.2 ⟨_, member, induction⟩
    | inBody member _ induction =>
        exact Node.mem_viewNames_directive.2 (.inr (mem_viewNamesOf.2 ⟨_, member, induction⟩))
  · exact node.mentions_of_mem

end Template

namespace Registry

variable {registry : Registry} {template : Template}

/-- The views that are shown by a template, by the views that it shows, and so on. -/
inductive Needs (registry : Registry) (template : Template) : String → Prop where
  | direct {name : String} (mentions : template.root.Mentions name) : Needs registry template name
  | through {name other : String} {view : Template} (needed : Needs registry template name)
      (found : registry.view? name = some view) (mentions : view.root.Mentions other) :
      Needs registry template other

theorem needs_iff_reaches {name : String} :
    registry.Needs template name ↔ registry.Reaches template name := by
  constructor
  · intro needed
    induction needed with
    | direct mentions => exact .direct (Template.Node.mentions_iff.1 mentions)
    | through _ found mentions reached =>
        exact .through reached found (Template.Node.mentions_iff.1 mentions)
  · intro reached
    induction reached with
    | direct refers => exact .direct (Template.Node.mentions_iff.2 refers)
    | through _ found refers needed =>
        exact .through needed found (Template.Node.mentions_iff.2 refers)

/-- If no view is missing, there are views that need nothing but each other. -/
theorem closed_of_missing? {visited pending : List String}
    (complete : registry.missing? visited pending = none)
    (early : ∀ name ∈ visited, ∃ template, registry.view? name = some template ∧
      template.viewNames ⊆ visited ++ pending) :
    ∃ all, pending ⊆ all ∧ ∀ name ∈ all, ∃ template, registry.view? name = some template ∧
      template.viewNames ⊆ all := by
  suffices whole : ∃ all, visited ++ pending ⊆ all ∧ ∀ name ∈ all, ∃ template,
      registry.view? name = some template ∧ template.viewNames ⊆ all by
    obtain ⟨all, inside, closed⟩ := whole
    exact ⟨all, fun name member => inside (List.mem_append_right _ member), closed⟩
  fun_induction registry.missing? visited pending with
  | case1 visited => exact ⟨visited ++ [], List.Subset.refl _, by simpa using early⟩
  | case2 visited name later seen induction =>
      have member : name ∈ visited := by simpa using seen
      have same : visited ++ name :: later ⊆ visited ++ later := by
        intro other listed
        simp only [List.mem_append, List.mem_cons] at listed ⊢
        rcases listed with before | rfl | after
        · exact .inl before
        · exact .inl member
        · exact .inr after
      obtain ⟨all, inside, closed⟩ := induction complete fun other listed => by
        obtain ⟨template, found, names⟩ := early other listed
        exact ⟨template, found, fun name member => same (names member)⟩
      exact ⟨all, List.Subset.trans same inside, closed⟩
  | case3 visited name later seen missing => cases complete
  | case4 visited name later seen template found induction =>
      have wider : visited ++ name :: later ⊆
          (name :: visited) ++ (template.viewNames.reverse ++ later) := by
        intro other listed
        simp only [List.mem_append, List.mem_cons] at listed ⊢
        tauto
      obtain ⟨all, inside, closed⟩ := induction complete fun other listed => by
        rcases List.mem_cons.1 listed with rfl | before
        · refine ⟨template, found, fun name member => ?_⟩
          simp [member]
        · obtain ⟨also, there, names⟩ := early other before
          exact ⟨also, there, fun name member => wider (names member)⟩
      exact ⟨all, List.Subset.trans wider inside, closed⟩

theorem missingView?_of_nil {template : Template} (nothing : template.viewNames = []) :
    registry.missingView? template = none := by
  simp [missingView?, nothing, missing?]

/-- If no view is missing, all views within reach are registered. -/
theorem complete_of_missingView? {template : Template}
    (complete : registry.missingView? template = none) : registry.Complete template := by
  obtain ⟨all, needs, closed⟩ := closed_of_missing? complete nofun
  have inside : ∀ name, registry.Reaches template name → name ∈ all := by
    intro name reached
    induction reached with
    | direct refers => exact needs (List.mem_reverse.2 refers)
    | through _ found refers induction =>
        obtain ⟨view, also, names⟩ := closed _ induction
        obtain rfl := Option.some.inj (found.symm.trans also)
        exact names refers
  intro name reached
  obtain ⟨view, found, _⟩ := closed name (inside name reached)
  exact ⟨view, found⟩

/-! ## The stack of the search -/

/-- The search with the names that have been looked up and a stack of names, the last of which is looked
up next.  Its answer is a name that is not registered, if it finds one. -/
inductive Searches (registry : Registry) : List String → List String → Option String → Prop where
  | done (visited : List String) : Searches registry visited [] none
  | seen {visited waiting : List String} {name : String} {answer : Option String}
      (known : name ∈ visited) (rest : Searches registry visited waiting answer) :
      Searches registry visited (waiting ++ [name]) answer
  | unknown {visited waiting : List String} {name : String} (fresh : name ∉ visited)
      (absent : registry.view? name = none) :
      Searches registry visited (waiting ++ [name]) (some name)
  | found {visited waiting : List String} {name : String} {view : Template} {answer : Option String}
      (fresh : name ∉ visited) (there : registry.view? name = some view)
      (rest : Searches registry (name :: visited) (waiting ++ view.viewNames) answer) :
      Searches registry visited (waiting ++ [name]) answer

theorem searches_nil {visited : List String} {answer : Option String} :
    registry.Searches visited [] answer ↔ answer = none := by
  constructor
  · intro searches
    generalize empty : ([] : List String) = waiting at searches
    cases searches with
    | done => rfl
    | seen | unknown | found => simp at empty
  · rintro rfl
    exact .done visited

/-- The last name on the stack is looked up, unless it has been. -/
theorem searches_concat {visited waiting : List String} {name : String} {answer : Option String} :
    registry.Searches visited (waiting ++ [name]) answer ↔
      if name ∈ visited then registry.Searches visited waiting answer
      else match registry.view? name with
        | none => answer = some name
        | some view => registry.Searches (name :: visited) (waiting ++ view.viewNames) answer := by
  constructor
  · intro searches
    generalize parts : waiting ++ [name] = stack at searches
    cases searches with
    | done => simp at parts
    | seen known rest =>
        obtain ⟨rfl, same⟩ := List.append_inj' parts rfl
        obtain rfl := List.singleton_inj.1 same
        rwa [if_pos known]
    | unknown fresh absent =>
        obtain ⟨_, same⟩ := List.append_inj' parts rfl
        obtain rfl := List.singleton_inj.1 same
        rw [if_neg fresh, absent]
    | found fresh there rest =>
        obtain ⟨rfl, same⟩ := List.append_inj' parts rfl
        obtain rfl := List.singleton_inj.1 same
        rwa [if_neg fresh, there]
  · intro step
    split at step
    · rename_i known
      exact .seen known step
    · rename_i fresh
      split at step
      · rename_i absent
        subst step
        exact .unknown fresh absent
      · rename_i view there
        exact .found fresh there step

/-- However views refer to each other, the search ends with one answer. -/
theorem searches_reverse (registry : Registry) (visited pending : List String) (answer : Option String) :
    registry.Searches visited pending.reverse answer ↔ registry.missing? visited pending = answer := by
  fun_induction missing? registry visited pending with
  | case1 visited => rw [List.reverse_nil, searches_nil, eq_comm]
  | case2 visited name later seen induction =>
      have known : name ∈ visited := by simpa using seen
      rw [List.reverse_cons, searches_concat, if_pos known]
      exact induction
  | case3 visited name later fresh absent =>
      have new : name ∉ visited := by simpa using fresh
      rw [List.reverse_cons, searches_concat, if_neg new, absent, eq_comm]
  | case4 visited name later fresh view found induction =>
      have new : name ∉ visited := by simpa using fresh
      rw [List.reverse_append, List.reverse_reverse] at induction
      rw [List.reverse_cons, searches_concat, if_neg new, found]
      exact induction

/-- The search for a template answers with the missing view. -/
theorem searches_iff {answer : Option String} :
    registry.Searches [] template.viewNames answer ↔ registry.missingView? template = answer := by
  have ends := registry.searches_reverse [] template.viewNames.reverse answer
  rwa [List.reverse_reverse] at ends

/-- No view is missing exactly if all that are needed are registered. -/
theorem missingView?_eq_none : registry.missingView? template = none ↔
    ∀ name, registry.Needs template name → ∃ view, registry.view? name = some view := by
  constructor
  · intro complete name needed
    exact complete_of_missingView? complete name (needs_iff_reaches.1 needed)
  · intro registered
    apply Complete.missingView?
    intro name reached
    exact registered name (needs_iff_reaches.2 reached)

/-- Two views may show each other. -/
example :
    let chapter : Template := ⟨"div", [], [.view "section"], 1⟩
    let part : Template := ⟨"p", [], [.directive .showIf ⟨"open", []⟩ [.view "chapter"]], 1⟩
    missingView? { views := [("chapter", chapter), ("section", part)] } chapter = none := by
  cbv

/-- A view that is reported is needed, and it is not registered. -/
theorem missingView?_eq_some {name : String} (missing : registry.missingView? template = some name) :
    registry.Needs template name ∧ registry.view? name = none := by
  obtain ⟨reached, absent⟩ :=
    reaches_of_missing? missing fun other member => .direct (List.mem_reverse.1 member)
  exact ⟨needs_iff_reaches.2 reached, absent⟩

end Registry

end LiveTemplate
