import LiveTemplate.Proofs.Upkeep.Repair

/-!
# Showing anew and building anew

What a bound node shows in a slot is shown anew in place; what a directive calls for is put in the
place of what it has shown; and the items of a list are exchanged one by one.
-/

namespace LiveTemplate

open Template (Node Attribute Expression Path Rule)
open BoundForest (watchers watchers_append watchers_keep)

variable {frame : Frame} {standing later : Standing} {root name : BoundId} {way : Nat → List String}
  {task : Task} {tasks inner : List Task} {node : BoundNode Part} {forest below changed : Bindings}
  {slot : Nat} {path : Path} {display : Display}

/-! ## Shown anew -/

theorem Part.displays_of_display? {part : Part} {expression : Expression}
    (shown : part.display? slot = some (display, expression)) : display ∈ part.displays := by
  match part with
  | .text content =>
      simp only [Part.display?] at shown
      split at shown
      · obtain ⟨rfl, rfl⟩ := Prod.mk.inj (Option.some.inj shown)
        simp [Part.displays]
      · cases shown
  | .element attributes =>
      obtain ⟨entry, there, called⟩ := Option.bind_eq_some_iff.1 shown
      simp only [Part.displays, List.mem_map, List.mem_filterMap]
      exact ⟨_, ⟨entry, List.mem_of_getElem? there, called⟩, rfl⟩
  | .switch .. | .list .. | .group | .watch _ | .view _ => cases shown

/-- No two entries of an element show something in the same place. -/
theorem Part.display?_apart {part : Part} (single : part.displays.Nodup) {other : Nat}
    {another : Display} {expression more : Expression}
    (shown : part.display? slot = some (display, expression))
    (also : part.display? other = some (another, more)) (apart : other ≠ slot) :
    another ≠ display := by
  match part with
  | .text content =>
      simp only [Part.display?] at shown also
      split at shown
      · split at also
        · omega
        · cases also
      · cases shown
  | .element attributes =>
      rw [Part.displays, List.map_filterMap, List.Nodup, List.pairwise_filterMap,
        List.pairwise_iff_getElem] at single
      obtain ⟨entry, there, called⟩ := Option.bind_eq_some_iff.1 shown
      obtain ⟨second, beyond, calls⟩ := Option.bind_eq_some_iff.1 also
      obtain ⟨inside, rfl⟩ := List.getElem?_eq_some_iff.1 there
      obtain ⟨within, rfl⟩ := List.getElem?_eq_some_iff.1 beyond
      rcases Nat.lt_or_gt_of_ne apart with first | last
      · exact single other slot within inside first _ (by simp [calls]) _ (by simp [called])
      · exact (single slot other inside within last _ (by simp [called]) _ (by simp [calls])).symm
  | .switch .. | .list .. | .group | .watch _ | .view _ => cases shown

theorem Wears.refresh {model : ModelId} {part : Part} {data : NodeData}
    (wears : Wears standing name model part data) (single : part.displays.Nodup)
    (shown : part.display? slot = some (display, .bound path))
    (text : display = .text → ∃ content, data.kind = .text content)
    (same : later.data = standing.data)
    (stale : ∀ other, other ≠ slot → standing.stale name other → later.stale name other) :
    Wears later name model part
      (display.show later.data.contents (later.data.resolve model path) data) where
  neat := wears.neat.show (Part.displays_of_display? shown) _ _
  written := by
    intro other another text also
    have here : other ≠ slot := by
      rintro rfl
      cases Option.some.inj (shown.symm.trans also)
    rw [Display.shows_show_of_ne wears.neat (Part.display?_apart single shown also here)]
    exact wears.written other another text also
  shows := by
    intro other another more also
    by_cases here : other = slot
    · subst here
      obtain ⟨rfl, rfl⟩ : display = another ∧ path = more := by
        simpa using shown.symm.trans also
      exact .inr ⟨later.data.contents, Display.shows_show wears.neat text _ _⟩
    · simp only [Display.shows_show_of_ne wears.neat (Part.display?_apart single shown also here),
        same]
      exact (wears.shows other another more also).imp_left (stale other here)

theorem Part.ne_text_of_element {attributes : List Attribute} {expression : Expression}
    (shown : (Part.element attributes).display? slot = some (display, expression)) :
    display ≠ .text := by
  obtain ⟨entry, _, called⟩ := Option.bind_eq_some_iff.1 shown
  rintro rfl
  cases entry <;> cases called

theorem Display.exists_text_show {data : NodeData} {contents : Contents} {value : Value}
    (kind : ∃ content, data.kind = .text content) :
    ∃ content, (display.show contents value data).kind = .text content := by
  by_cases text : display = .text
  · subst text
    obtain ⟨content, kind⟩ := kind
    refine ⟨value.displayText contents, ?_⟩
    simp [Display.show, NodeData.setText, kind]
  · rwa [Display.kind_show display contents value data text]

/-- What a text or an element shows in a slot is shown anew. -/
theorem Fits.refresh {dom : NodeId} {data : NodeData}
    (fits : Fits frame standing root way tasks (.cons name node below .nil))
    (shown : node.part.display? slot = some (display, .bound path))
    (steady : Steady standing later node) (own : node.dom = some dom)
    (look : standing.look dom = some data)
    (show' : later.look dom = some
      (display.show later.data.contents (later.data.resolve node.scope.model path) data))
    (same : later.data = standing.data)
    (stale : ∀ other, other ≠ slot → standing.stale name other → later.stale name other)
    (inside : ∀ way inner, Fits frame standing name way inner below →
      Fits frame later name way inner below) :
    Fits frame later root way tasks (.cons name node below .nil) := by
  cases fits with
  | watch => cases shown
  | cons proper here covers beyond nothing =>
      cases nothing
      refine .cons proper ?_ covers (inside _ _ beyond) .nil
      cases here with
      | element looks kind wears follows =>
          obtain rfl := Option.some.inj own
          obtain rfl := Option.some.inj (look.symm.trans looks)
          cases proper with
          | node proper =>
              have other : display ≠ .text := Part.ne_text_of_element shown
              refine .element show' ((Display.kind_show display _ _ data other).trans kind) ?_
                (follows.carry steady (List.Subset.refl _) fun _ => rfl)
              intro strict
              exact (wears strict).refresh (proper.1 strict) shown (fun text => (other text).elim)
                same stale
      | text looks kind wears follows =>
          obtain rfl := Option.some.inj own
          obtain rfl := Option.some.inj (look.symm.trans looks)
          refine .text show' (Display.exists_text_show kind) ?_
            (follows.carry steady (List.Subset.refl _) fun _ => rfl)
          exact wears.refresh (List.nodup_singleton _) shown (fun _ => kind) same stale
      | switch | view | content | item | list | unfinished => cases shown

/-! ## Built anew -/

theorem Site.decision_isSome {contents : Contents} {rule : Rule} {value : Value}
    (some : (Site.decision contents rule value).isSome = true) :
    rule = .showIf ∨ rule = .showUnless := by
  cases rule <;> simp_all [Site.decision]

/-- A condition calls for the same as long as its decision is the same. -/
theorem Directive.outcome_congr {directive : Directive} {contents other : Contents}
    {model : ModelId} {depth : Nat} {value also : Value}
    (some : (Site.decision contents directive.rule value).isSome = true)
    (same : Site.decision contents directive.rule value =
      Site.decision other directive.rule also) :
    directive.outcome contents model depth value = directive.outcome other model depth also := by
  obtain ⟨rule, path, body⟩ := directive
  rcases Site.decision_isSome some with rfl | rfl
  · simp only [Site.decision, Option.some.injEq] at same
    simp [outcome, shows, observes, Site.decision, same]
  · simp only [Site.decision, Option.some.injEq, Bool.not_inj_iff] at same
    simp [outcome, shows, observes, Site.decision, same]

theorem watchers_keep_watches (bound : Bindings) (slot : Nat) :
    watchers (Forest.keep bound fun node => node.kind == .watch) slot = watchers bound slot := by
  rw [watchers_keep, List.filter_eq_self]
  rintro ⟨other, label⟩ member
  have watching := (List.mem_filter.1 member).2
  obtain ⟨part, _, _, _⟩ := label
  cases part <;> simp_all [Part.watches, BoundNode.kind, HasBoundKind.kind, Part.kind]

section Switch

variable {directive : Directive} {shown decision : Option Bool} {dom : NodeId}
  {ledger : List Subscription} {scope : Scope} {shows : List Task} {observed : List CollectionId}

/-- What a directive calls for is built in the place of what it has shown. -/
theorem Fits.rebuild {bound : Bindings}
    (fits : Fits frame standing root way tasks
      (.cons name ⟨.switch directive shown, some dom, ledger, scope⟩ below .nil))
    (steady : Steady standing later ⟨.switch directive shown, some dom, ledger, scope⟩)
    (look : later.look dom = standing.look dom)
    (wanted : (decision, shows, observed) =
      later.data.wanted later.data.contents directive scope.model scope.depth)
    (inside : ∀ way, Fits frame standing name way [] (below.keep fun node => node.kind == .watch) →
      Fits frame later name way [] (below.keep fun node => node.kind == .watch))
    (built : ∀ way, Fits frame later name way [.content shows observed] bound) :
    Fits frame later root way tasks
      (.cons name ⟨.switch directive decision, some dom, ledger, scope⟩
        ((below.keep fun node => node.kind == .watch) ++ bound) .nil) := by
  have nothing : ∀ slot, watchers bound slot = [] := fun slot =>
    (built fun _ => []).watchers_eq_nil rfl
  cases fits with
  | cons proper here covers beyond others =>
      cases others
      cases here with
      | switch looks possible _ follows =>
          have called : later.data.Wants directive _ _ (decision, shows, observed) :=
            ⟨_, .inr (.inr rfl), wanted⟩
          refine .cons proper (.switch (look.trans looks) ⟨_, _, wanted⟩ (.inr called) ?_) (.inl rfl)
            ?_ .nil
          · apply follows.carry steady (List.Subset.refl _)
            intro slot
            rw [watchers_append, nothing, List.append_nil, watchers_keep_watches]
          · exact (inside _ beyond.keep_watches).append (built _)

/-- A condition whose decision has not changed is left alone. -/
theorem Fits.undecided
    (fits : Fits frame standing root way tasks
      (.cons name ⟨.switch directive shown, some dom, ledger, scope⟩ below .nil))
    (steady : Steady standing later ⟨.switch directive shown, some dom, ledger, scope⟩)
    (look : later.look dom = standing.look dom)
    (some : shown.isSome = true)
    (same : Site.decision later.data.contents directive.rule
      (later.data.resolveRaw scope.model directive.path) = shown)
    (inside : ∀ way inner, Fits frame standing name way inner below →
      Fits frame later name way inner below) :
    Fits frame later root way tasks
      (.cons name ⟨.switch directive shown, .some dom, ledger, scope⟩ below .nil) := by
  cases fits with
  | cons proper here covers beyond others =>
      cases others
      cases here with
      | switch looks possible _ follows =>
          refine .cons proper (.switch (look.trans looks) possible (.inr ?_) ?_) covers
            (inside _ _ beyond) .nil
          · obtain ⟨contents, value, before⟩ := possible
            obtain ⟨rfl, -⟩ := Prod.mk.inj before
            exact ⟨_, .inr (.inr rfl), before.trans (Directive.outcome_congr some same.symm)⟩
          · exact follows.carry steady (List.Subset.refl _) fun _ => rfl

end Switch

/-! ## Items exchanged -/

section Items

variable {more : List Task} {trees : Bindings} {index : Nat}

theorem Fits.length_eq (fits : Fits frame standing root way tasks forest)
    (still : ∀ slot, way slot = []) : forest.roots.length = tasks.length := by
  induction fits with
  | nil => rfl
  | watch ahead => rw [still] at ahead; cases ahead
  | cons _ _ _ _ _ _ others => simp [Forest.roots, others still]

theorem Fits.take (fits : Fits frame standing root way tasks forest)
    (still : ∀ slot, way slot = []) (index : Nat) :
    Fits frame standing root way (tasks.take index) (forest.take index) := by
  induction fits generalizing index with
  | nil => cases index <;> exact .nil
  | watch ahead => rw [still] at ahead; cases ahead
  | cons proper here covers inside _ _ others =>
      cases index with
      | zero => exact .nil
      | succ index => exact .cons proper here covers inside (others still index)

theorem Fits.drop (fits : Fits frame standing root way tasks forest)
    (still : ∀ slot, way slot = []) (index : Nat) :
    Fits frame standing root way (tasks.drop index) (forest.drop index) := by
  induction fits generalizing index with
  | nil => cases index <;> exact .nil
  | watch ahead => rw [still] at ahead; cases ahead
  | cons proper here covers inside beside _ others =>
      cases index with
      | zero => exact .cons proper here covers inside beside
      | succ index => exact others still index

/-- More is put among what is there. -/
theorem Fits.insertAt (fits : Fits frame standing root way tasks forest)
    (still : ∀ slot, way slot = []) (also : Fits frame standing root way more trees)
    (index : Nat) :
    Fits frame standing root way (tasks.take index ++ (more ++ tasks.drop index))
      (forest.insertAt index trees) :=
  (fits.take still index).append (also.append (fits.drop still index))

/-- What is at a position is taken away. -/
theorem Fits.eraseIdx (fits : Fits frame standing root way tasks forest)
    (still : ∀ slot, way slot = []) (distinct : forest.names.Nodup) {kid : BoundId}
    (there : forest.roots[index]? = some kid) :
    Fits frame standing root way (tasks.eraseIdx index) (forest.prune kid) := by
  induction fits generalizing index with
  | nil => cases there
  | watch ahead => rw [still] at ahead; cases ahead
  | @cons _ first _ _ _ _ _ _ _ rest proper here covers inside beside _ others =>
      obtain ⟨_, notBeside, _, outside, apart⟩ := Forest.distinct_parts distinct
      cases index with
      | zero =>
          obtain rfl := Option.some.inj there
          simpa [Forest.prune, Forest.prune_eq_self notBeside] using beside
      | succ index =>
          have later : (Forest.roots rest)[index]? = some kid := there
          have member := Forest.roots_subset_names _ (List.mem_of_getElem? later)
          have differs : first ≠ kid := fun same => notBeside (same ▸ member)
          have notBelow := fun inside => apart inside member
          rw [Forest.prune, if_neg differs, Forest.prune_eq_self notBelow]
          exact .cons proper here covers inside (others still outside later)

/-- A list that has still to be told shows the items that its collection had. -/
theorem Fits.shown_formerly {collection : CollectionId} {body : List Node} {dom : NodeId}
    {subscription : Subscription} {scope : Scope}
    (fits : Fits frame standing root way tasks
      (.cons name ⟨.list collection body, some dom, [subscription], scope⟩ below .nil))
    (late : standing.late subscription) :
    Fits frame standing name (fun _ => [])
      ((standing.former collection).map (.item body · scope.model scope.depth)) below := by
  cases fits with
  | cons _ here covers beyond _ =>
      cases here with
      | list _ _ _ lists =>
          obtain rfl := lists.late late
          obtain rfl := covers.resolve_right fun fails => fails.2.2.1 rfl
          exact beyond

/-- A list has followed the change that it was told of. -/
theorem Fits.splice {collection : CollectionId} {body : List Node} {dom : NodeId}
    {subscription : Subscription} {scope : Scope}
    (fits : Fits frame standing root way tasks
      (.cons name ⟨.list collection body, some dom, [subscription], scope⟩ below .nil))
    (told : ¬ later.late subscription)
    (holds : ∀ observer, standing.holds subscription observer → later.holds subscription observer)
    (look : later.look dom = standing.look dom)
    (inside : Fits frame later name (fun _ => [])
      ((later.data.contents.items collection).map (.item body · scope.model scope.depth)) changed) :
    Fits frame later root way tasks
      (.cons name ⟨.list collection body, some dom, [subscription], scope⟩ changed .nil) := by
  cases fits with
  | cons proper here _ _ others =>
      cases others
      cases here with
      | list looks source held _ =>
          exact .cons proper (.list (look.trans looks) source (holds _ held)
            ⟨fun other => (told other).elim, fun _ => rfl⟩) (.inl rfl) inside .nil

end Items

/-! ## What observers are for -/

/-- The bound node of a render that an observer brings up to date, and in which slot. -/
def Observer.target? : Observer → Option (RenderId × BoundId × Nat)
  | .value (.path observer) => some (observer.render, observer.root, observer.slot)
  | .change (.rebuild render _ directive) => some (render, directive, 0)
  | .value (.client _) | .change (.client _) | .change (.splice ..) => none

/-- What watches a path is there for that path. -/
theorem Fits.path_of_watch (fits : Fits frame standing root way tasks forest)
    (nothing : tasks = []) (only : ∀ position, position ≠ slot → way position = [])
    {label : BoundNode Part} (member : (name, label) ∈ forest.entries)
    {subscription : Subscription} (own : subscription ∈ label.ledger) :
    ∃ rest, standing.holds subscription
      (.value (.path ⟨frame.render, name, root, slot, rest⟩)) := by
  induction fits with
  | nil => cases member
  | @watch root first way tasks position segment later only' scope below beside ahead linked _ _ inside
      others =>
      have same : position = slot := by
        by_contra other
        rw [only position other] at ahead
        cases ahead
      subst same
      simp only [Forest.entries, List.mem_cons, List.mem_append] at member
      rcases member with here | deeper | beyond
      · obtain ⟨rfl, rfl⟩ := Prod.mk.inj here
        obtain rfl := List.mem_singleton.1 own
        exact ⟨_, linked.holds⟩
      · exact inside rfl (fun _ other => if_neg other) deeper
      · exact others nothing only beyond
  | cons => cases nothing

theorem Local.target (here : Local frame standing root name task node below inner)
    {subscription : Subscription} (own : subscription ∈ node.ledger) :
    ∃ observer, standing.holds subscription observer ∧
      ∀ render owner slot, observer.target? = some (render, owner, slot) →
        owner = root ∨ owner = name := by
  have followed : ∀ {model : ModelId} {part : Part} {ledger : List Subscription},
      Follows frame standing name model part ledger below → subscription ∈ ledger →
        ∃ observer, standing.holds subscription observer ∧
          ∀ render owner slot, observer.target? = some (render, owner, slot) →
            owner = root ∨ owner = name := by
    intro model part ledger follows member
    obtain ⟨entry, _, linked⟩ := exists_of_mem_forall₂ follows member
    refine ⟨_, linked.holds, ?_⟩
    intro render owner slot target
    simp only [Observer.target?, Option.some.injEq, Prod.mk.injEq] at target
    exact .inr target.2.1.symm
  cases here with
  | element _ _ _ follows => exact followed follows own
  | text _ _ _ follows => exact followed follows own
  | switch _ _ _ follows => exact followed follows own
  | view | item | unfinished => cases own
  | content observes =>
      obtain ⟨_, _, _, holds⟩ := exists_of_mem_forall₂ observes own
      refine ⟨_, holds, ?_⟩
      intro render owner slot target
      simp only [Observer.target?, Option.some.injEq, Prod.mk.injEq] at target
      exact .inl target.2.1.symm
  | list _ _ holds _ =>
      obtain rfl := List.mem_singleton.1 own
      exact ⟨_, holds, fun _ _ _ target => by cases target⟩

/-- Whatever is observed from among some bound nodes is observed for one of them or for the one above
them. -/
theorem Fits.target (fits : Fits frame standing root way tasks forest)
    {label : BoundNode Part} (member : (name, label) ∈ forest.entries)
    {subscription : Subscription} (own : subscription ∈ label.ledger) :
    ∃ observer, standing.holds subscription observer ∧
      ∀ render owner slot, observer.target? = some (render, owner, slot) →
        owner = root ∨ owner ∈ forest.names := by
  induction fits with
  | nil => cases member
  | watch ahead linked _ _ inside others =>
      simp only [Forest.entries, List.mem_cons, List.mem_append] at member
      rcases member with here | deeper | beyond
      · obtain ⟨rfl, rfl⟩ := Prod.mk.inj here
        obtain rfl := List.mem_singleton.1 own
        refine ⟨_, linked.holds, ?_⟩
        intro render owner slot target
        simp only [Observer.target?, Option.some.injEq, Prod.mk.injEq] at target
        exact .inl target.2.1.symm
      · obtain ⟨observer, holds, targets⟩ := inside deeper
        exact ⟨observer, holds, fun render owner slot target =>
          (targets render owner slot target).imp_right fun found => by simp [found]⟩
      · obtain ⟨observer, holds, targets⟩ := others beyond
        exact ⟨observer, holds, fun render owner slot target =>
          (targets render owner slot target).imp_right fun found => by simp [found]⟩
  | cons _ here _ _ _ inside others =>
      simp only [Forest.entries, List.mem_cons, List.mem_append] at member
      rcases member with here' | deeper | beyond
      · obtain ⟨rfl, rfl⟩ := Prod.mk.inj here'
        obtain ⟨observer, holds, targets⟩ := here.target own
        exact ⟨observer, holds, fun render owner slot target =>
          (targets render owner slot target).imp_right fun found => by simp [found]⟩
      · obtain ⟨observer, holds, targets⟩ := inside deeper
        refine ⟨observer, holds, fun render owner slot target => .inr ?_⟩
        rcases targets render owner slot target with rfl | found
        · simp
        · simp [found]
      · obtain ⟨observer, holds, targets⟩ := others beyond
        exact ⟨observer, holds, fun render owner slot target =>
          (targets render owner slot target).imp_right fun found => by simp [found]⟩

end LiveTemplate
