import LiveTemplate.Proofs.Upkeep.Trail

/-!
# When something else is read

A value is stored or items change, and nobody has been told yet.  Every registration that is
concerned is late from then on, and so whatever would show something else is stale: bound nodes that
fit still fit.
-/

namespace LiveTemplate

open Template (Path)

/-- What counts as true does not depend on collections, apart from the value itself. -/
theorem Value.isTruthy_congr {value : Value} (plain : ∀ collection, value ≠ .collection collection)
    (contents other : Contents) : value.isTruthy contents = value.isTruthy other := by
  cases value with
  | collection collection => exact (plain collection rfl).elim
  | _ => rfl

theorem Site.itemsOf_congr {value : Value} (plain : ∀ collection, value ≠ .collection collection)
    (contents other : Contents) : itemsOf contents value = itemsOf other value := by
  cases value with
  | collection collection => exact (plain collection rfl).elim
  | list => rfl
  | _ => simp only [itemsOf, Value.isTruthy_congr plain contents other]

/-- A directive that is no condition depends on the items that it observes only. -/
theorem Directive.outcome_items {directive : Directive} {contents other : Contents}
    {model : ModelId} {depth : Nat} {value : Value} (notIf : directive.rule ≠ .showIf)
    (notUnless : directive.rule ≠ .showUnless)
    (same : ∀ collection ∈ directive.observes value,
      other.items collection = contents.items collection) :
    directive.outcome other model depth value = directive.outcome contents model depth value := by
  obtain ⟨rule, path, body⟩ := directive
  have values : (∀ id, value ≠ .collection id) →
      Site.itemsOf other value = Site.itemsOf contents value :=
    fun plain => Site.itemsOf_congr plain other contents
  cases rule with
  | showIf => exact (notIf rfl).elim
  | showUnless => exact (notUnless rfl).elim
  | each =>
      cases value with
      | collection id =>
          have items : other.items id = contents.items id := same id (by simp [observes])
          simp [outcome, shows, Site.decision, Site.itemsOf, items]
      | _ => simp only [outcome, shows, Site.decision, values (by simp)]
  | collection =>
      cases value with
      | collection id => rfl
      | _ => simp only [outcome, shows, Site.decision, values (by simp)]
  | view name => rfl

/-- What has been changed is late, and what would show it is stale. -/
structure Standing.Unsettles (frame : Frame) (standing later : Standing) : Prop where
  holds : ∀ subscription observer, observer.owner? ≠ none → standing.holds subscription observer →
    later.holds subscription observer
  look : later.look = standing.look
  next : ∀ subscription, ∀ observer : PathObserver,
    standing.holds subscription (.value (.path observer)) → observer.render = frame.render →
      observer.rest ≠ [] → ¬ later.late subscription → ¬ standing.late subscription ∧
        ∀ model segment, subscription.source = .model model (changeChannel segment) →
          later.data.get model segment = standing.data.get model segment
  lists : ∀ subscription list collection items,
    standing.holds subscription (.change (.splice frame.render list)) →
      subscription.source = .collection collection →
        standing.Lists subscription collection items → later.Lists subscription collection items
  stale : ∀ name slot, ¬ later.stale name slot → ¬ standing.stale name slot
  calm : ∀ name slot, ¬ later.stale name slot → standing.Calm frame.render name slot
  values : ∀ name slot, ¬ later.stale name slot → ∀ subscription observer,
    standing.holds subscription observer → observer.target? = some (frame.render, name, slot) →
      ∀ model segment, subscription.source = .model model (changeChannel segment) →
        later.data.get model segment = standing.data.get model segment ∧
          (later.data.model model).formatters = (standing.data.model model).formatters
  items : ∀ name slot, ¬ later.stale name slot → ∀ subscription observer,
    standing.holds subscription observer → observer.target? = some (frame.render, name, slot) →
      ∀ collection, subscription.source = .collection collection →
        later.data.contents.items collection = standing.data.contents.items collection

section Changed

variable {frame : Frame} {standing later : Standing} {root name : BoundId} {way : Nat → List String}
  {task : Task} {tasks inner : List Task} {node : BoundNode Part} {forest below : Bindings}
  {slot : Nat}

/-- A path that is not going to be followed anew leads to the same. -/
theorem Standing.Unsettles.reads (unsettles : standing.Unsettles frame later)
    {model : ModelId} {part : Part} {ledger : List Subscription} {path : Path}
    (follows : Follows frame standing name model part ledger below)
    (fits : Fits frame standing name part.way inner below) (followed : part.path? slot = some path)
    (spared : ¬ later.stale name slot) :
    later.data.resolveRaw model path = standing.data.resolveRaw model path ∧
      ∀ contents, later.data.resolveIn contents model path =
        standing.data.resolveIn contents model path := by
  obtain ⟨subscription, _, linked⟩ := exists_of_mem_forall₂ follows.flip
    (Part.mem_followed.2 followed)
  have observed := linked.observed (unsettles.calm _ _ spared) fits (Part.way_of_path? followed)
  apply Data.resolve_congr
  intro holder segment member
  obtain ⟨watching, observer, source, holds, target⟩ := observed _ member
  exact unsettles.values name slot spared watching observer holds target holder segment source

theorem Linked.changed {subscription : Subscription} {model : ModelId} {segment : String}
    {rest : List String} {owner : BoundId}
    (linked : Linked frame standing name owner slot subscription model segment rest below)
    (unsettles : standing.Unsettles frame later) :
    Linked frame later name owner slot subscription model segment rest below where
  source := linked.source
  holds := unsettles.holds _ _ nofun linked.holds
  next := by
    obtain ⟨found, there, current⟩ := linked.next
    refine ⟨found, there, ?_⟩
    by_cases late : rest ≠ [] ∧ later.late subscription
    · exact .inl late
    · cases rest with
      | nil => exact .inr (current.resolve_left fun excused => excused.1 rfl)
      | cons next beyond =>
          obtain ⟨notLate, same⟩ := unsettles.next _ _ linked.holds rfl nofun
            fun excused => late ⟨nofun, excused⟩
          rw [same _ _ linked.source]
          exact .inr (current.resolve_left fun excused => notLate excused.2)

theorem Follows.changed {model : ModelId} {part : Part} {ledger : List Subscription}
    (follows : Follows frame standing name model part ledger below)
    (unsettles : standing.Unsettles frame later) :
    Follows frame later name model part ledger below :=
  follows.imp fun _ _ linked => linked.changed unsettles

theorem Part.path?_of_display? {part : Part} {display : Display} {path : Path}
    (shown : part.display? slot = some (display, .bound path)) : part.path? slot = some path := by
  match part with
  | .text content =>
      simp only [Part.display?] at shown
      split at shown
      · rename_i here
        obtain ⟨rfl, rfl⟩ := Prod.mk.inj (Option.some.inj shown)
        simp [Part.path?, here]
      · cases shown
  | .element attributes =>
      simp only [Part.display?] at shown
      simp [Part.path?, shown]
  | .switch .. | .list .. | .group | .watch _ | .view _ => cases shown

theorem Wears.changed {model : ModelId} {part : Part} {ledger : List Subscription} {data : NodeData}
    (wears : Wears standing name model part data)
    (unsettles : standing.Unsettles frame later)
    (follows : Follows frame standing name model part ledger below)
    (fits : Fits frame standing name part.way inner below) : Wears later name model part data where
  neat := wears.neat
  written := wears.written
  shows := by
    intro slot display path shown
    by_cases stale : later.stale name slot
    · exact .inl stale
    · obtain ⟨contents, there⟩ :=
        (wears.shows slot display path shown).resolve_left (unsettles.stale _ _ stale)
      refine .inr ⟨contents, ?_⟩
      obtain ⟨_, same⟩ := unsettles.reads follows fits (Part.path?_of_display? shown) stale
      unfold Data.outcome
      rw [same]
      exact there

/-- What a directive observes is observed by the group of what it shows. -/
theorem Fits.observed {shows : List Task} {observed : List CollectionId}
    (fits : Fits frame standing root way tasks forest) (content : tasks = [.content shows observed]) :
    ∀ collection ∈ observed, ∃ subscription observer, subscription.source = .collection collection ∧
      standing.holds subscription observer ∧ observer.target? = some (frame.render, root, 0) := by
  induction fits with
  | nil => cases content
  | watch _ _ _ _ _ others => exact others content
  | cons _ here _ _ _ _ _ =>
      obtain ⟨rfl, rfl⟩ := List.cons.inj content
      cases here with
      | content observes =>
          intro collection member
          obtain ⟨subscription, _, source, holds⟩ := exists_of_mem_forall₂ observes.flip member
          exact ⟨subscription, _, source, holds, rfl⟩

theorem Data.Wants.changed {directive : Directive} {model : ModelId} {depth : Nat}
    {shown : Option Bool} {shows : List Task} {observed : List CollectionId}
    (wants : standing.data.Wants directive model depth (shown, shows, observed))
    (unsettles : standing.Unsettles frame later) (spared : ¬ later.stale name 0)
    (raw : later.data.resolveRaw model directive.path =
      standing.data.resolveRaw model directive.path)
    (fits : Fits frame standing name way [.content shows observed] below) :
    later.data.Wants directive model depth (shown, shows, observed) := by
  obtain ⟨contents, reason, called⟩ := wants
  by_cases condition : directive.rule = .showIf ∨ directive.rule = .showUnless
  · refine ⟨contents, ?_, ?_⟩
    · exact condition.elim .inl fun other => .inr (.inl other)
    · rw [Data.wanted, raw]
      exact called
  · obtain ⟨notIf, notUnless⟩ := not_or.1 condition
    obtain rfl := (reason.resolve_left notIf).resolve_left notUnless
    refine ⟨_, .inr (.inr rfl), ?_⟩
    rw [called, Data.wanted, Data.wanted, raw, Directive.outcome_items notIf notUnless]
    intro collection member
    have listed : collection ∈ observed := by
      obtain ⟨_, _, rfl⟩ : shown = _ ∧ shows = _ ∧ observed = _ := by
        simpa [Data.wanted, Directive.outcome] using called
      exact member
    obtain ⟨subscription, observer, source, holds, target⟩ := fits.observed rfl collection listed
    exact (unsettles.items name 0 spared _ _ holds target _ source).symm

theorem Local.changed {full : List Task}
    (here : Local frame standing root name task node below full)
    (covers : frame.Covers node.kind full inner)
    (fits : Fits frame standing name node.part.way inner below)
    (unsettles : standing.Unsettles frame later) :
    Local frame later root name task node below full := by
  have look := unsettles.look
  cases here with
  | element looks kind wears follows =>
      exact .element (look ▸ looks) kind
        (fun strict => (wears strict).changed unsettles follows fits) (follows.changed unsettles)
  | text looks kind wears follows =>
      exact .text (look ▸ looks) kind (wears.changed unsettles follows fits)
        (follows.changed unsettles)
  | switch looks possible wanted follows =>
      refine .switch (look ▸ looks) possible ?_ (follows.changed unsettles)
      obtain rfl := covers.resolve_right fun fails => fails.2.1 rfl
      by_cases stale : later.stale name 0
      · exact .inl stale
      · obtain ⟨raw, _⟩ := unsettles.reads follows fits rfl stale
        have wants := wanted.resolve_left (unsettles.stale _ _ stale)
        exact .inr (wants.changed unsettles stale raw fits)
  | view found room => exact .view found room
  | content observes =>
      exact .content (observes.imp fun _ _ held => ⟨held.1, unsettles.holds _ _ nofun held.2⟩)
  | item => exact .item
  | list looks source holds lists =>
      exact .list (look ▸ looks) source (unsettles.holds _ _ nofun holds)
        (unsettles.lists _ _ _ _ holds source lists)
  | unfinished looks failed => exact .unfinished (look ▸ looks) failed

/-- Bound nodes that fit still fit when something else is read and nobody has been told yet. -/
theorem Fits.changed (fits : Fits frame standing root way tasks forest)
    (unsettles : standing.Unsettles frame later) : Fits frame later root way tasks forest := by
  induction fits with
  | nil => exact .nil
  | watch ahead linked _ _ inside others =>
      exact .watch ahead (linked.changed unsettles) inside others
  | cons proper here covers below _ inside others =>
      exact .cons proper (here.changed covers below unsettles) covers inside others

end Changed

end LiveTemplate
