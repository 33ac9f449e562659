import LiveTemplate.Proofs.Meaning.Building
import LiveTemplate.Proofs.Upkeep.Renewal

/-!
# What has just been built fits

Building makes bound nodes that fit what was to be built, and nothing about them is out of date.  If
all views are known, it fails only where views are nested too deeply.
-/

namespace LiveTemplate

open Template (Node Attribute Expression Path)
open BoundForest (watchers watchers_cons watchers_single watchers_append)

/-! ## What a new element wears -/

theorem Display.shows_seen {display : Display} {outcome : Option String} {data : NodeData} :
    display.Shows outcome data.seen ↔ display.Shows outcome data := by
  cases display <;> rfl

/-- What the entries of an element show is there when all have been entered. -/
theorem Setting.entered_all (setting : Setting) (model : ModelId) {attributes : List Attribute}
    {data : NodeData} {before : List Display} (neat : data.Neat before)
    (single : ((attributes.filterMap Attribute.display?).map Prod.fst).Nodup) :
    (attributes.foldl (setting.entered model) data).kind = data.kind ∧
      (attributes.foldl (setting.entered model) data).Neat
        (before ++ (attributes.filterMap Attribute.display?).map Prod.fst) ∧
      (∀ display expression, (display, expression) ∈ attributes.filterMap Attribute.display? →
        display.Shows (display.outcome setting.data.contents (setting.value model expression))
          (attributes.foldl (setting.entered model) data)) ∧
      ∀ display ∉ (attributes.filterMap Attribute.display?).map Prod.fst, ∀ outcome,
        display.Shows outcome data →
          display.Shows outcome (attributes.foldl (setting.entered model) data) := by
  induction attributes generalizing data before with
  | nil => simpa using neat
  | cons entry later induction =>
      cases called : entry.display? with
      | none =>
          rw [List.filterMap_cons, called] at single ⊢
          rw [List.foldl_cons, (setting.entered_of_none called).1]
          exact induction neat single
      | some pair =>
          obtain ⟨display, expression⟩ := pair
          rw [List.filterMap_cons, called] at single ⊢
          simp only [List.map_cons, List.nodup_cons] at single
          rw [List.foldl_cons, (setting.entered_of_display called).1]
          have other : display ≠ .text := by
            rintro rfl
            cases entry <;> cases called
          have wider : data.Neat (before ++ [display]) :=
            ⟨neat.attributes, neat.styles, fun name member => by simp [neat.named name member],
              fun name member => by simp [neat.styled name member]⟩
          obtain ⟨kind, neater, shows, stays⟩ := induction
            (wider.show (show display ∈ before ++ [display] by simp) setting.data.contents
              (setting.value model expression)) single.2
          refine ⟨kind.trans (display.kind_show _ _ data other), by simpa using neater, ?_, ?_⟩
          · intro another more member
            rcases List.mem_cons.1 member with same | beyond
            · obtain ⟨rfl, rfl⟩ := Prod.mk.inj same
              apply stays _ single.1
              exact Display.shows_show neat (fun text => (other text).elim) _ _
            · exact shows another more beyond
          · intro another apart outcome shown
            simp only [List.map_cons, List.mem_cons, not_or] at apart
            apply stays another apart.2
            exact (Display.shows_show_of_ne neat apart.1 _ _).2 shown

theorem NodeData.neat_bare (data : NodeData) (displays : List Display)
    (attributes : data.attributes = []) (styles : data.styles = []) : data.Neat displays where
  attributes := by simp [attributes]
  styles := by simp [styles]
  named := by simp [attributes]
  styled := by simp [styles]

/-- Entries do not make an element something else. -/
theorem Setting.kind_entered (setting : Setting) (model : ModelId) (attributes : List Attribute)
    (data : NodeData) : (attributes.foldl (setting.entered model) data).kind = data.kind := by
  induction attributes generalizing data with
  | nil => rfl
  | cons entry later induction =>
      rw [List.foldl_cons, induction]
      cases called : entry.display? with
      | none => rw [(setting.entered_of_none called).1]
      | some pair =>
          obtain ⟨display, expression⟩ := pair
          rw [(setting.entered_of_display called).1]
          apply Display.kind_show
          rintro rfl
          cases entry <;> cases called

/-- An element just built wears what it should. -/
theorem Setting.entered_wears (setting : Setting) {standing : Standing} {name : BoundId}
    {model : ModelId} {attributes : List Attribute} {tag : String} {data : NodeData}
    (single : ((attributes.filterMap Attribute.display?).map Prod.fst).Nodup)
    (same : standing.data = setting.data)
    (made : data.seen = attributes.foldl (setting.entered model) (.element tag)) :
    Wears standing name model (.element attributes) data := by
  obtain ⟨_, neat, shows, _⟩ :=
    setting.entered_all model (NodeData.neat_bare (.element tag) [] rfl rfl) single
  rw [← made] at neat shows
  have listed : ∀ slot display expression,
      (Part.element attributes).display? slot = some (display, expression) →
        display.Shows (display.outcome setting.data.contents (setting.value model expression)) data := by
    intro slot display expression shown
    obtain ⟨entry, there, called⟩ := Option.bind_eq_some_iff.1 shown
    exact Display.shows_seen.1 (shows display expression
      (List.mem_filterMap.2 ⟨entry, List.mem_of_getElem? there, called⟩))
  refine ⟨⟨neat.attributes, neat.styles, neat.named, neat.styled⟩, ?_, ?_⟩
  · intro slot display text shown
    simpa [Setting.value] using listed slot display _ shown
  · intro slot display path shown
    refine .inr ⟨setting.data.contents, ?_⟩
    rw [same]
    exact listed slot display _ shown

theorem Data.Agrees.wanted {data other : Data} (agrees : data.Agrees other) (directive : Directive)
    (model : ModelId) (depth : Nat) :
    other.wanted other.contents directive model depth =
      data.wanted data.contents directive model depth := by
  unfold Data.wanted
  rw [agrees.contents, agrees.resolveRaw]

namespace Site

open Build

variable {Client : Type} {site : Site Client} {before after middle : BuildState Client}
  {root : BoundId} {slot : Nat} {scope : Scope} {frame : Frame} {standing : Standing}

/-- What has been built is there, and it was built when everything read as it does. -/
structure Sees (standing : Standing) (before after : BuildState Client)
    (page : Forest NodeId NodeData) : Prop where
  agrees : standing.data.Agrees before.data
  holds : ∀ subscription observer, after.data.Holds subscription observer →
    standing.holds subscription observer
  early : ∀ subscription, standing.late subscription →
    subscription.id < before.data.nextNumber subscription.source
  look : ∀ dom data, (dom, data) ∈ page.entries → standing.look dom = some data

theorem Sees.sub {early late : BuildState Client} {page part : Forest NodeId NodeData}
    (sees : Sees standing before after page) (agrees : before.data.Agrees early.data)
    (numbers : ∀ source, before.data.nextNumber source ≤ early.data.nextNumber source)
    (kept : ∀ subscription observer, late.data.Holds subscription observer →
      after.data.Holds subscription observer) (inside : part.entries ⊆ page.entries) :
    Sees standing early late part where
  agrees := sees.agrees.trans agrees
  holds := fun _ _ held => sees.holds _ _ (kept _ _ held)
  early := fun _ late => (sees.early _ late).trans_le (numbers _)
  look := fun _ _ member => sees.look _ _ (inside member)

/-- The first of two steps is seen. -/
theorem Sees.first {page part : Forest NodeId NodeData} {held : Account} {bound : Bindings}
    {more : Forest NodeId NodeData} {render : RenderId}
    (sees : Sees standing before after page)
    (later : Grows render middle after held more bound)
    (inside : part.entries ⊆ page.entries) : Sees standing before middle part :=
  sees.sub (.refl _) (fun _ => le_rfl) later.makes.data.kept inside

/-- The second of two steps is seen. -/
theorem Sees.second {page part : Forest NodeId NodeData} {held : Account} {bound : Bindings}
    {more : Forest NodeId NodeData} {render : RenderId}
    (sees : Sees standing before after page)
    (first : Grows render before middle held more bound)
    (inside : part.entries ⊆ page.entries) : Sees standing middle after part :=
  sees.sub first.agrees first.makes.data.nextNumber (fun _ _ held => held) inside

/-- The observer of a new registration is there. -/
theorem Sees.observed {page : Forest NodeId NodeData} {model : ModelId} {channel : String}
    {observer : ValueObserver}
    (sees : Sees standing before { middle with data := (middle.data.subscribe model channel observer).2 }
      page)
    (inside : model.index < middle.data.models.next) :
    standing.holds (middle.data.subscribe model channel observer).1 (.value observer) :=
  sees.holds _ _ ((Data.subscribe_registers channel observer inside).holds.2 (.inr ⟨rfl, rfl⟩))

/-- The rest of a path is watched. -/
structure Watched (frame : Frame) (standing : Standing) (root : BoundId) (slot : Nat) (value : Value)
    (rest : List String) (watches : Bindings) : Prop where
  fits : ∀ way, way slot = rest → Fits frame standing root way [] watches
  here : ∃ found : Option (BoundId × BoundNode Part), watchers watches slot = found.toList ∧
    found.map (·.2.scope.model) = value.next? rest
  others : ∀ other, other ≠ slot → watchers watches other = []

theorem Watched.nil {value : Value} {rest : List String} (nothing : value.next? rest = none) :
    Watched frame standing root slot value rest .nil where
  fits := fun _ _ => .nil
  here := ⟨none, rfl, nothing.symm⟩
  others := fun _ _ => rfl

theorem watch_watched {value : Value} {rest : List String} {watches : Bindings}
    (same : frame.render = site.render)
    (run : Runs (site.watch root slot scope value rest) before watches after)
    (sound : before.data.Sound) (refers : before.data.Refers value)
    (sees : Sees standing before after .nil) :
    Watched frame standing root slot value rest watches := by
  induction rest generalizing value before watches after with
  | nil =>
      simp only [watch, runs_pure] at run
      obtain ⟨rfl, rfl⟩ := run
      exact .nil rfl
  | cons segment rest induction =>
      cases value with
      | model model =>
          simp only [watch, runs_bind, runs_newBound, runs_ask, runs_observe, runs_pure] at run
          obtain ⟨_, _, ⟨rfl, rfl⟩, _, _, ⟨rfl, rfl⟩, deeper, middle, inner, _, _, ⟨rfl, rfl⟩, rfl,
            rfl⟩ := run
          obtain ⟨grows, _⟩ := watch_grows inner sound (sound.values model segment)
          have inMiddle : model.index < middle.data.models.next := by
            rw [grows.agrees.models]
            exact refers.model_lt
          have registers := Data.subscribe_registers (changeChannel segment)
            (.path ⟨site.render, ⟨before.nextBound⟩, root, slot, rest⟩) inMiddle
          have inside := induction inner sound (sound.values model segment)
            (sees.sub (.refl _) (fun _ => le_rfl)
              (fun _ _ held => registers.holds.2 (.inl held)) (List.Subset.refl _))
          have read : standing.data.get model segment = before.data.get model segment :=
            (sees.agrees.get model segment).symm
          obtain ⟨found, there, reads⟩ := inside.here
          constructor
          · intro way ahead
            refine .watch ahead ⟨rfl, ?_, found, there, .inr (read ▸ reads)⟩
              (inside.fits _ (if_pos rfl)) .nil
            rw [same]
            exact sees.observed inMiddle
          · exact ⟨some _, watchers_single (beq_self_eq_true slot), rfl⟩
          · intro other apart
            simp [watchers_cons, Part.watches, Ne.symm apart]
      | _ =>
          simp only [watch, runs_pure] at run
          obtain ⟨rfl, rfl⟩ := run
          exact .nil rfl

/-- A path is followed from its first segment on. -/
structure Followed (frame : Frame) (standing : Standing) (root : BoundId) (slot : Nat)
    (model : ModelId) (path : Path) (subscription : Subscription) (watches : Bindings) : Prop where
  fits : ∀ way, way slot = path.tail → Fits frame standing root way [] watches
  linked : ∀ below, watchers below slot = watchers watches slot →
    Linked frame standing root root slot subscription model path.head path.tail below
  others : ∀ other, other ≠ slot → watchers watches other = []

theorem follow_followed {path : Path} {subscription : Subscription} {watches : Bindings}
    (same : frame.render = site.render)
    (run : Runs (site.follow root slot scope path) before (subscription, watches) after)
    (sound : before.data.Sound) (inside : scope.model.index < before.data.models.next)
    (sees : Sees standing before after .nil) :
    Followed frame standing root slot scope.model path subscription watches := by
  simp only [follow, runs_bind, runs_ask, runs_observe, runs_pure, Prod.mk.injEq] at run
  obtain ⟨_, _, ⟨rfl, rfl⟩, _, middle, inner, _, _, ⟨rfl, rfl⟩, ⟨rfl, rfl⟩, rfl⟩ := run
  obtain ⟨grows, _⟩ := watch_grows inner sound (sound.values scope.model path.head)
  have inMiddle : scope.model.index < middle.data.models.next := by
    rw [grows.agrees.models]
    exact inside
  have registers := Data.subscribe_registers (changeChannel path.head)
    (.path ⟨site.render, root, root, slot, path.tail⟩) inMiddle
  have watched := watch_watched same inner sound (sound.values scope.model path.head)
    (sees.sub (.refl _) (fun _ => le_rfl) (fun _ _ held => registers.holds.2 (.inl held))
      (List.Subset.refl _))
  refine ⟨watched.fits, ?_, watched.others⟩
  intro below agree
  obtain ⟨found, there, reads⟩ := watched.here
  refine ⟨rfl, ?_, found, agree.trans there, .inr ?_⟩
  · rw [same]
    exact sees.observed inMiddle
  · rw [reads, sees.agrees.get]

theorem evaluate_literal {text : String} {value : Value} {ledger : List Subscription}
    {watches : Bindings}
    (run : Runs (site.evaluate root slot scope (.literal text)) before (value, ledger, watches) after) :
    ledger = [] ∧ watches = .nil := by
  simp only [evaluate, runs_pure, Prod.mk.injEq] at run
  exact ⟨run.1.2.1.symm, run.1.2.2.symm⟩

theorem evaluate_bound {path : Path} {value : Value} {ledger : List Subscription}
    {watches : Bindings}
    (run : Runs (site.evaluate root slot scope (.bound path)) before (value, ledger, watches) after) :
    ∃ subscription, ledger = [subscription] ∧
      Runs (site.follow root slot scope path) before (subscription, watches) after := by
  simp only [evaluate, runs_bind, runs_ask, runs_pure, Prod.mk.injEq, Prod.exists] at run
  obtain ⟨_, _, ⟨rfl, rfl⟩, subscription, _, _, inner, ⟨rfl, rfl, rfl⟩, rfl⟩ := run
  exact ⟨subscription, rfl, inner⟩

/-- The paths in the entries of an element are followed. -/
structure AllFollowed (frame : Frame) (standing : Standing) (root : BoundId) (model : ModelId)
    (slot : Nat) (entries : List Attribute) (ledger : List Subscription) (watches : Bindings) :
    Prop where
  fits : ∀ way, (∀ position path, (position, path) ∈ Part.paths slot entries →
    way position = path.tail) → Fits frame standing root way [] watches
  linked : ∀ below, (∀ position, slot ≤ position →
      watchers below position = watchers watches position) →
    List.Forall₂ (fun subscription entry => Linked frame standing root root entry.1 subscription
      model entry.2.head entry.2.tail below) ledger (Part.paths slot entries)
  early : ∀ position, position < slot → watchers watches position = []

theorem AllFollowed.silent {model : ModelId} {entry : Attribute} {later : List Attribute}
    {ledger : List Subscription} {watches : Bindings}
    (rest : AllFollowed frame standing root model (slot + 1) later ledger watches)
    (silent : Part.paths slot (entry :: later) = Part.paths (slot + 1) later) :
    AllFollowed frame standing root model slot (entry :: later) ledger watches where
  fits := fun way ahead => rest.fits way fun position path member =>
    ahead position path (silent ▸ member)
  linked := fun below agree => silent ▸ rest.linked below fun position beyond =>
    agree position (by omega)
  early := fun position early => rest.early position (by omega)

theorem AllFollowed.cons {model : ModelId} {entry : Attribute} {later : List Attribute}
    {path : Path} {subscription : Subscription} {ledger : List Subscription}
    {first watches : Bindings}
    (followed : Followed frame standing root slot model path subscription first)
    (rest : AllFollowed frame standing root model (slot + 1) later ledger watches)
    (spoken : Part.paths slot (entry :: later) = (slot, path) :: Part.paths (slot + 1) later) :
    AllFollowed frame standing root model slot (entry :: later) (subscription :: ledger)
      (first ++ watches) where
  fits := by
    intro way ahead
    rw [spoken] at ahead
    apply Fits.after_watches
    · exact followed.fits way (ahead slot path List.mem_cons_self)
    · exact rest.fits way fun position path member =>
        ahead position path (List.mem_cons_of_mem _ member)
  linked := by
    intro below agree
    rw [spoken]
    constructor
    · apply followed.linked
      rw [agree slot le_rfl, watchers_append, rest.early slot (by omega), List.append_nil]
    · apply rest.linked
      intro position beyond
      rw [agree position (by omega), watchers_append, followed.others position (by omega),
        List.nil_append]
  early := by
    intro position before
    rw [watchers_append, followed.others position (by omega), rest.early position (by omega),
      List.nil_append]

theorem attributes_followed {entries : List Attribute} {data made : NodeData}
    {ledger : List Subscription} {watches : Bindings} (same : frame.render = site.render)
    (run : Runs (site.attributes root scope slot entries data) before (made, ledger, watches) after)
    (sound : before.data.Sound) (inside : scope.model.index < before.data.models.next)
    (sees : Sees standing before after .nil) :
    AllFollowed frame standing root scope.model slot entries ledger watches := by
  induction entries generalizing slot data before ledger watches with
  | nil =>
      simp only [attributes, runs_pure, Prod.mk.injEq] at run
      obtain ⟨⟨rfl, rfl, rfl⟩, rfl⟩ := run
      exact ⟨fun _ _ => .nil, fun _ _ => .nil, fun _ _ => rfl⟩
  | cons entry later induction =>
      obtain ⟨next, first, firstWatches, middle, rest, restWatches, some, none, others, rfl, rfl⟩ :=
        attributes_cons run
      cases shown : entry.display? with
      | none =>
          obtain ⟨rfl, rfl, rfl, _⟩ := none shown
          exact (induction others sound inside sees).silent (by simp [Part.paths, shown])
      | some pair =>
          obtain ⟨display, expression⟩ := pair
          obtain ⟨value, evaluated, _⟩ := some _ _ shown
          obtain ⟨grows, _⟩ := evaluate_grows evaluated sound inside
          have inMiddle : scope.model.index < middle.data.models.next := by
            rw [grows.agrees.models]
            exact inside
          obtain ⟨further, _⟩ := attributes_grows others (grows.sound sound) inMiddle
          have beyond := induction others (grows.sound sound) inMiddle
            (sees.second grows (List.Subset.refl _))
          cases expression with
          | literal text =>
              obtain ⟨rfl, rfl⟩ := evaluate_literal evaluated
              exact beyond.silent (by simp [Part.paths, shown])
          | bound path =>
              obtain ⟨subscription, rfl, followed⟩ := evaluate_bound evaluated
              apply AllFollowed.cons
              · exact follow_followed same followed sound inside
                  (sees.first further (List.Subset.refl _))
              · exact beyond
              · simp [Part.paths, shown]

/-- Building came to its end, or it may be that it did not. -/
def Allows (frame : Frame) (growth : Growth) : Prop :=
  growth.failure = none ∨ frame.mayFail

/-- What has been built fits the tasks or, after a failure, the first of them.  Building fails only
where views are nested too deeply. -/
structure Fulfils (frame : Frame) (before after : BuildState Client) (growth : Growth)
    (tasks : List Task) : Prop where
  fits : Allows frame growth → ∃ done, done <+: tasks ∧ (growth.failure = none → done = tasks) ∧
    ∀ standing root way, Sees standing before after growth.page →
      Fits frame standing root way done growth.bound
  failure : ∀ error, growth.failure = some error →
    ∃ name depth, error = .viewDepthExceeded name depth

/-- What has been built fits the tasks, each of which has got its bound node. -/
structure Completes (frame : Frame) (before after : BuildState Client) (growth : Growth)
    (tasks : List Task) : Prop where
  fits : Allows frame growth → ∀ standing root way, Sees standing before after growth.page →
    Fits frame standing root way tasks growth.bound
  failure : ∀ error, growth.failure = some error →
    ∃ name depth, error = .viewDepthExceeded name depth

theorem Completes.fulfils {growth : Growth} {tasks : List Task}
    (completes : Completes frame before after growth tasks) :
    Fulfils frame before after growth tasks where
  fits := fun allowed => ⟨tasks, List.prefix_refl _, fun _ => rfl, completes.fits allowed⟩
  failure := completes.failure

theorem Fulfils.empty : Fulfils frame before after .empty [] where
  fits := fun _ => ⟨[], List.prefix_refl _, fun _ => rfl, fun _ _ _ _ => .nil⟩
  failure := fun _ equal => by cases equal

/-- What is below a bound node is what it calls for, as far as it has been built. -/
theorem Allows.covers {growth : Growth} {full done : List Task} {kind : BoundKind}
    (allowed : Allows frame growth) (part : done <+: full)
    (whole : growth.failure = none → done = full) (directive : kind ≠ .switch)
    (list : kind ≠ .list) : frame.Covers kind full done :=
  allowed.imp whole fun fails => ⟨fails, directive, list, part⟩

/-- After a failure nothing more is built. -/
theorem Fulfils.failed {growth : Growth} {tasks : List Task}
    (fulfils : Fulfils frame before after growth tasks) (failed : growth.failure.isSome = true)
    (more : List Task) : Fulfils frame before after growth (tasks ++ more) where
  fits := by
    intro allowed
    obtain ⟨done, part, _, fits⟩ := fulfils.fits allowed
    refine ⟨done, part.trans (List.prefix_append _ _), fun success => ?_, fits⟩
    simp [success] at failed
  failure := fulfils.failure

theorem Fulfils.beside {first second : Growth} {tasks more : List Task} {render : RenderId}
    (fulfils : Fulfils frame before middle first tasks) (success : first.failure = none)
    (also : Fulfils frame middle after second more)
    (grows : Grows render before middle [] first.page first.bound)
    (grew : Grows render middle after [] second.page second.bound) :
    Fulfils frame before after (first.beside second) (tasks ++ more) where
  fits := by
    intro allowed
    obtain ⟨done, _, whole, fits⟩ := fulfils.fits (.inl success)
    obtain rfl := whole success
    obtain ⟨more', part, entire, further⟩ := also.fits allowed
    refine ⟨done ++ more', (List.prefix_append_right_inj _).2 part,
      fun success => by rw [entire success], fun standing root way sees => ?_⟩
    apply Fits.append
    · apply fits
      exact sees.first grew fun entry member => by simp [Growth.beside, member]
    · apply further
      exact sees.second grows fun entry member => by simp [Growth.beside, member]
  failure := also.failure

/-- The steps build what fits the tasks. -/
def Serves (frame : Frame) (model : ModelId) (tasks : List Task) (steps : Build Client Growth) :
    Prop :=
  ∀ before growth after, Runs steps before growth after → before.data.Sound →
    model.index < before.data.models.next → Fulfils frame before after growth tasks

theorem text_serves {content : Expression} (same : frame.render = site.render) :
    Serves frame scope.model [.node (.text content) scope.model scope.depth]
      (site.text scope content) := by
  intro before growth after run sound inside
  simp only [text, runs_bind, runs_newNode, runs_newBound, runs_ask, runs_pure, Prod.exists] at run
  obtain ⟨_, _, ⟨rfl, rfl⟩, _, _, ⟨rfl, rfl⟩, value, ledger, watches, middle, evaluated, _, _,
    ⟨rfl, rfl⟩, rfl, rfl⟩ := run
  obtain ⟨grows, _⟩ := evaluate_grows evaluated sound inside
  refine Completes.fulfils ⟨fun _ standing root way sees => ?_, fun _ equal => by cases equal⟩
  have holds : Setting.Holds ⟨standing.data, frame.registry, frame.label⟩ before.data := sees.agrees
  obtain ⟨rfl, -, -⟩ := evaluate_value evaluated holds
  have contents : middle.data.contents = standing.data.contents :=
    grows.agrees.contents.trans sees.agrees.contents
  have looks := sees.look _ _ (List.mem_cons_self ..)
  have seen : Sees standing
      { before with places := before.places.take, nextBound := before.nextBound + 1 } middle .nil :=
    sees.sub (.refl _) (fun _ => le_rfl) (fun _ _ held => held) (by simp [Forest.entries])
  have wears : Wears standing ⟨before.nextBound⟩ scope.model (.text content)
      (Display.text.show middle.data.contents
        (Setting.value ⟨standing.data, frame.registry, frame.label⟩ scope.model content)
        (.text "")) := by
    refine ⟨NodeData.neat_bare _ _ rfl rfl, ?_, ?_⟩
    · intro slot display words shown
      simp only [Part.display?] at shown
      split at shown
      · obtain ⟨rfl, rfl⟩ := Prod.mk.inj (Option.some.inj shown)
        exact ⟨_, rfl, by rw [Setting.value, Value.displayText, Value.textWith]⟩
      · cases shown
    · intro slot display path shown
      simp only [Part.display?] at shown
      split at shown
      · obtain ⟨rfl, rfl⟩ := Prod.mk.inj (Option.some.inj shown)
        refine .inr ⟨standing.data.contents, ?_⟩
        rw [contents]
        exact ⟨_, rfl, rfl⟩
      · cases shown
  cases content with
  | literal words =>
      obtain ⟨rfl, rfl⟩ := evaluate_literal evaluated
      exact .cons (.node trivial) (.text looks ⟨_, rfl⟩ wears .nil) (.inl rfl) .nil .nil
  | bound path =>
      obtain ⟨subscription, rfl, followed⟩ := evaluate_bound evaluated
      have follows := follow_followed same followed sound inside seen
      refine .cons (.node trivial) (.text looks ⟨_, rfl⟩ wears ?_) (.inl rfl) (follows.fits _ rfl)
        .nil
      exact .cons (follows.linked _ rfl) .nil

section Items

variable {body : Scope → Build Client Growth} {source : List Node}

/-- In the scopes of one depth, a body is built for its nodes. -/
def BodyServes (frame : Frame) (depth : Nat) (source : List Node)
    (body : Scope → Build Client Growth) : Prop :=
  ∀ scope, scope.depth = depth →
    Serves frame scope.model (source.map (.node · scope.model depth)) (body scope)

theorem item_completes {value : Value} {growth : Growth}
    (serves : BodyServes frame scope.depth source body)
    (proper : Template.AllProper frame.known frame.strict source)
    (run : Runs (item body scope value) before growth after) (sound : before.data.Sound)
    (inside : scope.model.index < before.data.models.next) (refers : before.data.Refers value) :
    Completes frame before after growth [.item source value scope.model scope.depth] := by
  simp only [item, runs_bind, runs_newBound, runs_pure] at run
  obtain ⟨_, _, ⟨rfl, rfl⟩, inner, _, made, rfl, rfl⟩ := run
  obtain ⟨depth, model⟩ := itemScope_spec scope value
  have built := serves (itemScope scope value) depth _ _ _ made sound (itemScope_lt refers inside)
  rw [model] at built
  refine ⟨fun allowed standing root way sees => ?_, built.failure⟩
  obtain ⟨done, part, whole, fits⟩ := built.fits allowed
  have here : itemScope scope value =
      ⟨value.modelOr scope.model, scope.controller, scope.depth⟩ := by
    cases value <;> rfl
  rw [here]
  refine .cons (.item proper) .item (allowed.covers part whole (fun same => by cases same)
    fun same => by cases same) (fits standing _ _ ?_) .nil
  exact sees.sub (.refl _) (fun _ => le_rfl) (fun _ _ held => held) (List.Subset.refl _)

theorem items_fulfils {values : List Value} {growth : Growth}
    (grower : ∀ scope, Grower site.render scope.model (body scope))
    (serves : BodyServes frame scope.depth source body)
    (proper : Template.AllProper frame.known frame.strict source)
    (run : Runs (items body scope values) before growth after) (sound : before.data.Sound)
    (inside : scope.model.index < before.data.models.next)
    (refers : ∀ value ∈ values, before.data.Refers value) :
    Fulfils frame before after growth
      (values.map (.item source · scope.model scope.depth)) := by
  induction values generalizing before growth with
  | nil =>
      simp only [items, runs_pure] at run
      obtain ⟨rfl, rfl⟩ := run
      exact .empty
  | cons value later induction =>
      simp only [items, runs_bind] at run
      obtain ⟨first, middle, made, run⟩ := run
      have built := (item_completes serves proper made sound inside (refers value (by simp))).fulfils
      have grows := item_grows grower made sound inside (refers value (by simp))
      split at run
      · rename_i failed
        simp only [runs_pure] at run
        obtain ⟨rfl, rfl⟩ := run
        exact built.failed failed _
      · rename_i success
        simp only [runs_bind, runs_pure] at run
        obtain ⟨second, _, others, rfl, rfl⟩ := run
        have inMiddle := grows.agrees.models.symm ▸ inside
        have listed : ∀ other ∈ later, middle.data.Refers other := fun other member =>
          grows.agrees.refers.2 (refers other (List.mem_cons_of_mem _ member))
        exact built.beside (by simpa using success)
          (induction others (grows.sound sound) inMiddle listed) grows
          (items_grows grower others (grows.sound sound) inMiddle listed)

/-- A single item is there even if it could not be finished. -/
theorem items_complete {values : List Value} {growth : Growth}
    (grower : ∀ scope, Grower site.render scope.model (body scope))
    (serves : BodyServes frame scope.depth source body)
    (proper : Template.AllProper frame.known frame.strict source)
    (run : Runs (items body scope values) before growth after) (sound : before.data.Sound)
    (inside : scope.model.index < before.data.models.next)
    (refers : ∀ value ∈ values, before.data.Refers value)
    (short : values.length ≤ 1 ∨ growth.failure = none) :
    Completes frame before after growth
      (values.map (.item source · scope.model scope.depth)) := by
  have built := items_fulfils grower serves proper run sound inside refers
  by_cases success : growth.failure = none
  · refine ⟨fun allowed => ?_, built.failure⟩
    obtain ⟨done, _, whole, fits⟩ := built.fits allowed
    exact whole success ▸ fits
  · have single := short.resolve_right success
    cases values with
    | nil =>
        simp only [items, runs_pure] at run
        exact (success (run.1 ▸ rfl)).elim
    | cons value later =>
        obtain rfl : later = [] := List.length_eq_zero_iff.1 (by simpa using single)
        simp only [items, runs_bind] at run
        obtain ⟨first, middle, made, run⟩ := run
        split at run
        · simp only [runs_pure] at run
          obtain ⟨rfl, rfl⟩ := run
          exact item_completes serves proper made sound inside (refers value (by simp))
        · simp only [runs_bind, runs_pure] at run
          obtain ⟨_, _, ⟨rfl, _⟩, rfl, _⟩ := run
          exact (success rfl).elim

theorem list_completes {collection : CollectionId} {growth : Growth}
    (same : frame.render = site.render) (label : site.config.anchorLabel = frame.label)
    (grower : ∀ scope, Grower site.render scope.model (body scope))
    (serves : BodyServes frame scope.depth source body)
    (proper : Template.AllProper frame.known frame.strict source)
    (run : Runs (site.list body source scope collection) before growth after)
    (sound : before.data.Sound) (inside : scope.model.index < before.data.models.next)
    (there : collection.index < before.data.collections.next) :
    Completes frame before after growth
      [.list collection source scope.model scope.depth] := by
  simp only [list, runs_bind, runs_newNode, runs_newBound, runs_ask, runs_pure] at run
  obtain ⟨_, _, ⟨rfl, rfl⟩, _, _, ⟨rfl, rfl⟩, _, _, ⟨rfl, rfl⟩, inner, middle, made, ledger, _,
    observed, rfl, rfl⟩ := run
  have listed : ∀ value ∈ before.data.contents.items collection, before.data.Refers value :=
    fun value member => sound.items collection value (by rwa [← Data.contents_items])
  have built := items_fulfils grower serves proper made sound inside listed
  have grows := items_grows grower made sound inside listed
  refine ⟨fun allowed standing root way sees => ?_, built.failure⟩
  obtain ⟨done, part, whole, fits⟩ := built.fits allowed
  have anchor : standing.look before.places.next = some (.anchor frame.label) := by
    rw [← label]
    exact sees.look _ _ (List.mem_cons_self ..)
  have entered : inner.page.entries ⊆ (Forest.cons before.places.next
      (NodeData.anchor site.config.anchorLabel) .nil inner.page).entries := by
    intro entry member
    simp [Forest.entries, member]
  cases failed : inner.failure with
  | some error =>
      rw [observeList, if_pos (by simp [failed])] at observed
      simp only [runs_pure] at observed
      obtain ⟨rfl, rfl⟩ := observed
      have fails : frame.mayFail := allowed.resolve_left fun success => nomatch failed.symm.trans success
      have cut := List.prefix_iff_eq_take.1 part
      rw [← List.map_take] at cut
      rw [cut] at fits
      have seen : Sees standing
          { before with places := before.places.take, nextBound := before.nextBound + 1 } middle
          inner.page :=
        sees.sub (.refl _) (fun _ => le_rfl) (fun _ _ held => held) entered
      exact .cons (.list proper) (.unfinished anchor fails) (.inl rfl) (fits _ _ _ seen) .nil
  | none =>
      obtain rfl := whole failed
      rw [observeList, if_neg (by simp [failed])] at observed
      simp only [runs_bind, runs_observeChanges, runs_pure] at observed
      obtain ⟨_, _, ⟨rfl, rfl⟩, rfl, rfl⟩ := observed
      have inMiddle : collection.index < middle.data.collections.next := by
        rwa [grows.agrees.collections]
      have registers :=
        Data.subscribeChanges_registers (.splice site.render ⟨before.nextBound⟩) inMiddle
      have items : before.data.contents.items collection =
          standing.data.contents.items collection := by
        rw [sees.agrees.contents]
      have fresh : ¬ standing.late
          (middle.data.subscribeChanges collection (.splice site.render ⟨before.nextBound⟩)).1 := by
        intro late
        have below := sees.early _ late
        have beyond := grows.makes.data.nextNumber (.collection collection)
        exact absurd below (Nat.not_lt.2 beyond)
      refine .cons (.list proper)
        (.list anchor rfl ?_ ⟨fun late => (fresh late).elim, fun _ => rfl⟩) (.inl rfl) ?_ .nil
      · rw [same]
        exact sees.holds _ _ (registers.holds.2 (.inr ⟨rfl, rfl⟩))
      · rw [← items]
        apply fits
        exact sees.sub (.refl _) (fun _ => le_rfl) (fun _ _ held => registers.holds.2 (.inl held))
          entered

end Items

section Directives

variable {view : Scope → ModelId → String → Build Client Growth}
  {body : Scope → Build Client Growth} {directive : Directive} {switch group : BoundId}

/-- In the scopes of one depth, known views are built for their nodes. -/
def ViewsServe (frame : Frame) (depth : Nat) (view : Scope → ModelId → String → Build Client Growth) :
    Prop :=
  ∀ scope, scope.depth = depth → ∀ model name, frame.known name →
    Serves frame model [.node (.view name) model depth] (view scope model name)

/-- The items of collections are observed for a directive. -/
def Observes (frame : Frame) (standing : Standing) (switch group : BoundId)
    (ledger : List Subscription) (observed : List CollectionId) : Prop :=
  List.Forall₂ (fun subscription collection => subscription.source = .collection collection ∧
    standing.holds subscription (.change (.rebuild frame.render group switch))) ledger observed

theorem observeItems_observes {value : Value} {ledger : List Subscription}
    {page : Forest NodeId NodeData} (same : frame.render = site.render)
    (run : Runs (site.observeItems switch group value) before ledger middle)
    (refers : before.data.Refers value) (rule : directive.rule = .each)
    (kept : ∀ subscription observer, middle.data.Holds subscription observer →
      after.data.Holds subscription observer)
    (sees : Sees standing before after page) :
    Observes frame standing switch group ledger (directive.observes value) := by
  unfold Observes Directive.observes
  rw [rule]
  cases value with
  | collection collection =>
      simp only [observeItems, runs_bind, runs_observeChanges, runs_pure] at run
      obtain ⟨_, _, ⟨rfl, rfl⟩, rfl, rfl⟩ := run
      have registers := Data.subscribeChanges_registers (.rebuild site.render group switch)
        refers.collection_lt
      refine .cons ⟨rfl, ?_⟩ .nil
      rw [same]
      exact sees.holds _ _ (kept _ _ (registers.holds.2 (.inr ⟨rfl, rfl⟩)))
  | _ =>
      simp only [observeItems, runs_pure] at run
      obtain ⟨rfl, rfl⟩ := run
      exact .nil

theorem filling_fulfils {contents : Contents} {value : Value}
    {ledger : List Subscription} {growth : Growth}
    (same : frame.render = site.render) (label : site.config.anchorLabel = frame.label)
    (grower : ∀ scope, Grower site.render scope.model (body scope))
    (views : ViewsServe frame scope.depth view)
    (serves : BodyServes frame scope.depth directive.body body)
    (proper : (Node.directive directive.rule directive.path directive.body).Proper frame.known
      frame.strict)
    (run : Runs (site.filling view body switch group directive scope contents value)
      before (ledger, growth) after) (current : contents = before.data.contents)
    (sound : before.data.Sound) (inside : scope.model.index < before.data.models.next)
    (refers : before.data.Refers value) :
    Fulfils frame before after growth
        (directive.shows contents scope.model scope.depth value) ∧
      ∀ standing page, Sees standing before after page →
        Observes frame standing switch group ledger (directive.observes value) := by
  subst current
  have listed := itemsOf_refers sound refers
  have silent : directive.rule ≠ .each →
      ∀ standing (page : Forest NodeId NodeData), Sees standing before after page →
        Observes frame standing switch group [] (directive.observes value) := by
    intro other standing page _
    unfold Observes Directive.observes
    cases rule : directive.rule with
    | each => exact (other rule).elim
    | _ => exact .nil
  unfold Directive.shows
  cases rule : directive.rule with
  | showIf =>
      simp only [filling, rule] at run
      split at run <;> rename_i truth <;> simp only [runs_bind, runs_pure, Prod.mk.injEq] at run
      · obtain ⟨_, _, made, ⟨rfl, rfl⟩, rfl⟩ := run
        simp only [truth, if_true]
        exact ⟨serves _ rfl _ _ _ made sound inside, silent (by simp [rule])⟩
      · obtain ⟨_, _, ⟨rfl, rfl⟩, ⟨rfl, rfl⟩, rfl⟩ := run
        simp only [truth]
        exact ⟨.empty, silent (by simp [rule])⟩
  | showUnless =>
      simp only [filling, rule] at run
      split at run <;> rename_i truth <;> simp only [runs_bind, runs_pure, Prod.mk.injEq] at run
      · obtain ⟨_, _, ⟨rfl, rfl⟩, ⟨rfl, rfl⟩, rfl⟩ := run
        simp only [truth]
        exact ⟨.empty, silent (by simp [rule])⟩
      · obtain ⟨_, _, made, ⟨rfl, rfl⟩, rfl⟩ := run
        simp only [truth]
        exact ⟨serves _ rfl _ _ _ made sound inside, silent (by simp [rule])⟩
  | each =>
      simp only [filling, rule, runs_bind, runs_pure, Prod.mk.injEq] at run
      obtain ⟨_, middle, observed, _, _, made, ⟨rfl, rfl⟩, rfl⟩ := run
      have first := observeItems_grows observed refers
      have inMiddle := first.agrees.models.symm ▸ inside
      have listedThere := fun item member => first.agrees.refers.2 (listed item member)
      have built := items_fulfils grower serves proper.2 made (first.sound sound) inMiddle
        listedThere
      have grows := items_grows grower made (first.sound sound) inMiddle listedThere
      refine ⟨⟨fun allowed => ?_, built.failure⟩, ?_⟩
      · obtain ⟨done, part, whole, fits⟩ := built.fits allowed
        exact ⟨done, part, whole, fun standing root way sees =>
          fits standing root way (sees.second first (List.Subset.refl _))⟩
      intro standing page sees
      exact observeItems_observes same observed refers rule grows.makes.data.kept sees
  | collection =>
      simp only [filling, rule] at run
      split at run
      · simp only [runs_bind, runs_pure, Prod.mk.injEq] at run
        obtain ⟨_, _, made, ⟨rfl, rfl⟩, rfl⟩ := run
        have built := list_completes same label grower serves proper.2 made sound inside
          refers.collection_lt
        exact ⟨built.fulfils, silent (by simp [rule])⟩
      · rename_i other
        simp only [runs_bind, runs_pure, Prod.mk.injEq] at run
        obtain ⟨_, _, made, ⟨rfl, rfl⟩, rfl⟩ := run
        have built := items_fulfils grower serves proper.2 made sound inside listed
        refine ⟨?_, silent (by simp [rule])⟩
        cases value with
        | collection id => exact (other id rfl).elim
        | _ => exact built
  | view name =>
      simp only [filling, rule] at run
      split at run
      · simp only [runs_bind, runs_pure, Prod.mk.injEq] at run
        obtain ⟨_, _, made, ⟨rfl, rfl⟩, rfl⟩ := run
        exact ⟨views _ rfl _ _ (proper.1 _ rule) _ _ _ made sound refers.model_lt,
          silent (by simp [rule])⟩
      · rename_i other
        simp only [runs_pure, Prod.mk.injEq] at run
        obtain ⟨⟨rfl, rfl⟩, rfl⟩ := run
        refine ⟨?_, silent (by simp [rule])⟩
        cases value with
        | model id => exact (other id rfl).elim
        | _ => exact .empty

/-- What a directive calls for at the moment has been built for it. -/
structure ContentCompletes (frame : Frame) (before after : BuildState Client) (growth : Growth)
    (switch : BoundId) (directive : Directive) (model : ModelId) (depth : Nat) : Prop where
  fits : Allows frame growth → ∀ standing way, Sees standing before after growth.page →
    Fits frame standing switch way
      [.content (before.data.wanted before.data.contents directive model depth).2.1
        (before.data.wanted before.data.contents directive model depth).2.2] growth.bound
  failure : ∀ error, growth.failure = some error →
    ∃ name depth, error = .viewDepthExceeded name depth

theorem content_completes {growth : Growth}
    (same : frame.render = site.render) (label : site.config.anchorLabel = frame.label)
    (grower : ∀ scope, Grower site.render scope.model (body scope))
    (views : ViewsServe frame scope.depth view)
    (serves : BodyServes frame scope.depth directive.body body)
    (proper : (Node.directive directive.rule directive.path directive.body).Proper frame.known
      frame.strict)
    (run : Runs (site.content view body switch directive scope) before growth after)
    (sound : before.data.Sound) (inside : scope.model.index < before.data.models.next) :
    ContentCompletes frame before after growth switch directive scope.model scope.depth := by
  simp only [content, runs_bind, runs_ask, runs_newBound, runs_pure, Prod.exists] at run
  obtain ⟨_, _, ⟨rfl, rfl⟩, _, _, ⟨rfl, rfl⟩, _, _, ⟨rfl, rfl⟩, ledger, inner, after, made, rfl,
    rfl⟩ := run
  obtain ⟨built, observed⟩ := filling_fulfils same label grower views serves proper made rfl sound inside
    (sound.resolveRaw_refers ..)
  refine ⟨fun allowed standing way sees => ?_, built.failure⟩
  obtain ⟨done, part, whole, fits⟩ := built.fits allowed
  have seen : Sees standing { before with nextBound := before.nextBound + 1 } after inner.page :=
    sees.sub (.refl _) (fun _ => le_rfl) (fun _ _ held => held) (List.Subset.refl _)
  exact .cons (.content (directive.shows_proper proper _ _ _ _) (directive.shows_plain _ _ _ _))
    (.content (observed _ _ seen)) (allowed.covers part whole (fun same => by cases same)
      fun same => by cases same) (fits _ _ _ seen) .nil

theorem directive_serves (same : frame.render = site.render)
    (label : site.config.anchorLabel = frame.label)
    (growers : ∀ scope model name, Grower site.render model (view scope model name))
    (grower : ∀ scope, Grower site.render scope.model (body scope))
    (views : ViewsServe frame scope.depth view)
    (serves : BodyServes frame scope.depth directive.body body)
    (proper : (Node.directive directive.rule directive.path directive.body).Proper frame.known
      frame.strict) :
    Serves frame scope.model
      [.node (.directive directive.rule directive.path directive.body) scope.model scope.depth]
      (site.directive view body directive scope) := by
  intro before growth after run sound inside
  simp only [Site.directive, runs_bind, runs_newNode, runs_newBound, runs_ask, runs_pure,
    Prod.exists] at run
  obtain ⟨_, _, ⟨rfl, rfl⟩, _, _, ⟨rfl, rfl⟩, subscription, watches, middle, followed, shown, _,
    ⟨rfl, rfl⟩, inner, after, made, rfl, rfl⟩ := run
  obtain ⟨grows, _⟩ := follow_grows followed sound inside
  have inMiddle := grows.agrees.models.symm ▸ inside
  have built := content_completes same label grower views serves proper made (grows.sound sound)
    inMiddle
  obtain ⟨grew, _⟩ := content_grows growers grower made (grows.sound sound) inMiddle
  refine Completes.fulfils ⟨fun allowed standing root way sees => ?_, built.failure⟩
  have first : Sees standing
      { before with places := before.places.take, nextBound := before.nextBound + 1 } middle .nil :=
    sees.sub (.refl _) (fun _ => le_rfl) grew.makes.data.kept (by simp [Forest.entries])
  have second : Sees standing middle after inner.page :=
    sees.sub grows.agrees grows.makes.data.nextNumber (fun _ _ held => held) fun entry member => by
      simp [Forest.entries, member]
  have wanted : middle.data.wanted middle.data.contents directive scope.model scope.depth =
      standing.data.wanted standing.data.contents directive scope.model scope.depth :=
    second.agrees.wanted ..
  have follows := follow_followed same followed sound inside first
  have content := built.fits allowed standing
    (Part.switch directive (decision middle.data.contents directive.rule
      (middle.data.resolveRaw scope.model directive.path))).way second
  have apart : ∀ slot, watchers inner.bound slot = [] := fun slot =>
    (built.fits allowed standing (fun _ => []) second).watchers_eq_nil rfl
  refine .cons (.node proper) (.switch ?_ ⟨_, _, rfl⟩ (.inr ?_) ?_) (.inl rfl)
    ((follows.fits _ rfl).after_watches content) .nil
  · rw [← label]
    exact sees.look _ _ (List.mem_cons_self ..)
  · exact ⟨_, .inr (.inr rfl), wanted⟩
  · refine .cons (follows.linked _ ?_) .nil
    rw [watchers_append, apart, List.append_nil]

end Directives

section Nodes

variable {view : Scope → ModelId → String → Build Client Growth}

mutual

theorem node_serves (same : frame.render = site.render)
    (label : site.config.anchorLabel = frame.label)
    (growers : ∀ scope model name, Grower site.render model (view scope model name)) :
    ∀ (source : Node) (scope : Scope), ViewsServe frame scope.depth view →
      source.Proper frame.known frame.strict →
        Serves frame scope.model [.node source scope.model scope.depth] (site.node view source scope)
  | .element tag entries children line, scope, views, proper => by
      intro before growth after run sound inside
      simp only [node, runs_bind, runs_newNode, runs_newBound, runs_pure, Prod.exists] at run
      obtain ⟨_, _, ⟨rfl, rfl⟩, _, _, ⟨rfl, rfl⟩, data, ledger, watches, middle, listed, inner, after,
        made, rfl, rfl⟩ := run
      obtain ⟨grows, _⟩ := attributes_grows listed sound inside
      have inMiddle := grows.agrees.models.symm ▸ inside
      have built := nodes_serves same label growers children scope views proper.2 _ _ _ made
        (grows.sound sound) inMiddle
      have grew := nodes_grows site growers children scope _ _ _ made (grows.sound sound) inMiddle
      refine Completes.fulfils ⟨fun allowed standing root way sees => ?_, built.failure⟩
      obtain ⟨done, part, whole, fits⟩ := built.fits allowed
      have first : Sees standing
          { before with places := before.places.take, nextBound := before.nextBound + 1 } middle
          .nil :=
        sees.sub (.refl _) (fun _ => le_rfl) grew.makes.data.kept (by simp [Forest.entries])
      have second : Sees standing middle after inner.page :=
        sees.sub grows.agrees grows.makes.data.nextNumber (fun _ _ held => held)
          fun entry member => by simp [Forest.entries, member]
      have holds : Setting.Holds ⟨standing.data, frame.registry, frame.label⟩ before.data :=
        sees.agrees
      obtain ⟨seen, -, -⟩ := attributes_drawn listed sound inside holds
      have kind : data.kind = .element tag := by
        have entered := Setting.kind_entered ⟨standing.data, frame.registry, frame.label⟩ scope.model
          entries (.element tag)
        exact (congrArg NodeData.kind seen).trans entered
      have wears : frame.strict →
          Wears standing ⟨before.nextBound⟩ scope.model (.element entries) data := fun strict =>
        Setting.entered_wears ⟨standing.data, frame.registry, frame.label⟩ (proper.1 strict) rfl seen
      have follows := attributes_followed same listed sound inside first
      have apart : ∀ slot, watchers inner.bound slot = [] := fun slot =>
        (fits standing root (fun _ => []) second).watchers_eq_nil rfl
      refine .cons (.node proper) (.element (sees.look _ _ (List.mem_cons_self ..)) kind wears ?_)
        (allowed.covers part whole (fun same => by cases same) fun same => by cases same)
        ((follows.fits _ ?_).after_watches (fits standing _ _ second)) .nil
      · apply follows.linked
        intro position _
        rw [watchers_append, apart, List.append_nil]
      · intro position path member
        exact Part.way_of_path? (Part.mem_followed.1 member)
  | .text content, scope, _, _ => by
      rw [node]
      exact text_serves same
  | .directive rule path body, scope, views, proper => by
      rw [node]
      refine directive_serves same label growers ?_ ?_ ?_ ?_
      · exact nodes_grows site growers body
      · exact views
      · intro inner depth
        exact depth ▸ nodes_serves same label growers body inner (depth ▸ views) proper.2
      · exact proper
  | .view name, scope, views, proper => by
      rw [node]
      exact views scope rfl scope.model name proper

theorem nodes_serves (same : frame.render = site.render)
    (label : site.config.anchorLabel = frame.label)
    (growers : ∀ scope model name, Grower site.render model (view scope model name)) :
    ∀ (sources : List Node) (scope : Scope), ViewsServe frame scope.depth view →
      Template.AllProper frame.known frame.strict sources →
        Serves frame scope.model (sources.map (.node · scope.model scope.depth))
          (site.nodes view sources scope)
  | [], scope, _, _ => by
      intro before growth after run _ _
      simp only [nodes, runs_pure] at run
      obtain ⟨rfl, rfl⟩ := run
      exact .empty
  | first :: later, scope, views, proper => by
      intro before growth after run sound inside
      simp only [nodes, runs_bind] at run
      obtain ⟨growth, middle, made, run⟩ := run
      have grows := node_grows site growers first scope _ _ _ made sound inside
      have built := node_serves same label growers first scope views proper.1 _ _ _ made sound inside
      split at run
      · rename_i failed
        simp only [runs_pure] at run
        obtain ⟨rfl, rfl⟩ := run
        exact built.failed failed _
      · rename_i success
        simp only [runs_bind, runs_pure] at run
        obtain ⟨second, _, others, rfl, rfl⟩ := run
        have inMiddle := grows.agrees.models.symm ▸ inside
        exact built.beside (by simpa using success)
          (nodes_serves same label growers later scope views proper.2 _ _ _ others
            (grows.sound sound) inMiddle) grows
          (nodes_grows site growers later scope _ _ _ others (grows.sound sound) inMiddle)

end

end Nodes

theorem view_serves (same : frame.render = site.render)
    (label : site.config.anchorLabel = frame.label) (registry : site.registry = frame.registry)
    {room depth : Nat} (left : room = frame.limit - depth) :
    ViewsServe frame depth (site.view room) := by
  induction room generalizing depth with
  | zero =>
      intro scope _ model name _ before growth after run _ _
      simp only [view, runs_pure] at run
      obtain ⟨rfl, rfl⟩ := run
      refine ⟨fun _ => ⟨[], List.nil_prefix, (fun success => by cases success), fun _ _ _ _ => .nil⟩,
        fun error equal => ?_⟩
      obtain rfl := Option.some.inj equal
      exact ⟨_, _, rfl⟩
  | succ room induction =>
      rintro scope rfl model name known before growth after run sound inside
      obtain ⟨template, found, proper⟩ := frame.closed name known
      rw [view, registry, found] at run
      simp only [runs_bind, runs_newBound, runs_pure, Prod.exists] at run
      obtain ⟨controller, fresh, middle, chosen, _, _, ⟨rfl, rfl⟩, inner, shown, made, ⟨⟩, after,
        introduced, rfl, rfl⟩ := run
      have first := viewController_grows chosen
      have last : Grows site.render shown after [] .nil .nil := introduce_grows introduced
      have deeper : room = frame.limit - (scope.depth + 1) := by omega
      have built := node_serves same label (view_grows site room) template.root
        ⟨model, controller, scope.depth + 1⟩ (induction deeper) proper _ _ _ made
        (first.sound sound) (first.agrees.models.symm ▸ inside)
      refine Completes.fulfils ⟨fun allowed standing root way sees => ?_, built.failure⟩
      obtain ⟨done, part, whole, fits⟩ := built.fits allowed
      refine .cons (.node known) (.view found (by omega)) (allowed.covers part whole
        (fun same => by cases same) fun same => by cases same) (fits standing _ _ ?_) .nil
      exact sees.sub first.agrees first.makes.data.nextNumber last.makes.data.kept
        (List.Subset.refl _)

/-- Views within a scope have the room that is left at its depth. -/
theorem viewIn_serves (same : frame.render = site.render)
    (label : site.config.anchorLabel = frame.label) (registry : site.registry = frame.registry)
    (limit : site.config.maxViewDepth = frame.limit) (depth : Nat) :
    ViewsServe frame depth site.viewIn := by
  rintro scope rfl model name known
  exact view_serves same label registry (by rw [limit]) scope rfl model name known

end Site

end LiveTemplate
