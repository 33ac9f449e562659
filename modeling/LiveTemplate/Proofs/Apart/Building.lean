import LiveTemplate.Proofs.Apart.Parts
import LiveTemplate.Proofs.Build.Constructs
import LiveTemplate.Proofs.Build.Steps

/-!
# Building the same in two worlds

Two buildings go abreast if each step of the one can be matched by the same step of the other.  What is
asked for is what a building does to its state; how names are linked, and by which stages, is left
open.  Then whatever is built from the same template matches.
-/

namespace LiveTemplate

open Template (Node Attribute Expression Path Rule)
open Build

/-- Every model and every collection that a value refers to is there. -/
def Links.Refers (links : Links) (value : Value) : Prop :=
  value.Within links.models links.collections

variable {Client Stage : Type} [Preorder Stage]

/-- Two sites at which the steps of building can be taken side by side. -/
structure Site.Abreast (Stage : Type) [Preorder Stage] (one other : Site Client) where
  links : Stage → Links
  monotone : Monotone links
  /-- The states that both buildings may be in at a stage. -/
  states : Stage → BuildState Client → BuildState Client → Prop
  config : one.config = other.config
  registry : one.registry = other.registry
  agrees : ∀ {stage before after}, states stage before after → before.data.Agrees after.data
  sound : ∀ {stage before after}, states stage before after → before.data.Sound
  models : ∀ {stage before after}, states stage before after →
    before.data.models.next = (links stage).models
  collections : ∀ {stage before after}, states stage before after →
    before.data.collections.next = (links stage).collections
  render : ∀ {stage before after}, states stage before after →
    (links stage).renders one.render other.render
  bound : ∀ {stage before after}, states stage before after →
    before.nextBound = after.nextBound ∧
      states stage { before with nextBound := before.nextBound + 1 }
        { after with nextBound := after.nextBound + 1 }
  node : ∀ {stage before after}, states stage before after → ∃ later, stage ≤ later ∧
    (links later).nodes before.places.next after.places.next ∧
      states later { before with places := before.places.take }
        { after with places := after.places.take }
  observe : ∀ {stage before after}, states stage before after → ∀ {model : ModelId},
    model.index < (links stage).models → ∀ (property : String) (owner root : BoundId) (slot : Nat)
      (rest : List String), ∃ later, stage ≤ later ∧
        (links later).marks
          (before.data.subscribe model (changeChannel property)
            (.path ⟨one.render, owner, root, slot, rest⟩)).1
          (after.data.subscribe model (changeChannel property)
            (.path ⟨other.render, owner, root, slot, rest⟩)).1 ∧
        states later
          { before with
            data := (before.data.subscribe model (changeChannel property)
              (.path ⟨one.render, owner, root, slot, rest⟩)).2 }
          { after with
            data := (after.data.subscribe model (changeChannel property)
              (.path ⟨other.render, owner, root, slot, rest⟩)).2 }
  observeChanges : ∀ {stage before after}, states stage before after →
    ∀ {collection : CollectionId}, collection.index < (links stage).collections →
      ∀ {first second : ChangeObserver} (_same : (Observer.change first).Matches (links stage)
        (.change second)) (_own : ∃ owner, (Observer.change first).owner? = some (one.render, owner)),
        ∃ later, stage ≤ later ∧
          (links later).marks (before.data.subscribeChanges collection first).1
            (after.data.subscribeChanges collection second).1 ∧
          states later
            { before with data := (before.data.subscribeChanges collection first).2 }
            { after with data := (after.data.subscribeChanges collection second).2 }
  create : ∀ {stage before after}, states stage before after → ∃ later, stage ≤ later ∧
    (links later).controllers (before.controllers.create .inert).1
      (after.controllers.create .inert).1 ∧
    states later { before with controllers := (before.controllers.create .inert).2 }
      { after with controllers := (after.controllers.create .inert).2 }
  /-- A controller from a factory may be told later what its view is. -/
  call : ∀ {stage before after}, states stage before after → ∀ {upper above : ControllerId},
    (links stage).controllers upper above → ∀ factory : Hook, ∃ later, stage ≤ later ∧
      (links later).controllers (one.given factory before) (other.given factory after) ∧
      states later (one.called factory before) (other.called factory after) ∧
      ∀ {last early late}, later ≤ last → states last early late →
        ∀ (model : ModelId) {first second : NodeId}, (links last).nodes first second →
          states last
            { early with
              controllers := early.controllers.attach (one.given factory before)
                ⟨model, first, some upper⟩ }
            { late with
              controllers := late.controllers.attach (other.given factory after)
                ⟨model, second, some above⟩ }

namespace Site.Abreast

variable {one other : Site Client} (abreast : one.Abreast Stage other) {stage : Stage}
  {Result Other : Type}

/-- The steps lead to results that match, wherever they start from at a stage. -/
def Twins (stage : Stage) (first second : Build Client Result)
    (results : Links → Result → Result → Prop) : Prop :=
  ∀ before after, abreast.states stage before after → ∃ later, stage ≤ later ∧
    abreast.states later (first.run before).2 (second.run after).2 ∧
      results (abreast.links later) (first.run before).1 (second.run after).1

variable {abreast} {results : Links → Result → Result → Prop}

theorem le {later : Stage} (early : stage ≤ later) : abreast.links stage ≤ abreast.links later :=
  abreast.monotone early

namespace Twins

theorem pure {first second : Result} (same : results (abreast.links stage) first second) :
    abreast.Twins stage (Pure.pure first) (Pure.pure second) results :=
  fun _ _ states => ⟨stage, le_rfl, states, same⟩

theorem bind {middle : Links → Other → Other → Prop} {first second : Build Client Other}
    {next also : Other → Build Client Result} (here : abreast.Twins stage first second middle)
    (there : ∀ later, stage ≤ later → ∀ value twin, middle (abreast.links later) value twin →
      abreast.Twins later (next value) (also twin) results) :
    abreast.Twins stage (first >>= next) (second >>= also) results := by
  intro before after states
  obtain ⟨later, early, states, related⟩ := here before after states
  obtain ⟨last, late, states, related⟩ := there later early _ _ related _ _ states
  exact ⟨last, early.trans late, states, related⟩

/-- What is asked of the data is the same in both worlds. -/
theorem ask {Answer : Type} {question : Data → Answer} {holds : Answer → Prop}
    (agrees : ∀ data also : Data, data.Agrees also → question also = question data)
    (sure : ∀ data : Data, data.Sound → data.models.next = (abreast.links stage).models →
      data.collections.next = (abreast.links stage).collections → holds (question data)) :
    abreast.Twins stage (Build.ask question) (Build.ask question) fun _ answer also =>
      answer = also ∧ holds answer := by
  intro before after states
  refine ⟨stage, le_rfl, states, (agrees _ _ (abreast.agrees states)).symm, ?_⟩
  exact sure _ (abreast.sound states) (abreast.models states) (abreast.collections states)

/-- Something is read together with the items of all collections. -/
theorem readingContents {Answer : Type} {question : Data → Answer}
    {next also : Answer → Contents → Build Client Result}
    (agrees : ∀ data also : Data, data.Agrees also → question also = question data)
    (there : ∀ data : Data, data.Sound → data.models.next = (abreast.links stage).models →
      data.collections.next = (abreast.links stage).collections →
        abreast.Twins stage (next (question data) data.contents)
          (also (question data) data.contents) results) :
    abreast.Twins stage
      (Build.ask question >>= fun answer => Build.ask Data.contents >>= fun contents =>
        next answer contents)
      (Build.ask question >>= fun answer => Build.ask Data.contents >>= fun contents =>
        also answer contents) results := by
  intro before after states
  have run := there before.data (abreast.sound states) (abreast.models states)
    (abreast.collections states) before after states
  change ∃ later, stage ≤ later ∧ abreast.states later _
    ((also (question after.data) after.data.contents).run after).2 ∧ results _ _
      ((also (question after.data) after.data.contents).run after).1
  rw [agrees _ _ (abreast.agrees states), (abreast.agrees states).contents]
  exact run

theorem newBound : abreast.Twins stage Build.newBound Build.newBound fun _ => Eq := by
  intro before after states
  obtain ⟨same, states⟩ := abreast.bound states
  exact ⟨stage, le_rfl, states, congrArg BoundId.mk same⟩

theorem newNode : abreast.Twins stage Build.newNode Build.newNode Links.nodes := by
  intro before after states
  obtain ⟨later, early, linked, states⟩ := abreast.node states
  exact ⟨later, early, states, linked⟩

theorem registers {model : ModelId} (inside : model.index < (abreast.links stage).models)
    (property : String) (owner root : BoundId) (slot : Nat) (rest : List String) :
    abreast.Twins stage (Build.observe model property ⟨one.render, owner, root, slot, rest⟩)
      (Build.observe model property ⟨other.render, owner, root, slot, rest⟩) Links.marks := by
  intro before after states
  obtain ⟨later, early, marked, states⟩ :=
    abreast.observe states inside property owner root slot rest
  exact ⟨later, early, states, marked⟩

theorem registersChanges {collection : CollectionId}
    (inside : collection.index < (abreast.links stage).collections) {first second : ChangeObserver}
    (same : ∀ links : Links, links.renders one.render other.render →
      (Observer.change first).Matches links (.change second))
    (own : ∃ owner, (Observer.change first).owner? = some (one.render, owner)) :
    abreast.Twins stage (Build.observeChanges collection first)
      (Build.observeChanges collection second) Links.marks := by
  intro before after states
  obtain ⟨later, early, marked, states⟩ :=
    abreast.observeChanges states inside (same _ (abreast.render states)) own
  exact ⟨later, early, states, marked⟩

/-! ## Paths -/

variable {first second : Scope}

theorem watch (root : BoundId) (slot : Nat) (segments : List String) {stage : Stage} {value : Value}
    (scopes : first.Matches (abreast.links stage) second)
    (refers : (abreast.links stage).Refers value) :
    abreast.Twins stage (one.watch root slot first value segments)
      (other.watch root slot second value segments) Bindings.Matches := by
  induction segments generalizing value stage with
  | nil => exact .pure .nil
  | cons segment rest induction =>
      cases refers with
      | model inside =>
          rename_i model
          apply newBound.bind
          rintro later early id _ rfl
          have question : abreast.Twins later (Build.ask fun data => data.get model segment)
              (Build.ask fun data => data.get model segment) fun _ next also =>
                next = also ∧ (abreast.links later).Refers next := by
            refine ask (fun _ _ agrees => agrees.get model segment) fun data sound models sizes => ?_
            rw [Links.Refers, ← models, ← sizes]
            exact sound.values model segment
          apply question.bind
          rintro middle late next _ ⟨rfl, refers⟩
          have grow := (le late : abreast.links later ≤ _)
          refine (induction (scopes.mono (le (early.trans late)))
            (refers.mono grow.models grow.collections)).bind ?_
          intro after onward deeper also watches
          have through := early.trans (late.trans onward)
          have there : model.index < (abreast.links after).models :=
            Nat.lt_of_lt_of_le inside (le through).models
          refine (registers there segment id root slot rest).bind ?_
          intro last final mark twin marked
          have scope := scopes.mono (le (through.trans final))
          exact .pure (.keep rfl ⟨rfl, .none, .cons marked .nil, rfl, scope.controller, scope.depth,
            Nat.lt_of_lt_of_le there (le final).models⟩ (watches.mono (le final)) .nil)
      | _ => exact .pure .nil

/-- What following a path gives. -/
def Followed (links : Links) (first second : Subscription × Bindings) : Prop :=
  links.marks first.1 second.1 ∧ Bindings.Matches links first.2 second.2

theorem follow (root : BoundId) (slot : Nat) (path : Path)
    (scopes : first.Matches (abreast.links stage) second) :
    abreast.Twins stage (one.follow root slot first path) (other.follow root slot second path)
      Followed := by
  unfold Site.follow
  rw [← scopes.model]
  have question : abreast.Twins stage (Build.ask fun data => data.get first.model path.head)
      (Build.ask fun data => data.get first.model path.head) fun _ value also =>
        value = also ∧ (abreast.links stage).Refers value := by
    refine ask (fun _ _ agrees => agrees.get _ _) fun data sound models sizes => ?_
    rw [Links.Refers, ← models, ← sizes]
    exact sound.values _ _
  apply question.bind
  rintro later early value _ ⟨rfl, refers⟩
  have grow := (le early : abreast.links stage ≤ _)
  refine (watch root slot path.tail (scopes.mono grow)
    (refers.mono grow.models grow.collections)).bind ?_
  intro middle late watches also same
  refine (registers (scopes.mono (le (early.trans late))).inside path.head root root slot _).bind ?_
  intro last final mark twin marked
  exact .pure ⟨marked, same.mono (le final)⟩

/-- What evaluating an expression gives. -/
def Evaluated (links : Links) (first second : Value × List Subscription × Bindings) : Prop :=
  first.1 = second.1 ∧ List.Forall₂ links.marks first.2.1 second.2.1 ∧
    Bindings.Matches links first.2.2 second.2.2

theorem evaluate (root : BoundId) (slot : Nat) (expression : Expression)
    (scopes : first.Matches (abreast.links stage) second) :
    abreast.Twins stage (one.evaluate root slot first expression)
      (other.evaluate root slot second expression) Evaluated := by
  cases expression with
  | literal text => exact .pure ⟨rfl, .nil, .nil⟩
  | bound path =>
      unfold Site.evaluate
      dsimp only
      rw [← scopes.model]
      have question : abreast.Twins stage (Build.ask fun data => data.resolve first.model path)
          (Build.ask fun data => data.resolve first.model path) fun _ value also =>
            value = also ∧ True :=
        ask (fun _ _ agrees => agrees.resolve _ _) fun _ _ _ _ => trivial
      apply question.bind
      rintro later early value _ ⟨rfl, _⟩
      refine (follow root slot path (scopes.mono (le early))).bind ?_
      rintro middle late ⟨mark, watches⟩ ⟨twin, also⟩ ⟨marked, same⟩
      exact .pure ⟨rfl, .cons marked .nil, same⟩

theorem contents : abreast.Twins stage (Build.ask Data.contents) (Build.ask Data.contents)
    fun _ contents also => contents = also ∧ True :=
  ask (fun _ _ agrees => agrees.contents) fun _ _ _ _ => trivial

/-! ## Elements and texts -/

/-- What building attributes gives. -/
def Dressed (links : Links) (first second : NodeData × List Subscription × Bindings) : Prop :=
  first.1.Matches links second.1 ∧ List.Forall₂ links.marks first.2.1 second.2.1 ∧
    Bindings.Matches links first.2.2 second.2.2

/-- The renders may be taken to be linked. -/
theorem of_render {first second : Build Client Result}
    (twins : (abreast.links stage).renders one.render other.render →
      abreast.Twins stage first second results) : abreast.Twins stage first second results :=
  fun before after states => twins (abreast.render states) before after states

theorem attributes (root : BoundId) (entries : List Attribute)
    (scopes : first.Matches (abreast.links stage) second) (slot : Nat) {data also : NodeData}
    (alike : data.Matches (abreast.links stage) also) :
    abreast.Twins stage (one.attributes root first slot entries data)
      (other.attributes root second slot entries also) Dressed := by
  induction entries generalizing stage slot data also with
  | nil => exact .pure ⟨alike, .nil, .nil⟩
  | cons entry rest induction =>
      -- Whatever one entry gives, the others come after it.
      have tail : ∀ later, stage ≤ later → ∀ data also ledger marks watches others,
          data.Matches (abreast.links later) also →
          List.Forall₂ (abreast.links later).marks ledger marks →
          Bindings.Matches (abreast.links later) watches others → abreast.Twins later
            (do
              let dressed ← one.attributes root first (slot + 1) rest data
              return (dressed.1, ledger ++ dressed.2.1, watches ++ dressed.2.2))
            (do
              let dressed ← other.attributes root second (slot + 1) rest also
              return (dressed.1, marks ++ dressed.2.1, others ++ dressed.2.2)) Dressed := by
        intro later early data also ledger marks watches others alike marked same
        refine (induction (scopes.mono (le early)) (slot + 1) alike).bind ?_
        rintro last late ⟨_, _, _⟩ ⟨_, _, _⟩ ⟨dressed, moreMarked, more⟩
        have grow := (le late : abreast.links later ≤ _)
        exact .pure ⟨dressed, List.rel_append (marked.imp grow.marks) moreMarked,
          (same.mono grow).append more⟩
      cases entry with
      | property name expression | style name expression =>
          refine (evaluate root slot expression scopes).bind ?_
          rintro later early ⟨value, ledger, watches⟩ ⟨_, marks, others⟩ ⟨⟨⟩, marked, same⟩
          apply contents.bind
          rintro last late contents _ ⟨rfl, _⟩
          have grow := (le late : abreast.links later ≤ _)
          exact tail last (early.trans late) _ _ _ _ _ _
            ((alike.mono (le (early.trans late))).showing _ _ _) (marked.imp grow.marks)
            (same.mono grow)
      | event name action prevents =>
          apply of_render
          intro render
          exact tail stage le_rfl _ _ _ _ _ _ (alike.listen name (.action render root slot)) .nil
            .nil

theorem text (content : Expression) (scopes : first.Matches (abreast.links stage) second) :
    abreast.Twins stage (one.text first content) (other.text second content) Growth.Matches := by
  apply newNode.bind
  intro later early node twin linked
  apply newBound.bind
  rintro middle late id _ rfl
  have scopes := scopes.mono (le (early.trans late))
  refine (evaluate id 0 content scopes).bind ?_
  rintro after onward ⟨value, ledger, watches⟩ ⟨_, marks, others⟩ ⟨rfl, marked, same⟩
  apply contents.bind
  rintro last final contents _ ⟨rfl, _⟩
  have grow := (le final : abreast.links after ≤ _)
  refine .pure ⟨?_, ?_, rfl⟩
  · exact .keep ((le (late.trans (onward.trans final))).nodes _ _ linked)
      ((NodeData.Matches.of_kind _ _).showing .text _ _) .nil .nil
  · exact .keep rfl ⟨rfl, .some ((le (late.trans (onward.trans final))).nodes _ _ linked),
      marked.imp grow.marks, scopes.mono (le (onward.trans final))⟩ (same.mono grow) .nil

/-! ## Bodies -/

/-- Whatever the scopes are, the bodies are built alike. -/
def Bodies (abreast : one.Abreast Stage other) (stage : Stage)
    (body also : Scope → Build Client Growth) : Prop :=
  ∀ later, stage ≤ later → ∀ first second : Scope, first.Matches (abreast.links later) second →
    abreast.Twins later (body first) (also second) Growth.Matches

theorem Bodies.mono {body also : Scope → Build Client Growth} {later : Stage}
    (bodies : Bodies abreast stage body also) (early : stage ≤ later) :
    Bodies abreast later body also :=
  fun last late => bodies last (early.trans late)

section Bodies

variable {body also : Scope → Build Client Growth}

theorem itemScope_matches (scopes : first.Matches (abreast.links stage) second) {value : Value}
    (refers : (abreast.links stage).Refers value) :
    (itemScope first value).Matches (abreast.links stage) (itemScope second value) := by
  cases refers with
  | model inside => exact ⟨rfl, scopes.controller, scopes.depth, inside⟩
  | _ => exact scopes

theorem item (bodies : Bodies abreast stage body also)
    (scopes : first.Matches (abreast.links stage) second) {value : Value}
    (refers : (abreast.links stage).Refers value) :
    abreast.Twins stage (Site.item body first value) (Site.item also second value)
      Growth.Matches := by
  have scopes := itemScope_matches scopes refers
  apply newBound.bind
  rintro later early id _ rfl
  refine (bodies later early _ _ (scopes.mono (le early))).bind ?_
  intro last late growth twin same
  exact .pure (same.within id ⟨rfl, .none, .nil, scopes.mono (le (early.trans late))⟩)

theorem items (values : List Value) {stage : Stage} (bodies : Bodies abreast stage body also)
    (scopes : first.Matches (abreast.links stage) second)
    (refers : ∀ value ∈ values, (abreast.links stage).Refers value) :
    abreast.Twins stage (Site.items body first values) (Site.items also second values)
      Growth.Matches := by
  induction values generalizing stage with
  | nil => exact .pure .empty
  | cons value rest induction =>
      rw [Site.items, Site.items]
      refine (item bodies scopes (refers _ List.mem_cons_self)).bind ?_
      intro later early growth twin same
      have grow := (le early : abreast.links stage ≤ _)
      rw [← same.failure]
      split
      · exact .pure same
      · refine (induction (bodies.mono early) (scopes.mono grow) fun value member =>
          (refers value (List.mem_cons_of_mem _ member)).mono grow.models grow.collections).bind ?_
        intro last late more others also
        exact .pure ((same.mono (le late)).beside also)

theorem observeList (list : BoundId) {collection : CollectionId}
    (inside : collection.index < (abreast.links stage).collections) {growth twin : Growth}
    (failure : growth.failure = twin.failure) :
    abreast.Twins stage (one.observeList list collection growth)
      (other.observeList list collection twin) fun links => List.Forall₂ links.marks := by
  unfold Site.observeList
  rw [← failure]
  split
  · exact .pure .nil
  · refine (registersChanges inside (fun _ render => .splice render list) ⟨list, rfl⟩).bind ?_
    intro later early mark twin marked
    exact .pure (.cons marked .nil)

theorem list (source : List Node) {collection : CollectionId}
    (bodies : Bodies abreast stage body also) (scopes : first.Matches (abreast.links stage) second)
    (inside : collection.index < (abreast.links stage).collections) :
    abreast.Twins stage (one.list body source first collection)
      (other.list also source second collection) Growth.Matches := by
  apply newNode.bind
  intro later early node twin linked
  apply newBound.bind
  rintro middle late id _ rfl
  have through := early.trans late
  have question : abreast.Twins middle (Build.ask fun data => data.contents.items collection)
      (Build.ask fun data => data.contents.items collection) fun _ values also =>
        values = also ∧ ∀ value ∈ values, (abreast.links middle).Refers value := by
    refine ask (fun _ _ agrees => by rw [agrees.contents]) fun data sound models sizes => ?_
    intro value member
    rw [Data.contents_items] at member
    rw [Links.Refers, ← models, ← sizes]
    exact sound.items collection value member
  apply question.bind
  rintro after onward values _ ⟨rfl, refers⟩
  have grow := (le onward : abreast.links middle ≤ _)
  have scopes := scopes.mono (le (through.trans onward))
  refine (items values (bodies.mono (through.trans onward)) scopes fun value member =>
    (refers value member).mono grow.models grow.collections).bind ?_
  intro last final growth twins same
  have there : collection.index < (abreast.links last).collections :=
    Nat.lt_of_lt_of_le inside (le (through.trans (onward.trans final))).collections
  refine (observeList id there same.failure).bind ?_
  intro final' ultimate ledger marks marked
  have same := same.mono (le ultimate)
  have linked := (le (late.trans (onward.trans (final.trans ultimate)))).nodes _ _ linked
  rw [← abreast.config]
  refine .pure ⟨?_, ?_, same.failure⟩
  · exact .keep linked (.of_kind _ _) .nil same.page
  · exact .keep rfl ⟨rfl, .some linked, marked, scopes.mono (le (final.trans ultimate))⟩ same.bound
      .nil

/-! ## Directives -/

/-- Whatever the scopes are, views are shown alike. -/
def Views (abreast : one.Abreast Stage other) (stage : Stage)
    (view also : Scope → ModelId → String → Build Client Growth) : Prop :=
  ∀ later, stage ≤ later → ∀ first second : Scope, first.Matches (abreast.links later) second →
    ∀ model : ModelId, model.index < (abreast.links later).models → ∀ name,
      abreast.Twins later (view first model name) (also second model name) Growth.Matches

theorem Views.mono {view twin : Scope → ModelId → String → Build Client Growth} {later : Stage}
    (views : Views abreast stage view twin) (early : stage ≤ later) :
    Views abreast later view twin :=
  fun last late => views last (early.trans late)

/-- What filling a directive gives. -/
def Filled (links : Links) (first second : List Subscription × Growth) : Prop :=
  List.Forall₂ links.marks first.1 second.1 ∧ first.2.Matches links second.2

theorem observeItems (switch group : BoundId) {value : Value}
    (refers : (abreast.links stage).Refers value) :
    abreast.Twins stage (one.observeItems switch group value)
      (other.observeItems switch group value) fun links => List.Forall₂ links.marks := by
  cases refers with
  | collection inside =>
      refine (registersChanges inside (fun _ render => .rebuild render group switch)
        ⟨group, rfl⟩).bind ?_
      intro later early mark twin marked
      exact .pure (.cons marked .nil)
  | _ => exact .pure .nil

variable {view twin : Scope → ModelId → String → Build Client Growth}

/-- Growth alone, with no registrations beside it. -/
theorem alone {first second : Build Client Growth}
    (twins : abreast.Twins stage first second Growth.Matches) :
    abreast.Twins stage (do return ([], ← first)) (do return ([], ← second)) Filled :=
  twins.bind fun _ _ _ _ same => .pure ⟨.nil, same⟩

theorem filling (bodies : Bodies abreast stage body also) (views : Views abreast stage view twin)
    (scopes : first.Matches (abreast.links stage) second) (switch group : BoundId)
    (directive : Directive) {contents : Contents} {value : Value}
    (refers : (abreast.links stage).Refers value)
    (items : ∀ item ∈ itemsOf contents value, (abreast.links stage).Refers item) :
    abreast.Twins stage (one.filling view body switch group directive first contents value)
      (other.filling twin also switch group directive second contents value) Filled := by
  have shown := bodies stage le_rfl first second scopes
  unfold Site.filling
  split
  · split
    · exact alone shown
    · exact alone (.pure .empty)
  · split
    · exact alone (.pure .empty)
    · exact alone shown
  · refine (observeItems switch group refers).bind ?_
    intro later early ledger marks marked
    have grow := (le early : abreast.links stage ≤ _)
    refine (Twins.items _ (bodies.mono early) (scopes.mono grow) fun item member =>
      (items item member).mono grow.models grow.collections).bind ?_
    intro last late growth twin same
    exact .pure ⟨marked.imp (le late).marks, same⟩
  · split
    · cases refers with
      | collection inside => exact alone (list _ bodies scopes inside)
    · exact alone (Twins.items _ bodies scopes items)
  · split
    · cases refers with
      | model inside => exact alone (views stage le_rfl first second scopes _ inside _)
    · exact .pure ⟨.nil, .empty⟩

theorem content (bodies : Bodies abreast stage body also) (views : Views abreast stage view twin)
    (scopes : first.Matches (abreast.links stage) second) (switch : BoundId)
    (directive : Directive) :
    abreast.Twins stage (one.content view body switch directive first)
      (other.content twin also switch directive second) Growth.Matches := by
  unfold Site.content
  rw [← scopes.model]
  -- The items that are shown are those of the moment at which the value is read.
  refine readingContents (fun _ _ agrees => agrees.resolveRaw _ _) fun data sound models sizes => ?_
  have refers := sound.resolveRaw_refers first.model directive.path
  have items := itemsOf_refers sound refers
  simp only [Data.Refers, models, sizes] at refers items
  apply newBound.bind
  rintro later early id _ rfl
  have grow := (le early : abreast.links stage ≤ _)
  refine (filling (bodies.mono early) (views.mono early) (scopes.mono grow) switch id directive
    (refers.mono grow.models grow.collections) fun item member =>
      (items item member).mono grow.models grow.collections).bind ?_
  rintro last late ⟨ledger, growth⟩ ⟨marks, twin⟩ ⟨marked, same⟩
  exact .pure (same.within id ⟨rfl, .none, marked, scopes.mono (le (early.trans late))⟩)

theorem directive (bodies : Bodies abreast stage body also)
    (views : Views abreast stage view twin)
    (scopes : first.Matches (abreast.links stage) second) (directive : Directive) :
    abreast.Twins stage (one.directive view body directive first)
      (other.directive twin also directive second) Growth.Matches := by
  apply newNode.bind
  intro later early node twin linked
  apply newBound.bind
  rintro middle late id _ rfl
  have through := early.trans late
  refine (follow id 0 directive.path (scopes.mono (le through))).bind ?_
  rintro after onward ⟨mark, watches⟩ ⟨partner, others⟩ ⟨marked, watched⟩
  rw [← scopes.model]
  have question : abreast.Twins after
      (Build.ask fun data =>
        decision data.contents directive.rule (data.resolveRaw first.model directive.path))
      (Build.ask fun data =>
        decision data.contents directive.rule (data.resolveRaw first.model directive.path))
      fun _ shown also => shown = also ∧ True :=
    ask (fun _ _ agrees => by rw [agrees.contents, agrees.resolveRaw]) fun _ _ _ _ => trivial
  apply question.bind
  rintro last final shown _ ⟨rfl, _⟩
  have reach := through.trans (onward.trans final)
  refine (content (bodies.mono reach) (views.mono reach) (scopes.mono (le reach)) id
    directive).bind ?_
  intro outer ultimate growth twins same
  have grow := (le (final.trans ultimate) : abreast.links after ≤ _)
  have linked := (le (late.trans (onward.trans (final.trans ultimate)))).nodes _ _ linked
  rw [← abreast.config]
  refine .pure ⟨?_, ?_, same.failure⟩
  · exact .keep linked (.of_kind _ _) .nil same.page
  · refine .keep rfl ⟨rfl, .some linked, .cons (grow.marks _ _ marked) .nil, ?_⟩
      ((watched.mono grow).append same.bound) .nil
    exact scopes.mono (le (reach.trans ultimate))

end Bodies

/-! ## Nodes and views -/

section Nodes

variable {view twin : Scope → ModelId → String → Build Client Growth}

mutual

theorem node {stage : Stage} (views : Views abreast stage view twin) : ∀ (source : Node)
    {first second : Scope}, first.Matches (abreast.links stage) second →
      abreast.Twins stage (one.node view source first) (other.node twin source second)
        Growth.Matches
  | .element tag entries children _, first, second, scopes => by
      rw [Site.node, Site.node]
      apply newNode.bind
      intro later early node also linked
      apply newBound.bind
      rintro middle late id _ rfl
      have through := early.trans late
      refine (attributes id entries (scopes.mono (le through)) 0 (.of_kind _ (.element tag))).bind ?_
      rintro after onward ⟨data, ledger, watches⟩ ⟨dressed, marks, others⟩ ⟨alike, marked, watched⟩
      have reach := through.trans onward
      refine (nodes (views.mono reach) children (scopes.mono (le reach))).bind ?_
      intro last final growth twins same
      have grow := (le final : abreast.links after ≤ _)
      have linked := (le (late.trans (onward.trans final))).nodes _ _ linked
      refine .pure ⟨.keep linked (alike.mono grow) same.page .nil, ?_, same.failure⟩
      refine .keep rfl ⟨rfl, .some linked, marked.imp grow.marks, ?_⟩
        ((watched.mono grow).append same.bound) .nil
      exact scopes.mono (le (reach.trans final))
  | .text content, first, second, scopes => by
      rw [Site.node, Site.node]
      exact text content scopes
  | .directive rule path body, first, second, scopes => by
      rw [Site.node, Site.node]
      refine directive (fun later early first second scopes => ?_) views scopes ⟨rule, path, body⟩
      exact nodes (views.mono early) body scopes
  | .view name, first, second, scopes => by
      rw [Site.node, Site.node, ← scopes.model]
      exact views stage le_rfl first second scopes first.model scopes.inside name

theorem nodes {stage : Stage} (views : Views abreast stage view twin) : ∀ (sources : List Node)
    {first second : Scope}, first.Matches (abreast.links stage) second →
      abreast.Twins stage (one.nodes view sources first) (other.nodes twin sources second)
        Growth.Matches
  | [], first, second, _ => by
      rw [Site.nodes, Site.nodes]
      exact .pure .empty
  | source :: rest, first, second, scopes => by
      rw [Site.nodes, Site.nodes]
      refine (node views source scopes).bind ?_
      intro later early growth also same
      rw [← same.failure]
      split
      · exact .pure same
      · refine (nodes (views.mono early) rest (scopes.mono (le early))).bind ?_
        intro last late more others beside
        exact .pure ((same.mono (le late)).beside beside)

end

/-- A view is shown by a controller, which may be told of it afterwards. -/
theorem shownBy (views : Views abreast stage view twin) (name : String) (template : Template)
    {model : ModelId} (inside : model.index < (abreast.links stage).models) (depth : Nat)
    {controller partner : ControllerId}
    (linked : (abreast.links stage).controllers controller partner)
    {tell also : Growth → Build Client Unit}
    (tells : ∀ later, stage ≤ later → ∀ growth twin, growth.Matches (abreast.links later) twin →
      abreast.Twins later (tell growth) (also twin) fun _ _ _ => True) :
    abreast.Twins stage
      (do
        let id ← Build.newBound
        let growth ← one.node view template.root ⟨model, controller, depth⟩
        tell growth
        return growth.within id { part := .view name, scope := ⟨model, controller, depth⟩ })
      (do
        let id ← Build.newBound
        let growth ← other.node twin template.root ⟨model, partner, depth⟩
        also growth
        return growth.within id { part := .view name, scope := ⟨model, partner, depth⟩ })
      Growth.Matches := by
  have scopes : Scope.Matches (abreast.links stage) ⟨model, controller, depth⟩
      ⟨model, partner, depth⟩ := ⟨rfl, linked, rfl, inside⟩
  apply newBound.bind
  rintro later early id _ rfl
  refine (node (views.mono early) template.root (scopes.mono (le early))).bind ?_
  intro middle late growth twins same
  refine (tells middle (early.trans late) growth twins same).bind ?_
  intro last final _ _ _
  exact .pure ((same.mono (le final)).within id
    ⟨rfl, .none, .nil, scopes.mono (le (early.trans (late.trans final)))⟩)

theorem untold (controller partner upper above : ControllerId) (model : ModelId) : ∀ later,
    stage ≤ later → ∀ growth twin, growth.Matches (abreast.links later) twin →
      abreast.Twins later (introduce false controller model upper growth)
        (introduce false partner model above twin) fun _ _ _ => True :=
  fun _ _ _ _ _ => .pure trivial

end Nodes

theorem view (room : Nat) : Views abreast stage (one.view room) (other.view room) := by
  induction room generalizing stage with
  | zero =>
      intro later early first second scopes model inside name
      rw [Site.view, Site.view, ← abreast.config]
      exact .pure (.failed _)
  | succ room induction =>
      intro later early first second scopes model inside name
      rw [Site.view, Site.view, ← abreast.registry]
      split
      · exact .pure (.failed _)
      · rename_i template _
        unfold viewController
        rw [← abreast.registry, ← abreast.config, ← scopes.depth]
        split
        · rename_i factory _
          -- The fresh controller is told what its view is once that has been built.
          intro before after states
          obtain ⟨middle, late, linked, states, tells⟩ :=
            abreast.call states scopes.controller factory
          have told : ∀ last, middle ≤ last → ∀ growth twin,
              growth.Matches (abreast.links last) twin → abreast.Twins last
                (introduce true (one.given factory before) model first.controller growth)
                (introduce true (other.given factory after) model second.controller twin)
                fun _ _ _ => True := by
            intro last final growth twin same early late states
            have roots := same.page.roots_forall₂
            unfold introduce
            rw [← same.failure]
            revert roots
            generalize growth.page.roots = here, twin.page.roots = there
            rintro (_ | root)
            · cases growth.failure <;> exact ⟨last, le_rfl, states, trivial⟩
            · cases growth.failure with
              | some error => exact ⟨last, le_rfl, states, trivial⟩
              | none => exact ⟨last, le_rfl, tells final states model root, trivial⟩
          obtain ⟨last, final, run⟩ := shownBy induction name template
            (Nat.lt_of_lt_of_le inside (le late).models) (first.depth + 1) linked told _ _ states
          exact ⟨last, late.trans final, run⟩
        · split
          · exact shownBy induction name template inside (first.depth + 1) scopes.controller
              (untold first.controller second.controller first.controller second.controller model)
          · intro before after states
            obtain ⟨middle, late, linked, states⟩ := abreast.create states
            obtain ⟨last, final, run⟩ := shownBy induction name template
              (Nat.lt_of_lt_of_le inside (le late).models) (first.depth + 1) linked
              (untold first.controller second.controller first.controller second.controller model) _ _ states
            exact ⟨last, late.trans final, run⟩

theorem viewIn : Views abreast stage one.viewIn other.viewIn := by
  intro later early first second scopes model inside name
  unfold Site.viewIn
  rw [← abreast.config, ← scopes.depth]
  exact view _ later le_rfl first second scopes model inside name

theorem body (source : List Node) : Bodies abreast stage (one.body source) (other.body source) :=
  fun _ _ _ _ scopes => nodes viewIn source scopes

end Twins

end Site.Abreast

end LiveTemplate
