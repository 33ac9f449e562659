import LiveTemplate.Proofs.Apart.Deeds
import Mathlib

/-!
# Renders do not interfere

Renders may share models, collections, views and the document, and each of them is told of changes while
the others are.  Still none of them sees another.  If the creation and the teardown of a render are left
out of a run, then everything else in the run comes to the same: what the client is told, and in which
order, what models and collections hold, and what the other renders show and keep registered.
-/

namespace LiveTemplate

variable {hidden own : String → Bool} {ties : Ties} {supply : Hook → List Entry → List (String × Hook)}
  {behaviour also : Behaviour Journal}

/-! ## Programs -/

/-- After a deed in both worlds, things stand the same. -/
theorem World.Matches.record {first second : World Journal}
    (all : World.Matches hidden own ties first second) {deed : Deed}
    (common : deed.concerns hidden = false) :
    World.Matches hidden own ties (first.record deed) (second.record deed) := by
  refine all.withClient { all.client with course := ?_ }
  rw [List.filter_append, List.filter_cons, if_pos (by rw [common]; rfl)]
  exact List.rel_append all.client.course
    (.cons ⟨rfl, all.client.log, fun _ spares => all.answer_eq spares⟩ .nil)

theorem World.Matches.record_first {first second : World Journal}
    (all : World.Matches hidden own ties first second) {deed : Deed}
    (concerns : deed.concerns hidden = true) :
    World.Matches hidden own ties (first.record deed) second := by
  refine all.withClient_first { all.client with course := ?_ }
  rw [List.filter_append, List.filter_cons, if_neg (by rw [concerns]; exact Bool.false_ne_true),
    List.filter_nil, List.append_nil]
  exact all.client.course

/-- A program comes to the same without the creation and the teardown of hidden renders. -/
theorem World.Matches.perform (fellows : behaviour.Fellows hidden own supply also)
    (program : Program) : ∀ {ties : Ties} {first second : World Journal},
      World.Matches hidden own ties first second → program.Spares hidden own →
        World.Meet hidden own ties (first.perform behaviour program)
          (second.perform also (program.without hidden)) := by
  induction program with
  | done => exact fun all _ => .of all
  | act deed later induction =>
      intro ties first second all spares
      rw [World.perform, Program.without]
      split
      · rename_i concerns
        obtain ⟨last, grow, after⟩ := all.enact_first fellows.supplies spares.1 concerns
        exact (induction (after.record_first concerns) spares.2).le grow
      · rename_i common
        rw [Bool.not_eq_true] at common
        obtain ⟨last, grow, after⟩ := all.enact fellows spares.1 common
        rw [World.perform]
        exact (induction (after.record common) spares.2).le grow
  | ask question later induction =>
      intro ties first second all spares
      rw [World.perform, Program.without, World.perform, all.answer_eq spares.1]
      exact induction _ all (spares.2 _)

/-! ## Callbacks -/

section Script

variable {script : Script}

theorem Script.idle_fellows (script : Script) (hidden own : String → Bool) :
    script.idle.Fellows hidden own script.supply (script.without hidden).idle where
  supplies _ _ _ _ := rfl
  too _ _ _ _ := rfl
  keeps all := by
    refine List.rel_map (fun _ _ named => ?_) all.client.controllers
    exact named.2.engages
  value all _ _ := .of all
  change all _ _ := .of all
  listen {ties _ _} all _ _ alike _ := ⟨ties, le_rfl, alike, all⟩
  act {ties _ _} all _ _ alike _ _ := ⟨ties, le_rfl, alike, all⟩

/-- The client is told the same in both worlds, and does the same. -/
theorem Script.respondTo_meet (spares : script.Spares hidden own)
    (fellows : behaviour.Fellows hidden own supply also) {first second : World Journal}
    (all : World.Matches hidden own ties first second) (hook : Hook) (entry : Entry) :
    World.Meet hidden own ties (script.respondTo behaviour hook entry first)
      ((script.without hidden).respondTo also hook entry second) := by
  have noted := all.withClient (all.client.note entry)
  have same : (first.note entry).client.log = (second.note entry).client.log := noted.client.log
  rw [Script.respondTo, Script.respondTo]
  dsimp only [Script.without]
  rw [← same]
  exact noted.perform fellows _ (spares hook _)

theorem Script.respondToEvent_meet (spares : script.Spares hidden own)
    (fellows : behaviour.Fellows hidden own supply also) {first second : World Journal}
    (all : World.Matches hidden own ties first second) (hook : Hook) (entry : Entry)
    {event other : Event} (alike : event.Matches ties other) :
    World.MeetWith hidden own Event.Matches ties
      (script.respondToEvent behaviour hook entry event first)
      ((script.without hidden).respondToEvent also hook entry other second) := by
  have met : World.Matches hidden own ties (first.meet event) (second.meet other) :=
    all.withClient ((all.client.keepNode "target" alike.target).keepNode "current" alike.current)
  obtain ⟨later, grow, after⟩ := Script.respondTo_meet spares fellows met hook entry
  have judged : ∀ prevents stops : Bool,
      (if stops then (if prevents then event.prevent else event).stop
        else if prevents then event.prevent else event).Matches later
      (if stops then (if prevents then other.prevent else other).stop
        else if prevents then other.prevent else other) := by
    have alike := alike.mono grow
    rintro (_ | _) (_ | _)
    · exact alike
    · exact alike.stop
    · exact alike.prevent
    · exact alike.prevent.stop
  refine ⟨later, grow, ?_, after⟩
  have log := after.client.log
  rw [Script.respondToEvent, Script.respondToEvent]
  dsimp only
  rw [← log]
  exact judged _ _

/-- However deep callbacks are nested, the client does the same in both worlds. -/
theorem Script.play_fellows (spares : script.Spares hidden own) (depth : Nat) :
    (script.play depth).Fellows hidden own script.supply ((script.without hidden).play depth) := by
  induction depth with
  | zero => exact script.idle_fellows hidden own
  | succ depth fellows =>
      have idle := script.idle_fellows hidden own
      constructor
      · exact idle.supplies
      · exact idle.too
      · exact idle.keeps
      · exact fun all hook value => Script.respondTo_meet spares fellows all hook _
      · exact fun all hook change => Script.respondTo_meet spares fellows all hook _
      · intro ties first second all event other alike hook
        have entry : Entry.heard hook event.name event.detail event.prevented =
            .heard hook other.name other.detail other.prevented := by
          rw [alike.name, alike.detail, alike.prevented]
        rw [Script.play, Script.play]
        dsimp only
        rw [entry]
        exact Script.respondToEvent_meet spares fellows all hook _ alike
      · intro ties first second all event other alike hook model
        have entry : Entry.acted hook event.name event.detail event.prevented model =
            .acted hook other.name other.detail other.prevented model := by
          rw [alike.name, alike.detail, alike.prevented]
        rw [Script.play, Script.play]
        dsimp only
        rw [entry]
        exact Script.respondToEvent_meet spares fellows all hook _ alike

end Script

/-! ## Whole runs -/

/-- Nothing is tied. -/
def Ties.none : Ties where
  nodes := ⟨fun _ _ => False, fun _ => False, nofun, nofun, nofun⟩
  marks := ⟨fun _ _ => False, fun _ => False, nofun, nofun, nofun⟩
  renders := ⟨fun _ _ => False, fun _ => False, nofun, nofun, nofun⟩
  controllers := ⟨fun _ _ => False, fun _ => False, nofun, nofun, nofun⟩
  roots := ⟨fun _ _ => False, fun _ => False, nofun, nofun, nofun⟩
  models := 0
  collections := 0
  concealed := nofun
  unlike := nofun

namespace World

/-- There is one document, which is empty, and nothing else. -/
def opening : World Journal where
  documents := ({} : Store Document).add {}
  client := {}

theorem matches_opening (hidden own : String → Bool) :
    World.Matches hidden own .none opening opening where
  data := {
    agrees := .refl _
    sound := (sound_empty ({} : Journal)).data
    models := rfl
    collections := rfl
    registrations := by
      intro source
      cases source with
      | model id channel => exact .nil
      | collection id => exact .nil
    among := ⟨nofun, nofun, nofun⟩
    sources := nofun }
  controllers := ⟨⟨nofun, nofun, nofun⟩, ⟨nofun, nofun, nofun⟩, nofun, nofun, nofun, nofun, nofun,
    nofun, nofun⟩
  documents := ⟨Nat.zero_lt_one, Nat.zero_lt_one, .nil, ⟨nofun, nofun, nofun⟩⟩
  renders := ⟨⟨nofun, nofun, nofun⟩, nofun, nofun, nofun, nofun⟩
  registries := rfl
  engaged := .nil
  client :=
    { log := rfl
      course := .nil
      registrations := .nil
      controllers := .nil
      nodes := .nil
      failures := fun _ _ => rfl
      shown := fun _ _ => .none
      unseen := nofun }

end World

/-- If the creation and the teardown of some renders are left out of a run, then the client is told the
same, and after each deed that remains, everything that it may ask is answered the same: what models
and collections hold, and what the other renders show and how much they keep registered. -/
theorem Script.play_without {script : Script} (spares : script.Spares hidden own) {program : Program}
    (alsoSpares : program.Spares hidden own) (depth : Nat) :
    let whole := World.opening.perform (script.play depth) program
    let rest := World.opening.perform ((script.without hidden).play depth) (program.without hidden)
    whole.client.log = rest.client.log ∧
      List.Forall₂ (Moment.Matches hidden)
        (whole.client.course.filter fun moment => !moment.deed.concerns hidden) rest.client.course ∧
      ∀ question, Question.Spares hidden question → whole.answer question = rest.answer question := by
  obtain ⟨ties, _, all⟩ := (World.matches_opening hidden own).perform
    (script.play_fellows spares depth) program alsoSpares
  exact ⟨all.client.log, all.client.course, fun _ spares => all.answer_eq spares⟩

/-- The client looks at the left render whenever it is told of a name, and once it gives another. -/
def echo : Script where
  respond _ log := .ask (.html (.root "left")) fun answer => .act (.note answer)
    (if log.length < 3 then .act (.set ⟨0⟩ "name" (.text "Grace")) .done else .done)
  verdict _ _ := (false, false)
  supply _ _ := []

/-- Two renders greet the same person, and the right one does not stay for long. -/
def visit : Program :=
  .act .addRegistry <| .act (.addModel [⟨"name", .text "Ada", none⟩]) <|
    .act (.addController "host" none) <| .act (.addController "guest" none) <|
    .act (.mount "left" ⟨0⟩ {} World.greeting ⟨0⟩ "host") <|
    .act (.mount "right" ⟨0⟩ {} World.greeting ⟨0⟩ "guest") <|
    .act (.subscribe "echo" ⟨0⟩ (changeChannel "name") ⟨0⟩) <|
    .act (.set ⟨0⟩ "name" (.text "Alan")) <| .act (.unmount "right") .done

theorem echo_spares : echo.Spares (· == "right") (· == "guest") := by
  intro hook log
  refine ⟨rfl, fun answer => ⟨trivial, ?_⟩⟩
  split
  · exact ⟨trivial, trivial⟩
  · trivial

theorem visit_spares : visit.Spares (· == "right") (· == "guest") :=
  ⟨trivial, trivial, trivial, trivial, rfl, rfl, trivial, trivial, trivial, trivial⟩

theorem Script.play_without_right :
    echo.Spares (· == "right") (· == "guest") ∧ visit.Spares (· == "right") (· == "guest") ∧
      (World.opening.perform (echo.play 2) visit).client.course.map
          (fun moment => moment.answer (.bounds "right")) =
        [.count 0, .count 0, .count 0, .count 0, .count 0, .count 5, .count 5, .count 5, .count 5,
          .count 5, .count 5, .count 0] ∧
      let whole := World.opening.perform (echo.play 2) visit
      let rest := World.opening.perform ((echo.without (· == "right")).play 2)
        (visit.without (· == "right"))
      whole.client.log = rest.client.log ∧
        List.Forall₂ (Moment.Matches (· == "right"))
          (whole.client.course.filter fun moment => !moment.deed.concerns (· == "right"))
          rest.client.course ∧
        ∀ question, Question.Spares (· == "right") question →
          whole.answer question = rest.answer question :=
  ⟨echo_spares, visit_spares, by cbv, Script.play_without echo_spares visit_spares 2⟩

end LiveTemplate
