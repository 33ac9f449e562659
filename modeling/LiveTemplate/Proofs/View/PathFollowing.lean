import LiveTemplate.Proofs.Upkeep.Exact
import LiveTemplate.Proofs.View.LeakFreedom
import Mathlib.Data.List.Flatten

/-!
# Paths are followed as they are at the moment

As long as calls are made in turn, a path is followed by one registration on each channel along it, and
by none elsewhere, whatever client code does in the middle of an announcement.  If a property is set
again before a render has been told of its value, the render follows the path from the older value.
-/

namespace LiveTemplate

open Template (Path)
open BoundForest (ledger watching watchers)

/-- Whatever has the same key on the other side is the same. -/
theorem eq_of_forall₂ {First Second Key : Type} {related : First → Second → Prop} {key : Second → Key}
    {firsts : List First} {seconds : List Second} (all : List.Forall₂ related firsts seconds)
    (single : (seconds.map key).Nodup) {one two : First} (here : one ∈ firsts) (there : two ∈ firsts)
    (same : ∀ second other, related one second → related two other → key second = key other) :
    one = two := by
  induction all with
  | nil => cases here
  | @cons first second firsts seconds relates rest induction =>
      obtain ⟨apart, single⟩ := List.nodup_cons.1 single
      rcases List.mem_cons.1 here with rfl | later <;> rcases List.mem_cons.1 there with rfl | after
      · rfl
      · obtain ⟨other, listed, also⟩ := exists_of_mem_forall₂ rest after
        exact (apart (same _ _ relates also ▸ List.mem_map_of_mem listed)).elim
      · obtain ⟨other, listed, also⟩ := exists_of_mem_forall₂ rest later
        exact (apart (same _ _ also relates ▸ List.mem_map_of_mem listed)).elim
      · exact induction single later after

section Fits

variable {frame : Frame} {standing : Standing} {root name goal : BoundId} {way : Nat → List String}
  {task : Task} {tasks full : List Task} {node : BoundNode Part} {forest below : Bindings}
  {subscription other : Subscription} {slot : Nat} {path : Path} {rest : List String}

/-- Where no path is ahead, none is watched. -/
theorem Fits.watching_eq_nil (fits : Fits frame standing root way tasks forest)
    (ahead : way slot = []) : watching forest slot = .nil := by
  have none : watchers forest slot = (none : Option (BoundId × BoundNode Part)).toList :=
    fits.watchers_eq_nil ahead
  rcases watching_eq none with ⟨_, nothing⟩ | ⟨_, _, _, found, _⟩
  · exact nothing
  · cases found

/-- Whoever is there for a path is held by the bound node whose path it is, or watches it below. -/
theorem Fits.located (fits : Fits frame standing root way tasks forest) (single : standing.Single)
    (member : (name, node) ∈ forest.entries) (own : subscription ∈ node.ledger)
    (holds : standing.holds subscription (.value (.path ⟨frame.render, name, goal, slot, rest⟩))) :
    goal = root ∧ (name, node) ∈ (watching forest slot).entries ∨
      ∃ mark below, Forest.Has forest goal mark below ∧
        (name = goal ∨ (name, node) ∈ (watching below slot).entries) := by
  induction fits with
  | nil => cases member
  | @watch root first way tasks position segment later told scope below beside ahead linked within _
      inside others =>
      simp only [Forest.entries, List.mem_cons, List.mem_append] at member
      rcases member with here | deeper | beyond
      · obtain ⟨rfl, rfl⟩ := Prod.mk.inj here
        obtain rfl := List.mem_singleton.1 own
        have same := single _ _ _ holds linked.holds
        simp only [Observer.value.injEq, ValueObserver.path.injEq, PathObserver.mk.injEq,
          true_and] at same
        obtain ⟨rfl, rfl, rfl⟩ := same
        exact .inl ⟨rfl, by simp [watching, Forest.keep, Part.watches, Forest.entries]⟩
      · rcases inside deeper with ⟨rfl, watched⟩ | ⟨mark, under, has, found⟩
        · have same : slot = position := by
            by_contra apart
            rw [within.watching_eq_nil (if_neg apart)] at watched
            cases watched
          subst same
          exact .inl ⟨rfl, by simp [watching, Forest.keep, Part.watches, Forest.entries, deeper]⟩
        · exact .inr ⟨mark, under, .inr (.inl has), found⟩
      · rcases others beyond with ⟨rfl, watched⟩ | ⟨mark, under, has, found⟩
        · refine .inl ⟨rfl, ?_⟩
          rw [watching, Forest.keep]
          split
          · simp only [Forest.entries, List.mem_cons, List.mem_append]
            exact .inr (.inr watched)
          · exact watched
        · exact .inr ⟨mark, under, .inr (.inr has), found⟩
  | @cons root first way task tasks full inner mark below beside proper here covers _ _ inside others =>
      simp only [Forest.entries, List.mem_cons, List.mem_append] at member
      rcases member with now | deeper | beyond
      · obtain ⟨rfl, rfl⟩ := Prod.mk.inj now
        obtain ⟨rfl, _⟩ := here.path_of_holds single own holds
        exact .inr ⟨_, _, .inl ⟨rfl, rfl, rfl⟩, .inl rfl⟩
      · rcases inside deeper with ⟨rfl, watched⟩ | ⟨mark, under, has, found⟩
        · exact .inr ⟨_, _, .inl ⟨rfl, rfl, rfl⟩, .inr watched⟩
        · exact .inr ⟨mark, under, .inr (.inl has), found⟩
      · rcases others beyond with ⟨rfl, watched⟩ | ⟨mark, under, has, found⟩
        · refine .inl ⟨rfl, ?_⟩
          rw [watching, Forest.keep, if_neg (by simp [here.watches_eq_false])]
          exact watched
        · exact .inr ⟨mark, under, .inr (.inr has), found⟩

/-- The paths of a bound node are followed by what it holds, one registration for each. -/
theorem Local.follows (here : Local frame standing root name task node below full)
    (follows : node.part.path? slot = some path) :
    Follows frame standing name node.scope.model node.part node.ledger below := by
  cases here with
  | element _ _ _ all => exact all
  | text _ _ _ all => exact all
  | switch _ _ _ all => exact all
  | view | content | item | list | unfinished => cases follows

end Fits

theorem BoundForest.ledger_watching_sublist (bound : Bindings) (slot : Nat) :
    (ledger (watching bound slot)).Sublist (ledger bound) :=
  List.Sublist.flatMap (Forest.keep_entries_sublist bound _) _

/-- A bound node, with what is below it, holds each registration once. -/
theorem BoundForest.ledger_nodup_of_has {forest below : Bindings} {name : BoundId}
    {node : BoundNode Part} (single : (ledger forest).Nodup) (distinct : forest.names.Nodup)
    (has : Forest.Has forest name node below) : (node.ledger ++ ledger below).Nodup := by
  rw [← map_fst_account] at single
  have parts := ((account_prune_perm distinct has).map Prod.fst).nodup_iff.1 single
  rw [List.map_append, List.nodup_append', map_fst_account] at parts
  simpa [ledger, Forest.entries] using parts.1

namespace World

variable {Client : Type} {world shown after : World Client} {frame : Frame} {task : Task}
  {render : Render} {former : CollectionId → List Value} {name : BoundId} {node : BoundNode Part}
  {slot : Nat} {path : Path} {id : RenderId}

/-- A path of a bound node is followed by one registration on each channel along it. -/
structure Traced (world : World Client) (id : RenderId) (name : BoundId) (slot : Nat) (model : ModelId)
    (path : Path) (held : List Subscription) : Prop where
  once : held.Nodup
  /-- They lie on the channels along the path, in their order. -/
  channels : held.map (·.source) = .model model (changeChannel path.head) ::
    world.data.trail (world.data.get model path.head) path.tail
  /-- They are in force, and there are no others for the path. -/
  complete : ∀ subscription, subscription ∈ held ↔ ∃ owner rest,
    world.data.Holds subscription (.value (.path ⟨id, owner, name, slot, rest⟩))

theorem Upholds.traced (upholds : after.Upholds frame task render former [] [])
    (member : (name, node) ∈ render.tree.nodes.entries) (follows : node.part.path? slot = some path) :
    ∃ held, after.Traced frame.render name slot node.scope.model path held := by
  obtain ⟨_, _, mine⟩ := upholds.sound.renders _ render upholds.known
  have single : (after.standing render.document frame.render former [] []).Single :=
    standing_single upholds.sound
  have settled := settled_standing after render.document frame.render former
  have once := (upholds.sound.accounts upholds.known).once
  obtain ⟨below, has⟩ := Forest.has_iff_mem_entries.2 member
  obtain ⟨root, way, tasks, fits⟩ := upholds.fits.at has
  cases fits with
  | watch => cases follows
  | cons _ here _ inside _ =>
      have all := here.follows follows
      obtain ⟨subscription, own, linked⟩ :=
        exists_of_mem_forall₂ (List.Forall₂.flip all) (Part.mem_followed.2 follows)
      obtain ⟨found, there, reads⟩ := linked.next
      have calm : (after.standing render.document frame.render former [] []).Calm frame.render name
          slot := fun other _ _ _ => settled.late other
      have trail := inside.trail calm (Part.way_of_path? follows)
        ⟨found, there, reads.resolve_left fun late => settled.late _ late.2⟩
      have distinct := BoundForest.ledger_nodup_of_has once mine.distinct has
      have mark : ∀ other, other ∈ ledger (watching below slot) → ∃ owner mark,
          (owner, mark) ∈ (watching below slot).entries ∧ other ∈ mark.ledger := by
        intro other listed
        obtain ⟨⟨owner, mark⟩, entered, held⟩ := List.mem_flatMap.1 listed
        exact ⟨owner, mark, entered, held⟩
      refine ⟨subscription :: ledger (watching below slot), ?_, ?_, fun other => ⟨?_, ?_⟩⟩
      · obtain ⟨_, deep, apart⟩ := List.nodup_append'.1 distinct
        have less := BoundForest.ledger_watching_sublist below slot
        exact List.nodup_cons.2 ⟨fun listed => apart own (less.subset listed), deep.sublist less⟩
      · rw [List.map_cons, linked.source]
        exact congrArg _ trail
      · intro listed
        rcases List.mem_cons.1 listed with rfl | deeper
        · exact ⟨_, _, linked.holds⟩
        · obtain ⟨owner, mark, entered, held⟩ := mark other deeper
          obtain ⟨rest, holds⟩ := (inside.keep_slot slot).path_of_watch rfl
            (fun position other => if_neg other) entered held
          exact ⟨owner, rest, holds⟩
      · rintro ⟨owner, rest, holds⟩
        obtain ⟨mark, entered, held⟩ :
            ∃ mark, (owner, mark) ∈ render.tree.nodes.entries ∧ other ∈ mark.ledger :=
          upholds.sound.owned upholds.known holds rfl
        rcases upholds.fits.located single entered held holds with ⟨_, watched⟩ | ⟨_, _, found, watched⟩
        · rw [upholds.fits.watching_eq_nil rfl] at watched
          cases watched
        · obtain ⟨rfl, rfl⟩ := found.unique mine.distinct has
          rcases watched with rfl | deeper
          · obtain ⟨_, again⟩ := Forest.has_iff_mem_entries.2 entered
            obtain ⟨rfl, _⟩ := again.unique mine.distinct has
            refine List.mem_cons.2 (.inl (eq_of_forall₂ all (Part.slots_nodup _) held own ?_))
            intro entry also first second
            have here := single _ _ _ first.holds holds
            have there := single _ _ _ second.holds linked.holds
            simp only [Observer.value.injEq, ValueObserver.path.injEq, PathObserver.mk.injEq]
              at here there
            exact here.2.2.2.1.trans there.2.2.2.1.symm
          · exact List.mem_cons_of_mem _ (List.mem_flatMap.2 ⟨_, deeper, held⟩)

/-- Whatever is set in turn, a path of a live bound node is followed as it is at the moment: by one
registration on each channel along it, and by none elsewhere.  Building may fail in the meantime, unless
a collection gets several items at once. -/
theorem Conduct.paths_followed {client : Client} (conduct : Conduct { client } world)
    {behaviour : Behaviour Client} {place : DocumentId} {registry : RegistryId} {config : RenderConfig}
    {template : Template} {model : ModelId} {controller : ControllerId}
    (there : place.index < world.documents.next) (inside : model.index < world.data.models.next)
    (mounted : world.mount behaviour place registry config template model controller = (.ok id, shown))
    (run : Run (contained id) [] shown after) (live : after.bound? id name = some node)
    (follows : node.part.path? slot = some path) :
    ∃ held, after.Traced id name slot node.scope.model path held := by
  obtain ⟨render, known, _⟩ := Option.bind_eq_some_iff.1 live
  obtain ⟨frame, own, _, _, upholds⟩ := conduct.upholds there inside mounted False.elim True
    (contained_orderly id) run (.inr ⟨trivial, contained_contains id⟩) known
  obtain rfl := own.render
  exact upholds.traced ((bound?_iff upholds.sound known).1 live) follows

/-! ## A path that is lost

The text shows what the end of a path says.  When the path is led to one model, client code that was
registered earlier leads it to another at once.  The text is told of the second model first and of the
first one last. -/

/-- A text shows where `a` leads to. -/
def signpost : Template :=
  ⟨"p", [], [.text (.bound ⟨"a", ["x"]⟩)], 1⟩

/-- Two models to which the third may lead, and client code that is told where it does. -/
def forked : World Unit :=
  let (_, data) := ({} : Data).addModel (.ofSchema [⟨"x", .text "one", none⟩])
  let (_, data) := data.addModel (.ofSchema [⟨"x", .text "two", none⟩])
  let (_, data) := data.addModel (.ofSchema [⟨"a", .null, none⟩])
  { data := (data.subscribe ⟨2⟩ "change:a" (.client ⟨0⟩)).2
    documents := ({} : Store Document).add {}
    client := () }

/-- Client code that leads to the second model. -/
def diverting : Behaviour Unit :=
  { still Unit with
    value := fun _ _ world =>
      if 1 < world.data.models.next then world.setOr (still Unit) ⟨2⟩ "a" (.model ⟨1⟩) else world }

def pointed : World Unit :=
  (forked.mount (still Unit) ⟨0⟩ ⟨0⟩ {} signpost ⟨2⟩ ⟨0⟩).2

theorem conduct_forked : Conduct { client := () } forked :=
  .next (@Call.addModel _ _ [⟨"x", .text "one", none⟩] (List.forall_mem_singleton.2 (.text "one")))
    (.next (@Call.addModel _ _ [⟨"x", .text "two", none⟩] (List.forall_mem_singleton.2 (.text "two")))
      (.next (@Call.addModel _ _ [⟨"a", .null, none⟩] (List.forall_mem_singleton.2 .null))
        (.next (.subscribe "change:a" ⟨0⟩ (Nat.lt_succ_self 2))
          (.next (.addDocument _) (.done _)))))

theorem mount_forked :
    forked.mount (still Unit) ⟨0⟩ ⟨0⟩ {} signpost ⟨2⟩ ⟨0⟩ = (.ok ⟨0⟩, pointed) := by
  refine Prod.ext ?_ rfl
  rw [mount, Registry.missingView?_of_nil rfl]
  decide +kernel

theorem paths_followed_signpost : ∃ node,
    (pointed.setOr (still Unit) ⟨2⟩ "a" (.model ⟨0⟩)).bound? ⟨0⟩ ⟨2⟩ = some node ∧
      ∃ held, (pointed.setOr (still Unit) ⟨2⟩ "a" (.model ⟨0⟩)).Traced ⟨0⟩ ⟨2⟩ 0 node.scope.model
        ⟨"a", ["x"]⟩ held := by
  obtain ⟨within, shows⟩ : 0 < pointed.data.models.next ∧
      ((pointed.setOr (still Unit) ⟨2⟩ "a" (.model ⟨0⟩)).bound? ⟨0⟩ ⟨2⟩).map (·.part.path? 0) =
        some (some ⟨"a", ["x"]⟩) := by
    rw [setOr, pointed, mount, Registry.missingView?_of_nil rfl]
    decide +kernel
  obtain ⟨node, live, follows⟩ := Option.map_eq_some_iff.1 shows
  exact ⟨node, live, conduct_forked.paths_followed (Nat.lt_succ_self 0) (Nat.lt_succ_self 2)
    mount_forked ((still_abides _).set (.model within) contained_value) live follows⟩

theorem diverting_abides : Abides (fun _ _ _ _ => True) diverting where
  value := by
    intro pending hook told world
    show Run _ _ _ (if _ then _ else _)
    split
    · rename_i within
      exact (still_abides _).set (.model within) trivial
    · exact .done pending world
  change := fun pending _ _ world => .done pending world

/-- Where client code leads the path elsewhere in the middle of an announcement, no registrations follow
it as it is. -/
theorem paths_lost : Conduct { client := () } forked ∧
    forked.mount (still Unit) ⟨0⟩ ⟨0⟩ {} signpost ⟨2⟩ ⟨0⟩ = (.ok ⟨0⟩, pointed) ∧
    Run (fun _ _ _ _ => True) [] pointed (pointed.setOr diverting ⟨2⟩ "a" (.model ⟨0⟩)) ∧
    ∃ node, (pointed.setOr diverting ⟨2⟩ "a" (.model ⟨0⟩)).bound? ⟨0⟩ ⟨2⟩ = some node ∧
      node.part.path? 0 = some ⟨"a", ["x"]⟩ ∧
      ¬ ∃ held, (pointed.setOr diverting ⟨2⟩ "a" (.model ⟨0⟩)).Traced ⟨0⟩ ⟨2⟩ 0 node.scope.model
        ⟨"a", ["x"]⟩ held := by
  obtain ⟨within, shows, leads, nobody⟩ : 0 < pointed.data.models.next ∧
      ((pointed.setOr diverting ⟨2⟩ "a" (.model ⟨0⟩)).bound? ⟨0⟩ ⟨2⟩).map
          (fun node => (node.part.path? 0, node.scope.model)) =
        some (some ⟨"a", ["x"]⟩, ⟨2⟩) ∧
      (pointed.setOr diverting ⟨2⟩ "a" (.model ⟨0⟩)).data.trail
          ((pointed.setOr diverting ⟨2⟩ "a" (.model ⟨0⟩)).data.get ⟨2⟩ "a") ["x"] =
        [.model ⟨1⟩ "change:x"] ∧
      (pointed.setOr diverting ⟨2⟩ "a" (.model ⟨0⟩)).data.observers (.model ⟨1⟩ "change:x") = [] := by
    rw [setOr, pointed, mount, Registry.missingView?_of_nil rfl]
    decide +kernel
  obtain ⟨node, live, reads⟩ := Option.map_eq_some_iff.1 shows
  obtain ⟨follows, scope⟩ := Prod.mk.inj reads
  refine ⟨conduct_forked, mount_forked, diverting_abides.set (.model within) trivial, node, live,
    follows, ?_⟩
  rintro ⟨held, traced⟩
  have channels := traced.channels
  rw [scope, leads] at channels
  obtain ⟨subscription, listed, source⟩ : ∃ subscription ∈ held,
      subscription.source = .model ⟨1⟩ "change:x" := by
    apply List.mem_map.1
    rw [channels]
    simp
  obtain ⟨owner, rest, holds⟩ := (traced.complete subscription).1 listed
  rw [Data.Holds, source, nobody] at holds
  cases holds

end World

end LiveTemplate
