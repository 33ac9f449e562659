import LiveTemplate.Proofs.Meaning.Building
import LiveTemplate.Proofs.Upkeep.Renewal

/-!
# What a path is followed by

The registrations by which a path is followed lie on the channels along it, one on each, as long as
none of them is late.  So whoever reads something else along the path hears of it.
-/

namespace LiveTemplate

open Template (Path)
open BoundForest (watchers sources)

namespace Data

variable {data other : Data}

/-- What a path leads to depends on the values along it only, and it ends on its trail. -/
theorem follow_congr {model : ModelId} {segments : List String}
    (same : ∀ holder segment, Source.model holder (changeChannel segment) ∈
      data.trail (.model model) segments → other.get holder segment = data.get holder segment) :
    other.follow model segments.dropLast = data.follow model segments.dropLast ∧
      ∀ holder, data.follow model segments.dropLast = some holder →
        ∀ last ∈ segments.getLast?,
          Source.model holder (changeChannel last) ∈ data.trail (.model model) segments := by
  induction segments generalizing model with
  | nil => simp [Data.follow]
  | cons segment later induction =>
      have first := same model segment (by simp [trail])
      cases later with
      | nil =>
          refine ⟨rfl, fun holder reached last member => ?_⟩
          obtain rfl := Option.some.inj reached
          obtain rfl := Option.some.inj member
          simp [trail]
      | cons next beyond =>
          rw [List.dropLast_cons_cons, List.getLast?_cons_cons, follow, follow, first]
          cases found : data.get model segment with
          | model holder =>
              have whole : data.trail (.model model) (segment :: next :: beyond) =
                  .model model (changeChannel segment) ::
                    data.trail (.model holder) (next :: beyond) := by
                rw [trail, found]
              rw [whole] at same ⊢
              obtain ⟨follows, ends⟩ := induction fun inner name member =>
                same inner name (List.mem_cons_of_mem _ member)
              exact ⟨follows, fun inner reached last member =>
                List.mem_cons_of_mem _ (ends inner reached last member)⟩
          | _ => exact ⟨rfl, fun _ nowhere => by cases nowhere⟩

/-- What a path shows depends on the values and the formatters along it only. -/
theorem resolve_congr {model : ModelId} {path : Path}
    (same : ∀ holder segment, Source.model holder (changeChannel segment) ∈
      .model model (changeChannel path.head) :: data.trail (data.get model path.head) path.tail →
        other.get holder segment = data.get holder segment ∧
          (other.model holder).formatters = (data.model holder).formatters) :
    other.resolveRaw model path = data.resolveRaw model path ∧
      ∀ contents, other.resolveIn contents model path = data.resolveIn contents model path := by
  have last : path.last ∈ path.segments.getLast? := by
    rw [Path.last, Path.segments, List.getLast?_cons, List.getLastD_eq_getLast?]
    rfl
  obtain ⟨follows, ends⟩ := @follow_congr data other model path.segments
    fun holder segment member => (same holder segment member).1
  unfold resolveRaw resolveIn
  rw [Path.init, follows]
  cases reached : data.follow model path.segments.dropLast with
  | none => exact ⟨rfl, fun _ => rfl⟩
  | some holder =>
      obtain ⟨value, formatters⟩ := same holder path.last (ends holder reached _ last)
      refine ⟨value, fun contents => ?_⟩
      have read : (other.model holder).get path.last = (data.model holder).get path.last := value
      simp only [Model.display, formatters, read]

end Data

/-- Keep what watches the path in one slot. -/
def BoundForest.watching (bound : Bindings) (slot : Nat) : Bindings :=
  Forest.keep bound fun node => node.part.watches slot

open BoundForest (watching)

/-- None of the registrations that a path is followed by is late. -/
def Standing.Calm (standing : Standing) (render : RenderId) (root : BoundId) (slot : Nat) : Prop :=
  ∀ subscription observer, standing.holds subscription observer →
    observer.target? = some (render, root, slot) → ¬ standing.late subscription

section Trail

variable {frame : Frame} {standing : Standing} {root name : BoundId} {way : Nat → List String}
  {task : Task} {tasks inner : List Task} {node : BoundNode Part} {forest below : Bindings}
  {slot : Nat}

/-- What watches one path fits by itself. -/
theorem Fits.keep_slot (fits : Fits frame standing root way tasks forest) (slot : Nat) :
    Fits frame standing root (fun position => if position = slot then way slot else []) []
      (watching forest slot) := by
  unfold BoundForest.watching
  induction fits with
  | nil => exact .nil
  | @watch _ _ _ _ position _ _ _ _ _ _ ahead linked inside _ _ others =>
      rw [Forest.keep]
      split
      · rename_i called
        have same : position = slot := beq_iff_eq.1 called
        subst same
        exact .watch ((if_pos rfl).trans ahead) linked inside others
      · exact others
  | cons _ here _ _ _ _ others =>
      rw [Forest.keep, if_neg (by simp [here.watches_eq_false])]
      exact others

theorem Fits.keep_slot_self (fits : Fits frame standing root way tasks forest)
    (nothing : tasks = []) (only : ∀ position, position ≠ slot → way position = []) :
    watching forest slot = forest := by
  unfold BoundForest.watching
  induction fits with
  | nil => rfl
  | @watch _ _ _ _ position _ _ _ _ _ _ ahead _ _ _ _ others =>
      have same : position = slot := by
        by_contra other
        rw [only position other] at ahead
        cases ahead
      subst same
      have called : (Part.watch position).watches position = true := beq_self_eq_true position
      rw [Forest.keep, if_pos called, others nothing only]
  | cons => cases nothing

/-- There is at most one tree that watches a path. -/
theorem watching_eq {found : Option (BoundId × BoundNode Part)}
    (there : watchers forest slot = found.toList) :
    (found = none ∧ watching forest slot = .nil) ∨ ∃ name node below, found = some (name, node) ∧
      watching forest slot = .cons name node below .nil := by
  have crown : (watching forest slot).crown = found.toList := (Forest.crown_keep forest _).trans there
  generalize watching forest slot = bound at crown ⊢
  cases bound with
  | nil =>
      cases found with
      | none => exact .inl ⟨rfl, rfl⟩
      | some => cases crown
  | cons name node below beside =>
      cases found with
      | none => cases crown
      | some entry =>
          obtain ⟨rfl, nothing⟩ := List.cons.inj crown
          cases beside with
          | nil => exact .inr ⟨_, _, below, rfl, rfl⟩
          | cons => cases nothing

/-- A path is watched along its trail. -/
theorem Fits.trail (calm : standing.Calm frame.render root slot)
    (fits : Fits frame standing root way tasks forest) {value : Value} {rest : List String}
    (ahead : way slot = rest)
    (next : ∃ found : Option (BoundId × BoundNode Part), watchers forest slot = found.toList ∧
      found.map (·.2.scope.model) = value.next? rest) :
    sources (watching forest slot) = standing.data.trail value rest := by
  induction rest generalizing way tasks forest value with
  | nil =>
      obtain ⟨found, there, reads⟩ := next
      obtain rfl : found = none := Option.map_eq_none_iff.1 reads
      rcases watching_eq there with ⟨_, nothing⟩ | ⟨_, _, _, other, _⟩
      · rw [nothing]
        rfl
      · cases other
  | cons segment later induction =>
      obtain ⟨found, there, reads⟩ := next
      have kept := fits.keep_slot slot
      rcases watching_eq there with ⟨rfl, nothing⟩ | ⟨kid, label, below, rfl, single⟩
      · rw [nothing]
        cases value with
        | model holder => cases reads
        | _ => rfl
      · rw [single] at kept ⊢
        have called : label.part.watches slot = true := by
          have member : (kid, label) ∈ watchers forest slot := by simp [there]
          exact (List.mem_filter.1 member).2
        cases value with
        | model holder =>
            cases kept with
            | @watch _ _ _ _ position _ _ subscription scope _ _ more linked inside _ =>
                have same : position = slot := beq_iff_eq.1 called
                subst same
                simp only [if_true, ahead] at more
                obtain ⟨rfl, rfl⟩ := List.cons.inj more
                obtain rfl : scope.model = holder := Option.some.inj reads
                obtain ⟨kids, beyond, read⟩ := linked.next
                have deeper := induction inside (if_pos rfl)
                  ⟨kids, beyond, read.resolve_left fun late => calm _ _ linked.holds rfl late.2⟩
                rw [inside.keep_slot_self rfl fun position other => if_neg other] at deeper
                simp [BoundForest.sources_cons, deeper, linked.source, Data.trail]
        | _ => cases reads

/-- Each channel along a path is observed for it. -/
theorem Linked.observed {subscription : Subscription} {model : ModelId} {path : Path}
    (linked : Linked frame standing root root slot subscription model path.head path.tail below)
    (calm : standing.Calm frame.render root slot) (fits : Fits frame standing root way tasks below)
    (ahead : way slot = path.tail) :
    ∀ source ∈ .model model (changeChannel path.head) ::
      standing.data.trail (standing.data.get model path.head) path.tail,
        ∃ subscription observer, subscription.source = source ∧
          standing.holds subscription observer ∧ observer.target? = some (frame.render, root, slot) := by
  intro source member
  rcases List.mem_cons.1 member with rfl | later
  · exact ⟨subscription, _, linked.source, linked.holds, rfl⟩
  · obtain ⟨found, there, reads⟩ := linked.next
    have read := reads.resolve_left fun late => calm _ _ linked.holds rfl late.2
    rw [← fits.trail calm ahead ⟨found, there, read⟩] at later
    obtain ⟨watching, listed, rfl⟩ := List.mem_map.1 later
    obtain ⟨⟨name, label⟩, entered, own⟩ := List.mem_flatMap.1 listed
    obtain ⟨rest, holds⟩ := (fits.keep_slot slot).path_of_watch rfl
      (fun position other => if_neg other) entered own
    exact ⟨watching, _, rfl, holds, rfl⟩

end Trail

end LiveTemplate
