import LiveTemplate.Proofs.Apart.Client
import LiveTemplate.Proofs.Apart.States

/-!
# Worlds that match

Two worlds match if they are the same but for names, apart from the hidden renders, which only the
first one has.  Whatever is done to the components of both worlds, or to those of the first, can be
checked component by component.
-/

namespace LiveTemplate

/-! ## Documents -/

/-- The document that all renders share. -/
def shared (documents : Store Document) : Document :=
  (documents.get? place.index).getD {}

theorem shared_modify {documents : Store Document} (stored : place.index < documents.next)
    (change : Document → Document) :
    shared (documents.modify place.index change) = change (shared documents) := by
  rw [shared, shared, Store.get?_modify, if_pos rfl]
  obtain ⟨document, found⟩ := Option.isSome_iff_exists.1 (Store.get?_isSome_iff.2 stored)
  rw [found]
  rfl

/-- The shared document shows the same in both worlds, beside the trees of hidden renders. -/
structure Document.Matches (ties : Ties) (first second : Document) : Prop where
  page : Forest.Matches ties.nodes.pairs (NodeData.Matches ties.seen) ties.nodes.lone first.nodes
    second.nodes
  among : ties.nodes.Among first.places.Issued second.places.Issued

structure Documents.Matches (ties : Ties) (first second : Store Document) : Prop where
  stored : place.index < first.next
  storedAlso : place.index < second.next
  shared : (shared first).Matches ties (shared second)

theorem Documents.Matches.edit {ties later : Ties} {first second : Store Document}
    {change also : Document → Document} (all : Documents.Matches ties first second)
    (edited : (change (LiveTemplate.shared first)).Matches later (also (LiveTemplate.shared second))) :
    Documents.Matches later (first.modify place.index change)
      (second.modify place.index also) where
  stored := by
    rw [Store.next_modify]
    exact all.stored
  storedAlso := by
    rw [Store.next_modify]
    exact all.storedAlso
  shared := by
    rw [shared_modify all.stored, shared_modify all.storedAlso]
    exact edited

theorem Documents.Matches.edit_first {ties later : Ties} {first second : Store Document}
    {change : Document → Document} (all : Documents.Matches ties first second)
    (edited : (change (LiveTemplate.shared first)).Matches later (LiveTemplate.shared second)) :
    Documents.Matches later (first.modify place.index change) second where
  stored := by
    rw [Store.next_modify]
    exact all.stored
  storedAlso := all.storedAlso
  shared := by
    rw [shared_modify all.stored]
    exact edited

namespace Document.Matches

variable {ties later : Ties} {first second : Document} {one other : NodeId}

/-- Names that have come are not in the document yet. -/
theorem page_mono (all : first.Matches ties second) (grow : ties ≤ later) :
    Forest.Matches later.nodes.pairs (NodeData.Matches later.seen) later.nodes.lone first.nodes
      second.nodes :=
  all.page.mono grow.nodes.1 (fun _ _ same => same.mono (Ties.monotone_seen grow)) grow.nodes.2

section Tied

variable (all : first.Matches ties second) (tied : ties.nodes.pairs one other)

include all tied

theorem contains_eq : first.contains one = second.contains other :=
  all.page.contains_eq (fun _ _ => ties.nodes.eq_iff tied) fun _ => Tie.ne_of_lone tied

theorem subtree : Page.Matches ties.seen (first.nodes.subtree one) (second.nodes.subtree other) :=
  all.page.subtree (fun _ _ => ties.nodes.eq_iff tied) fun _ => Tie.ne_of_lone tied

theorem html_eq : first.html one = second.html other :=
  (all.subtree tied).written_eq

theorem data? : Option.Rel (NodeData.Matches ties.seen) (first.data? one) (second.data? other) :=
  all.page.label? (fun _ _ => ties.nodes.eq_iff tied) fun _ => Tie.ne_of_lone tied

theorem children : List.Forall₂ ties.nodes.pairs (first.children one) (second.children other) :=
  (all.page.under (fun _ _ => ties.nodes.eq_iff tied) fun _ => Tie.ne_of_lone tied).roots_forall₂

theorem ancestors : List.Forall₂ ties.nodes.pairs (first.ancestors one) (second.ancestors other) :=
  all.page.ancestors (fun _ _ => ties.nodes.eq_iff tied) fun _ => Tie.ne_of_lone tied

theorem bubblePath :
    List.Forall₂ ties.nodes.pairs (first.bubblePath one) (second.bubblePath other) := by
  rw [Document.bubblePath, Document.bubblePath, all.contains_eq tied]
  split
  · exact .cons tied (all.ancestors tied)
  · exact .nil

theorem prune : Forest.Matches ties.nodes.pairs (NodeData.Matches ties.seen) ties.nodes.lone
    (first.nodes.prune one) (second.nodes.prune other) :=
  all.page.prune (fun _ _ => ties.nodes.eq_iff tied) fun _ => Tie.ne_of_lone tied

/-- Nothing is skipped below a node that is tied. -/
theorem tree : Forest.Matches ties.nodes.pairs (NodeData.Matches ties.seen) ties.nodes.lone
    (first.nodes.subtree one) (second.nodes.subtree other) :=
  Forest.Matches.relax (all.subtree tied) _

theorem modify {change also : NodeData → NodeData} (changes : ∀ data twin,
    data.Matches ties.seen twin → (change data).Matches ties.seen (also twin)) :
    (first.modify one change).Matches ties (second.modify other also) where
  page := all.page.modify (fun _ _ => ties.nodes.eq_iff tied) (fun _ => Tie.ne_of_lone tied) changes
  among := all.among

theorem detach : (first.detach one).Matches ties (second.detach other) where
  page := (all.prune tied).append (all.tree tied)
  among := all.among

theorem remove : (first.remove one).2.Matches ties (second.remove other).2 where
  page := all.prune tied
  among := all.among.mono (fun _ => (Places.issued_vacateAll_iff ..).2)
    fun _ => (Places.issued_vacateAll_iff ..).2

theorem placeAfter {trees more : Forest NodeId NodeData} (built : Page.Matches ties.seen trees more) :
    (first.placeAfter one trees).Matches ties (second.placeAfter other more) := by
  rw [Document.placeAfter, Document.placeAfter, all.contains_eq tied]
  split
  · exact ⟨all.page.insertAfter (fun _ _ => ties.nodes.eq_iff tied)
      (fun _ => Tie.ne_of_lone tied) built, all.among⟩
  · exact ⟨all.page.append (Forest.Matches.relax built _), all.among⟩

variable {third fourth : NodeId} (also : ties.nodes.pairs third fourth)

include also

theorem isWithin_eq : first.isWithin third one = second.isWithin fourth other :=
  (all.subtree tied).contains_eq (fun _ _ => ties.nodes.eq_iff also) fun _ none => none.elim

theorem appendChild : (first.appendChild third one).Matches ties (second.appendChild fourth other) := by
  rw [Document.appendChild, Document.appendChild, all.contains_eq also, all.contains_eq tied,
    all.isWithin_eq tied also]
  split
  · exact ⟨(all.prune tied).modifyUnder (fun _ _ => ties.nodes.eq_iff also)
      (fun _ => Tie.ne_of_lone also) fun _ _ same => same.append (all.subtree tied), all.among⟩
  · exact all

theorem insertAfter :
    (first.insertAfter third one).Matches ties (second.insertAfter fourth other) := by
  have same : (third = one) = (fourth = other) := propext (ties.nodes.eq_iff tied also)
  simp only [Document.insertAfter, all.contains_eq also, all.contains_eq tied, same,
    all.isWithin_eq tied also]
  split
  · split
    · exact all.detach tied
    · split
      · exact all
      · exact ⟨(all.prune tied).insertAfter (fun _ _ => ties.nodes.eq_iff also)
          (fun _ => Tie.ne_of_lone also) (all.subtree tied), all.among⟩
  · exact all

end Tied

theorem removeAll (all : first.Matches ties second) {gone lost : List NodeId}
    (tied : List.Forall₂ ties.nodes.pairs gone lost) :
    (first.removeAll gone).Matches ties (second.removeAll lost) := by
  induction tied generalizing first second with
  | nil => exact all
  | cons here _ induction => exact induction (all.remove here)

section Lone

variable (all : first.Matches ties second)

include all

theorem modify_first (lone : ties.nodes.lone one) (change : NodeData → NodeData) :
    (first.modify one change).Matches ties second where
  page := all.page.modify_skipped (fun _ _ => Tie.ne_of_pairs lone) change
  among := all.among

theorem removeAll_first {gone : List NodeId} (lone : ∀ node ∈ gone, ties.nodes.lone node) :
    (first.removeAll gone).Matches ties second := by
  induction gone generalizing first with
  | nil => exact all
  | cons node later induction =>
      rw [List.forall_mem_cons] at lone
      have removed : (first.remove node).2.Matches ties second :=
        ⟨all.page.prune_skipped fun _ _ => Tie.ne_of_pairs lone.1,
          all.among.mono (fun _ => (Places.issued_vacateAll_iff ..).2) fun _ => id⟩
      exact induction removed lone.2

theorem placeAfter_first (lone : ties.nodes.lone one) {trees : Forest NodeId NodeData}
    (built : ∀ node ∈ trees.names, ties.nodes.lone node) :
    (first.placeAfter one trees).Matches ties second := by
  rw [Document.placeAfter]
  split
  · exact ⟨all.page.insertAfter_skipped (fun _ _ => Tie.ne_of_pairs lone) built, all.among⟩
  · refine ⟨?_, all.among⟩
    have more := all.page.append (Forest.Matches.of_skipped built)
    rwa [Forest.append_nil] at more

end Lone

end Document.Matches

/-! ## Renders -/

/-- A render is there in both worlds. -/
structure Render.Shown (ties : Ties) (first second : Render) : Prop where
  alike : first.Matches ties.seen second
  document : first.document = place
  node : ties.nodes.pairs first.node second.node

/-- A render is there in the first world only, and nothing of it is in the second. -/
structure Render.Hidden (ties : Ties) (render : Render) : Prop where
  alike : render.Matches ties.unseen render
  document : render.document = place

/-- Every render is either there in both worlds or hidden. -/
structure Renders.Matches (ties : Ties) (first second : Store Render) : Prop where
  among : ties.renders.Among (·.index < first.next) (·.index < second.next)
  known : ∀ one : RenderId, one.index < first.next →
    ties.renders.lone one ∨ ∃ other, ties.renders.pairs one other
  knownAlso : ∀ other : RenderId, other.index < second.next → ∃ one, ties.renders.pairs one other
  shown : ∀ {one other}, ties.renders.pairs one other → ∃ render twin,
    first.get? one.index = some render ∧ second.get? other.index = some twin ∧
      render.Shown ties twin
  hidden : ∀ {one}, ties.renders.lone one → ∃ render, first.get? one.index = some render ∧
    render.Hidden ties

namespace Renders.Matches

variable {ties later : Ties} {first second : Store Render} {one other : RenderId}

theorem mono (all : Renders.Matches ties first second) (grow : ties ≤ later)
    (renders : later.renders = ties.renders) : Renders.Matches later first second where
  among := renders ▸ all.among
  known := renders ▸ all.known
  knownAlso := renders ▸ all.knownAlso
  shown tied := by
    rw [renders] at tied
    obtain ⟨render, twin, here, there, shown⟩ := all.shown tied
    exact ⟨render, twin, here, there, shown.alike.mono (Ties.monotone_seen grow), shown.document,
      grow.nodes.1 _ _ shown.node⟩
  hidden lone := by
    rw [renders] at lone
    obtain ⟨render, here, hidden⟩ := all.hidden lone
    exact ⟨render, here, hidden.alike.mono (Ties.monotone_unseen grow), hidden.document⟩

private theorem index_ne {one other : RenderId} (differs : one ≠ other) : one.index ≠ other.index :=
  fun same => differs (by
    obtain ⟨_⟩ := one
    obtain ⟨_⟩ := other
    exact congrArg RenderId.mk same)

/-- A render that is there in both worlds changes. -/
theorem modify (all : Renders.Matches ties first second) (tied : ties.renders.pairs one other)
    {change also : Render → Render}
    (changes : ∀ render twin, render.Shown ties twin → (change render).Shown ties (also twin)) :
    Renders.Matches ties (first.modify one.index change) (second.modify other.index also) where
  among := by simpa using all.among
  known := by simpa using all.known
  knownAlso := by simpa using all.knownAlso
  shown {third fourth} too := by
    obtain ⟨render, twin, here, there, shown⟩ := all.shown too
    rw [Store.get?_modify, Store.get?_modify]
    by_cases same : third = one
    · obtain rfl := (ties.renders.eq_iff tied too).1 same
      subst same
      rw [if_pos rfl, if_pos rfl, here, there]
      exact ⟨_, _, rfl, rfl, changes _ _ shown⟩
    · rw [if_neg (index_ne same),
        if_neg (index_ne fun equal => same ((ties.renders.eq_iff tied too).2 equal))]
      exact ⟨render, twin, here, there, shown⟩
  hidden {third} lone := by
    obtain ⟨render, here, hidden⟩ := all.hidden lone
    rw [Store.get?_modify, if_neg (index_ne (Tie.ne_of_lone tied lone))]
    exact ⟨render, here, hidden⟩

/-- A hidden render changes. -/
theorem modify_first (all : Renders.Matches ties first second) (lone : ties.renders.lone one)
    {change : Render → Render}
    (changes : ∀ render, render.Hidden ties → (change render).Hidden ties) :
    Renders.Matches ties (first.modify one.index change) second where
  among := by simpa using all.among
  known := by simpa using all.known
  knownAlso := all.knownAlso
  shown {third fourth} tied := by
    obtain ⟨render, twin, here, there, shown⟩ := all.shown tied
    rw [Store.get?_modify, if_neg (index_ne (Tie.ne_of_pairs lone tied))]
    exact ⟨render, twin, here, there, shown⟩
  hidden {third} also := by
    obtain ⟨render, here, hidden⟩ := all.hidden also
    rw [Store.get?_modify]
    split
    · rw [here]
      exact ⟨_, rfl, changes _ hidden⟩
    · exact ⟨render, here, hidden⟩

/-! A render comes. -/

private theorem not_lt_next (renders : Store Render) :
    ¬ (⟨renders.next⟩ : RenderId).index < renders.next :=
  lt_irrefl _

private theorem lt_next_add (renders : Store Render) (render : Render) (id : RenderId)
    (early : id.index < renders.next) : id.index < (renders.add render).next := by
  rw [Store.next_add]
  exact Nat.lt_succ_of_lt early

private theorem get?_add_of_get? {renders : Store Render} {render found : Render} {index : Nat}
    (there : renders.get? index = some found) : (renders.add render).get? index = some found := by
  rw [Store.get?_add, if_neg (Nat.ne_of_lt (Store.lt_next_of_get? there)), there]

private theorem get?_add_next (renders : Store Render) (render : Render) :
    (renders.add render).get? renders.next = some render := by
  rw [Store.get?_add, if_pos rfl]

private theorem cases_next {renders : Store Render} {render : Render} {id : RenderId}
    (early : id.index < (renders.add render).next) :
    id.index < renders.next ∨ id = ⟨renders.next⟩ := by
  rw [Store.next_add] at early
  rcases Nat.lt_succ_iff_lt_or_eq.1 early with before | last
  · exact .inl before
  · exact .inr (congrArg RenderId.mk last)

/-- The ties when a render comes in both worlds. -/
def coupled (all : Renders.Matches ties first second) : Tie RenderId :=
  ties.renders.couple all.among (not_lt_next first) (not_lt_next second)

/-- The ties when a hidden render comes. -/
def secluded (all : Renders.Matches ties first second) : Tie RenderId :=
  ties.renders.seclude all.among (not_lt_next first)

theorem add (all : Renders.Matches ties first second) (grow : ties ≤ later)
    (renders : later.renders = all.coupled) {render twin : Render}
    (shown : render.Shown later twin) :
    Renders.Matches later (first.add render) (second.add twin) where
  among := by
    rw [renders]
    refine all.among.couple _ _ (lt_next_add _ _) (lt_next_add _ _) ?_ ?_
    all_goals
      rw [Store.next_add]
      exact Nat.lt_succ_self _
  known one early := by
    rw [renders]
    rcases cases_next early with before | rfl
    · exact (all.known one before).imp_right fun ⟨other, tied⟩ => ⟨other, .inl tied⟩
    · exact .inr ⟨_, .inr ⟨rfl, rfl⟩⟩
  knownAlso other early := by
    rw [renders]
    rcases cases_next early with before | rfl
    · obtain ⟨one, tied⟩ := all.knownAlso other before
      exact ⟨one, .inl tied⟩
    · exact ⟨_, .inr ⟨rfl, rfl⟩⟩
  shown tied := by
    rw [renders] at tied
    rcases tied with tied | ⟨rfl, rfl⟩
    · obtain ⟨found, also, here, there, shown⟩ := all.shown tied
      exact ⟨found, also, get?_add_of_get? here, get?_add_of_get? there,
        shown.alike.mono (Ties.monotone_seen grow), shown.document, grow.nodes.1 _ _ shown.node⟩
    · exact ⟨render, twin, get?_add_next _ _, get?_add_next _ _, shown⟩
  hidden lone := by
    rw [renders] at lone
    obtain ⟨found, here, hidden⟩ := all.hidden lone
    exact ⟨found, get?_add_of_get? here, hidden.alike.mono (Ties.monotone_unseen grow),
      hidden.document⟩

theorem add_first (all : Renders.Matches ties first second) (grow : ties ≤ later)
    (renders : later.renders = all.secluded) {render : Render} (hidden : render.Hidden later) :
    Renders.Matches later (first.add render) second where
  among := by
    rw [renders]
    refine all.among.seclude _ (lt_next_add _ _) ?_
    rw [Store.next_add]
    exact Nat.lt_succ_self _
  known one early := by
    rw [renders]
    rcases cases_next early with before | rfl
    · exact (all.known one before).imp_left .inl
    · exact .inl (.inr rfl)
  knownAlso := by
    rw [renders]
    exact all.knownAlso
  shown tied := by
    rw [renders] at tied
    obtain ⟨found, also, here, there, shown⟩ := all.shown tied
    exact ⟨found, also, get?_add_of_get? here, there,
      shown.alike.mono (Ties.monotone_seen grow), shown.document, grow.nodes.1 _ _ shown.node⟩
  hidden lone := by
    rw [renders] at lone
    rcases lone with lone | rfl
    · obtain ⟨found, here, hidden⟩ := all.hidden lone
      exact ⟨found, get?_add_of_get? here, hidden.alike.mono (Ties.monotone_unseen grow),
        hidden.document⟩
    · exact ⟨render, get?_add_next _ _, hidden⟩

end Renders.Matches

/-! ## Journals -/

variable (hidden own : String → Bool)

/-- What a name stands for, under the same name in both worlds. -/
def Named {First Second : Type} (related : String → First → Second → Prop)
    (one : String × First) (other : String × Second) : Prop :=
  one.1 = other.1 ∧ related one.1 one.2 other.2

/-- Controllers that the client has made.  Those with an own name are for hidden renders. -/
def Ties.Holds (ties : Ties) (name : String) (one other : ControllerId) : Prop :=
  if own name then ties.roots.pairs one other else ties.controllers.pairs one other

/-- After the same deed the client had been told the same, and it would have been answered the same. -/
structure Moment.Matches (first second : Moment) : Prop where
  deed : first.deed = second.deed
  log : first.log = second.log
  answer : ∀ question, Question.Spares hidden question → first.answer question = second.answer question

/-- The client has been told the same, and the names that it knows in both worlds stand for the same.
After each deed that was done in both worlds, things stood the same. -/
structure Journal.Matches (ties : Ties) (first second : Journal) : Prop where
  log : first.log = second.log
  course : List.Forall₂ (Moment.Matches hidden)
    (first.course.filter fun moment => !moment.deed.concerns hidden) second.course
  registrations : List.Forall₂ (Named fun _ => ties.marks.pairs) first.registrations
    second.registrations
  controllers : List.Forall₂ (Named (ties.Holds own)) first.controllers second.controllers
  nodes : List.Forall₂ (Named fun _ => ties.nodes.pairs) first.nodes second.nodes
  shown : ∀ name, hidden name = false → Option.Rel ties.renders.pairs (first.renders.lookup name)
    (second.renders.lookup name)
  failures : ∀ name, hidden name = false → first.failures.lookup name = second.failures.lookup name
  unseen : ∀ name, hidden name = true → ∀ id, first.renders.lookup name = some id →
    ties.renders.lone id

/-- A controller is held on to in both worlds. -/
def Ties.Engages (ties : Ties) (one other : ControllerId) : Prop :=
  ties.controllers.pairs one other ∨ ties.roots.pairs one other

/-- Two worlds are the same but for names, apart from the renders that are hidden. -/
structure World.Matches (ties : Ties) (first second : World Journal) : Prop where
  data : Data.Matches ties first.data second.data
  controllers : Controllers.Matches ties first.controllers second.controllers
  documents : Documents.Matches ties first.documents second.documents
  renders : Renders.Matches ties first.renders second.renders
  registries : first.registries = second.registries
  engaged : List.Forall₂ ties.Engages first.engaged second.engaged
  client : Journal.Matches hidden own ties first.client second.client

end LiveTemplate
