import LiveTemplate.Proofs.View.Invariance
import LiveTemplate.Proofs.View.Retention
import LiveTemplate.Proofs.View.Splicing

/-!
# Splicing is local

A list that is told of a change of its collection exchanges the groups that the change is about.  The
groups of the other items stay, with what stands directly below them, whatever else is told of the
change; and if nothing else is told of it, nothing else in the document changes.
-/

namespace LiveTemplate.World

open BoundForest (skeleton shown flat)

variable {Client : Type} {world after : World Client} {id : RenderId} {render changed : Render}
  {list : BoundId} {node : BoundNode Part} {below : Bindings}

/-! ## Everything else stays -/

section Endures

variable {spared : BoundId → Prop} {name group : BoundId}

/-- Whatever is left and had been there stands below what it stood below. -/
theorem Endures.mem_walk (endures : Endures spared world after id render changed) (sound : world.Sound)
    (tidy : after.Sound) (live : name ∈ changed.tree.nodes.names) (old : name.index < render.tree.next) :
    name ∈ render.tree.nodes.names ∧
      (name ∈ changed.tree.nodes.walk group ↔ name ∈ render.tree.nodes.walk group) := by
  obtain ⟨_, _, own⟩ := sound.renders id render endures.known
  obtain ⟨_, _, late⟩ := tidy.renders id changed endures.here
  obtain ⟨node, below, has⟩ := Forest.exists_has live
  obtain ⟨_, _, _, there, _⟩ := endures.tree.known name node below has old
  rw [Forest.mem_walk own.distinct there.mem, Forest.mem_walk late.distinct live,
    endures.tree.above name live old]
  exact ⟨there.mem, .rfl⟩

/-- A document node that is left belongs to the bound node that it belonged to. -/
theorem Endures.owner (endures : Endures spared world after id render changed) (sound : world.Sound)
    (tidy : after.Sound) {dom : NodeId} (before : (name, node) ∈ render.tree.nodes.entries)
    (own : node.dom = some dom) (left : (after.document render.document).contains dom = true) :
    name ∈ changed.tree.nodes.names := by
  have here := (bound?_iff sound endures.known).2 before
  obtain ⟨made, there⟩ := ((sound.ordered endures.known).present dom).2 ⟨name, node, here, own⟩
  rw [← endures.same.document] at left
  obtain ⟨owner, other, found, also⟩ :=
    ((tidy.ordered endures.here).present dom).1 ⟨endures.created made, left⟩
  have member := (bound?_iff tidy endures.here).1 found
  by_cases old : owner.index < render.tree.next
  · obtain ⟨below, has⟩ := Forest.has_iff_mem_entries.2 member
    obtain ⟨former, _, decision, early, rfl, _⟩ := endures.tree.known owner other below has old
    have same : name = owner := by
      apply (sound.ordered endures.known).single name owner node former dom here _ own
      · exact (decided_same former decision).2.1.symm.trans also
      · exact (bound?_iff sound endures.known).2 early.mem_entries
    rw [same]
    exact has.mem
  · have given : (world.document render.document).places.Issued dom := by
      obtain ⟨document, stored, _⟩ := sound.renders id render endures.known
      rw [document_eq stored] at there ⊢
      exact (sound.documents _ _ stored).issued dom (Forest.contains_iff_mem.1 there)
    exact absurd given (endures.fresh owner other member (Nat.not_lt.1 old) dom also)

theorem mem_names_of_walk {nodes : Bindings} (distinct : nodes.names.Nodup)
    (inside : name ∈ nodes.walk group) : name ∈ nodes.names ∧ group ∈ nodes.names := by
  by_cases present : group ∈ nodes.names
  · obtain ⟨label, below, has⟩ := Forest.exists_has present
    rw [Forest.walk, has.subtree_eq distinct] at inside
    exact ⟨has.sublist.subset (by simpa using inside), present⟩
  · rw [Forest.walk, Forest.subtree_eq_nil_of_not_mem present] at inside
    cases inside

variable {front gone news back : List BoundId}

/-- Nothing is left of a child that is a child no more. -/
theorem Endures.lost (endures : Endures spared world after id render changed) (sound : world.Sound)
    (tidy : after.Sound) (child : group ∈ render.tree.children list)
    (other : group ∉ changed.tree.children list) (inside : name ∈ render.tree.nodes.walk group) :
    name ∉ changed.tree.nodes.names := by
  obtain ⟨_, _, own⟩ := sound.renders id render endures.known
  obtain ⟨_, _, late⟩ := tidy.renders id changed endures.here
  obtain ⟨there, groupThere⟩ := mem_names_of_walk own.distinct inside
  intro live
  have walks := (endures.mem_walk sound tidy live (own.numbered name there)).2.2 inside
  obtain ⟨_, still⟩ := mem_names_of_walk late.distinct walks
  have above := endures.tree.above group still (own.numbered group groupThere)
  have parent := (Forest.parent?_eq_some own.distinct).2 child
  rw [Forest.parent?, ← above] at parent
  exact other ((Forest.parent?_eq_some late.distinct).1 parent)

/-- What stands below something new is new. -/
theorem Endures.comes (endures : Endures spared world after id render changed) (sound : world.Sound)
    (tidy : after.Sound) (new : render.tree.next ≤ group.index)
    (inside : name ∈ changed.tree.nodes.walk group) : render.tree.next ≤ name.index := by
  obtain ⟨_, _, own⟩ := sound.renders id render endures.known
  obtain ⟨_, _, late⟩ := tidy.renders id changed endures.here
  obtain ⟨live, _⟩ := mem_names_of_walk late.distinct inside
  by_contra old
  have walks := (endures.mem_walk sound tidy live (Nat.not_le.1 old)).2.1 inside
  exact absurd (own.numbered group (mem_names_of_walk own.distinct walks).2) (Nat.not_lt.2 new)

theorem decided_of_other {node : BoundNode Part} (other : node.kind ≠ .switch)
    (decision : Option Bool) : node.decided decision = node := by
  obtain ⟨part, dom, ledger, scope⟩ := node
  cases part with
  | switch directive shown => exact (other rfl).elim
  | _ => rfl

/-- A group that is left is the same, and so is what stands directly below it, up to the decisions of
directives. -/
theorem Endures.kept (endures : Endures spared world after id render changed) (sound : world.Sound)
    (tidy : after.Sound) (standing : world.bound? id group = some node) (sort : node.kind = .group)
    (left : group ∈ changed.tree.nodes.names) :
    after.bound? id group = world.bound? id group ∧
      changed.tree.children group = render.tree.children group ∧
      ∀ child ∈ render.tree.children group, ∃ decision,
        after.bound? id child = (world.bound? id child).map (·.decided decision) := by
  obtain ⟨_, _, own⟩ := sound.renders id render endures.known
  obtain ⟨_, _, late⟩ := tidy.renders id changed endures.here
  obtain ⟨below, has⟩ := (bound?_iff_has sound endures.known).1 standing
  obtain ⟨mark, inside, here⟩ := Forest.exists_has left
  obtain ⟨former, under, decision, early, rfl, roots⟩ := endures.tree.known group mark inside here
    (own.numbered group has.mem)
  obtain ⟨rfl, rfl⟩ := early.unique own.distinct has
  rw [decided_of_other (by simp [sort])] at here
  have kids := roots (by simp [sort]) (by simp [sort])
  have children := BoundTree.children_eq own.distinct has
  refine ⟨?_, ?_, ?_⟩
  · rw [standing]
    exact (bound?_iff tidy endures.here).2 here.mem_entries
  · rw [BoundTree.children_eq late.distinct here, children, kids]
  · intro child member
    rw [children, ← kids] at member
    obtain ⟨mark, deeper, inner⟩ := Forest.exists_has (Forest.roots_subset_names _ member)
    have deep := here.trans inner
    have old : child ∈ render.tree.nodes.names :=
      has.sublist.subset (List.mem_cons_of_mem _ (Forest.roots_subset_names _ (kids ▸ member)))
    obtain ⟨was, _, decision, sooner, rfl, _⟩ := endures.tree.known child mark deeper deep
      (own.numbered child old)
    refine ⟨decision, ?_⟩
    rw [(bound?_iff sound endures.known).2 sooner.mem_entries]
    exact (bound?_iff tidy endures.here).2 deep.mem_entries

/-- What a list shows stands directly after the anchor that it has had before. -/
theorem Endures.placed (endures : Endures spared world after id render changed) (sound : world.Sound)
    (tidy : after.Sound) (before : world.bound? id list = some node)
    (live : after.isLive id list = true) (kind : node.kind = .list) :
    ∃ anchor element before behind, (world.bound? id list).bind (·.dom) = some anchor ∧
      (after.bound? id list).bind (·.dom) = some anchor ∧
      (after.document render.document).children element = before ++ anchor ::
        ((changed.tree.children list).flatMap fun group =>
          flat (changed.tree.nodes.subtree group)) ++ behind := by
  obtain ⟨_, _, own⟩ := sound.renders id render endures.known
  obtain ⟨_, _, late⟩ := tidy.renders id changed endures.here
  obtain ⟨former, early⟩ := (bound?_iff_has sound endures.known).1 before
  obtain ⟨current, found⟩ := Option.isSome_iff_exists.1 live
  obtain ⟨below, has⟩ := (bound?_iff_has tidy endures.here).1 found
  obtain ⟨first, _, decision, there, rfl, _⟩ := endures.tree.known list current below has
    (own.numbered list early.mem)
  obtain ⟨rfl, _⟩ := there.unique own.distinct early
  rw [decided_of_other (by simp [kind])] at has found
  have regular : first.dom.isSome = true := by
    simpa [BoundForest.Regular, kind] using Forest.Everywhere.at own.regular early
  obtain ⟨anchor, holds⟩ := Option.isSome_iff_exists.1 regular
  obtain ⟨element, front, behind, stands⟩ := tidy.list_placed endures.here has kind holds
  refine ⟨anchor, element, front, behind, ?_, ?_, ?_⟩
  · rw [before]
    exact holds
  · rw [found]
    exact holds
  · rw [BoundTree.children_eq late.distinct has, ← endures.same.document, stands,
      ← BoundForest.flat_eq_flatMap late.distinct fun _ _ _ => has.trans]
    simp

/-- As long as a list endures and is not told anything, its children are the same. -/
theorem Endures.children (endures : Endures (· = list) world after id render changed)
    (sound : world.Sound)
    (has : Forest.Has render.tree.nodes list node below) (kind : node.kind = .list)
    (live : list ∈ changed.tree.nodes.names) : ∃ inner,
      Forest.Has changed.tree.nodes list node inner ∧ inner.roots = below.roots := by
  obtain ⟨_, _, own⟩ := sound.renders id render endures.known
  obtain ⟨mark, inner, here⟩ := Forest.exists_has live
  obtain ⟨former, under, decision, there, rfl, roots⟩ := endures.tree.known list mark inner here
    (own.numbered list has.mem)
  obtain ⟨rfl, rfl⟩ := there.unique own.distinct has
  rw [decided_of_other (by simp [kind])] at here
  exact ⟨inner, here, roots (by simp [kind]) fun _ => rfl⟩

/-- Groups that are still there are the same. -/
theorem Endures.aligned (endures : Endures spared world after id render changed)
    (sound : world.Sound) (tidy : after.Sound) {model : ModelId} {groups : List BoundId}
    {items : List Value} (aligned : world.Aligned id model groups items)
    (live : ∀ group ∈ groups, group ∈ changed.tree.nodes.names) :
    after.Aligned id model groups items := by
  obtain ⟨_, _, own⟩ := sound.renders id render endures.known
  have listed := (List.forall₂_and_left _ _).2 ⟨live, aligned⟩
  refine listed.imp fun group item here => ?_
  obtain ⟨left, node, standing, part, scope⟩ := here
  obtain ⟨mark, inner, has⟩ := Forest.exists_has left
  have member := (bound?_iff sound endures.known).1 standing
  obtain ⟨former, _, decision, there, rfl, _⟩ := endures.tree.known group mark inner has
    (own.numbered group (List.mem_map_of_mem member))
  obtain rfl := Option.some.inj
    (((bound?_iff sound endures.known).2 there.mem_entries).symm.trans standing)
  rw [decided_of_other (by simp [BoundNode.kind, HasBoundKind.kind, part, Part.kind])] at has
  exact ⟨former, (bound?_iff tidy endures.here).2 has.mem_entries, part, scope⟩

end Endures

section Telling

variable {behaviour : Behaviour Client} {collection : CollectionId} {change : Change}
  {pending first second : Notices} {subscription : Subscription} {body : List Template.Node}
  {anchor : NodeId} {ledger : List Subscription} {scope : Scope} {front back : List BoundId}

/-- A list has let a group go, has got another, or both, while others were told of the same change. -/
structure Exchanged (world after : World Client) (id : RenderId) (render changed : Render)
    (list : BoundId) (model : ModelId) (change : Change) (front news back : List BoundId)
    (others : Notices) : Prop where
  endures : Endures (fun _ => False) world after id render changed
  children : changed.tree.children list = front ++ (news ++ back)
  fresh : ∀ group ∈ news, render.tree.next ≤ group.index
  aligned : after.Aligned id model news change.fresh
  page : world.Elsewhere render.document others →
    (after.document render.document).nodes.without
        (news.flatMap fun group => shown (changed.tree.nodes.subtree group)) =
      (world.document render.document).nodes.without
        ((change.gone (render.tree.children list)).flatMap fun group =>
          shown (render.tree.nodes.subtree group))

/-- A render endures that one of its lists follows a change. -/
theorem splice_endures_here (behaviour : Behaviour Client) (sound : world.Sound)
    (known : world.render? id = some render) (list : BoundId) (refers : world.data.RefersIn change) :
    ∃ changed, Endures (fun _ => False) world (world.splice behaviour id list change) id render
      changed := by
  rcases splice_endures behaviour sound id list refers (fun _ => False) not_false with
    same | ⟨_, changed, progress, endures⟩
  · rw [same]
    exact ⟨render, .of_same sound known known fun _ => .refl _⟩
  · obtain rfl := Option.some.inj (known.symm.trans progress.known)
    exact ⟨changed, endures⟩

/-- A list that is told of a change first, and once, exchanges a group for another. -/
theorem Telling.splices
    (telling : Telling Rule.hush behaviour (.change collection change) pending
      ((subscription, .change (.splice id list)) :: second) world)
    (sound : world.Sound) (refers : world.data.RefersIn change) (known : world.render? id = some render)
    (has : Forest.Has render.tree.nodes list ⟨.list collection body, some anchor, ledger, scope⟩ below)
    (held : subscription ∈ ledger) (once : ∀ other, (other, .change (.splice id list)) ∉ second)
    (single : ∀ items, change ≠ .replace items)
    (split : render.tree.children list = front ++ (change.gone (render.tree.children list) ++ back))
    (place : front.length = change.place)
    (made : announce behaviour (.change collection change)
      ((subscription, .change (.splice id list)) :: second) world = after)
    (live : after.isLive id list = true) :
    ∃ changed news,
      world.Exchanged after id render changed list scope.model change front news back second := by
  obtain ⟨_, _, mine⟩ := sound.renders id render known
  cases telling with
  | passed gone rest =>
      obtain ⟨observer, holds, _⟩ := sound.held known has.mem_entries held
      exact (Data.not_holds_of_isHeld gone observer holds).elim
  | client there free acts rest => cases free
  | render there told rest =>
      rw [announce, if_pos there] at made
      change Telling Rule.hush behaviour _ pending second
        (world.splice behaviour id list change) at rest
      change announce behaviour _ second (world.splice behaviour id list change) = after at made
      have concerns := splice_concerns behaviour sound id list refers
      have spliced := concerns.proceeds
      have beyond := Data.RefersIn.mono refers spliced.models spliced.collections
      obtain ⟨shows, endures⟩ := splice_endures_here behaviour sound known list refers
      have spares : ∀ other also, (other, .change (.splice id also)) ∈ second → ¬ also = list :=
        fun other also member same => once other (same ▸ member)
      obtain ⟨changed, last⟩ := rest.endures spliced.sound beyond endures.here spares
      have apart := rest.aside spliced.sound beyond endures.here
      have tidy := (rest.proceeds spliced.sound beyond).sound
      rw [made] at last apart tidy
      obtain ⟨current, found⟩ := Option.isSome_iff_exists.1 live
      have member : list ∈ changed.tree.nodes.names :=
        List.mem_map_of_mem ((bound?_iff tidy last.here).1 found)
      rw [BoundTree.children_eq mine.distinct has] at split
      obtain ⟨also, news, standing, ⟨under, there, children⟩, fresh, aligned, page⟩ :=
        splice_exchanges behaviour sound known has refers single split place
      obtain rfl := Option.some.inj (endures.here.symm.trans standing)
      obtain ⟨_, _, own⟩ := tidy.renders id changed last.here
      obtain ⟨deep, left, same⟩ := last.children spliced.sound there rfl member
      have stay : changed.tree.children list = front ++ (news ++ back) := by
        rw [BoundTree.children_eq own.distinct left, same, children]
      refine ⟨changed, news, endures.trans (last.mono nofun), stay, fresh, ?_, ?_⟩
      · apply last.aligned spliced.sound tidy aligned
        intro group comes
        apply (Forest.mem_names_of_childrenOf own.distinct _).2
        show group ∈ changed.tree.children list
        rw [stay]
        exact List.mem_append_right _ (List.mem_append_left _ comes)
      · intro others
        obtain ⟨final, same⟩ := apart <| by
          intro other observer another owner listed owned
          obtain ⟨third, there, away⟩ := others other observer another owner listed owned
          have differs : another ≠ id := by
            intro equal
            subst equal
            exact away (congrArg Render.document (Option.some.inj (there.symm.trans known)))
          rw [endures.same.document]
          exact ⟨third, (concerns.there another differs).trans there, away⟩
        obtain rfl := Option.some.inj (final.symm.trans last.here)
        rw [endures.same.document] at same
        rw [same, page, BoundTree.children_eq mine.distinct has]

/-- So does a list that is told of it after others. -/
theorem Telling.spliced
    (telling : Telling Rule.hush behaviour (.change collection change) pending
      (first ++ (subscription, .change (.splice id list)) :: second) world)
    (sound : world.Sound) (refers : world.data.RefersIn change) (known : world.render? id = some render)
    (has : Forest.Has render.tree.nodes list ⟨.list collection body, some anchor, ledger, scope⟩ below)
    (held : subscription ∈ ledger)
    (once : ∀ other, (other, .change (.splice id list)) ∉ first ++ second)
    (single : ∀ items, change ≠ .replace items)
    (split : render.tree.children list = front ++ (change.gone (render.tree.children list) ++ back))
    (place : front.length = change.place)
    (made : announce behaviour (.change collection change)
      (first ++ (subscription, .change (.splice id list)) :: second) world = after)
    (live : after.isLive id list = true) :
    ∃ changed news, world.Exchanged after id render changed list scope.model change front news back
      (first ++ second) := by
  obtain ⟨early, late⟩ := telling.split
  rw [announce_append] at made
  have earlier := early.proceeds sound refers
  have further : (announce behaviour (.change collection change) first world).data.RefersIn change :=
    Data.RefersIn.mono refers earlier.models earlier.collections
  have spares : ∀ other also, (other, .change (.splice id also)) ∈ first → ¬ also = list :=
    fun other also member same => once other (same ▸ List.mem_append_left _ member)
  obtain ⟨middle, before⟩ := early.endures sound refers known spares
  have beside : ∀ other another, world.render? other = some another → ∃ current,
      Endures (fun _ => False) world (announce behaviour (.change collection change) first world)
        other another current :=
    fun other another there => early.endures sound refers there fun _ _ _ => not_false
  have untouched := early.aside sound refers known
  generalize announce behaviour (.change collection change) first world = between at *
  -- The list is still there when its turn comes, since it is there at the end.
  obtain ⟨last, whole⟩ : ∃ last, Endures (fun _ => False) between after id middle last :=
    made ▸ late.endures earlier.sound further before.here fun _ _ _ => not_false
  have tidy : after.Sound := made ▸ (late.proceeds earlier.sound further).sound
  obtain ⟨current, found⟩ := Option.isSome_iff_exists.1 live
  obtain ⟨_, left⟩ := (bound?_iff_has tidy whole.here).1 found
  obtain ⟨_, _, own⟩ := sound.renders id render known
  obtain ⟨_, _, mine⟩ := earlier.sound.renders id middle before.here
  have old : list.index < middle.tree.next := (own.numbered list has.mem).trans_le before.tree.next
  obtain ⟨_, _, _, there, _⟩ := whole.tree.known list current _ left old
  obtain ⟨inner, here, roots⟩ := before.children sound has rfl there.mem
  have same : middle.tree.children list = render.tree.children list := by
    rw [BoundTree.children_eq mine.distinct here, BoundTree.children_eq own.distinct has, roots]
  obtain ⟨changed, news, exchanged⟩ := late.splices earlier.sound further before.here here held
    (fun other member => once other (List.mem_append_right _ member)) single (same ▸ split) place made
    live
  refine ⟨changed, news, (before.mono nofun).trans exchanged.endures, exchanged.children,
    fun group comes => before.tree.next.trans (exchanged.fresh group comes), exchanged.aligned, ?_⟩
  intro others
  obtain ⟨still, kept⟩ := untouched fun other observer another owner member =>
    others other observer another owner (List.mem_append_left _ member)
  obtain rfl := Option.some.inj (still.symm.trans before.here)
  rw [← kept]
  apply exchanged.page
  intro other observer another owner member owned
  obtain ⟨third, there, away⟩ :=
    others other observer another owner (List.mem_append_right _ member) owned
  obtain ⟨current, endured⟩ := beside another third there
  exact ⟨current, endured.here, endured.same.document ▸ away⟩

end Telling

/-! ## A collection is changed -/

/-- Of whatever belongs to a render in a document, only one list follows a collection. -/
def FollowsAlone (world : World Client) (collection : CollectionId) (place : DocumentId)
    (id : RenderId) (list : BoundId) : Prop :=
  ∀ subscription observer other owner another, world.data.Holds subscription observer →
    subscription.source = .collection collection → observer.owner? = some (other, owner) →
      world.render? other = some another → another.document = place →
        observer = .change (.splice id list)

section Conduct

variable {subscription : Subscription} {collection : CollectionId} {body : List Template.Node}
  {scope : Scope} {behaviour : Behaviour Client} {mutation : Mutation} {change : Change} {data : Data}

/-- If only one list follows a collection, the others that are told of it are in other documents. -/
theorem FollowsAlone.elsewhere {place : DocumentId} {others : Notices}
    (alone : world.FollowsAlone collection place id list) (sound : world.Sound)
    (registered : ∀ other observer, (other, observer) ∈ others → observer.owner? ≠ none →
      world.data.Holds other observer ∧ other.source = .collection collection)
    (apart : ∀ other, (other, .change (.splice id list)) ∉ others) :
    world.Elsewhere place others := by
  intro other observer another owner there owned
  obtain ⟨holds, same⟩ := registered other observer there (by simp [owned])
  obtain ⟨beside, standing⟩ := Option.isSome_iff_exists.1
    (Store.get?_isSome_iff.2 (sound.owners other observer another owner holds owned))
  refine ⟨beside, standing, fun here => ?_⟩
  obtain rfl := alone other observer another owner beside holds same owned standing here
  exact apart other there

end Conduct

/-! ## Somebody joins a roll -/

end LiveTemplate.World
