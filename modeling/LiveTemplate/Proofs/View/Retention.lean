import LiveTemplate.Proofs.Forest.Regrowth
import LiveTemplate.Proofs.Upkeep.Runs

/-!
# What a change of a collection leaves of a render

Told of a change of a collection, a directive replaces what it shows and a list exchanges items.
Whatever bound node is left afterwards was there before, in the same place, and is the same apart from
the decision of a directive; and unless it is a directive or the list itself, its children are the
same too.
-/

namespace LiveTemplate

theorem BoundNode.exists_decided (node : BoundNode Part) : ∃ decision, node.decided decision = node := by
  obtain ⟨part, dom, ledger, scope⟩ := node
  cases part with
  | switch directive shown => exact ⟨shown, rfl⟩
  | _ => exact ⟨none, rfl⟩

theorem BoundNode.decided_decided (node : BoundNode Part) (first second : Option Bool) :
    (node.decided first).decided second = node.decided second := by
  obtain ⟨part, dom, ledger, scope⟩ := node
  cases part with
  | _ => rfl

namespace BoundTree

variable {early middle late : BoundTree Part} {spared lenient : BoundId → Prop}

/-- What is left of bound nodes is what it was, apart from decisions.  The children of a directive may
be others, and those of a list that is not spared. -/
structure Retains (spared : BoundId → Prop) (early late : BoundTree Part) : Prop where
  next : early.next ≤ late.next
  known : ∀ name node below, Forest.Has late.nodes name node below → name.index < early.next →
    ∃ former under decision, Forest.Has early.nodes name former under ∧
      node = former.decided decision ∧
      (former.kind ≠ .switch → (former.kind = .list → spared name) → below.roots = under.roots)
  above : ∀ name ∈ late.nodes.names, name.index < early.next →
    late.nodes.ancestors name = early.nodes.ancestors name

theorem Retains.refl (spared : BoundId → Prop) (tree : BoundTree Part) : tree.Retains spared tree where
  next := le_rfl
  known := by
    intro name node below has _
    obtain ⟨decision, same⟩ := node.exists_decided
    exact ⟨node, below, decision, has, same.symm, fun _ _ => rfl⟩
  above := fun _ _ _ => rfl

theorem Retains.trans (first : early.Retains spared middle) (second : middle.Retains spared late) :
    early.Retains spared late where
  next := first.next.trans second.next
  known := by
    intro name node below has old
    obtain ⟨between, inner, later, there, rfl, same⟩ :=
      second.known name node below has (old.trans_le first.next)
    obtain ⟨former, under, sooner, here, rfl, also⟩ := first.known name between inner there old
    refine ⟨former, under, later, here, former.decided_decided sooner later, ?_⟩
    intro other kept
    rw [(World.decided_same former sooner).1] at same
    exact (same other kept).trans (also other kept)
  above := by
    intro name member old
    obtain ⟨node, below, has⟩ := Forest.exists_has member
    obtain ⟨_, _, _, there, _⟩ := second.known name node below has (old.trans_le first.next)
    exact (second.above name member (old.trans_le first.next)).trans (first.above name there.mem old)

theorem Retains.mono (retains : early.Retains spared late) (fewer : ∀ name, lenient name → spared name) :
    early.Retains lenient late :=
  { retains with
    known := by
      intro name node below has old
      obtain ⟨former, under, decision, there, same, roots⟩ := retains.known name node below has old
      exact ⟨former, under, decision, there, same, fun other kept =>
        roots other fun kind => fewer name (kept kind)⟩ }

/-- A directive, or a list that is not spared, has been given others below it. -/
theorem Retains.of_edit {target : BoundId} {mark : BoundNode Part} {below : Bindings}
    {label : BoundNode Part → BoundNode Part} {change : Bindings → Bindings}
    (distinct : early.nodes.names.Nodup) (has : Forest.Has early.nodes target mark below)
    (relabelled : ∃ decision, label mark = mark.decided decision)
    (kind : mark.kind = .switch ∨ mark.kind = .list ∧ ¬ spared target)
    (regrows : Forest.Regrows (fun name => early.next ≤ name.index) below (change below))
    (nodes : late.nodes = early.nodes.edit target label change) (next : early.next ≤ late.next) :
    early.Retains spared late where
  next := next
  known := by
    intro name node inner found old
    rw [nodes] at found
    rcases Forest.has_edit found with ⟨former, there, _, rfl⟩ | ⟨sign, under, there, here | inside⟩
    · obtain ⟨decision, same⟩ := node.exists_decided
      exact ⟨node, former, decision, there, same.symm, fun _ _ => Forest.roots_edit ..⟩
    · obtain ⟨rfl, rfl, rfl⟩ := here
      obtain ⟨rfl, rfl⟩ := there.unique distinct has
      obtain ⟨decision, same⟩ := relabelled
      refine ⟨sign, under, decision, has, same, ?_⟩
      intro other kept
      obtain switch | ⟨list, touched⟩ := kind
      · exact (other switch).elim
      · exact (touched (kept list)).elim
    · obtain ⟨rfl, rfl⟩ := there.unique distinct has
      obtain ⟨decision, same⟩ := node.exists_decided
      have still := regrows.old name node inner inside (Nat.not_le.2 old)
      exact ⟨node, inner, decision, has.trans still, same.symm, fun _ _ => rfl⟩
  above := by
    intro name member old
    rw [nodes] at member ⊢
    refine (Forest.ancestors_edit distinct has member fun inside => ?_).2
    obtain ⟨node, inner, found⟩ := Forest.exists_has inside
    exact ⟨(regrows.old name node inner found (Nat.not_le.2 old)).mem,
      regrows.above name inside (Nat.not_le.2 old)⟩

end BoundTree

namespace World

variable {Client : Type} {world middle after last : World Client} {id other : RenderId}
  {render changed current another : Render} {spared lenient : BoundId → Prop} {growth : Growth}
  {page : Forest NodeId NodeData}

/-- A render goes on, and what is left of it and of the documents is what it was.  The document nodes
of what has come are new. -/
structure Endures (spared : BoundId → Prop) (world after : World Client) (id : RenderId)
    (render changed : Render) : Prop where
  known : world.render? id = some render
  here : after.render? id = some changed
  same : changed.Continues render
  created : render.created ⊆ changed.created
  documents : ∀ place, (world.document place).Recalls (after.document place)
  tree : render.tree.Retains spared changed.tree
  fresh : ∀ name node, (name, node) ∈ changed.tree.nodes.entries → render.tree.next ≤ name.index →
    ∀ dom, node.dom = some dom → ¬ (world.document render.document).places.Issued dom

/-- Nothing has happened to the render. -/
theorem Endures.of_same (sound : world.Sound) (known : world.render? id = some render)
    (here : after.render? id = some render)
    (documents : ∀ place, (world.document place).Recalls (after.document place)) :
    Endures spared world after id render render where
  known := known
  here := here
  same := .refl render
  created := List.Subset.refl _
  documents := documents
  tree := .refl spared render.tree
  fresh := by
    intro name node member new
    obtain ⟨_, _, own⟩ := sound.renders id render known
    exact absurd (own.numbered name (List.mem_map_of_mem member)) (Nat.not_lt.2 new)

theorem Endures.trans (first : Endures spared world middle id render current)
    (second : Endures spared middle after id current changed) :
    Endures spared world after id render changed where
  known := first.known
  here := second.here
  same := second.same.trans first.same
  created := List.Subset.trans first.created second.created
  documents := fun place => (first.documents place).trans (second.documents place)
  tree := first.tree.trans second.tree
  fresh := by
    intro name node member new dom own
    by_cases between : name.index < current.tree.next
    · obtain ⟨below, has⟩ := Forest.has_iff_mem_entries.2 member
      obtain ⟨former, under, decision, there, rfl, _⟩ := second.tree.known name node below has between
      exact first.fresh name former there.mem_entries new dom
        ((decided_same former decision).2.1.symm.trans own)
    · intro given
      apply second.fresh name node member (Nat.not_lt.1 between) dom own
      rw [first.same.document]
      exact (first.documents render.document).issued dom given

theorem Endures.mono (endures : Endures spared world after id render changed)
    (fewer : ∀ name, lenient name → spared name) : Endures lenient world after id render changed :=
  { endures with tree := endures.tree.mono fewer }

/-- What is done to one render is nothing to another. -/
theorem Progress.endures_aside (progress : world.Progress after other another changed)
    (sound : world.Sound) (known : world.render? id = some render) (differs : id ≠ other) :
    Endures spared world after id render render :=
  .of_same sound known ((progress.there id differs).trans known) progress.documents

/-! ## One observer is told -/

/-- A directive, or a list that is not spared, shows something else. -/
theorem Progress.endures {target : BoundId} {mark : BoundNode Part} {below : Bindings}
    {label : BoundNode Part → BoundNode Part} {change : Bindings → Bindings}
    {steps : Site Client → Build Client Growth} (progress : world.Progress after id render changed)
    (sound : world.Sound) (has : Forest.Has render.tree.nodes target mark below)
    (relabelled : ∃ decision, label mark = mark.decided decision)
    (kind : mark.kind = .switch ∨ mark.kind = .list ∧ ¬ spared target)
    (built : Built world after id render steps growth page)
    (grows : ∀ site before later, world.Building id render site before →
      Build.Runs (steps site) before growth later →
        Build.Grows site.render before later [] growth.page growth.bound)
    (nodes : changed.tree.nodes = render.tree.nodes.edit target label change)
    (regrows : (∀ name ∈ growth.bound.names, render.tree.next ≤ name.index) →
      Forest.Regrows (fun name => render.tree.next ≤ name.index) below (change below))
    (from_growth : ∀ name node inner, (change below).Has name node inner → below.Has name node inner ∨
      growth.bound.Has name node inner) :
    Endures spared world after id render changed := by
  obtain ⟨_, _, own⟩ := sound.renders id render progress.known
  obtain ⟨site, before, later, building, runs, _⟩ := built.runs
  have grown := grows site before later building runs
  have fresh : ∀ name ∈ growth.bound.names, render.tree.next ≤ name.index := fun name member =>
    building.next.trans (grown.makes.numbered name member).1
  have older : ∀ name node inner, Forest.Has render.tree.nodes name node inner →
      ¬ render.tree.next ≤ name.index := fun name _ _ there =>
    Nat.not_le.2 (own.numbered name there.mem)
  refine ⟨progress.known, progress.here, progress.same, progress.created, progress.documents,
    .of_edit own.distinct has relabelled kind (regrows fresh) nodes progress.numbering, ?_⟩
  intro name node member new dom holds
  obtain ⟨inner, found⟩ := Forest.has_iff_mem_entries.2 member
  rw [nodes] at found
  rcases Forest.has_edit found with ⟨former, there, _, _⟩ | ⟨sign, under, there, here | inside⟩
  · exact (older _ _ _ there new).elim
  · obtain ⟨rfl, _, _⟩ := here
    exact (older _ _ _ there new).elim
  · obtain ⟨rfl, rfl⟩ := there.unique own.distinct has
    rcases from_growth name node inner inside with old | comes
    · exact (older _ _ _ (has.trans old) new).elim
    · have planted : dom ∈ growth.page.names := by
        rw [← Forest.names_shape, grown.shape, BoundForest.mem_skeleton, BoundForest.mem_shown]
        exact ⟨_, comes.mem_entries, holds⟩
      exact fun given => grown.makes.fresh dom planted (building.places dom given)

theorem rebuild_endures (behaviour : Behaviour Client) (sound : world.Sound) (id : RenderId)
    (switch : BoundId) (spared : BoundId → Prop) : world.rebuild behaviour id switch = world ∨
      ∃ render changed, world.Progress (world.rebuild behaviour id switch) id render changed ∧
        Endures spared world (world.rebuild behaviour id switch) id render changed := by
  rcases rebuild_cases behaviour sound id switch with
    same | ⟨render, directive, _, _, _, scope, _, known, has⟩
  · exact .inl same
  obtain ⟨_, _, own⟩ := sound.renders id render known
  have inside : scope.model.index < world.data.models.next := own.scopes _ has.mem_entries
  obtain ⟨decision, _, ⟨unchanged, _⟩ | ⟨growth, changed, progress, nodes, built, _⟩⟩ :=
    rebuild_stages behaviour sound known has
  · exact .inl unchanged
  · refine .inr ⟨render, changed, progress,
      progress.endures sound has ⟨decision, rfl⟩ (.inl rfl) built ?_ nodes ?_ ?_⟩
    · intro site before later building runs
      exact (Site.content_grows (fun scope => site.view_grows _ scope)
        (body_grower site directive.body) runs building.sound
        (building.agrees.models.symm ▸ inside)).1
    · exact (Forest.regrows_keep (has.nodup own.distinct).of_cons _).append
    · intro name node inner found
      exact (Forest.has_append.1 found).imp_left Forest.has_keep

theorem splice_endures (behaviour : Behaviour Client) (sound : world.Sound) (id : RenderId)
    (list : BoundId) {change : Change} (refers : world.data.RefersIn change)
    (spared : BoundId → Prop) (touched : ¬ spared list) : world.splice behaviour id list change = world ∨
      ∃ render changed, world.Progress (world.splice behaviour id list change) id render changed ∧
        Endures spared world (world.splice behaviour id list change) id render changed := by
  rcases splice_cases behaviour sound id list change with
    same | ⟨render, collection, body, anchor, ledger, scope, below, known, has⟩
  · exact .inl same
  · obtain ⟨_, _, own⟩ := sound.renders id render known
    have inside : scope.model.index < world.data.models.next := own.scopes _ has.mem_entries
    have taken := change.gone_subset below.roots
    have separate := (has.nodup own.distinct).of_cons
    obtain ⟨growth, changed, progress, nodes, built, _⟩ :=
      splice_stages behaviour sound known has refers
    have same := BoundNode.exists_decided ⟨.list collection body, some anchor, ledger, scope⟩
    refine .inr ⟨render, changed, progress, progress.endures sound has (same.imp fun _ => Eq.symm)
      (.inr ⟨rfl, touched⟩) built ?_ nodes ?_ ?_⟩
    · intro site before later building runs
      exact Site.items_grows (body_grower site body) runs building.sound
        (building.agrees.models.symm ▸ inside) fun item member =>
          building.agrees.refers.2 (refers.fresh item member)
    · exact fun fresh => (Forest.regrows_without separate taken).insertAt fresh change.place
    · intro name node inner found
      exact (Forest.has_insertAt.1 found).imp_left (Forest.has_without_roots separate taken)

/-- A part of a render is told of a change, and only it and what is below it are concerned. -/
theorem tellChange_endures (behaviour : Behaviour Client) (sound : world.Sound) {change : Change}
    (refers : world.data.RefersIn change) {observer : ChangeObserver} {owner : BoundId}
    (own : (Observer.change observer).owner? = some (id, owner)) :
    world.tellChange behaviour change observer = world ∨
      ∃ render changed, world.Progress (world.tellChange behaviour change observer) id render changed ∧
        Endures (fun list => observer ≠ .splice id list) world
          (world.tellChange behaviour change observer) id render changed := by
  cases observer with
  | client hook => cases own
  | rebuild render content directive =>
      obtain ⟨rfl, rfl⟩ : render = id ∧ content = owner := by simpa [Observer.owner?] using own
      unfold tellChange
      dsimp only
      split
      · exact rebuild_endures behaviour sound render directive _
      · exact .inl rfl
  | splice render list =>
      obtain ⟨rfl, rfl⟩ : render = id ∧ list = owner := by simpa [Observer.owner?] using own
      exact splice_endures behaviour sound render list refers _ fun differs => differs rfl

/-! ## Whoever is registered is told -/

/-- Client code that announces nothing. -/
abbrev Rule.hush : Rule Client := fun _ _ _ _ => False

mutual

theorem Run.idle {pending : Notices} {world after : World Client} :
    Run Rule.hush pending world after → after.renders = world.renders ∧
      after.documents = world.documents
  | .done _ _ => ⟨rfl, rfl⟩
  | .next step rest =>
    ⟨rest.idle.1.trans step.idle.1, rest.idle.2.trans step.idle.2⟩

theorem Step.idle {pending : Notices} {world after : World Client} :
    Step Rule.hush pending world after → after.renders = world.renders ∧
      after.documents = world.documents
  | .set _ _ _ _ ruled => ruled.elim
  | .mutate _ _ _ _ ruled => ruled.elim
  | .subscribe .. | .subscribeChanges .. | .cancel _ | .addModel _ | .addCollection _ => ⟨rfl, rfl⟩
  | .other _ documents renders _ _ => ⟨renders, documents⟩

end

theorem Run.unmoved {pending : Notices} (run : Run Rule.hush pending world after) :
    (∀ id, after.render? id = world.render? id) ∧ ∀ place, after.document place = world.document place := by
  obtain ⟨renders, documents⟩ := run.idle
  constructor
  · intro id
    rw [render?, renders, render?]
  · intro place
    rw [document, documents, document]

section Telling

variable {behaviour : Behaviour Client} {collection : CollectionId} {change : Change}
  {pending entries : Notices}

/-- While whoever is registered is told of a change, a render endures. -/
theorem Telling.endures
    (telling : Telling Rule.hush behaviour (.change collection change) pending entries world)
    (sound : world.Sound) (refers : world.data.RefersIn change) (known : world.render? id = some render)
    (spares : ∀ subscription list, (subscription, .change (.splice id list)) ∈ entries → ¬ spared list) :
    ∃ changed, Endures spared world (announce behaviour (.change collection change) entries world) id
      render changed := by
  induction entries generalizing world render with
  | nil => exact ⟨render, .of_same sound known known fun _ => .refl _⟩
  | cons entry later induction =>
      obtain ⟨subscription, observer⟩ := entry
      have less := fun other list member => spares other list (List.mem_cons_of_mem _ member)
      cases telling with
      | passed gone rest =>
          rw [announce, if_neg (by simp [gone])]
          exact induction rest sound refers known less
      | client there free acts rest =>
          rw [announce, if_pos there]
          have first := acts.proceeds sound
          obtain ⟨renders, documents⟩ := acts.unmoved
          have here := (renders id).trans known
          have still : Endures spared world
              (world.receive behaviour (.change collection change) observer) id render render :=
            .of_same sound known here fun place => documents place ▸ .refl _
          obtain ⟨changed, second⟩ := induction rest first.sound
            (refers.mono first.models first.collections) here less
          exact ⟨changed, still.trans second⟩
      | render there own rest =>
          rw [announce, if_pos there]
          obtain ⟨⟨other, owner⟩, owned⟩ := Option.ne_none_iff_exists'.1 own
          cases observer with
          | value observer => exact induction rest sound refers known less
          | change observer =>
              have first := (tellChange_concerns behaviour sound refers owned).proceeds
              have further := refers.mono first.models first.collections
              change Telling Rule.hush behaviour _ pending later
                (world.tellChange behaviour change observer) at rest
              change ∃ changed, Endures spared world (announce behaviour _ later
                (world.tellChange behaviour change observer)) id render changed
              rcases tellChange_endures behaviour sound refers owned with
                same | ⟨another, current, progress, endures⟩
              · rw [same] at rest ⊢
                exact induction rest sound refers known less
              · by_cases differs : id = other
                · subst differs
                  obtain rfl := Option.some.inj (known.symm.trans progress.known)
                  have kept : Endures spared world (world.tellChange behaviour change observer) id
                      render current := by
                    apply endures.mono
                    rintro list kept rfl
                    exact spares subscription list List.mem_cons_self kept
                  obtain ⟨changed, second⟩ := induction rest first.sound further progress.here less
                  exact ⟨changed, kept.trans second⟩
                · have aside : Endures spared world (world.tellChange behaviour change observer) id
                      render render := progress.endures_aside sound known differs
                  obtain ⟨changed, second⟩ := induction rest first.sound further aside.here less
                  exact ⟨changed, aside.trans second⟩

/-- Whatever is to be told and belongs to a render belongs to one in another document. -/
def Elsewhere (world : World Client) (place : DocumentId) (entries : Notices) : Prop :=
  ∀ subscription observer id owner, (subscription, observer) ∈ entries →
    observer.owner? = some (id, owner) →
      ∃ render, world.render? id = some render ∧ render.document ≠ place

/-- If only renders in other documents are told of a change, nothing happens in a document. -/
theorem Telling.aside
    (telling : Telling Rule.hush behaviour (.change collection change) pending entries world)
    (sound : world.Sound) (refers : world.data.RefersIn change) (known : world.render? id = some render)
    (others : world.Elsewhere render.document entries) :
    (announce behaviour (.change collection change) entries world).render? id = some render ∧
      (announce behaviour (.change collection change) entries world).document render.document =
        world.document render.document := by
  induction entries generalizing world with
  | nil => exact ⟨known, rfl⟩
  | cons entry later induction =>
      obtain ⟨subscription, observer⟩ := entry
      have less := fun other observer id owner member =>
        others other observer id owner (List.mem_cons_of_mem _ member)
      cases telling with
      | passed gone rest =>
          rw [announce, if_neg (by simp [gone])]
          exact induction rest sound refers known less
      | client there free acts rest =>
          rw [announce, if_pos there]
          have first := acts.proceeds sound
          obtain ⟨renders, documents⟩ := acts.unmoved
          rw [← documents render.document]
          apply induction rest first.sound (refers.mono first.models first.collections)
            ((renders id).trans known)
          intro also observer other owner member owned
          rw [renders other]
          exact less also observer other owner member owned
      | render there own rest =>
          rw [announce, if_pos there]
          obtain ⟨⟨other, owner⟩, owned⟩ := Option.ne_none_iff_exists'.1 own
          cases observer with
          | value observer => exact induction rest sound refers known less
          | change observer =>
              have first := (tellChange_concerns behaviour sound refers owned).proceeds
              change Telling Rule.hush behaviour _ pending later
                (world.tellChange behaviour change observer) at rest
              change (announce behaviour _ later
                  (world.tellChange behaviour change observer)).render? id = _ ∧
                (announce behaviour _ later
                  (world.tellChange behaviour change observer)).document _ = _
              rcases tellChange_endures behaviour sound refers owned with
                same | ⟨another, current, progress, _⟩
              · rw [same] at rest ⊢
                exact induction rest sound refers known less
              · obtain ⟨third, stands, away⟩ := others _ _ _ _ List.mem_cons_self owned
                obtain rfl := Option.some.inj (progress.known.symm.trans stands)
                have differs : id ≠ other := by
                  rintro rfl
                  obtain rfl := Option.some.inj (known.symm.trans stands)
                  exact away rfl
                rw [← progress.elsewhere render.document (Ne.symm away)]
                apply induction rest first.sound (refers.mono first.models first.collections)
                  ((progress.there id differs).trans known)
                intro also observer next owner member owned
                by_cases again : next = other
                · subst again
                  exact ⟨current, progress.here, progress.same.document ▸ away⟩
                · rw [progress.there next again]
                  exact less also observer next owner member owned

/-- An announcement comes in two parts. -/
theorem Telling.split {rule : Rule Client} {news : News} {early later : Notices}
    (telling : Telling rule behaviour news pending (early ++ later) world) :
    Telling rule behaviour news (later ++ pending) early world ∧
      Telling rule behaviour news pending later (announce behaviour news early world) := by
  induction early generalizing world with
  | nil => exact ⟨.done world, telling⟩
  | cons entry further induction =>
      obtain ⟨subscription, observer⟩ := entry
      rw [List.cons_append] at telling
      rw [announce]
      cases telling with
      | passed gone rest =>
          obtain ⟨first, second⟩ := induction rest
          rw [if_neg (by simp [gone])]
          exact ⟨.passed gone first, second⟩
      | client there free acts rest =>
          obtain ⟨first, second⟩ := induction rest
          rw [if_pos there]
          rw [List.append_assoc] at acts
          exact ⟨.client there free acts first, second⟩
      | render there own rest =>
          obtain ⟨first, second⟩ := induction rest
          rw [if_pos there]
          exact ⟨.render there own first, second⟩

theorem announce_append (behaviour : Behaviour Client) (news : News) (early later : Notices)
    (world : World Client) : announce behaviour news (early ++ later) world =
      announce behaviour news later (announce behaviour news early world) := by
  induction early generalizing world with
  | nil => rfl
  | cons entry further induction =>
      rw [List.cons_append, announce, announce]
      split <;> exact induction _

end Telling

end World

end LiveTemplate
