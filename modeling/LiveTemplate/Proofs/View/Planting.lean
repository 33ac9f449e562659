import LiveTemplate.Proofs.Build.Constructs
import LiveTemplate.Proofs.View.Teardown

/-!
# Planting what has been built

What has been built for a render comes into its tree below one bound node and into its document
after one node.  If the two places agree, the world stays sound.
-/

namespace LiveTemplate

open BoundForest (account skeleton shown AllRegular)

namespace Render

variable {Client : Type} {id : RenderId} {render : Render} {document : Document}
  {before after : BuildState Client} {page : Forest NodeId NodeData} {bound : Bindings}

/-- New bound nodes are put among those below a live one. -/
theorem Sound.grafted {data : Data} {edited : Document} {parent : BoundId}
    {change : Bindings → Bindings} {created : List NodeId} (sound : render.Sound id data document)
    (dataSound : data.Sound) (grows : Build.Grows id before after [] page bound)
    (same : before.data = data) (next : before.nextBound = render.tree.next)
    (member : parent ∈ render.tree.nodes.names)
    (entries : ∀ below, (change below).entries.Perm (below.entries ++ bound.entries))
    (rooted : ∃ group element top below rest, Rooted
      { render with tree := ⟨render.tree.nodes.modifyUnder parent change, after.nextBound⟩, created }
      group element top below rest)
    (regular : AllRegular (render.tree.nodes.modifyUnder parent change))
    (mirrors : edited.Mirrors render.node created
      (skeleton (render.tree.nodes.modifyUnder parent change))) :
    Sound id
      { render with tree := ⟨render.tree.nodes.modifyUnder parent change, after.nextBound⟩, created }
      after.data edited := by
  subst same
  obtain ⟨node, below, has⟩ := Forest.exists_has member
  obtain ⟨front, back, whole, under, _, _⟩ := Forest.exists_split sound.distinct has
  have listed : (render.tree.nodes.modifyUnder parent change).entries.Perm
      (render.tree.nodes.entries ++ bound.entries) := by
    rw [under, whole]
    simp only [List.append_assoc, List.cons_append]
    refine List.Perm.append_left _ (List.Perm.cons _ ?_)
    refine ((entries below).append_right _).trans ?_
    rw [List.append_assoc]
    exact List.Perm.append_left _ List.perm_append_comm
  have names : (render.tree.nodes.modifyUnder parent change).names.Perm
      (render.tree.nodes.names ++ bound.names) := by
    simpa [Forest.names] using listed.map Prod.fst
  have accounts : (account (render.tree.nodes.modifyUnder parent change)).Perm
      (account render.tree.nodes ++ account bound) := by
    simpa [BoundForest.account] using listed.flatMap_right _
  refine ⟨?_, ?_, .inr rooted, regular, ?_, ?_, mirrors⟩
  · rw [names.nodup_iff, List.nodup_append']
    refine ⟨sound.distinct, grows.makes.numbersDistinct, fun name old new => ?_⟩
    have high := sound.numbered name old
    have low := (grows.makes.numbered name new).1
    omega
  · intro name inside
    have step := grows.makes.numbering
    rcases List.mem_append.1 (names.subset inside) with old | new
    · have high := sound.numbered name old
      exact high.trans_le (next ▸ step)
    · exact (grows.makes.numbered name new).2
  · intro entry inside
    rw [grows.agrees.models]
    rcases List.mem_append.1 (listed.subset inside) with old | new
    · exact sound.scopes entry old
    · exact grows.scopes entry new
  · have extended := sound.balanced.extended dataSound grows.makes.data
    rw [List.nil_append] at extended
    exact extended.perm accounts.symm

end Render

namespace World

variable {Client : Type} {world : World Client} {id : RenderId} {render : Render}

/-- Building starts from the same state for renders that differ only in their bound nodes. -/
theorem grow_congr {Result : Type} {behaviour : Behaviour Client} {current : Render}
    {steps : Site Client → Build Client Result} (document : render.document = current.document)
    (registry : render.registry = current.registry) (config : render.config = current.config)
    (next : render.tree.next = current.tree.next) :
    world.grow behaviour id render steps = world.grow behaviour id current steps := by
  simp only [grow, site, buildState, document, registry, config, next]

/-- What building has changed when its result is not used yet. -/
structure Grown {Result : Type} (behaviour : Behaviour Client) (world : World Client)
    (id : RenderId) (render : Render) (steps : Site Client → Build Client Result)
    (result : Result) (grown : World Client) (after : BuildState Client) : Prop where
  runs : Build.Runs (steps (world.site behaviour id render)) (world.buildState render) result after
  data : grown.data = after.data
  documents : grown.documents = world.documents.modify render.document.index fun document =>
    { document with places := after.places }
  renders : grown.renders = world.renders.modify id.index fun render =>
    { render with tree := { render.tree with next := after.nextBound } }
  registries : grown.registries = world.registries
  failures : grown.failures = world.failures

theorem exists_grown {Result : Type} (behaviour : Behaviour Client) (world : World Client)
    (id : RenderId) (render : Render) (steps : Site Client → Build Client Result) :
    ∃ after, Grown behaviour world id render steps (world.grow behaviour id render steps).1
      (world.grow behaviour id render steps).2 after :=
  ⟨_, rfl, rfl, rfl, rfl, rfl, rfl⟩

/-- What stays the same for the others when something is built for a render. -/
theorem Changes.of_grows {grown : World Client} {changed : Render} {document edited : Document}
    {after : BuildState Client} {page : Forest NodeId NodeData} {bound : Bindings}
    (sound : world.Sound) (known : world.render? id = some render)
    (stored : world.documents.get? render.document.index = some document)
    (grows : Build.Grows id (world.buildState render) after [] page bound)
    (own : changed.Sound id after.data edited) (data : grown.data = after.data)
    (tidy : edited.Sound)
    (aside : ∀ node created skeleton, render.created.Disjoint created →
      document.Mirrors node created skeleton → edited.Mirrors node created skeleton)
    (place : changed.document = render.document)
    (created : changed.created = render.created ++ page.names)
    (documents : grown.documents = world.documents.modify render.document.index fun _ => edited)
    (renders : grown.renders = world.renders.modify id.index fun _ => changed) :
    world.Changes grown id render changed document edited where
  known := known
  stored := stored
  data := data ▸ grows.sound sound.data
  models := data ▸ grows.agrees.models.ge
  others := fun other account differs balanced => data ▸ balanced.beside differs grows.makes.data
  owners := by
    intro subscription observer holds
    rw [data] at holds
    exact (grows.makes.data.made _ _ holds).imp_right fun ⟨owner, owned, _⟩ => ⟨owner, owned⟩
  tidy := tidy
  aside := aside
  place := place
  created := by
    intro node member
    rw [created] at member
    refine (List.mem_append.1 member).imp_right fun new => ?_
    have fresh := grows.makes.fresh node new
    rwa [buildState, document_eq stored] at fresh
  sound := data ▸ own
  documents := documents
  renders := renders

section Grown

variable {behaviour : Behaviour Client} {grown : World Client} {after : BuildState Client}
  {parent : BoundId}

/-- Bound nodes without document nodes come below any live node. -/
theorem Sound.graft {steps : Site Client → Build Client Bindings} {watches : Bindings}
    (sound : world.Sound) (known : world.render? id = some render)
    (run : Grown behaviour world id render steps watches grown after)
    (member : parent ∈ render.tree.nodes.names)
    (grows : Build.Grows id (world.buildState render) after [] .nil watches)
    (only : Site.OnlyWatches watches) :
    (grown.modifyTree id fun tree => tree.graft parent watches).Sound := by
  obtain ⟨document, stored, own⟩ := sound.renders id render known
  have documentSound := sound.documents _ _ stored
  have bare : skeleton watches = .nil := grows.shape.symm
  have issued : ∀ name, document.places.Issued name → after.places.Issued name := by
    intro name given
    rw [grows.makes.issued, buildState, document_eq stored]
    exact .inl given
  have rooted : ∃ group element top below rest, Render.Rooted
      { render with tree := ⟨render.tree.nodes.modifyUnder parent (· ++ watches), after.nextBound⟩
                    created := render.created } group element top below rest := by
    rcases own.rooted with none | ⟨group, element, top, below, rest, rooted⟩
    · simp [none] at member
    · obtain ⟨under, beside, found⟩ := rooted.graft parent bare after.nextBound render.created
      exact ⟨group, element, top, under, beside, found⟩
  have kept : ∀ below : Bindings, skeleton (below ++ watches) = skeleton below := by
    simp [bare]
  have regular : AllRegular (render.tree.nodes.modifyUnder parent (· ++ watches)) := by
    refine own.regular.modifyUnder (fun node below has => ⟨?_, ?_⟩) fun node below _ _ none => ?_
    · have here := Forest.Everywhere.at own.regular has
      cases kind : node.kind <;> simp only [BoundForest.Regular, kind, kept] at here ⊢
      case switch =>
          rw [Forest.crown_append, List.filter_append, only.filter_eq_nil, List.append_nil]
          exact here
      all_goals exact here
    · exact BoundForest.allRegular_append.2
        ⟨Forest.Everywhere.below own.regular has, grows.regular⟩
    · rw [kept, none]
  have mirrors : Document.Mirrors { document with places := after.places } render.node
      render.created (skeleton (render.tree.nodes.modifyUnder parent (· ++ watches))) := by
    rw [BoundForest.skeleton_modifyUnder_same fun _ below _ => kept below]
    exact own.mirrors.of_issued issued
  have changed := own.grafted sound.data grows rfl rfl member
    (fun below => by rw [Forest.entries_append]) rooted regular mirrors
  refine sound.of_changes (.of_grows sound known stored grows changed run.data
    (documentSound.of_issued issued) (fun _ _ _ _ mirrors => mirrors.of_issued issued) rfl
    (by simp) ?_ ?_)
  · exact run.documents.trans (Store.modify_congr stored rfl)
  · show grown.renders.modify _ _ = _
    rw [run.renders, Store.modify_modify]
    exact Store.modify_congr known rfl

/-- What has been built comes below a live directive or list, and its document nodes come after one
that belongs there. -/
theorem Sound.plant {steps : Site Client → Build Client Growth} {growth : Growth}
    {node : BoundNode Part} {below : Bindings} {reference : NodeId} (change : Bindings → Bindings)
    (sound : world.Sound) (known : world.render? id = some render)
    (run : Grown behaviour world id render steps growth grown after)
    (has : Forest.Has render.tree.nodes parent node below)
    (owns : node.dom.isSome = true) (kind : node.kind ≠ .element)
    (grows : Build.Grows id (world.buildState render) after [] growth.page growth.bound)
    (entries : ∀ below, (change below).entries.Perm (below.entries ++ growth.bound.entries))
    (regular : BoundForest.Regular node (change below) ∧ AllRegular (change below))
    (member : reference ∈ shown (.cons parent node below .nil))
    (placed : skeleton (.cons parent node (change below) .nil) =
      (skeleton (.cons parent node below .nil)).insertAfter reference (skeleton growth.bound)) :
    (grown.plant id render reference growth fun _ tree =>
      { tree with nodes := tree.nodes.modifyUnder parent change }).Sound := by
  obtain ⟨document, stored, own⟩ := sound.renders id render known
  have documentSound := sound.documents _ _ stored
  have single := own.shown_nodup documentSound
  obtain ⟨group, element, top, under, rest, rooted⟩ : ∃ group element top below rest,
      render.Rooted group element top below rest := by
    rcases own.rooted with none | rooted
    · simp [none] at has
      exact has.elim
    · exact rooted
  have inside := rooted.has_below has owns kind
  have places : (world.buildState render).places = document.places := by
    rw [buildState, document_eq stored]
  have issued := grows.makes.issued
  have fresh := grows.makes.fresh
  rw [places] at issued fresh
  have inSkeleton : reference ∈ (skeleton render.tree.nodes).names :=
    BoundForest.mem_skeleton.2 (BoundForest.shown_has_subset has member)
  have notRoot : reference ≠ render.node := by
    have deep : reference ∈ (skeleton under).names :=
      BoundForest.mem_skeleton.2 (BoundForest.shown_has_subset inside member)
    have distinct := own.mirrors.skeleton_nodup documentSound
    rw [rooted.skeleton_eq] at distinct
    rintro rfl
    exact (Forest.distinct_parts distinct).1 deep
  have inDocument := own.mirrors.subset documentSound inSkeleton
  have skeletons := BoundForest.skeleton_modifyUnder own.distinct single has member placed
  have mirrors := own.mirrors.grown documentSound issued fresh grows.makes.nodesDistinct inSkeleton
    notRoot
  rw [grows.shape, ← skeletons] at mirrors
  have allRegular : AllRegular (render.tree.nodes.modifyUnder parent change) := by
    refine own.regular.modifyUnder (fun other lower found => ?_) fun other lower found none => ?_
    · obtain ⟨rfl, rfl⟩ := has.unique own.distinct found
      exact regular
    · obtain ⟨rfl, _⟩ := has.unique own.distinct found
      simp [none] at owns
  have changed := own.grafted sound.data grows rfl rfl has.mem entries
    ⟨group, element, top, _, rest, rooted.modifyUnder_below own.distinct inside.mem change
      after.nextBound (render.created ++ growth.page.names)⟩ allRegular mirrors
  refine sound.of_changes (.of_grows sound known stored grows changed run.data
    (documentSound.grown issued fresh grows.makes.nodesDistinct
      (Forest.names_insertAfter_perm documentSound.distinct inDocument _))
    (fun _ _ _ apart aside => own.mirrors.grown_aside aside documentSound issued fresh
      grows.makes.nodesDistinct apart inSkeleton) rfl rfl ?_ ?_)
  · show grown.documents.modify _ _ = _
    rw [run.documents, Store.modify_modify]
    refine Store.modify_congr stored ?_
    simp [Document.placeAfter, Document.contains, Forest.contains_iff_mem.2 inDocument]
  · show grown.renders.modify _ _ = _
    rw [run.renders, Store.modify_modify]
    exact Store.modify_congr known rfl

end Grown

end World

end LiveTemplate
