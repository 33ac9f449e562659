import LiveTemplate.Proofs.Document.Edits
import LiveTemplate.Proofs.Document.Walks

/-!
# What becomes of nodes and listeners

However a document is edited, a node that has gone does not come back, and a listener that was added to a
node stays there, after those that were added before it.
-/

namespace LiveTemplate.Document

/-- A call that changes a document. -/
inductive Edit where
  | perform (operation : Operation)
  | listen (node : NodeId) (event : String) (listener : Listener)
  | setAttribute (node : NodeId) (name : String) (value : Option String)
  | setStyle (node : NodeId) (name : String) (value : Option String)
  | setText (node : NodeId) (content : String)

/-- The document after a call. -/
def edited (document : Document) : Edit → Document
  | .perform operation => document.perform operation
  | .listen node event listener => document.modify node (·.listen event listener)
  | .setAttribute node name value => document.modify node (·.setAttribute name value)
  | .setStyle node name value => document.modify node (·.setStyle name value)
  | .setText node content => document.modify node (·.setText content)

/-- A document at a later time.  Of the nodes that had been given out, none is there that was not there
before, and listeners have at most been added to them. -/
structure Continues (before after : Document) : Prop where
  sound : after.Sound
  issued : ∀ node, before.places.Issued node → after.places.Issued node
  known : ∀ node later, before.places.Issued node → after.data? node = some later →
    ∃ data, before.data? node = some data ∧ data.listeners <+: later.listeners

section Continues

variable {before middle after document : Document} {node : NodeId}

theorem Sound.continues (sound : document.Sound) : document.Continues document :=
  ⟨sound, fun _ => id, fun _ later _ there => ⟨later, there, List.prefix_rfl⟩⟩

theorem Continues.trans (first : before.Continues middle) (second : middle.Continues after) :
    before.Continues after where
  sound := second.sound
  issued := fun node issued => second.issued node (first.issued node issued)
  known := fun node later issued there => by
    obtain ⟨data, found, more⟩ := second.known node later (first.issued node issued) there
    obtain ⟨early, known, less⟩ := first.known node data issued found
    exact ⟨early, known, less.trans more⟩

/-- Who is there has been there. -/
theorem Continues.contains (continues : before.Continues after) (issued : before.places.Issued node)
    (there : after.contains node = true) : before.contains node = true := by
  rw [← isSome_data?] at there ⊢
  obtain ⟨later, found⟩ := Option.isSome_iff_exists.1 there
  obtain ⟨data, known, -⟩ := continues.known node later issued found
  rw [known]
  rfl

/-- Listeners for an event are heard in the order in which they were added. -/
theorem Continues.listenersFor (continues : before.Continues after) (sound : before.Sound)
    {data later : NodeData} (here : before.data? node = some data) (there : after.data? node = some later)
    (event : String) : data.listenersFor event <+: later.listenersFor event := by
  have present : before.contains node = true := by
    rw [← isSome_data?, here]
    rfl
  obtain ⟨_, known, more⟩ := continues.known node later (sound.issued node (contains_iff.1 present)) there
  obtain rfl := Option.some.inj (here.symm.trans known)
  exact (more.filter _).map Prod.snd

/-! ## Edits -/

/-- The same nodes hold the same, wherever they are put. -/
theorem continues_of_data (sound : after.Sound) (places : after.places = before.places)
    (data : ∀ node, after.data? node = before.data? node) : before.Continues after where
  sound := sound
  issued := fun _ issued => places ▸ issued
  known := fun node later _ there => ⟨later, data node ▸ there, List.prefix_rfl⟩

theorem Sound.continues_insert (sound : document.Sound) (data : NodeData) :
    document.Continues (document.insert data).2 where
  sound := sound.insert data
  issued := fun node issued => (document.places.issued_take_iff node).2 (.inl issued)
  known := fun node later issued there => by
    have differs : node ≠ (document.insert data).1 := by
      rintro rfl
      exact document.places.not_issued_next issued
    rw [((created_insert sound data).others node differs).1] at there
    exact ⟨later, there, List.prefix_rfl⟩

theorem Sound.continues_appendChild (sound : document.Sound) (parent node : NodeId) :
    document.Continues (document.appendChild parent node) := by
  cases missing : document.contains parent && document.contains node
  · rw [appendChild_missing missing]
    exact sound.continues
  · obtain ⟨above, present⟩ := Bool.and_eq_true_iff.1 missing
    cases outside : document.isWithin parent node
    · obtain ⟨also, moved, -⟩ := moved_appendChild sound above present outside
      refine continues_of_data also ?_ moved.data
      rw [appendChild_eq above present outside]
    · rw [Document.appendChild, outside, Bool.not_true, Bool.and_false]
      exact sound.continues

theorem Sound.continues_detach (sound : document.Sound) (node : NodeId) :
    document.Continues (document.detach node) := by
  cases present : document.contains node
  · rw [detach_missing present]
    exact sound.continues
  · exact continues_of_data (sound.detach node) rfl (moved_detach sound present).data

theorem Sound.continues_insertAfter (sound : document.Sound) (reference node : NodeId) :
    document.Continues (document.insertAfter reference node) := by
  cases missing : document.contains reference && document.contains node
  · rw [insertAfter_missing missing]
    exact sound.continues
  · obtain ⟨beside, present⟩ := Bool.and_eq_true_iff.1 missing
    by_cases same : reference = node
    · rw [Document.insertAfter, missing, if_pos rfl, if_pos same]
      exact sound.continues_detach node
    · cases outside : document.isWithin reference node
      · obtain ⟨also, moved, -⟩ := moved_insertAfter sound beside present same outside
        refine continues_of_data also ?_ moved.data
        rw [insertAfter_eq beside present same outside]
      · rw [Document.insertAfter, missing, if_pos rfl, if_neg same, outside]
        exact sound.continues

theorem Sound.continues_remove (sound : document.Sound) (node : NodeId) :
    document.Continues (document.remove node).2 := by
  cases present : document.contains node
  · rw [remove_missing present]
    exact sound.continues
  · have removed := removed_remove sound present
    refine ⟨sound.removeAll [node], fun other issued => ?_, fun other later _ there => ?_⟩
    · exact (Places.issued_vacateAll_iff ..).2 issued
    · have left : (document.remove node).2.contains other = true := by
        rw [← isSome_data?, there]
        rfl
      rw [removed.data other ((removed.gone other).1 left).2] at there
      exact ⟨later, there, List.prefix_rfl⟩

theorem Sound.continues_modify (sound : document.Sound) (target : NodeId) {change : NodeData → NodeData}
    (adds : ∀ data, data.listeners <+: (change data).listeners) :
    document.Continues (document.modify target change) where
  sound := sound.modify target change
  issued := fun _ => id
  known := fun node later _ there => by
    rw [data?_modify] at there
    split at there
    · obtain ⟨data, found, rfl⟩ := Option.map_eq_some_iff.1 there
      exact ⟨data, found, adds data⟩
    · exact ⟨later, there, List.prefix_rfl⟩

theorem listeners_setText (data : NodeData) (content : String) :
    (data.setText content).listeners = data.listeners := by
  unfold NodeData.setText
  split <;> rfl

/-- After any edit, it is the same document at a later time. -/
theorem Sound.continues_edited (sound : document.Sound) (edit : Edit) :
    document.Continues (document.edited edit) := by
  cases edit with
  | perform operation =>
      cases operation with
      | insert data => exact sound.continues_insert data
      | insertChild parent data =>
          exact (sound.continues_insert data).trans
            ((sound.insert data).continues_appendChild parent _)
      | appendChild parent node => exact sound.continues_appendChild parent node
      | insertAfter reference node => exact sound.continues_insertAfter reference node
      | detach node => exact sound.continues_detach node
      | remove node => exact sound.continues_remove node
  | listen node event listener => exact sound.continues_modify node fun _ => List.prefix_append ..
  | setAttribute node name value => exact sound.continues_modify node fun _ => List.prefix_rfl
  | setStyle node name value => exact sound.continues_modify node fun _ => List.prefix_rfl
  | setText node content =>
      exact sound.continues_modify node fun data =>
        (listeners_setText data content).symm ▸ List.prefix_rfl

end Continues

/-! ## The way of an event -/

section Path

variable {document : Document} {target node : NodeId}

theorem nodup_ancestors {forest : Forest NodeId NodeData} (distinct : forest.names.Nodup) :
    (forest.ancestors node).Nodup := by
  induction forest with
  | nil => exact .nil
  | cons first label children rest inside beside =>
      obtain ⟨above, -, distinctInside, distinctBeside, -⟩ := Forest.distinct_parts distinct
      by_cases here : first = node
      · rw [here, Forest.ancestors_self]
        exact .nil
      · by_cases within : node ∈ children.names
        · rw [Forest.ancestors_inside here within, List.nodup_append']
          refine ⟨inside distinctInside, List.nodup_singleton first, fun upper member same => ?_⟩
          obtain rfl := List.mem_singleton.1 same
          obtain ⟨_, _, has, _⟩ := (Forest.mem_ancestors distinctInside).1 member
          exact above has.mem
        · rw [Forest.ancestors_beside here within]
          exact beside distinctBeside

/-- An event passes a node once at most, and all of its way is in the document. -/
theorem Sound.bubblePath (sound : document.Sound) (target : NodeId) :
    (document.bubblePath target).Nodup ∧
      ∀ node ∈ document.bubblePath target, document.contains node = true := by
  rw [Document.bubblePath]
  split
  · rename_i present
    have above : ∀ node ∈ document.ancestors target, ∃ label below,
        document.nodes.Has node label below ∧ target ∈ below.names := fun node member =>
      (Forest.mem_ancestors sound.distinct).1 member
    refine ⟨List.nodup_cons.2 ⟨fun member => ?_, nodup_ancestors sound.distinct⟩,
      List.forall_mem_cons.2 ⟨present, fun node member => ?_⟩⟩
    · obtain ⟨_, below, has, inside⟩ := above target member
      exact (List.nodup_cons.1 (has.nodup sound.distinct)).1 inside
    · obtain ⟨_, _, has, _⟩ := above node member
      exact contains_iff.2 has.mem
  · exact ⟨.nil, nofun⟩

end Path

end LiveTemplate.Document
