import LiveTemplate.Proofs.Forest.Graft

/-!
# Exchanging parts of a forest

A node may get another label and other trees below it at the same time; and trees may be kept or
dropped as a whole, by the labels of their roots.
-/

namespace LiveTemplate.Forest

variable {Name Label : Type} [DecidableEq Name]

/-- Change the label of the named node and what is below it. -/
def edit (forest : Forest Name Label) (target : Name) (label : Label → Label)
    (change : Forest Name Label → Forest Name Label) : Forest Name Label :=
  match forest with
  | nil => nil
  | cons name mark children rest =>
    if name = target then cons name (label mark) (change children) (rest.edit target label change)
    else cons name mark (children.edit target label change) (rest.edit target label change)

theorem edit_eq {forest : Forest Name Label} (distinct : forest.names.Nodup) (target : Name)
    (label : Label → Label) (change : Forest Name Label → Forest Name Label) :
    (forest.modify target label).modifyUnder target change = forest.edit target label change := by
  induction forest with
  | nil => rfl
  | cons name mark children rest below beside =>
      obtain ⟨notBelow, _, inside, outside, _⟩ := distinct_parts distinct
      by_cases here : name = target
      · subst here
        simp [modify, Forest.modifyUnder, edit, modify_eq_self notBelow, beside outside]
      · simp [modify, Forest.modifyUnder, edit, here, below inside, beside outside]

theorem edit_same (forest : Forest Name Label) (target : Name) :
    forest.edit target (fun mark => mark) (fun below => below) = forest := by
  induction forest with
  | nil => rfl
  | cons name mark children rest below beside => simp [edit, below, beside]

theorem modifyUnder_eq_edit (forest : Forest Name Label) (target : Name)
    (change : Forest Name Label → Forest Name Label) :
    forest.modifyUnder target change = forest.edit target (fun mark => mark) change := by
  induction forest with
  | nil => rfl
  | cons name mark children rest below beside =>
      by_cases here : name = target <;> simp [Forest.modifyUnder, edit, here, below, beside]

theorem modify_eq_edit {forest : Forest Name Label} (distinct : forest.names.Nodup) (target : Name)
    (label : Label → Label) : forest.modify target label = forest.edit target label fun below => below := by
  rw [← edit_eq distinct, modifyUnder_eq_edit, edit_same]

/-- Two exchanges at one node come to one. -/
theorem edit_edit (forest : Forest Name Label) (target : Name) (first second : Label → Label)
    (change also : Forest Name Label → Forest Name Label) :
    (forest.edit target first change).edit target second also =
      forest.edit target (second ∘ first) (also ∘ change) := by
  induction forest with
  | nil => rfl
  | cons name mark children rest below beside =>
      by_cases here : name = target <;> simp [edit, here, below, beside]

/-- Only what stands at the node counts. -/
theorem edit_congr {forest below : Forest Name Label} {target : Name} {mark : Label}
    (distinct : forest.names.Nodup) (has : forest.Has target mark below) {first second : Label → Label}
    {change also : Forest Name Label → Forest Name Label} (labels : first mark = second mark)
    (changes : change below = also below) :
    forest.edit target first change = forest.edit target second also := by
  induction forest with
  | nil => rfl
  | cons name sign children rest inside beside =>
      obtain ⟨notBelow, notBeside, distinctInside, distinctBeside, apart⟩ := distinct_parts distinct
      have absent : ∀ {trees : Forest Name Label}, target ∉ trees.names →
          trees.edit target first change = trees.edit target second also := by
        intro trees
        induction trees with
        | nil => exact fun _ => rfl
        | cons other sign children rest below beside =>
            intro nowhere
            simp only [names_cons, List.mem_cons, List.mem_append, not_or] at nowhere
            obtain ⟨differs, notBelow, notBeside⟩ := nowhere
            simp [edit, Ne.symm differs, below notBelow, beside notBeside]
      rcases has with ⟨rfl, rfl, rfl⟩ | found | found
      · simp [edit, labels, changes, absent notBeside]
      · have differs : name ≠ target := fun same => notBelow (same ▸ found.mem)
        simp [edit, differs, inside distinctInside found, absent fun other => apart found.mem other]
      · have differs : name ≠ target := fun same => notBeside (same ▸ found.mem)
        simp [edit, differs, beside distinctBeside found, absent fun other => apart other found.mem]

/-- Taking nodes out below a node. -/
theorem without_eq_edit {forest below : Forest Name Label} {target : Name} {label : Label}
    {gone : List Name} (distinct : forest.names.Nodup) (has : forest.Has target label below)
    (inside : gone ⊆ below.names) :
    forest.without gone = forest.edit target (fun mark => mark) (·.without gone) := by
  induction forest with
  | nil => rfl
  | cons name mark children rest inner beside =>
      obtain ⟨notBelow, notBeside, distinctInside, distinctBeside, apart⟩ := distinct_parts distinct
      rcases has with ⟨rfl, rfl, rfl⟩ | found | found
      · have spared : name ∉ gone := fun member => notBelow (inside member)
        have kept : rest.without gone = rest :=
          without_eq_self fun other member lost => apart (inside lost) member
        rw [← modifyUnder_eq_edit, Forest.modifyUnder, if_pos rfl, modifyUnder_eq_self notBeside]
        simp [without, spared, kept]
      · have deep : gone ⊆ children.names := fun other member =>
          found.sublist.subset (List.mem_cons_of_mem _ (inside member))
        have differs : name ≠ target := fun same => notBelow (same ▸ found.mem)
        have spared : name ∉ gone := fun member => notBelow (deep member)
        have kept : rest.without gone = rest :=
          without_eq_self fun other member lost => apart (deep lost) member
        rw [edit, if_neg differs, ← inner distinctInside found, ← modifyUnder_eq_edit,
          modifyUnder_eq_self fun other => apart found.mem other]
        simp [without, spared, kept]
      · have deep : gone ⊆ rest.names := fun other member =>
          found.sublist.subset (List.mem_cons_of_mem _ (inside member))
        have differs : name ≠ target := fun same => notBeside (same ▸ found.mem)
        have spared : name ∉ gone := fun member => notBeside (deep member)
        have kept : children.without gone = children :=
          without_eq_self fun other member lost => apart member (deep lost)
        rw [edit, if_neg differs, ← beside distinctBeside found, ← modifyUnder_eq_edit,
          modifyUnder_eq_self fun other => apart other found.mem]
        simp [without, spared, kept]

/-- An exchange leaves alone what is not below the node. -/
theorem mem_entries_edit {forest : Forest Name Label} {target name : Name} {mark : Label}
    (label : Label → Label) (change : Forest Name Label → Forest Name Label) (apart : name ≠ target)
    (member : (name, mark) ∈ (forest.modifyUnder target fun _ => nil).entries) :
    (name, mark) ∈ (forest.edit target label change).entries := by
  induction forest with
  | nil => cases member
  | cons first sign children rest below beside =>
      simp only [Forest.modifyUnder, entries, List.mem_cons, List.mem_append, Prod.mk.injEq] at member
      by_cases here : first = target
      · simp only [if_pos here, entries, List.not_mem_nil, false_or] at member
        simp only [edit, if_pos here, entries, List.mem_cons, List.mem_append]
        rcases member with ⟨rfl, _⟩ | later
        · exact (apart here).elim
        · exact .inr (.inr (beside later))
      · simp only [if_neg here] at member
        simp only [edit, if_neg here, entries, List.mem_cons, List.mem_append, Prod.mk.injEq]
        exact member.imp_right fun inner => inner.imp below beside

theorem Has.edit {forest below : Forest Name Label} {target : Name} {mark : Label}
    (distinct : forest.names.Nodup) (has : forest.Has target mark below) (label : Label → Label)
    (change : Forest Name Label → Forest Name Label) :
    (forest.edit target label change).Has target (label mark) (change below) := by
  induction forest with
  | nil => exact has.elim
  | cons first sign children rest inner beside =>
      obtain ⟨notBelow, notBeside, distinctInside, distinctBeside, _⟩ := distinct_parts distinct
      rcases has with ⟨rfl, rfl, rfl⟩ | found | found
      · rw [Forest.edit, if_pos rfl]
        exact .inl ⟨rfl, rfl, rfl⟩
      · have differs : first ≠ target := fun same => notBelow (same ▸ found.mem)
        rw [Forest.edit, if_neg differs]
        exact .inr (.inl (inner distinctInside found))
      · have differs : first ≠ target := fun same => notBeside (same ▸ found.mem)
        rw [Forest.edit, if_neg differs]
        exact .inr (.inr (beside distinctBeside found))

/-- What is not below a node was there and is not below it. -/
theorem apart_of_mem_entries {forest below : Forest Name Label} {target name : Name}
    {label mark : Label} (distinct : forest.names.Nodup) (has : forest.Has target label below)
    (member : (name, mark) ∈ (forest.modifyUnder target fun _ => nil).entries) :
    (name, mark) ∈ forest.entries ∧ name ∉ below.names := by
  obtain ⟨front, back, whole, under, _, _⟩ := exists_split distinct has
  rw [under] at member
  rw [whole]
  have names : (front.map Prod.fst ++ target :: (below.names ++ back.map Prod.fst)).Nodup := by
    have listed := distinct
    rw [names, whole] at listed
    simpa [names] using listed
  rw [List.nodup_append', List.nodup_cons, List.nodup_append'] at names
  obtain ⟨_, ⟨notBelow, _, _, back_⟩, front_⟩ := names
  simp only [entries, List.mem_append, List.mem_cons, List.not_mem_nil, or_false] at member ⊢
  rcases member with early | here | late
  · refine ⟨.inl early, fun inside => front_ (List.mem_map_of_mem early) ?_⟩
    simp [inside]
  · obtain ⟨rfl, rfl⟩ := Prod.mk.inj here
    exact ⟨.inr (.inl (.inl rfl)), fun inside => notBelow (by simp [inside])⟩
  · exact ⟨.inr (.inr late), fun inside => back_ inside (List.mem_map_of_mem late)⟩

/-- What was there and is not below a node is apart from it. -/
theorem mem_entries_apart {forest below : Forest Name Label} {target name : Name}
    {label mark : Label} (distinct : forest.names.Nodup) (has : forest.Has target label below)
    (member : (name, mark) ∈ forest.entries) (outside : name ∉ below.names) :
    (name, mark) ∈ (forest.modifyUnder target fun _ => nil).entries := by
  obtain ⟨front, back, whole, under, _, _⟩ := exists_split distinct has
  rw [whole] at member
  rw [under]
  simp only [entries, List.mem_append, List.mem_cons, List.not_mem_nil, or_false] at member ⊢
  rcases member with early | (here | inside) | late
  · exact .inl early
  · exact .inr (.inl here)
  · exact (outside (List.mem_map_of_mem inside)).elim
  · exact .inr (.inr late)

/-- Keep the trees whose roots have a property. -/
def keep (forest : Forest Name Label) (kept : Label → Bool) : Forest Name Label :=
  match forest with
  | nil => nil
  | cons name mark children rest =>
    if kept mark then cons name mark children (rest.keep kept) else rest.keep kept

omit [DecidableEq Name] in
theorem crown_keep (forest : Forest Name Label) (kept : Label → Bool) :
    (forest.keep kept).crown = forest.crown.filter fun entry => kept entry.2 := by
  induction forest with
  | nil => rfl
  | cons name mark children rest _ beside =>
      by_cases here : kept mark = true <;> simp [keep, crown, here, beside]

omit [DecidableEq Name] in
theorem mem_entries_keep {forest : Forest Name Label} (kept : Label → Bool) {entry : Name × Label}
    (member : entry ∈ forest.entries) :
    entry ∈ (forest.keep kept).entries ∨ entry ∈ (forest.keep fun mark => !kept mark).entries := by
  induction forest with
  | nil => cases member
  | cons name mark children rest _ beside =>
      simp only [entries, List.mem_cons, List.mem_append] at member
      by_cases here : kept mark = true
      · simp only [keep, here, if_true, entries, List.mem_cons, List.mem_append]
        rcases member with same | inside | later
        · exact .inl (.inl same)
        · exact .inl (.inr (.inl inside))
        · exact (beside later).imp (fun found => .inr (.inr found)) (by simp)
      · simp only [keep, here, Bool.not_false, if_true, entries, List.mem_cons, List.mem_append]
        rcases member with same | inside | later
        · exact .inr (.inl same)
        · exact .inr (.inr (.inl inside))
        · exact (beside later).imp (by simp) fun found => .inr (.inr found)

omit [DecidableEq Name] in
theorem keep_entries_sublist (forest : Forest Name Label) (kept : Label → Bool) :
    (forest.keep kept).entries.Sublist forest.entries := by
  induction forest with
  | nil => exact .slnil
  | cons name mark children rest _ beside =>
      simp only [keep]
      split
      · exact (beside.append_left _).cons_cons _
      · exact (beside.trans (List.sublist_append_right _ _)).cons _

omit [DecidableEq Name] in
theorem keep_entries_subset (forest : Forest Name Label) (kept : Label → Bool) :
    (forest.keep kept).entries ⊆ forest.entries :=
  (forest.keep_entries_sublist kept).subset

/-- Taking away the roots that lack a property. -/
theorem without_eq_keep {forest : Forest Name Label} (distinct : forest.names.Nodup)
    (kept : Label → Bool) :
    forest.without ((forest.crown.filter fun entry => !kept entry.2).map Prod.fst) =
      forest.keep kept := by
  have general : ∀ gone : List Name,
      (∀ entry ∈ forest.crown, entry.1 ∈ gone ↔ kept entry.2 = false) →
      (∀ name ∈ forest.names, name ∉ forest.roots → name ∉ gone) →
      forest.without gone = forest.keep kept := by
    induction forest with
    | nil => intros; rfl
    | cons name mark children rest _ beside =>
        intro gone crowned inner
        obtain ⟨notBelow, notBeside, inside, outside, apart⟩ := distinct_parts distinct
        have later : rest.without gone = rest.keep kept := by
          apply beside outside
          · intro entry member
            exact crowned entry (List.mem_cons_of_mem _ member)
          · intro other member notRoot
            apply inner other (by simp [member])
            intro root
            rcases List.mem_cons.1 root with rfl | beyond
            · exact notBeside member
            · exact notRoot beyond
        have here := crowned (name, mark) (by simp [crown])
        by_cases spared : kept mark = true
        · have left : name ∉ gone := fun member => by simp [here.1 member] at spared
          have whole : children.without gone = children := by
            apply without_eq_self
            intro other member
            apply inner other (by simp [member])
            intro root
            rcases List.mem_cons.1 root with rfl | beyond
            · exact notBelow member
            · exact apart member (roots_subset_names _ beyond)
          simp [without, keep, left, spared, whole, later]
        · have lost : name ∈ gone := here.2 (by simpa using spared)
          simp [without, keep, lost, spared, later]
  apply general
  · rintro ⟨name, mark⟩ member
    constructor
    · intro listed
      obtain ⟨⟨other, sign⟩, found, rfl⟩ := List.mem_map.1 listed
      obtain ⟨crowned, lacks⟩ := List.mem_filter.1 found
      obtain ⟨below, has⟩ := has_iff_mem_entries.2 (crown_subset_entries _ member)
      obtain ⟨under, also⟩ := has_iff_mem_entries.2 (crown_subset_entries _ crowned)
      obtain ⟨rfl, _⟩ := has.unique distinct also
      simpa using lacks
    · intro lacks
      exact List.mem_map.2 ⟨_, List.mem_filter.2 ⟨member, by simpa using lacks⟩, rfl⟩
  · intro name _ notRoot listed
    obtain ⟨entry, found, rfl⟩ := List.mem_map.1 listed
    apply notRoot
    rw [← map_fst_crown]
    exact List.mem_map_of_mem (List.mem_filter.1 found).1

end LiveTemplate.Forest
