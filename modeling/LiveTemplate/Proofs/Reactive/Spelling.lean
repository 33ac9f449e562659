import LiveTemplate.Reactive.Value
import Mathlib.Data.List.Nodup
import Mathlib.Data.List.Perm.Subperm
import Mathlib.Data.List.Range
import Mathlib.Logic.Relation

/-!
# Spelling values

The text of a value is spelled by going into lists and collections, however deep they are in each
other.  This comes to an end exactly where no collection contains itself; there the texts that are
shown are the ones that are spelled, since no chain of collections is longer than their number.
-/

namespace LiveTemplate

/-- The text of a value, spelled to the end. -/
inductive Value.Spells (contents : Contents) : Value → String → Prop where
  | null : Spells contents .null ""
  | bool (value : Bool) : Spells contents (.bool value) (if value then "true" else "false")
  | number (value : Float) : Spells contents (.number value) (Decimal.plain value)
  | text (value : String) : Spells contents (.text value) value
  | model (id : ModelId) : Spells contents (.model id) ""
  | list {items : List Value} {texts : List String}
      (all : List.Forall₂ (Spells contents) items texts) :
      Spells contents (.list items) (",".intercalate texts)
  | collection {id : CollectionId} {texts : List String}
      (all : List.Forall₂ (Spells contents) (contents.items id) texts) :
      Spells contents (.collection id) (",".intercalate texts)

mutual

/-- The collections in a value, also in the lists in it. -/
def Value.collections : Value → List CollectionId
  | .collection id => [id]
  | .list items => collectionsOf items
  | _ => []

/-- The collections in a sequence of values. -/
def Value.collectionsOf : List Value → List CollectionId
  | [] => []
  | item :: later => item.collections ++ collectionsOf later

end

namespace Contents

/-- One collection contains another, directly or in a list. -/
def Contains (contents : Contents) (outer inner : CollectionId) : Prop :=
  inner ∈ Value.collectionsOf (contents.items outer)

/-- No collection contains itself, directly or through lists and other collections. -/
def Acyclic (contents : Contents) : Prop :=
  ∀ id, ¬ Relation.TransGen contents.Contains id id

section Spelling

variable {contents : Contents} {collectionText : CollectionId → String}

mutual

/-- If the collections in a value are spelled, so is the value. -/
theorem textWith_spells : ∀ value : Value,
    (∀ id ∈ value.collections, (Value.collection id).Spells contents (collectionText id)) →
      value.Spells contents (value.textWith collectionText)
  | .null, _ => .null
  | .bool value, _ => .bool value
  | .number value, _ => .number value
  | .text value, _ => .text value
  | .list items, known => .list (textsWith_spells items known)
  | .model id, _ => .model id
  | .collection id, known => known id (List.mem_singleton_self id)

theorem textsWith_spells : ∀ items : List Value,
    (∀ id ∈ Value.collectionsOf items, (Value.collection id).Spells contents (collectionText id)) →
      List.Forall₂ (Value.Spells contents) items (Value.textsWith collectionText items)
  | [], _ => .nil
  | item :: later, known =>
    .cons (textWith_spells item fun id member => known id (List.mem_append_left _ member))
      (textsWith_spells later fun id member => known id (List.mem_append_right _ member))

end

theorem items_of_absent {id : CollectionId} (absent : contents.lists.size ≤ id.index) :
    contents.items id = [] := by
  rw [items, Array.getElem?_eq_none absent, Option.getD_none]

/-- Different collections that exist are no more than there are. -/
theorem length_le_size {ids : List CollectionId} (distinct : ids.Nodup)
    (exist : ∀ id ∈ ids, id.index < contents.lists.size) : ids.length ≤ contents.lists.size := by
  have numbers : (ids.map CollectionId.index).Nodup := by
    refine List.Nodup.map (fun one other same => ?_) distinct
    cases one
    cases other
    exact congrArg CollectionId.mk same
  have within : ids.map CollectionId.index ⊆ List.range contents.lists.size := by
    intro number member
    obtain ⟨id, listed, rfl⟩ := List.mem_map.1 member
    exact List.mem_range.2 (exist id listed)
  simpa using (List.subperm_of_subset numbers within).length_le

/-- A collection is spelled if the levels and the collections around it are as many as there are. -/
theorem collectionText_spells (acyclic : contents.Acyclic) {levels : Nat} {id : CollectionId}
    {around : List CollectionId} (distinct : around.Nodup)
    (exist : ∀ outer ∈ around, outer.index < contents.lists.size)
    (contain : ∀ outer ∈ around, Relation.TransGen contents.Contains outer id)
    (enough : contents.lists.size ≤ around.length + levels) :
    (Value.collection id).Spells contents (contents.collectionText levels id) := by
  induction levels generalizing id around with
  | zero =>
      -- There is no room for one more collection, so that this one does not exist.
      have absent : contents.lists.size ≤ id.index := by
        by_contra there
        have longer := length_le_size
          (List.nodup_cons.2 ⟨fun member => acyclic id (contain id member), distinct⟩)
          (List.forall_mem_cons.2 ⟨not_le.1 there, exist⟩)
        rw [List.length_cons] at longer
        omega
      have spelled : (Value.collection id).Spells contents (",".intercalate []) := by
        apply Value.Spells.collection
        rw [items_of_absent absent]
        exact .nil
      exact spelled
  | succ levels induction =>
      refine .collection (textsWith_spells _ fun inner member => ?_)
      have contains : Relation.TransGen contents.Contains id inner := .single member
      have here : id.index < contents.lists.size := by
        by_contra absent
        rw [items_of_absent (not_lt.1 absent)] at member
        cases member
      have deeper : (id :: around).Nodup :=
        List.nodup_cons.2 ⟨fun member => acyclic id (contain id member), distinct⟩
      apply induction deeper
      · exact List.forall_mem_cons.2 ⟨here, exist⟩
      · exact List.forall_mem_cons.2 ⟨contains, fun outer listed => (contain outer listed).trans contains⟩
      · rw [List.length_cons]
        omega

/-- Where no collection contains itself, every text is spelled to its end. -/
theorem displayText_spells (acyclic : contents.Acyclic) (value : Value) :
    value.Spells contents (value.displayText contents) :=
  textWith_spells value fun _ _ =>
    collectionText_spells acyclic .nil nofun nofun (by simp)

end Spelling

end Contents

end LiveTemplate
