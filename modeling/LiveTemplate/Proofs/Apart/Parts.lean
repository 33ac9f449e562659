import LiveTemplate.Document.Html
import LiveTemplate.Proofs.Apart.Ties
import LiveTemplate.Proofs.Forest.Matching
import LiveTemplate.Proofs.Reactive.Registration
import LiveTemplate.View.Build

/-!
# Parts of two worlds that match

What is built in two worlds matches if it is the same but for names, and names stand for each other.
What is read off such parts matches, too.
-/

namespace LiveTemplate

theorem Option.Rel.or {First Second : Type} {related : First → Second → Prop}
    {one later : Option First} {other last : Option Second} (here : Option.Rel related one other)
    (there : Option.Rel related later last) :
    Option.Rel related (one.or later) (other.or last) := by
  cases here with
  | some related => exact .some related
  | none => exact there

theorem Option.Rel.imp {First Second : Type} {related after : First → Second → Prop}
    {one : Option First} {other : Option Second} (here : Option.Rel related one other)
    (imp : ∀ first second, related first second → after first second) :
    Option.Rel after one other := by
  cases here with
  | some same => exact .some (imp _ _ same)
  | none => exact .none

theorem some_or_none {First Second : Type} {related : First → Second → Prop}
    {one : Option First} {other : Option Second} (all : Option.Rel related one other) :
    (∃ first second, one = some first ∧ other = some second ∧ related first second) ∨
      one = none ∧ other = none := by
  cases all with
  | some same => exact .inl ⟨_, _, rfl, rfl, same⟩
  | none => exact .inr ⟨rfl, rfl⟩

theorem Option.Rel.isSome_eq {First Second : Type} {related : First → Second → Prop}
    {one : Option First} {other : Option Second} (here : Option.Rel related one other) :
    one.isSome = other.isSome := by
  cases here <;> rfl

theorem toList_forall₂ {First Second : Type} {related : First → Second → Prop}
    {one : Option First} {other : Option Second} (here : Option.Rel related one other) :
    List.Forall₂ related one.toList other.toList := by
  cases here with
  | some same => exact .cons same .nil
  | none => exact .nil

variable {links later : Links}

/-! ## Document nodes -/

/-- Listeners that do the same. -/
inductive Listener.Matches (links : Links) : Listener → Listener → Prop where
  | client (hook : Hook) : Matches links (.client hook) (.client hook)
  | action {one other : RenderId} (render : links.renders one other) (owner : BoundId) (slot : Nat) :
      Matches links (.action one owner slot) (.action other owner slot)

theorem Listener.Matches.mono {first second : Listener} (same : first.Matches links second)
    (grow : links ≤ later) : first.Matches later second := by
  cases same with
  | client hook => exact .client hook
  | action render owner slot => exact .action (grow.renders _ _ render) owner slot

/-- Data that differs in the names of renders only. -/
structure NodeData.Matches (links : Links) (first second : NodeData) : Prop where
  kind : first.kind = second.kind
  attributes : first.attributes = second.attributes
  styles : first.styles = second.styles
  listeners : List.Forall₂ (fun one other => one.1 = other.1 ∧ one.2.Matches links other.2)
    first.listeners second.listeners

namespace NodeData.Matches

variable {first second : NodeData}

theorem mono (all : first.Matches links second) (grow : links ≤ later) :
    first.Matches later second where
  kind := all.kind
  attributes := all.attributes
  styles := all.styles
  listeners := all.listeners.imp fun _ _ same => ⟨same.1, same.2.mono grow⟩

theorem of_kind (links : Links) (kind : NodeKind) :
    NodeData.Matches links { kind } { kind } :=
  ⟨rfl, rfl, rfl, .nil⟩

theorem setAttribute (all : first.Matches links second) (name : String) (value : Option String) :
    (first.setAttribute name value).Matches links (second.setAttribute name value) :=
  ⟨all.kind, by simp only [NodeData.setAttribute, all.attributes], all.styles, all.listeners⟩

theorem setStyle (all : first.Matches links second) (name : String) (value : Option String) :
    (first.setStyle name value).Matches links (second.setStyle name value) :=
  ⟨all.kind, all.attributes, by simp only [NodeData.setStyle, all.styles], all.listeners⟩

theorem setText (all : first.Matches links second) (content : String) :
    (first.setText content).Matches links (second.setText content) := by
  unfold NodeData.setText
  rw [← all.kind]
  split
  · exact ⟨rfl, all.attributes, all.styles, all.listeners⟩
  · exact all

theorem showing (all : first.Matches links second) (display : Display) (contents : Contents)
    (value : Value) : (display.show contents value first).Matches links
      (display.show contents value second) := by
  cases display with
  | «attribute» name => exact all.setAttribute name _
  | style name => exact all.setStyle name _
  | text => exact all.setText _

theorem listen (all : first.Matches links second) (event : String) {one other : Listener}
    (same : one.Matches links other) : (first.listen event one).Matches links
      (second.listen event other) :=
  ⟨all.kind, all.attributes, all.styles, List.rel_append all.listeners (.cons ⟨rfl, same⟩ .nil)⟩

theorem listenersFor (all : first.Matches links second) (event : String) :
    List.Forall₂ (Listener.Matches links) (first.listenersFor event) (second.listenersFor event) := by
  refine List.rel_map (fun _ _ same => same.2) (List.rel_filter (fun one other same => ?_) all.listeners)
  dsimp only
  rw [same.1]

end NodeData.Matches

/-- Pieces of document that match. -/
abbrev Page.Matches (links : Links) (first second : Forest NodeId NodeData) : Prop :=
  Forest.Matches links.nodes (NodeData.Matches links) (fun _ => False) first second

theorem Page.Matches.mono {first second : Forest NodeId NodeData}
    (all : Page.Matches links first second) (grow : links ≤ later) :
    Page.Matches later first second :=
  Forest.Matches.mono all grow.nodes (fun _ _ same => same.mono grow) fun _ => id

theorem Page.Matches.written_eq {first second : Forest NodeId NodeData}
    (all : Page.Matches links first second) : Html.written first = Html.written second := by
  induction all using Forest.Matches.whole with
  | nil => rfl
  | keep _ alike _ _ inside induction =>
      rw [Html.written, Html.written, inside, induction, alike.kind,
        Html.writtenAttributes, Html.writtenAttributes, alike.attributes, alike.styles]

/-! ## Bound nodes -/

/-- Scopes with the same model, which is there. -/
structure Scope.Matches (links : Links) (first second : Scope) : Prop where
  model : first.model = second.model
  controller : links.controllers first.controller second.controller
  depth : first.depth = second.depth
  inside : first.model.index < links.models

structure BoundNode.Matches (links : Links) (first second : BoundNode Part) : Prop where
  part : first.part = second.part
  dom : Option.Rel links.nodes first.dom second.dom
  ledger : List.Forall₂ links.marks first.ledger second.ledger
  scope : first.scope.Matches links second.scope

theorem Scope.Matches.mono {first second : Scope} (all : first.Matches links second)
    (grow : links ≤ later) : first.Matches later second :=
  ⟨all.model, grow.controllers _ _ all.controller, all.depth, Nat.lt_of_lt_of_le all.inside grow.models⟩

theorem BoundNode.Matches.mono {first second : BoundNode Part} (all : first.Matches links second)
    (grow : links ≤ later) : first.Matches later second where
  part := all.part
  dom := Option.Rel.imp all.dom grow.nodes
  ledger := all.ledger.imp grow.marks
  scope := all.scope.mono grow

theorem BoundNode.Matches.kind_eq {first second : BoundNode Part}
    (all : first.Matches links second) : first.kind = second.kind :=
  congrArg Part.kind all.part

theorem BoundNode.Matches.decided {first second : BoundNode Part} (all : first.Matches links second)
    (decision : Option Bool) : (first.decided decision).Matches links (second.decided decision) := by
  unfold BoundNode.decided
  rw [← all.part]
  split
  · exact ⟨rfl, all.dom, all.ledger, all.scope⟩
  · exact all

/-- Bound nodes of two worlds are numbered alike. -/
abbrev Bindings.Matches (links : Links) (first second : Bindings) : Prop :=
  Forest.Matches Eq (BoundNode.Matches links) (fun _ => False) first second

/-- What has been built in two worlds. -/
structure Growth.Matches (links : Links) (first second : Growth) : Prop where
  page : Page.Matches links first.page second.page
  bound : Bindings.Matches links first.bound second.bound
  failure : first.failure = second.failure

namespace Bindings.Matches

variable {first second third fourth : Bindings}

theorem mono (all : Bindings.Matches links first second) (grow : links ≤ later) :
    Bindings.Matches later first second :=
  Forest.Matches.mono all (fun _ _ => id) (fun _ _ same => same.mono grow) fun _ => id

private theorem exact (target : BoundId) :
    ∀ name other : BoundId, name = other → (name = target ↔ other = target) := by
  rintro _ _ rfl
  exact Iff.rfl

private theorem apart (target : BoundId) : ∀ name : BoundId, False → name ≠ target :=
  fun _ none => none.elim

theorem get? (all : Bindings.Matches links first second) (target : BoundId) :
    Option.Rel (BoundNode.Matches links) (first.label? target) (second.label? target) :=
  Forest.Matches.label? all (exact target) (apart target)

theorem contains_eq (all : Bindings.Matches links first second) (target : BoundId) :
    first.contains target = second.contains target :=
  Forest.Matches.contains_eq all (exact target) (apart target)

theorem subtree (all : Bindings.Matches links first second) (target : BoundId) :
    Bindings.Matches links (first.subtree target) (second.subtree target) :=
  Forest.Matches.subtree all (exact target) (apart target)

theorem childrenOf_eq (all : Bindings.Matches links first second) (target : BoundId) :
    first.childrenOf target = second.childrenOf target :=
  List.forall₂_eq_eq_eq ▸ (Forest.Matches.under all (exact target) (apart target)).roots_forall₂

theorem prune (all : Bindings.Matches links first second) (target : BoundId) :
    Bindings.Matches links (first.prune target) (second.prune target) :=
  Forest.Matches.prune all (exact target) (apart target)

theorem settle (all : Bindings.Matches links first second) (target : BoundId)
    (decision : Option Bool) : Bindings.Matches links (first.modify target (·.decided decision))
      (second.modify target (·.decided decision)) :=
  Forest.Matches.modify all (exact target) (apart target) fun _ _ same => same.decided decision

theorem graft (all : Bindings.Matches links first second) (target : BoundId)
    (also : Bindings.Matches links third fourth) :
    Bindings.Matches links (first.modifyUnder target (· ++ third))
      (second.modifyUnder target (· ++ fourth)) :=
  Forest.Matches.modifyUnder all (exact target) (apart target) fun _ _ same => same.append also

theorem graftAt (all : Bindings.Matches links first second) (target : BoundId) (index : Nat)
    (also : Bindings.Matches links third fourth) :
    Bindings.Matches links (first.modifyUnder target (·.insertAt index third))
      (second.modifyUnder target (·.insertAt index fourth)) :=
  Forest.Matches.modifyUnder all (exact target) (apart target) fun _ _ same =>
    same.insertAt index also

theorem ledger (all : Bindings.Matches links first second) :
    List.Forall₂ links.marks (BoundForest.ledger first) (BoundForest.ledger second) :=
  List.rel_flatMap (Forest.Matches.entries all) fun _ _ same => same.2.ledger

theorem shown (all : Bindings.Matches links first second) :
    List.Forall₂ links.nodes (BoundForest.shown first) (BoundForest.shown second) := by
  induction all using Forest.Matches.whole with
  | nil => exact .nil
  | keep _ alike _ _ inside induction =>
      refine List.rel_append (List.rel_append (inside) ?_) (induction)
      exact toList_forall₂ alike.dom

theorem last? (all : Bindings.Matches links first second) :
    Option.Rel links.nodes (BoundForest.last? first) (BoundForest.last? second) := by
  induction all using Forest.Matches.whole with
  | nil => exact .none
  | keep _ alike _ _ inside induction =>
      rw [BoundForest.last?, BoundForest.last?, alike.kind_eq]
      refine Option.Rel.or (induction) ?_
      split
      · exact alike.dom
      · exact alike.dom
      · exact .none
      · exact Option.Rel.or (inside) alike.dom
      · exact Option.Rel.or (inside) alike.dom
      · exact inside
      · exact inside

end Bindings.Matches

/-! ## Trees of bound nodes -/

namespace BoundTree

variable {first second : BoundTree Part} (all : Bindings.Matches links first.nodes second.nodes)

include all

theorem shownBy_eq_of_matches (switch : BoundId) : first.shownBy switch = second.shownBy switch := by
  unfold shownBy children
  rw [all.childrenOf_eq]
  refine List.filter_congr fun child _ => ?_
  unfold get?
  rcases some_or_none (all.get? child) with ⟨node, twin, here, there, same⟩ | ⟨here, there⟩
  · rw [here, there]
    dsimp only
    rw [same.kind_eq]
  · rw [here, there]

theorem watcher?_eq_of_matches (owner : BoundId) (slot : Nat) :
    first.watcher? owner slot = second.watcher? owner slot := by
  unfold watcher? children
  rw [all.childrenOf_eq]
  congr 1
  funext child
  unfold get?
  rcases some_or_none (all.get? child) with
    ⟨⟨part, _, _, _⟩, ⟨_, _, _, _⟩, here, there, same, _⟩ | ⟨here, there⟩
  · obtain rfl : part = _ := same
    rw [here, there]
    cases part <;> rfl
  · rw [here, there]

theorem lastOf_matches (ids : List BoundId) :
    Option.Rel links.nodes (first.lastOf ids) (second.lastOf ids) := by
  unfold lastOf
  induction ids.reverse with
  | nil => exact .none
  | cons id _ induction =>
      rw [List.findSome?_cons, List.findSome?_cons]
      have here : Option.Rel links.nodes (first.lastNode id) (second.lastNode id) :=
        (all.subtree id).last?
      rcases some_or_none here with ⟨node, twin, found, also, same⟩ | ⟨found, also⟩
      · rw [found, also]
        exact .some same
      · rw [found, also]
        exact induction

end BoundTree

/-- Observers that are there for the same. -/
inductive Observer.Matches (links : Links) : Observer → Observer → Prop where
  | client (hook : Hook) : Matches links (.value (.client hook)) (.value (.client hook))
  | clientChanges (hook : Hook) : Matches links (.change (.client hook)) (.change (.client hook))
  | path {one other : RenderId} (render : links.renders one other) (owner root : BoundId)
      (slot : Nat) (rest : List String) :
      Matches links (.value (.path ⟨one, owner, root, slot, rest⟩))
        (.value (.path ⟨other, owner, root, slot, rest⟩))
  | rebuild {one other : RenderId} (render : links.renders one other) (content directive : BoundId) :
      Matches links (.change (.rebuild one content directive))
        (.change (.rebuild other content directive))
  | splice {one other : RenderId} (render : links.renders one other) (list : BoundId) :
      Matches links (.change (.splice one list)) (.change (.splice other list))

theorem Observer.Matches.mono {first second : Observer} (same : first.Matches links second)
    (grow : links ≤ later) : first.Matches later second := by
  cases same with
  | client hook => exact .client hook
  | clientChanges hook => exact .clientChanges hook
  | path render owner root slot rest => exact .path (grow.renders _ _ render) owner root slot rest
  | rebuild render content directive =>
      exact .rebuild (grow.renders _ _ render) content directive
  | splice render list => exact .splice (grow.renders _ _ render) list

/-- Renders that show the same, wherever that is. -/
structure Render.Matches (links : Links) (first second : Render) : Prop where
  document : first.document = second.document
  registry : first.registry = second.registry
  config : first.config = second.config
  root : first.root = second.root
  next : first.tree.next = second.tree.next
  nodes : Bindings.Matches links first.tree.nodes second.tree.nodes

theorem Render.Matches.mono {first second : Render} (all : first.Matches links second)
    (grow : links ≤ later) : first.Matches later second :=
  ⟨all.document, all.registry, all.config, all.root, all.next, all.nodes.mono grow⟩

namespace Growth.Matches

variable {first second third fourth : Growth}

theorem mono (all : first.Matches links second) (grow : links ≤ later) :
    first.Matches later second :=
  ⟨all.page.mono grow, all.bound.mono grow, all.failure⟩

theorem empty : Growth.empty.Matches links .empty := ⟨.nil, .nil, rfl⟩

theorem failed (error : RenderError) : (Growth.failed error).Matches links (.failed error) :=
  ⟨.nil, .nil, rfl⟩

theorem beside (all : first.Matches links second) (also : third.Matches links fourth) :
    (first.beside third).Matches links (second.beside fourth) :=
  ⟨all.page.append also.page, all.bound.append also.bound, also.failure⟩

theorem within (all : first.Matches links second) (id : BoundId) {node other : BoundNode Part}
    (same : node.Matches links other) :
    (first.within id node).Matches links (second.within id other) :=
  ⟨all.page, .keep rfl same all.bound .nil, all.failure⟩

end Growth.Matches

end LiveTemplate
