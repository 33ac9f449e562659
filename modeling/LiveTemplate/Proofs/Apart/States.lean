import LiveTemplate.Proofs.Apart.Parts
import LiveTemplate.Proofs.Reactive.Change
import LiveTemplate.Proofs.Reactive.Census

/-!
# Registrations, controllers and places in two worlds

What is there in both worlds is registered in the same order.  In between, the first world has
registrations of renders that the second does not have; these are skipped.
-/

namespace LiveTemplate

/-! ## Sequences with more items -/

/-- The sequences match item by item, where items of the first may be skipped. -/
inductive Sifts {First Second : Type} (skip : First → Prop) (related : First → Second → Prop) :
    List First → List Second → Prop where
  | nil : Sifts skip related [] []
  | pass {first : First} {firsts : List First} {seconds : List Second} (here : skip first)
      (later : Sifts skip related firsts seconds) : Sifts skip related (first :: firsts) seconds
  | keep {first : First} {second : Second} {firsts : List First} {seconds : List Second}
      (here : related first second) (later : Sifts skip related firsts seconds) :
      Sifts skip related (first :: firsts) (second :: seconds)

namespace Sifts

variable {First Second : Type} {skip more : First → Prop} {related after : First → Second → Prop}
  {firsts others : List First} {seconds lasts : List Second}

theorem mono (sifts : Sifts skip related firsts seconds)
    (skipped : ∀ first, skip first → more first)
    (imp : ∀ first second, related first second → after first second) :
    Sifts more after firsts seconds := by
  induction sifts with
  | nil => exact .nil
  | pass here _ induction => exact .pass (skipped _ here) induction
  | keep here _ induction => exact .keep (imp _ _ here) induction

theorem append (sifts : Sifts skip related firsts seconds)
    (also : Sifts skip related others lasts) :
    Sifts skip related (firsts ++ others) (seconds ++ lasts) := by
  induction sifts with
  | nil => exact also
  | pass here _ induction => exact .pass here induction
  | keep here _ induction => exact .keep here induction

theorem filter (sifts : Sifts skip related firsts seconds) {keeps : First → Bool}
    {keepsAlso : Second → Bool}
    (same : ∀ first second, related first second → keeps first = keepsAlso second) :
    Sifts skip related (firsts.filter keeps) (seconds.filter keepsAlso) := by
  induction sifts with
  | nil => exact .nil
  | pass here _ induction =>
      rw [List.filter_cons]
      split
      · exact .pass here induction
      · exact induction
  | keep here _ induction =>
      rw [List.filter_cons, List.filter_cons, same _ _ here]
      split
      · exact .keep here induction
      · exact induction

/-- Only items that are skipped are taken out of the first sequence. -/
theorem filter_first (sifts : Sifts skip related firsts seconds) {keeps : First → Bool}
    (same : ∀ first second, related first second → keeps first = true) :
    Sifts skip related (firsts.filter keeps) seconds := by
  have both : Sifts skip related (firsts.filter keeps) (seconds.filter fun _ => true) :=
    sifts.filter same
  rwa [List.filter_true] at both

theorem exists_of_mem (sifts : Sifts skip related firsts seconds) {first : First}
    (member : first ∈ firsts) : skip first ∨ ∃ second ∈ seconds, related first second := by
  induction sifts with
  | nil => cases member
  | pass here _ induction =>
      rcases List.mem_cons.1 member with rfl | later
      · exact .inl here
      · exact induction later
  | keep here _ induction =>
      rcases List.mem_cons.1 member with rfl | later
      · exact .inr ⟨_, List.mem_cons_self, here⟩
      · exact (induction later).imp_right fun ⟨second, listed, there⟩ =>
          ⟨second, List.mem_cons_of_mem _ listed, there⟩

theorem exists_of_mem_second (sifts : Sifts skip related firsts seconds) {second : Second}
    (member : second ∈ seconds) : ∃ first ∈ firsts, related first second := by
  induction sifts with
  | nil => cases member
  | pass _ _ induction =>
      obtain ⟨first, listed, there⟩ := induction member
      exact ⟨first, List.mem_cons_of_mem _ listed, there⟩
  | keep here _ induction =>
      rcases List.mem_cons.1 member with rfl | later
      · exact ⟨_, List.mem_cons_self, here⟩
      · obtain ⟨first, listed, there⟩ := induction later
        exact ⟨first, List.mem_cons_of_mem _ listed, there⟩

end Sifts

/-! ## Registrations -/

/-- Registrations of renders that are there in the first world only. -/
def Ties.Skips (ties : Ties) (entry : Subscription × Observer) : Prop :=
  ties.marks.lone entry.1 ∧
    ∃ render owner, entry.2.owner? = some (render, owner) ∧ ties.renders.lone render

/-- Registrations for the same in both worlds. -/
def Ties.Shares (ties : Ties) (one other : Subscription × Observer) : Prop :=
  ties.marks.pairs one.1 other.1 ∧ one.2.Matches ties.seen other.2

/-- The same is read in both worlds, and registrations match. -/
structure Data.Matches (ties : Ties) (first second : Data) : Prop where
  agrees : first.Agrees second
  sound : first.Sound
  models : first.models.next = ties.models
  collections : first.collections.next = ties.collections
  registrations : ∀ source,
    Sifts ties.Skips ties.Shares (first.registrationsOn source) (second.registrationsOn source)
  among : ties.marks.Among (fun mark => mark.id < first.nextNumber mark.source)
    fun mark => mark.id < second.nextNumber mark.source
  sources : ∀ {one other}, ties.marks.pairs one other → one.source = other.source

namespace Ties

variable {ties later : Ties}

theorem Skips.mono {entry : Subscription × Observer} (skips : ties.Skips entry)
    (grow : ties ≤ later) : later.Skips entry := by
  obtain ⟨lone, render, owner, owned, hidden⟩ := skips
  exact ⟨grow.marks.2 _ lone, render, owner, owned, grow.renders.2 _ hidden⟩

theorem Shares.mono {one other : Subscription × Observer} (shares : ties.Shares one other)
    (grow : ties ≤ later) : later.Shares one other :=
  ⟨grow.marks.1 _ _ shares.1, shares.2.mono (monotone_seen grow)⟩

/-- The same ties but for registrations. -/
def withMarks (ties : Ties) (marks : Tie Subscription) : Ties :=
  { ties with marks }

theorem le_withMarks {marks : Tie Subscription} (grow : ties.marks ≤ marks) :
    ties ≤ ties.withMarks marks :=
  ⟨le_rfl, grow, le_rfl, le_rfl, le_rfl, Nat.le_refl _, Nat.le_refl _⟩

end Ties

namespace Data

variable {ties : Ties} {first second data other : Data}

theorem registrationsOn_registers {mark : Subscription} {observer : Observer}
    (registers : first.Registers data mark observer) (source : Source) :
    data.registrationsOn source = first.registrationsOn source ++
      if source = mark.source then [(mark, observer)] else [] := by
  rw [registrationsOn, registers.observers, List.map_append]
  congr 1
  split
  · rename_i here
    subst here
    rfl
  · rfl

theorem registrationsOn_cancels {gone : List Subscription} (cancels : first.Cancels data gone)
    (source : Source) : data.registrationsOn source =
      (first.registrationsOn source).filter fun entry => decide (entry.1 ∉ gone) := by
  rw [registrationsOn, cancels.observers, registrationsOn, List.filter_map]
  rfl

theorem Registers.given {mark : Subscription} {observer : Observer}
    (registers : first.Registers data mark observer) {also : Subscription} :
    also.id < first.nextNumber also.source ∨ also = mark → also.id < data.nextNumber also.source := by
  rw [registers.nextNumber]
  rintro (early | rfl)
  · split
    · exact Nat.lt_succ_of_lt early
    · exact early
  · rw [if_pos rfl, registers.number]
    exact Nat.lt_succ_self _

namespace Matches

/-- Somebody registers in both worlds. -/
theorem registers (all : Data.Matches ties first second) {mark twin : Subscription}
    {observer also : Observer} (here : first.Registers data mark observer)
    (there : second.Registers other twin also) (source : mark.source = twin.source)
    (same : observer.Matches ties.seen also) :
    ∃ marks, ties.marks ≤ marks ∧ marks.pairs mark twin ∧
      Data.Matches (ties.withMarks marks) data other := by
  have new : ¬ mark.id < first.nextNumber mark.source := by
    rw [here.number]
    exact lt_irrefl _
  have free : ¬ twin.id < second.nextNumber twin.source := by
    rw [there.number]
    exact lt_irrefl _
  have grow := Ties.le_withMarks (Tie.le_couple all.among new free)
  refine ⟨_, Tie.le_couple all.among new free, Tie.couple_pairs all.among new free, ?_⟩
  constructor
  · exact here.agrees.symm.trans (all.agrees.trans there.agrees)
  · exact here.sound all.sound
  · exact here.agrees.models.trans all.models
  · exact here.agrees.collections.trans all.collections
  · intro source'
    rw [registrationsOn_registers here, registrationsOn_registers there, source]
    refine Sifts.append ((all.registrations source').mono (fun _ skips => skips.mono grow)
      fun _ _ shares => shares.mono grow) ?_
    split
    · exact .keep ⟨Tie.couple_pairs all.among new free, same.mono (Ties.monotone_seen grow)⟩ .nil
    · exact .nil
  · exact Tie.Among.couple all.among new free (fun _ early => here.given (.inl early))
      (fun _ early => there.given (.inl early)) (here.given (.inr rfl)) (there.given (.inr rfl))
  · rintro one other (tied | ⟨rfl, rfl⟩)
    · exact all.sources tied
    · exact source

/-- A hidden render registers in the first world. -/
theorem registers_first (all : Data.Matches ties first second) {mark : Subscription}
    {observer : Observer} (here : first.Registers data mark observer) {render : RenderId}
    {owner : BoundId} (owned : observer.owner? = some (render, owner))
    (hidden : ties.renders.lone render) :
    ∃ marks, ties.marks ≤ marks ∧ marks.lone mark ∧
      Data.Matches (ties.withMarks marks) data second := by
  have new : ¬ mark.id < first.nextNumber mark.source := by
    rw [here.number]
    exact lt_irrefl _
  have grow := Ties.le_withMarks (Tie.le_seclude all.among new)
  refine ⟨_, Tie.le_seclude all.among new, Tie.seclude_lone all.among new, ?_⟩
  constructor
  · exact here.agrees.symm.trans all.agrees
  · exact here.sound all.sound
  · exact here.agrees.models.trans all.models
  · exact here.agrees.collections.trans all.collections
  · intro source
    rw [registrationsOn_registers here, ← List.append_nil (second.registrationsOn source)]
    refine Sifts.append ((all.registrations source).mono (fun _ skips => skips.mono grow)
      fun _ _ shares => shares.mono grow) ?_
    split
    · exact .pass ⟨Tie.seclude_lone all.among new, render, owner, owned, hidden⟩ .nil
    · exact .nil
  · exact Tie.Among.seclude all.among new (fun _ early => here.given (.inl early))
      (here.given (.inr rfl))
  · exact all.sources

/-- The same registrations end in both worlds. -/
theorem cancels (all : Data.Matches ties first second) {gone lost : List Subscription}
    (here : first.Cancels data gone) (there : second.Cancels other lost)
    (same : List.Forall₂ ties.marks.pairs gone lost) : Data.Matches ties data other where
  agrees := here.agrees.symm.trans (all.agrees.trans there.agrees)
  sound := here.sound all.sound
  models := here.agrees.models.trans all.models
  collections := here.agrees.collections.trans all.collections
  registrations source := by
    rw [registrationsOn_cancels here, registrationsOn_cancels there]
    refine (all.registrations source).filter fun one other shares => ?_
    rw [decide_eq_decide, Tie.mem_iff same shares.1]
  among := all.among.mono (fun mark => by rw [here.nextNumber]; exact id)
    fun mark => by rw [there.nextNumber]; exact id
  sources := all.sources

/-- Registrations of hidden renders end in the first world. -/
theorem cancels_first (all : Data.Matches ties first second) {gone : List Subscription}
    (here : first.Cancels data gone) (hidden : ∀ mark ∈ gone, ties.marks.lone mark) :
    Data.Matches ties data second where
  agrees := here.agrees.symm.trans all.agrees
  sound := here.sound all.sound
  models := here.agrees.models.trans all.models
  collections := here.agrees.collections.trans all.collections
  registrations source := by
    rw [registrationsOn_cancels here]
    refine (all.registrations source).filter_first fun one other shares => ?_
    rw [decide_eq_true_iff]
    exact fun member => ties.marks.apart shares.1 (hidden _ member)
  among := all.among.mono (fun mark => by rw [here.nextNumber]; exact id) fun _ => id
  sources := all.sources

/-- Something is changed or added in both worlds, and registrations stay as they are. -/
theorem moves (all : Data.Matches ties first second) (moves : first.Moves data)
    (agrees : data.Agrees other)
    (here : ∀ source, data.observers source = first.observers source ∧
      data.nextNumber source = first.nextNumber source)
    (there : ∀ source, other.observers source = second.observers source ∧
      other.nextNumber source = second.nextNumber source) :
    Data.Matches { ties with
      models := data.models.next
      collections := data.collections.next } data other where
  agrees := agrees
  sound := moves.sound
  models := rfl
  collections := rfl
  registrations source := by
    rw [registrationsOn, registrationsOn, (here source).1, (there source).1]
    exact (all.registrations source).mono (fun _ skips => skips) fun _ _ shares =>
      ⟨shares.1, shares.2.mono (Ties.monotone_seen ⟨le_rfl, le_rfl, le_rfl, le_rfl, le_rfl,
        all.models ▸ moves.models, all.collections ▸ moves.collections⟩)⟩
  among := all.among.mono (fun mark => by rw [(here _).2]; exact id)
    fun mark => by rw [(there _).2]; exact id
  sources := all.sources

/-- A registration that is tied is in force in both worlds or in none. -/
theorem holds_iff (all : Data.Matches ties first second) {one other : Subscription}
    (tied : ties.marks.pairs one other) :
    (∃ observer, first.Holds one observer) ↔ ∃ observer, second.Holds other observer := by
  have source := all.sources tied
  constructor
  · rintro ⟨observer, holds⟩
    have member := mem_registrationsOn.2 ⟨rfl, holds⟩
    rcases (all.registrations _).exists_of_mem member with skips | ⟨⟨twin, also⟩, listed, shares⟩
    · exact absurd skips.1 (ties.marks.apart tied)
    · obtain rfl := ties.marks.functional tied shares.1
      exact ⟨also, (mem_registrationsOn.1 listed).2⟩
  · rintro ⟨observer, holds⟩
    have member := mem_registrationsOn.2 ⟨rfl, holds⟩
    obtain ⟨⟨twin, also⟩, listed, shares⟩ := (all.registrations _).exists_of_mem_second member
    obtain rfl := ties.marks.injective tied shares.1
    exact ⟨also, (mem_registrationsOn.1 listed).2⟩

end Matches

end Data

/-! ## Controllers -/

namespace Controllers

theorem get_create (controllers : Controllers) (controller : Controller) (id : ControllerId) :
    Controllers.get (controllers.add controller) id =
      if id.index = controllers.next then controller else controllers.get id := by
  rw [get, Store.get?_add]
  split <;> rfl

theorem get_attach (controllers : Controllers) (id other : ControllerId) (links : ControllerLinks) :
    (controllers.attach id links).get other =
      if other = id then (controllers.get other).attach links else controllers.get other := by
  rw [get, attach, Store.get?_modify]
  by_cases here : other = id
  · subst here
    rw [if_pos rfl, if_pos rfl, get]
    cases controllers.get? other.index <;> rfl
  · rw [if_neg here, if_neg fun same => here (congrArg ControllerId.mk same), get]

end Controllers

/-- The actions that a controller knows, if it is one that knows any. -/
def Controller.table? : Controller → Option (List (String × Hook))
  | .inert => none
  | .actions table _ => some table

namespace Controller

theorem action?_eq (controller : Controller) (name : String) :
    controller.action? name = controller.table?.bind (·.lookup name) := by
  cases controller <;> rfl

theorem table?_attach (links : ControllerLinks) (controller : Controller) :
    (controller.attach links).table? = controller.table? := by
  cases controller <;> rfl

theorem parent?_attach (links : ControllerLinks) (controller : Controller) :
    (controller.attach links).parent? = controller.table?.bind fun _ => links.parent := by
  cases controller <;> rfl

end Controller

namespace Controllers

variable {controllers : Controllers} {id : ControllerId}

theorem get_create_of_lt (controller : Controller) (early : id.index < controllers.next) :
    Controllers.get (controllers.add controller) id = controllers.get id := by
  rw [get_create, if_neg (Nat.ne_of_lt early)]

theorem get_create_next (controllers : Controllers) (controller : Controller) :
    Controllers.get (controllers.add controller) ⟨controllers.next⟩ = controller := by
  rw [get_create, if_pos rfl]

/-- The controller that unknown actions are handed to was there before. -/
def Older (controllers : Controllers) (id : ControllerId) : Prop :=
  ∀ parent, (controllers.get id).parent? = some parent → parent.index < id.index

theorem Older.of_orphan (orphan : (controllers.get id).parent? = none) : controllers.Older id := by
  rw [Older, orphan]
  simp

theorem Older.attach (older : controllers.Older id) {other : ControllerId}
    {links : ControllerLinks} (upper : ∀ parent ∈ links.parent, parent.index < other.index) :
    (controllers.attach other links).Older id := by
  intro parent found
  rw [get_attach] at found
  split at found
  · rename_i here
    subst here
    rw [Controller.parent?_attach] at found
    obtain ⟨_, _, found⟩ := Option.bind_eq_some_iff.1 found
    exact upper parent found
  · exact older parent found

end Controllers

/-- Controllers that are tied know the same actions and hand on others to controllers that are tied.
No others are handed on by the root controllers of hidden renders. -/
structure Controllers.Matches (ties : Ties) (first second : Controllers) : Prop where
  among : ties.controllers.Among (·.index < first.next) (·.index < second.next)
  rootsAmong : ties.roots.Among (·.index < first.next) (·.index < second.next)
  tables : ∀ {one other}, ties.controllers.pairs one other →
    (first.get one).table? = (second.get other).table?
  parents : ∀ {one other}, ties.controllers.pairs one other →
    Option.Rel ties.controllers.pairs (first.get one).parent? (second.get other).parent?
  older : ∀ {one other}, ties.controllers.pairs one other → first.Older one
  olderAlso : ∀ {one other}, ties.controllers.pairs one other → second.Older other
  rootTables : ∀ {one other}, ties.roots.pairs one other →
    (first.get one).table? = (second.get other).table?
  orphans : ∀ {one other}, ties.roots.pairs one other → (first.get one).parent? = none
  orphansAlso : ∀ {one other}, ties.roots.pairs one other → (second.get other).parent? = none

/-- Nothing but controllers has come. -/
structure Ties.Hires (ties later : Ties) : Prop where
  controllers : ties.controllers ≤ later.controllers
  roots : ties.roots ≤ later.roots
  nodes : later.nodes = ties.nodes
  marks : later.marks = ties.marks
  renders : later.renders = ties.renders
  models : later.models = ties.models
  collections : later.collections = ties.collections

theorem Ties.Hires.le {ties later : Ties} (hires : ties.Hires later) : ties ≤ later :=
  ⟨hires.nodes.ge, hires.marks.ge, hires.renders.ge, hires.controllers, hires.roots,
    Nat.le_of_eq hires.models.symm, Nat.le_of_eq hires.collections.symm⟩

namespace Controllers.Matches

variable {ties later : Ties} {first second : Controllers}

/-- Only ties of controllers matter. -/
theorem of_eq (all : Matches ties first second) (controllers : later.controllers = ties.controllers)
    (roots : later.roots = ties.roots) : Matches later first second := by
  constructor
  · exact controllers ▸ all.among
  · exact roots ▸ all.rootsAmong
  · rw [controllers]
    exact all.tables
  · rw [controllers]
    exact all.parents
  · rw [controllers]
    exact all.older
  · rw [controllers]
    exact all.olderAlso
  · rw [roots]
    exact all.rootTables
  · rw [roots]
    exact all.orphans
  · rw [roots]
    exact all.orphansAlso

section Create

variable {more also : Controllers}

/-- Controllers of two worlds that know the same and hand on nothing. -/
structure Plain (first second : Controllers) (one other : ControllerId) : Prop where
  table : (first.get one).table? = (second.get other).table?
  orphan : (first.get one).parent? = none
  orphanAlso : (second.get other).parent? = none

/-- Controllers come, and those that are tied anew hand on nothing yet. -/
theorem extend (all : Matches ties first second) (grow : ties.controllers ≤ later.controllers)
    (here : ∀ id, id.index < first.next → more.get id = first.get id)
    (there : ∀ id, id.index < second.next → also.get id = second.get id)
    (among : later.controllers.Among (·.index < more.next) (·.index < also.next))
    (rootsAmong : later.roots.Among (·.index < more.next) (·.index < also.next))
    (new : ∀ one other, later.controllers.pairs one other →
      ties.controllers.pairs one other ∨ Plain more also one other)
    (newRoots : ∀ one other, later.roots.pairs one other →
      ties.roots.pairs one other ∨ Plain more also one other) : Matches later more also where
  among := among
  rootsAmong := rootsAmong
  tables tied := by
    rcases new _ _ tied with tied | plain
    · rw [here _ (all.among.first tied), there _ (all.among.second tied)]
      exact all.tables tied
    · exact plain.table
  parents tied := by
    rcases new _ _ tied with tied | plain
    · rw [here _ (all.among.first tied), there _ (all.among.second tied)]
      exact Option.Rel.imp (all.parents tied) grow.1
    · rw [plain.orphan, plain.orphanAlso]
      exact .none
  older tied := by
    rcases new _ _ tied with tied | plain
    · rw [Older, here _ (all.among.first tied)]
      exact all.older tied
    · exact .of_orphan plain.orphan
  olderAlso tied := by
    rcases new _ _ tied with tied | plain
    · rw [Older, there _ (all.among.second tied)]
      exact all.olderAlso tied
    · exact .of_orphan plain.orphanAlso
  rootTables tied := by
    rcases newRoots _ _ tied with tied | plain
    · rw [here _ (all.rootsAmong.first tied), there _ (all.rootsAmong.second tied)]
      exact all.rootTables tied
    · exact plain.table
  orphans tied := by
    rcases newRoots _ _ tied with tied | plain
    · rw [here _ (all.rootsAmong.first tied)]
      exact all.orphans tied
    · exact plain.orphan
  orphansAlso tied := by
    rcases newRoots _ _ tied with tied | plain
    · rw [there _ (all.rootsAmong.second tied)]
      exact all.orphansAlso tied
    · exact plain.orphanAlso

variable (all : Matches ties first second)

theorem plain_next (first second : Controllers) {controller : Controller} (plain : controller.parent? = none) :
    Plain (first.add controller) (second.add controller) ⟨first.next⟩ ⟨second.next⟩ := by
  constructor <;> simp only [get_create_next, plain]

private theorem not_lt_next (controllers : Controllers) :
    ¬ (⟨controllers.next⟩ : ControllerId).index < controllers.next :=
  lt_irrefl _

private theorem lt_next_add (controllers : Controllers) (controller : Controller)
    (id : ControllerId) (early : id.index < controllers.next) :
    id.index < Store.next (controllers.add controller) := by
  rw [Store.next_add]
  exact Nat.lt_succ_of_lt early

private theorem next_lt_next_add (controllers : Controllers) (controller : Controller) :
    (⟨controllers.next⟩ : ControllerId).index < Store.next (controllers.add controller) := by
  rw [Store.next_add]
  exact Nat.lt_succ_self _

include all

/-- A controller is added in both worlds. -/
theorem create (controller : Controller) (plain : controller.parent? = none) : ∃ later, ties.Hires later ∧
    later.controllers.pairs ⟨first.next⟩ ⟨second.next⟩ ∧
      Matches later (first.add controller) (second.add controller) := by
  have new := not_lt_next first
  have free := not_lt_next second
  have hires := Tie.le_couple all.among new free
  refine ⟨{ ties with
    controllers := ties.controllers.couple all.among new free
    concealed := ties.concealed
    unlike := ?_ }, ⟨hires, le_rfl, rfl, rfl, rfl, rfl, rfl⟩, .inr ⟨rfl, rfl⟩, ?_⟩
  · rintro one other third root (tied | ⟨_, rfl⟩)
    · exact ties.unlike root tied
    · exact free (all.rootsAmong.second root)
  refine all.extend hires ?_ ?_ ?_ ?_ ?_ ?_
  · exact fun _ => get_create_of_lt _
  · exact fun _ => get_create_of_lt _
  · exact all.among.couple new free (lt_next_add _ _) (lt_next_add _ _) (next_lt_next_add _ _)
      (next_lt_next_add _ _)
  · exact all.rootsAmong.mono (lt_next_add _ _) (lt_next_add _ _)
  · rintro one other (tied | ⟨rfl, rfl⟩)
    · exact .inl tied
    · exact .inr (plain_next first second plain)
  · exact fun _ _ => .inl

/-- A controller of a hidden render is added in the first world. -/
theorem create_first (controller : Controller) : ∃ later, ties.Hires later ∧ later.controllers.lone ⟨first.next⟩ ∧
    later.roots.lone ⟨first.next⟩ ∧ Matches later (first.add controller) second := by
  have new := not_lt_next first
  have hires := Tie.le_seclude all.among new
  have roots := Tie.le_seclude all.rootsAmong new
  refine ⟨{ ties with
    controllers := ties.controllers.seclude all.among new
    roots := ties.roots.seclude all.rootsAmong new
    concealed := fun root => .inl (ties.concealed root)
    unlike := ties.unlike }, ⟨hires, roots, rfl, rfl, rfl, rfl, rfl⟩, .inr rfl, .inr rfl, ?_⟩
  refine all.extend hires ?_ ?_ ?_ ?_ ?_ ?_
  · exact fun _ => get_create_of_lt _
  · exact fun _ _ => rfl
  · exact all.among.seclude new (lt_next_add _ _) (next_lt_next_add _ _)
  · exact all.rootsAmong.seclude new (lt_next_add _ _) (next_lt_next_add _ _)
  · exact fun _ _ => .inl
  · exact fun _ _ => .inl

/-- A root controller for hidden renders is added in both worlds. -/
theorem create_root (controller : Controller) (plain : controller.parent? = none) : ∃ later, ties.Hires later ∧
    later.roots.pairs ⟨first.next⟩ ⟨second.next⟩ ∧
      Matches later (first.add controller) (second.add controller) := by
  have new := not_lt_next first
  have free := not_lt_next second
  have hires := Tie.le_seclude all.among new
  have roots := Tie.le_couple all.rootsAmong new free
  refine ⟨{ ties with
    controllers := ties.controllers.seclude all.among new
    roots := ties.roots.couple all.rootsAmong new free
    concealed := ?_
    unlike := ?_ }, ⟨hires, roots, rfl, rfl, rfl, rfl, rfl⟩, .inr ⟨rfl, rfl⟩, ?_⟩
  · rintro one other (tied | ⟨rfl, rfl⟩)
    · exact .inl (ties.concealed tied)
    · exact .inr rfl
  · rintro one other third (root | ⟨rfl, rfl⟩) tied
    · exact ties.unlike root tied
    · exact free (all.among.second tied)
  refine all.extend hires ?_ ?_ ?_ ?_ ?_ ?_
  · exact fun _ => get_create_of_lt _
  · exact fun _ => get_create_of_lt _
  · exact (all.among.seclude new (lt_next_add _ controller) (next_lt_next_add _ _)).mono
      (fun _ => id) (lt_next_add _ _)
  · exact all.rootsAmong.couple new free (lt_next_add _ _) (lt_next_add _ _)
      (next_lt_next_add _ _) (next_lt_next_add _ _)
  · exact fun _ _ => .inl
  · rintro one other (tied | ⟨rfl, rfl⟩)
    · exact .inl tied
    · exact .inr (plain_next first second plain)

end Create

section Attach

variable (all : Matches ties first second) {one other : ControllerId}
  {links also : ControllerLinks}

include all

/-- Controllers that are tied are told of views under controllers that are tied. -/
theorem attach (tied : ties.controllers.pairs one other)
    (upper : Option.Rel ties.controllers.pairs links.parent also.parent)
    (older : ∀ parent ∈ links.parent, parent.index < one.index)
    (olderAlso : ∀ parent ∈ also.parent, parent.index < other.index) :
    Matches ties (first.attach one links) (second.attach other also) where
  among := by simpa [Controllers.attach] using all.among
  rootsAmong := by simpa [Controllers.attach] using all.rootsAmong
  tables {third fourth} same := by
    simp only [get_attach, ties.controllers.eq_iff tied same]
    split
    · rw [Controller.table?_attach, Controller.table?_attach]
      exact all.tables same
    · exact all.tables same
  parents {third fourth} same := by
    simp only [get_attach, ties.controllers.eq_iff tied same]
    split
    · rw [Controller.parent?_attach, Controller.parent?_attach, all.tables same]
      cases (second.get fourth).table? with
      | none => exact .none
      | some table => exact upper
    · exact all.parents same
  older same := (all.older same).attach older
  olderAlso same := (all.olderAlso same).attach olderAlso
  rootTables {third fourth} root := by
    rw [get_attach, get_attach, if_neg (Tie.ne_of_lone tied (ties.concealed root)),
      if_neg fun same : fourth = other => ties.unlike root (same ▸ tied)]
    exact all.rootTables root
  orphans {third fourth} root := by
    rw [get_attach, if_neg (Tie.ne_of_lone tied (ties.concealed root))]
    exact all.orphans root
  orphansAlso {third fourth} root := by
    rw [get_attach, if_neg fun same : fourth = other => ties.unlike root (same ▸ tied)]
    exact all.orphansAlso root

/-- A controller of a hidden render is told of a view.  Only one that is not known to the second world
is told of a controller above. -/
theorem attach_first (hidden : ties.controllers.lone one)
    (upper : links.parent = none ∨ ties.roots.lone one) :
    Matches ties (first.attach one links) second where
  among := by simpa [Controllers.attach] using all.among
  rootsAmong := by simpa [Controllers.attach] using all.rootsAmong
  tables same := by
    rw [get_attach, if_neg (Tie.ne_of_pairs hidden same)]
    exact all.tables same
  parents same := by
    rw [get_attach, if_neg (Tie.ne_of_pairs hidden same)]
    exact all.parents same
  older same := by
    rw [Older, get_attach, if_neg (Tie.ne_of_pairs hidden same)]
    exact all.older same
  olderAlso := all.olderAlso
  rootTables root := by
    rw [get_attach]
    split
    · rw [Controller.table?_attach]
      exact all.rootTables root
    · exact all.rootTables root
  orphans root := by
    rw [get_attach]
    split
    · rename_i here
      subst here
      rcases upper with none | lone
      · rw [Controller.parent?_attach, none]
        cases (first.get _).table? <;> rfl
      · exact absurd lone (ties.roots.apart root)
    · exact all.orphans root
  orphansAlso := all.orphansAlso

end Attach

end Controllers.Matches

/-! ## States of a building -/

/-- What building reads and changes matches, apart from the numbers of bound nodes. -/
structure BuildState.Matches {Client : Type} (ties : Ties) (first second : BuildState Client) :
    Prop where
  data : Data.Matches ties first.data second.data
  controllers : Controllers.Matches ties first.controllers second.controllers
  nodes : ties.nodes.Among first.places.Issued second.places.Issued

/-- The registrations of more renders may be known. -/
theorem Data.Matches.mono {ties later : Ties} {first second : Data}
    (all : Data.Matches ties first second) (grow : ties ≤ later) (marks : later.marks = ties.marks)
    (models : later.models = ties.models) (collections : later.collections = ties.collections) :
    Data.Matches later first second where
  agrees := all.agrees
  sound := all.sound
  models := all.models.trans models.symm
  collections := all.collections.trans collections.symm
  registrations source := (all.registrations source).mono (fun _ skips => skips.mono grow)
    fun _ _ shares => shares.mono grow
  among := marks ▸ all.among
  sources tied := by
    rw [marks] at tied
    exact all.sources tied

end LiveTemplate
