import LiveTemplate.Proofs.Upkeep.Exact
import LiveTemplate.Proofs.View.LeakFreedom

/-!
# Lists show the items of their collections

As long as calls are made in turn, a list has one group for each item of its collection, in the same
order, and it goes on following the collection even if the body of an item could not be built to its
end.  A list that was not built to its end itself does not follow its collection at all.  If the
collection is changed again before a list has been told of a change, the list is told of the later
change first.
-/

namespace LiveTemplate

open Template (Node)

/-- The collection that a list shows. -/
def Part.collection? : Part → Option CollectionId
  | .list collection _ => some collection
  | .element _ | .text _ | .switch .. | .group | .watch _ | .view _ => none

theorem Part.eq_list_of_collection? {part : Part} {collection : CollectionId}
    (shows : part.collection? = some collection) : ∃ body, part = .list collection body := by
  cases part with
  | list other body =>
      obtain rfl := Option.some.inj shows
      exact ⟨body, rfl⟩
  | _ => cases shows

section Fits

variable {frame : Frame} {standing : Standing} {root : BoundId} {way : Nat → List String}
  {tasks : List Task} {forest : Bindings}

/-- What fits items are groups in their scopes. -/
theorem Fits.groups {body : List Node} {model : ModelId} {depth : Nat} {items : List Value}
    (fits : Fits frame standing root way tasks forest) (silent : ∀ slot, way slot = [])
    (called : tasks = items.map (.item body · model depth)) :
    List.Forall₂ (fun entry item => entry.2.part = .group ∧
      entry.2.scope.model = item.modelOr model) forest.crown items := by
  induction fits generalizing items with
  | nil =>
      obtain rfl := List.map_eq_nil_iff.1 called.symm
      exact .nil
  | @watch _ _ _ _ slot _ _ _ _ _ _ ahead =>
      rw [silent slot] at ahead
      cases ahead
  | cons _ here _ _ _ _ others =>
      cases items with
      | nil => cases called
      | cons item later =>
          obtain ⟨rfl, rfl⟩ := List.cons.inj called
          cases here with
          | item => exact .cons ⟨rfl, rfl⟩ (others silent rfl)

end Fits

namespace World

variable {Client : Type} {world shown after : World Client} {frame : Frame} {task : Task}
  {render : Render} {former : CollectionId → List Value} {list : BoundId} {node : BoundNode Part}
  {collection : CollectionId} {body : List Node} {id : RenderId} {behaviour : Behaviour Client}
  {place : DocumentId} {registry : RegistryId} {config : RenderConfig} {template : Template}
  {model : ModelId} {controller : ControllerId}

/-- What a list shows are groups, one for each item: in the scope of the item if that is a model, and
in that of the list otherwise. -/
def Aligned (world : World Client) (id : RenderId) (model : ModelId) (groups : List BoundId)
    (items : List Value) : Prop :=
  List.Forall₂ (fun group item => ∃ node, world.bound? id group = some node ∧ node.part = .group ∧
    node.scope.model = item.modelOr model) groups items

theorem Aligned.scopes {groups : List BoundId} {items : List Value}
    (aligned : world.Aligned id model groups items) :
    groups.map (fun group => (world.bound? id group).map (·.scope.model)) =
      items.map fun item => some (item.modelOr model) := by
  rw [← List.forall₂_eq_eq_eq, List.forall₂_map_left_iff, List.forall₂_map_right_iff]
  refine List.Forall₂.imp (fun group item here => ?_) aligned
  obtain ⟨node, live, _, scope⟩ := here
  rw [live, ← scope]
  rfl

/-- A list follows its collection by one registration, and shows its items. -/
structure Tracks (world : World Client) (id : RenderId) (list : BoundId) (node : BoundNode Part)
    (collection : CollectionId) (groups : List BoundId) : Prop where
  registered : ∃ subscription, node.ledger = [subscription] ∧
    subscription.source = .collection collection ∧
      ∀ other, world.data.Holds other (.change (.splice id list)) ↔ other = subscription
  aligned : world.Aligned id node.scope.model groups (world.data.collection collection).items

theorem Upholds.tracks (upholds : after.Upholds frame task render former [] [])
    (live : (list, node) ∈ render.tree.nodes.entries) (shows : node.part = .list collection body)
    (whole : ¬ frame.mayFail ∨ node.ledger ≠ []) :
    after.Tracks frame.render list node collection (render.tree.children list) := by
  obtain ⟨_, _, mine⟩ := upholds.sound.renders _ render upholds.known
  have settled := settled_standing after render.document frame.render former
  obtain ⟨below, has⟩ := Forest.has_iff_mem_entries.2 live
  obtain ⟨root, way, tasks, fits⟩ := upholds.fits.at has
  cases fits with
  | watch => cases shows
  | cons _ here covers inside _ =>
      cases here with
      | element | text | switch | view | content | item => cases shows
      | unfinished _ fails => exact (whole.elim (· fails) (· rfl)).elim
      | @list _ _ items model depth controller dom subscription _ _ source holds lists =>
          obtain ⟨rfl, rfl⟩ := Part.list.inj shows
          have every := lists.current (settled.late _)
          obtain rfl := covers.resolve_right fun fails => fails.2.2.1 rfl
          have groups := inside.groups (fun _ => rfl) rfl
          constructor
          · refine ⟨subscription, rfl, source, fun other => ⟨fun also => ?_, ?_⟩⟩
            · obtain ⟨mark, member, own⟩ := upholds.sound.owned upholds.known also rfl
              obtain ⟨_, again⟩ := Forest.has_iff_mem_entries.2 member
              obtain ⟨rfl, _⟩ := again.unique mine.distinct has
              exact List.mem_singleton.1 own
            · rintro rfl
              exact holds
          · rw [← Data.contents_items]
            exact upholds.sound.children_forall₂ upholds.known has (every ▸ groups)

/-- Whatever is changed in turn, a list shows the items of its collection, if no view has been nested
too deeply in the meantime. -/
theorem Conduct.lists_aligned {client : Client} (conduct : Conduct { client } world)
    (there : place.index < world.documents.next) (inside : model.index < world.data.models.next)
    (mounted : world.mount behaviour place registry config template model controller = (.ok id, shown))
    (run : Run (inTurn id) [] shown after) (spared : Spared id shown after)
    (known : after.render? id = some render) (live : after.bound? id list = some node)
    (shows : node.part.collection? = some collection) :
    after.Aligned id node.scope.model (render.tree.children list)
      (after.data.collection collection).items := by
  obtain ⟨frame, own, _, _, upholds⟩ := conduct.upholds there inside mounted False.elim False
    (inTurn_orderly id) run (.inl spared) known
  obtain rfl := own.render
  obtain ⟨body, part⟩ := Part.eq_list_of_collection? shows
  have whole : ¬ frame.mayFail := fun fails => own.mayFail.mp fails
  exact (upholds.tracks ((bound?_iff upholds.sound known).1 live) part (.inl whole)).aligned

/-- A list item for each item of a collection, with the name of the model in scope. -/
def roll : Template :=
  ⟨"ul", [], [.directive .collection ⟨"items", []⟩ [.element "li" [] [.text (.bound ⟨"x", []⟩)] 3]], 1⟩

/-- A collection with one text in it, the model that holds it, another model, and client code that is
told of changes of the collection. -/
def enrolled : World Unit :=
  { data := (((((({} : Data).addCollection [.text "a"]).2.addModel
        (.ofSchema [⟨"items", .collection ⟨0⟩, none⟩, ⟨"x", .text "mine", none⟩])).2.subscribeChanges
          ⟨0⟩ (.client ⟨0⟩)).2).addModel (.ofSchema [⟨"x", .text "w", none⟩])).2
    documents := ({} : Store Document).add {}
    client := () }

def rolled : World Unit :=
  (enrolled.mount (still Unit) ⟨0⟩ ⟨0⟩ {} roll ⟨0⟩ ⟨0⟩).2

theorem conduct_enrolled : Conduct { client := () } enrolled :=
  .next (@Call.addCollection _ _ [.text "a"] (List.forall_mem_singleton.2 (.text "a")))
    (.next (@Call.addModel _ _ [⟨"items", .collection ⟨0⟩, none⟩, ⟨"x", .text "mine", none⟩]
        (List.forall_mem_cons.2 ⟨.collection (Nat.lt_succ_self 0),
          List.forall_mem_singleton.2 (.text "mine")⟩))
      (.next (.subscribeChanges ⟨0⟩ (Nat.lt_succ_self 0))
        (.next (@Call.addModel _ _ [⟨"x", .text "w", none⟩]
            (List.forall_mem_singleton.2 (.text "w")))
          (.next (.addDocument _) (.done _)))))

/-- The second model comes into the collection in front. -/
def joined (behaviour : Behaviour Unit) : World Unit :=
  (rolled.mutate behaviour ⟨0⟩ (.insert 0 (.model ⟨1⟩))).2

/-- Client code that takes the first item out of the collection. -/
def taking : Behaviour Unit :=
  { still Unit with
    change := fun _ _ world => (world.mutate (still Unit) ⟨0⟩ (.removeAt 0)).2 }

/-- The roll is mounted, and its list is there when the second model has come in.  If the first item is
taken out in the meantime, the list has a group for the model that is no longer in the collection. -/
theorem roll_joined :
    (enrolled.mount (still Unit) ⟨0⟩ ⟨0⟩ {} roll ⟨0⟩ ⟨0⟩).1 = .ok ⟨0⟩ ∧
    ((joined (still Unit)).failures.length ≤ rolled.failures.length ∧
      ((joined (still Unit)).render? ⟨0⟩).isSome = true ∧
      ((joined (still Unit)).bound? ⟨0⟩ ⟨4⟩).map (·.part.collection?) = some (some ⟨0⟩)) ∧
    (joined taking).failures.length ≤ rolled.failures.length ∧
      ((joined taking).render? ⟨0⟩).map (fun render => (render.tree.children ⟨4⟩).map fun group =>
        ((joined taking).bound? ⟨0⟩ group).map (·.scope.model)) = some [some ⟨1⟩] ∧
      ((joined taking).bound? ⟨0⟩ ⟨4⟩).map (fun node => (node.part.collection?, node.scope.model)) =
        some (some ⟨0⟩, ⟨0⟩) ∧
      ((joined taking).data.collection ⟨0⟩).items.map (fun item => some (item.modelOr ⟨0⟩)) =
        [some ⟨0⟩] := by
  rw [joined, joined, rolled, mount, Registry.missingView?_of_nil rfl]
  decide +kernel

theorem mount_enrolled :
    enrolled.mount (still Unit) ⟨0⟩ ⟨0⟩ {} roll ⟨0⟩ ⟨0⟩ = (.ok ⟨0⟩, rolled) :=
  Prod.ext roll_joined.1 rfl

theorem run_joined {rule : Rule Unit} {behaviour : Behaviour Unit} (abides : Abides rule behaviour)
    (ruled : rule [] (.change ⟨0⟩ (.insert 0 (.model ⟨1⟩))) rolled (joined behaviour)) :
    Run rule [] rolled (joined behaviour) := by
  have within : 1 < rolled.data.models.next :=
    (mount_kept (still Unit) conduct_enrolled.sound ⟨0⟩ {} roll ⟨0⟩ (Nat.lt_succ_self 0)
      (Nat.lt_succ_of_lt (Nat.lt_succ_self 0))).sequel.models
  apply abides.mutate
  · rintro change made
    obtain rfl := Option.some.inj made
    exact .model within
  · rintro change made
    obtain rfl := Option.some.inj made
    rwa [Nat.zero_min]

theorem lists_aligned_roll : ∃ render node,
    (joined (still Unit)).render? ⟨0⟩ = some render ∧
      (joined (still Unit)).bound? ⟨0⟩ ⟨4⟩ = some node ∧
      (joined (still Unit)).Aligned ⟨0⟩ node.scope.model (render.tree.children ⟨4⟩)
        ((joined (still Unit)).data.collection ⟨0⟩).items := by
  obtain ⟨-, ⟨silent, there, shows⟩, -⟩ := roll_joined
  obtain ⟨render, known⟩ := Option.isSome_iff_exists.1 there
  obtain ⟨node, live, follows⟩ := Option.map_eq_some_iff.1 shows
  exact ⟨render, node, known, live, conduct_enrolled.lists_aligned (Nat.lt_succ_self 0)
    (Nat.lt_succ_of_lt (Nat.lt_succ_self 0)) mount_enrolled (run_joined (still_abides _) InTurn.nil)
    (spared_of_length_le silent _) known live follows⟩

theorem taking_abides : Abides (fun _ _ _ _ => True) taking where
  value := fun pending _ _ world => .done pending world
  change := by
    intro pending hook told world
    refine (still_abides _).mutate (fun change made => ?_) fun _ _ => trivial
    obtain ⟨item, _, rfl⟩ := Option.map_eq_some_iff.1 made
    trivial

/-- Where client code takes an item out in the middle of the announcement that it has come in, the list
shows that item instead of the one that is there. -/
theorem lists_misaligned : Conduct { client := () } enrolled ∧
    enrolled.mount (still Unit) ⟨0⟩ ⟨0⟩ {} roll ⟨0⟩ ⟨0⟩ = (.ok ⟨0⟩, rolled) ∧
    Run (fun _ _ _ _ => True) [] rolled (joined taking) ∧ Spared ⟨0⟩ rolled (joined taking) ∧
    ∃ render node, (joined taking).render? ⟨0⟩ = some render ∧
      (joined taking).bound? ⟨0⟩ ⟨4⟩ = some node ∧ node.part.collection? = some ⟨0⟩ ∧
      ¬ (joined taking).Aligned ⟨0⟩ node.scope.model (render.tree.children ⟨4⟩)
        ((joined taking).data.collection ⟨0⟩).items := by
  obtain ⟨-, -, silent, groups, shows, items⟩ := roll_joined
  obtain ⟨render, known, scopes⟩ := Option.map_eq_some_iff.1 groups
  obtain ⟨node, live, reads⟩ := Option.map_eq_some_iff.1 shows
  obtain ⟨follows, scope⟩ := Prod.mk.inj reads
  refine ⟨conduct_enrolled, mount_enrolled, run_joined taking_abides trivial,
    spared_of_length_le silent _, render, node, known, live, follows, fun aligned => ?_⟩
  have same := aligned.scopes
  rw [scopes, scope, items] at same
  simp at same

/-- Even if views are nested too deeply, a list goes on showing the items of its collection and follows
it by one registration: if it has been built to its end, and unless a collection gets several items at
once that cannot be built. -/
theorem Conduct.lists_tracked {client : Client} (conduct : Conduct { client } world)
    (there : place.index < world.documents.next) (inside : model.index < world.data.models.next)
    (mounted : world.mount behaviour place registry config template model controller = (.ok id, shown))
    (run : Run (contained id) [] shown after) (known : after.render? id = some render)
    (live : after.bound? id list = some node) (shows : node.part.collection? = some collection)
    (built : node.ledger ≠ []) :
    after.Tracks id list node collection (render.tree.children list) := by
  obtain ⟨frame, own, _, _, upholds⟩ := conduct.upholds there inside mounted False.elim True
    (contained_orderly id) run (.inr ⟨trivial, contained_contains id⟩) known
  obtain rfl := own.render
  obtain ⟨body, part⟩ := Part.eq_list_of_collection? shows
  exact upholds.tracks ((bound?_iff upholds.sound known).1 live) part (.inr built)

/-- A view that shows itself again if its model is deep. -/
def row : Template :=
  ⟨"li", [], [.directive .showIf ⟨"deep", []⟩ [.view "row"]], 1⟩

/-- Rows for the items of a collection, as long as they are asked for. -/
def rows : Template :=
  ⟨"ul", [], [.directive .showIf ⟨"on", []⟩ [.directive .collection ⟨"items", []⟩ [.view "row"]]], 1⟩

/-- A deep model, one that is not, and a collection with one of them in it. -/
def stacked (item : ModelId) : World Unit :=
  { data := ((((({} : Data).addModel (.ofSchema [⟨"deep", .bool true, none⟩])).2.addModel
        (.ofSchema [⟨"deep", .bool false, none⟩])).2.addCollection [.model item]).2.addModel
          (.ofSchema [⟨"on", .bool false, none⟩, ⟨"items", .collection ⟨0⟩, none⟩])).2
    documents := ({} : Store Document).add {}
    registries := ({} : Store Registry).add { views := [("row", row)] }
    client := () }

theorem conduct_stacked {item : ModelId} (inside : item.index < 2) :
    Conduct { client := () } (stacked item) :=
  .next (@Call.addModel _ _ [⟨"deep", .bool true, none⟩] (List.forall_mem_singleton.2 (.bool true)))
    (.next (@Call.addModel _ _ [⟨"deep", .bool false, none⟩]
        (List.forall_mem_singleton.2 (.bool false)))
      (.next (@Call.addCollection _ _ [.model item] (List.forall_mem_singleton.2 (.model inside)))
        (.next (@Call.addModel _ _ [⟨"on", .bool false, none⟩, ⟨"items", .collection ⟨0⟩, none⟩]
            (List.forall_mem_cons.2 ⟨.bool false,
              List.forall_mem_singleton.2 (.collection (Nat.lt_succ_self 0))⟩))
          (.next (.addDocument _)
            (.next (@Call.other _ _ (stacked item) rfl rfl rfl) (.done _))))))

theorem missingView?_rows (item : ModelId) :
    ((stacked item).registry ⟨0⟩).missingView? rows = none := by
  show Registry.missing? { views := [("row", row)] } [] ["row"] = none
  rw [Registry.missing?, dif_neg (by decide)]
  split
  · rename_i missing
    simp [Registry.view?] at missing
  · rename_i view found
    obtain rfl : row = view := by simpa [Registry.view?] using found
    show Registry.missing? _ ["row"] ["row"] = none
    rw [Registry.missing?, dif_pos (by decide), Registry.missing?]

/-- At most one view may be shown in another. -/
def stackedUp (item : ModelId) : World Unit :=
  ((stacked item).mount (still Unit) ⟨0⟩ ⟨0⟩ { maxViewDepth := 1 } rows ⟨2⟩ ⟨0⟩).2

/-- The rows are asked for, and then another model comes into the collection. -/
def pushed (item more : ModelId) : World Unit :=
  (((stackedUp item).setOr (still Unit) ⟨2⟩ "on" (.bool true)).mutate (still Unit) ⟨0⟩
    (.push (.model more))).2

/-- A list that begins with a row that is not deep is there, and one that begins with a deep row has no
registration, and one group for two models. -/
theorem rows_pushed :
    (∀ index < 2, ((stacked ⟨index⟩).mount (still Unit) ⟨0⟩ ⟨0⟩ { maxViewDepth := 1 } rows ⟨2⟩ ⟨0⟩).1 =
      .ok ⟨0⟩) ∧
    ((pushed ⟨1⟩ ⟨0⟩).failures.length = 1 ∧ ((pushed ⟨1⟩ ⟨0⟩).render? ⟨0⟩).isSome = true ∧
      ((pushed ⟨1⟩ ⟨0⟩).bound? ⟨0⟩ ⟨7⟩).map (fun node =>
        (node.part.collection?, node.ledger.length)) = some (some ⟨0⟩, 1)) ∧
    ((pushed ⟨0⟩ ⟨1⟩).render? ⟨0⟩).map (fun render => (render.tree.children ⟨7⟩).length) = some 1 ∧
      ((pushed ⟨0⟩ ⟨1⟩).bound? ⟨0⟩ ⟨7⟩).map (fun node => (node.part.collection?, node.ledger)) =
        some (some ⟨0⟩, []) ∧
      ((pushed ⟨0⟩ ⟨1⟩).data.collection ⟨0⟩).items.length = 2 := by
  simp only [pushed, stackedUp, mount, missingView?_rows]
  decide +kernel

theorem mount_stacked {item : ModelId} (inside : item.index < 2) :
    (stacked item).mount (still Unit) ⟨0⟩ ⟨0⟩ { maxViewDepth := 1 } rows ⟨2⟩ ⟨0⟩ =
      (.ok ⟨0⟩, stackedUp item) :=
  Prod.ext (rows_pushed.1 item.index inside) rfl

theorem run_pushed {item more : ModelId} (first : item.index < 2) (second : more.index < 2) :
    Run (contained ⟨0⟩) [] (stackedUp item) (pushed item more) := by
  have mounted : (stacked item).Kept (stackedUp item) :=
    mount_kept (still Unit) (conduct_stacked first).sound ⟨0⟩ _ rows ⟨0⟩ (Nat.lt_succ_self 0)
      (Nat.lt_succ_self 2)
  have asked : Run (contained ⟨0⟩) [] (stackedUp item)
      ((stackedUp item).setOr (still Unit) ⟨2⟩ "on" (.bool true)) :=
    (still_abides _).set (.bool true) contained_value
  have within : more.index <
      ((stackedUp item).setOr (still Unit) ⟨2⟩ "on" (.bool true)).data.models.next :=
    calc more.index
      _ < (stacked item).data.models.next := Nat.lt_succ_of_lt second
      _ ≤ (stackedUp item).data.models.next := mounted.sequel.models
      _ ≤ _ := (asked.proceeds mounted.sound).models
  refine asked.trans ((still_abides _).mutate ?_ ?_)
  · rintro change made
    obtain rfl := Option.some.inj made
    exact .model within
  · rintro change made
    obtain rfl := Option.some.inj made
    exact contained_change le_rfl

/-- The list goes on although the second row cannot be built to its end. -/
theorem lists_tracked_rows : (pushed ⟨1⟩ ⟨0⟩).failures.length = 1 ∧ ∃ render node,
    (pushed ⟨1⟩ ⟨0⟩).render? ⟨0⟩ = some render ∧ (pushed ⟨1⟩ ⟨0⟩).bound? ⟨0⟩ ⟨7⟩ = some node ∧
      (pushed ⟨1⟩ ⟨0⟩).Tracks ⟨0⟩ ⟨7⟩ node ⟨0⟩ (render.tree.children ⟨7⟩) := by
  obtain ⟨-, ⟨noted, there, shows⟩, -⟩ := rows_pushed
  obtain ⟨render, known⟩ := Option.isSome_iff_exists.1 there
  obtain ⟨node, live, reads⟩ := Option.map_eq_some_iff.1 shows
  obtain ⟨follows, single⟩ := Prod.mk.inj reads
  refine ⟨noted, render, node, known, live, (conduct_stacked (Nat.lt_succ_self 1)).lists_tracked
    (Nat.lt_succ_self 0) (Nat.lt_succ_self 2) (mount_stacked (Nat.lt_succ_self 1))
    (run_pushed (Nat.lt_succ_self 1) (Nat.zero_lt_succ 1)) known live follows ?_⟩
  rintro nothing
  rw [nothing] at single
  cases single

/-- Where the first row cannot be built to its end, the list does not follow its collection, so that
the second row is missing. -/
theorem lists_cut_short : Conduct { client := () } (stacked ⟨0⟩) ∧
    (stacked ⟨0⟩).mount (still Unit) ⟨0⟩ ⟨0⟩ { maxViewDepth := 1 } rows ⟨2⟩ ⟨0⟩ =
      (.ok ⟨0⟩, stackedUp ⟨0⟩) ∧
    Run (contained ⟨0⟩) [] (stackedUp ⟨0⟩) (pushed ⟨0⟩ ⟨1⟩) ∧
    ∃ render node, (pushed ⟨0⟩ ⟨1⟩).render? ⟨0⟩ = some render ∧
      (pushed ⟨0⟩ ⟨1⟩).bound? ⟨0⟩ ⟨7⟩ = some node ∧ node.part.collection? = some ⟨0⟩ ∧
      node.ledger = [] ∧ ¬ (pushed ⟨0⟩ ⟨1⟩).Aligned ⟨0⟩ node.scope.model (render.tree.children ⟨7⟩)
        ((pushed ⟨0⟩ ⟨1⟩).data.collection ⟨0⟩).items := by
  obtain ⟨-, -, groups, shows, items⟩ := rows_pushed
  obtain ⟨render, known, single⟩ := Option.map_eq_some_iff.1 groups
  obtain ⟨node, live, reads⟩ := Option.map_eq_some_iff.1 shows
  obtain ⟨follows, nothing⟩ := Prod.mk.inj reads
  refine ⟨conduct_stacked (Nat.zero_lt_succ 1), mount_stacked (Nat.zero_lt_succ 1),
    run_pushed (Nat.zero_lt_succ 1) (Nat.lt_succ_self 1), render, node, known, live, follows, nothing,
    fun aligned => ?_⟩
  have same := List.Forall₂.length_eq aligned
  omega

end World

end LiveTemplate
