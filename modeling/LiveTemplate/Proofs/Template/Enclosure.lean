import LiveTemplate.Template.Layout
import Mathlib.Data.List.Basic
import Mathlib.Data.Nat.Basic
import Mathlib.Order.Basic

/-!
# Widths and open blocks

Among numbers in a row, each is enclosed by the nearest earlier one that is smaller.  The open blocks
of a layout keep this relation: a line is enclosed by the same line whether the widths of the lines
are compared or the numbers of blocks around them.  Lines can be laid out if and only if those that
are enclosed by the same line have the same width.
-/

namespace LiveTemplate.Template

/-- The number at position `above` is the nearest one before position `place` that is smaller. -/
structure Nearest (value : Nat → Nat) (above place : Nat) : Prop where
  before : above < place
  smaller : value above < value place
  between : ∀ other, above < other → other < place → value place ≤ value other

section Nearest

variable {value : Nat → Nat} {above other place : Nat}

theorem Nearest.unique (first : Nearest value above place) (second : Nearest value other place) :
    above = other := by
  rcases Nat.lt_trichotomy above other with less | same | more
  · have := first.between other less second.before
    have := second.smaller
    omega
  · exact same
  · have := second.between above more first.before
    have := first.smaller
    omega

/-- If some earlier number is smaller, one of them is the nearest. -/
theorem exists_nearest (before : other < place) (smaller : value other < value place) :
    ∃ above, Nearest value above place := by
  have search : ∀ stop, other < stop → stop ≤ place → ∃ above, above < stop ∧
      value above < value place ∧
        ∀ between, above < between → between < stop → value place ≤ value between := by
    intro stop reached
    induction stop with
    | zero => omega
    | succ stop induction =>
        intro inside
        by_cases here : value stop < value place
        · exact ⟨stop, Nat.lt_succ_self stop, here, by omega⟩
        · have earlier : other < stop := by
            rcases Nat.lt_succ_iff_lt_or_eq.1 reached with earlier | rfl
            · exact earlier
            · exact (here smaller).elim
          obtain ⟨above, less, found, apart⟩ := induction earlier (by omega)
          refine ⟨above, by omega, found, fun between after upTo => ?_⟩
          rcases Nat.lt_succ_iff_lt_or_eq.1 upTo with inner | rfl
          · exact apart between after inner
          · omega
  obtain ⟨above, less, found, apart⟩ := search place before le_rfl
  exact ⟨above, less, found, apart⟩

end Nearest

/-! ## Open blocks -/

/-- Dropping larger entries first makes no difference. -/
theorem dropWhile_dropWhile_lt {bound width : Nat} (below : bound ≤ width) (widths : List Nat) :
    (widths.dropWhile (width < ·)).dropWhile (bound < ·) = widths.dropWhile (bound < ·) := by
  induction widths with
  | nil => rfl
  | cons first later induction =>
      by_cases wider : width < first
      · have also : bound < first := below.trans_lt wider
        simp [wider, also, induction]
      · simp [List.dropWhile_cons, wider]

/-- A line opens one block, or closes blocks until one of its width is left. -/
theorem openBlocks_eq_ok {widths blocks : List Nat} {width : Nat} :
    openBlocks widths width = .ok blocks ↔
      (widths.headD 0 < width ∧ blocks = width :: widths) ∨
        (width ≤ widths.headD 0 ∧ blocks = widths.dropWhile (width < ·) ∧
          blocks.headD 0 = width) := by
  unfold openBlocks
  split
  · rename_i deeper
    constructor
    · intro same
      exact .inl ⟨deeper, (Except.ok.inj same).symm⟩
    · rintro (⟨_, rfl⟩ | ⟨other, _⟩)
      · rfl
      · omega
  · rename_i notDeeper
    dsimp only
    split
    · rename_i found
      constructor
      · intro same
        obtain rfl := Except.ok.inj same
        exact .inr ⟨by omega, rfl, found⟩
      · rintro (⟨other, _⟩ | ⟨_, rfl, _⟩)
        · exact (notDeeper other).elim
        · rfl
    · rename_i missing
      constructor
      · intro same
        cases same
      · rintro (⟨other, _⟩ | ⟨_, rfl, found⟩)
        · exact (notDeeper other).elim
        · exact (missing found).elim

/-- The open blocks after each of several lines, of which `widths` were open before. -/
inductive Layers : List Nat → List SourceLine → List (List Nat) → Prop where
  | nil {widths : List Nat} : Layers widths [] []
  | cons {widths blocks : List Nat} {line : SourceLine} {later : List SourceLine}
      {levels : List (List Nat)} (opens : openBlocks widths line.width = .ok blocks)
      (rest : Layers blocks later levels) : Layers widths (line :: later) (blocks :: levels)

/-- The width of the line at a position. -/
def widthAt (lines : List SourceLine) (place : Nat) : Nat :=
  (lines[place]?.map SourceLine.width).getD 0

/-- The number of blocks around the line at a position. -/
def depthAt (levels : List (List Nat)) (place : Nat) : Nat :=
  (levels[place]?.getD []).length

@[simp] theorem widthAt_zero (line : SourceLine) (later : List SourceLine) :
    widthAt (line :: later) 0 = line.width := rfl

@[simp] theorem widthAt_succ (line : SourceLine) (later : List SourceLine) (place : Nat) :
    widthAt (line :: later) (place + 1) = widthAt later place := rfl

theorem widthAt_eq {lines : List SourceLine} {place : Nat} {line : SourceLine}
    (found : lines[place]? = some line) : widthAt lines place = line.width := by
  simp [widthAt, found]

section Layers

variable {widths : List Nat} {lines : List SourceLine} {levels : List (List Nat)}
  {first last place above : Nat}

theorem Layers.length_eq (layers : Layers widths lines levels) : levels.length = lines.length := by
  induction layers with
  | nil => rfl
  | cons _ _ induction => simp [induction]

/-- What the line at a position does to the blocks that are open before it. -/
theorem Layers.step (layers : Layers widths lines levels) (inside : place + 1 < lines.length) :
    openBlocks (levels[place]?.getD []) (widthAt lines (place + 1)) =
      .ok (levels[place + 1]?.getD []) := by
  induction layers generalizing place with
  | nil => simp at inside
  | @cons _ blocks line later levels _ rest induction =>
      cases place with
      | zero =>
          cases rest with
          | nil => simp at inside
          | cons opens _ => simpa using opens
      | succ place => simpa using induction (by simpa using inside)

theorem Layers.start {line : SourceLine} {later : List SourceLine}
    (layers : Layers widths (line :: later) levels) :
    openBlocks widths line.width = .ok (levels[0]?.getD []) := by
  cases layers with
  | cons opens _ => simpa using opens

/-- The innermost open block is that of the line itself. -/
theorem Layers.headD_eq (layers : Layers [] lines levels) (inside : place < lines.length) :
    (levels[place]?.getD []).headD 0 = widthAt lines place := by
  have head : ∀ {before blocks : List Nat} {width : Nat}, openBlocks before width = .ok blocks →
      blocks.headD 0 = width := by
    intro before blocks width opens
    rcases openBlocks_eq_ok.1 opens with ⟨_, rfl⟩ | ⟨_, _, same⟩
    · rfl
    · exact same
  cases place with
  | zero =>
      cases lines with
      | nil => simp at inside
      | cons line later => exact head layers.start
  | succ place => exact head (layers.step inside)

/-- The blocks up to a width stay open as long as all lines have that width at least. -/
theorem Layers.dropWhile_eq (layers : Layers [] lines levels) {bound : Nat}
    (order : first ≤ last) (inside : last < lines.length)
    (wide : ∀ place, first ≤ place → place ≤ last → bound ≤ widthAt lines place) :
    (levels[last]?.getD []).dropWhile (bound < ·) =
      (levels[first]?.getD []).dropWhile (bound < ·) := by
  induction last, order using Nat.le_induction with
  | base => rfl
  | succ last order induction =>
      rw [← induction (by omega) fun place after upTo => wide place after (by omega)]
      have before := layers.headD_eq (show last < lines.length by omega)
      have here := wide last order (by omega)
      have next := wide (last + 1) (by omega) le_rfl
      rcases openBlocks_eq_ok.1 (layers.step inside) with ⟨deeper, same⟩ | ⟨_, same, _⟩
      · have dropped : bound < widthAt lines (last + 1) := by omega
        rw [same, List.dropWhile_cons_of_pos (by simpa using dropped)]
      · rw [same, dropWhile_dropWhile_lt next]

/-- A line that is indented no less than itself closes nothing. -/
theorem Layers.dropWhile_self (layers : Layers [] lines levels) (inside : place < lines.length) :
    (levels[place]?.getD []).dropWhile (widthAt lines place < ·) = levels[place]?.getD [] := by
  have head := layers.headD_eq inside
  generalize levels[place]?.getD [] = blocks at head ⊢
  cases blocks with
  | nil => rfl
  | cons block later =>
      obtain rfl : block = widthAt lines place := head
      exact List.dropWhile_cons_of_neg (by simp)

/-- The blocks of a line that is indented least of all since another are those of the other that are
no wider. -/
theorem Layers.suffix (layers : Layers [] lines levels) (order : first ≤ last)
    (inside : last < lines.length)
    (wide : ∀ place, first ≤ place → place < last → widthAt lines last ≤ widthAt lines place) :
    levels[last]?.getD [] = (levels[first]?.getD []).dropWhile (widthAt lines last < ·) := by
  rw [← layers.dropWhile_eq order inside fun place after upTo => ?_, layers.dropWhile_self inside]
  rcases Nat.lt_or_eq_of_le upTo with before | rfl
  · exact wide place after before
  · exact le_rfl

theorem Layers.depth_le (layers : Layers [] lines levels) (order : first ≤ last)
    (inside : last < lines.length)
    (wide : ∀ place, first ≤ place → place < last → widthAt lines last ≤ widthAt lines place) :
    depthAt levels last ≤ depthAt levels first := by
  rw [depthAt, depthAt, layers.suffix order inside wide]
  exact (List.dropWhile_sublist _).length_le

theorem Layers.depth_lt (layers : Layers [] lines levels) (order : first < last)
    (inside : last < lines.length)
    (wide : ∀ place, first < place → place ≤ last → widthAt lines first < widthAt lines place) :
    depthAt levels first < depthAt levels last := by
  have least : ∀ place, first ≤ place → place ≤ last → widthAt lines first ≤ widthAt lines place := by
    intro place after upTo
    rcases Nat.lt_or_eq_of_le after with later | rfl
    · exact (wide place later upTo).le
    · exact le_rfl
  have kept := layers.dropWhile_eq order.le inside least
  rw [layers.dropWhile_self (order.trans inside)] at kept
  have head := layers.headD_eq inside
  have deeper := wide last order le_rfl
  rw [depthAt, depthAt, ← kept]
  generalize levels[last]?.getD [] = blocks at head
  cases blocks with
  | nil =>
      have shallow : 0 = widthAt lines last := head
      omega
  | cons block later =>
      obtain rfl : block = widthAt lines last := head
      rw [List.dropWhile_cons_of_pos (by simpa using deeper), List.length_cons]
      exact Nat.lt_succ_of_le (List.dropWhile_sublist _).length_le

theorem Layers.depth_succ_le (layers : Layers [] lines levels) (inside : place + 1 < lines.length) :
    depthAt levels (place + 1) ≤ depthAt levels place + 1 := by
  rw [depthAt, depthAt]
  rcases openBlocks_eq_ok.1 (layers.step inside) with ⟨_, same⟩ | ⟨_, same, _⟩
  · rw [same, List.length_cons]
  · rw [same]
    exact Nat.le_succ_of_le (List.dropWhile_sublist _).length_le

/-- Widths and depths enclose alike. -/
theorem Layers.nearest_iff (layers : Layers [] lines levels) (inside : place < lines.length) :
    Nearest (widthAt lines) above place ↔ Nearest (depthAt levels) above place := by
  have forward : ∀ above, Nearest (widthAt lines) above place →
      Nearest (depthAt levels) above place := by
    intro above nearest
    refine ⟨nearest.before, layers.depth_lt nearest.before inside fun other after upTo => ?_,
      fun other after before => layers.depth_le before.le inside fun between from_ upTo =>
        nearest.between between (by omega) upTo⟩
    rcases Nat.lt_or_eq_of_le upTo with before | rfl
    · exact nearest.smaller.trans_le (nearest.between other after before)
    · exact nearest.smaller
  refine ⟨forward above, fun nearest => ?_⟩
  by_cases narrower : ∃ other, other < place ∧ widthAt lines other < widthAt lines place
  · obtain ⟨other, before, smaller⟩ := narrower
    obtain ⟨found, also⟩ := exists_nearest before smaller
    rw [nearest.unique (forward found also)]
    exact also
  · -- No earlier line is indented less, so that all blocks of this one are open since the first.
    have least := layers.depth_le nearest.before.le inside fun other _ before =>
      not_lt.1 fun less => narrower ⟨other, before, less⟩
    exact absurd nearest.smaller (not_lt.2 least)

/-- A line stands one block deeper than the one that encloses it. -/
theorem Layers.depth_eq (layers : Layers [] lines levels) (inside : place < lines.length)
    (nearest : Nearest (depthAt levels) above place) :
    depthAt levels place = depthAt levels above + 1 := by
  have before := nearest.before
  have deeper := nearest.smaller
  have next := layers.depth_succ_le (show above + 1 < lines.length by omega)
  by_cases here : above + 1 = place
  · subst here
    omega
  · have between := nearest.between (above + 1) (by omega) (by omega)
    omega

/-- Lines that are enclosed by the same line have the same width. -/
theorem Layers.aligned (layers : Layers [] lines levels) (order : first ≤ last)
    (inside : last < lines.length) (here : Nearest (widthAt lines) above first)
    (there : Nearest (widthAt lines) above last) : widthAt lines first = widthAt lines last := by
  have blocks := layers.suffix order inside fun place after before =>
    there.between place (here.before.trans_le after) before
  have depths : depthAt levels first = depthAt levels last := by
    rw [layers.depth_eq (order.trans_lt inside) ((layers.nearest_iff (order.trans_lt inside)).1 here),
      layers.depth_eq inside ((layers.nearest_iff inside).1 there)]
  have same : levels[last]?.getD [] = levels[first]?.getD [] := by
    rw [blocks]
    apply List.IsSuffix.eq_of_length (List.dropWhile_suffix _)
    rw [← blocks]
    exact depths.symm
  rw [← layers.headD_eq (order.trans_lt inside), ← layers.headD_eq inside, same]

end Layers

/-- Lines can be laid out, or one of them stands between two open blocks. -/
theorem exists_layers_or_stray (widths : List Nat) (lines : List SourceLine) :
    (∃ levels, Layers widths lines levels) ∨
      ∃ before line after levels, lines = before ++ line :: after ∧
        Layers widths before levels ∧
          ∀ blocks, openBlocks (levels.getLastD widths) line.width ≠ .ok blocks := by
  induction lines generalizing widths with
  | nil => exact .inl ⟨[], .nil⟩
  | cons line later induction =>
      cases opens : openBlocks widths line.width with
      | error fault =>
          refine .inr ⟨[], line, later, [], rfl, .nil, fun blocks same => ?_⟩
          rw [List.getLastD_nil, opens] at same
          cases same
      | ok blocks =>
          rcases induction blocks with ⟨levels, layers⟩ |
            ⟨before, stray, after, levels, rfl, layers, missing⟩
          · exact .inl ⟨_, .cons opens layers⟩
          · refine .inr ⟨line :: before, stray, after, blocks :: levels, rfl, .cons opens layers, ?_⟩
            rwa [List.getLastD_cons]

theorem widthAt_append_left {before later : List SourceLine} {place : Nat}
    (inside : place < before.length) : widthAt (before ++ later) place = widthAt before place := by
  rw [widthAt, widthAt, List.getElem?_append_left inside]

theorem widthAt_append_length (before after : List SourceLine) (line : SourceLine) :
    widthAt (before ++ line :: after) before.length = line.width := by
  simp [widthAt]

/-- Lines of which the first is not indented can be laid out if those that are enclosed by the same
line have the same width. -/
theorem exists_layers {lines : List SourceLine} (flush : widthAt lines 0 = 0)
    (aligned : ∀ above first last, first < lines.length → last < lines.length →
      Nearest (widthAt lines) above first → Nearest (widthAt lines) above last →
        widthAt lines first = widthAt lines last) :
    ∃ levels, Layers [] lines levels := by
  rcases exists_layers_or_stray [] lines with done | ⟨before, line, after, levels, rfl, layers, stray⟩
  · exact done
  · exfalso
    have width := widthAt_append_length before after line
    have early : ∀ place < before.length,
        widthAt (before ++ line :: after) place = widthAt before place :=
      fun place inside => widthAt_append_left inside
    cases count : before.length with
    | zero =>
        obtain rfl := List.length_eq_zero_iff.1 count
        have zero : line.width = 0 := flush
        cases layers
        exact stray [] (openBlocks_eq_ok.2 (.inr ⟨by simp [zero], by simp, by simp [zero]⟩))
    | succ previous =>
        have current : levels.getLastD [] = levels[previous]?.getD [] := by
          rw [List.getLastD_eq_getLast?, List.getLast?_eq_getElem?, layers.length_eq, count]
          rfl
        rw [current] at stray
        have head := layers.headD_eq (show previous < before.length by omega)
        by_cases deeper : widthAt before previous < line.width
        · exact stray _ (openBlocks_eq_ok.2 (.inl ⟨by omega, rfl⟩))
        · refine stray _ (openBlocks_eq_ok.2 (.inr ⟨by omega, rfl, ?_⟩))
          by_cases outermost : line.width = 0
          · -- All blocks are closed.
            rw [outermost]
            have none : ∀ blocks : List Nat, (blocks.dropWhile (0 < ·)).headD 0 = 0 := by
              intro blocks
              induction blocks with
              | nil => rfl
              | cons block later induction =>
                  cases block with
                  | zero => rfl
                  | succ block => simpa [List.dropWhile_cons] using induction
            exact none _
          · -- The first line in the enclosing block has the width of this one.
            have indented : widthAt (before ++ line :: after) 0 <
                widthAt (before ++ line :: after) before.length := by
              rw [flush, width]
              omega
            obtain ⟨above, nearest⟩ := exists_nearest (by omega) indented
            have within := nearest.before
            have smaller := nearest.smaller
            rw [width, early above within] at smaller
            have notLast : above ≠ previous := by
              rintro rfl
              exact deeper smaller
            have wide : ∀ place, above + 1 ≤ place → place ≤ previous →
                line.width ≤ widthAt before place := by
              intro place from_ upTo
              have between := nearest.between place (by omega) (by omega)
              rwa [width, early place (by omega)] at between
            have sibling : Nearest (widthAt (before ++ line :: after)) above (above + 1) := by
              refine ⟨Nat.lt_succ_self above, ?_, fun other more less => by omega⟩
              rw [early above within, early (above + 1) (by omega)]
              exact smaller.trans_le (wide (above + 1) le_rfl (by omega))
            have same := aligned above (above + 1) before.length (by simp; omega) (by simp) sibling nearest
            rw [width, early (above + 1) (by omega)] at same
            rw [layers.dropWhile_eq (show above + 1 ≤ previous by omega) (by omega) wide, ← same,
              layers.dropWhile_self (by omega), layers.headD_eq (by omega)]

end LiveTemplate.Template
