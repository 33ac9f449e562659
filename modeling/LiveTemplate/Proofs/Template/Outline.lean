import LiveTemplate.Proofs.Matching
import LiveTemplate.Proofs.Template.Enclosure
import LiveTemplate.Template.Parse
import Mathlib.Data.List.Pairwise

/-!
# Reading an outline

The outline of a sequence of rows is read off their depths: the children of a row are the rows that
it encloses.  An outline is read if every row takes the rows below it, from the last row to the first.
-/

namespace LiveTemplate.Template

/-- The positions among `count` many from `first` on that no earlier one of them encloses. -/
def outermost (depth : Nat → Nat) (first : Nat) : Nat → List Nat
  | 0 => []
  | count + 1 => first :: (outermost depth (first + 1) count).filter fun place =>
      decide (depth place ≤ depth first)

/-- The positions among `count` many after `above` that it encloses. -/
def enclosed (depth : Nat → Nat) (above count : Nat) : List Nat :=
  (outermost depth (above + 1) count).filter fun place => decide (depth above < depth place)

section Outermost

variable {depth : Nat → Nat} {first above place count : Nat}

theorem mem_outermost : place ∈ outermost depth first count ↔
    first ≤ place ∧ place < first + count ∧
      ∀ other, first ≤ other → other < place → depth place ≤ depth other := by
  induction count generalizing first with
  | zero => simp only [outermost, List.not_mem_nil, false_iff]; omega
  | succ count induction =>
      simp only [outermost, List.mem_cons, List.mem_filter, induction, decide_eq_true_eq]
      constructor
      · rintro (rfl | ⟨⟨after, inside, least⟩, less⟩)
        · exact ⟨le_rfl, by omega, fun other from_ before => by omega⟩
        · refine ⟨by omega, by omega, fun other from_ before => ?_⟩
          rcases Nat.lt_or_eq_of_le from_ with later | rfl
          · exact least other later before
          · exact less
      · rintro ⟨from_, inside, least⟩
        rcases Nat.lt_or_eq_of_le from_ with later | rfl
        · exact .inr ⟨⟨later, by omega, fun other after before => least other (by omega) before⟩,
            least first le_rfl later⟩
        · exact .inl rfl

theorem outermost_ascending : (outermost depth first count).Pairwise (· < ·) := by
  induction count generalizing first with
  | zero => exact .nil
  | succ count induction =>
      refine List.pairwise_cons.2 ⟨fun place member => ?_, induction.filter _⟩
      exact (mem_outermost.1 (List.mem_filter.1 member).1).1

/-- Outermost positions do not get deeper. -/
theorem outermost_descending :
    (outermost depth first count).Pairwise fun early late => depth late ≤ depth early := by
  refine outermost_ascending.imp_of_mem fun {early late} here there before => ?_
  exact (mem_outermost.1 there).2.2 early (mem_outermost.1 here).1 before

theorem mem_enclosed : place ∈ enclosed depth above count ↔
    place < above + 1 + count ∧ Nearest depth above place := by
  simp only [enclosed, List.mem_filter, mem_outermost, decide_eq_true_eq]
  constructor
  · rintro ⟨⟨after, inside, least⟩, deeper⟩
    exact ⟨inside, after, deeper, fun other from_ before => least other from_ before⟩
  · rintro ⟨inside, after, deeper, least⟩
    exact ⟨⟨after, inside, fun other from_ before => least other from_ before⟩, deeper⟩

/-- In a sequence that does not get deeper, the deeper part comes first. -/
theorem takeWhile_deeper {bound : Nat} {places : List Nat}
    (descending : places.Pairwise fun early late => depth late ≤ depth early) :
    places.takeWhile (fun place => decide (bound < depth place)) =
        places.filter (fun place => decide (bound < depth place)) ∧
      places.dropWhile (fun place => decide (bound < depth place)) =
        places.filter fun place => decide (depth place ≤ bound) := by
  induction places with
  | nil => exact ⟨rfl, rfl⟩
  | cons place later induction =>
      obtain ⟨shallower, descends⟩ := List.pairwise_cons.1 descending
      obtain ⟨takes, drops⟩ := induction descends
      by_cases deeper : bound < depth place
      · have notBelow : ¬ depth place ≤ bound := not_le.2 deeper
        simp [deeper, notBelow, takes, drops]
      · have below : depth place ≤ bound := not_lt.1 deeper
        have all : ∀ other ∈ later, depth other ≤ bound :=
          fun other member => (shallower other member).trans below
        constructor
        · rw [List.takeWhile_cons_of_neg (by simpa using below), eq_comm, List.filter_eq_nil_iff]
          simpa using ⟨below, all⟩
        · rw [List.dropWhile_cons_of_neg (by simpa using below), eq_comm, List.filter_eq_self]
          simpa using ⟨below, all⟩

/-- Two ascending sequences with the same members are the same. -/
theorem eq_of_ascending {first second : List Nat} (one : first.Pairwise (· < ·))
    (other : second.Pairwise (· < ·)) (same : ∀ place, place ∈ first ↔ place ∈ second) :
    first = second :=
  List.Perm.eq_of_pairwise (fun _ _ _ _ less more => (Nat.lt_asymm less more).elim) one other
    ((List.perm_ext_iff_of_nodup (one.imp Nat.ne_of_lt) (other.imp Nat.ne_of_lt)).2 same)

end Outermost

/-! ## The outline -/

instance : Inhabited Branch := ⟨⟨0, 0, [], .nil⟩⟩

/-- The branch of the row at a position. -/
def branchAt (rows : List Row) (place : Nat) : Branch :=
  (branches (rows.drop place)).headD default

/-- The depth of the row at a position. -/
def rowDepth (rows : List Row) (place : Nat) : Nat :=
  (rows[place]?.map Row.depth).getD 0

section Outline

variable {rows : List Row} {row : Row} {place count : Nat}

/-- The branch of a row takes the deeper ones among those that follow. -/
theorem branches_drop_cons (found : rows[place]? = some row) :
    branches (rows.drop place) = ⟨row.depth, row.line, row.lexemes,
      .ofBranches ((branches (rows.drop (place + 1))).takeWhile (row.depth < ·.depth))⟩ ::
        (branches (rows.drop (place + 1))).dropWhile (row.depth < ·.depth) := by
  obtain ⟨inside, rfl⟩ := List.getElem?_eq_some_iff.1 found
  rw [List.drop_eq_getElem_cons inside, branches]

theorem depth_branchAt (rows : List Row) (place : Nat) :
    (branchAt rows place).depth = rowDepth rows place := by
  cases found : rows[place]? with
  | none =>
      rw [branchAt, rowDepth, found, List.drop_of_length_le (List.getElem?_eq_none_iff.1 found)]
      rfl
  | some row =>
      rw [branchAt, rowDepth, found, branches_drop_cons found]
      rfl

theorem takeWhile_branchAt (bound : Nat) (places : List Nat) :
    (places.map (branchAt rows)).takeWhile (bound < ·.depth) =
        (places.takeWhile (bound < rowDepth rows ·)).map (branchAt rows) ∧
      (places.map (branchAt rows)).dropWhile (bound < ·.depth) =
        (places.dropWhile (bound < rowDepth rows ·)).map (branchAt rows) := by
  simp only [List.takeWhile_map, List.dropWhile_map, Function.comp_def, depth_branchAt, and_self]

/-- The outermost branches of rows are those of the outermost rows. -/
theorem branches_drop (whole : place + count = rows.length) :
    branches (rows.drop place) = (outermost (rowDepth rows) place count).map (branchAt rows) := by
  induction count generalizing place with
  | zero =>
      rw [List.drop_of_length_le (by omega)]
      rfl
  | succ count induction =>
      have found : rows[place]? = some rows[place] := List.getElem?_eq_getElem (by omega)
      have same : rows[place].depth = rowDepth rows place := by simp [rowDepth, found]
      have here : branchAt rows place = _ := congrArg (List.headD · default) (branches_drop_cons found)
      rw [List.headD_cons] at here
      rw [branches_drop_cons found, ← here, outermost, List.map_cons, induction (by omega), same,
        (takeWhile_branchAt _ _).2, (takeWhile_deeper outermost_descending).2]

/-- The block of a row has the branches of the rows that it encloses. -/
theorem block_branchAt (found : rows[place]? = some row) (whole : place + 1 + count = rows.length) :
    branchAt rows place = ⟨row.depth, row.line, row.lexemes,
      .ofBranches ((enclosed (rowDepth rows) place count).map (branchAt rows))⟩ := by
  have same : row.depth = rowDepth rows place := by simp [rowDepth, found]
  rw [branchAt, branches_drop_cons found, List.headD_cons, branches_drop whole, same,
    (takeWhile_branchAt _ _).1, (takeWhile_deeper outermost_descending).1]
  rfl

end Outline

/-! ## Reading the outline -/

/-- The nodes of one branch. -/
def readBranch (branch : Branch) : Except ParseError (List Node) := do
  let header ← (readHeader branch.lexemes).mapError (·.on branch.line)
  header.nodes branch.line branch.block (parseLines branch.block)

theorem parseLines_cons (branch : Branch) (later : List Branch) :
    parseLines (.ofBranches (branch :: later)) = do
      let nodes ← readBranch branch
      let following ← parseLines (.ofBranches later)
      return nodes ++ following := by
  rw [Outline.ofBranches, parseLines, readBranch]
  cases (readHeader branch.lexemes).mapError (·.on branch.line) <;> rfl

theorem parseLines_eq_ok {branches : List Branch} {nodes : List Node} :
    parseLines (.ofBranches branches) = .ok nodes ↔
      ∃ bodies, List.Forall₂ (fun branch body => readBranch branch = .ok body) branches bodies ∧
        nodes = bodies.flatten := by
  induction branches generalizing nodes with
  | nil =>
      rw [Outline.ofBranches, parseLines]
      constructor
      · intro same
        exact ⟨[], .nil, (Except.ok.inj same).symm⟩
      · rintro ⟨bodies, all, rfl⟩
        cases all
        rfl
  | cons branch later induction =>
      rw [parseLines_cons]
      constructor
      · intro same
        cases here : readBranch branch with
        | error fault =>
            rw [here] at same
            cases same
        | ok body =>
            cases there : parseLines (.ofBranches later) with
            | error fault =>
                rw [here, there] at same
                cases same
            | ok following =>
                rw [here, there] at same
                obtain ⟨bodies, all, rfl⟩ := induction.1 there
                exact ⟨body :: bodies, .cons here all, (Except.ok.inj same).symm⟩
      · rintro ⟨bodies, all, rfl⟩
        cases all with
        | cons here later =>
            rw [here, induction.2 ⟨_, later, rfl⟩]
            rfl

/-- The nodes of a line with a header, around the nodes of the lines that it encloses. -/
def Header.around (header : Header) (line : Nat) (body : List Node) : List Node :=
  match header with
  | .element tag attributes content => [.element tag attributes (content.map .text ++ body) line]
  | .text content => content.map .text
  | .block _ rule path => [.directive rule path body]
  | .view name none => [.view name]
  | .view name (some path) => [.directive (.view name) path []]

/-- Whether a header asks for lines below it, or does not allow them. -/
def Header.Takes (header : Header) (inner : List Nat) : Prop :=
  match header with
  | .element .. => True
  | .block .. => inner ≠ []
  | .text _ | .view .. => inner = []

/-- A branch is read if its header takes the block below it and that is read. -/
theorem Header.nodes_eq_ok {header : Header} {line : Nat} {nodes : List Node} {inner : List Nat}
    {branch : Nat → Branch} :
    header.nodes line (.ofBranches (inner.map branch)) (parseLines (.ofBranches (inner.map branch))) =
        .ok nodes ↔
      header.Takes inner ∧ ∃ bodies,
        List.Forall₂ (fun place body => readBranch (branch place) = .ok body) inner bodies ∧
          nodes = header.around line bodies.flatten := by
  have body : ∀ {result : List Node → List Node},
      (parseLines (.ofBranches (inner.map branch)) >>= fun children => .ok (result children)) =
          (.ok nodes : Except ParseError (List Node)) ↔
        ∃ bodies, List.Forall₂ (fun place body => readBranch (branch place) = .ok body) inner bodies ∧
          nodes = result bodies.flatten := by
    intro result
    constructor
    · intro same
      cases read : parseLines (.ofBranches (inner.map branch)) with
      | error fault =>
          rw [read] at same
          cases same
      | ok children =>
          rw [read] at same
          obtain ⟨bodies, all, rfl⟩ := parseLines_eq_ok.1 read
          exact ⟨bodies, List.forall₂_map_left_iff.1 all, (Except.ok.inj same).symm⟩
    · rintro ⟨bodies, all, rfl⟩
      rw [parseLines_eq_ok.2 ⟨bodies, List.forall₂_map_left_iff.2 all, rfl⟩]
      rfl
  have bare : ∀ {result : List Node}, (.ok result = (.ok nodes : Except ParseError (List Node))) ↔
      ∃ bodies, List.Forall₂ (fun place body => readBranch (branch place) = .ok body) [] bodies ∧
        nodes = result := by
    intro result
    simp [List.forall₂_nil_left_iff, eq_comm]
  cases header with
  | element tag attributes content =>
      simp only [Header.nodes, Header.Takes, Header.around, true_and]
      exact body
  | block keyword rule path =>
      cases inner with
      | nil => simp [Header.nodes, Header.Takes, Outline.ofBranches]
      | cons first later =>
          simp only [Header.nodes, Header.Takes, Header.around, ne_eq, reduceCtorEq, not_false_eq_true,
            true_and]
          exact body
  | text content =>
      cases inner with
      | nil =>
          simp only [Header.nodes, Header.Takes, Header.around, true_and]
          exact bare
      | cons first later => simp [Header.nodes, Header.Takes, Outline.ofBranches]
  | view name path =>
      cases inner with
      | nil =>
          cases path <;>
          · simp only [Header.nodes, Header.Takes, Header.around, true_and]
            exact bare
      | cons first later => simp [Header.nodes, Header.Takes, Outline.ofBranches]

/-- The template that the nodes of its first line are. -/
def templateOf (line : Nat) : List Node → Except ParseError Template
  | [.element tag attributes children place] => .ok ⟨tag, attributes, children, place⟩
  | _ => .error (.rootNotElement line)

theorem templateOf_eq_ok {line : Nat} {nodes : List Node} {template : Template} :
    templateOf line nodes = .ok template ↔ nodes = [template.root] := by
  constructor
  · intro same
    unfold templateOf at same
    split at same
    · obtain rfl := Except.ok.inj same
      rfl
    · cases same
  · rintro rfl
    rfl

theorem parseOutline_cons (branch : Branch) (later : List Branch) :
    parseOutline (.ofBranches (branch :: later)) = (readBranch branch >>= fun nodes =>
      match later with
      | [] => templateOf branch.line nodes
      | next :: _ => .error (.multipleRoots next.line)) := by
  rw [Outline.ofBranches, parseOutline, readBranch]
  cases (readHeader branch.lexemes).mapError (·.on branch.line) with
  | error => rfl
  | ok header =>
      simp only [bind, Except.bind]
      cases header.nodes branch.line branch.block (parseLines branch.block) with
      | error => rfl
      | ok nodes =>
          cases later <;> rfl

/-- A template is a single branch that is read as an element. -/
theorem parseOutline_eq_ok {branch : Branch} {later : List Branch} {template : Template} :
    parseOutline (.ofBranches (branch :: later)) = .ok template ↔
      later = [] ∧ readBranch branch = .ok [template.root] := by
  rw [parseOutline_cons]
  cases readBranch branch with
  | error fault => simp [bind, Except.bind]
  | ok nodes =>
      cases later with
      | nil => simp [bind, Except.bind, templateOf_eq_ok]
      | cons next beyond => simp [bind, Except.bind]

/-- The header of a template's first line is an element. -/
theorem Header.around_eq_root {header : Header} {line : Nat} {body : List Node} {template : Template}
    (same : header.around line body = [template.root]) :
    ∃ tag attributes content, header = .element tag attributes content := by
  cases header with
  | element tag attributes content => exact ⟨tag, attributes, content, rfl⟩
  | block keyword rule path => simp [Header.around, root] at same
  | text content =>
      cases content <;> simp [Header.around, root] at same
  | view name path => cases path <;> simp [Header.around, root] at same

/-- Rows are a template if the first one is not indented, is the only outermost one, and is read as an
element. -/
theorem parseRows_eq_ok {rows : List Row} {template : Template} (nonempty : 0 < rows.length) :
    parseRows rows = .ok template ↔
      rowDepth rows 0 = 0 ∧ outermost (rowDepth rows) 0 rows.length = [0] ∧
        readBranch (branchAt rows 0) = .ok [template.root] := by
  have opened := branches_drop (Nat.zero_add rows.length)
  cases rows with
  | nil => cases nonempty
  | cons first later =>
      have depth : rowDepth (first :: later) 0 = first.depth := rfl
      rw [List.drop_zero, List.length_cons, outermost, List.map_cons] at opened
      rw [parseRows, outline, opened, List.length_cons, outermost, List.cons_inj_right, depth]
      by_cases deep : 0 < first.depth
      · rw [if_pos deep]
        exact iff_of_false (by simp) fun conditions => by omega
      · rw [if_neg deep, parseOutline_eq_ok, List.map_eq_nil_iff]
        exact (and_iff_right (by omega)).symm

end LiveTemplate.Template
