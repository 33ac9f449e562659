import LiveTemplate.Proofs.Template.Grammar

/-!
# Reading what stands in a line

A line is read if and only if there is a heading for it, which is then the only one.
-/

namespace LiveTemplate.Template.Grammar

variable {input rest : List Lexeme}

/-! ## Units -/

theorem Name.unit_injective : Function.Injective Name.unit := by
  intro first second same
  cases first <;> cases second <;> simp_all [unit]

theorem Part.unit_injective : Function.Injective Part.unit := by
  intro first second same
  cases first <;> cases second <;> simp_all [unit]

theorem Value.unit_injective : Function.Injective Value.unit := by
  intro first second same
  cases first <;> cases second <;> simp_all [unit]

theorem Place.unit_injective : Function.Injective Place.unit := by
  intro first second same
  cases first <;> cases second <;> simp_all [unit]

theorem name?_eq_some {unit : Lexeme} {name : String} :
    unit.name? = some name ↔ ∃ tree : Name, tree.unit = unit ∧ tree.text = name := by
  constructor
  · intro found
    unfold Lexeme.name? at found
    split at found
    · exact ⟨.identifier _, rfl, Option.some.inj found⟩
    · exact ⟨.keyword _, rfl, Option.some.inj found⟩
    · cases found
  · rintro ⟨_ | _, rfl, rfl⟩ <;> rfl

theorem readName_eq_ok {name : String} : readName input = .ok (name, rest) ↔
    ∃ tree : Name, input = tree.unit :: rest ∧ tree.text = name := by
  constructor
  · intro read
    unfold readName at read
    split at read
    · cases read
    · split at read
      · rename_i found
        cases read
        obtain ⟨tree, rfl, rfl⟩ := name?_eq_some.1 found
        exact ⟨tree, rfl, rfl⟩
      · cases read
  · rintro ⟨_ | _, rfl, rfl⟩ <;> rfl

theorem readEquals_eq_ok : readEquals input = .ok rest ↔ input = .equals :: rest := by
  constructor
  · intro read
    unfold readEquals at read
    split at read
    · cases read
      rfl
    · cases read
  · rintro rfl
    rfl

theorem readValue_eq_ok {value : Expression} : readValue input = .ok (value, rest) ↔
    ∃ tree : Value, input = tree.unit :: rest ∧ tree.expression = value := by
  constructor
  · intro read
    unfold readValue at read
    split at read
    · cases read
      exact ⟨.literal _, rfl, rfl⟩
    · cases read
      exact ⟨.bound _, rfl, rfl⟩
    · cases read
      exact ⟨.identifier _, rfl, rfl⟩
    · cases read
  · rintro ⟨_ | _ | _, rfl, rfl⟩ <;> rfl

theorem readPath_eq_ok {path : Path} : readPath input = .ok (path, rest) ↔
    ∃ tree : Place, input = tree.unit :: rest ∧ tree.path = path := by
  constructor
  · intro read
    unfold readPath at read
    split at read
    · cases read
      exact ⟨.bound _, rfl, rfl⟩
    · cases read
      exact ⟨.identifier _, rfl, rfl⟩
    · cases read
  · rintro ⟨_ | _, rfl, rfl⟩ <;> rfl

/-! ## Attributes -/

theorem bind_eq_ok {Fault First Second : Type} {act : Except Fault First}
    {next : First → Except Fault Second} {result : Second} :
    (act >>= next) = .ok result ↔ ∃ first, act = .ok first ∧ next first = .ok result := by
  cases act <;> simp [bind, Except.bind]

theorem readBang_eq {bang : Bool} : readBang input = (bang, rest) ↔
    input = mark bang ++ rest ∧ (bang = false → rest.head? ≠ some .bang) := by
  constructor
  · intro read
    unfold readBang at read
    split at read
    · cases read
      exact ⟨rfl, nofun⟩
    · rename_i other
      cases read
      refine ⟨rfl, fun _ first => ?_⟩
      obtain ⟨later, rfl⟩ := List.head?_eq_some_iff.1 first
      exact other later rfl
  · rintro ⟨rfl, follow⟩
    cases bang with
    | true => rfl
    | false =>
        cases rest with
        | nil => rfl
        | cons first later =>
            cases first <;> first | rfl | exact (follow rfl rfl).elim

/-- An event without a mark is not followed by one. -/
def Attribute.Stops (tree : Attribute) (rest : List Lexeme) : Prop :=
  match tree with
  | .event _ _ false => rest.head? ≠ some .bang
  | _ => True

theorem Name.eq_identifier {tree : Name} {name : String} (same : tree.text = name)
    (free : Keyword.ofWord? name = none) : tree = .identifier name := by
  cases tree with
  | identifier other => rw [show other = name from same]
  | keyword which =>
      subst same
      cases which <;> cases free

theorem exists_attribute_of_read {written : Lexeme} {name : String} {entry : Template.Attribute}
    (named : written.name? = some name) (read : readAttribute written name input = .ok (entry, rest)) :
    ∃ tree : Attribute, written :: input = tree.units ++ rest ∧ tree.entry = entry ∧
      tree.Stops rest := by
  obtain ⟨called, rfl, rfl⟩ := name?_eq_some.1 named
  unfold readAttribute at read
  split at read
  · simp only [bind_eq_ok, readName_eq_ok, readEquals_eq_ok, Prod.exists] at read
    obtain ⟨_, afterName, ⟨qualified, rfl, rfl⟩, afterEquals, rfl, read⟩ := read
    split at read
    · rename_i style
      obtain rfl := Name.eq_identifier style (by decide)
      simp only [bind_eq_ok, readValue_eq_ok, Prod.exists] at read
      obtain ⟨_, _, ⟨value, rfl, rfl⟩, same⟩ := read
      cases same
      exact ⟨.style qualified value, rfl, rfl, trivial⟩
    · split at read
      · rename_i event
        obtain rfl := Name.eq_identifier event (by decide)
        simp only [bind_eq_ok, readName_eq_ok, Prod.exists] at read
        obtain ⟨_, afterAction, ⟨action, rfl, rfl⟩, same⟩ := read
        cases marked : readBang afterAction with
        | mk bang after =>
            rw [marked] at same
            cases same
            obtain ⟨rfl, follow⟩ := readBang_eq.1 marked
            refine ⟨.event qualified action bang, ?_, rfl, ?_⟩
            · simp only [Attribute.units, List.cons_append, List.nil_append]
              rfl
            · cases bang with
              | true => trivial
              | false => exact follow rfl
      · cases read
  · simp only [bind_eq_ok, readEquals_eq_ok, readValue_eq_ok, Prod.exists] at read
    obtain ⟨_, rfl, _, _, ⟨value, rfl, rfl⟩, same⟩ := read
    cases same
    exact ⟨.property called value, rfl, rfl, trivial⟩

theorem Attribute.read_units {written : Lexeme} {name : String} (tree : Attribute)
    (named : written.name? = some name) (same : written :: input = tree.units ++ rest)
    (stops : tree.Stops rest) : readAttribute written name input = .ok (tree.entry, rest) := by
  obtain ⟨called, rfl, rfl⟩ := name?_eq_some.1 named
  cases tree with
  | property name value =>
      obtain ⟨unit, rfl⟩ := List.cons.inj same
      obtain rfl := Name.unit_injective unit
      cases value <;> rfl
  | style name value =>
      obtain ⟨unit, rfl⟩ := List.cons.inj same
      obtain rfl : called = .identifier "style" := Name.unit_injective unit
      cases name <;> cases value <;> rfl
  | event name action bang =>
      rw [Attribute.units, List.append_assoc] at same
      obtain ⟨unit, rfl⟩ := List.cons.inj same
      obtain rfl : called = .identifier "event" := Name.unit_injective unit
      have marked : readBang (mark bang ++ rest) = (bang, rest) :=
        readBang_eq.2 ⟨rfl, by rintro rfl; exact stops⟩
      have acted : readAttribute (.identifier "event") "event"
          (.colon :: name.unit :: .equals :: action.unit :: (mark bang ++ rest)) =
            .ok (.event name.text action.text (readBang (mark bang ++ rest)).1,
              (readBang (mark bang ++ rest)).2) := by
        cases name <;> cases action <;> rfl
      rw [marked] at acted
      exact acted

theorem readAttribute_eq_ok {written : Lexeme} {name : String} {entry : Template.Attribute}
    (named : written.name? = some name) :
    readAttribute written name input = .ok (entry, rest) ↔
      ∃ tree : Attribute, written :: input = tree.units ++ rest ∧ tree.entry = entry ∧
        tree.Stops rest := by
  constructor
  · exact exists_attribute_of_read named
  · rintro ⟨tree, same, rfl, stops⟩
    exact tree.read_units named same stops

/-- An attribute begins with a name. -/
theorem Attribute.exists_units (tree : Attribute) :
    ∃ (name : Name) (later : List Lexeme), tree.units = name.unit :: later := by
  cases tree with
  | property name value => exact ⟨name, _, rfl⟩
  | style name value => exact ⟨.identifier "style", _, rfl⟩
  | event name action bang => exact ⟨.identifier "event", _, rfl⟩

theorem name?_unit (tree : Name) : tree.unit.name? = some tree.text :=
  name?_eq_some.2 ⟨tree, rfl, rfl⟩

theorem readAttributes_cons (first : Name) (input : List Lexeme) :
    readAttributes (first.unit :: input) = do
      let (entry, rest) ← readAttribute first.unit first.text input
      let (entries, rest) ← readAttributes rest
      return (entry :: entries, rest) := by
  have other : ∀ rest, first.unit :: input ≠ .bracketClose :: rest := by
    intro rest same
    cases first <;> cases same
  rw [readAttributes.eq_def]
  split
  · rename_i empty
    cases empty
  · rename_i rest same
    exact (other rest same).elim
  · rename_i unit later _ same
    cases same
    rw [name?_unit]
    dsimp only
    cases readAttribute first.unit first.text input with
    | error fault => rfl
    | ok read =>
        obtain ⟨entry, rest⟩ := read
        dsimp only [bind, Except.bind]
        cases readAttributes rest <;> rfl

/-- What follows an attribute within a list is no mark. -/
theorem head?_attributes (trees : List Attribute) (rest : List Lexeme) :
    (trees.flatMap Attribute.units ++ .bracketClose :: rest).head? ≠ some .bang := by
  cases trees with
  | nil => exact nofun
  | cons tree later =>
      obtain ⟨name, inner, same⟩ := tree.exists_units
      rw [List.flatMap_cons, same]
      cases name <;> exact nofun

theorem readAttributes_eq_ok {entries : List Template.Attribute} :
    readAttributes input = .ok (entries, rest) ↔
      ∃ trees : List Attribute, input = trees.flatMap Attribute.units ++ .bracketClose :: rest ∧
        trees.map Attribute.entry = entries := by
  constructor
  · intro read
    fun_induction readAttributes input generalizing entries rest with
    | case1 => cases read
    | case2 later =>
        cases read
        exact ⟨[], rfl, rfl⟩
    | case3 => cases read
    | case4 => cases read
    | case5 => cases read
    | case6 first after _ name named entry middle here entries rest there induction =>
        cases read
        obtain ⟨tree, same, rfl, _⟩ := (readAttribute_eq_ok named).1 here
        obtain ⟨trees, rfl, rfl⟩ := induction there
        exact ⟨tree :: trees, by rw [same, List.flatMap_cons, List.append_assoc], rfl⟩
  · rintro ⟨trees, rfl, rfl⟩
    induction trees with
    | nil =>
        rw [List.flatMap_nil, List.nil_append, readAttributes]
        rfl
    | cons tree later induction =>
        obtain ⟨name, inner, same⟩ := tree.exists_units
        have stops : tree.Stops (later.flatMap Attribute.units ++ .bracketClose :: rest) := by
          unfold Attribute.Stops
          split
          · exact head?_attributes later rest
          · trivial
        rw [List.flatMap_cons, List.append_assoc, same, List.cons_append, readAttributes_cons,
          (readAttribute_eq_ok (name?_unit name)).2 ⟨tree, by rw [same]; rfl, rfl, stops⟩]
        simp only [bind, Except.bind, induction]
        rfl

/-! ## Texts -/

/-- The symbol is no piece of a text. -/
def Apart (next : Option Lexeme) : Prop :=
  ∀ part : Part, next ≠ some part.unit

theorem readContent_eq {content : List Expression} : readContent input = (content, rest) ↔
    ∃ parts : List Part, input = parts.map Part.unit ++ rest ∧
      parts.map Part.expression = content ∧ Apart rest.head? := by
  constructor
  · intro read
    fun_induction readContent input generalizing content with
    | case1 text later induction =>
        cases read
        obtain ⟨parts, same, content, apart⟩ := induction rfl
        exact ⟨.literal text :: parts, congrArg (.literal text :: ·) same,
          congrArg (_ :: ·) content, apart⟩
    | case2 path later induction =>
        cases read
        obtain ⟨parts, same, content, apart⟩ := induction rfl
        exact ⟨.bound path :: parts, congrArg (.bound path :: ·) same,
          congrArg (_ :: ·) content, apart⟩
    | case3 other noLiteral noBound =>
        cases read
        refine ⟨[], rfl, rfl, fun part first => ?_⟩
        obtain ⟨later, same⟩ := List.head?_eq_some_iff.1 first
        cases part with
        | literal text => exact noLiteral text later same
        | bound path => exact noBound path later same
  · rintro ⟨parts, rfl, rfl, apart⟩
    induction parts with
    | nil =>
        rw [List.map_nil, List.nil_append]
        unfold readContent
        split
        · exact (apart (.literal _) rfl).elim
        · exact (apart (.bound _) rfl).elim
        · rfl
    | cons part later induction =>
        cases part <;>
        · rw [List.map_cons, List.cons_append, Part.unit, readContent, induction]
          rfl

/-- A text that goes on up to the end of its line. -/
theorem readContent_parts (parts : List Part) :
    readContent (parts.map Part.unit) = (parts.map Part.expression, []) :=
  readContent_eq.2 ⟨parts, (List.append_nil _).symm, rfl, fun _ => nofun⟩

/-! ## Headings -/

theorem readView_eq_ok {header : Header} : readView input = .ok (header, []) ↔
    ∃ tree : View, input = tree.units ∧ Header.view tree.name tree.path = header := by
  constructor
  · intro read
    unfold readView at read
    split at read
    · cases read
      exact ⟨.named _ (some _), rfl, rfl⟩
    · cases read
      exact ⟨.named _ none, rfl, rfl⟩
    · cases read
      exact ⟨.last _, rfl, rfl⟩
    · cases read
  · rintro ⟨_ | _, rfl, rfl⟩
    · rename_i path
      cases path <;> rfl
    · rfl

theorem blockRule?_eq_some {which : Keyword} {rule : Rule} :
    which.blockRule? = some rule ↔ ∃ tree : Directive, tree.keyword = which ∧ tree.rule = rule := by
  constructor
  · intro found
    cases which <;> cases found
    · exact ⟨.if, rfl, rfl⟩
    · exact ⟨.unless, rfl, rfl⟩
    · exact ⟨.in, rfl, rfl⟩
    · exact ⟨.collection, rfl, rfl⟩
  · rintro ⟨_ | _ | _ | _, rfl, rfl⟩ <;> rfl

theorem readDirective_eq_ok {header : Header} : readDirective input = .ok (header, []) ↔
    (∃ (which : Directive) (place : Place), input = [.keyword which.keyword, place.unit] ∧
      Header.block which.keyword which.rule place.path = header) ∨
    ∃ shown : View, input = .keyword .view :: shown.units ∧
      Header.view shown.name shown.path = header := by
  constructor
  · intro read
    unfold readDirective at read
    split at read
    · rename_i which after
      cases ruled : which.blockRule? with
      | some rule =>
          rw [ruled] at read
          obtain ⟨tree, rfl, rfl⟩ := blockRule?_eq_some.1 ruled
          simp only [bind_eq_ok, readPath_eq_ok, Prod.exists] at read
          obtain ⟨_, _, ⟨place, rfl, rfl⟩, same⟩ := read
          cases same
          exact .inl ⟨tree, place, rfl, rfl⟩
      | none =>
          rw [ruled] at read
          obtain ⟨shown, rfl, rfl⟩ := readView_eq_ok.1 read
          obtain rfl : which = .view := by cases which <;> first | rfl | cases ruled
          exact .inr ⟨shown, rfl, rfl⟩
    · cases read
    · cases read
  · rintro (⟨which, place, rfl, rfl⟩ | ⟨shown, rfl, rfl⟩)
    · cases which <;> cases place <;> rfl
    · exact readView_eq_ok.2 ⟨shown, rfl, rfl⟩

/-- Without a bracket there is no attribute list. -/
theorem readElement_eq (tag : String) {input : List Lexeme} (bare : input.head? ≠ some .bracketOpen) :
    readElement tag input =
      .ok (.element tag [] (readContent input).1, (readContent input).2) := by
  unfold readElement
  split
  · exact (bare rfl).elim
  · rfl

theorem readElement_eq_ok {tag : String} {header : Header} :
    readElement tag input = .ok (header, []) ↔
      ∃ opening : Opening, .identifier tag :: input = opening.units ∧
        (Heading.element opening).header = header := by
  by_cases bracket : input.head? = some .bracketOpen
  · obtain ⟨after, rfl⟩ := List.head?_eq_some_iff.1 bracket
    simp only [readElement, bind_eq_ok, readAttributes_eq_ok, Prod.exists]
    constructor
    · rintro ⟨_, _, ⟨trees, rfl, rfl⟩, same⟩
      cases read : readContent _ with
      | mk content remaining =>
          rw [read] at same
          cases same
          obtain ⟨parts, rfl, rfl, _⟩ := readContent_eq.1 read
          refine ⟨⟨tag, some trees, parts⟩, ?_, rfl⟩
          simp [Opening.units, bracketed]
    · rintro ⟨⟨_, list, parts⟩, same, rfl⟩
      obtain ⟨tagged, inner⟩ := List.cons.inj same
      cases tagged
      cases list with
      | none => cases parts with
        | nil => cases inner
        | cons part later => cases part <;> cases inner
      | some trees =>
          refine ⟨_, parts.map Part.unit, ⟨trees, ?_, rfl⟩, ?_⟩
          · simpa [bracketed] using inner
          · rw [readContent_parts]
            rfl
  · rw [readElement_eq tag bracket]
    constructor
    · intro same
      cases read : readContent input with
      | mk content remaining =>
          rw [read] at same
          cases same
          obtain ⟨parts, rfl, rfl, _⟩ := readContent_eq.1 read
          exact ⟨⟨tag, none, parts⟩, by simp [Opening.units, bracketed], rfl⟩
    · rintro ⟨⟨_, list, parts⟩, same, rfl⟩
      obtain ⟨tagged, rfl⟩ := List.cons.inj same
      cases tagged
      cases list with
      | some trees => exact (bracket rfl).elim
      | none =>
          have read := readContent_parts parts
          simp only [bracketed, List.append_eq, List.nil_append, read]
          rfl

/-- All of a line is read. -/
theorem whole_eq_ok {act : Except HeaderFault (Header × List Lexeme)} {header : Header} :
    (do let found ← act
        endOfLine found.2
        return found.1) = .ok header ↔ act = .ok (header, []) := by
  simp only [bind_eq_ok]
  constructor
  · rintro ⟨⟨found, rest⟩, rfl, _, ended, same⟩
    cases same
    unfold endOfLine at ended
    cases rest with
    | nil => rfl
    | cons first later => cases ended
  · rintro rfl
    exact ⟨_, rfl, (), rfl, rfl⟩

theorem text_eq_ok {header : Header} : (.ok (.text (readContent input).1, (readContent input).2) :
    Except HeaderFault (Header × List Lexeme)) = .ok (header, []) ↔
      ∃ parts : List Part, parts.map Part.unit = input ∧
        Header.text (parts.map Part.expression) = header := by
  constructor
  · intro same
    cases read : readContent input with
    | mk content rest =>
        rw [read] at same
        cases same
        obtain ⟨parts, rfl, rfl, _⟩ := readContent_eq.1 read
        exact ⟨parts, (List.append_nil _).symm, rfl⟩
  · rintro ⟨parts, rfl, rfl⟩
    rw [readContent_parts]

/-- A line is read if and only if it has a heading. -/
theorem readHeader_eq_ok {header : Header} :
    readHeader input = .ok header ↔ ∃ heading : Heading, heading.units = input ∧
      heading.header = header := by
  constructor
  · intro read
    unfold readHeader at read
    split at read
    · obtain ⟨which, place, rfl, rfl⟩ | ⟨shown, rfl, rfl⟩ := readDirective_eq_ok.1 (whole_eq_ok.1 read)
      · exact ⟨.directive which place, rfl, rfl⟩
      · exact ⟨.view shown, rfl, rfl⟩
    · obtain ⟨opening, same, rfl⟩ := readElement_eq_ok.1 (whole_eq_ok.1 read)
      exact ⟨.element opening, same.symm, rfl⟩
    · obtain ⟨parts, same, rfl⟩ := text_eq_ok.1 (whole_eq_ok.1 read)
      obtain ⟨part, later, rfl, _, _⟩ := List.map_eq_cons_iff.1 same
      exact ⟨.text part later, same, rfl⟩
    · obtain ⟨parts, same, rfl⟩ := text_eq_ok.1 (whole_eq_ok.1 read)
      obtain ⟨part, later, rfl, _, _⟩ := List.map_eq_cons_iff.1 same
      exact ⟨.text part later, same, rfl⟩
    · cases read
  · rintro ⟨heading, rfl, rfl⟩
    cases heading with
    | element opening =>
        exact whole_eq_ok.2 (readElement_eq_ok.2 ⟨opening, rfl, rfl⟩)
    | text first later =>
        have read := text_eq_ok.2 ⟨first :: later, rfl, rfl⟩
        cases first <;> exact whole_eq_ok.2 read
    | directive which place =>
        exact whole_eq_ok.2 (readDirective_eq_ok.2 (.inl ⟨which, place, rfl, rfl⟩))
    | view shown =>
        exact whole_eq_ok.2 (readDirective_eq_ok.2 (.inr ⟨shown, rfl, rfl⟩))

/-! ## Headings are unique -/

theorem Part.units_injective : Function.Injective (List.map Part.unit) :=
  List.map_injective_iff.2 Part.unit_injective

theorem Directive.keyword_injective : Function.Injective Directive.keyword := by
  intro first second same
  cases first <;> cases second <;> first | rfl | cases same

theorem View.units_injective : Function.Injective View.units := by
  intro first second same
  rcases first with ⟨_, _ | _⟩ | _ <;> rcases second with ⟨_, _ | _⟩ | _ <;> cases same <;> rfl

theorem mark_append_inj {bang other : Bool} {more : List Lexeme} (unmarked : rest.head? ≠ some .bang)
    (also : more.head? ≠ some .bang) (same : mark bang ++ rest = mark other ++ more) :
    bang = other ∧ rest = more := by
  cases bang <;> cases other
  · exact ⟨rfl, same⟩
  · subst same
    exact (unmarked rfl).elim
  · subst same
    exact (also rfl).elim
  · exact ⟨rfl, (List.cons.inj same).2⟩

/-- An attribute can be told from its symbols, unless a mark may still follow. -/
theorem Attribute.units_append_inj {first second : Attribute} {more : List Lexeme}
    (unmarked : rest.head? ≠ some .bang) (also : more.head? ≠ some .bang)
    (same : first.units ++ rest = second.units ++ more) : first = second ∧ rest = more := by
  cases first <;> cases second <;>
    simp only [units, List.cons_append, List.nil_append, List.cons.injEq, reduceCtorEq, false_and,
      and_false, true_and, Lexeme.identifier.injEq, String.reduceEq] at same
  · obtain ⟨name, value, rfl⟩ := same
    exact ⟨by rw [Name.unit_injective name, Value.unit_injective value], rfl⟩
  · obtain ⟨name, value, rfl⟩ := same
    exact ⟨by rw [Name.unit_injective name, Value.unit_injective value], rfl⟩
  · obtain ⟨name, action, tail⟩ := same
    obtain ⟨rfl, rfl⟩ := mark_append_inj unmarked also tail
    exact ⟨by rw [Name.unit_injective name, Name.unit_injective action], rfl⟩

theorem attributes_append_inj {first second : List Attribute} {more : List Lexeme}
    (same : first.flatMap Attribute.units ++ .bracketClose :: rest =
      second.flatMap Attribute.units ++ .bracketClose :: more) : first = second ∧ rest = more := by
  -- No attribute begins with a bracket.
  have open_ : ∀ (tree : Attribute) (units after : List Lexeme),
      tree.units ++ units ≠ .bracketClose :: after := by
    intro tree units after same
    obtain ⟨name, inner, begins⟩ := tree.exists_units
    rw [begins] at same
    cases name <;> cases same
  induction first generalizing second with
  | nil =>
      cases second with
      | nil => exact ⟨rfl, (List.cons.inj same).2⟩
      | cons tree later =>
          rw [List.flatMap_cons, List.append_assoc] at same
          exact (open_ _ _ _ same.symm).elim
  | cons tree later induction =>
      cases second with
      | nil =>
          rw [List.flatMap_cons, List.append_assoc] at same
          exact (open_ _ _ _ same).elim
      | cons other following =>
          rw [List.flatMap_cons, List.flatMap_cons, List.append_assoc, List.append_assoc] at same
          obtain ⟨rfl, tail⟩ := Attribute.units_append_inj (head?_attributes _ _)
            (head?_attributes _ _) same
          obtain ⟨rfl, rfl⟩ := induction tail
          exact ⟨rfl, rfl⟩

theorem Opening.units_injective : Function.Injective Opening.units := by
  rintro ⟨tag, first, parts⟩ ⟨other, second, pieces⟩ same
  obtain ⟨tagged, inner⟩ := List.cons.inj same
  cases tagged
  have bare : ∀ (parts : List Part) (after : List Lexeme),
      parts.map Part.unit ≠ .bracketOpen :: after := by
    intro parts after same
    obtain ⟨part, _, _, unit, _⟩ := List.map_eq_cons_iff.1 same
    cases part <;> cases unit
  cases first with
  | none =>
      cases second with
      | none =>
          have equal : parts = pieces := Part.units_injective inner
          rw [equal]
      | some list => exact (bare parts _ inner).elim
  | some list =>
      cases second with
      | none => exact (bare pieces _ inner.symm).elim
      | some others =>
          simp only [bracketed, List.append_eq, List.cons_append, List.append_assoc,
            List.nil_append, List.cons.injEq, true_and] at inner
          obtain ⟨rfl, tail⟩ := attributes_append_inj inner
          rw [Part.units_injective tail]

/-- A line has one heading at most. -/
theorem Heading.units_injective : Function.Injective Heading.units := by
  intro first second same
  cases first with
  | element opening =>
      cases second with
      | element other => rw [Opening.units_injective same]
      | text part later => cases part <;> cases same
      | directive which place => cases same
      | view shown => cases same
  | text part later =>
      cases second with
      | element other => cases part <;> cases same
      | text another others =>
          cases Part.units_injective same
          rfl
      | directive which place => cases part <;> cases same
      | view shown => cases part <;> cases same
  | directive which place =>
      cases second with
      | element other => cases same
      | text part later => cases part <;> cases same
      | directive other also =>
          simp only [units, List.cons.injEq, true_and, and_true, Lexeme.keyword.injEq] at same
          rw [Directive.keyword_injective same.1, Place.unit_injective same.2]
      | view shown => cases which <;> cases same
  | view shown =>
      cases second with
      | element other => cases same
      | text part later => cases part <;> cases same
      | directive which place => cases which <;> cases same
      | view other => rw [View.units_injective (List.cons.inj (List.cons.inj same).2).2]

end LiveTemplate.Template.Grammar
