import LiveTemplate.Document.Html
import LiveTemplate.Proofs.Document.Walks
import LiveTemplate.Proofs.Template.Units

/-!
# HTML can be read back

From the HTML of a document its elements and texts are read back, but for the places where one text ends
and another one begins.  Values are arbitrary: since they are escaped, they neither introduce markup nor
hide any.
-/

namespace LiveTemplate

/-! ## Markup -/

/-- Elements and texts in order. -/
inductive Markup where
  | nil
  | text (content : String) (rest : Markup)
  | element (tag : String) (attributes : List (String × String)) (children rest : Markup)
deriving DecidableEq, Repr

namespace Markup

/-- Markup followed by other markup. -/
def append : Markup → Markup → Markup
  | nil, later => later
  | text content rest, later => text content (rest.append later)
  | element tag attributes children rest, later => element tag attributes children (rest.append later)

instance : Append Markup := ⟨append⟩

/-- Markup with a text before it, which joins a text with which that begins.  An empty text is left
out. -/
def prepend (content : String) : Markup → Markup
  | text more rest => text (content ++ more) rest
  | other => if content = "" then other else text content other

/-- Adjacent texts joined, and no empty ones. -/
def joined : Markup → Markup
  | nil => nil
  | text content rest => rest.joined.prepend content
  | element tag attributes children rest => element tag attributes children.joined rest.joined

@[simp]
theorem nil_append (later : Markup) : nil ++ later = later := rfl

@[simp]
theorem text_append (content : String) (rest later : Markup) :
    text content rest ++ later = text content (rest ++ later) := rfl

@[simp]
theorem element_append (tag : String) (attributes : List (String × String))
    (children rest later : Markup) : element tag attributes children rest ++ later =
      element tag attributes children (rest ++ later) := rfl

theorem append_assoc (first second third : Markup) :
    first ++ second ++ third = first ++ (second ++ third) := by
  induction first with
  | nil => rfl
  | text content rest induction => simp only [text_append, induction]
  | element tag attributes children rest _ induction => simp only [element_append, induction]

theorem prepend_empty (markup : Markup) : markup.prepend "" = markup := by
  cases markup <;> simp [prepend]

theorem prepend_prepend (first second : String) (markup : Markup) :
    (markup.prepend second).prepend first = markup.prepend (first ++ second) := by
  have bare : ∀ markup : Markup, (∀ content rest, markup ≠ text content rest) →
      (markup.prepend second).prepend first = markup.prepend (first ++ second) := by
    intro markup other
    by_cases empty : second = ""
    · rw [empty, prepend_empty, String.append_empty]
    · cases markup with
      | text content rest => exact (other content rest rfl).elim
      | nil => simp [prepend, empty]
      | element => simp [prepend, empty]
  cases markup with
  | text content rest => simp [prepend, String.append_assoc]
  | nil => exact bare _ nofun
  | element => exact bare _ nofun

/-- Before an element, a text stays by itself. -/
theorem prepend_element (content tag : String) (attributes : List (String × String))
    (children rest : Markup) : (element tag attributes children rest).prepend content =
      nil.prepend content ++ element tag attributes children rest := by
  by_cases empty : content = "" <;> simp [prepend, empty]

end Markup

/-- The attributes that are seen of an element: its own ones, and then its styles if it has any. -/
def NodeData.shown (data : NodeData) : List (String × String) :=
  data.attributes ++ if data.styles.isEmpty then [] else [("style", Html.styleValue data.styles)]

/-- The elements and texts of a forest, without anchors. -/
def Html.markup : Forest NodeId NodeData → Markup
  | .nil => .nil
  | .cons _ data children rest =>
    match data.kind with
    | .element tag => .element tag data.shown (markup children) (markup rest)
    | .text content => .text content (markup rest)
    | .anchor _ => markup rest

/-- What is seen of a node and of what is below it. -/
def Document.markup (document : Document) (node : NodeId) : Markup :=
  (Html.markup (document.nodes.subtree node)).joined

namespace Html

open Template (IsName)

/-! ## Reading -/

/-- Characters with the names of special ones replaced. -/
def unescaped : List Char → List Char
  | '&' :: 'a' :: 'm' :: 'p' :: ';' :: rest => '&' :: unescaped rest
  | '&' :: 'l' :: 't' :: ';' :: rest => '<' :: unescaped rest
  | '&' :: 'g' :: 't' :: ';' :: rest => '>' :: unescaped rest
  | '&' :: 'q' :: 'u' :: 'o' :: 't' :: ';' :: rest => '"' :: unescaped rest
  | c :: rest => c :: unescaped rest
  | [] => []

/-- The tag within a pair of angle brackets. -/
def tagOf (inside : List Char) : String :=
  String.ofList (inside.takeWhile (· != ' '))

/-- The attributes within a pair of angle brackets that is cut at its quotes.  A name comes after a space
and before an equals sign, and the value is quoted. -/
def attributesOf : List (List Char) → List (String × String)
  | before :: value :: later =>
    (String.ofList (((before.dropWhile (· != ' ')).drop 1).takeWhile (· != '=')),
      String.ofList (unescaped value)) :: attributesOf later
  | _ => []

/-- An element that was opened, and what came before it. -/
structure Opened where
  tag : String
  attributes : List (String × String)
  before : Markup

/-- HTML that was read in part: the open elements, the markup in the innermost one, and the characters
since the last angle bracket. -/
structure Reading where
  opened : List Opened
  before : Markup
  raw : List Char

namespace Reading

/-- The characters since the last angle bracket are a text. -/
def flushed (reading : Reading) : Reading :=
  ⟨reading.opened, reading.before ++ Markup.nil.prepend (String.ofList (unescaped reading.raw)), []⟩

/-- The characters since the last angle bracket open or close an element. -/
def tagged (reading : Reading) : Reading :=
  match reading.raw, reading.opened with
  | '/' :: _, element :: outer =>
    ⟨outer, element.before ++ .element element.tag element.attributes reading.before .nil, []⟩
  | raw, opened =>
    ⟨⟨tagOf raw, attributesOf (Text.pieces '"' raw), reading.before⟩ :: opened, .nil, []⟩

/-- One more character is read. -/
def step (reading : Reading) (c : Char) : Reading :=
  if c = '<' then reading.flushed
  else if c = '>' then reading.tagged
  else { reading with raw := reading.raw ++ [c] }

/-- More characters are read. -/
def run (reading : Reading) (text : List Char) : Reading :=
  text.foldl step reading

end Reading

/-- The markup that HTML stands for. -/
def decoded (html : String) : Markup :=
  (Reading.run ⟨[], .nil, []⟩ html.toList).flushed.before

/-! ## Escaped characters -/

section Escaping

variable {c d : Char}

theorem unescaped_escapeText (c : Char) (rest : List Char) :
    unescaped (escapeText c ++ rest) = c :: unescaped rest := by
  unfold escapeText
  split_ifs with ampersand less greater
  · rw [ampersand]
    rfl
  · rw [less]
    rfl
  · rw [greater]
    rfl
  · simp [unescaped, ampersand]

theorem unescaped_escapeValue (c : Char) (rest : List Char) :
    unescaped (escapeValue c ++ rest) = c :: unescaped rest := by
  unfold escapeValue
  split_ifs with quote
  · rw [quote]
    rfl
  · exact unescaped_escapeText c rest

/-- Whatever is escaped character by character is read back. -/
theorem unescaped_flatMap {escape : Char → List Char}
    (single : ∀ c rest, unescaped (escape c ++ rest) = c :: unescaped rest) (text : List Char) :
    unescaped (text.flatMap escape) = text := by
  induction text with
  | nil => rfl
  | cons c later induction => rw [List.flatMap_cons, single, induction]

/-- No angle brackets. -/
def Flat (text : List Char) : Prop :=
  '<' ∉ text ∧ '>' ∉ text

theorem Flat.append {first second : List Char} (one : Flat first) (other : Flat second) :
    Flat (first ++ second) := by
  simp only [Flat, List.mem_append, not_or]
  exact ⟨⟨one.1, other.1⟩, one.2, other.2⟩

theorem flat_escapeText (c : Char) : Flat (escapeText c) := by
  unfold escapeText
  split_ifs with ampersand less greater
  · exact ⟨by decide, by decide⟩
  · exact ⟨by decide, by decide⟩
  · exact ⟨by decide, by decide⟩
  · exact ⟨by simpa using Ne.symm less, by simpa using Ne.symm greater⟩

theorem flat_escapeValue (c : Char) : Flat (escapeValue c) := by
  unfold escapeValue
  split_ifs with quote
  · exact ⟨by decide, by decide⟩
  · exact flat_escapeText c

theorem quote_escapeValue (c : Char) : '"' ∉ escapeValue c := by
  unfold escapeValue escapeText
  split_ifs with quote ampersand less greater
  · decide
  · decide
  · decide
  · decide
  · simpa using Ne.symm quote

theorem flat_flatMap {escape : Char → List Char} (single : ∀ c, Flat (escape c)) (text : List Char) :
    Flat (text.flatMap escape) := by
  simp only [Flat, List.mem_flatMap, not_exists, not_and]
  exact ⟨fun c _ => (single c).1, fun c _ => (single c).2⟩

end Escaping

/-! ## Tags and attributes -/

/-- Attributes as they are written. -/
def spelled (attributes : List (String × String)) : List Char :=
  attributes.flatMap fun entry =>
    ' ' :: (entry.1.toList ++ '=' :: '"' :: (entry.2.toList.flatMap escapeValue ++ ['"']))

theorem toList_writtenAttribute (name value : String) :
    (writtenAttribute name value).toList = spelled [(name, value)] := by
  simp [writtenAttribute, writtenValue, spelled]

theorem toList_writtenAttributes (data : NodeData) :
    (writtenAttributes data).toList = spelled data.shown := by
  have own : ("".intercalate (data.attributes.map fun entry => writtenAttribute entry.1 entry.2)).toList =
      spelled data.attributes := by
    rw [String.toList_intercalate, String.toList_empty, Document.intercalate_eq_flatten, List.map_map,
      spelled, ← List.flatMap]
    congr 1
    funext entry
    simp [toList_writtenAttribute, spelled]
  rw [writtenAttributes, NodeData.shown, String.toList_append, own]
  split
  · simp
  · rw [toList_writtenAttribute]
    simp [spelled]

section Names

variable {name head : List Char} {c : Char} {attributes : List (String × String)}

/-- A name has no characters that mean something in HTML. -/
theorem ne_of_isName (named : IsName name) (special : Template.isNameCharacter c = false) : c ∉ name := by
  obtain ⟨first, later, rfl, start, all⟩ := named
  intro member
  rcases List.mem_cons.1 member with rfl | inside
  · rw [Template.isNameCharacter, Template.isSegmentCharacter, start] at special
    cases special
  · rw [all c inside] at special
    cases special

theorem forall_ne (absent : c ∉ head) : ∀ d ∈ head, (d != c) = true := by
  intro d member
  rw [bne_iff_ne]
  exact fun same => absent (same ▸ member)

theorem flat_spelled (named : ∀ entry ∈ attributes, IsName entry.1.toList) :
    Flat (spelled attributes) := by
  induction attributes with
  | nil => exact ⟨List.not_mem_nil, List.not_mem_nil⟩
  | cons entry later induction =>
      obtain ⟨here, there⟩ := List.forall_mem_cons.1 named
      have tag : Flat entry.1.toList := ⟨ne_of_isName here (by decide), ne_of_isName here (by decide)⟩
      have value := flat_flatMap flat_escapeValue entry.2.toList
      have space : Flat [' '] := ⟨by decide, by decide⟩
      have equals : Flat ['=', '"'] := ⟨by decide, by decide⟩
      have quote : Flat ['"'] := ⟨by decide, by decide⟩
      have whole := ((((space.append tag).append equals).append value).append quote).append (induction there)
      simpa [spelled] using whole

/-- The attributes are found between the quotes. -/
theorem attributesOf_spelled (quoteless : '"' ∉ head) (spaceless : ' ' ∉ head)
    (named : ∀ entry ∈ attributes, IsName entry.1.toList) :
    attributesOf (Text.pieces '"' (head ++ spelled attributes)) = attributes := by
  induction attributes generalizing head with
  | nil =>
      rw [spelled, List.flatMap_nil, List.append_nil, Template.pieces_of_not_mem quoteless]
      rfl
  | cons entry later induction =>
      obtain ⟨name, value⟩ := entry
      obtain ⟨here, there⟩ := List.forall_mem_cons.1 named
      have whole : head ++ spelled ((name, value) :: later) =
          (head ++ ' ' :: (name.toList ++ ['='])) ++ '"' ::
            (value.toList.flatMap escapeValue ++ '"' :: ([] ++ spelled later)) := by
        simp [spelled]
      have before : '"' ∉ head ++ ' ' :: (name.toList ++ ['=']) := by
        simp [quoteless, ne_of_isName here (c := '"') (by decide)]
      have inside : '"' ∉ value.toList.flatMap escapeValue := by
        simp [quote_escapeValue]
      have found : (((head ++ ' ' :: (name.toList ++ ['='])).dropWhile (· != ' ')).drop 1).takeWhile
          (· != '=') = name.toList := by
        have equals := forall_ne (ne_of_isName (c := '=') here (by decide))
        rw [List.dropWhile_append_of_pos (forall_ne spaceless), List.dropWhile_cons_of_neg (by decide),
          List.drop_one, List.tail_cons, List.takeWhile_append_of_pos equals,
          List.takeWhile_cons_of_neg (by decide), List.append_nil]
      rw [whole, Template.pieces_append before, Template.pieces_append inside, attributesOf, found,
        unescaped_flatMap unescaped_escapeValue, induction List.not_mem_nil List.not_mem_nil there,
        String.ofList_toList, String.ofList_toList]

/-- The tag comes before the first space. -/
theorem tagOf_spelled (spaceless : ' ' ∉ head) (attributes : List (String × String)) :
    tagOf (head ++ spelled attributes) = String.ofList head := by
  have rest : (spelled attributes).takeWhile (· != ' ') = [] := by
    cases attributes <;> rfl
  rw [tagOf, List.takeWhile_append_of_pos (forall_ne spaceless), rest, List.append_nil]

end Names

/-! ## Markup as it is written -/

/-- The HTML of markup. -/
def printed : Markup → List Char
  | .nil => []
  | .text content rest => content.toList.flatMap escapeText ++ printed rest
  | .element tag attributes children rest =>
    '<' :: (tag.toList ++ spelled attributes ++
      '>' :: (printed children ++ '<' :: ('/' :: tag.toList ++ '>' :: printed rest)))

/-- Elements and attributes have proper names. -/
def Named : Markup → Prop
  | .nil => True
  | .text _ rest => Named rest
  | .element tag attributes children rest =>
    (IsName tag.toList ∧ ∀ entry ∈ attributes, IsName entry.1.toList) ∧ Named children ∧ Named rest

/-- Elements have proper names, and so have their attributes.  Anchors are not seen. -/
def Legible (data : NodeData) : Prop :=
  match data.kind with
  | .element tag => IsName tag.toList ∧ ∀ entry ∈ data.attributes, IsName entry.1.toList
  | .text _ => True
  | .anchor label => label = none

theorem named_shown {data : NodeData} (named : ∀ entry ∈ data.attributes, IsName entry.1.toList) :
    ∀ entry ∈ data.shown, IsName entry.1.toList := by
  have style : IsName "style".toList :=
    ⟨'s', "tyle".toList, rfl, by decide, List.all_eq_true.1 (by decide)⟩
  intro entry member
  rcases List.mem_append.1 member with own | gathered
  · exact named entry own
  · split at gathered
    · cases gathered
    · obtain rfl := List.mem_singleton.1 gathered
      exact style

/-- A forest is written as its markup. -/
theorem toList_written {forest : Forest NodeId NodeData}
    (legible : ∀ entry ∈ forest.entries, Legible entry.2) :
    (written forest).toList = printed (markup forest) ∧ Named (markup forest) := by
  induction forest with
  | nil => exact ⟨rfl, trivial⟩
  | cons name data children rest inside induction =>
      simp only [Forest.entries, List.forall_mem_cons, List.forall_mem_append] at legible
      obtain ⟨here, below, there⟩ := legible
      obtain ⟨inner, innerNamed⟩ := inside below
      obtain ⟨later, laterNamed⟩ := induction there
      unfold Legible at here
      rw [written, markup, String.toList_append, later]
      cases kind : data.kind with
      | element tag =>
          simp only [kind] at here ⊢
          refine ⟨?_, ⟨here.1, named_shown here.2⟩, innerNamed, laterNamed⟩
          simp [inner, toList_writtenAttributes, printed]
      | text content =>
          simp only [writtenText, String.toList_ofList]
          exact ⟨rfl, laterNamed⟩
      | anchor label =>
          simp only [kind] at here
          subst here
          exact ⟨rfl, laterNamed⟩

/-! ## Reading what is written -/

namespace Reading

variable {opened : List Opened} {before : Markup} {raw text : List Char}

theorem run_append (reading : Reading) (first second : List Char) :
    reading.run (first ++ second) = (reading.run first).run second :=
  List.foldl_append

/-- Where there are no angle brackets, characters are only gathered. -/
theorem run_flat (flat : Flat text) :
    Reading.run ⟨opened, before, raw⟩ text = ⟨opened, before, raw ++ text⟩ := by
  induction text generalizing raw with
  | nil => simp [run]
  | cons c later induction =>
      simp only [Flat, List.mem_cons, not_or] at flat
      have here : step ⟨opened, before, raw⟩ c = ⟨opened, before, raw ++ [c]⟩ := by
        rw [step, if_neg (Ne.symm flat.1.1), if_neg (Ne.symm flat.2.1)]
      have following := @induction (raw ++ [c]) ⟨flat.1.2, flat.2.2⟩
      rw [List.append_assoc] at following
      rw [run, List.foldl_cons, here]
      exact following

theorem run_less (reading : Reading) (text : List Char) :
    reading.run ('<' :: text) = reading.flushed.run text := rfl

theorem run_greater (reading : Reading) (text : List Char) :
    reading.run ('>' :: text) = reading.tagged.run text := rfl

theorem flushed_text (content : String) :
    flushed ⟨opened, before, content.toList.flatMap escapeText⟩ =
      ⟨opened, before ++ Markup.nil.prepend content, []⟩ := by
  rw [flushed, unescaped_flatMap unescaped_escapeText, String.ofList_toList]

/-- An element is opened. -/
theorem tagged_open {tag : String} {attributes : List (String × String)} (named : IsName tag.toList)
    (all : ∀ entry ∈ attributes, IsName entry.1.toList) :
    tagged ⟨opened, before, tag.toList ++ spelled attributes⟩ =
      ⟨⟨tag, attributes, before⟩ :: opened, .nil, []⟩ := by
  have quoteless : '"' ∉ tag.toList := ne_of_isName named (by decide)
  have spaceless : ' ' ∉ tag.toList := ne_of_isName named (by decide)
  have slashless : '/' ∉ tag.toList := ne_of_isName named (by decide)
  have whole : tagged ⟨opened, before, tag.toList ++ spelled attributes⟩ =
      ⟨⟨tagOf (tag.toList ++ spelled attributes),
        attributesOf (Text.pieces '"' (tag.toList ++ spelled attributes)), before⟩ :: opened, .nil, []⟩ := by
    obtain ⟨first, later, same, -⟩ := named
    rw [same] at slashless ⊢
    unfold tagged
    split
    · rename_i start _
      exact (slashless ((List.cons.inj start).1 ▸ List.mem_cons_self)).elim
    · rfl
  rw [whole, tagOf_spelled spaceless, attributesOf_spelled quoteless spaceless all, String.ofList_toList]

theorem tagged_close (tag : String) (attributes : List (String × String)) (outer : Markup)
    (raw : List Char) : tagged ⟨⟨tag, attributes, outer⟩ :: opened, before, '/' :: raw⟩ =
      ⟨opened, outer ++ .element tag attributes before .nil, []⟩ := rfl

/-- What is written of markup is read after a text. -/
theorem run_printed {markup : Markup} (named : Named markup) (opened : List Opened) (before : Markup)
    (content : String) :
    (Reading.run ⟨opened, before, content.toList.flatMap escapeText⟩ (printed markup)).flushed =
      ⟨opened, before ++ markup.joined.prepend content, []⟩ := by
  induction markup generalizing opened before content with
  | nil => exact flushed_text content
  | text more rest induction =>
      rw [printed, run_append, run_flat (flat_flatMap flat_escapeText _), ← List.flatMap_append,
        ← String.toList_append, induction named, Markup.joined, Markup.prepend_prepend]
  | element tag attributes children rest inside induction =>
      obtain ⟨⟨proper, all⟩, inner, later⟩ := named
      have flat : Flat tag.toList := ⟨ne_of_isName proper (by decide), ne_of_isName proper (by decide)⟩
      have start : Flat ['/'] := ⟨by decide, by decide⟩
      have slash : Flat ('/' :: tag.toList) := start.append flat
      have below := inside inner (⟨tag, attributes, before ++ Markup.nil.prepend content⟩ :: opened) .nil ""
      have after := induction later opened (before ++ Markup.nil.prepend content ++
        .element tag attributes children.joined .nil) ""
      simp only [String.toList_empty, List.flatMap_nil, Markup.nil_append, Markup.prepend_empty]
        at below after
      -- the opening tag, what is inside, the closing tag, and what comes after it
      rw [printed, run_less, flushed_text, run_append, run_flat (flat.append (flat_spelled all)),
        List.nil_append, run_greater, tagged_open proper all]
      rw [run_append, run_less, below]
      rw [run_append, run_flat slash, List.nil_append, run_greater, tagged_close]
      rw [after, Markup.joined, Markup.prepend_element, Markup.append_assoc, Markup.append_assoc,
        Markup.element_append, Markup.nil_append]

end Reading

end Html

namespace Document

/-- HTML is decoded: what is seen of a node and of what is below it is read back, whatever the texts and
values are.  So two nodes with the same HTML are seen alike. -/
theorem html_decoded {document : Document} {node : NodeId}
    (legible : ∀ entry ∈ (document.nodes.subtree node).entries, Html.Legible entry.2) :
    Html.decoded (document.html node) = document.markup node ∧
      ∀ other place, (∀ entry ∈ (other.nodes.subtree place).entries, Html.Legible entry.2) →
        Document.html other place = document.html node →
          Document.markup other place = document.markup node := by
  have read : ∀ other place, (∀ entry ∈ (other.nodes.subtree place).entries, Html.Legible entry.2) →
      Html.decoded (Document.html other place) = Document.markup other place := by
    intro other place legible
    obtain ⟨same, named⟩ := Html.toList_written legible
    have whole := Html.Reading.run_printed named [] .nil ""
    rw [String.toList_empty, List.flatMap_nil, Markup.prepend_empty, Markup.nil_append] at whole
    rw [Html.decoded, Document.html, same, whole, Document.markup]
  refine ⟨read document node legible, fun other place also same => ?_⟩
  rw [← read other place also, same, read document node legible]

/-- A note with two texts beside each other, an anchor between them, and a text without characters. -/
def noted : Document where
  nodes := .cons ⟨0, 0⟩
    { kind := .element "p", attributes := [("title", "<\"x\">")],
      styles := [("color", "a\"b"), ("top", "0")] }
    (.cons ⟨1, 0⟩ (.text "1 <") .nil <| .cons ⟨2, 0⟩ (.anchor none) .nil <|
      .cons ⟨3, 0⟩ (.text "/p>&lt;") .nil <|
        .cons ⟨4, 0⟩ (.element "b") (.cons ⟨5, 0⟩ (.text "") .nil .nil) .nil) .nil

theorem html_decoded_noted :
    (∀ entry ∈ (noted.nodes.subtree ⟨0, 0⟩).entries, Html.Legible entry.2) ∧
      noted.html ⟨0, 0⟩ = "<p title=\"&lt;&quot;x&quot;&gt;\" style=\"color: a&quot;b; top: 0\">" ++
        "1 &lt;/p&gt;&amp;lt;<b></b></p>" ∧
      Html.decoded (noted.html ⟨0, 0⟩) =
        .element "p" [("title", "<\"x\">"), ("style", "color: a\"b; top: 0")]
          (.text "1 </p>&lt;" (.element "b" [] .nil .nil)) .nil := by
  have name : ∀ name ∈ ["p", "b", "title"], Template.IsName name.toList := by
    simp only [List.forall_mem_cons, List.not_mem_nil, false_imp_iff, implies_true, and_true]
    exact ⟨⟨'p', [], rfl, by decide, List.forall_mem_nil _⟩,
      ⟨'b', [], rfl, by decide, List.forall_mem_nil _⟩,
      ⟨'t', "itle".toList, rfl, by decide, List.all_eq_true.1 (by decide)⟩⟩
  have legible : ∀ entry ∈ (noted.nodes.subtree ⟨0, 0⟩).entries, Html.Legible entry.2 := by
    simp only [noted, Forest.subtree, Forest.entries, if_true, List.forall_mem_cons, List.append_nil,
      List.nil_append, List.not_mem_nil, false_imp_iff, implies_true, and_true]
    exact ⟨⟨name _ (by simp), by simpa using name "title" (by simp)⟩, trivial, rfl, trivial,
      ⟨name _ (by simp), List.forall_mem_nil _⟩, trivial⟩
  refine ⟨legible, by decide +kernel, ?_⟩
  rw [(html_decoded legible).1]
  decide +kernel

end Document

end LiveTemplate
