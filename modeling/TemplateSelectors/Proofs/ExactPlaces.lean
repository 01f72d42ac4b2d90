import Mathlib
import TemplateSelectors.Proofs.BlockStructure
import TemplateSelectors.Proofs.PartPlaces

/-!
# Places are exact

The items of a source stand one behind the other, each with the span of its text, so a block
reaches from its opening tag to the end of its close tag, and a chained block to the start of the
close tag that it shares.  Hence the place of every part of a template that was read gives two
offsets of the source, and what lies between them is the part as it is written.
-/

set_option autoImplicit false

namespace TemplateSelectors

/-! ## Cutting at offsets -/

namespace Text

def isBoundary (offset : Nat) (text : Text) : Bool :=
  (dropBytes? offset text).isSome

theorem dropBytes?_append (front rest : Text) : dropBytes? front.size (front ++ rest) = some rest := by
  induction front with
  | nil => simp [dropBytes?]
  | cons c front inductionHypothesis =>
      obtain ⟨count, size⟩ : ∃ count, c.utf8Size + Text.size front = count + 1 :=
        ⟨c.utf8Size + Text.size front - 1, by have := Char.utf8Size_pos c; omega⟩
      have left : count + 1 - c.utf8Size = Text.size front := by omega
      rw [size_cons, size, List.cons_append, dropBytes?, if_pos (by omega), left,
        inductionHypothesis]

theorem takeBytes?_append (front rest : Text) :
    takeBytes? front.size (front ++ rest) = some front := by
  induction front with
  | nil => simp [takeBytes?]
  | cons c front inductionHypothesis =>
      obtain ⟨count, size⟩ : ∃ count, c.utf8Size + Text.size front = count + 1 :=
        ⟨c.utf8Size + Text.size front - 1, by have := Char.utf8Size_pos c; omega⟩
      have left : count + 1 - c.utf8Size = Text.size front := by omega
      rw [size_cons, size, List.cons_append, takeBytes?, if_pos (by omega), left,
        inductionHypothesis, Option.map_some]

theorem slice?_append (front middle rest : Text) :
    slice? front.size (front.size + middle.size) (front ++ (middle ++ rest)) = some middle := by
  rw [slice?, if_pos (by omega), dropBytes?_append, Option.bind_some, Nat.add_sub_cancel_left,
    takeBytes?_append]

theorem exists_of_dropBytes? {offset : Nat} {text rest : Text}
    (found : dropBytes? offset text = some rest) :
    ∃ front, text = front ++ rest ∧ front.size = offset := by
  fun_induction dropBytes? offset text with
  | case1 text =>
      cases found
      exact ⟨[], rfl, rfl⟩
  | case2 => cases found
  | case3 count c text fits inductionHypothesis =>
      obtain ⟨front, rfl, size⟩ := inductionHypothesis found
      refine ⟨c :: front, rfl, ?_⟩
      rw [size_cons, size]
      omega
  | case4 => cases found

theorem isBoundary_append (front rest : Text) : isBoundary front.size (front ++ rest) = true := by
  rw [isBoundary, dropBytes?_append]
  rfl

theorem isBoundary_iff {offset : Nat} {text : Text} :
    isBoundary offset text = true ↔ ∃ front rest, text = front ++ rest ∧ front.size = offset := by
  constructor
  · intro boundary
    obtain ⟨rest, found⟩ := Option.isSome_iff_exists.mp boundary
    obtain ⟨front, whole, size⟩ := exists_of_dropBytes? found
    exact ⟨front, rest, whole, size⟩
  · rintro ⟨front, rest, rfl, rfl⟩
    exact isBoundary_append front rest

end Text

theorem LineIndex.eq_of_position {source : Text} {first second : Nat}
    (left : source.isBoundary first = true) (right : source.isBoundary second = true)
    (same : (LineIndex.ofText source).position first = (LineIndex.ofText source).position second) :
    first = second := by
  obtain ⟨front, rest, whole, rfl⟩ := Text.isBoundary_iff.mp left
  obtain ⟨front', rest', whole', rfl⟩ := Text.isBoundary_iff.mp right
  rw [LineIndex.eq_of_position_eq whole whole' same]

variable {source : Text}

/-! ## Items in a row -/

namespace Item

def parts : Item → List Part
  | .statement s => s.parts
  | .opening tag _ => tag.parts
  | .otherwise tag _ => [.elseTag tag]
  | .chain tag _ => tag.parts
  | .closing tag _ => [.closeTag tag]

def span? : Item → Option Span
  | .statement _ => none
  | .opening _ span => some span
  | .otherwise _ span => some span
  | .chain _ span => some span
  | .closing _ span => some span

/-- An item behind `front`: it covers its text, and its parts are exact. -/
structure StandsAt (source front : Text) (item : Item) : Prop where
  spans : ∀ span, item.span? = some span → span = ⟨front.size, front.size + item.text.size⟩
  exact : ∀ part ∈ item.parts, part.Exact source

/-- The items from `front` to the end of the source. -/
def Placed (source : Text) : (front : Text) → List Item → Prop
  | front, [] => source = front
  | front, item :: items => item.StandsAt source front ∧ Placed source (front ++ item.text) items

theorem Placed.whole {front : Text} {items : List Item} (placed : Placed source front items) :
    source = front ++ items.flatMap text := by
  induction items generalizing front with
  | nil => rw [List.flatMap_nil, List.append_nil, ← show source = front from placed]
  | cons item items inductionHypothesis =>
      rw [List.flatMap_cons, ← List.append_assoc]
      exact inductionHypothesis placed.2

theorem parts_ofMustache (markup : Markup) (tag : Tag) :
    (ofMustache markup tag).parts = tag.parts ∧ (ofMustache markup tag).span? = none := by
  unfold ofMustache
  split
  · exact ⟨rfl, rfl⟩
  · exact ⟨rfl, rfl⟩

theorem standsAt_of_makes {markup markup' : Markup} {front rest : Text} {lexeme : Lexeme}
    {item : Item} (whole : source = front ++ (lexeme.raw ++ rest))
    (made : Makes (.ofText source) markup front.size lexeme item markup') :
    item.StandsAt source front := by
  have text := text_of_makes made
  cases made with
  | comment opener value closer =>
      refine ⟨by simp [span?], ?_⟩
      simp only [parts, Statement.parts, List.forall_mem_singleton]
      exact ⟨front, rest, whole, rfl⟩
  | triple found =>
      refine ⟨by simp [span?], ?_⟩
      simp only [parts, Statement.parts]
      exact Tag.parts_of_read whole rfl found
  | @opening opener inner closer body tag form found =>
      have around : source = front ++ (opener ++ ['#'] ++ body ++ closer ++ rest) := by
        rw [whole, Lexeme.raw, TagForm.eq_of_opening form]
        simp
      refine ⟨?_, Tag.parts_of_read around rfl found⟩
      rintro span ⟨⟩
      rw [text, Lexeme.raw]
  | closing opener closer form =>
      refine ⟨?_, ?_⟩
      · rintro span ⟨⟩
        rfl
      · simp only [parts, List.forall_mem_singleton]
        exact ⟨front, rest, whole, rfl⟩
  | otherwise opener closer form =>
      refine ⟨?_, ?_⟩
      · rintro span ⟨⟩
        rfl
      · simp only [parts, List.forall_mem_singleton]
        exact ⟨front, rest, whole, rfl⟩
  | @chain opener inner closer spaces body tag form found =>
      have around : source =
          front ++ (opener ++ spaces ++ elseWord ++ body ++ closer ++ rest) := by
        rw [whole, Lexeme.raw, TagForm.eq_of_chain form]
        simp
      refine ⟨?_, Tag.parts_of_read around rfl found⟩
      rintro span ⟨⟩
      rw [text, Lexeme.raw]
  | mustache form found =>
      obtain ⟨inside, none⟩ := parts_ofMustache markup _
      refine ⟨?_, ?_⟩
      · intro span given
        rw [none] at given
        cases given
      · rw [inside]
        exact Tag.parts_of_read whole rfl found

theorem placed_ofText {front chars : Text} (rest : Text) {items : List Item}
    (whole : source = front ++ (chars ++ rest)) (behind : Placed source (front ++ chars) items) :
    Placed source front (ofText (.ofText source) front.size chars ++ items) := by
  cases chars with
  | nil => simpa [ofText] using behind
  | cons c chars =>
      refine ⟨⟨by simp [span?], ?_⟩, behind⟩
      simp only [parts, Statement.parts, List.forall_mem_singleton]
      exact ⟨front, rest, whole, rfl⟩

theorem placed_of_scans {markup : Markup} {start : Nat} {front text : Text} {items : List Item}
    (scans : Scans (.ofText source) markup start text items) (here : start = front.size)
    (whole : source = front ++ text) : Placed source front items := by
  induction scans generalizing front with
  | @last markup start text chars run =>
      have split := textRun_append false false text
      rw [run, List.append_nil] at split
      subst here split
      rw [← List.append_nil (ofText _ _ _)]
      apply placed_ofText []
      · simpa using whole
      · exact whole
  | @lexeme markup markup' start text chars behind rest lexeme item items run read made more
      inductionHypothesis =>
      have split := textRun_append false false text
      rw [run, Lexeme.append_eq_of_read read] at split
      subst here
      have inside : source = (front ++ chars) ++ (lexeme.raw ++ rest) := by
        rw [whole, ← split]
        simp
      have made' := ofLexeme_eq_ok_iff.mp made
      rw [← Text.size_append] at made' inductionHypothesis
      apply placed_ofText (lexeme.raw ++ rest)
      · simpa using inside
      · refine ⟨standsAt_of_makes inside made', ?_⟩
        rw [text_of_makes made']
        apply inductionHypothesis
        · simp only [Text.size_append]
        · rw [inside]
          simp

end Item

/-! ## Blocks -/

namespace Template

/-- Statements that are built from items in a row are exact, and what remains stands behind
them. -/
def ExactBody (source : Text) (items : List Item) (statements : List Statement)
    (stop : Break) : Prop :=
  ∀ front, Item.Placed source front items →
    (∀ part ∈ statementParts statements, part.Exact source) ∧
      Item.Placed source (front ++ printStatements statements) stop.items

/-- So are two halves of a block, with the close tag behind them. -/
def ExactSection (source : Text) (items : List Item) (program : List Statement)
    (inverse : Option Inverse) (close : CloseTag) (closeSpan : Span) (rest : List Item) : Prop :=
  ∀ front, Item.Placed source front items →
    (∀ part ∈ statementParts program ++ inverseParts inverse, part.Exact source) ∧
      Item.Placed source (front ++ (printStatements program ++ printInverse inverse))
        (.closing close closeSpan :: rest)

section

variable {items behind rest : List Item} {program second statements : List Statement}
  {inverse : Option Inverse} {close : CloseTag} {closeSpan : Span} {stop : Break}

theorem exactBody_nil (stop : Break) : ExactBody source stop.items [] stop := by
  intro front placed
  exact ⟨by simp [statementParts], by simpa [printStatements] using placed⟩

theorem exactBody_statement (statement : Statement) (more : ExactBody source rest statements stop) :
    ExactBody source (.statement statement :: rest) (statement :: statements) stop := by
  intro front placed
  obtain ⟨here, behind⟩ := placed
  obtain ⟨parts, remaining⟩ := more _ behind
  refine ⟨?_, by simpa [printStatements, Item.text] using remaining⟩
  intro part member
  rw [statementParts, List.mem_append] at member
  rcases member with first | later
  · exact here.exact part first
  · exact parts part later

/-- A block reaches from its opening tag to the end of its close tag. -/
theorem exactBody_block (tag : Tag) (span : Span)
    (inner : ExactSection source items program inverse close closeSpan rest)
    (more : ExactBody source rest statements stop) :
    ExactBody source (.opening tag span :: items)
      (.block ⟨tag, program, inverse, some close,
        (LineIndex.ofText source).sourceSpan ⟨span.start, closeSpan.stop⟩⟩ :: statements) stop := by
  intro front placed
  obtain ⟨opened, behind⟩ := placed
  obtain ⟨between, closing, remaining⟩ := inner _ behind
  obtain ⟨parts, final⟩ := more _ remaining
  have whole := remaining.whole
  have start := opened.spans span rfl
  have finish := closing.spans closeSpan rfl
  refine ⟨?_, by simpa [printStatements, Statement.print, Block.print, printClose, Item.text]
    using final⟩
  intro part member
  simp only [statementParts, Statement.parts, Block.parts, List.cons_append, List.mem_cons,
    List.mem_append, List.append_assoc, Option.toList_some, List.map_cons, List.map_nil,
    List.nil_append] at member
  rcases member with rfl | inTag | inProgram | inInverse | rfl | later
  · refine ⟨front, rest.flatMap Item.text, ?_, ?_⟩
    · rw [whole]
      simp [Part.written, Block.print, printClose, Item.text]
    · simp only [Part.loc, Part.written, Block.print, printClose, start, finish, Item.text,
        Text.size_append]
      congr 2
      omega
  · exact opened.exact part inTag
  · exact between part (List.mem_append_left _ inProgram)
  · exact between part (List.mem_append_right _ inInverse)
  · exact closing.exact _ (List.mem_singleton_self _)
  · exact parts part later

theorem exactSection_plain (body : ExactBody source items program (.closing close closeSpan rest)) :
    ExactSection source items program none close closeSpan rest := by
  intro front placed
  obtain ⟨parts, remaining⟩ := body front placed
  exact ⟨by simpa [inverseParts] using parts, by simpa [printInverse, Break.items] using remaining⟩

theorem exactSection_otherwise {elseTag : ElseTag} {elseSpan : Span}
    (body : ExactBody source items program (.otherwise elseTag elseSpan behind))
    (half : ExactBody source behind second (.closing close closeSpan rest)) :
    ExactSection source items program (some (.otherwise elseTag second)) close closeSpan rest := by
  intro front placed
  obtain ⟨parts, divided, following⟩ := body front placed
  obtain ⟨others, remaining⟩ := half _ following
  refine ⟨?_, by simpa [printInverse, Inverse.print, Item.text, Break.items] using remaining⟩
  intro part member
  simp only [inverseParts, Inverse.parts, List.mem_append, List.mem_cons] at member
  rcases member with first | rfl | later
  · exact parts part first
  · exact divided.exact _ (List.mem_singleton_self _)
  · exact others part later

/-- A chained block reaches up to the close tag that it shares. -/
theorem exactSection_chain {chainTag : Tag} {chainSpan : Span}
    (body : ExactBody source items program (.chain chainTag chainSpan behind))
    (inner : ExactSection source behind second inverse close closeSpan rest) :
    ExactSection source items program
      (some (.chained ⟨chainTag, second, inverse, none,
        (LineIndex.ofText source).sourceSpan ⟨chainSpan.start, closeSpan.start⟩⟩))
      close closeSpan rest := by
  intro front placed
  obtain ⟨parts, chained, following⟩ := body front placed
  obtain ⟨others, closed⟩ := inner _ following
  have whole := closed.whole
  have start := chained.spans chainSpan rfl
  have finish := closed.1.spans closeSpan rfl
  refine ⟨?_, by simpa [printInverse, Inverse.print, Block.print, printClose, Item.text]
    using closed⟩
  intro part member
  simp only [inverseParts, Inverse.parts, Block.parts, List.mem_append, List.mem_cons,
    Option.toList_none, List.map_nil, List.append_nil] at member
  rcases member with first | rfl | (inTag | inProgram) | inInverse
  · exact parts part first
  · refine ⟨front ++ printStatements program,
      (Item.closing close closeSpan :: rest).flatMap Item.text, ?_, ?_⟩
    · rw [whole]
      simp [Part.written, Block.print, printClose, Item.text]
    · simp only [Part.loc, Part.written, Block.print, printClose, start, finish, Item.text,
        Text.size_append, Text.size_nil]
      congr 2
      omega
  · exact chained.exact part inTag
  · exact others part (List.mem_append_left _ inProgram)
  · exact others part (List.mem_append_right _ inInverse)

theorem exactBody_of_derives
    (derived : Derives (.ofText source) items statements stop) :
    ExactBody source items statements stop := by
  induction derived using Derives.induction (Q := ExactSection source) with
  | finish => exact exactBody_nil .finish
  | closing tag span rest => exact exactBody_nil (.closing tag span rest)
  | otherwise tag span rest => exact exactBody_nil (.otherwise tag span rest)
  | chain tag span rest => exact exactBody_nil (.chain tag span rest)
  | statement statement rest statements stop more => exact exactBody_statement statement more
  | block tag span items rest program statements inverse close closeSpan stop inner named more =>
      exact exactBody_block tag span inner more
  | plainSection items rest program close closeSpan body => exact exactSection_plain body
  | elseSection items behind rest program second elseTag elseSpan closeSpan close body half =>
      exact exactSection_otherwise body half
  | chainSection items behind rest program second inverse chainTag chainSpan closeSpan close body
      inner => exact exactSection_chain body inner

end

theorem exact_of_parse {template : Template} (parsed : parse source = .ok template) :
    ∀ part ∈ template.parts, part.Exact source := by
  obtain ⟨items, scans, derived⟩ := items_of_parse parsed
  have placed : Item.Placed source [] items := Item.placed_of_scans scans rfl rfl
  exact (exactBody_of_derives derived [] placed).1

/-- The place of every part of a template that was read is that of two offsets between characters,
which its positions determine, and what lies between them is the part as it is written. -/
theorem places_of_parse {source : Text} {template : Template}
    (parsed : parse source = .ok template) :
    ∀ part ∈ template.parts, ∃ start stop, start ≤ stop ∧
      source.isBoundary start = true ∧ source.isBoundary stop = true ∧
      part.loc = ⟨(LineIndex.ofText source).position start,
        (LineIndex.ofText source).position stop⟩ ∧
      source.slice? start stop = some part.written ∧
      (∀ offset, source.isBoundary offset = true →
        (LineIndex.ofText source).position offset = part.loc.start → offset = start) ∧
      ∀ offset, source.isBoundary offset = true →
        (LineIndex.ofText source).position offset = part.loc.stop → offset = stop := by
  intro part member
  obtain ⟨front, rest, whole, loc⟩ := exact_of_parse parsed part member
  have first : source.isBoundary front.size = true := by
    rw [whole]
    exact Text.isBoundary_append front _
  have last : source.isBoundary (front.size + part.written.size) = true := by
    rw [whole, ← List.append_assoc, ← Text.size_append]
    exact Text.isBoundary_append _ rest
  refine ⟨front.size, front.size + part.written.size, Nat.le_add_right _ _, first, last, loc,
    ?_, ?_, ?_⟩
  · conv => lhs; rw [whole]
    exact Text.slice?_append front part.written rest
  · intro offset boundary same
    rw [loc] at same
    exact LineIndex.eq_of_position boundary first same
  · intro offset boundary same
    rw [loc] at same
    exact LineIndex.eq_of_position boundary last same

/-- Characters of several bytes, a line end of two characters, a call with keyword arguments over
two lines, and a chained block. -/
def scatteredPlaces : Text :=
  ("é\r\n\x7b\x7b#if (f ö k=1\n l=\"ü\")\x7d\x7d\x7b\x7belse if y\x7d\x7dß\x7b\x7b^\x7d\x7d\n" ++
    "\x7b\x7b/if\x7d\x7d").toList

theorem places_of_parse_scatteredPlaces :
    ∃ template, parse scatteredPlaces = .ok template ∧ template.parts.length = 20 ∧
      ∀ part ∈ template.parts, ∃ start stop, start ≤ stop ∧
        scatteredPlaces.isBoundary start = true ∧ scatteredPlaces.isBoundary stop = true ∧
        part.loc = ⟨(LineIndex.ofText scatteredPlaces).position start,
          (LineIndex.ofText scatteredPlaces).position stop⟩ ∧
        scatteredPlaces.slice? start stop = some part.written ∧
        (∀ offset, scatteredPlaces.isBoundary offset = true →
          (LineIndex.ofText scatteredPlaces).position offset = part.loc.start → offset = start) ∧
        ∀ offset, scatteredPlaces.isBoundary offset = true →
          (LineIndex.ofText scatteredPlaces).position offset = part.loc.stop → offset = stop := by
  have count : ((parse scatteredPlaces).toOption.map fun template => template.parts.length) =
      some 20 := by
    cbv
  obtain ⟨template, parsed, parts⟩ := exists_parse_of_map count
  exact ⟨template, parsed, parts, places_of_parse parsed⟩

/-- The numbers of a place are bounded by the size of the source.  So as long as this size is below
`Position.lastColumn`, no place is changed when its numbers are kept in 32 bits. -/
theorem places_atMost_of_parse {template : Template} (parsed : parse source = .ok template) :
    ∀ part ∈ template.parts,
      part.loc.start.AtMost (source.size + 1) ∧ part.loc.stop.AtMost (source.size + 1) := by
  intro part member
  obtain ⟨front, rest, whole, loc⟩ := exact_of_parse parsed part member
  rw [loc]
  refine ⟨LineIndex.position_atMost whole, ?_⟩
  rw [← List.append_assoc] at whole
  have stop := LineIndex.position_atMost whole
  rwa [Text.size_append] at stop

/-- Below the same bound, with room for what is added, the end of a place can be moved on. -/
theorem extendStop?_of_parse {template : Template} (parsed : parse source = .ok template)
    {columns : Nat} (short : source.size + columns < Position.lastColumn) :
    ∀ part ∈ template.parts,
      part.loc.extendStop? columns = some (part.loc.extendStop columns) := by
  intro part member
  have bound := (places_atMost_of_parse parsed part member).2.column
  rw [SourceSpan.extendStop?, if_pos (by omega)]

end Template

end TemplateSelectors
