import TemplateSelectors.Proofs.FreeOccurrences
import TemplateSelectors.Proofs.Positions
import TemplateSelectors.Proofs.PromotedTag

/-!
# Where selectors stand

A selector that is found in a template stands at an offset of the source that can be read off
the leaves: the size of what is printed before it.  The place that a hit tells is that of this
offset.
-/

set_option autoImplicit false

namespace TemplateSelectors

open Patch (Place)
open TagBody (Term Arguments)

def Patch.Place.hit (index : LineIndex) (place : Place) : SelectorHit :=
  ⟨place.selector,
    index.sourceSpan ⟨place.offset, place.offset + place.selector.size⟩⟩

theorem Patch.Place.shift_shift (first second : Nat) (place : Place) :
    (place.shift second).shift first = place.shift (first + second) := by
  simp [Place.shift, Nat.add_assoc]

theorem Patch.Place.shift_zero : Place.shift 0 = id := by
  funext place
  simp [Place.shift]

theorem Patch.Place.map_shift_shift (first second : Nat) (places : List Place) :
    (places.map (Place.shift second)).map (Place.shift first) =
      places.map (Place.shift (first + second)) := by
  rw [List.map_map]
  exact congrArg (places.map ·) (funext (Place.shift_shift first second))

/-- The place of a positional argument within its text, if it is a selector. -/
def Param.places (pattern : SelectorPattern) (param : Param) : List Place :=
  if pattern.isSelector param then [⟨param.leading.size, param.value.print⟩] else []

def paramPlaces (pattern : SelectorPattern) : List Param → List Place
  | [] => []
  | param :: params =>
      param.places pattern ++ (paramPlaces pattern params).map (Place.shift param.print.size)

namespace Tag

/-- A tag up to its arguments. -/
def front (tag : Tag) : Text :=
  tag.opener ++ (tag.leading ++ tag.callee.print)

def places (pattern : SelectorPattern) (tag : Tag) : List Place :=
  (paramPlaces pattern tag.params).map (Place.shift tag.front.size)

end Tag

def Leaf.places (pattern : SelectorPattern) : Leaf → List Place
  | .words _ => []
  | .modifier _ => []
  | .invocation tag => tag.places pattern

def leafPlaces (pattern : SelectorPattern) : List Leaf → List Place
  | [] => []
  | leaf :: leaves =>
      leaf.places pattern ++ (leafPlaces pattern leaves).map (Place.shift leaf.print.size)

theorem leafPlaces_append (pattern : SelectorPattern) (front back : List Leaf) :
    leafPlaces pattern (front ++ back) =
      leafPlaces pattern front ++
        (leafPlaces pattern back).map (Place.shift (Leaf.printAll front).size) := by
  induction front with
  | nil => simp [leafPlaces, Place.shift_zero]
  | cons leaf front inductionHypothesis =>
      simp only [List.cons_append, leafPlaces, inductionHypothesis, List.map_append,
        Place.map_shift_shift, Leaf.printAll_cons, Text.size_append, List.append_assoc]

/-! ## Offsets of expressions -/

theorem Term.loc_of_locate {term : Term} {index : LineIndex} {start : Nat}
    {expression : Expression} (found : term.locate index start = .ok expression) :
    expression.loc = index.sourceSpan ⟨start, start + term.size⟩ := by
  cases term with
  | path text =>
      rcases Term.locate_path found with ⟨_, _, rfl⟩ | ⟨_, rfl⟩
      · rfl
      · rfl
  | quoted text =>
      cases Term.locate_quoted found
      rfl
  | call leading callee args trailing =>
      obtain ⟨_, _, _, _, _, _, _, -, rfl, rfl⟩ := Term.locate_call found
      rfl

theorem hits_of_locate (pattern : SelectorPattern) {args : Arguments} {index : LineIndex}
    {start : Nat} {afterPair : Bool} {params : List Param} {pairs : List HashPair}
    (found : args.locate index start afterPair = .ok (params, pairs)) :
    (params.filter pattern.isSelector).map (fun param => ⟨param.value.print, param.loc⟩) =
      ((paramPlaces pattern params).map (Place.shift start)).map (Place.hit index) := by
  match args with
  | .done =>
      cases found
      rfl
  | .positional leading value more =>
      obtain ⟨expression, others, _, located, later, rfl⟩ := Arguments.locate_positional found
      have loc := Term.loc_of_locate located
      have size : value.size = expression.print.size := by
        rw [← (Term.readable_of_locate value located).1, ← Expression.text_term, Term.size_text]
      have behind := hits_of_locate pattern later
      have shape : start + (leading ++ expression.print).size =
          start + leading.size + value.size := by
        rw [Text.size_append, size]
        omega
      rw [paramPlaces, List.map_append, List.map_append, Place.map_shift_shift,
        Param.print, shape, ← behind]
      by_cases selector : pattern.isSelector ⟨leading, expression⟩ = true
      · rw [List.filter_cons_of_pos selector, List.map_cons, Param.places, if_pos selector]
        simp [Place.shift, Place.hit, Param.loc, loc, size]
      · rw [List.filter_cons_of_neg selector, Param.places, if_neg selector]
        simp
  | .keyword leading key separator value more =>
      obtain ⟨_, _, _, _, later, -, rfl⟩ := Arguments.locate_keyword found
      cases Arguments.params_eq_nil_of_locate later
      rfl

/-- What is found in a tag that was read stands at the offsets of its selectors. -/
theorem Tag.hits_of_read (pattern : SelectorPattern) {index : LineIndex} {start : Nat}
    {opener body closer : Text} {tag : Tag}
    (found : Tag.read index start opener body closer = .ok tag) :
    tag.selectorHits pattern =
      ((tag.places pattern).map (Place.shift start)).map (Place.hit index) := by
  obtain ⟨parts, callee, params, pairs, _, _, located, arguments, -, rfl⟩ :=
    Tag.exists_of_read found
  have calleeTerm := (Term.readable_of_locate _ located).1
  have hits := hits_of_locate pattern arguments
  have size : parts.callee.size = callee.print.size := by
    rw [← calleeTerm, ← Expression.text_term, Term.size_text]
  rw [Tag.selectorHits_eq, Tag.candidates]
  simp only
  rw [hits, Tag.places, Place.map_shift_shift]
  simp only [Tag.front, Text.size_append, size, Nat.add_assoc]

/-! ## Places lie within their texts -/

theorem Param.places_in (pattern : SelectorPattern) {param : Param}
    (nonempty : param.value.print ≠ []) :
    ∀ place ∈ param.places pattern, place.In param.print := by
  intro place member
  unfold Param.places at member
  split at member
  · rw [List.mem_singleton] at member
    subst member
    exact ⟨nonempty, param.leading, [], by simp [Param.print_eq], rfl⟩
  · cases member

theorem paramPlaces_in (pattern : SelectorPattern) {params : List Param}
    (nonempty : ∀ param ∈ params, param.value.print ≠ []) :
    ∀ place ∈ paramPlaces pattern params, place.In (printParams params) := by
  induction params with
  | nil => simp [paramPlaces]
  | cons param params inductionHypothesis =>
      rw [List.forall_mem_cons] at nonempty
      exact Place.in_append (param.places_in pattern nonempty.1) (inductionHypothesis nonempty.2)

namespace Tag

variable {pattern : SelectorPattern} {tag : Tag}

/-- What stands behind the positional arguments, up to the end of the tag. -/
def rear (tag : Tag) : Text :=
  printPairs tag.pairs ++ (tag.blockParams.getD [] ++ (tag.trailing ++ tag.closer))

theorem printParts_eq_front (tag : Tag) :
    tag.printParts = tag.front ++ (printParams tag.params ++ tag.rear) := by
  rw [printParts_eq, TagBody.text_eq, body_tail]
  simp [front, rear, body, Expression.text_term]

theorem WellFormed.print_ne_nil (wellFormed : tag.WellFormed) :
    ∀ param ∈ tag.params, param.value.print ≠ [] := by
  intro param member
  obtain ⟨c, rest, text, _⟩ := TagBody.Term.starts (wellFormed.params param member).2
  rw [Expression.text_term] at text
  simp [text]

theorem places_in (stands : tag.StandsFor tag) :
    ∀ place ∈ tag.places pattern, place.In tag.print := by
  intro place member
  obtain ⟨origin, inside, rfl⟩ := List.mem_map.mp member
  rw [stands.printed, printParts_eq_front]
  exact ((paramPlaces_in pattern stands.wellFormed.print_ne_nil origin inside).append_right
    tag.rear).append_left tag.front

end Tag

theorem leafPlaces_in (pattern : SelectorPattern) {leaves : List Leaf}
    (stand : ∀ tag ∈ Leaf.tags leaves, tag.StandsFor tag) :
    ∀ place ∈ leafPlaces pattern leaves, place.In (Leaf.printAll leaves) := by
  induction leaves with
  | nil => simp [leafPlaces]
  | cons leaf leaves inductionHypothesis =>
      cases leaf with
      | words text => exact Place.in_append (by simp [Leaf.places]) (inductionHypothesis stand)
      | modifier tag => exact Place.in_append (by simp [Leaf.places]) (inductionHypothesis stand)
      | invocation tag =>
          rw [Leaf.tags_invocation, List.forall_mem_cons] at stand
          exact Place.in_append (Tag.places_in stand.1) (inductionHypothesis stand.2)

/-! ## The leaves of a source -/

def Braced (text : Text) : Prop :=
  ∃ inner, text = '{' :: inner ++ ['}']

structure Tag.Delimited (tag : Tag) : Prop where
  opener : ∃ rest, tag.opener = '{' :: rest
  closer : ∃ front, tag.closer = front ++ ['}']
  wall : Patch.WallStart tag.closer

/-- What a leaf is that stands at an offset of the source, text apart. -/
inductive Leaf.Found (index : LineIndex) (start : Nat) : Leaf → Prop where
  | words {text : Text} (braced : Braced text) : Found index start (.words text)
  | modifier {tag : Tag} (braced : Braced tag.print) : Found index start (.modifier tag)
  | invocation {tag : Tag} {opener body closer : Text}
      (read : Tag.read index start opener body closer = .ok tag) (delimited : tag.Delimited) :
      Found index start (.invocation tag)

namespace Lexeme

/-- The braces of a tag, with the marks beside them. -/
theorem Reads.delimiters {triple : Bool} {behind opener inner closer rest : Text}
    (reads : Reads behind (.tag triple opener inner closer) rest) :
    (∃ rest, opener = '{' :: rest) ∧ (∃ front, closer = front ++ ['}']) ∧
      Patch.WallStart closer := by
  have marked : ∀ {body close : Text}, (∃ c more, close = c :: more ∧ c = '}') →
      Patch.WallStart ((trailingTilde body).2 ++ close) := by
    rintro body close ⟨c, more, rfl, rfl⟩
    unfold trailingTilde
    split
    · rintro d ⟨⟩
      decide +kernel
    · rintro d ⟨⟩
      decide +kernel
  cases reads with
  | @triple _ tilde _ body _ _ _ _ =>
      refine ⟨⟨_, rfl⟩, ⟨(trailingTilde body).2 ++ ['}', '}'], by simp⟩, marked ⟨_, _, rfl, rfl⟩⟩
  | @tag _ tilde _ body _ _ _ _ =>
      refine ⟨⟨_, rfl⟩, ⟨(trailingTilde body).2 ++ ['}'], by simp⟩, marked ⟨_, _, rfl, rfl⟩⟩

theorem Reads.braced {behind rest : Text} {lexeme : Lexeme} (reads : Reads behind lexeme rest) :
    Braced lexeme.raw := by
  cases lexeme with
  | tag triple opener inner closer =>
      obtain ⟨⟨more, rfl⟩, ⟨front, rfl⟩, _⟩ := reads.delimiters
      exact ⟨more ++ (inner ++ front), by simp [raw]⟩
  | comment opener value closer =>
      cases reads with
      | @shortComment _ tilde _ body _ _ _ _ _ =>
          refine ⟨'{' :: (tilde ++ '!' ::
            ((trailingTilde body).1 ++ ((trailingTilde body).2 ++ ['}']))), ?_⟩
          simp [raw]
      | @longComment _ tilde _ value terminator _ _ _ closed =>
          rcases longEnd_of_splitLongComment closed with rfl | rfl
          · exact ⟨'{' :: (tilde ++ '!' :: '-' :: '-' :: (value ++ ['-', '-', '}'])), by simp [raw]⟩
          · exact ⟨'{' :: (tilde ++ '!' :: '-' :: '-' :: (value ++ ['-', '-', '~', '}'])),
              by simp [raw]⟩

end Lexeme

namespace Item

variable {index : LineIndex} {markup markup' : Markup} {start : Nat}

/-- An item other than text is one leaf, found where its lexeme stands. -/
theorem Makes.exists_leaf {lexeme : Lexeme} {item : Item} {behind rest : Text}
    (made : Makes index markup start lexeme item markup')
    (reads : Lexeme.Reads behind lexeme rest) :
    ∃ leaf, item.leaves = [leaf] ∧ leaf.print = lexeme.raw ∧ leaf.Found index start := by
  have text := text_of_makes made
  have braced := reads.braced
  have delimited : ∀ (front : Text) {triple : Bool} {opener inner closer body : Text} {tag : Tag},
      lexeme = .tag triple opener inner closer →
      Tag.read index start (opener ++ front) body closer = .ok tag → tag.Delimited := by
    rintro front triple opener inner closer body tag rfl read
    obtain ⟨_, opened, _, closed⟩ := Tag.wellFormed_of_read read
    obtain ⟨⟨more, rfl⟩, ends, wall⟩ := reads.delimiters
    rw [← closed] at ends wall
    exact ⟨⟨more ++ front, by simp [opened]⟩, ends, wall⟩
  cases made with
  | comment opener value closer => exact ⟨_, rfl, rfl, .words braced⟩
  | triple read =>
      exact ⟨_, rfl, text, .invocation read (delimited [] rfl (by simpa using read))⟩
  | opening form read => exact ⟨_, rfl, text, .invocation read (delimited _ rfl read)⟩
  | closing opener closer form => exact ⟨_, rfl, rfl, .words braced⟩
  | otherwise opener closer form => exact ⟨_, rfl, rfl, .words braced⟩
  | chain form read =>
      rw [List.append_assoc] at read
      exact ⟨_, rfl, text, .invocation read (delimited _ rfl read)⟩
  | mustache form read =>
      rw [text_ofMustache] at text
      unfold ofMustache
      split
      · exact ⟨_, rfl, text, .modifier (by rw [text]; exact braced)⟩
      · exact ⟨_, rfl, text, .invocation read (delimited [] rfl (by simpa using read))⟩

theorem leaves_ofText (index : LineIndex) (start : Nat) (chars : Text) :
    Leaf.printAll ((ofText index start chars).flatMap leaves) = chars ∧
      ∀ pattern, leafPlaces pattern ((ofText index start chars).flatMap leaves) = [] := by
  cases chars with
  | nil => exact ⟨rfl, fun _ => rfl⟩
  | cons c chars =>
      refine ⟨?_, fun _ => rfl⟩
      simp [ofText, leaves, Statement.leaves, Leaf.print]

theorem hits_of_leaf (pattern : SelectorPattern) {leaf : Leaf} (found : leaf.Found index start) :
    (Leaf.tags [leaf]).flatMap (Tag.selectorHits pattern) =
      ((leaf.places pattern).map (Place.shift start)).map (Place.hit index) := by
  cases found with
  | words braced => rfl
  | modifier braced => rfl
  | invocation read delimited => simp [Leaf.places, Tag.hits_of_read pattern read]

/-- What is found among the items of a source stands at the places that their leaves tell. -/
theorem hits_of_scans (pattern : SelectorPattern) {source : Text} {items : List Item}
    (scans : Scans index markup start source items) :
    (Leaf.tags (items.flatMap leaves)).flatMap (Tag.selectorHits pattern) =
      ((leafPlaces pattern (items.flatMap leaves)).map (Place.shift start)).map
        (Place.hit index) := by
  induction scans with
  | @last markup start source chars run =>
      rw [tags_ofText, (leaves_ofText index start chars).2]
      rfl
  | @lexeme markup markup' start source chars behind rest lexeme item items run read made more
      inductionHypothesis =>
      obtain ⟨leaf, single, print, found⟩ :=
        (ofLexeme_eq_ok_iff.mp made).exists_leaf (Lexeme.reads_of_read read)
      obtain ⟨text, none⟩ := leaves_ofText index start chars
      have here := hits_of_leaf pattern found
      rw [List.flatMap_append, List.flatMap_cons, Leaf.tags_append, Leaf.tags_append, tags_ofText,
        leafPlaces_append, none, text, single, List.nil_append, List.flatMap_append, here,
        inductionHypothesis, List.nil_append, Place.map_shift_shift, List.singleton_append,
        leafPlaces, List.map_append, List.map_append, Place.map_shift_shift, print]

end Item

end TemplateSelectors
