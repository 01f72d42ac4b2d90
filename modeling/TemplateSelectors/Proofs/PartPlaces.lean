import TemplateSelectors.Proofs.SelectorPlaces

/-!
# Parts and their places

Every part of a template that has a place of its own, with what is written there.  A part is
exact in a source when its place is that of its text: the offset of the text is the size of what
stands before it.  The parts of a tag that was read from a source are exact in it.
-/

set_option autoImplicit false

namespace TemplateSelectors

open TagBody (Term Arguments)

inductive Part where
  | text (run : TextRun)
  | comment (comment : Comment)
  | tag (tag : Tag)
  | elseTag (tag : ElseTag)
  | closeTag (tag : CloseTag)
  | block (block : Block)
  | expression (expression : Expression)
  | pair (pair : HashPair)
  | hash (hash : Hash)

/-- A keyword argument without the white space in front of it. -/
def HashPair.written (pair : HashPair) : Text :=
  pair.key ++ pair.separator ++ pair.value.print

/-- Keyword arguments without the white space in front of the first. -/
def Hash.written (hash : Hash) : Text :=
  match hash.pairs with
  | [] => []
  | first :: others => first.written ++ printPairs others

namespace Part

def loc : Part → SourceSpan
  | .text run => run.loc
  | .comment c => c.loc
  | .tag t => t.loc
  | .elseTag t => t.loc
  | .closeTag t => t.loc
  | .block b => b.loc
  | .expression e => e.loc
  | .pair p => p.loc
  | .hash h => h.loc

/-- What is written at the place of a part.  A chained block has no close tag and is written up
to that of the block around it. -/
def written : Part → Text
  | .text run => run.chars
  | .comment c => c.raw
  | .tag t => t.print
  | .elseTag t => t.raw
  | .closeTag t => t.raw
  | .block b => b.print
  | .expression e => e.print
  | .pair p => p.written
  | .hash h => h.written

end Part

/-- The list of keyword arguments as a part, unless it is empty. -/
def Hash.ownParts (hash : Hash) : List Part :=
  if hash.isEmpty then [] else [.hash hash]

mutual

def Expression.parts : Expression → List Part
  | .path p => [.expression (.path p)]
  | .literal l => [.expression (.literal l)]
  | .call c => .expression (.call c) :: c.parts

def SubExpression.parts : SubExpression → List Part
  | ⟨_, callee, params, hash, _, _⟩ => callee.parts ++ paramParts params ++ hash.parts

def Param.parts : Param → List Part
  | ⟨_, value⟩ => value.parts

def Hash.parts : Hash → List Part
  | ⟨pairs, loc⟩ => Hash.ownParts ⟨pairs, loc⟩ ++ pairParts pairs

def HashPair.parts : HashPair → List Part
  | ⟨leading, key, separator, value, loc⟩ =>
      .pair ⟨leading, key, separator, value, loc⟩ :: value.parts

def paramParts : List Param → List Part
  | [] => []
  | param :: params => param.parts ++ paramParts params

def pairParts : List HashPair → List Part
  | [] => []
  | pair :: pairs => pair.parts ++ pairParts pairs

end

def Tag.parts (tag : Tag) : List Part :=
  .tag tag :: (tag.callee.parts ++ paramParts tag.params ++ (tag.hash.map Hash.parts).getD [])

mutual

def Statement.parts : Statement → List Part
  | .text run => [.text run]
  | .comment c => [.comment c]
  | .mustache m => m.tag.parts
  | .modifier m => m.tag.parts
  | .block b => b.parts

def Block.parts : Block → List Part
  | ⟨opening, program, inverse, close, loc⟩ =>
      .block ⟨opening, program, inverse, close, loc⟩ ::
        (opening.parts ++ statementParts program ++ inverseParts inverse ++
          close.toList.map .closeTag)

def Inverse.parts : Inverse → List Part
  | .otherwise tag body => .elseTag tag :: statementParts body
  | .chained b => b.parts

def statementParts : List Statement → List Part
  | [] => []
  | statement :: statements => statement.parts ++ statementParts statements

def inverseParts : Option Inverse → List Part
  | none => []
  | some inverse => inverse.parts

end

/-- All parts of a template, each before the parts inside it. -/
def Template.parts (template : Template) : List Part :=
  statementParts template.body

variable {source : Text} {start : Nat}

/-! ## Texts at offsets -/

/-- What is written in a source from an offset on. -/
def Text.StandsAt (source : Text) (start : Nat) (piece : Text) : Prop :=
  ∃ front rest : Text, source = front ++ (piece ++ rest) ∧ start = front.size

theorem Term.standsAt_call {leading trailing : Text} {callee : Term} {args : Arguments}
    (stands : source.StandsAt start (Term.call leading callee args trailing).text) :
    source.StandsAt (start + 1 + leading.size) callee.text ∧
      source.StandsAt (start + 1 + leading.size + callee.size) args.text := by
  obtain ⟨front, rest, whole, rfl⟩ := stands
  have opening : Char.utf8Size '(' = 1 := rfl
  refine ⟨⟨front ++ '(' :: leading, args.text ++ (trailing ++ ')' :: rest), ?_, ?_⟩,
    front ++ '(' :: leading ++ callee.text, trailing ++ ')' :: rest, ?_, ?_⟩
  · rw [whole]
    simp [Term.text]
  · simp only [Text.size_append, Text.size_cons, opening]
    omega
  · rw [whole]
    simp [Term.text]
  · simp only [Text.size_append, Text.size_cons, opening, Term.size_text]
    omega

theorem Arguments.standsAt_positional {leading : Text} {value : Term} {more : Arguments}
    (stands : source.StandsAt start (Arguments.positional leading value more).text) :
    source.StandsAt (start + leading.size) value.text ∧
      source.StandsAt (start + leading.size + value.size) more.text := by
  obtain ⟨front, rest, whole, rfl⟩ := stands
  refine ⟨⟨front ++ leading, more.text ++ rest, ?_, ?_⟩, front ++ leading ++ value.text, rest, ?_,
    ?_⟩
  · rw [whole]
    simp [Arguments.text]
  · rw [Text.size_append]
  · rw [whole]
    simp [Arguments.text]
  · rw [Text.size_append, Text.size_append, Term.size_text]

theorem Arguments.standsAt_keyword {leading key separator : Text} {value : Term} {more : Arguments}
    (stands : source.StandsAt start (Arguments.keyword leading key separator value more).text) :
    source.StandsAt (start + leading.size + key.size + separator.size) value.text ∧
      source.StandsAt (start + leading.size + key.size + separator.size + value.size)
        more.text := by
  obtain ⟨front, rest, whole, rfl⟩ := stands
  refine ⟨⟨front ++ leading ++ key ++ separator, more.text ++ rest, ?_, ?_⟩,
    front ++ leading ++ key ++ separator ++ value.text, rest, ?_, ?_⟩
  · rw [whole]
    simp [Arguments.text]
  · simp only [Text.size_append]
  · rw [whole]
    simp [Arguments.text]
  · simp only [Text.size_append, Term.size_text]

/-- Where the callee and the arguments of a tag stand. -/
theorem TagBody.standsAt_parts {body : TagBody} {opener closer : Text}
    (stands : source.StandsAt start (opener ++ body.text ++ closer)) :
    source.StandsAt (start + opener.size + body.leading.size) body.callee.text ∧
      source.StandsAt (start + opener.size + body.leading.size + body.callee.size)
        body.args.text := by
  obtain ⟨front, rest, whole, rfl⟩ := stands
  refine ⟨⟨front ++ opener ++ body.leading, body.args.text ++ (body.blockParams.getD [] ++
      (body.trailing ++ (closer ++ rest))), ?_, ?_⟩,
    front ++ opener ++ body.leading ++ body.callee.text, body.blockParams.getD [] ++
      (body.trailing ++ (closer ++ rest)), ?_, ?_⟩
  · rw [whole, TagBody.text]
    simp
  · simp only [Text.size_append]
  · rw [whole, TagBody.text]
    simp
  · simp only [Text.size_append, Term.size_text]

/-! ## Exact parts -/

/-- A part whose place is that of its text. -/
def Part.Exact (source : Text) (part : Part) : Prop :=
  ∃ front rest, source = front ++ (part.written ++ rest) ∧
    part.loc =
      (LineIndex.ofText source).sourceSpan ⟨front.size, front.size + part.written.size⟩

theorem Term.print_of_locate {term : Term} {index : LineIndex} {start : Nat}
    {expression : Expression} (found : term.locate index start = .ok expression) :
    expression.print = term.text := by
  rw [← Expression.text_term, (Term.readable_of_locate term found).1]

theorem Arguments.print_of_locate {args : Arguments} {index : LineIndex} {start : Nat}
    {afterPair : Bool} {params : List Param} {pairs : List HashPair}
    (found : args.locate index start afterPair = .ok (params, pairs)) :
    printParams params ++ printPairs pairs = args.text := by
  rw [← text_pairArguments, ← text_paramArguments, (Arguments.readable_of_locate args found).1]

/-- The expression that a term stands for is exact where the term stands. -/
theorem Term.exact_of_locate {term : Term} {expression : Expression}
    (stands : source.StandsAt start term.text)
    (found : term.locate (.ofText source) start = .ok expression) :
    (Part.expression expression).Exact source := by
  have print := Term.print_of_locate found
  obtain ⟨front, rest, whole, rfl⟩ := stands
  refine ⟨front, rest, ?_, ?_⟩
  · rwa [Part.written, print]
  · rw [Part.loc, Term.loc_of_locate found, Part.written, print, Term.size_text]

/-- Where the keyword arguments begin and end: behind the positional ones, and with the list. -/
theorem Arguments.ends_of_locate (args : Arguments) {index : LineIndex} {start : Nat}
    {afterPair : Bool} {params : List Param} {pairs : List HashPair}
    (found : args.locate index start afterPair = .ok (params, pairs)) :
    (∀ first others, pairs = first :: others →
      first.loc.start =
        index.position (start + (printParams params).size + first.leading.size)) ∧
    ∀ last, pairs.getLast? = some last → last.loc.stop = index.position (start + args.size) := by
  match args with
  | .done =>
      cases found
      exact ⟨by simp, by simp⟩
  | .positional leading value more =>
      obtain ⟨expression, _, _, located, later, rfl⟩ := Arguments.locate_positional found
      have size : expression.print.size = value.size := by
        rw [Term.print_of_locate located, Term.size_text]
      obtain ⟨begins, ends⟩ := Arguments.ends_of_locate more later
      refine ⟨?_, ?_⟩
      · intro first others same
        rw [begins first others same]
        simp only [printParams, Param.print, Text.size_append, size]
        congr 1
        omega
      · intro last same
        rw [ends last same]
        simp only [Arguments.size]
        congr 1
        omega
  | .keyword leading key separator value more =>
      obtain ⟨_, pairs', _, _, later, rfl, rfl⟩ := Arguments.locate_keyword found
      cases Arguments.params_eq_nil_of_locate later
      obtain ⟨_, ends⟩ := Arguments.ends_of_locate more later
      have written := (Arguments.readable_of_locate more later).1
      refine ⟨?_, ?_⟩
      · intro first others same
        cases same
        rfl
      · intro last same
        cases pairs' with
        | nil =>
            -- without a further pair nothing at all follows
            rw [List.getLast?_singleton, Option.some.injEq] at same
            rw [← written, ← same]
            simp only [LineIndex.sourceSpan, paramArguments, pairArguments, Arguments.size]
            congr 1
            omega
        | cons next others =>
            rw [List.getLast?_cons_cons] at same
            rw [ends last same]
            simp only [Arguments.size]
            congr 1
            omega

/-- The place of keyword arguments reaches from the first to the last. -/
theorem Hash.exact_of_locate {args : Arguments} {point : Position} {params : List Param}
    {pairs : List HashPair} {afterPair : Bool} (stands : source.StandsAt start args.text)
    (found : args.locate (.ofText source) start afterPair = .ok (params, pairs)) :
    ∀ part ∈ Hash.ownParts ⟨pairs, hashLoc point pairs⟩, part.Exact source := by
  obtain ⟨front, rest, whole, here⟩ := stands
  intro part member
  unfold Hash.ownParts at member
  split at member
  · cases member
  · next nonempty =>
      rw [List.mem_singleton] at member
      subst member
      obtain ⟨begins, ends⟩ := Arguments.ends_of_locate args found
      have text := Arguments.print_of_locate found
      cases pairs with
      | nil => simp [Hash.isEmpty] at nonempty
      | cons first others =>
          obtain ⟨last, same⟩ : ∃ last, (first :: others).getLast? = some last :=
            ⟨_, List.getLast?_eq_some_getLast (by simp)⟩
          have split : args.text =
              printParams params ++ (first.leading ++ (first.written ++ printPairs others)) := by
            obtain ⟨leading, key, separator, value, loc⟩ := first
            rw [← text]
            simp [printPairs, HashPair.print, HashPair.written]
          refine ⟨front ++ (printParams params ++ first.leading), rest, ?_, ?_⟩
          · rw [whole, split]
            simp [Part.written, Hash.written]
          · have size := congrArg Text.size split
            rw [Arguments.size_text] at size
            simp only [Text.size_append] at size
            simp only [Part.loc, Part.written, Hash.written, hashLoc, List.head?_cons, same,
              begins first others rfl, ends last same, LineIndex.sourceSpan, Text.size_append, here]
            congr 2 <;> omega

mutual

theorem Term.parts_of_locate (term : Term) {start : Nat} {expression : Expression}
    (stands : source.StandsAt start term.text)
    (found : term.locate (.ofText source) start = .ok expression) :
    ∀ part ∈ expression.parts, part.Exact source := by
  have self : (Part.expression expression).Exact source := Term.exact_of_locate stands found
  match term with
  | .path text =>
      rcases Term.locate_path found with ⟨_, _, rfl⟩ | ⟨_, rfl⟩
      · simpa [Expression.parts] using self
      · simpa [Expression.parts] using self
  | .quoted text =>
      cases Term.locate_quoted found
      simpa [Expression.parts] using self
  | .call leading callee args trailing =>
      obtain ⟨calleeStands, argsStand⟩ := Term.standsAt_call stands
      obtain ⟨_, params, pairs, _, _, located, arguments, rfl, -, rfl⟩ := Term.locate_call found
      obtain ⟨inArgs, inPairs⟩ := Arguments.parts_of_locate args argsStand arguments
      intro part member
      simp only [Expression.parts, SubExpression.parts, Hash.parts, List.mem_cons,
        List.mem_append] at member
      rcases member with rfl | (inCallee | inParams) | inHash | inPair
      · exact self
      · exact Term.parts_of_locate callee calleeStands located part inCallee
      · exact inArgs part inParams
      · exact Hash.exact_of_locate argsStand arguments part inHash
      · exact inPairs part inPair

theorem Arguments.parts_of_locate (args : Arguments) {start : Nat} {afterPair : Bool}
    {params : List Param} {pairs : List HashPair} (stands : source.StandsAt start args.text)
    (found : args.locate (.ofText source) start afterPair = .ok (params, pairs)) :
    (∀ part ∈ paramParts params, part.Exact source) ∧
      ∀ part ∈ pairParts pairs, part.Exact source := by
  match args with
  | .done =>
      cases found
      exact ⟨by simp [paramParts], by simp [pairParts]⟩
  | .positional leading value more =>
      obtain ⟨valueStands, moreStands⟩ := Arguments.standsAt_positional stands
      obtain ⟨_, _, _, located, later, rfl⟩ := Arguments.locate_positional found
      have inValue := Term.parts_of_locate value valueStands located
      obtain ⟨inParams, inPairs⟩ := Arguments.parts_of_locate more moreStands later
      refine ⟨?_, inPairs⟩
      intro part member
      rw [paramParts, Param.parts, List.mem_append] at member
      rcases member with first | others
      · exact inValue part first
      · exact inParams part others
  | .keyword leading key separator value more =>
      obtain ⟨valueStands, moreStands⟩ := Arguments.standsAt_keyword stands
      obtain ⟨expression, _, _, located, later, rfl, rfl⟩ := Arguments.locate_keyword found
      have inValue := Term.parts_of_locate value valueStands located
      obtain ⟨inParams, inPairs⟩ := Arguments.parts_of_locate more moreStands later
      refine ⟨inParams, ?_⟩
      intro part member
      simp only [pairParts, HashPair.parts, List.cons_append, List.mem_cons,
        List.mem_append] at member
      rcases member with rfl | first | others
      · have print := Term.print_of_locate located
        obtain ⟨front, rest, whole, rfl⟩ := stands
        refine ⟨front ++ leading, more.text ++ rest, ?_, ?_⟩
        · rw [whole, Part.written, HashPair.written, print]
          simp [Arguments.text]
        · simp only [Part.loc, Part.written, HashPair.written, Text.size_append, print,
            Term.size_text, Nat.add_assoc]
      · exact inValue part first
      · exact inPairs part others

end

/-- The parts of a tag that was read are exact where the tag stands. -/
theorem Tag.parts_of_read {front opener body closer rest : Text} {start : Nat} {tag : Tag}
    (whole : source = front ++ (opener ++ body ++ closer ++ rest)) (here : start = front.size)
    (found : Tag.read (.ofText source) start opener body closer = .ok tag) :
    ∀ part ∈ tag.parts, part.Exact source := by
  have print := Tag.print_of_read found
  obtain ⟨parts, callee, params, pairs, _, inside, located, arguments, rfl, rfl⟩ :=
    Tag.exists_of_read found
  obtain ⟨text, _⟩ := TagBody.grammatical_of_read inside
  have stands : source.StandsAt start (opener ++ parts.text ++ closer) :=
    ⟨front, rest, by rw [text]; exact whole, here⟩
  obtain ⟨calleeStands, argsStand⟩ := TagBody.standsAt_parts stands
  obtain ⟨inParams, inPairs⟩ := Arguments.parts_of_locate parts.args argsStand arguments
  intro part member
  simp only [Tag.parts, Option.map_some, Option.getD_some, Hash.parts, List.mem_cons,
    List.mem_append] at member
  rcases member with rfl | (inCallee | inParam) | inHash | inPair
  · refine ⟨front, rest, ?_, ?_⟩
    · rw [Part.written, print]
      exact whole
    · rw [Part.loc, Part.written, print, here]
  · exact Term.parts_of_locate parts.callee calleeStands located part inCallee
  · exact inParams part inParam
  · exact Hash.exact_of_locate argsStand arguments part inHash
  · exact inPairs part inPair

end TemplateSelectors
