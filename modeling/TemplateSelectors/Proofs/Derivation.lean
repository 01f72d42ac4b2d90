import TemplateSelectors.Proofs.TagReading

/-!
# Derivations of the inside of a tag

The grammar in full, as trees: a derivation of the inside of a tag says which rule was used at
every point, down to the segments of a path and the characters of a string.  The reader accepts
exactly the texts that have a derivation.  No text has two, and what is read is the derivation
with its tokens as texts.
-/

set_option autoImplicit false

namespace TemplateSelectors

namespace TagBody

namespace Tree

/-! ## The rules

    tag         := layout? expr (layout arg)* blockparams? layout?
    arg         := id layout? "=" layout? expr | expr
    expr        := "(" layout? expr (layout arg)* layout? ")" | string | path
    path        := "@"? segment (("." | "/") segment)*
    segment     := ".." | "[" [^\]]* "]" | id
    blockparams := layout "as" layout "|" [^|]* "|"
-/

inductive Segment where
  | parent
  | bracketed (inner : Text) (closed : ∀ c ∈ inner, c ≠ ']')
  | name (text : Text) (identifier : Identifier text)

def Segment.yield : Segment → Text
  | .parent => ['.', '.']
  | .bracketed inner _ => '[' :: inner ++ [']']
  | .name text _ => text

/-- What stands between two segments. -/
inductive Divider where
  | dot
  | slash

def Divider.char : Divider → Char
  | .dot => '.'
  | .slash => '/'

theorem Divider.eq_of_char {divider other : Divider} (same : divider.char = other.char) :
    divider = other := by
  cases divider with
  | dot =>
      cases other with
      | dot => rfl
      | slash => cases same
  | slash =>
      cases other with
      | dot => cases same
      | slash => rfl

def yieldSegments : List (Divider × Segment) → Text
  | [] => []
  | (divider, segment) :: more => divider.char :: segment.yield ++ yieldSegments more

structure Path where
  /-- Whether the mark of an argument comes first. -/
  data : Bool
  first : Segment
  more : List (Divider × Segment)

def Path.yield (path : Path) : Text :=
  (if path.data then ['@'] else []) ++ (path.first.yield ++ yieldSegments path.more)

inductive Quote where
  | double
  | single

def Quote.char : Quote → Char
  | .double => '"'
  | .single => '\''

theorem Quote.eq_of_char {quote other : Quote} (same : quote.char = other.char) : quote = other := by
  cases quote with
  | double =>
      cases other with
      | double => rfl
      | single => cases same
  | single =>
      cases other with
      | double => cases same
      | single => rfl

/-- A step through a quoted run; a backslash always takes the next character along. -/
inductive Piece (quote : Char) where
  | escaped (c : Char)
  | plain (c : Char) (inside : c ≠ quote) (unescaped : c ≠ '\\')

def Piece.yield {quote : Char} : Piece quote → Text
  | .escaped c => ['\\', c]
  | .plain c _ _ => [c]

def yieldPieces {quote : Char} : List (Piece quote) → Text
  | [] => [quote]
  | piece :: pieces => piece.yield ++ yieldPieces pieces

structure Quotation where
  quote : Quote
  pieces : List (Piece quote.char)

def Quotation.yield (quotation : Quotation) : Text :=
  quotation.quote.char :: yieldPieces quotation.pieces

/-- The equals sign of a keyword argument, with the layout around it. -/
structure Separator where
  before : Text
  after : Text
  left : Layout before
  right : Layout after

def Separator.yield (separator : Separator) : Text :=
  separator.before ++ '=' :: separator.after

structure BlockParams where
  before : Text
  after : Text
  inner : Text
  left : Gap before
  right : Gap after
  barless : ∀ c ∈ inner, c ≠ '|'

def BlockParams.yield (names : BlockParams) : Text :=
  names.before ++ 'a' :: 's' :: names.after ++ '|' :: names.inner ++ ['|']

mutual

inductive Term where
  | path (path : Path)
  | quoted (quotation : Quotation)
  | call (leading : Text) (left : Layout leading) (callee : Term) (args : Arguments)
      (trailing : Text) (right : Layout trailing)

inductive Arguments where
  | done
  | positional (leading : Text) (gap : Gap leading) (value : Term) (more : Arguments)
  | keyword (leading : Text) (gap : Gap leading) (key : Text) (identifier : Identifier key)
      (separator : Separator) (value : Term) (more : Arguments)

end

mutual

def Term.yield : Term → Text
  | .path path => path.yield
  | .quoted quotation => quotation.yield
  | .call leading _ callee args trailing _ =>
      '(' :: leading ++ callee.yield ++ args.yield ++ trailing ++ [')']

def Arguments.yield : Arguments → Text
  | .done => []
  | .positional leading _ value more => leading ++ value.yield ++ more.yield
  | .keyword leading _ key _ separator value more =>
      leading ++ key ++ separator.yield ++ value.yield ++ more.yield

end

end Tree

/-- A derivation of the inside of a tag. -/
structure Tree where
  leading : Text
  left : Layout leading
  callee : Tree.Term
  args : Tree.Arguments
  blockParams : Option Tree.BlockParams
  trailing : Text
  right : Layout trailing

def Tree.yield (tree : Tree) : Text :=
  tree.leading ++ tree.callee.yield ++ tree.args.yield ++
    (tree.blockParams.map Tree.BlockParams.yield).getD [] ++ tree.trailing

namespace Tree

mutual

/-- The expression with its tokens as texts. -/
def Term.term : Term → TagBody.Term
  | .path path => .path path.yield
  | .quoted quotation => .quoted quotation.yield
  | .call leading _ callee args trailing _ => .call leading callee.term args.arguments trailing

def Arguments.arguments : Arguments → TagBody.Arguments
  | .done => .done
  | .positional leading _ value more => .positional leading value.term more.arguments
  | .keyword leading _ key _ separator value more =>
      .keyword leading key separator.yield value.term more.arguments

end

/-- The derivation with its tokens as texts. -/
def body (tree : Tree) : TagBody where
  leading := tree.leading
  callee := tree.callee.term
  args := tree.args.arguments
  blockParams := tree.blockParams.map BlockParams.yield
  trailing := tree.trailing

/-! ## Tokens have one derivation -/

/-- A text can be split in one way only into a run of a class and a rest that does not go on with
it. -/
theorem eq_of_append_of_stopsAt {p : Char → Bool} {front front' text text' : Text}
    (all : ∀ c ∈ front, p c = true) (all' : ∀ c ∈ front', p c = true) (stops : StopsAt p text)
    (stops' : StopsAt p text') (same : front ++ text = front' ++ text') :
    front = front' ∧ text = text' := by
  constructor
  · rw [← takeWhile_append_of_stopsAt all stops, same, takeWhile_append_of_stopsAt all' stops']
  · rw [← dropWhile_append_of_stopsAt all stops, same, dropWhile_append_of_stopsAt all' stops']

theorem eq_of_append_mark {mark : Char} {front front' text text' : Text}
    (free : ∀ c ∈ front, c ≠ mark) (free' : ∀ c ∈ front', c ≠ mark)
    (same : front ++ mark :: text = front' ++ mark :: text') : front = front' ∧ text = text' := by
  have stops : ∀ rest, StopsAt (· != mark) (mark :: rest) := fun rest => stopsAt_cons (by simp)
  obtain ⟨fronts, rests⟩ := eq_of_append_of_stopsAt (p := (· != mark))
    (fun c member => by simp [free c member]) (fun c member => by simp [free' c member])
    (stops text) (stops text') same
  exact ⟨fronts, (List.cons.inj rests).2⟩

theorem Segment.rule (segment : Segment) : TagBody.Segment segment.yield := by
  cases segment with
  | parent => exact .parent
  | bracketed inner closed => exact .bracketed closed
  | name text identifier => exact .name identifier

theorem Segment.eq_of_yield {segment other : Segment} (same : segment.yield = other.yield) :
    segment = other := by
  have unlike : ∀ {text rest : Text} {c : Char}, Identifier text → reserved.contains c = true →
      text ≠ c :: rest := by
    rintro _ rest c identifier special rfl
    exact ne_of_isIdChar (identifier.1 c List.mem_cons_self) special rfl
  cases segment with
  | parent =>
      cases other with
      | parent => rfl
      | bracketed inner closed => cases same
      | name text identifier => exact absurd same.symm (unlike identifier rfl)
  | bracketed inner closed =>
      cases other with
      | parent => cases same
      | bracketed inner' closed' =>
          have inside : inner = inner' := by simpa [Segment.yield] using same
          subst inside
          rfl
      | name text identifier => exact absurd same.symm (unlike identifier rfl)
  | name text identifier =>
      cases other with
      | parent => exact absurd same (unlike identifier rfl)
      | bracketed inner closed => exact absurd same (unlike identifier rfl)
      | name text' identifier' =>
          have equal : text = text' := same
          subst equal
          rfl

theorem segments_rule (more : List (Divider × Segment)) : Segments (yieldSegments more) := by
  induction more with
  | nil => exact .done
  | cons first more inductionHypothesis =>
      obtain ⟨divider, segment⟩ := first
      refine .more ?_ segment.rule inductionHypothesis
      cases divider with
      | dot => exact .inl rfl
      | slash => exact .inr rfl

theorem stopsAt_yieldSegments (more : List (Divider × Segment)) :
    StopsAt isIdChar (yieldSegments more) := by
  cases more with
  | nil => exact stopsAt_nil _
  | cons first more =>
      obtain ⟨divider, segment⟩ := first
      cases divider with
      | dot => exact stopsAt_cons rfl
      | slash => exact stopsAt_cons rfl

/-- The first segment of a path is told by the text from there on. -/
theorem eq_of_segment_append {segment other : Segment} {more others : List (Divider × Segment)}
    (same : segment.yield ++ yieldSegments more = other.yield ++ yieldSegments others) :
    segment = other ∧ yieldSegments more = yieldSegments others := by
  have found := segment?_append segment.rule (stopsAt_yieldSegments more)
  rw [same, segment?_append other.rule (stopsAt_yieldSegments others)] at found
  simp only [Option.some.injEq, Prod.mk.injEq] at found
  exact ⟨Segment.eq_of_yield found.1.symm, found.2.symm⟩

theorem eq_of_yieldSegments {more others : List (Divider × Segment)}
    (same : yieldSegments more = yieldSegments others) : more = others := by
  induction more generalizing others with
  | nil =>
      cases others with
      | nil => rfl
      | cons first others => cases same
  | cons first more inductionHypothesis =>
      cases others with
      | nil => cases same
      | cons first' others =>
          obtain ⟨divider, segment⟩ := first
          obtain ⟨divider', segment'⟩ := first'
          simp only [yieldSegments, List.cons_append, List.cons.injEq] at same
          obtain ⟨segments, rest⟩ := eq_of_segment_append same.2
          rw [segments, Divider.eq_of_char same.1, inductionHypothesis rest]

theorem Path.rule (path : Path) : TagBody.Path path.yield := by
  obtain ⟨data, first, more⟩ := path
  cases data with
  | false =>
      have rule := TagBody.Path.plain first.rule (segments_rule more)
      exact rule
  | true =>
      have rule := TagBody.Path.data first.rule (segments_rule more)
      exact rule

theorem Path.eq_of_yield {path other : Path} (same : path.yield = other.yield) : path = other := by
  obtain ⟨data, first, more⟩ := path
  obtain ⟨data', first', more'⟩ := other
  have unmarked : ∀ (segment : Segment) (rest text : Text), segment.yield ++ rest ≠ '@' :: text := by
    intro segment rest text marked
    obtain ⟨c, tail, text, start⟩ := segment.rule.starts
    rw [text] at marked
    injection marked with head _
    subst head
    rcases start with idChar | dot | bracket
    · exact ne_of_isIdChar idChar rfl rfl
    · cases dot
    · cases bracket
  have rest : data = data' ∧
      first.yield ++ yieldSegments more = first'.yield ++ yieldSegments more' := by
    cases data with
    | false =>
        cases data' with
        | false => exact ⟨rfl, same⟩
        | true => exact absurd same (unmarked _ _ _)
    | true =>
        cases data' with
        | false => exact absurd same.symm (unmarked _ _ _)
        | true => exact ⟨rfl, (List.cons.inj same).2⟩
  obtain ⟨firsts, mores⟩ := eq_of_segment_append rest.2
  rw [rest.1, firsts, eq_of_yieldSegments mores]

theorem pieces_rule {quote : Char} (pieces : List (Piece quote)) :
    QuoteEnd quote (yieldPieces pieces) := by
  induction pieces with
  | nil => exact .close
  | cons piece pieces inductionHypothesis =>
      cases piece with
      | escaped c => exact .escaped c inductionHypothesis
      | plain c inside unescaped => exact .plain inside unescaped inductionHypothesis

theorem Quote.char_ne (quote : Quote) : quote.char ≠ '\\' := by
  cases quote with
  | double => decide
  | single => decide

theorem eq_of_yieldPieces {quote : Char} (unlike : quote ≠ '\\') {pieces others : List (Piece quote)}
    (same : yieldPieces pieces = yieldPieces others) : pieces = others := by
  induction pieces generalizing others with
  | nil =>
      cases others with
      | nil => rfl
      | cons piece others =>
          cases piece with
          | escaped c => exact absurd (List.cons.inj same).1 unlike
          | plain c inside unescaped => exact absurd (List.cons.inj same).1.symm inside
  | cons piece pieces inductionHypothesis =>
      cases others with
      | nil =>
          cases piece with
          | escaped c => exact absurd (List.cons.inj same).1.symm unlike
          | plain c inside unescaped => exact absurd (List.cons.inj same).1 inside
      | cons piece' others =>
          cases piece with
          | escaped c =>
              cases piece' with
              | escaped c' =>
                  simp only [yieldPieces, Piece.yield, List.cons_append, List.nil_append,
                    List.cons.injEq, true_and] at same
                  rw [same.1, inductionHypothesis same.2]
              | plain c' inside' unescaped' => exact absurd (List.cons.inj same).1.symm unescaped'
          | plain c inside unescaped =>
              cases piece' with
              | escaped c' => exact absurd (List.cons.inj same).1 unescaped
              | plain c' inside' unescaped' =>
                  simp only [yieldPieces, Piece.yield, List.cons_append, List.nil_append,
                    List.cons.injEq] at same
                  obtain ⟨rfl, later⟩ := same
                  rw [inductionHypothesis later]

theorem Quotation.rule (quotation : Quotation) : Quoted quotation.yield := by
  obtain ⟨quote, pieces⟩ := quotation
  cases quote with
  | double => exact .double (pieces_rule pieces)
  | single => exact .single (pieces_rule pieces)

theorem Quotation.eq_of_yield {quotation other : Quotation}
    (same : quotation.yield = other.yield) : quotation = other := by
  obtain ⟨quote, pieces⟩ := quotation
  obtain ⟨quote', pieces'⟩ := other
  have quotes : quote = quote' := Quote.eq_of_char (List.cons.inj same).1
  subst quotes
  have steps : pieces = pieces' := eq_of_yieldPieces quote.char_ne (List.cons.inj same).2
  rw [steps]

theorem stopsAt_equals (text : Text) : StopsAt isLayout ('=' :: text) := stopsAt_cons rfl

theorem Separator.eq_of_yield {separator other : Separator}
    (same : separator.yield = other.yield) : separator = other := by
  obtain ⟨before, after, left, right⟩ := separator
  obtain ⟨before', after', left', right'⟩ := other
  obtain ⟨befores, rests⟩ := eq_of_append_of_stopsAt left left' (stopsAt_equals after)
    (stopsAt_equals after') same
  have afters := (List.cons.inj rests).2
  subst befores afters
  rfl

theorem BlockParams.rule (names : BlockParams) : TagBody.BlockParams names.yield :=
  .names names.left names.right names.barless

theorem BlockParams.eq_of_yield {names other : BlockParams} (same : names.yield = other.yield) :
    names = other := by
  obtain ⟨before, after, inner, left, right, barless⟩ := names
  obtain ⟨before', after', inner', left', right', barless'⟩ := other
  simp only [BlockParams.yield, List.append_assoc, List.cons_append] at same
  have word : ∀ rest, StopsAt isLayout ('a' :: 's' :: rest) := fun rest => stopsAt_cons rfl
  have bar : ∀ rest, StopsAt isLayout ('|' :: rest) := fun rest => stopsAt_cons rfl
  obtain ⟨befores, words⟩ := eq_of_append_of_stopsAt left.1 left'.1 (word _) (word _) same
  simp only [List.cons.injEq, true_and] at words
  obtain ⟨afters, bars⟩ := eq_of_append_of_stopsAt right.1 right'.1 (bar _) (bar _) words
  simp only [List.cons.injEq, true_and] at bars
  obtain ⟨inners, _⟩ := eq_of_append_mark barless barless' bars
  subst befores afters inners
  rfl

/-! ## Derivations follow the rules, and each rule has its derivation -/

mutual

theorem Term.rule (term : Term) : term.term.Grammatical ∧ term.term.text = term.yield := by
  cases term with
  | path path => exact ⟨path.rule, rfl⟩
  | quoted quotation => exact ⟨quotation.rule, rfl⟩
  | call leading left callee args trailing right =>
      obtain ⟨calleeRule, calleeText⟩ := Term.rule callee
      obtain ⟨argsRule, argsText⟩ := Arguments.rule args
      refine ⟨⟨left, calleeRule, argsRule, right⟩, ?_⟩
      simp only [Term.term, Term.yield, TagBody.Term.text, calleeText, argsText]

theorem Arguments.rule (args : Arguments) :
    args.arguments.Grammatical ∧ args.arguments.text = args.yield := by
  cases args with
  | done => exact ⟨trivial, rfl⟩
  | positional leading gap value more =>
      obtain ⟨valueRule, valueText⟩ := Term.rule value
      obtain ⟨moreRule, moreText⟩ := Arguments.rule more
      refine ⟨⟨gap, valueRule, moreRule⟩, ?_⟩
      simp only [Arguments.arguments, Arguments.yield, TagBody.Arguments.text, valueText, moreText]
  | keyword leading gap key identifier separator value more =>
      obtain ⟨valueRule, valueText⟩ := Term.rule value
      obtain ⟨moreRule, moreText⟩ := Arguments.rule more
      refine ⟨⟨gap, identifier, .equals separator.left separator.right, valueRule, moreRule⟩, ?_⟩
      simp only [Arguments.arguments, Arguments.yield, TagBody.Arguments.text, valueText, moreText]

end

mutual

theorem Term.eq_of_term (term other : Term) (same : term.term = other.term) : term = other := by
  cases term with
  | path path =>
      cases other with
      | path path' => rw [Path.eq_of_yield (TagBody.Term.path.inj same)]
      | quoted quotation => cases same
      | call => cases same
  | quoted quotation =>
      cases other with
      | path path => cases same
      | quoted quotation' => rw [Quotation.eq_of_yield (TagBody.Term.quoted.inj same)]
      | call => cases same
  | call leading left callee args trailing right =>
      cases other with
      | path path => cases same
      | quoted quotation => cases same
      | call leading' left' callee' args' trailing' right' =>
          obtain ⟨leadings, callees, lists, trailings⟩ := TagBody.Term.call.inj same
          have calleesSame := Term.eq_of_term callee callee' callees
          have listsSame := Arguments.eq_of_arguments args args' lists
          subst leadings calleesSame listsSame trailings
          rfl

theorem Arguments.eq_of_arguments (args other : Arguments)
    (same : args.arguments = other.arguments) : args = other := by
  cases args with
  | done =>
      cases other with
      | done => rfl
      | positional => cases same
      | keyword => cases same
  | positional leading gap value more =>
      cases other with
      | done => cases same
      | positional leading' gap' value' more' =>
          obtain ⟨leadings, values, mores⟩ := TagBody.Arguments.positional.inj same
          have valuesSame := Term.eq_of_term value value' values
          have moresSame := Arguments.eq_of_arguments more more' mores
          subst leadings valuesSame moresSame
          rfl
      | keyword => cases same
  | keyword leading gap key identifier separator value more =>
      cases other with
      | done => cases same
      | positional => cases same
      | keyword leading' gap' key' identifier' separator' value' more' =>
          obtain ⟨leadings, keys, separators, values, mores⟩ := TagBody.Arguments.keyword.inj same
          have separatorsSame := Separator.eq_of_yield separators
          have valuesSame := Term.eq_of_term value value' values
          have moresSame := Arguments.eq_of_arguments more more' mores
          subst leadings keys separatorsSame valuesSame moresSame
          rfl

end

theorem exists_segment {piece : Text} (rule : TagBody.Segment piece) :
    ∃ segment : Segment, segment.yield = piece := by
  cases rule with
  | parent => exact ⟨.parent, rfl⟩
  | bracketed closed => exact ⟨.bracketed _ closed, rfl⟩
  | name identifier => exact ⟨.name _ identifier, rfl⟩

theorem exists_segments {text : Text} (rule : Segments text) :
    ∃ more : List (Divider × Segment), yieldSegments more = text := by
  induction rule with
  | done => exact ⟨[], rfl⟩
  | more separator segment further inductionHypothesis =>
      obtain ⟨more, rfl⟩ := inductionHypothesis
      obtain ⟨first, rfl⟩ := exists_segment segment
      rcases separator with rfl | rfl
      · exact ⟨(.dot, first) :: more, rfl⟩
      · exact ⟨(.slash, first) :: more, rfl⟩

theorem exists_path {text : Text} (rule : TagBody.Path text) : ∃ path : Path, path.yield = text := by
  cases rule with
  | plain segment further =>
      obtain ⟨first, rfl⟩ := exists_segment segment
      obtain ⟨more, rfl⟩ := exists_segments further
      exact ⟨⟨false, first, more⟩, rfl⟩
  | data segment further =>
      obtain ⟨first, rfl⟩ := exists_segment segment
      obtain ⟨more, rfl⟩ := exists_segments further
      exact ⟨⟨true, first, more⟩, rfl⟩

theorem exists_pieces {quote : Char} {text : Text} (rule : QuoteEnd quote text) :
    ∃ pieces : List (Piece quote), yieldPieces pieces = text := by
  induction rule with
  | close => exact ⟨[], rfl⟩
  | escaped c _ inductionHypothesis =>
      obtain ⟨pieces, rfl⟩ := inductionHypothesis
      exact ⟨.escaped c :: pieces, rfl⟩
  | plain inside unescaped _ inductionHypothesis =>
      obtain ⟨pieces, rfl⟩ := inductionHypothesis
      exact ⟨.plain _ inside unescaped :: pieces, rfl⟩

theorem exists_quotation {text : Text} (rule : Quoted text) :
    ∃ quotation : Quotation, quotation.yield = text := by
  cases rule with
  | double tail =>
      obtain ⟨pieces, rfl⟩ := exists_pieces tail
      exact ⟨⟨.double, pieces⟩, rfl⟩
  | single tail =>
      obtain ⟨pieces, rfl⟩ := exists_pieces tail
      exact ⟨⟨.single, pieces⟩, rfl⟩

mutual

theorem exists_term (term : TagBody.Term) (rule : term.Grammatical) :
    ∃ tree : Term, tree.term = term := by
  cases term with
  | path text =>
      obtain ⟨path, rfl⟩ := exists_path rule
      exact ⟨.path path, rfl⟩
  | quoted text =>
      obtain ⟨quotation, rfl⟩ := exists_quotation rule
      exact ⟨.quoted quotation, rfl⟩
  | call leading callee args trailing =>
      obtain ⟨left, calleeRule, argsRule, right⟩ := rule
      obtain ⟨calleeTree, rfl⟩ := exists_term callee calleeRule
      obtain ⟨argsTree, rfl⟩ := exists_arguments args argsRule
      exact ⟨.call leading left calleeTree argsTree trailing right, rfl⟩

theorem exists_arguments (args : TagBody.Arguments) (rule : args.Grammatical) :
    ∃ tree : Arguments, tree.arguments = args := by
  cases args with
  | done => exact ⟨.done, rfl⟩
  | positional leading value more =>
      obtain ⟨gap, valueRule, moreRule⟩ := rule
      obtain ⟨valueTree, rfl⟩ := exists_term value valueRule
      obtain ⟨moreTree, rfl⟩ := exists_arguments more moreRule
      exact ⟨.positional leading gap valueTree moreTree, rfl⟩
  | keyword leading key separator value more =>
      obtain ⟨gap, identifier, separatorRule, valueRule, moreRule⟩ := rule
      obtain ⟨valueTree, rfl⟩ := exists_term value valueRule
      obtain ⟨moreTree, rfl⟩ := exists_arguments more moreRule
      cases separatorRule with
      | @equals before after left right =>
          exact ⟨.keyword leading gap key identifier ⟨before, after, left, right⟩ valueTree moreTree,
            rfl⟩

end

theorem text_body (tree : Tree) : tree.body.text = tree.yield := by
  simp only [TagBody.text, body, Tree.yield, (Term.rule tree.callee).2, (Arguments.rule tree.args).2]

theorem grammatical_body (tree : Tree) : tree.body.Grammatical where
  leading := tree.left
  callee := (Term.rule tree.callee).1
  args := (Arguments.rule tree.args).1
  blockParams names found := by
    obtain ⟨origin, _, rfl⟩ := Option.map_eq_some_iff.mp found
    exact origin.rule
  trailing := tree.right

theorem eq_of_body {tree other : Tree} (same : tree.body = other.body) : tree = other := by
  obtain ⟨leading, left, callee, args, names, trailing, right⟩ := tree
  obtain ⟨leading', left', callee', args', names', trailing', right'⟩ := other
  obtain ⟨leadings, callees, lists, namesTexts, trailings⟩ := TagBody.mk.inj same
  have calleesSame := Term.eq_of_term callee callee' callees
  have listsSame := Arguments.eq_of_arguments args args' lists
  have namesSame : names = names' :=
    Option.map_injective (fun _ _ => BlockParams.eq_of_yield) namesTexts
  subst leadings calleesSame listsSame namesSame trailings
  rfl

theorem exists_tree {body : TagBody} (rule : body.Grammatical) : ∃ tree : Tree, tree.body = body := by
  obtain ⟨leading, callee, args, names, trailing⟩ := body
  obtain ⟨left, calleeRule, argsRule, namesRule, right⟩ := rule
  obtain ⟨calleeTree, rfl⟩ := exists_term callee calleeRule
  obtain ⟨argsTree, rfl⟩ := exists_arguments args argsRule
  cases names with
  | none => exact ⟨⟨leading, left, calleeTree, argsTree, none, trailing, right⟩, rfl⟩
  | some text =>
      cases namesRule text rfl with
      | @names before after inner gap gap' barless =>
          exact ⟨⟨leading, left, calleeTree, argsTree,
            some ⟨before, after, inner, gap, gap', barless⟩, trailing, right⟩, rfl⟩

end Tree

/-- What is derived is read as its derivation. -/
theorem read_yield (tree : Tree) : read tree.yield = .ok tree.body := by
  rw [← tree.text_body]
  exact read_of_grammatical tree.grammatical_body

/-- The reader accepts exactly what the grammar derives, the grammar derives nothing in two ways,
and what is read is the derivation. -/
theorem read_iff_derived (text : Text) :
    ((∃ body, read text = .ok body) ↔ ∃ tree : Tree, tree.yield = text) ∧
      (∀ tree other : Tree, tree.yield = text → other.yield = text → tree = other) ∧
      ∀ tree : Tree, tree.yield = text → read text = .ok tree.body := by
  refine ⟨⟨?_, ?_⟩, ?_, ?_⟩
  · rintro ⟨body, found⟩
    obtain ⟨whole, rule⟩ := grammatical_of_read found
    obtain ⟨tree, rfl⟩ := Tree.exists_tree rule
    exact ⟨tree, by rw [← tree.text_body, whole]⟩
  · rintro ⟨tree, rfl⟩
    exact ⟨tree.body, read_yield tree⟩
  · rintro tree other rfl same
    have found := read_yield other
    rw [same, read_yield tree] at found
    exact Tree.eq_of_body (Except.ok.inj found)
  · rintro tree rfl
    exact read_yield tree

end TagBody

end TemplateSelectors
