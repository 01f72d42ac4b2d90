import TemplateSelectors.Proofs.TagGrammar

/-!
# What the grammar allows is read

A tag that follows the rules is read back from its text as it is.  Each reader is greedy, so it
takes a piece whole and stops behind it, provided that what follows cannot belong to the piece:
an expression is followed by white space, a closing parenthesis or the end.
-/

set_option autoImplicit false

namespace TemplateSelectors

namespace TagBody

/-! ## Characters -/

theorem isSpace_of_isLayout {c : Char} (layout : isLayout c = true) : Text.isSpace c = true := by
  simp only [isLayout, Bool.or_eq_true, beq_iff_eq] at layout
  rcases layout with ((rfl | rfl) | rfl) | rfl
  all_goals rfl

theorem ne_of_isIdChar {c mark : Char} (idChar : isIdChar c = true)
    (special : reserved.contains mark = true) : c ≠ mark := by
  rintro rfl
  simp only [isIdChar, special, Bool.not_true, Bool.and_false] at idChar
  cases idChar

theorem isSpace_of_isIdChar {c : Char} (idChar : isIdChar c = true) : Text.isSpace c = false := by
  simp only [isIdChar, Bool.and_eq_true, Bool.not_eq_true'] at idChar
  exact idChar.1

theorem isLayout_of_isSpace {c : Char} (space : Text.isSpace c = false) : isLayout c = false := by
  cases layout : isLayout c with
  | false => rfl
  | true => rw [isSpace_of_isLayout layout] at space; cases space

theorem isIdChar_of_isLayout {c : Char} (layout : isLayout c = true) : isIdChar c = false := by
  simp [isIdChar, isSpace_of_isLayout layout]

/-- The characters with which an expression can start. -/
def isStart (c : Char) : Bool :=
  isIdChar c || ['.', '[', '@', '"', '\'', '('].contains c

/-- The characters with which an expression can end. -/
def isFinish (c : Char) : Bool :=
  isIdChar c || ['.', ']', '"', '\'', ')'].contains c

theorem isSpace_of_isStart {c : Char} (start : isStart c = true) : Text.isSpace c = false := by
  rcases Bool.or_eq_true_iff.mp start with idChar | special
  · exact isSpace_of_isIdChar idChar
  · simp only [List.contains_eq_mem, List.mem_cons, List.not_mem_nil, or_false,
      decide_eq_true_eq] at special
    rcases special with rfl | rfl | rfl | rfl | rfl | rfl
    all_goals rfl

theorem ne_of_isStart {c mark : Char} (start : isStart c = true) (other : isStart mark = false) :
    c ≠ mark := by
  rintro rfl
  rw [start] at other
  cases other

theorem isStart_of_isIdChar {c : Char} (idChar : isIdChar c = true) : isStart c = true := by
  simp [isStart, idChar]

/-! ## Runs of characters -/

/-- A text that does not go on with a character of the class. -/
def StopsAt (p : Char → Bool) (text : Text) : Prop :=
  ∀ c, text.head? = some c → p c = false

theorem stopsAt_cons {p : Char → Bool} {c : Char} {text : Text} (other : p c = false) :
    StopsAt p (c :: text) := by
  rintro d ⟨⟩
  exact other

theorem stopsAt_nil (p : Char → Bool) : StopsAt p [] := by
  rintro d ⟨⟩

theorem takeWhile_append_of_stopsAt {p : Char → Bool} {front text : Text}
    (all : ∀ c ∈ front, p c = true) (stops : StopsAt p text) :
    (front ++ text).takeWhile p = front := by
  rw [List.takeWhile_append_of_pos all]
  cases text with
  | nil => simp
  | cons c text => simp [stops c rfl]

theorem dropWhile_append_of_stopsAt {p : Char → Bool} {front text : Text}
    (all : ∀ c ∈ front, p c = true) (stops : StopsAt p text) :
    (front ++ text).dropWhile p = text := by
  rw [List.dropWhile_append_of_pos all]
  cases text with
  | nil => rfl
  | cons c text => simp [stops c rfl]

/-! ## Paths and strings -/

theorem Segment.starts {piece : Text} (segment : Segment piece) :
    ∃ c rest, piece = c :: rest ∧ (isIdChar c = true ∨ c = '.' ∨ c = '[') := by
  cases segment with
  | parent => exact ⟨'.', ['.'], rfl, .inr (.inl rfl)⟩
  | @bracketed name closed => exact ⟨'[', name ++ [']'], rfl, .inr (.inr rfl)⟩
  | name identifier =>
      obtain ⟨all, nonempty⟩ := identifier
      obtain ⟨c, rest, rfl⟩ := List.exists_cons_of_ne_nil nonempty
      exact ⟨c, rest, rfl, .inl (all c List.mem_cons_self)⟩

theorem segment?_append {piece rest : Text} (segment : Segment piece)
    (stops : StopsAt isIdChar rest) : segment? (piece ++ rest) = some (piece, rest) := by
  cases segment with
  | parent => rfl
  | @bracketed name closed =>
      have inside : ∀ c ∈ name, (c != ']') = true := by
        intro c member
        simp [closed c member]
      have stop : StopsAt (· != ']') (']' :: rest) := stopsAt_cons rfl
      have shape : '[' :: name ++ [']'] ++ rest = '[' :: (name ++ ']' :: rest) := by simp
      rw [shape, segment?]
      · rw [dropWhile_append_of_stopsAt inside stop, takeWhile_append_of_stopsAt inside stop]
  | name identifier =>
      obtain ⟨all, nonempty⟩ := identifier
      obtain ⟨c, more, rfl⟩ := List.exists_cons_of_ne_nil nonempty
      have first := all c List.mem_cons_self
      rw [segment?]
      · rw [takeWhile_append_of_stopsAt all stops, dropWhile_append_of_stopsAt all stops]
        simp
      · intro after same
        exact ne_of_isIdChar first rfl (List.cons.inj same).1
      · intro after same
        exact ne_of_isIdChar first rfl (List.cons.inj same).1

/-- A text that a path does not go on with. -/
def PathStops (text : Text) : Prop :=
  StopsAt (fun c => isIdChar c || c == '.' || c == '/') text

theorem PathStops.idChars {text : Text} (stops : PathStops text) : StopsAt isIdChar text := by
  intro c head
  have := stops c head
  simp only [Bool.or_eq_false_iff] at this
  exact this.1.1

theorem moreSegments_append_rest {piece rest : Text} (segments : Segments piece)
    (stops : PathStops rest) : moreSegments (piece ++ rest) = (piece, rest) := by
  induction segments with
  | done =>
      cases rest with
      | nil => simp [moreSegments]
      | cons c rest =>
          have other := stops c rfl
          simp only [Bool.or_eq_false_iff, beq_eq_false_iff_ne] at other
          rw [List.nil_append, moreSegments, if_neg]
          rintro (dot | slash)
          · exact other.1.2 dot
          · exact other.2 slash
  | @more c piece further separator segment more inductionHypothesis =>
      have next : StopsAt isIdChar (further ++ rest) := by
        cases more with
        | done => exact stops.idChars
        | more again _ _ =>
            refine stopsAt_cons ?_
            rcases again with rfl | rfl
            · rfl
            · rfl
      have found := segment?_append segment next
      have shape : c :: piece ++ further ++ rest = c :: (piece ++ (further ++ rest)) := by simp
      rw [shape, moreSegments, if_pos separator]
      split
      · next absent =>
          rw [found] at absent
          cases absent
      · next here =>
          rw [found] at here
          cases here
          simp [inductionHypothesis]

theorem path?_append {piece rest : Text} (path : Path piece) (stops : PathStops rest) :
    path? (piece ++ rest) = some (piece, rest) := by
  have next : ∀ {further : Text}, Segments further → StopsAt isIdChar (further ++ rest) := by
    intro further segments
    cases segments with
    | done => exact stops.idChars
    | more separator _ _ =>
        refine stopsAt_cons ?_
        rcases separator with rfl | rfl
        · rfl
        · rfl
  cases path with
  | @plain piece further segment more =>
      obtain ⟨c, first, rfl, start⟩ := segment.starts
      rw [path?]
      · rw [List.append_assoc, segment?_append segment (next more)]
        simp [moreSegments_append_rest more stops]
      · rintro after ⟨⟩
        rcases start with idChar | other | other
        · exact ne_of_isIdChar idChar rfl rfl
        · cases other
        · cases other
  | @data piece further segment more =>
      have shape : '@' :: piece ++ further ++ rest = '@' :: (piece ++ (further ++ rest)) := by simp
      rw [shape, path?, segment?_append segment (next more)]
      simp [moreSegments_append_rest more stops]

theorem closeQuote_append {quote : Char} {piece : Text} (rest : Text) (unlike : quote ≠ '\\')
    (tail : QuoteEnd quote piece) : closeQuote quote (piece ++ rest) = some (piece, rest) := by
  induction tail with
  | close =>
      rw [List.singleton_append, closeQuote, if_pos rfl]
      intro c after escape
      exact absurd escape unlike
  | escaped c more inductionHypothesis => simp [closeQuote, inductionHypothesis]
  | plain inside unescaped more inductionHypothesis =>
      rw [List.cons_append, closeQuote, if_neg inside, inductionHypothesis]
      · rfl
      · intro c after escape
        exact absurd escape unescaped

theorem quoted?_append {piece : Text} (rest : Text) (quoted : Quoted piece) :
    quoted? (piece ++ rest) = some (piece, rest) := by
  cases quoted with
  | double tail => simp [quoted?, closeQuote_append rest (by decide) tail]
  | single tail => simp [quoted?, closeQuote_append rest (by decide) tail]

/-! ## Ends of an expression -/

theorem Path.starts {piece : Text} (path : Path piece) :
    ∃ c rest, piece = c :: rest ∧ (isIdChar c = true ∨ c = '.' ∨ c = '[' ∨ c = '@') := by
  cases path with
  | plain segment more =>
      obtain ⟨c, rest, rfl, start⟩ := segment.starts
      refine ⟨c, _, rfl, ?_⟩
      rcases start with idChar | dot | bracket
      · exact .inl idChar
      · exact .inr (.inl dot)
      · exact .inr (.inr (.inl bracket))
  | data segment more => exact ⟨'@', _, rfl, .inr (.inr (.inr rfl))⟩

theorem Term.starts {term : Term} (rule : term.Grammatical) :
    ∃ c rest, term.text = c :: rest ∧ isStart c = true := by
  cases term with
  | path text =>
      obtain ⟨c, rest, rfl, start⟩ := Path.starts rule
      refine ⟨c, rest, rfl, ?_⟩
      rcases start with idChar | rfl | rfl | rfl
      · exact isStart_of_isIdChar idChar
      all_goals rfl
  | quoted text =>
      cases rule with
      | double tail => exact ⟨'"', _, rfl, rfl⟩
      | single tail => exact ⟨'\'', _, rfl, rfl⟩
  | call leading callee args trailing => exact ⟨'(', _, rfl, rfl⟩

/-- A text whose last character can end an expression. -/
def Finishes (text : Text) : Prop :=
  ∃ front c, text = front ++ [c] ∧ isFinish c = true

theorem Finishes.append {text : Text} (finishes : Finishes text) (front : Text) :
    Finishes (front ++ text) := by
  obtain ⟨inner, c, rfl, finish⟩ := finishes
  exact ⟨front ++ inner, c, by simp, finish⟩

theorem Segment.finishes {piece : Text} (segment : Segment piece) : Finishes piece := by
  cases segment with
  | parent => exact ⟨['.'], '.', rfl, rfl⟩
  | @bracketed name closed => exact ⟨'[' :: name, ']', rfl, rfl⟩
  | name identifier =>
      obtain ⟨all, nonempty⟩ := identifier
      refine ⟨piece.dropLast, piece.getLast nonempty, (List.dropLast_concat_getLast _).symm, ?_⟩
      simp [isFinish, all _ (List.getLast_mem nonempty)]

theorem Segments.finishes {piece : Text} (segments : Segments piece) :
    piece = [] ∨ Finishes piece := by
  induction segments with
  | done => exact .inl rfl
  | @more c piece rest separator segment further inductionHypothesis =>
      right
      rcases inductionHypothesis with rfl | finishes
      · rw [List.append_nil]
        exact segment.finishes.append [c]
      · exact finishes.append (c :: piece)

theorem Path.finishes {piece : Text} (path : Path piece) : Finishes piece := by
  have whole : ∀ {first more : Text}, Segment first → Segments more → Finishes (first ++ more) := by
    intro first more segment segments
    rcases segments.finishes with rfl | finishes
    · rw [List.append_nil]
      exact segment.finishes
    · exact finishes.append first
  cases path with
  | plain segment more => exact whole segment more
  | data segment more => exact (whole segment more).append ['@']

theorem QuoteEnd.finishes {quote : Char} {piece : Text} (tail : QuoteEnd quote piece)
    (finish : isFinish quote = true) : Finishes piece := by
  induction tail with
  | close => exact ⟨[], quote, rfl, finish⟩
  | escaped c more inductionHypothesis => exact inductionHypothesis.append ['\\', c]
  | @plain c rest inside unescaped more inductionHypothesis => exact inductionHypothesis.append [c]

theorem Term.finishes {term : Term} (rule : term.Grammatical) : Finishes term.text := by
  cases term with
  | path text => exact Path.finishes rule
  | quoted text =>
      cases rule with
      | double tail => exact (tail.finishes rfl).append ['"']
      | single tail => exact (tail.finishes rfl).append ['\'']
  | call leading callee args trailing => exact ⟨_, ')', rfl, rfl⟩

/-! ## What follows an expression -/

/-- What may follow an expression: white space or a closing parenthesis, and behind the white
space neither an equals sign nor a bar. -/
structure Follows (text : Text) : Prop where
  ends : ∀ c, text.head? = some c → isLayout c = true ∨ c = ')'
  calm : ∀ c, (text.dropWhile isLayout).head? = some c →
    Text.isSpace c = false ∧ c ≠ '=' ∧ c ≠ '|'

/-- Where arguments come to an end. -/
inductive Closes : Text → Prop where
  | finish {layout : Text} (spaces : Layout layout) : Closes layout
  | parenthesis {layout : Text} (spaces : Layout layout) (rest : Text) :
      Closes (layout ++ ')' :: rest)
  | names {names : Text} (rule : BlockParams names) (rest : Text) : Closes (names ++ rest)

theorem Follows.of_layout {layout text : Text} (spaces : Layout layout)
    (ends : layout = [] → ∀ c, text.head? = some c → c = ')')
    (calm : ∀ c, text.head? = some c → Text.isSpace c = false ∧ c ≠ '=' ∧ c ≠ '|') :
    Follows (layout ++ text) where
  ends c head := by
    cases layout with
    | nil => exact .inr (ends rfl c head)
    | cons d layout =>
        cases head
        exact .inl (spaces c List.mem_cons_self)
  calm c head := by
    have stops : StopsAt isLayout text := fun d first => isLayout_of_isSpace (calm d first).1
    rw [dropWhile_append_of_stopsAt spaces stops] at head
    exact calm c head

theorem Closes.follows {text : Text} (closes : Closes text) : Follows text := by
  cases closes with
  | finish spaces =>
      have follows : Follows (_ ++ []) := Follows.of_layout spaces (by simp) (by simp)
      rwa [List.append_nil] at follows
  | parenthesis spaces rest =>
      refine Follows.of_layout spaces ?_ ?_
      · rintro _ c ⟨⟩
        rfl
      · rintro c ⟨⟩
        decide
  | names rule rest =>
      cases rule with
      | @names before after inner left right barless =>
          have shape : before ++ 'a' :: 's' :: after ++ '|' :: inner ++ ['|'] ++ rest =
              before ++ ('a' :: 's' :: (after ++ '|' :: (inner ++ '|' :: rest))) := by simp
          rw [shape]
          refine Follows.of_layout left.1 ?_ ?_
          · intro nothing
            exact absurd nothing left.2
          · rintro c ⟨⟩
            decide

theorem Follows.of_isStart {layout text : Text} (gap : Gap layout)
    (start : ∀ c, text.head? = some c → isStart c = true) : Follows (layout ++ text) := by
  refine Follows.of_layout gap.1 (fun nothing => absurd nothing gap.2) ?_
  intro c head
  have first := start c head
  exact ⟨isSpace_of_isStart first, ne_of_isStart first (by decide), ne_of_isStart first (by decide)⟩

theorem Arguments.follows {args : Arguments} (rule : args.Grammatical) {rest : Text}
    (follows : Follows rest) : Follows (args.text ++ rest) := by
  cases args with
  | done => exact follows
  | positional leading value more =>
      obtain ⟨gap, valueRule, _⟩ := rule
      obtain ⟨c, after, text, start⟩ := Term.starts valueRule
      simp only [Arguments.text, List.append_assoc]
      refine Follows.of_isStart gap ?_
      rw [text]
      rintro d ⟨⟩
      exact start
  | keyword leading key separator value more =>
      obtain ⟨gap, ⟨all, nonempty⟩, _⟩ := rule
      obtain ⟨c, after, rfl⟩ := List.exists_cons_of_ne_nil nonempty
      simp only [Arguments.text, List.append_assoc]
      refine Follows.of_isStart gap ?_
      rintro d ⟨⟩
      exact isStart_of_isIdChar (all _ List.mem_cons_self)

theorem Follows.pathStops {text : Text} (follows : Follows text) : PathStops text := by
  intro c head
  rcases follows.ends c head with layout | rfl
  · have space := isSpace_of_isLayout layout
    simp only [isIdChar_of_isLayout layout, Bool.false_or, Bool.or_eq_false_iff,
      beq_eq_false_iff_ne]
    constructor
    · rintro rfl
      cases space
    · rintro rfl
      cases space
  · rfl

/-- Behind white space of any kind there is no bar. -/
theorem Follows.trimStart_head {text : Text} (follows : Follows text) :
    (Text.trimStart text).head? ≠ some '|' := by
  have whole := List.takeWhile_append_dropWhile (p := isLayout) (l := text)
  have stops : StopsAt Text.isSpace (text.dropWhile isLayout) := fun c head => (follows.calm c head).1
  have trimmed : Text.trimStart text = text.dropWhile isLayout := by
    rw [Text.trimStart, ← whole, dropWhile_append_of_stopsAt _ stops, whole]
    exact fun c member => isSpace_of_isLayout (layout_takeWhile text c member)
  rw [trimmed]
  intro bar
  exact (follows.calm '|' bar).2.2 rfl

/-! ## Block parameters -/

theorem trimStart_append {front text : Text} (spaces : Layout front)
    (stops : StopsAt Text.isSpace text) : Text.trimStart (front ++ text) = text :=
  dropWhile_append_of_stopsAt (fun c member => isSpace_of_isLayout (spaces c member)) stops

theorem head_any_isSpace {layout : Text} (gap : Gap layout) (text : Text) :
    (layout ++ text).head?.any Text.isSpace = true := by
  obtain ⟨c, rest, rfl⟩ := List.exists_cons_of_ne_nil gap.2
  simp [isSpace_of_isLayout (gap.1 c List.mem_cons_self)]

theorem startsBlockParams_append {names : Text} (rule : BlockParams names) (rest : Text) :
    startsBlockParams (names ++ rest) = true := by
  cases rule with
  | @names before after inner left right barless =>
      have shape : before ++ 'a' :: 's' :: after ++ '|' :: inner ++ ['|'] ++ rest =
          before ++ ('a' :: 's' :: (after ++ '|' :: (inner ++ '|' :: rest))) := by simp
      have stopsAtWord :
          StopsAt Text.isSpace ('a' :: 's' :: (after ++ '|' :: (inner ++ '|' :: rest))) :=
        stopsAt_cons rfl
      have stopsAtBar : StopsAt Text.isSpace ('|' :: (inner ++ '|' :: rest)) := stopsAt_cons rfl
      rw [shape, startsBlockParams, head_any_isSpace left, trimStart_append left.1 stopsAtWord]
      simp only [head_any_isSpace right, trimStart_append right.1 stopsAtBar]
      rfl

theorem blockParams?_append {names : Text} (rule : BlockParams names) (rest : Text) :
    blockParams? (names ++ rest) = some (names, rest) := by
  have starts := startsBlockParams_append rule rest
  cases rule with
  | @names before after inner left right barless =>
      have shape : before ++ 'a' :: 's' :: after ++ '|' :: inner ++ ['|'] ++ rest =
          before ++ ('a' :: 's' :: (after ++ '|' :: (inner ++ '|' :: rest))) := by simp
      have stopsAtWord : StopsAt isLayout ('a' :: 's' :: (after ++ '|' :: (inner ++ '|' :: rest))) :=
        stopsAt_cons rfl
      have stopsAtBar : StopsAt isLayout ('|' :: (inner ++ '|' :: rest)) := stopsAt_cons rfl
      have inside : ∀ c ∈ inner, (c != '|') = true := by
        intro c member
        simp [barless c member]
      have closing : StopsAt (· != '|') ('|' :: rest) := stopsAt_cons rfl
      have front := takeWhile_append_of_stopsAt left.1 stopsAtWord
      have nonempty := left.2
      rw [← front] at nonempty
      rw [shape] at starts ⊢
      rw [blockParams?, if_pos ⟨starts, nonempty⟩, dropWhile_append_of_stopsAt left.1 stopsAtWord,
        front]
      simp only [takeWhile_append_of_stopsAt right.1 stopsAtBar,
        dropWhile_append_of_stopsAt right.1 stopsAtBar, right.2, if_false, barred?,
        takeWhile_append_of_stopsAt inside closing, dropWhile_append_of_stopsAt inside closing]
      simp

/-- No block parameters start where the keyword is not followed by a bar. -/
theorem startsBlockParams_eq_false {layout text : Text} (spaces : Layout layout)
    (stops : StopsAt Text.isSpace text)
    (barless : ∀ after, text = 'a' :: 's' :: after → after.head?.any Text.isSpace = true →
      (Text.trimStart after).head? ≠ some '|') :
    startsBlockParams (layout ++ text) = false := by
  rw [startsBlockParams, trimStart_append spaces stops]
  split
  · next after =>
      have bar := barless after rfl
      cases space : after.head?.any Text.isSpace with
      | false => simp
      | true => simp [bar space]
  · simp

theorem blockParams?_layout {layout : Text} (spaces : Layout layout) :
    blockParams? layout = none := by
  have starts : startsBlockParams (layout ++ []) = false :=
    startsBlockParams_eq_false spaces (stopsAt_nil _) (by simp)
  rw [List.append_nil] at starts
  simp [blockParams?, starts]

/-- A text behind which a word ends at white space. -/
theorem pathStops_of_isSpace {text : Text} (space : text.head?.any Text.isSpace = true) :
    PathStops text := by
  intro c head
  rw [head, Option.any_some] at space
  simp only [isIdChar, space, Bool.not_true, Bool.false_and, Bool.false_or, Bool.or_eq_false_iff,
    beq_eq_false_iff_ne]
  constructor
  · rintro rfl
    cases space
  · rintro rfl
    cases space

theorem identifier_as : Identifier ['a', 's'] := by
  constructor
  · exact List.all_eq_true.mp rfl
  · simp

theorem startsBlockParams_term {layout rest : Text} {value : Term} (spaces : Layout layout)
    (rule : value.Grammatical) (follows : Follows rest) :
    startsBlockParams (layout ++ (value.text ++ rest)) = false := by
  obtain ⟨c, tail, text, start⟩ := Term.starts rule
  refine startsBlockParams_eq_false spaces ?_ ?_
  · rw [text]
    exact stopsAt_cons (isSpace_of_isStart start)
  · intro after word space
    cases value with
    | path path =>
        -- the path is the word itself, so what follows the word is what follows the path
        have whole := path?_append rule follows.pathStops
        have short := path?_append (.plain (.name identifier_as) .done) (pathStops_of_isSpace space)
        simp only [Term.text] at word
        rw [word] at whole
        simp only [List.append_nil, List.cons_append, List.nil_append] at short
        rw [short] at whole
        cases whole
        exact follows.trimStart_head
    | quoted string =>
        cases rule with
        | double tail => cases word
        | single tail => cases word
    | call leading callee args trailing => cases word

theorem Separator.stops {separator : Text} (rule : Separator separator) (rest : Text) :
    StopsAt isIdChar (separator ++ rest) := by
  cases rule with
  | @equals before after left right =>
      cases before with
      | nil => exact stopsAt_cons rfl
      | cons c before => exact stopsAt_cons (isIdChar_of_isLayout (left c List.mem_cons_self))

theorem startsBlockParams_key {layout key separator rest : Text} (spaces : Layout layout)
    (identifier : Identifier key) (rule : Separator separator) :
    startsBlockParams (layout ++ (key ++ (separator ++ rest))) = false := by
  refine startsBlockParams_eq_false spaces ?_ ?_
  · obtain ⟨c, tail, rfl⟩ := List.exists_cons_of_ne_nil identifier.2
    exact stopsAt_cons (isSpace_of_isIdChar (identifier.1 c List.mem_cons_self))
  · intro after word space
    have behindKey := dropWhile_append_of_stopsAt identifier.1 (rule.stops rest)
    have behindWord :=
      dropWhile_append_of_stopsAt identifier_as.1 (pathStops_of_isSpace space).idChars
    simp only [List.cons_append, List.nil_append] at behindWord
    rw [word, behindWord] at behindKey
    subst behindKey
    cases rule with
    | @equals before after left right =>
        have shape : before ++ '=' :: after ++ rest = before ++ '=' :: (after ++ rest) := by simp
        rw [shape, trimStart_append left (stopsAt_cons rfl)]
        simp

/-! ## Keys -/

theorem key?_append {key separator rest : Text} (identifier : Identifier key)
    (rule : Separator separator) (stops : StopsAt isLayout rest) :
    key? (key ++ (separator ++ rest)) = some ((key, separator), rest) := by
  have front := takeWhile_append_of_stopsAt identifier.1 (rule.stops rest)
  have behind := dropWhile_append_of_stopsAt identifier.1 (rule.stops rest)
  cases rule with
  | @equals before after left right =>
      have shape : before ++ '=' :: after ++ rest = before ++ '=' :: (after ++ rest) := by simp
      have equals : StopsAt isLayout ('=' :: (after ++ rest)) := stopsAt_cons rfl
      rw [key?, front, behind, shape, dropWhile_append_of_stopsAt left equals,
        takeWhile_append_of_stopsAt left equals]
      simp [identifier.2, takeWhile_append_of_stopsAt right stops,
        dropWhile_append_of_stopsAt right stops]

/-- Without an equals sign there is no key. -/
theorem key?_eq_none {text : Text}
    (other : ((text.dropWhile isIdChar).dropWhile isLayout).head? ≠ some '=') :
    key? text = none := by
  rw [key?]
  split
  · next equals =>
      rw [equals] at other
      exact absurd rfl other
  · rfl

theorem key?_term {value : Term} {rest : Text} (rule : value.Grammatical) (follows : Follows rest) :
    key? (value.text ++ rest) = none := by
  refine key?_eq_none ?_
  -- no identifier in front: the expression itself has to start with the equals sign
  have special : ∀ {c : Char} {tail : Text}, isIdChar c = false → isStart c = true →
      (((c :: tail).dropWhile isIdChar).dropWhile isLayout).head? ≠ some '=' := by
    intro c tail other start
    have space := isLayout_of_isSpace (isSpace_of_isStart start)
    have first : c ≠ '=' := ne_of_isStart start (by decide)
    simp [other, space, first]
  have named : ∀ {piece further : Text}, Segment piece → Segments further →
      (((piece ++ further ++ rest).dropWhile isIdChar).dropWhile isLayout).head? ≠ some '=' := by
    intro piece further segment segments
    cases segment with
    | parent => exact special (by decide) (by decide)
    | bracketed closed => exact special (by decide) (by decide)
    | name identifier =>
        cases segments with
        | done =>
            rw [List.append_nil, dropWhile_append_of_stopsAt identifier.1 follows.pathStops.idChars]
            intro equals
            exact (follows.calm '=' equals).2.1 rfl
        | @more c next others separator segment further =>
            have dot : isIdChar c = false ∧ isLayout c = false ∧ c ≠ '=' := by
              rcases separator with rfl | rfl
              · decide
              · decide
            rw [List.append_assoc, dropWhile_append_of_stopsAt identifier.1]
            · simp [dot]
            · exact stopsAt_cons dot.1
  cases value with
  | path path =>
      cases rule with
      | plain segment further => exact named segment further
      | data segment further => exact special (by decide) (by decide)
  | quoted string =>
      cases rule with
      | double tail => exact special (by decide) (by decide)
      | single tail => exact special (by decide) (by decide)
  | call leading callee args trailing => exact special (by decide) (by decide)

/-! ## Expressions and arguments -/

def ReadsTerm (text : Text) (term : Term) (rest : Text) : Prop :=
  ∃ taken : Taken Term text, term? text = some taken ∧ taken.value = term ∧ taken.rest = rest

def ReadsPair (text key separator : Text) (value : Term) (rest : Text) : Prop :=
  ∃ taken : Taken ((Text × Text) × Term) text,
    pair? text = some taken ∧ taken.value = ((key, separator), value) ∧ taken.rest = rest

def ReadsArguments (text : Text) (args : Arguments) (rest : Text) : Prop :=
  ∃ passed : Passed Arguments text,
    arguments text = .ok passed ∧ passed.value = args ∧ passed.rest = rest

theorem readsTerm_path {path rest : Text} (rule : Path path) (follows : Follows rest) :
    ReadsTerm (path ++ rest) (.path path) rest := by
  have found := path?_append rule follows.pathStops
  obtain ⟨c, tail, rfl, start⟩ := rule.starts
  have plain : c ≠ '(' ∧ ¬(c = '"' ∨ c = '\'') := by
    rcases start with idChar | rfl | rfl | rfl
    · refine ⟨ne_of_isIdChar idChar (by decide), ?_⟩
      rintro (rfl | rfl)
      · cases idChar
      · cases idChar
    all_goals decide
  have unquoted : quoted? (c :: (tail ++ rest)) = none := by simp [quoted?, plain.2]
  rw [List.cons_append] at found ⊢
  rw [ReadsTerm, term?, if_neg plain.1]
  split
  · next string =>
      rw [unquoted] at string
      cases string
  · split
    · next here =>
        rw [found] at here
        cases here
        exact ⟨_, rfl, rfl, rfl⟩
    · next absent =>
        rw [found] at absent
        cases absent

theorem readsTerm_quoted {string : Text} (rule : Quoted string) (rest : Text) :
    ReadsTerm (string ++ rest) (.quoted string) rest := by
  have found := quoted?_append rest rule
  have start : ∃ c tail, string = c :: tail ∧ c ≠ '(' := by
    cases rule with
    | double tail => exact ⟨_, _, rfl, by decide⟩
    | single tail => exact ⟨_, _, rfl, by decide⟩
  obtain ⟨c, tail, rfl, plain⟩ := start
  rw [List.cons_append] at found ⊢
  rw [ReadsTerm, term?, if_neg plain]
  split
  · next here =>
      rw [found] at here
      cases here
      exact ⟨_, rfl, rfl, rfl⟩
  · next absent =>
      rw [found] at absent
      cases absent

theorem readsTerm_call {leading trailing calleeText calleeRest rest : Text} {callee : Term}
    {args : Arguments} (left : Layout leading) (right : Layout trailing)
    (first : StopsAt isLayout calleeText) (readCallee : ReadsTerm calleeText callee calleeRest)
    (readArgs : ReadsArguments calleeRest args (trailing ++ ')' :: rest)) :
    ReadsTerm ('(' :: (leading ++ calleeText)) (.call leading callee args trailing) rest := by
  have behindLeading := dropWhile_append_of_stopsAt left first
  have frontLeading := takeWhile_append_of_stopsAt left first
  have close : StopsAt isLayout (')' :: rest) := stopsAt_cons rfl
  have behindTrailing := dropWhile_append_of_stopsAt right close
  have frontTrailing := takeWhile_append_of_stopsAt right close
  rw [← behindLeading] at readCallee
  obtain ⟨taken, foundCallee, rfl, rfl⟩ := readCallee
  obtain ⟨passed, foundArgs, rfl, stop⟩ := readArgs
  rw [ReadsTerm, term?, if_pos rfl]
  simp only [foundCallee, foundArgs]
  split
  · next nothing =>
      rw [stop, behindTrailing] at nothing
      cases nothing
  · next d after closing =>
      have same := closing
      rw [stop, behindTrailing] at same
      cases same
      rw [if_pos rfl]
      refine ⟨_, rfl, ?_, rfl⟩
      simp only [frontLeading, stop, frontTrailing]

theorem readsArguments_done {text : Text} (closes : Closes text) :
    ReadsArguments text .done text := by
  have stopped : text.takeWhile isLayout = [] ∨ text.dropWhile isLayout = [] ∨
      (text.dropWhile isLayout).head? = some ')' ∨ startsBlockParams text = true := by
    cases closes with
    | finish spaces =>
        have behind := dropWhile_append_of_stopsAt spaces (stopsAt_nil isLayout)
        rw [List.append_nil] at behind
        exact .inr (.inl behind)
    | parenthesis spaces rest =>
        rw [dropWhile_append_of_stopsAt spaces (stopsAt_cons (by decide))]
        exact .inr (.inr (.inl rfl))
    | names rule rest => exact .inr (.inr (.inr (startsBlockParams_append rule rest)))
  rw [ReadsArguments, arguments]
  split
  · exact ⟨_, rfl, rfl, rfl⟩
  · next gap =>
      rw [if_pos (stopped.resolve_left gap)]
      exact ⟨_, rfl, rfl, rfl⟩

theorem readsArguments_positional {leading valueText valueRest rest : Text} {value : Term}
    {more : Arguments} (gap : Gap leading)
    (first : ∀ c, valueText.head? = some c → isStart c = true) (nonempty : valueText ≠ [])
    (nameless : startsBlockParams (leading ++ valueText) = false)
    (keyless : key? valueText = none)
    (readValue : ReadsTerm valueText value valueRest)
    (readMore : ReadsArguments valueRest more rest) :
    ReadsArguments (leading ++ valueText) (.positional leading value more) rest := by
  have stops : StopsAt isLayout valueText := fun c head =>
    isLayout_of_isSpace (isSpace_of_isStart (first c head))
  have behind := dropWhile_append_of_stopsAt gap.1 stops
  have front := takeWhile_append_of_stopsAt gap.1 stops
  have goesOn : ¬(valueText = [] ∨ valueText.head? = some ')' ∨
      startsBlockParams (leading ++ valueText) = true) := by
    rintro (nothing | close | names)
    · exact nonempty nothing
    · exact ne_of_isStart (first _ close) (by decide) rfl
    · rw [nameless] at names
      cases names
  have unpaired : pair? valueText = none := by
    rw [pair?]
    split
    · rfl
    · next key =>
        rw [keyless] at key
        cases key
  rw [← behind] at readValue unpaired
  obtain ⟨taken, foundValue, rfl, rfl⟩ := readValue
  obtain ⟨passed, foundMore, rfl, rfl⟩ := readMore
  rw [ReadsArguments, arguments, dif_neg (by rw [front]; exact gap.2), if_neg (by rwa [behind])]
  simp only [unpaired, foundValue, foundMore]
  exact ⟨_, rfl, by simp only [front], rfl⟩

theorem readsPair_append {key separator valueText rest : Text} {value : Term}
    (identifier : Identifier key) (rule : Separator separator) (stops : StopsAt isLayout valueText)
    (readValue : ReadsTerm valueText value rest) :
    ReadsPair (key ++ (separator ++ valueText)) key separator value rest := by
  have found := key?_append identifier rule stops
  obtain ⟨taken, foundValue, rfl, rfl⟩ := readValue
  rw [ReadsPair, pair?]
  split
  · next absent =>
      rw [found] at absent
      cases absent
  · next here =>
      rw [found] at here
      cases here
      simp only [foundValue]
      exact ⟨_, rfl, rfl, rfl⟩

theorem readsArguments_keyword {leading key separator valueText valueRest rest : Text}
    {value : Term} {more : Arguments} (gap : Gap leading) (identifier : Identifier key)
    (rule : Separator separator) (first : ∀ c, valueText.head? = some c → isStart c = true)
    (readValue : ReadsTerm valueText value valueRest)
    (readMore : ReadsArguments valueRest more rest) :
    ReadsArguments (leading ++ (key ++ (separator ++ valueText)))
      (.keyword leading key separator value more) rest := by
  obtain ⟨c, tail, same⟩ := List.exists_cons_of_ne_nil identifier.2
  have start : isIdChar c = true := identifier.1 c (by simp [same])
  have stops : StopsAt isLayout (key ++ (separator ++ valueText)) := by
    rw [same]
    exact stopsAt_cons (isLayout_of_isSpace (isSpace_of_isIdChar start))
  have behind := dropWhile_append_of_stopsAt gap.1 stops
  have front := takeWhile_append_of_stopsAt gap.1 stops
  have goesOn : ¬(key ++ (separator ++ valueText) = [] ∨
      (key ++ (separator ++ valueText)).head? = some ')' ∨
      startsBlockParams (leading ++ (key ++ (separator ++ valueText))) = true) := by
    rw [startsBlockParams_key gap.1 identifier rule, same]
    rintro (nothing | close | names)
    · cases nothing
    · cases close
      cases start
    · cases names
  have readPair := readsPair_append identifier rule
    (fun c head => isLayout_of_isSpace (isSpace_of_isStart (first c head))) readValue
  rw [← behind] at readPair
  obtain ⟨pair, foundPair, pairValue, rfl⟩ := readPair
  obtain ⟨passed, foundMore, rfl, rfl⟩ := readMore
  rw [ReadsArguments, arguments, dif_neg (by rw [front]; exact gap.2), if_neg (by rwa [behind])]
  simp only [foundPair, foundMore]
  exact ⟨_, rfl, by simp only [front, pairValue], rfl⟩

mutual

/-- An expression is read whole, up to what may follow it. -/
theorem Term.reads (term : Term) (rule : term.Grammatical) {rest : Text} (follows : Follows rest) :
    ReadsTerm (term.text ++ rest) term rest := by
  cases term with
  | path path => exact readsTerm_path rule follows
  | quoted string => exact readsTerm_quoted rule rest
  | call leading callee args trailing =>
      obtain ⟨left, calleeRule, argsRule, right⟩ := rule
      obtain ⟨c, tail, text, start⟩ := Term.starts calleeRule
      have closes : Closes (trailing ++ ')' :: rest) := .parenthesis right rest
      have shape : (Term.call leading callee args trailing).text ++ rest =
          '(' :: (leading ++ (callee.text ++ (args.text ++ (trailing ++ ')' :: rest)))) := by
        simp [Term.text]
      rw [shape]
      refine readsTerm_call left right ?_
        (Term.reads callee calleeRule (Arguments.follows argsRule closes.follows))
        (Arguments.reads args argsRule closes)
      rw [text]
      exact stopsAt_cons (isLayout_of_isSpace (isSpace_of_isStart start))

/-- Arguments are read whole, up to where they come to an end. -/
theorem Arguments.reads (args : Arguments) (rule : args.Grammatical) {rest : Text}
    (closes : Closes rest) : ReadsArguments (args.text ++ rest) args rest := by
  cases args with
  | done => exact readsArguments_done closes
  | positional leading value more =>
      obtain ⟨gap, valueRule, moreRule⟩ := rule
      obtain ⟨c, tail, text, start⟩ := Term.starts valueRule
      have follows := Arguments.follows moreRule closes.follows
      have shape : (Arguments.positional leading value more).text ++ rest =
          leading ++ (value.text ++ (more.text ++ rest)) := by simp [Arguments.text]
      rw [shape]
      refine readsArguments_positional gap ?_ ?_ (startsBlockParams_term gap.1 valueRule follows)
        (key?_term valueRule follows) (Term.reads value valueRule follows)
        (Arguments.reads more moreRule closes)
      · rw [text]
        rintro d ⟨⟩
        exact start
      · simp [text]
  | keyword leading key separator value more =>
      obtain ⟨gap, identifier, separated, valueRule, moreRule⟩ := rule
      obtain ⟨c, tail, text, start⟩ := Term.starts valueRule
      have follows := Arguments.follows moreRule closes.follows
      have shape : (Arguments.keyword leading key separator value more).text ++ rest =
          leading ++ (key ++ (separator ++ (value.text ++ (more.text ++ rest)))) := by
        simp [Arguments.text]
      rw [shape]
      refine readsArguments_keyword gap identifier separated ?_ (Term.reads value valueRule follows)
        (Arguments.reads more moreRule closes)
      rw [text]
      rintro d ⟨⟩
      exact start

end

/-- A tag that follows the rules is read back from its text. -/
theorem read_of_grammatical {body : TagBody} (rule : body.Grammatical) :
    read body.text = .ok body := by
  obtain ⟨leading, callee, args, blockParams, trailing⟩ := body
  obtain ⟨left, calleeRule, argsRule, namesRule, right⟩ := rule
  simp only at left calleeRule argsRule namesRule right
  obtain ⟨c, tail, text, start⟩ := Term.starts calleeRule
  have closes : Closes (blockParams.getD [] ++ trailing) := by
    cases blockParams with
    | none => exact .finish right
    | some names => exact .names (namesRule names rfl) trailing
  have stops : StopsAt isLayout
      (callee.text ++ (args.text ++ (blockParams.getD [] ++ trailing))) := by
    rw [text]
    exact stopsAt_cons (isLayout_of_isSpace (isSpace_of_isStart start))
  have shape : (TagBody.mk leading callee args blockParams trailing).text =
      leading ++ (callee.text ++ (args.text ++ (blockParams.getD [] ++ trailing))) := by
    simp [TagBody.text]
  have readCallee := Term.reads callee calleeRule (Arguments.follows argsRule closes.follows)
  rw [← dropWhile_append_of_stopsAt left stops] at readCallee
  obtain ⟨taken, foundCallee, calleeValue, calleeRest⟩ := readCallee
  have readArgs := Arguments.reads args argsRule closes
  rw [← calleeRest] at readArgs
  obtain ⟨passed, foundArgs, argsValue, argsRest⟩ := readArgs
  have spaces := takeWhile_append_of_stopsAt right (stopsAt_nil isLayout)
  have nothing := dropWhile_append_of_stopsAt right (stopsAt_nil isLayout)
  rw [List.append_nil] at spaces nothing
  rw [shape, read]
  simp only [foundCallee, foundArgs, calleeValue, argsValue, argsRest,
    takeWhile_append_of_stopsAt left stops]
  cases blockParams with
  | none => simp only [Option.getD_none, List.nil_append, blockParams?_layout right, nothing, spaces]
  | some names =>
      simp only [Option.getD_some, blockParams?_append (namesRule names rfl), nothing, spaces]

end TagBody

end TemplateSelectors
