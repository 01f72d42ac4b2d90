import TemplateSelectors.Proofs.ErrorExcerpts
import TemplateSelectors.Proofs.OffsetBlocks
import TemplateSelectors.Proofs.OffsetMarkup

/-!
# Templates by offsets

A whole source is read by offsets: opening braces are searched for, those behind a single
backslash are passed over, and between two lexemes stands a run of text.  Reading so never goes
astray, and it ends as reading the text does: with the same template or the same error.
-/

set_option autoImplicit false

namespace TemplateSelectors

namespace ByOffsets

open Outcome (check)

def Marks.stop : Marks → Nat
  | .comment _ _ stop => stop
  | .tag _ _ _ stop => stop

/-- The run of text from `start` up to `stop`; no item if it is empty. -/
def textAt (source : Text) (start stop : Nat) : Outcome (List Item) :=
  if start < stop then do
    let chars ← cut source start stop
    let span ← spanBetween start stop
    let loc ← locationOf source span
    return [.statement (.text ⟨chars, loc⟩)]
  else return []

/-- The run of text from `textStart` on and the lexeme behind it, at `start`: their items, the
markup behind them, and where the lexeme stops. -/
def itemsAt (source : Text) (markup : Markup) (textStart start : Nat) :
    Outcome (List Item × Markup × Nat) := do
  let run ← textAt source textStart start
  let passed ← check (between? textStart start source.bytes)
  let here ← advanceFrom passed markup 0
  let marks ← lexemeAt source start
  let (item, behind) ← itemAt source here start marks
  return (run ++ [item], behind, marks.stop)

/-- The items from `textStart` on, where opening braces are searched for from `search` on.  A
round that gets no further would never come to an end; it counts as going astray. -/
def scanFrom (source : Text) (markup : Markup) (textStart search : Nat) :
    Outcome (List Item) := do
  let inside ← bytesFrom source search
  match Bytes.find? (Text.bytes ['{', '{']) inside with
  | none => textAt source textStart source.size
  | some found => do
      let start := search + found
      let escaped ← escapedAt source start
      if escaped then
        if _further : search < source.size then scanFrom source markup textStart (start + 2)
        else .astray
      else do
        let (items, behind, stop) ← itemsAt source markup textStart start
        if _further : search < source.size ∧ search < stop then do
          let more ← scanFrom source behind stop stop
          return items ++ more
        else .astray
termination_by source.size - search

def parse (source : Text) : Outcome Template := do
  let items ← scanFrom source .initial 0 0
  let body ← Tower.grow source ⟨[], []⟩ items
  let span ← spanBetween 0 source.size
  let loc ← locationOf source span
  return ⟨body, loc⟩

section

variable {source front : Text}

theorem textAt_append {chars rest : Text} (whole : source = front ++ (chars ++ rest)) :
    textAt source front.size (front.size + chars.size) =
      .reached (Item.ofText (.ofText source) front.size chars) := by
  cases chars with
  | nil => simp [textAt, Item.ofText]
  | cons c chars =>
      have positive : 0 < c.utf8Size := Char.utf8Size_pos c
      have nonempty : front.size < front.size + Text.size (c :: chars) := by
        rw [Text.size_cons]
        omega
      rw [textAt, if_pos nonempty, cut_append whole, Outcome.reached_bind,
        spanBetween_of_le (Nat.le_of_lt nonempty), Outcome.reached_bind, locationOf_eq]
      rfl

theorem stop_ofLexeme (start : Nat) (lexeme : Lexeme) :
    (Marks.ofLexeme start lexeme).stop = start + lexeme.raw.size := by
  cases lexeme with
  | comment opener value closer =>
      simp only [Marks.ofLexeme, Marks.stop, Lexeme.raw, Text.size_append, Nat.add_assoc]
  | tag triple opener inner closer =>
      simp only [Marks.ofLexeme, Marks.stop, Lexeme.raw, Text.size_append, Nat.add_assoc]

theorem itemsAt_eq {markup : Markup} (state : QuoteState markup.quote) {chars behind : Text}
    (whole : source = front ++ (chars ++ '{' :: '{' :: behind)) :
    itemsAt source markup front.size (front.size + chars.size) =
      match Lexeme.read behind with
      | .error (cause, size) =>
          .refused ((LineIndex.ofText source).errorAt cause
            ⟨front.size + chars.size, front.size + chars.size + size⟩)
      | .ok (lexeme, _) =>
          .ofExcept ((Item.ofLexeme (.ofText source) (markup.advance chars)
            (front.size + chars.size) lexeme).map fun (item, markup') =>
              (Item.ofText (.ofText source) front.size chars ++ [item], markup',
                front.size + chars.size + lexeme.raw.size)) := by
  have braced : source = (front ++ chars) ++ '{' :: '{' :: behind := by
    rw [whole, List.append_assoc]
  have marked := lexemeAt_eq braced
  rw [Text.size_append] at marked
  rw [itemsAt, textAt_append whole, Outcome.reached_bind, passedBytes whole, Outcome.check_some,
    Outcome.reached_bind, advanceFrom_eq, List.drop_zero, advance_bytes state,
    Outcome.reached_bind, marked]
  cases read : Lexeme.read behind with
  | error fault => rfl
  | ok parts =>
      obtain ⟨lexeme, rest⟩ := parts
      have standing : source = (front ++ chars) ++ (lexeme.raw ++ rest) := by
        rw [braced, Lexeme.append_eq_of_read read]
      have made := itemAt_eq (markup.advance chars) standing
      rw [Text.size_append] at made
      simp only [Marks.ofRead, Outcome.reached_bind, made, stop_ofLexeme, Outcome.ofExcept_map,
        Outcome.pure_eq]

/-- No backslash stands among the last two characters of a text. -/
def Plain (text : Text) : Prop :=
  backslashes (false, false) text = (false, false)

theorem plain_append (front : Text) {c d : Char} (first : c ≠ '\\') (second : d ≠ '\\') :
    Plain (front ++ [c, d]) := by
  rw [Plain, backslashes_append]
  simp [backslashes, first, second]

theorem size_raw_pos_of_read {behind rest : Text} {lexeme : Lexeme}
    (found : Lexeme.read behind = .ok (lexeme, rest)) : 0 < lexeme.raw.size := by
  obtain ⟨c, tail, shape⟩ := List.exists_cons_of_ne_nil (Lexeme.raw_ne_nil_of_read found)
  have positive : 0 < c.utf8Size := Char.utf8Size_pos c
  rw [shape, Text.size_cons]
  omega

theorem plain_raw_of_read (front : Text) {behind rest : Text} {lexeme : Lexeme}
    (found : Lexeme.read behind = .ok (lexeme, rest)) : Plain (front ++ lexeme.raw) := by
  suffices closed : ['}', '}'] <:+ lexeme.raw by
    obtain ⟨before, raw⟩ := closed
    rw [← raw, ← List.append_assoc]
    exact plain_append _ (by decide) (by decide)
  cases Lexeme.reads_of_read found with
  | triple first marked closed =>
      have braces : ['}', '}'] <:+ ['}', '}', '}'] := List.suffix_cons _ _
      exact (braces.trans (List.suffix_append _ _)).trans (List.suffix_append _ _)
  | tag first marked plain closed =>
      exact (List.suffix_append _ _).trans (List.suffix_append _ _)
  | shortComment first marked short closed =>
      exact (List.suffix_append _ _).trans (List.suffix_append _ _)
  | longComment first marked closed =>
      refine List.IsSuffix.trans ?_ (List.suffix_append _ _)
      rcases longEnd_of_splitLongComment closed with rfl | rfl
      · exact ⟨['-', '-'], rfl⟩
      · exact ⟨['-', '-', '~'], rfl⟩

/-- The items behind `passed`, which is the start of a run of text. -/
def scanPassed (index : LineIndex) (markup : Markup) (start : Nat) (passed text : Text) :
    Except ParseError (List Item) :=
  match textRun false false text with
  | (chars, '{' :: '{' :: behind) =>
      let lexemeStart := start + Text.size (passed ++ chars)
      match Lexeme.read behind with
      | .error (cause, size) => .error (index.errorAt cause ⟨lexemeStart, lexemeStart + size⟩)
      | .ok (lexeme, rest) =>
          match Item.ofLexeme index (markup.advance (passed ++ chars)) lexemeStart lexeme with
          | .error error => .error error
          | .ok (item, markup') =>
              (Item.scan index markup' (lexemeStart + lexeme.raw.size) rest).map fun items =>
                Item.ofText index start (passed ++ chars) ++ item :: items
  | (chars, _) => .ok (Item.ofText index start (passed ++ chars))

theorem scanPassed_nil (index : LineIndex) (markup : Markup) (start : Nat) (text : Text) :
    scanPassed index markup start [] text = Item.scan index markup start text := by
  fun_cases Item.scan index markup start text with
  | case1 chars behind run lexemeStart cause size refused =>
      simp only [scanPassed, run, refused, List.nil_append]
      rfl
  | case2 chars behind run lexemeStart lexeme rest read error failed =>
      have failed' : Item.ofLexeme index (markup.advance chars) (start + chars.size) lexeme =
          .error error := failed
      simp only [scanPassed, run, read, List.nil_append, failed']
  | case3 chars behind run lexemeStart lexeme rest read item markup' made =>
      have made' : Item.ofLexeme index (markup.advance chars) (start + chars.size) lexeme =
          .ok (item, markup') := made
      simp only [scanPassed, run, read, List.nil_append, made']
      rfl
  | case4 chars left other run =>
      have stop := textRun_stop false false text
      rw [run] at stop
      rcases stop with rfl | ⟨behind, rfl⟩
      · simp only [scanPassed, run, List.nil_append]
      · exact absurd rfl (other behind)

/-- Escaped braces belong to the run of text that they stand in. -/
theorem scanPassed_append (index : LineIndex) (markup : Markup) (start : Nat) (passed : Text)
    {text more behind : Text}
    (run : textRun false false text =
      (more ++ (textRun false false behind).1, (textRun false false behind).2)) :
    scanPassed index markup start (passed ++ more) behind =
      scanPassed index markup start passed text := by
  have stop := textRun_stop false false behind
  rcases shape : textRun false false behind with ⟨chars, left⟩
  rw [shape] at run stop
  rcases stop with rfl | ⟨rest, rfl⟩
  · simp only [scanPassed, run, shape, List.append_assoc]
  · simp only [scanPassed, run, shape, List.append_assoc]

/-! ## Rounds of the search -/

section

variable {text before behind : Text} (markup : Markup) (textStart : Nat)

theorem scanFrom_of_none (whole : source = front ++ text)
    (found : splitAtMark ['{', '{'] text = none) :
    scanFrom source markup textStart front.size = textAt source textStart source.size := by
  rw [scanFrom, bytesFrom_append whole, Outcome.reached_bind,
    Bytes.find?_bytes (by decide) (List.cons_ne_nil _ _), found]
  rfl

theorem size_lt_of_braces (whole : source = front ++ text)
    (found : splitAtMark ['{', '{'] text = some (before, behind)) : front.size < source.size := by
  have brace : Char.utf8Size '{' = 1 := rfl
  rw [whole, eq_append_of_splitAtMark found]
  simp only [Text.size_append, Text.size_cons, Text.size_nil, brace]
  omega

theorem escapedAt_braces (whole : source = front ++ text) (plain : Plain front)
    (found : splitAtMark ['{', '{'] text = some (before, behind)) :
    escapedAt source (front.size + before.size) =
      .reached (escapes (backslashes (false, false) before)) := by
  have braced : source = (front ++ before) ++ (['{', '{'] ++ behind) := by
    rw [whole, eq_append_of_splitAtMark found]
    simp
  have escaped := escapedAt_append braced
  rwa [backslashes_append, plain, Text.size_append] at escaped

theorem scanFrom_of_escaped (whole : source = front ++ text) (plain : Plain front)
    (found : splitAtMark ['{', '{'] text = some (before, behind))
    (alone : escapes (backslashes (false, false) before) = true) :
    scanFrom source markup textStart front.size =
      scanFrom source markup textStart (front.size + before.size + 2) := by
  rw [scanFrom, bytesFrom_append whole, Outcome.reached_bind,
    Bytes.find?_bytes (by decide) (List.cons_ne_nil _ _), found]
  simp only [Option.map_some, escapedAt_braces whole plain found, Outcome.reached_bind, alone,
    if_true]
  rw [dif_pos (size_lt_of_braces whole found)]

theorem scanFrom_of_braces (whole : source = front ++ text) (plain : Plain front)
    (found : splitAtMark ['{', '{'] text = some (before, behind))
    (apart : escapes (backslashes (false, false) before) = false) {items : List Item}
    {markup' : Markup} {stop : Nat}
    (made : itemsAt source markup textStart (front.size + before.size) =
      .reached (items, markup', stop)) (further : front.size < stop) :
    scanFrom source markup textStart front.size =
      (scanFrom source markup' stop stop >>= fun more => .reached (items ++ more)) := by
  rw [scanFrom, bytesFrom_append whole, Outcome.reached_bind,
    Bytes.find?_bytes (by decide) (List.cons_ne_nil _ _), found]
  simp only [Option.map_some, escapedAt_braces whole plain found, Outcome.reached_bind, apart,
    Bool.false_eq_true, if_false, made]
  rw [dif_pos ⟨size_lt_of_braces whole found, further⟩]
  rfl

theorem scanFrom_of_refused (whole : source = front ++ text) (plain : Plain front)
    (found : splitAtMark ['{', '{'] text = some (before, behind))
    (apart : escapes (backslashes (false, false) before) = false) {error : ParseError}
    (failed : itemsAt source markup textStart (front.size + before.size) = .refused error) :
    scanFrom source markup textStart front.size = .refused error := by
  rw [scanFrom, bytesFrom_append whole, Outcome.reached_bind,
    Bytes.find?_bytes (by decide) (List.cons_ne_nil _ _), found]
  simp only [Option.map_some, escapedAt_braces whole plain found, Outcome.reached_bind, apart,
    Bool.false_eq_true, if_false, failed]
  rfl

end

/-- A text whose items are found by offsets wherever it stands at the end of the source, behind a
part `passed` of the run of text that it begins with. -/
def ScansAs (source text : Text) : Prop :=
  ∀ (front passed : Text) (markup : Markup), QuoteState markup.quote →
    source = front ++ (passed ++ text) → Plain (front ++ passed) →
      scanFrom source markup front.size (front.size + passed.size) =
        .ofExcept (scanPassed (.ofText source) markup front.size passed text)

section

variable {text before behind : Text}

theorem scansAs_of_none (found : splitAtMark ['{', '{'] text = none) : ScansAs source text := by
  intro front passed markup _ whole _
  have split : source = (front ++ passed) ++ text := by
    rw [whole, List.append_assoc]
  have run := textRun_eq false false text
  have ends : source.size = front.size + Text.size (passed ++ text) := by
    rw [whole, Text.size_append]
  have last := @textAt_append source front (passed ++ text) [] (by rw [whole, List.append_nil])
  rw [found] at run
  rw [← Text.size_append, scanFrom_of_none markup front.size split found, ends, last, scanPassed,
    run]
  rfl

theorem scansAs_of_escaped (found : splitAtMark ['{', '{'] text = some (before, behind))
    (alone : escapes (backslashes (false, false) before) = true)
    (later : ScansAs source behind) : ScansAs source text := by
  intro front passed markup state whole plain
  have parts := eq_append_of_splitAtMark found
  have split : source = (front ++ passed) ++ text := by
    rw [whole, List.append_assoc]
  have around : source = front ++ ((passed ++ (before ++ ['{', '{'])) ++ behind) := by
    rw [whole, parts]
    simp
  have plain' : Plain (front ++ (passed ++ (before ++ ['{', '{']))) := by
    rw [← List.append_assoc, ← List.append_assoc]
    exact plain_append _ (by decide) (by decide)
  have next : Text.size (front ++ passed) + before.size + 2 =
      front.size + Text.size (passed ++ (before ++ ['{', '{'])) := by
    simp only [Text.size_append, Nat.add_assoc]
    rfl
  rw [← Text.size_append, scanFrom_of_escaped markup front.size split plain found alone, next,
    later _ _ _ state around plain', scanPassed_append]
  simp only [textRun_eq false false text, found, alone, if_true, List.append_assoc]
  rfl

theorem scansAs_of_braces (found : splitAtMark ['{', '{'] text = some (before, behind))
    (apart : escapes (backslashes (false, false) before) = false)
    (later : ∀ rest : Text, rest.length < text.length → ScansAs source rest) :
    ScansAs source text := by
  intro front passed markup state whole plain
  have parts := eq_append_of_splitAtMark found
  have split : source = (front ++ passed) ++ text := by
    rw [whole, List.append_assoc]
  have chars : source = front ++ ((passed ++ before) ++ '{' :: '{' :: behind) := by
    rw [whole, parts]
    simp
  have run : textRun false false text = (before, '{' :: '{' :: behind) := by
    rw [textRun_eq, found]
    simp only [apart, Bool.false_eq_true, if_false]
  have place : front.size + Text.size (passed ++ before) =
      Text.size (front ++ passed) + before.size := by
    simp only [Text.size_append, Nat.add_assoc]
  have items := itemsAt_eq state chars
  rw [← Text.size_append]
  simp only [scanPassed, run]
  rw [place] at items ⊢
  cases read : Lexeme.read behind with
  | error fault =>
      rw [read] at items
      exact scanFrom_of_refused markup front.size split plain found apart items
  | ok lexemes =>
      obtain ⟨lexeme, rest⟩ := lexemes
      rw [read] at items
      simp only at items ⊢
      cases made : Item.ofLexeme (.ofText source) (markup.advance (passed ++ before))
          (Text.size (front ++ passed) + before.size) lexeme with
      | error error =>
          rw [made] at items
          exact scanFrom_of_refused markup front.size split plain found apart items
      | ok reached =>
          obtain ⟨item, markup'⟩ := reached
          have around : source = (front ++ passed ++ before ++ lexeme.raw) ++ ([] ++ rest) := by
            rw [chars, Lexeme.append_eq_of_read read]
            simp
          have plain' : Plain (front ++ passed ++ before ++ lexeme.raw ++ []) := by
            rw [List.append_nil]
            exact plain_raw_of_read _ read
          have state' : QuoteState markup'.quote := by
            rw [quote_of_ofLexeme made]
            exact quoteState_advance state _
          have more := later rest (Item.length_lt_of_read run read) _ _ _ state' around plain'
          rw [Text.size_nil, Nat.add_zero, scanPassed_nil, Text.size_append _ lexeme.raw,
            Text.size_append _ before] at more
          have positive := size_raw_pos_of_read read
          rw [made] at items
          rw [scanFrom_of_braces markup front.size split plain found apart items (by omega), more,
            Outcome.ofExcept_map]
          simp only [List.append_assoc, List.singleton_append]

end

theorem scansAs (text : Text) : ScansAs source text := by
  induction bound : text.length using Nat.strongRecOn generalizing text with
  | ind length inductionHypothesis =>
  cases found : splitAtMark ['{', '{'] text with
  | none => exact scansAs_of_none found
  | some halves =>
      obtain ⟨before, behind⟩ := halves
      cases alone : escapes (backslashes (false, false) before) with
      | true =>
          have shorter : behind.length < length := by
            rw [← bound, eq_append_of_splitAtMark found]
            simp only [List.length_append, List.length_cons]
            omega
          exact scansAs_of_escaped found alone (inductionHypothesis _ shorter behind rfl)
      | false =>
          apply scansAs_of_braces found alone
          intro rest shorter
          exact inductionHypothesis _ (by omega) rest rfl

end

theorem parse_eq (source : Text) : parse source = .ofExcept (Template.parse source) := by
  have scanned := @scansAs source source [] [] .initial quoteState_none rfl rfl
  rw [scanPassed_nil] at scanned
  have scanned' : scanFrom source .initial 0 0 =
      .ofExcept (Item.scan (.ofText source) .initial 0 source) := scanned
  rw [parse, Template.parse, scanned']
  cases items : Item.scan (.ofText source) .initial 0 source with
  | error error => rfl
  | ok list =>
      have placed : Item.Placed source [] list :=
        Item.placed_of_scans (Item.scans_of_scan items) rfl rfl
      have grown := @grow_eq source list (inOrder_of_placed placed).1
      simp only [Outcome.ofExcept, Outcome.reached_bind, grown]
      cases Template.ofItems (.ofText source) list with
      | error error => rfl
      | ok body =>
          rw [Outcome.reached_bind, spanBetween_of_le (Nat.zero_le _), Outcome.reached_bind,
            locationOf_eq]
          rfl

end ByOffsets

/-- Reading a source by offsets never goes astray, not even where a nested call is cut out of the
text it was read from, and an error is about a place in the source. -/
theorem Template.parse_within_source (source : Text) :
    ByOffsets.parse source = .ofExcept (parse source) ∧
    (∀ (text : Text) (taken : TagBody.Taken TagBody.Term text), TagBody.term? text = some taken →
      ByOffsets.textTaken text taken.rest = .reached taken.value.text) ∧
    ∀ error : ParseError, parse source = .error error →
      error.span.start ≤ error.span.stop ∧ error.span.stop ≤ source.size ∧
        source.isBoundary error.span.start = true ∧
        error.position = positionAt source error.span.start := by
  refine ⟨ByOffsets.parse_eq source, ?_, ?_⟩
  · intro text taken found
    have whole := (TagBody.soundTerm text taken found).1
    exact (congrArg (ByOffsets.textTaken · taken.rest) whole).trans
      (ByOffsets.textTaken_append _ _)
  · intro error failed
    have stands := standsIn_of_parse failed
    obtain ⟨ordered, inside⟩ := stands.ordered
    exact ⟨ordered, inside, stands.isBoundary_start, stands.position_eq⟩

/-- Behind letters of two bytes, a call with one parenthesis too many. -/
def strayParenthesis : Text :=
  "é\n\x7b\x7bx (ü y) )ß\x7d\x7d".toList

theorem Template.parse_within_source_strayParenthesis :
    (∃ taken, TagBody.term? ['(', 'ü', ')', ' ', 'ß'] = some taken ∧
      ByOffsets.textTaken ['(', 'ü', ')', ' ', 'ß'] taken.rest = .reached ['(', 'ü', ')']) ∧
    ∃ error, parse strayParenthesis = .error error ∧
      ByOffsets.parse strayParenthesis = .refused error ∧ error.span = ⟨14, 15⟩ ∧
      error.span.start ≤ error.span.stop ∧ error.span.stop ≤ strayParenthesis.size ∧
      strayParenthesis.isBoundary error.span.start = true ∧
      error.position = positionAt strayParenthesis error.span.start := by
  obtain ⟨read, texts, places⟩ := parse_within_source strayParenthesis
  have call : (TagBody.term? ['(', 'ü', ')', ' ', 'ß']).map (fun taken => taken.value.text) =
      some ['(', 'ü', ')'] := by
    cbv
  have marked : ∃ error, parse strayParenthesis = .error error ∧ error.span = ⟨14, 15⟩ := by
    apply exists_error_of_map
    cbv
  obtain ⟨taken, found, text⟩ := Option.map_eq_some_iff.mp call
  obtain ⟨error, failed, span⟩ := marked
  rw [failed] at read
  refine ⟨⟨taken, found, ?_⟩, error, failed, read, span, places error failed⟩
  rw [texts _ taken found, text]

end TemplateSelectors
