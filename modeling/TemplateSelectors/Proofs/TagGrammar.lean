import TemplateSelectors.TagBody.Reader

/-!
# The grammar of a tag

The rules for what may stand between the braces of a tag, piece by piece, and the proof that
the readers take only what the rules allow and leave nothing out.
-/

set_option autoImplicit false

namespace TemplateSelectors

namespace TagBody

/-- White space, or nothing. -/
def Layout (text : Text) : Prop :=
  ∀ c ∈ text, isLayout c = true

/-- White space that sets an argument off from what stands before it. -/
def Gap (text : Text) : Prop :=
  Layout text ∧ text ≠ []

def Identifier (text : Text) : Prop :=
  (∀ c ∈ text, isIdChar c = true) ∧ text ≠ []

inductive Segment : Text → Prop where
  | parent : Segment ['.', '.']
  | bracketed {name : Text} (unclosed : ∀ c ∈ name, c ≠ ']') : Segment ('[' :: name ++ [']'])
  | name {name : Text} (identifier : Identifier name) : Segment name

/-- Further segments of a path, each behind a separator. -/
inductive Segments : Text → Prop where
  | done : Segments []
  | more {c : Char} {piece rest : Text} (separator : c = '.' ∨ c = '/') (segment : Segment piece)
      (further : Segments rest) : Segments (c :: piece ++ rest)

inductive Path : Text → Prop where
  | plain {piece rest : Text} (segment : Segment piece) (further : Segments rest) :
      Path (piece ++ rest)
  | data {piece rest : Text} (segment : Segment piece) (further : Segments rest) :
      Path ('@' :: piece ++ rest)

/-- What follows an opening quote, up to the quote that closes it. -/
inductive QuoteEnd (quote : Char) : Text → Prop where
  | close : QuoteEnd quote [quote]
  | escaped (c : Char) {rest : Text} (more : QuoteEnd quote rest) :
      QuoteEnd quote ('\\' :: c :: rest)
  | plain {c : Char} {rest : Text} (inside : c ≠ quote) (unescaped : c ≠ '\\')
      (more : QuoteEnd quote rest) : QuoteEnd quote (c :: rest)

inductive Quoted : Text → Prop where
  | double {rest : Text} (tail : QuoteEnd '"' rest) : Quoted ('"' :: rest)
  | single {rest : Text} (tail : QuoteEnd '\'' rest) : Quoted ('\'' :: rest)

/-- The equals sign of a keyword argument. -/
inductive Separator : Text → Prop where
  | equals {before after : Text} (left : Layout before) (right : Layout after) :
      Separator (before ++ '=' :: after)

inductive BlockParams : Text → Prop where
  | names {before after inner : Text} (left : Gap before) (right : Gap after)
      (barless : ∀ c ∈ inner, c ≠ '|') :
      BlockParams (before ++ 'a' :: 's' :: after ++ '|' :: inner ++ ['|'])

mutual

def Term.Grammatical : Term → Prop
  | .path text => Path text
  | .quoted text => Quoted text
  | .call leading callee args trailing =>
      Layout leading ∧ callee.Grammatical ∧ args.Grammatical ∧ Layout trailing

def Arguments.Grammatical : Arguments → Prop
  | .done => True
  | .positional leading value more => Gap leading ∧ value.Grammatical ∧ more.Grammatical
  | .keyword leading key separator value more =>
      Gap leading ∧ Identifier key ∧ Separator separator ∧ value.Grammatical ∧ more.Grammatical

end

structure Grammatical (body : TagBody) : Prop where
  leading : Layout body.leading
  callee : body.callee.Grammatical
  args : body.args.Grammatical
  blockParams : ∀ names, body.blockParams = some names → BlockParams names
  trailing : Layout body.trailing

/-! ## The readers follow the rules -/

theorem layout_takeWhile (text : Text) : Layout (text.takeWhile isLayout) :=
  List.all_eq_true.mp List.all_takeWhile

theorem identifier_takeWhile {text : Text} (nonempty : text.takeWhile isIdChar ≠ []) :
    Identifier (text.takeWhile isIdChar) :=
  ⟨List.all_eq_true.mp List.all_takeWhile, nonempty⟩

/-- The characters before the first `mark` are other characters. -/
theorem ne_of_mem_takeWhile {mark c : Char} {text : Text}
    (member : c ∈ text.takeWhile (· != mark)) : c ≠ mark := by
  have all := List.all_eq_true.mp (List.all_takeWhile (p := (· != mark)) (l := text)) c member
  simpa using all

theorem head_of_dropWhile_ne {mark close : Char} {text rest : Text}
    (found : text.dropWhile (· != mark) = close :: rest) : close = mark := by
  have head := List.head?_dropWhile_not (· != mark) text
  rw [found] at head
  simpa using head

theorem segment_of_segment? {text piece rest : Text}
    (found : segment? text = some (piece, rest)) : Segment piece := by
  unfold segment? at found
  split at found
  · cases found
    exact .parent
  · next inner =>
      split at found
      · cases found
      · next close after closing =>
          cases found
          rw [head_of_dropWhile_ne closing]
          exact .bracketed fun c member => ne_of_mem_takeWhile member
  · split at found
    · cases found
    · next nonempty =>
        cases found
        exact .name (identifier_takeWhile nonempty)

theorem segments_of_moreSegments (text : Text) : Segments (moreSegments text).1 := by
  fun_induction moreSegments text with
  | case1 => exact .done
  | case2 => exact .done
  | case3 c after separator piece rest found more inductionHypothesis =>
      exact .more separator (segment_of_segment? found) inductionHypothesis
  | case4 => exact .done

theorem path_of_path? {text piece rest : Text} (found : path? text = some (piece, rest)) :
    Path piece := by
  unfold path? at found
  split at found
  · obtain ⟨⟨first, left⟩, segment, same⟩ := Option.map_eq_some_iff.mp found
    cases same
    exact .data (segment_of_segment? segment) (segments_of_moreSegments left)
  · obtain ⟨⟨first, left⟩, segment, same⟩ := Option.map_eq_some_iff.mp found
    cases same
    exact .plain (segment_of_segment? segment) (segments_of_moreSegments left)

theorem quoteEnd_of_closeQuote {quote : Char} {text piece rest : Text}
    (found : closeQuote quote text = some (piece, rest)) : QuoteEnd quote piece := by
  fun_induction closeQuote quote text generalizing piece rest with
  | case1 => cases found
  | case2 c after inductionHypothesis =>
      obtain ⟨⟨inner, left⟩, closed, same⟩ := Option.map_eq_some_iff.mp found
      cases same
      exact .escaped c (inductionHypothesis closed)
  | case3 =>
      cases found
      exact .close
  | case4 c after taken inside inductionHypothesis =>
      obtain ⟨⟨inner, left⟩, closed, same⟩ := Option.map_eq_some_iff.mp found
      cases same
      refine .plain inside ?_ (inductionHypothesis closed)
      rintro rfl
      -- a backslash that takes nothing along is the last character, and no quote closes
      cases after with
      | nil => cases closed
      | cons d after => exact taken d after rfl rfl

theorem quoted_of_quoted? {text piece rest : Text} (found : quoted? text = some (piece, rest)) :
    Quoted piece := by
  cases text with
  | nil => cases found
  | cons c after =>
      by_cases quote : c = '"' ∨ c = '\''
      · simp only [quoted?, quote, if_true] at found
        obtain ⟨⟨inner, left⟩, closed, same⟩ := Option.map_eq_some_iff.mp found
        cases same
        rcases quote with rfl | rfl
        · exact .double (quoteEnd_of_closeQuote closed)
        · exact .single (quoteEnd_of_closeQuote closed)
      · simp [quoted?, quote] at found

theorem key_of_key? {text key separator rest : Text}
    (found : key? text = some ((key, separator), rest)) : Identifier key ∧ Separator separator := by
  unfold key? at found
  split at found
  · split at found
    · cases found
    · next nonempty =>
        cases found
        exact ⟨identifier_takeWhile nonempty, .equals (layout_takeWhile _) (layout_takeWhile _)⟩
  · cases found

theorem names_of_barred? {text piece rest : Text} (found : barred? text = some (piece, rest)) :
    ∃ inner, piece = '|' :: inner ++ ['|'] ∧ (∀ c ∈ inner, c ≠ '|') ∧ text = piece ++ rest := by
  unfold barred? at found
  split at found
  · next names =>
      split at found
      · cases found
      · next bar behind closing =>
          cases found
          have last := head_of_dropWhile_ne closing
          subst last
          have whole := List.takeWhile_append_dropWhile (p := (· != '|')) (l := names)
          rw [closing] at whole
          refine ⟨names.takeWhile (· != '|'), rfl, fun c member => ne_of_mem_takeWhile member, ?_⟩
          simp [whole]
  · cases found

theorem blockParams_of_blockParams? {text names rest : Text}
    (found : blockParams? text = some (names, rest)) :
    text = names ++ rest ∧ BlockParams names := by
  unfold blockParams? at found
  split at found
  · next start =>
      split at found
      · next after as =>
          split at found
          · cases found
          · next gap =>
              obtain ⟨⟨barred, left⟩, bars, same⟩ := Option.map_eq_some_iff.mp found
              obtain ⟨inner, rfl, barless, opened⟩ := names_of_barred? bars
              cases same
              have before := List.takeWhile_append_dropWhile (p := isLayout) (l := text)
              have between := List.takeWhile_append_dropWhile (p := isLayout) (l := after)
              rw [as] at before
              rw [opened] at between
              constructor
              · simp only [List.append_assoc, List.cons_append] at between ⊢
                rw [between, before]
              · have rule := BlockParams.names ⟨layout_takeWhile text, start.2⟩
                  ⟨layout_takeWhile after, gap⟩ barless
                simpa using rule
      · cases found
  · cases found

/-- The reader of expressions takes an expression off the front of this text. -/
def SoundTerm (text : Text) : Prop :=
  ∀ taken : Taken Term text, term? text = some taken →
    text = taken.value.text ++ taken.rest ∧ taken.value.Grammatical

def SoundPair (text : Text) : Prop :=
  ∀ taken : Taken ((Text × Text) × Term) text, pair? text = some taken →
    text = taken.value.1.1 ++ taken.value.1.2 ++ taken.value.2.text ++ taken.rest ∧
      Identifier taken.value.1.1 ∧ Separator taken.value.1.2 ∧ taken.value.2.Grammatical

def SoundArguments (text : Text) : Prop :=
  ∀ passed : Passed Arguments text, arguments text = .ok passed →
    text = passed.value.text ++ passed.rest ∧ passed.value.Grammatical

theorem soundTerm_step {text : Text}
    (terms : ∀ shorter : Text, shorter.length < text.length → SoundTerm shorter)
    (lists : ∀ shorter : Text, shorter.length < text.length → SoundArguments shorter) :
    SoundTerm text := by
  intro taken found
  unfold term? at found
  split at found
  · cases found
  · next c inside =>
      have inner := length_dropWhile_le isLayout inside
      split at found
      · next opened =>
          subst opened
          split at found
          · cases found
          · next callee readCallee =>
              have calleeRest := callee.shorter
              obtain ⟨calleeText, calleeRule⟩ :=
                terms _ (by simp only [List.length_cons]; omega) callee readCallee
              split at found
              · cases found
              · next args readArgs =>
                  obtain ⟨argsText, argsRule⟩ :=
                    lists _ (by simp only [List.length_cons]; omega) args readArgs
                  split at found
                  · cases found
                  · next d rest closing =>
                      split at found
                      · next closed =>
                          subst closed
                          cases found
                          have before :=
                            List.takeWhile_append_dropWhile (p := isLayout) (l := inside)
                          have behind :=
                            List.takeWhile_append_dropWhile (p := isLayout) (l := args.rest)
                          rw [closing] at behind
                          rw [calleeText, argsText] at before
                          refine ⟨?_, layout_takeWhile _, calleeRule, argsRule, layout_takeWhile _⟩
                          simp only [Term.text, List.cons_append, List.append_assoc, List.nil_append,
                            behind, before]
                      · cases found
      · split at found
        · next piece rest string =>
            cases found
            exact ⟨(eq_append_of_quoted? string).1, quoted_of_quoted? string⟩
        · split at found
          · next piece rest path =>
              cases found
              exact ⟨(eq_append_of_path? path).1, path_of_path? path⟩
          · cases found

theorem soundPair_step {text : Text}
    (terms : ∀ shorter : Text, shorter.length < text.length → SoundTerm shorter) :
    SoundPair text := by
  intro taken found
  unfold pair? at found
  split at found
  · cases found
  · next key behind readKey =>
      split at found
      · cases found
      · next value readValue =>
          cases found
          obtain ⟨valueText, valueRule⟩ := terms behind (length_lt_of_key? readKey) value readValue
          obtain ⟨keyText, _⟩ := eq_append_of_key? readKey
          obtain ⟨identifier, separator⟩ := key_of_key? readKey
          refine ⟨?_, identifier, separator, valueRule⟩
          rw [List.append_assoc, ← valueText]
          exact keyText

theorem soundArguments_step {text : Text}
    (terms : ∀ shorter : Text, shorter.length < text.length → SoundTerm shorter)
    (pairs : ∀ shorter : Text, shorter.length < text.length → SoundPair shorter)
    (lists : ∀ shorter : Text, shorter.length < text.length → SoundArguments shorter) :
    SoundArguments text := by
  intro passed found
  unfold arguments at found
  split at found
  · cases found
    exact ⟨rfl, trivial⟩
  · next layout =>
      have gap : Gap (text.takeWhile isLayout) := ⟨layout_takeWhile text, layout⟩
      have behindGap := length_dropWhile_lt layout
      have whole := List.takeWhile_append_dropWhile (p := isLayout) (l := text)
      split at found
      · cases found
        exact ⟨rfl, trivial⟩
      · split at found
        · next pair readPair =>
            have pairRest := pair.shorter
            obtain ⟨pairText, pairRule⟩ := pairs _ behindGap pair readPair
            split at found
            · cases found
            · next more readMore =>
                cases found
                obtain ⟨moreText, moreRule⟩ := lists _ (by omega) more readMore
                refine ⟨?_, gap, pairRule.1, pairRule.2.1, pairRule.2.2, moreRule⟩
                rw [pairText, moreText] at whole
                simpa [Arguments.text] using whole.symm
        · split at found
          · cases found
          · next value readValue =>
              have valueRest := value.shorter
              obtain ⟨valueText, valueRule⟩ := terms _ behindGap value readValue
              split at found
              · cases found
              · next more readMore =>
                  cases found
                  obtain ⟨moreText, moreRule⟩ := lists _ (by omega) more readMore
                  refine ⟨?_, gap, valueRule, moreRule⟩
                  rw [valueText, moreText] at whole
                  simpa [Arguments.text] using whole.symm

/-- All three readers at once, by induction on a bound for the length. -/
theorem sound_below (bound : Nat) (text : Text) (below : text.length < bound) :
    SoundTerm text ∧ SoundPair text ∧ SoundArguments text := by
  induction bound generalizing text with
  | zero => omega
  | succ bound inductionHypothesis =>
      have terms : ∀ shorter : Text, shorter.length < text.length → SoundTerm shorter :=
        fun shorter less => (inductionHypothesis shorter (by omega)).1
      have pairs : ∀ shorter : Text, shorter.length < text.length → SoundPair shorter :=
        fun shorter less => (inductionHypothesis shorter (by omega)).2.1
      have lists : ∀ shorter : Text, shorter.length < text.length → SoundArguments shorter :=
        fun shorter less => (inductionHypothesis shorter (by omega)).2.2
      exact ⟨soundTerm_step terms lists, soundPair_step terms, soundArguments_step terms pairs lists⟩

theorem soundTerm (text : Text) : SoundTerm text :=
  (sound_below (text.length + 1) text (Nat.lt_succ_self _)).1

theorem soundArguments (text : Text) : SoundArguments text :=
  (sound_below (text.length + 1) text (Nat.lt_succ_self _)).2.2

/-- What is read as the inside of a tag follows the rules and is the whole text. -/
theorem grammatical_of_read {text : Text} {body : TagBody} (found : read text = .ok body) :
    body.text = text ∧ body.Grammatical := by
  unfold read at found
  simp only at found
  split at found
  · cases found
  · next callee readCallee =>
      obtain ⟨calleeText, calleeRule⟩ := soundTerm _ callee readCallee
      have before := List.takeWhile_append_dropWhile (p := isLayout) (l := text)
      split at found
      · cases found
      · next args readArgs =>
          obtain ⟨argsText, argsRule⟩ := soundArguments _ args readArgs
          rw [calleeText, argsText] at before
          cases names : blockParams? args.rest with
          | none =>
              simp only [names] at found
              split at found
              · next spaces =>
                  cases found
                  refine ⟨?_, layout_takeWhile _, calleeRule, argsRule, by simp, layout_takeWhile _⟩
                  have behind := List.takeWhile_append_dropWhile (p := isLayout) (l := args.rest)
                  rw [spaces, List.append_nil] at behind
                  rw [behind]
                  simpa [TagBody.text] using before
              · cases found
          | some barred =>
              obtain ⟨namesText, namesRule⟩ := blockParams_of_blockParams? names
              simp only [names] at found
              split at found
              · next spaces =>
                  cases found
                  refine ⟨?_, layout_takeWhile _, calleeRule, argsRule, ?_, layout_takeWhile _⟩
                  · have behind := List.takeWhile_append_dropWhile (p := isLayout) (l := barred.2)
                    rw [spaces, List.append_nil] at behind
                    rw [behind]
                    rw [namesText] at before
                    simpa [TagBody.text] using before
                  · rintro _ ⟨⟩
                    exact namesRule
              · cases found

end TagBody

end TemplateSelectors
