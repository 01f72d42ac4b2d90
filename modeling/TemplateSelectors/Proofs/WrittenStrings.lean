import TemplateSelectors.Proofs.BracedBody

/-!
# Strings that are written and read back

A string is written with a backslash before every double quote.  What is written can always be
decoded; whether it is read back depends on the backslashes of the string itself, since in a tag a
backslash takes the next character along, whatever it is.  A string is read back exactly if none
of its backslashes takes along a double quote or stands last.
-/

set_option autoImplicit false

namespace TemplateSelectors

open TagBody (Quoted QuoteEnd Layout)

namespace Literal

/-- Whether every backslash, read from the front, takes along a character that is no double
quote. -/
def backslashesPaired : Text → Bool
  | [] => true
  | [c] => c != '\\'
  | c :: d :: rest =>
      if c = '\\' then d != '"' && backslashesPaired rest else backslashesPaired (d :: rest)

/-! ## Decoding -/

theorem head?_escapeQuotes_ne (value : Text) : (escapeQuotes value).head? ≠ some '"' := by
  cases value with
  | nil => simp [escapeQuotes]
  | cons c rest =>
      by_cases quote : c = '"'
      · simp [escapeQuotes, quote]
      · simp [escapeQuotes, quote]

theorem unescapeQuotes_cons {quote c : Char} {rest : Text}
    (plain : c = '\\' → rest.head? ≠ some quote) :
    unescapeQuotes quote (c :: rest) = c :: unescapeQuotes quote rest := by
  cases rest with
  | nil => rfl
  | cons d rest =>
      rw [unescapeQuotes, if_neg]
      rintro ⟨backslash, same⟩
      exact plain backslash (congrArg some same)

theorem unescapeQuotes_escapeQuotes (value : Text) :
    unescapeQuotes '"' (escapeQuotes value) = value := by
  induction value with
  | nil => rfl
  | cons c rest inductionHypothesis =>
      by_cases quote : c = '"'
      · rw [escapeQuotes, if_pos quote, unescapeQuotes, if_pos ⟨rfl, rfl⟩, inductionHypothesis,
          quote]
      · rw [escapeQuotes, if_neg quote, unescapeQuotes_cons fun _ => head?_escapeQuotes_ne rest,
          inductionHypothesis]

/-- The value of a string literal: what stands before its last quote, decoded. -/
theorem stringValue?_cons {quote : Char} {piece : Text} (nonempty : piece ≠ [])
    (loc : SourceSpan) :
    stringValue? ⟨.string, quote :: piece, loc⟩ = some (unescapeQuotes quote piece.dropLast) := by
  cases piece with
  | nil => exact absurd rfl nonempty
  | cons c rest => rfl

theorem stringValue?_ofText (value : Text) : (ofText value).stringValue? = some value := by
  rw [ofText, List.cons_append, stringValue?_cons (by simp), List.dropLast_concat,
    unescapeQuotes_escapeQuotes]

/-! ## Where the string ends -/

/-- Paired backslashes leave the last quote as the one that closes. -/
theorem quoteEnd_of_paired {value : Text} (paired : backslashesPaired value = true) :
    QuoteEnd '"' (escapeQuotes value ++ ['"']) := by
  fun_induction backslashesPaired value with
  | case1 => exact .close
  | case2 c =>
      by_cases quote : c = '"'
      · simpa [escapeQuotes, quote] using QuoteEnd.escaped '"' .close
      · have single : c ≠ '\\' := by simpa using paired
        simpa [escapeQuotes, quote] using QuoteEnd.plain quote single .close
  | case3 d rest inductionHypothesis =>
      obtain ⟨other, later⟩ : d ≠ '"' ∧ backslashesPaired rest = true := by simpa using paired
      have tail := inductionHypothesis later
      simpa [escapeQuotes, other] using QuoteEnd.escaped d tail
  | case4 c d rest single inductionHypothesis =>
      have tail := inductionHypothesis paired
      by_cases quote : c = '"'
      · rw [escapeQuotes, if_pos quote]
        exact .escaped '"' tail
      · rw [escapeQuotes, if_neg quote]
        exact .plain quote single tail

theorem eq_singleton_of_quoteEnd {quote : Char} {rest : Text} (unlike : quote ≠ '\\')
    (tail : QuoteEnd quote (quote :: rest)) : rest = [] := by
  cases tail with
  | close => rfl
  | escaped c more => exact absurd rfl unlike
  | plain inside unescaped more => exact absurd rfl inside

theorem mem_of_quoteEnd {quote : Char} {piece : Text} (tail : QuoteEnd quote piece) :
    quote ∈ piece := by
  induction tail with
  | close => exact List.mem_cons_self
  | escaped c more inductionHypothesis => simp [inductionHypothesis]
  | plain inside unescaped more inductionHypothesis => simp [inductionHypothesis]

theorem getLast?_of_quoteEnd {quote : Char} {piece : Text} (tail : QuoteEnd quote piece) :
    piece.getLast? = some quote := by
  induction tail with
  | close => rfl
  | escaped c more inductionHypothesis =>
      rw [List.getLast?_cons, List.getLast?_cons, inductionHypothesis]
      rfl
  | plain inside unescaped more inductionHypothesis =>
      rw [List.getLast?_cons, inductionHypothesis]
      rfl

theorem dropLast_cons_of_quoteEnd {quote c : Char} {piece : Text} (tail : QuoteEnd quote piece) :
    (c :: piece).dropLast = c :: piece.dropLast :=
  List.dropLast_cons_of_ne_nil (List.ne_nil_of_mem (mem_of_quoteEnd tail))

theorem head?_dropLast_ne {quote : Char} {piece : Text} (unlike : quote ≠ '\\')
    (tail : QuoteEnd quote piece) : piece.dropLast.head? ≠ some quote := by
  intro head
  obtain ⟨rest, shape⟩ := List.head?_eq_some_iff.mp head
  cases piece with
  | nil => cases shape
  | cons c piece =>
      obtain rfl : c = quote := by
        cases piece with
        | nil => cases shape
        | cons d piece => exact (List.cons.inj shape).1
      rw [eq_singleton_of_quoteEnd unlike tail] at shape
      cases shape

theorem QuoteEnd.tail {c : Char} {piece rest text : Text} (tail : QuoteEnd '"' piece)
    (same : piece ++ rest = c :: text) (unquoted : c ≠ '"') (single : c ≠ '\\') :
    ∃ more, piece = c :: more ∧ QuoteEnd '"' more ∧ more ++ rest = text := by
  cases tail with
  | close =>
      cases same
      exact absurd rfl unquoted
  | escaped d more =>
      cases same
      exact absurd rfl single
  | plain inside unescaped more =>
      cases same
      exact ⟨_, rfl, more, rfl⟩

theorem QuoteEnd.tail_escaped {d : Char} {piece rest text : Text} (tail : QuoteEnd '"' piece)
    (same : piece ++ rest = '\\' :: d :: text) :
    ∃ more, piece = '\\' :: d :: more ∧ QuoteEnd '"' more ∧ more ++ rest = text := by
  cases tail with
  | close => cases same
  | escaped c more =>
      cases same
      exact ⟨_, rfl, more, rfl⟩
  | plain inside unescaped more => exact absurd (List.cons.inj same).1 unescaped

/-- If the end of the string that is found gives the value back, the backslashes are paired. -/
theorem paired_of_quoteEnd {value piece rest behind : Text} (tail : QuoteEnd '"' piece)
    (same : piece ++ rest = escapeQuotes value ++ '"' :: behind) (last : '"' ∉ behind)
    (decoded : unescapeQuotes '"' piece.dropLast = value) : backslashesPaired value = true := by
  fun_induction backslashesPaired value generalizing piece with
  | case1 => rfl
  | case2 c =>
      rw [bne_iff_ne]
      rintro rfl
      obtain ⟨more, rfl, ends, left⟩ := QuoteEnd.tail_escaped tail same
      refine absurd ?_ last
      rw [← left]
      exact List.mem_append_left _ (mem_of_quoteEnd ends)
  | case3 d more inductionHypothesis =>
      by_cases quote : d = '"'
      · -- the backslash takes along the one that is put before the quote, which then closes
        subst quote
        obtain ⟨inner, rfl, ends, left⟩ := QuoteEnd.tail_escaped tail same
        obtain ⟨c, others, rfl⟩ := List.exists_cons_of_ne_nil
          (List.ne_nil_of_mem (mem_of_quoteEnd ends))
        obtain rfl : c = '"' := (List.cons.inj left).1
        rw [eq_singleton_of_quoteEnd (by decide) ends] at decoded
        simp [unescapeQuotes] at decoded
      · have written : escapeQuotes ('\\' :: d :: more) = '\\' :: d :: escapeQuotes more := by
          simp [escapeQuotes, quote]
        rw [written] at same
        obtain ⟨inner, rfl, ends, left⟩ := QuoteEnd.tail_escaped tail same
        rw [List.dropLast_cons_of_ne_nil (by simp), dropLast_cons_of_quoteEnd ends,
          unescapeQuotes_cons fun _ => by simpa using quote,
          unescapeQuotes_cons fun _ => head?_dropLast_ne (by decide) ends] at decoded
        have later := inductionHypothesis ends left (List.cons.inj (List.cons.inj decoded).2).2
        simp [quote, later]
  | case4 c d more single inductionHypothesis =>
      by_cases quote : c = '"'
      · subst quote
        obtain ⟨inner, rfl, ends, left⟩ := QuoteEnd.tail_escaped tail same
        rw [List.dropLast_cons_of_ne_nil (by simp), dropLast_cons_of_quoteEnd ends,
          unescapeQuotes, if_pos ⟨rfl, rfl⟩] at decoded
        exact inductionHypothesis ends left (List.cons.inj decoded).2
      · rw [escapeQuotes, if_neg quote] at same
        obtain ⟨inner, rfl, ends, left⟩ := QuoteEnd.tail tail same quote single
        rw [dropLast_cons_of_quoteEnd ends,
          unescapeQuotes_cons fun backslash => absurd backslash single] at decoded
        exact inductionHypothesis ends left (List.cons.inj decoded).2

end Literal

/-! ## In a tag -/

namespace TagBody

theorem gap_space : Gap [' '] := by
  refine ⟨?_, by simp⟩
  rw [Layout, List.forall_mem_singleton]
  rfl

theorem path_w : Path ['w'] := by
  have identifier : Identifier ['w'] := by
    refine ⟨?_, by simp⟩
    rw [List.forall_mem_singleton]
    decide +kernel
  exact .plain (.name identifier) .done

theorem Quoted.starts {string : Text} (quoted : Quoted string) :
    ∃ quote inside, string = quote :: inside ∧ (quote = '"' ∨ quote = '\'') := by
  cases quoted with
  | double tail => exact ⟨_, _, rfl, .inl rfl⟩
  | single tail => exact ⟨_, _, rfl, .inr rfl⟩

/-- Behind a space, a string is the first argument, whatever follows it. -/
theorem value_of_arguments {string rest : Text} (quoted : Quoted string)
    {passed : Passed Arguments ([' '] ++ (string ++ rest))}
    (found : arguments ([' '] ++ (string ++ rest)) = .ok passed) :
    ∃ more, passed.value = .positional [' '] (.quoted string) more := by
  have readValue := readsTerm_quoted quoted rest
  obtain ⟨quote, inside, rfl, either⟩ := quoted.starts
  have first : isStart quote = true ∧ isIdChar quote = false ∧ isLayout quote = false ∧
      quote ≠ '=' ∧ quote ≠ ')' ∧ quote ≠ 'a' := by
    rcases either with rfl | rfl
    · decide
    · decide
  have stops : StopsAt isLayout (quote :: inside ++ rest) := stopsAt_cons first.2.2.1
  have front := takeWhile_append_of_stopsAt gap_space.1 stops
  have behind := dropWhile_append_of_stopsAt gap_space.1 stops
  have keyless : key? (quote :: inside ++ rest) = none := by
    apply key?_eq_none
    simp [first]
  have unpaired : pair? (quote :: inside ++ rest) = none := by
    rw [pair?]
    split
    · rfl
    · next key =>
        rw [keyless] at key
        cases key
  have nameless : startsBlockParams ([' '] ++ (quote :: inside ++ rest)) = false := by
    refine startsBlockParams_eq_false gap_space.1 (stopsAt_cons (isSpace_of_isStart first.1)) ?_
    intro after word
    exact absurd (List.cons.inj word).1 first.2.2.2.2.2
  have goesOn : ¬((quote :: inside ++ rest) = [] ∨
      (quote :: inside ++ rest).head? = some ')' ∨
      startsBlockParams ([' '] ++ (quote :: inside ++ rest)) = true) := by
    rw [nameless]
    simp [first]
  rw [← behind] at readValue unpaired
  obtain ⟨taken, foundValue, value, _⟩ := readValue
  rw [arguments, dif_neg (by rw [front]; simp), if_neg (by rwa [behind])] at found
  simp only [unpaired, foundValue] at found
  split at found
  · cases found
  · next more _ =>
      cases found
      exact ⟨more.value, by simp only [front, value]⟩

theorem args_of_read {string rest : Text} {body : TagBody} (quoted : Quoted string)
    (found : read ('w' :: ' ' :: (string ++ rest)) = .ok body) :
    ∃ more, body.args = .positional [' '] (.quoted string) more := by
  have follows : Follows ([' '] ++ (string ++ rest)) := by
    refine Follows.of_isStart gap_space ?_
    obtain ⟨quote, inside, rfl, either⟩ := quoted.starts
    rintro c ⟨⟩
    rcases either with rfl | rfl
    · rfl
    · rfl
  have plain : ('w' :: ' ' :: (string ++ rest)).dropWhile isLayout =
      ['w'] ++ ([' '] ++ (string ++ rest)) := by
    simp [show isLayout 'w' = false from rfl]
  have readCallee := readsTerm_path path_w follows
  rw [← plain] at readCallee
  obtain ⟨callee, foundCallee, _, calleeRest⟩ := readCallee
  have first := @value_of_arguments string rest quoted
  rw [← calleeRest] at first
  rw [read] at found
  simp only [foundCallee] at found
  split at found
  · cases found
  · next args foundArgs =>
      obtain ⟨more, value⟩ := first foundArgs
      refine ⟨more, ?_⟩
      rw [← value]
      split at found
      · cases found
        rfl
      · cases found

end TagBody

/-! ## In a template -/

/-- The mustache `w` with a string as its only argument, made of its parts. -/
def stringMustache (value : Text) : Template where
  body := [.mustache ⟨{ Tag.ofCallee ['{', '{'] (.path (.ofText ['w'])) ['}', '}'] with
    params := [.ofValue (.literal (.ofText value))] }, false⟩]
  loc := .nowhere

def stringBody (value : Text) : TagBody where
  leading := []
  callee := .path ['w']
  args := .positional [' '] (.quoted (Literal.ofText value).raw) .done
  blockParams := none
  trailing := []

theorem text_stringBody (value : Text) :
    (stringBody value).text = 'w' :: ' ' :: '"' :: (Literal.escapeQuotes value ++ ['"']) := by
  simp [stringBody, TagBody.text, TagBody.Term.text, TagBody.Arguments.text, Literal.ofText]

theorem print_stringMustache (value : Text) :
    (stringMustache value).print = betweenBraces (stringBody value).text := by
  simp [stringMustache, Template.print, printStatements, Statement.print, Mustache.print,
    Tag.print, Tag.printParts, Tag.ofCallee, Hash.print, Hash.empty, Expression.print,
    PathExpression.ofText, printParams, Param.print, Param.ofValue, printPairs, Literal.ofText,
    text_stringBody, betweenBraces]

/-- One mustache with one positional argument, a string of this value. -/
def Template.HoldsString (template : Template) (value : Text) : Prop :=
  ∃ mustache leading literal, template.body = [.mustache mustache] ∧
    mustache.tag.params = [⟨leading, .literal literal⟩] ∧ literal.kind = .string ∧
    literal.stringValue? = some value

theorem Tag.params_of_string {tag : Tag} {leading raw : Text}
    (same : tag.body.args = .positional leading (.quoted raw) .done) :
    ∃ literal, tag.params = [⟨leading, .literal literal⟩] ∧ literal.kind = .string ∧
      literal.raw = raw := by
  simp only [Tag.body] at same
  cases shape : tag.params with
  | nil =>
      rw [shape, paramArguments] at same
      cases pairs : tag.pairs with
      | nil => simp [pairs, pairArguments] at same
      | cons pair others =>
          obtain ⟨before, key, separator, value, loc⟩ := pair
          simp [pairs, pairArguments] at same
  | cons param others =>
      obtain ⟨before, expression⟩ := param
      rw [shape, paramArguments] at same
      simp only [TagBody.Arguments.positional.injEq] at same
      obtain ⟨rfl, value, rest⟩ := same
      cases others with
      | cons next others =>
          obtain ⟨before, expression⟩ := next
          simp [paramArguments] at rest
      | nil =>
          cases expression with
          | path path => simp [Expression.term] at value
          | call call =>
              obtain ⟨before, callee, params, hash, trailing, loc⟩ := call
              simp [Expression.term, SubExpression.term] at value
          | literal literal =>
              by_cases string : literal.kind = .string
              · simp only [Expression.term, string, if_true, TagBody.Term.quoted.injEq] at value
                exact ⟨literal, rfl, string, value⟩
              · simp [Expression.term, string] at value

theorem grammatical_stringBody {value : Text} (paired : Literal.backslashesPaired value = true) :
    (stringBody value).Grammatical where
  leading := by simp [stringBody, Layout]
  callee := TagBody.path_w
  args := ⟨TagBody.gap_space, .double (Literal.quoteEnd_of_paired paired), trivial⟩
  blockParams := by simp [stringBody]
  trailing := by simp [stringBody, Layout]

theorem unbroken_stringBody {value : Text} (paired : Literal.backslashesPaired value = true) :
    Unbroken (stringBody value).text := by
  have string : Unbroken (('"' :: (Literal.escapeQuotes value ++ ['"'])) ++ []) :=
    .string (.double (Literal.quoteEnd_of_paired paired)) .nil
  rw [List.append_nil] at string
  rw [text_stringBody]
  exact .char (by decide) (fun brace => absurd brace (by decide))
    (.char (by decide) (fun brace => absurd brace (by decide)) string)

theorem holdsString_of_paired {value : Text} (paired : Literal.backslashesPaired value = true) :
    ∃ template, Template.parse (stringMustache value).print = .ok template ∧
      template.HoldsString value := by
  have rule := grammatical_stringBody paired
  have found := TagBody.read_of_grammatical rule
  have word : (stringBody value).text.firstWord ≠ Item.elseWord := by
    rw [text_stringBody]
    simp [Text.firstWord, Text.trimStart, Item.elseWord, show Text.isSpace 'w' = false from rfl]
  obtain ⟨tag, read, scans⟩ := rule.exists_scans_braced found ⟨trivial, trivial, trivial⟩ word
    (unbroken_stringBody paired) (.ofText (betweenBraces (stringBody value).text))
  obtain ⟨literal, params, kind, raw⟩ := Tag.params_of_string
    (congrArg TagBody.args (Tag.body_of_read read found))
  have parsed := Template.parse_of_items scans (.statement _ .finish)
  rw [← print_stringMustache] at parsed
  refine ⟨_, parsed, ⟨tag, false⟩, [' '], literal, rfl, params, kind, ?_⟩
  · obtain ⟨_, _, loc⟩ := literal
    simp only at kind raw
    rw [kind, raw]
    exact Literal.stringValue?_ofText value

/-- The mark of white space control at the end of a tag is no part of a string in it. -/
theorem Lexeme.trailingTilde_string (front : Text) {piece : Text} (tail : QuoteEnd '"' piece)
    (rest : Text) :
    ∃ more, (trailingTilde (front ++ (piece ++ rest))).1 = front ++ (piece ++ more) := by
  rcases List.eq_nil_or_concat rest with rfl | ⟨more, last, rfl⟩
  · have other : (front ++ (piece ++ [])).getLast? ≠ some '~' := by
      rw [List.append_nil, List.getLast?_append, Literal.getLast?_of_quoteEnd tail]
      simp
    rw [trailingTilde, if_neg other]
    exact ⟨[], rfl⟩
  · rw [List.concat_eq_append, ← List.append_assoc piece, ← List.append_assoc front, trailingTilde]
    split
    · exact ⟨more, by simp⟩
    · exact ⟨more ++ [last], by simp⟩

/-- What the scanner takes for the inside of a tag that starts with `w` and a string. -/
theorem Lexeme.inner_of_read {behind rest : Text} {lexeme : Lexeme}
    (found : Lexeme.read ('w' :: ' ' :: '"' :: behind) = .ok (lexeme, rest)) :
    ∃ piece more left closer, QuoteEnd '"' piece ∧ piece ++ left = behind ∧
      lexeme = .tag false ['{', '{'] ('w' :: ' ' :: '"' :: (piece ++ more)) closer := by
  have tagged : readTag false ['{', '{'] ['}', '}'] (['w', ' '] ++ '"' :: behind) =
      .ok (lexeme, rest) := found
  obtain ⟨body, closed, rfl⟩ := Lexeme.readTag_eq_ok tagged
  have plain : Carries ['}', '}'] none ['w', ' '] none :=
    carries_of_plain braces_two quoteState_none (by decide)
  rw [plain, splitAtClose_opens (.inl rfl), Option.map_map, Option.map_eq_some_iff] at closed
  obtain ⟨⟨front, after⟩, inside, same⟩ := closed
  simp only [Function.comp_apply, Prod.mk.injEq] at same
  obtain ⟨rfl, rfl⟩ := same
  obtain ⟨piece, others, rfl, tail, _⟩ := unbrokenFrom_of_splitAtClose inside
  obtain ⟨more, inner⟩ := Lexeme.trailingTilde_string ['w', ' ', '"'] tail others
  have whole : piece ++ (others ++ ['}', '}'] ++ after) = behind := by
    simpa using (eq_append_of_splitAtClose inside).symm
  exact ⟨piece, more, _, _, tail, whole, congrArg (Lexeme.tag false _ · _) inner⟩

theorem Item.read_of_mustache {index : LineIndex} {markup markup' : Markup} {start : Nat}
    {opener inner closer : Text} {mustache : Mustache}
    (made : Makes index markup start (.tag false opener inner closer)
      (.statement (.mustache mustache)) markup') :
    Tag.read index start opener inner closer = .ok mustache.tag := by
  generalize shape : Item.statement (.mustache mustache) = item at made
  cases made with
  | opening form read => cases shape
  | closing opener closer form => cases shape
  | otherwise opener closer form => cases shape
  | chain form read => cases shape
  | mustache form read =>
      unfold Item.ofMustache at shape
      split at shape
      · cases shape
      · cases shape
        exact read

theorem paired_of_holdsString {value : Text} {template : Template}
    (parsed : Template.parse (stringMustache value).print = .ok template)
    (holds : template.HoldsString value) : Literal.backslashesPaired value = true := by
  obtain ⟨mustache, leading, literal, only, params, kind, decoded⟩ := holds
  obtain ⟨items, scans, derived⟩ := Template.items_of_parse parsed
  rw [only] at derived
  rw [print_stringMustache, text_stringBody] at scans
  cases scans with
  | @last _ _ _ chars run => simp [betweenBraces, textRun] at run
  | @lexeme _ markup' _ _ chars behind rest lexeme item items run scanned made more =>
      have split : chars = [] ∧
          behind = 'w' :: ' ' :: '"' :: (Literal.escapeQuotes value ++ ['"', '}', '}']) := by
        simpa [betweenBraces, textRun, eq_comm] using run
      obtain ⟨rfl, rfl⟩ := split
      obtain ⟨piece, others, left, closer, tail, whole, rfl⟩ := Lexeme.inner_of_read scanned
      cases derived with
      | statement _ finished =>
          have read := Item.read_of_mustache (Item.ofLexeme_eq_ok_iff.mp made)
          obtain ⟨wellFormed, _, text, _⟩ := Tag.wellFormed_of_read read
          have found := TagBody.read_of_grammatical wellFormed.grammatical
          rw [text] at found
          obtain ⟨further, args⟩ := TagBody.args_of_read (.double tail) found
          -- the argument that was read is the string up to the end that was found
          have raw : literal.raw = '"' :: piece := by
            simp only [Tag.body, params, paramArguments, Expression.term, kind, if_true,
              TagBody.Arguments.positional.injEq, TagBody.Term.quoted.injEq] at args
            exact args.2.1
          obtain ⟨_, _, loc⟩ := literal
          simp only at kind raw
          have nonempty := List.ne_nil_of_mem (Literal.mem_of_quoteEnd tail)
          rw [kind, raw, Literal.stringValue?_cons nonempty, Option.some.injEq] at decoded
          exact Literal.paired_of_quoteEnd tail whole (by decide) decoded

/-- What is written for a string can be decoded.  In a tag it is read back exactly if the
backslashes of the string are paired. -/
theorem parse_print_string_iff (value : Text) :
    (Literal.ofText value).stringValue? = some value ∧
      ((∃ template, Template.parse (stringMustache value).print = .ok template ∧
          template.HoldsString value) ↔ Literal.backslashesPaired value = true) := by
  refine ⟨Literal.stringValue?_ofText value, ?_, holdsString_of_paired⟩
  rintro ⟨template, parsed, holds⟩
  exact paired_of_holdsString parsed holds

/-- A lone backslash takes the closing quote along, and the tag finds no end. -/
theorem parse_print_string_backslash :
    ¬∀ value, ∃ template, Template.parse (stringMustache value).print = .ok template ∧
      template.HoldsString value := by
  intro reads
  obtain ⟨template, parsed, holds⟩ := reads ['\\']
  have paired := paired_of_holdsString parsed holds
  revert paired
  decide

end TemplateSelectors
