import TemplateSelectors.Proofs.BareTree
import TemplateSelectors.Proofs.TagReading
import TemplateSelectors.TagBody.Located

/-!
# Tags and what is written inside them

The parts of a tag, put back into the order in which they are written, are the inside of the
tag.  A tag that was read is well formed: its inside follows the grammar, and each of its
expressions is the one that its text stands for.  A well-formed tag is read back from its parts,
wherever it stands.
-/

set_option autoImplicit false

namespace TemplateSelectors

open TagBody (Term Arguments)

mutual

/-- An expression as it is written. -/
def Expression.term : Expression → Term
  | .path p => .path p.text
  | .literal l => if l.kind = .string then .quoted l.raw else .path l.raw
  | .call c => c.term

def SubExpression.term : SubExpression → Term
  | ⟨leading, callee, params, hash, trailing, _⟩ =>
      .call leading callee.term (paramArguments params hash.arguments) trailing

def Hash.arguments : Hash → Arguments
  | ⟨pairs, _⟩ => pairArguments pairs

def paramArguments : List Param → (more : Arguments) → Arguments
  | [], more => more
  | ⟨leading, value⟩ :: params, more =>
      .positional leading value.term (paramArguments params more)

def pairArguments : List HashPair → Arguments
  | [] => .done
  | ⟨leading, key, separator, value, _⟩ :: pairs =>
      .keyword leading key separator value.term (pairArguments pairs)

end

mutual

theorem Expression.text_term (expression : Expression) :
    expression.term.text = expression.print := by
  cases expression with
  | path p => rfl
  | literal l =>
      unfold Expression.term
      split
      · rfl
      · rfl
  | call c => exact SubExpression.text_term c

theorem SubExpression.text_term (call : SubExpression) : call.term.text = call.print := by
  obtain ⟨leading, callee, params, hash, trailing, loc⟩ := call
  simp only [SubExpression.term, Term.text, SubExpression.print, Expression.text_term callee,
    text_paramArguments params, Hash.text_arguments hash, List.append_assoc]

theorem Hash.text_arguments (hash : Hash) : hash.arguments.text = hash.print := by
  obtain ⟨pairs, loc⟩ := hash
  simp only [Hash.arguments, Hash.print, text_pairArguments pairs]

theorem text_paramArguments (params : List Param) (more : Arguments) :
    (paramArguments params more).text = printParams params ++ more.text := by
  cases params with
  | nil => rfl
  | cons param params =>
      obtain ⟨leading, value⟩ := param
      simp only [paramArguments, Arguments.text, printParams, Param.print,
        Expression.text_term value, text_paramArguments params, List.append_assoc]

theorem text_pairArguments (pairs : List HashPair) :
    (pairArguments pairs).text = printPairs pairs := by
  cases pairs with
  | nil => rfl
  | cons pair pairs =>
      obtain ⟨leading, key, separator, value, loc⟩ := pair
      simp only [pairArguments, Arguments.text, printPairs, HashPair.print,
        Expression.text_term value, text_pairArguments pairs]

end

/-! ## Expressions -/

/-- An expression that its text stands for, wherever the text is found. -/
def Expression.Readable (expression : Expression) : Prop :=
  ∀ index start, ∃ other, expression.term.locate index start = .ok other ∧
    other.bare = expression.bare

structure ReadableArguments (params : List Param) (pairs : List HashPair) : Prop where
  params : ∀ param ∈ params, param.value.Readable
  pairs : ∀ pair ∈ pairs, pair.value.Readable

theorem locate_pairArguments {pairs : List HashPair}
    (readable : ∀ pair ∈ pairs, pair.value.Readable) (index : LineIndex) (start : Nat)
    (afterPair : Bool) :
    ∃ pairs', (pairArguments pairs).locate index start afterPair = .ok ([], pairs') ∧
      barePairs pairs' = barePairs pairs := by
  induction pairs generalizing start afterPair with
  | nil => exact ⟨[], rfl, rfl⟩
  | cons pair pairs inductionHypothesis =>
      obtain ⟨leading, key, separator, value, loc⟩ := pair
      have first := readable _ List.mem_cons_self
      simp only [pairArguments, Arguments.locate]
      obtain ⟨other, found, same⟩ := first index (start + leading.size + key.size + separator.size)
      obtain ⟨pairs', later, others⟩ := inductionHypothesis
        (fun pair member => readable pair (List.mem_cons_of_mem _ member))
        (start + leading.size + key.size + separator.size + value.term.size) true
      simp only [found, later]
      exact ⟨_, rfl, by simp only [barePairs, HashPair.bare, same, others]⟩

theorem locate_paramArguments {params : List Param} {pairs : List HashPair}
    (readable : ReadableArguments params pairs) (index : LineIndex) (start : Nat) :
    ∃ params' pairs',
      (paramArguments params (pairArguments pairs)).locate index start false =
        .ok (params', pairs') ∧
      bareParams params' = bareParams params ∧ barePairs pairs' = barePairs pairs := by
  obtain ⟨readableParams, readablePairs⟩ := readable
  induction params generalizing start with
  | nil =>
      obtain ⟨pairs', found, same⟩ := locate_pairArguments readablePairs index start false
      exact ⟨[], pairs', found, rfl, same⟩
  | cons param params inductionHypothesis =>
      obtain ⟨leading, value⟩ := param
      have first := readableParams _ List.mem_cons_self
      obtain ⟨other, found, same⟩ := first index (start + leading.size)
      obtain ⟨params', pairs', later, others, keywords⟩ := inductionHypothesis
        (start + leading.size + value.term.size)
        (fun param member => readableParams param (List.mem_cons_of_mem _ member))
      simp only [paramArguments, Arguments.locate, found, later]
      exact ⟨_, _, rfl, by simp only [bareParams, Param.bare, same, others], keywords⟩

theorem Expression.readable_call {leading trailing : Text} {callee : Expression}
    {params : List Param} {pairs : List HashPair} {hashLoc loc : SourceSpan}
    (calleeReadable : callee.Readable) (arguments : ReadableArguments params pairs) :
    (Expression.call ⟨leading, callee, params, ⟨pairs, hashLoc⟩, trailing, loc⟩).Readable := by
  intro index start
  obtain ⟨other, found, same⟩ := calleeReadable index (start + 1 + leading.size)
  obtain ⟨params', pairs', located, sameParams, samePairs⟩ :=
    locate_paramArguments arguments index (start + 1 + leading.size + callee.term.size)
  simp only [Expression.term, SubExpression.term, Hash.arguments, Term.locate, found, located]
  exact ⟨_, rfl, by
    simp only [Expression.bare, SubExpression.bare, Hash.bare, same, sameParams, samePairs]⟩

mutual

theorem Term.readable_of_locate (term : Term) {index : LineIndex} {start : Nat}
    {expression : Expression} (found : term.locate index start = .ok expression) :
    expression.term = term ∧ expression.Readable := by
  cases term with
  | path text =>
      rcases Term.locate_path found with ⟨literal, kind, rfl⟩ | ⟨kind, rfl⟩
      · have unquoted : literal ≠ .string := by
          rintro rfl
          unfold literalKind? at kind
          split at kind
          · cases kind
          · split at kind
            · cases kind
            · split at kind
              · cases kind
              · split at kind <;> cases kind
        refine ⟨by simp [Expression.term, unquoted], ?_⟩
        intro index start
        simp only [Expression.term, unquoted, if_false, Term.locate, kind]
        exact ⟨_, rfl, rfl⟩
      · refine ⟨rfl, ?_⟩
        intro index start
        simp only [Expression.term, Term.locate, kind]
        exact ⟨_, rfl, rfl⟩
  | quoted text =>
      cases Term.locate_quoted found
      refine ⟨rfl, ?_⟩
      intro index start
      simp only [Expression.term, if_true, Term.locate]
      exact ⟨_, rfl, rfl⟩
  | call leading callee args trailing =>
      obtain ⟨_, params, pairs, _, _, located, arguments, -, -, rfl⟩ := Term.locate_call found
      obtain ⟨calleeTerm, calleeReadable⟩ := Term.readable_of_locate callee located
      obtain ⟨argsTerm, _, readable⟩ := Arguments.readable_of_locate args arguments
      refine ⟨?_, Expression.readable_call calleeReadable readable⟩
      simp only [Expression.term, SubExpression.term, Hash.arguments, calleeTerm, argsTerm]

/-- What arguments stand for is written like them; behind a keyword argument there is no
positional one. -/
theorem Arguments.readable_of_locate (args : Arguments) {index : LineIndex} {start : Nat}
    {afterPair : Bool} {params : List Param} {pairs : List HashPair}
    (found : args.locate index start afterPair = .ok (params, pairs)) :
    paramArguments params (pairArguments pairs) = args ∧ (afterPair = true → params = []) ∧
      ReadableArguments params pairs := by
  cases args with
  | done =>
      cases found
      exact ⟨rfl, fun _ => rfl, by simp, by simp⟩
  | positional leading value more =>
      obtain ⟨_, others, unpaired, located, later, rfl⟩ := Arguments.locate_positional found
      obtain ⟨valueTerm, valueReadable⟩ := Term.readable_of_locate value located
      obtain ⟨moreTerm, _, readable⟩ := Arguments.readable_of_locate more later
      refine ⟨?_, fun paired => absurd paired (by simp [unpaired]), ?_, readable.pairs⟩
      · simp only [paramArguments, valueTerm, moreTerm]
      · rw [List.forall_mem_cons]
        exact ⟨valueReadable, readable.params⟩
  | keyword leading key separator value more =>
      obtain ⟨_, others, _, located, later, -, rfl⟩ := Arguments.locate_keyword found
      obtain ⟨valueTerm, valueReadable⟩ := Term.readable_of_locate value located
      obtain ⟨moreTerm, none, readable⟩ := Arguments.readable_of_locate more later
      have nothing := none rfl
      subst nothing
      refine ⟨?_, fun _ => rfl, by simp, ?_⟩
      · simp only [paramArguments] at moreTerm ⊢
        simp only [pairArguments, valueTerm, moreTerm]
      · rw [List.forall_mem_cons]
        exact ⟨valueReadable, readable.pairs⟩

end

theorem Arguments.params_eq_nil_of_locate {args : Arguments} {index : LineIndex} {start : Nat}
    {params : List Param} {pairs : List HashPair}
    (found : args.locate index start true = .ok (params, pairs)) : params = [] :=
  (Arguments.readable_of_locate args found).2.1 rfl

/-! ## Tags -/

namespace Tag

def pairs (tag : Tag) : List HashPair :=
  (tag.hash.map Hash.pairs).getD []

def body (tag : Tag) : TagBody where
  leading := tag.leading
  callee := tag.callee.term
  args := paramArguments tag.params (pairArguments tag.pairs)
  blockParams := tag.blockParams
  trailing := tag.trailing

theorem print_hash (tag : Tag) : (tag.hash.map Hash.print).getD [] = printPairs tag.pairs := by
  cases same : tag.hash with
  | none => simp [pairs, same, printPairs]
  | some hash =>
      obtain ⟨list, loc⟩ := hash
      simp [pairs, same, Hash.print]

theorem printParts_eq (tag : Tag) : tag.printParts = tag.opener ++ tag.body.text ++ tag.closer := by
  simp only [printParts, print_hash, body, TagBody.text, Expression.text_term, text_paramArguments,
    text_pairArguments, List.append_assoc]

/-- A tag that its text stands for, wherever the text is found. -/
structure WellFormed (tag : Tag) : Prop where
  keywords : tag.hash.isSome = true
  grammatical : tag.body.Grammatical
  callee : tag.callee.Readable
  arguments : ReadableArguments tag.params tag.pairs

/-- A tag that was read is well formed and prints as its parts. -/
theorem wellFormed_of_read {index : LineIndex} {start : Nat} {opener body closer : Text} {tag : Tag}
    (found : Tag.read index start opener body closer = .ok tag) :
    tag.WellFormed ∧ tag.opener = opener ∧ tag.body.text = body ∧ tag.closer = closer := by
  obtain ⟨parts, callee, params, pairs, hashLoc, inside, located, arguments, -, rfl⟩ :=
    Tag.exists_of_read found
  obtain ⟨text, grammatical⟩ := TagBody.grammatical_of_read inside
  obtain ⟨calleeTerm, calleeReadable⟩ := Term.readable_of_locate _ located
  obtain ⟨argsTerm, _, readable⟩ := Arguments.readable_of_locate _ arguments
  have whole : ∀ source loc hashLoc,
      Tag.body ⟨opener, parts.leading, callee, params, some ⟨pairs, hashLoc⟩,
        parts.blockParams, parts.trailing, closer, loc, source⟩ = parts := by
    intro source loc hashLoc
    obtain ⟨leading, term, args, names, trailing⟩ := parts
    simp only at calleeTerm argsTerm
    simp [Tag.body, Tag.pairs, calleeTerm, argsTerm]
  refine ⟨⟨rfl, ?_, calleeReadable, readable⟩, rfl, ?_, rfl⟩
  · rw [whole]
    exact grammatical
  · rw [whole]
    exact text

/-- A well-formed tag is read back from its parts. -/
theorem read_of_wellFormed {tag : Tag} (wellFormed : tag.WellFormed) (index : LineIndex)
    (start : Nat) :
    ∃ other, Tag.read index start tag.opener tag.body.text tag.closer = .ok other ∧
      other.bare = tag.bare := by
  obtain ⟨hash, same⟩ := Option.isSome_iff_exists.mp wellFormed.keywords
  obtain ⟨list, hashLoc⟩ := hash
  have keywords : tag.pairs = list := by simp [pairs, same]
  have inside := TagBody.read_of_grammatical wellFormed.grammatical
  obtain ⟨callee, located, sameCallee⟩ :=
    wellFormed.callee index (start + tag.opener.size + tag.leading.size)
  obtain ⟨params', pairs', arguments, sameParams, samePairs⟩ :=
    locate_paramArguments wellFormed.arguments index
      (start + tag.opener.size + tag.leading.size + tag.callee.term.size)
  rw [Tag.read, inside]
  simp only [body, located, arguments]
  refine ⟨_, rfl, ?_⟩
  rw [keywords] at samePairs
  simp only [bare, same, sameCallee, sameParams, samePairs, Option.map_some, Hash.bare]

end Tag

end TemplateSelectors
