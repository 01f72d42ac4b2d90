import TemplateSelectors.Proofs.PromotionLaws
import TemplateSelectors.Proofs.Reparse

/-!
# Promoted tags are well formed

A tag whose selectors are moved behind the other positional arguments, as keyword arguments, can
be put in place of the tag that was read.  This holds of selectors that are plain names: they
hold no quote, no backslash and no brace, so wherever they stand, inside quotes or not, the tag
ends where it ended.
-/

set_option autoImplicit false

namespace TemplateSelectors

open TagBody (Gap Identifier Separator)

/-! ## The grammar of arguments in a row -/

theorem grammatical_pairArguments_iff {pairs : List HashPair} :
    (pairArguments pairs).Grammatical ↔
      ∀ pair ∈ pairs, Gap pair.leading ∧ Identifier pair.key ∧ Separator pair.separator ∧
        pair.value.term.Grammatical := by
  induction pairs with
  | nil => simp [pairArguments, TagBody.Arguments.Grammatical]
  | cons pair pairs inductionHypothesis =>
      obtain ⟨leading, key, separator, value, loc⟩ := pair
      simp only [pairArguments, TagBody.Arguments.Grammatical, inductionHypothesis,
        List.forall_mem_cons, and_assoc]

theorem grammatical_paramArguments_iff {params : List Param} {more : TagBody.Arguments} :
    (paramArguments params more).Grammatical ↔
      (∀ param ∈ params, Gap param.leading ∧ param.value.term.Grammatical) ∧
        more.Grammatical := by
  induction params with
  | nil => simp [paramArguments]
  | cons param params inductionHypothesis =>
      obtain ⟨leading, value⟩ := param
      simp only [paramArguments, TagBody.Arguments.Grammatical, inductionHypothesis,
        List.forall_mem_cons, and_assoc]

/-! ## Pieces without quotes -/

theorem plain_of_layout {layout : Text} (spaces : TagBody.Layout layout) : Plain layout := by
  intro c member
  have space := spaces c member
  refine ⟨⟨?_, ?_⟩, ?_, ?_⟩
  all_goals
    rintro rfl
    cases space

theorem plain_of_idChars {text : Text} (name : ∀ c ∈ text, TagBody.isIdChar c = true) :
    Plain text := by
  intro c member
  have idChar := name c member
  refine ⟨⟨?_, ?_⟩, ?_, ?_⟩
  all_goals
    rintro rfl
    cases idChar

/-- A pair that a selector has become. -/
structure HashPair.Promotes (candidate : Param) (pair : HashPair) : Prop where
  leading : pair.leading = [' '] ∨ pair.leading = candidate.leading
  key : pair.key = candidate.value.print
  separator : pair.separator = ['=']
  value : pair.value = .literal (.ofBool true)

theorem HashPair.promotes_selectorPair (candidate : Param) :
    (selectorPair candidate).Promotes candidate :=
  ⟨.inl rfl, rfl, rfl, rfl⟩

theorem HashPair.promotes_solePair (candidate : Param) :
    (solePair candidate).Promotes candidate :=
  ⟨.inr rfl, rfl, rfl, rfl⟩

/-- The pairs that come first after a promotion. -/
theorem Hash.exists_pairs_promote (hash : Hash) (sole : Bool) (candidates : List Param) :
    ∃ pairs, (hash.promote sole candidates).pairs = pairs ++ hash.pairs ∧
      ∀ pair ∈ pairs, ∃ candidate ∈ candidates, pair.Promotes candidate := by
  unfold Hash.promote
  split
  · next candidate =>
      refine ⟨[solePair candidate], rfl, ?_⟩
      intro pair member
      rw [List.mem_singleton] at member
      subst member
      exact ⟨candidate, by simp, HashPair.promotes_solePair candidate⟩
  · refine ⟨candidates.map selectorPair, rfl, ?_⟩
    intro pair member
    obtain ⟨candidate, inside, rfl⟩ := List.mem_map.mp member
    exact ⟨candidate, inside, HashPair.promotes_selectorPair candidate⟩

theorem Expression.readable_true : (Expression.literal (.ofBool true)).Readable := by
  intro index start
  refine ⟨_, rfl, rfl⟩

theorem grammatical_true : (Expression.literal (.ofBool true)).term.Grammatical := by
  have name : Identifier (Literal.boolText true) :=
    ⟨List.all_eq_true.mp rfl, by simp [Literal.boolText]⟩
  have path := TagBody.Path.plain (.name name) .done
  rw [List.append_nil] at path
  exact path

theorem HashPair.Promotes.gap {candidate : Param} {pair : HashPair}
    (promotes : pair.Promotes candidate) (gap : Gap candidate.leading) : Gap pair.leading := by
  rcases promotes.leading with space | own
  · rw [space]
    exact ⟨by simp [TagBody.Layout, TagBody.isLayout], by simp⟩
  · rw [own]
    exact gap

/-- A name and what makes it a keyword argument, with white space before it. -/
theorem HashPair.Promotes.wellFormed {candidate : Param} {pair : HashPair}
    (promotes : pair.Promotes candidate) (gap : Gap candidate.leading)
    (name : Identifier candidate.value.print) :
    Gap pair.leading ∧ Identifier pair.key ∧ Separator pair.separator ∧
      pair.value.term.Grammatical := by
  refine ⟨promotes.gap gap, by rw [promotes.key]; exact name, ?_,
    by rw [promotes.value]; exact grammatical_true⟩
  rw [promotes.separator]
  exact @Separator.equals [] [] (by simp [TagBody.Layout]) (by simp [TagBody.Layout])

theorem HashPair.Promotes.plain {candidate : Param} {pair : HashPair}
    (promotes : pair.Promotes candidate) (gap : Gap candidate.leading)
    (name : Identifier candidate.value.print) : Plain pair.print := by
  obtain ⟨leading, key, _, _⟩ := promotes.wellFormed gap name
  have suffix : Plain (pair.separator ++ pair.value.print) := by
    rw [promotes.separator, promotes.value]
    intro c member
    have inside : c ∈ trueSuffix := member
    simp only [trueSuffix, List.mem_cons, List.not_mem_nil, or_false] at inside
    rcases inside with rfl | rfl | rfl | rfl | rfl
    all_goals decide
  have whole := (plain_of_layout leading.1).append ((plain_of_idChars key.1).append suffix)
  obtain ⟨before, word, separator, value, loc⟩ := pair
  simpa [HashPair.print] using whole

theorem printPairs_append (front back : List HashPair) :
    printPairs (front ++ back) = printPairs front ++ printPairs back := by
  induction front with
  | nil => rfl
  | cons pair front inductionHypothesis => simp [printPairs, inductionHypothesis]

theorem plain_printPairs {pairs : List HashPair} (plain : ∀ pair ∈ pairs, Plain pair.print) :
    Plain (printPairs pairs) := by
  induction pairs with
  | nil => simp [printPairs, Plain]
  | cons pair pairs inductionHypothesis =>
      rw [List.forall_mem_cons] at plain
      exact plain.1.append (inductionHypothesis plain.2)

/-! ## Taking the selectors out -/

theorem Param.print_eq (param : Param) : param.print = param.leading ++ param.value.print := by
  obtain ⟨leading, value⟩ := param
  rw [Param.print]

/-- Positional arguments some of which are taken out leave the same quote open, if those are plain
and every argument ends like an expression. -/
theorem exists_carries_filter {close : Text} (braces : Braces close) (keep : Param → Bool)
    {params : List Param} (ends : ∀ param ∈ params, TagBody.Finishes param.print)
    (plain : ∀ param ∈ params, keep param = false → Plain param.print)
    {quote : Option Char} (state : QuoteState quote) {behind front rest : Text}
    (found : splitAtClose close quote (printParams params ++ behind) =
      some (printParams params ++ front, rest)) :
    ∃ after, QuoteState after ∧ Carries close quote (printParams params) after ∧
      Carries close quote (printParams (params.filter keep)) after := by
  induction params generalizing quote with
  | nil => exact ⟨quote, state, .nil quote, .nil quote⟩
  | cons param params inductionHypothesis =>
      rw [List.forall_mem_cons] at ends plain
      simp only [printParams, List.append_assoc] at found ⊢
      cases kept : keep param with
      | false =>
          have first := carries_of_plain braces state (plain.1 kept)
          obtain ⟨after, afterState, left, right⟩ :=
            inductionHypothesis ends.2 plain.2 state (first.found found)
          refine ⟨after, afterState, first.append left, ?_⟩
          rw [List.filter_cons_of_neg (by simp [kept])]
          exact right
      | true =>
          obtain ⟨between, betweenState, first⟩ := exists_carries braces state
            (ends.1.getLast? (by decide)) (ends.1.getLast? (by decide)) found
          obtain ⟨after, afterState, left, right⟩ :=
            inductionHypothesis ends.2 plain.2 betweenState (first.found found)
          refine ⟨after, afterState, first.append left, ?_⟩
          rw [List.filter_cons_of_pos kept]
          exact first.append right

namespace Tag

variable {pattern : SelectorPattern} {tag other : Tag}

def NamesOnly (pattern : SelectorPattern) (tag : Tag) : Prop :=
  ∀ candidate ∈ tag.candidates pattern,
    ∀ c ∈ candidate.value.print, TagBody.isIdChar c = true

theorem WellFormed.params (wellFormed : tag.WellFormed) :
    ∀ param ∈ tag.params, Gap param.leading ∧ param.value.term.Grammatical :=
  (grammatical_paramArguments_iff.mp wellFormed.grammatical.args).1

theorem WellFormed.pairs (wellFormed : tag.WellFormed) :
    ∀ pair ∈ tag.pairs, Gap pair.leading ∧ Identifier pair.key ∧ Separator pair.separator ∧
      pair.value.term.Grammatical :=
  grammatical_pairArguments_iff.mp
    (grammatical_paramArguments_iff.mp wellFormed.grammatical.args).2

theorem identifier_of_namesOnly (wellFormed : tag.WellFormed) (names : tag.NamesOnly pattern)
    {candidate : Param} (member : candidate ∈ tag.candidates pattern) :
    Gap candidate.leading ∧ Identifier candidate.value.print := by
  obtain ⟨gap, rule⟩ := wellFormed.params candidate (List.mem_filter.mp member).1
  obtain ⟨c, rest, text, _⟩ := TagBody.Term.starts rule
  rw [Expression.text_term] at text
  exact ⟨gap, names candidate member, by simp [text]⟩

theorem body_tail (tag : Tag) :
    tag.body.tail = printParams tag.params ++
      (printPairs tag.pairs ++ (tag.blockParams.getD [] ++ tag.trailing)) := by
  simp only [TagBody.tail, body, text_paramArguments, text_pairArguments, List.append_assoc]

def moved (pattern : SelectorPattern) (tag : Tag) (hash : Hash) : Tag :=
  { tag with params := tag.kept pattern, hash := some hash, source := none }

/-- The selectors and the pairs that they have become leave the same quote open. -/
theorem replaces_params (wellFormed : tag.WellFormed) (names : tag.NamesOnly pattern)
    {pairs : List HashPair}
    (promotes : ∀ pair ∈ pairs, ∃ candidate ∈ tag.candidates pattern, pair.Promotes candidate) :
    Replaces (printParams tag.params) (printParams (tag.kept pattern) ++ printPairs pairs) := by
  have ends : ∀ param ∈ tag.params, TagBody.Finishes param.print := by
    intro param member
    have finishes := TagBody.Term.finishes (wellFormed.params param member).2
    rw [Expression.text_term] at finishes
    rw [Param.print_eq]
    exact finishes.append param.leading
  have plain : ∀ param ∈ tag.params, (!pattern.isSelector param) = false → Plain param.print := by
    intro param member selector
    have candidate : param ∈ tag.candidates pattern :=
      List.mem_filter.mpr ⟨member, by simpa using selector⟩
    obtain ⟨gap, name⟩ := identifier_of_namesOnly wellFormed names candidate
    rw [Param.print_eq]
    exact (plain_of_layout gap.1).append (plain_of_idChars name.1)
  have suffix : Plain (printPairs pairs) := by
    refine plain_printPairs ?_
    intro pair member
    obtain ⟨candidate, inside, promoted⟩ := promotes pair member
    obtain ⟨gap, name⟩ := identifier_of_namesOnly wellFormed names inside
    exact promoted.plain gap name
  refine .of_carries ?_
  intro close braces quote state behind front rest found
  obtain ⟨after, afterState, left, right⟩ :=
    exists_carries_filter braces _ ends plain state found
  exact ⟨after, left, right.append (carries_of_plain braces afterState suffix)⟩

/-- A tag whose selectors have become pairs in front of its keyword arguments stands for the tag
that was read. -/
theorem standsFor_moved (wellFormed : tag.WellFormed) (names : tag.NamesOnly pattern)
    {pairs : List HashPair} {hash : Hash} (first : hash.pairs = pairs ++ tag.pairs)
    (promotes : ∀ pair ∈ pairs, ∃ candidate ∈ tag.candidates pattern, pair.Promotes candidate) :
    (tag.moved pattern hash).StandsFor tag := by
  have keywords : (tag.moved pattern hash).pairs = pairs ++ tag.pairs := first
  have kept : ∀ param ∈ tag.kept pattern, param ∈ tag.params := fun param member =>
    (List.mem_filter.mp member).1
  refine ⟨rfl, rfl, rfl, rfl, ⟨rfl, ?_, wellFormed.callee, ?_, ?_⟩, rfl, ?_⟩
  · refine ⟨wellFormed.grammatical.leading, wellFormed.grammatical.callee, ?_,
      wellFormed.grammatical.blockParams, wellFormed.grammatical.trailing⟩
    refine grammatical_paramArguments_iff.mpr ⟨?_, grammatical_pairArguments_iff.mpr ?_⟩
    · exact fun param member => wellFormed.params param (kept param member)
    · rw [keywords, List.forall_mem_append]
      refine ⟨?_, wellFormed.pairs⟩
      intro pair member
      obtain ⟨candidate, inside, promoted⟩ := promotes pair member
      obtain ⟨gap, name⟩ := identifier_of_namesOnly wellFormed names inside
      exact promoted.wellFormed gap name
  · exact fun param member => wellFormed.arguments.params param (kept param member)
  · rw [keywords, List.forall_mem_append]
    refine ⟨?_, wellFormed.arguments.pairs⟩
    intro pair member
    obtain ⟨candidate, inside, promoted⟩ := promotes pair member
    rw [promoted.value]
    exact Expression.readable_true
  · rw [body_tail, body_tail, keywords, printPairs_append]
    have replaced := (replaces_params wellFormed names promotes).append_right
      (printPairs tag.pairs ++ (tag.blockParams.getD [] ++ tag.trailing))
    simpa only [moved, List.append_assoc] using replaced

/-- Promoting a tag changes its name as little as its callee. -/
theorem name_promoted (options : PromoteOptions) (tag : Tag) :
    (tag.promoted options).name = tag.name := by
  cases keywords : tag.hash with
  | some hash =>
      unfold promoted
      rcases promote_cases options keywords with ⟨_, rule⟩ | ⟨_, _, _, rule⟩ | ⟨_, _, rule⟩
      · rw [rule]
      · rw [rule]
        rfl
      · rw [rule]
        rfl
  | none =>
      unfold promoted promote
      simp only [keywords]
      split
      · next found =>
          split at found
          · cases found
            rfl
          · cases found
      · rfl

/-- A promoted tag that is written anew stands for the tag that was read. -/
theorem standsFor_promoted (stands : tag.StandsFor tag) (names : tag.NamesOnly pattern) :
    (tag.promoted ⟨pattern, false⟩).StandsFor tag := by
  obtain ⟨hash, keywords⟩ := Option.isSome_iff_exists.mp stands.wellFormed.keywords
  unfold promoted
  rcases promote_cases ⟨pattern, false⟩ keywords with ⟨_, rule⟩ | ⟨_, fast, _⟩ | ⟨_, _, rule⟩
  · rw [rule]
    exact stands
  · cases fast
  · obtain ⟨pairs, first, promotes⟩ :=
      hash.exists_pairs_promote (tag.params.length == 1) (tag.candidates pattern)
    have same : tag.pairs = hash.pairs := by simp [Tag.pairs, keywords]
    rw [rule]
    exact standsFor_moved stands.wellFormed names (by rw [first, same]) promotes

end Tag

end TemplateSelectors
