import TemplateSelectors.Proofs.FastPath

/-!
# Patching and rewriting agree

A lone selector that is the only positional argument of its tag can be patched in the printed text
or written anew as a pair, and the text is the same.  A patch goes to the selector that it is meant
for if whatever spells a lone selector is a selector: tags that come before have been finished by
then, be it by patches or by being written anew, and no longer spell it.
-/

set_option autoImplicit false

namespace TemplateSelectors

/-- Wherever the selector of a hit occurs free in the source, there is a hit. -/
def SelectorHit.Exclusive (source : Text) (hits : List SelectorHit) (hit : SelectorHit) : Prop :=
  ∀ before behind, source = before ++ (hit.selector ++ behind) →
    Patch.isFree before.getLast? behind.head? = true →
    ⟨hit.selector, (LineIndex.ofText source).sourceSpan
      ⟨before.size, before.size + hit.selector.size⟩⟩ ∈ hits

instance (source : Text) (hits : List SelectorHit) (hit : SelectorHit) :
    Decidable (hit.Exclusive source hits) :=
  decidable_of_iff _ Text.forall_occurrence_iff.symm

theorem SelectorHit.Exclusive.leads {source : Text} {hits : List SelectorHit} {hit : SelectorHit}
    (exclusive : hit.Exclusive source hits) : hit.Leads source hits :=
  fun before behind split free _ => exclusive before behind split free

/-! ## Paths that are tokens -/

namespace TagBody

variable {text : Text}

theorem Segment.unset (segment : Segment text)
    (tokens : ∀ c ∈ text, Patch.isTokenChar c = true) : '=' ∉ text := by
  intro equals
  cases segment with
  | parent => simp at equals
  | bracketed unclosed =>
      have bracket := tokens '[' (by simp)
      cases bracket
  | name identifier =>
      have idChar := identifier.1 _ equals
      cases idChar

theorem Segments.unset (further : Segments text)
    (tokens : ∀ c ∈ text, Patch.isTokenChar c = true) : '=' ∉ text := by
  induction further with
  | done => simp
  | @more c piece rest separator segment further inductionHypothesis =>
      rw [List.cons_append, List.forall_mem_cons, List.forall_mem_append] at tokens
      have first := segment.unset tokens.2.1
      have others := inductionHypothesis tokens.2.2
      rcases separator with rfl | rfl
      · simp [first, others]
      · simp [first, others]

/-- A path holds an equals sign only between brackets. -/
theorem Path.unset (path : Path text) (tokens : ∀ c ∈ text, Patch.isTokenChar c = true) :
    '=' ∉ text := by
  cases path with
  | plain segment further =>
      rw [List.forall_mem_append] at tokens
      simp [segment.unset tokens.1, further.unset tokens.2]
  | data segment further =>
      rw [List.cons_append, List.forall_mem_cons, List.forall_mem_append] at tokens
      simp [segment.unset tokens.2.1, further.unset tokens.2.2]

end TagBody

/-! ## The text of a tag -/

namespace Tag

variable {pattern : SelectorPattern} {tag : Tag}

theorem path_of_candidate (wellFormed : tag.WellFormed) {candidate : Param}
    (member : candidate ∈ tag.candidates pattern) : TagBody.Path candidate.value.print := by
  obtain ⟨listed, selector⟩ := List.mem_filter.mp member
  have rule := (wellFormed.params candidate listed).2
  unfold SelectorPattern.isSelector SelectorPattern.selectorOf? at selector
  cases value : candidate.value with
  | path path =>
      rw [value] at rule
      simpa [Expression.print, Expression.term, TagBody.Term.Grammatical] using rule
  | literal literal => simp [value] at selector
  | call call => simp [value] at selector

theorem params_of_length {candidate : Param} (lone : tag.candidates pattern = [candidate])
    (single : tag.params.length = 1) : tag.params = [candidate] := by
  obtain ⟨param, only⟩ := List.length_eq_one_iff.mp single
  have member : candidate ∈ tag.params :=
    (List.mem_filter.mp (lone ▸ List.mem_singleton_self candidate)).1
  rw [only, List.mem_singleton] at member
  rw [only, member]

theorem promoted_slow {hash : Hash} (keywords : tag.hash = some hash)
    (found : tag.candidates pattern ≠ []) :
    tag.promoted ⟨pattern, false⟩ = tag.withPairs pattern hash := by
  unfold promoted
  rcases promote_cases ⟨pattern, false⟩ keywords with ⟨none, _⟩ | ⟨_, fast, _⟩ | ⟨_, _, rule⟩
  · exact absurd none found
  · cases fast
  · rw [rule]

/-- A tag whose lone selector is its only positional argument is settled as it is written anew. -/
theorem print_settled_eq_promoted (wellFormed : tag.WellFormed)
    (alone : ∀ candidate, tag.candidates pattern = [candidate] → tag.params = [candidate]) :
    (tag.settled pattern).print = (tag.promoted ⟨pattern, false⟩).print := by
  obtain ⟨hash, keywords⟩ := Option.isSome_iff_exists.mp wellFormed.keywords
  rcases settled_cases pattern keywords with
    ⟨none, _, _, settles⟩ | ⟨candidate, lone, _, settles⟩ | ⟨_, promotes, settles⟩
  · rw [settles, promoted_eq_self none]
  · have pairs : hash.pairs = tag.pairs := by simp [Tag.pairs, keywords]
    have anew : tag.withPairs pattern hash =
        tag.moved pattern (hash.promote true [candidate]) := by
      rw [withPairs, moved, lone, alone candidate lone]
      rfl
    -- the two hashes differ in their places only
    have text : ∀ other : Hash, other.pairs = [solePair candidate] ++ tag.pairs →
        (tag.moved pattern other).print =
          tag.front ++ (printParams (tag.kept pattern) ++ printPairs [solePair candidate] ++
            tag.rear) := by
      intro other first
      rw [print_moved, printParts_moved first]
    rw [settles, promoted_slow keywords (by simp [lone]), anew, text _ (by simp [pairs]),
      text _ (by simp [Hash.promote, pairs])]
  · by_cases none : tag.candidates pattern = []
    · rw [settles, ← promotes, promoted_eq_self none, promoted_eq_self none]
    · rw [settles, promoted_slow keywords none]

end Tag

/-! ## Whole sources -/

namespace Template

variable {pattern : SelectorPattern} {source : Text} {template : Template}

theorem token_of_loneHits (parsed : parse source = .ok template)
    (tokens : ∀ hit ∈ template.loneHits pattern,
      ∀ c ∈ hit.selector, Patch.isTokenChar c = true) :
    ∀ hit ∈ template.loneHits pattern, Patch.Token hit.selector := by
  intro hit found
  have token := tokens hit found
  obtain ⟨tag, member, candidate, lone, rfl⟩ := mem_loneHits_iff.mp found
  have wellFormed := (standsFor_of_parse parsed tag member).wellFormed
  have inside : candidate ∈ tag.candidates pattern := by simp [lone]
  exact ⟨wellFormed.print_ne_nil candidate (List.mem_filter.mp inside).1, token,
    (Tag.path_of_candidate wellFormed inside).unset token⟩

end Template

/-- Where a lone selector is a token, is the only positional argument of its tag, and is spelled by
nothing but selectors, patching it in the printed text and writing its tag anew give the same
output. -/
theorem migrateSource_patched_eq_rewritten (pattern : SelectorPattern) {source : Text}
    {template : Template} (parsed : Template.parse source = .ok template)
    (alone : ∀ tag ∈ template.tags, ∀ candidate, tag.candidates pattern = [candidate] →
      tag.params = [candidate])
    (tokens : ∀ hit ∈ template.loneHits pattern,
      ∀ c ∈ hit.selector, Patch.isTokenChar c = true)
    (exclusive : ∀ hit ∈ template.loneHits pattern,
      hit.Exclusive source (template.selectorHits pattern)) :
    ∃ patched rewritten, migrateSource ⟨pattern, true⟩ source = .ok patched ∧
      migrateSource ⟨pattern, false⟩ source = .ok rewritten ∧
      patched.output = rewritten.output := by
  by_cases settled : template.selectorHits pattern = []
  · exact ⟨_, _, migrateSource_of_settled parsed ⟨pattern, true⟩ settled,
      migrateSource_of_settled parsed ⟨pattern, false⟩ settled, rfl⟩
  · obtain ⟨_, fast⟩ := migrateSource_of_found parsed ⟨pattern, true⟩ settled
    obtain ⟨_, slow⟩ := migrateSource_of_found parsed ⟨pattern, false⟩ settled
    refine ⟨_, _, fast, slow, ?_⟩
    have patchable := Template.patchable_of_leads
      (fun hit member => (Template.token_of_loneHits parsed tokens hit member).needle)
      (fun tag member candidate lone => by rw [alone tag member candidate lone]; rfl)
      (fun hit member => (exclusive hit member).leads)
    have read := Template.standsFor_of_parse parsed
    simp only
    rw [Template.applyReplacements_promoted parsed patchable, applyReplacements_slow parsed,
      Template.print_mapTags_leaves, Template.print_mapTags_leaves]
    refine Leaf.printAll_mapTag_congr ?_
    intro tag member
    exact Tag.print_settled_eq_promoted (read tag member).wellFormed (alone tag member)

/-- One selector as the only argument of two mustaches, and beside another one between them. -/
def sharedSelector : Text :=
  "\x7b\x7bf t/a\x7d\x7d\x7b\x7bg t/a t\x7d\x7d\x7b\x7bh t/a\x7d\x7d".toList

theorem migrateSource_patched_eq_rewritten_sharedSelector :
    ∃ template patched rewritten, Template.parse sharedSelector = .ok template ∧
      (template.loneHits letterPattern).length = 2 ∧
      (template.selectorHits letterPattern).length = 4 ∧
      migrateSource ⟨letterPattern, true⟩ sharedSelector = .ok patched ∧
      migrateSource ⟨letterPattern, false⟩ sharedSelector = .ok rewritten ∧
      patched.output = rewritten.output := by
  have facts : ((Template.parse sharedSelector).toOption.map fun template =>
      (template.selectorHits letterPattern, template.loneHits letterPattern,
        template.tags.map fun tag => ((tag.candidates letterPattern).length, tag.params.length))) =
      some ([⟨['t', '/', 'a'], ⟨⟨1, 5⟩, ⟨1, 8⟩⟩⟩, ⟨['t', '/', 'a'], ⟨⟨1, 14⟩, ⟨1, 17⟩⟩⟩,
          ⟨['t'], ⟨⟨1, 18⟩, ⟨1, 19⟩⟩⟩, ⟨['t', '/', 'a'], ⟨⟨1, 25⟩, ⟨1, 28⟩⟩⟩],
        [⟨['t', '/', 'a'], ⟨⟨1, 5⟩, ⟨1, 8⟩⟩⟩, ⟨['t', '/', 'a'], ⟨⟨1, 25⟩, ⟨1, 28⟩⟩⟩],
        [(1, 1), (2, 2), (1, 1)]) := by
    cbv
  obtain ⟨template, parsed, told⟩ := Template.exists_parse_of_map facts
  simp only [Prod.mk.injEq] at told
  obtain ⟨hits, lone, lengths⟩ := told
  have alone : ∀ tag ∈ template.tags, ∀ candidate,
      tag.candidates letterPattern = [candidate] → tag.params = [candidate] := by
    intro tag member candidate single
    refine Tag.params_of_length single ?_
    have inside := List.mem_map_of_mem
      (f := fun tag : Tag => ((tag.candidates letterPattern).length, tag.params.length)) member
    rw [lengths, single] at inside
    simpa using inside
  have tokens : ∀ hit ∈ template.loneHits letterPattern,
      ∀ c ∈ hit.selector, Patch.isTokenChar c = true := by
    rw [lone, List.forall_mem_cons, List.forall_mem_singleton]
    exact ⟨List.all_eq_true.mp (by cbv), List.all_eq_true.mp (by cbv)⟩
  have exclusive : ∀ hit ∈ template.loneHits letterPattern,
      hit.Exclusive sharedSelector (template.selectorHits letterPattern) := by
    rw [lone, hits]
    decide +kernel
  obtain ⟨patched, rewritten, fast, slow, same⟩ :=
    migrateSource_patched_eq_rewritten letterPattern parsed alone tokens exclusive
  exact ⟨template, patched, rewritten, parsed, by rw [lone]; rfl, by rw [hits]; rfl, fast, slow,
    same⟩

end TemplateSelectors
