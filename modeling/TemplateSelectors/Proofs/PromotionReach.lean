import TemplateSelectors.Proofs.PromotionLaws

/-!
# How far a promotion reaches

A promotion rewrites the tags of mustaches and blocks by the rule, each by itself, and touches
nothing else.  It gets as far as the first tag that has selectors but no keyword arguments to move
them to: the tags before are rewritten, and that tag and all behind it are left as they were.
-/

set_option autoImplicit false

namespace TemplateSelectors

/-! ## What the rule makes of a tag -/

theorem Hash.pairs_promote (hash : Hash) {sole : Bool} {candidates : List Param}
    (few : sole = true → candidates.length ≤ 1) :
    (hash.promote sole candidates).pairs =
      candidates.map (if sole = true then solePair else selectorPair) ++ hash.pairs := by
  cases sole with
  | false => rfl
  | true =>
      have few := few rfl
      cases candidates with
      | nil => rfl
      | cons candidate others =>
          cases others with
          | nil => rfl
          | cons other others =>
              simp only [List.length_cons] at few
              omega

theorem Hash.loc_promote (hash : Hash) (candidates : List Param) :
    (hash.promote false candidates).loc = hash.loc := rfl

namespace Tag

variable {options : PromoteOptions} {pattern : SelectorPattern} {tag : Tag}

theorem pairs_promote (hash : Hash) :
    (hash.promote (tag.params.length == 1) (tag.candidates pattern)).pairs =
      (tag.candidates pattern).map
        (if tag.params.length = 1 then solePair else selectorPair) ++ hash.pairs := by
  have few : (tag.params.length == 1) = true → (tag.candidates pattern).length ≤ 1 := by
    intro sole
    have fewer := List.length_filter_le pattern.isSelector tag.params
    rw [beq_iff_eq] at sole
    rw [candidates]
    omega
  simpa only [beq_iff_eq] using hash.pairs_promote few

structure Becomes (options : PromoteOptions) (tag after : Tag) : Prop where
  /-- Arguments and the remembered text apart, nothing is touched. -/
  rest : after = { tag with params := after.params, hash := after.hash, source := after.source }
  params : after.params = tag.params.filter fun param => !options.pattern.isSelector param
  untouched : tag.candidates options.pattern = [] → after = tag
  left : options.fastPath = true → (tag.candidates options.pattern).length = 1 →
    after.hash = tag.hash ∧ after.source = tag.source
  moved : tag.candidates options.pattern ≠ [] →
    options.fastPath = false ∨ 2 ≤ (tag.candidates options.pattern).length →
    after.isDirty = true ∧ ∃ old new added, tag.hash = some old ∧ after.hash = some new ∧
      new.pairs = added ++ old.pairs ∧
      added.map (fun pair => (pair.key, pair.value)) =
        (tag.candidates options.pattern).map
          (fun candidate => (candidate.value.print, .literal (.ofBool true))) ∧
      (tag.params.length ≠ 1 → new.loc = old.loc)

theorem becomes_self (none : tag.candidates options.pattern = []) : tag.Becomes options tag where
  rest := rfl
  params := (kept_of_none none).symm
  untouched _ := rfl
  left _ _ := ⟨rfl, rfl⟩
  moved some := absurd none some

theorem becomes_kept {candidate : Param} (lone : tag.candidates options.pattern = [candidate])
    (fast : options.fastPath = true) :
    tag.Becomes options { tag with params := tag.kept options.pattern } where
  rest := rfl
  params := rfl
  untouched none := by
    rw [lone] at none
    cases none
  left _ _ := ⟨rfl, rfl⟩
  moved _ slow := by
    rw [fast, lone] at slow
    simp at slow

theorem becomes_withPairs {hash : Hash} (keywords : tag.hash = some hash)
    (some : tag.candidates options.pattern ≠ [])
    (slow : options.fastPath = false ∨ (tag.candidates options.pattern).length ≠ 1) :
    tag.Becomes options (tag.withPairs options.pattern hash) where
  rest := rfl
  params := rfl
  untouched none := absurd none some
  left fast alone := by
    rcases slow with slow | many
    · rw [fast] at slow
      cases slow
    · exact absurd alone many
  moved _ _ := by
    refine ⟨rfl, hash, _, _, keywords, rfl, tag.pairs_promote hash, ?_, ?_⟩
    · rw [List.map_map]
      apply List.map_congr_left
      intro candidate _
      split
      · rfl
      · rfl
    · intro several
      have sole : (tag.params.length == 1) = false := by
        simpa using several
      rw [sole]
      exact hash.loc_promote _

theorem becomes_promoted (free : ¬tag.Stuck options.pattern) :
    tag.Becomes options (tag.promoted options) := by
  by_cases none : tag.candidates options.pattern = []
  · rw [promoted_eq_self none]
    exact becomes_self none
  · obtain ⟨hash, keywords⟩ := Option.ne_none_iff_exists'.mp fun lacks => free ⟨none, lacks⟩
    unfold promoted
    rcases promote_cases options keywords with
      ⟨none', _⟩ | ⟨candidate, fast, lone, rule⟩ | ⟨some, slow, rule⟩
    · exact absurd none' none
    · rw [rule]
      exact becomes_kept lone fast
    · rw [rule]
      exact becomes_withPairs keywords some slow

end Tag

namespace Template

/-- Where every tag with selectors has keyword arguments, a promotion does what the rule says to
each mustache and block, and nothing to any other part of the template. -/
theorem promote_applies_rule (options : PromoteOptions) (template : Template)
    (ready : ∀ tag ∈ template.tags,
      tag.candidates options.pattern ≠ [] → tag.hash.isSome = true) :
    ∃ rewritten outcome,
      template.promote options = (template.mapTags rewritten, .ok outcome) ∧
      ∀ tag ∈ template.tags, tag.Becomes options (rewritten tag) := by
  have free : ∀ tag ∈ template.tags, ¬tag.Stuck options.pattern := by
    intro tag member stuck
    have present := ready tag member stuck.1
    rw [stuck.2] at present
    cases present
  refine ⟨_, _, promote_of_free options free, ?_⟩
  intro tag member
  exact Tag.becomes_promoted (free tag member)

/-- A block with a lone selector around a modifier and a mustache without keyword arguments, and a
chain with two selectors behind it, whose keyword arguments are `hash`. -/
def selectorChain (hash : Option Hash) : Template :=
  let param (name : String) : Param := .ofValue (.path (.ofText name.toList))
  let tag (name : String) (params : List Param) : Tag :=
    { Tag.ofCallee ['{', '{'] (.path (.ofText name.toList)) ['}', '}'] with
      params := params
      source := some name.toList }
  { body := [
      .block {
        opening := tag "#box" [param "data-test-a"]
        program := [
          .modifier ⟨tag "on" [param "data-test-a"], false⟩,
          .mustache ⟨{ tag "field" [param "wide"] with hash := none }, false⟩]
        inverse := some (.chained {
          opening :=
            { tag "else if" [param "data-test-b", param "wide", param "data-test-c"] with
              hash := hash
              loc := ⟨⟨1, 40⟩, ⟨1, 60⟩⟩ }
          program := []
          inverse := none
          close := none
          loc := .nowhere })
        close := some ⟨"\x7b\x7b/box\x7d\x7d".toList, "box".toList, .nowhere⟩
        loc := .nowhere },
      .mustache ⟨tag "last" [param "data-test-a"], false⟩]
    loc := .nowhere }

theorem promote_applies_rule_selectorChain :
    (∀ tag ∈ (selectorChain (some .empty)).tags,
      tag.candidates .default ≠ [] → tag.hash.isSome = true) ∧
      ((selectorChain (some .empty)).tags.map fun tag =>
        ((tag.candidates .default).length, tag.hash.isSome)) =
        [(1, true), (0, false), (2, true), (1, true)] ∧
      ∃ rewritten outcome,
        (selectorChain (some .empty)).promote .default =
          ((selectorChain (some .empty)).mapTags rewritten, .ok outcome) ∧
        ∀ tag ∈ (selectorChain (some .empty)).tags, tag.Becomes .default (rewritten tag) := by
  have ready : ∀ tag ∈ (selectorChain (some .empty)).tags,
      tag.candidates .default ≠ [] → tag.hash.isSome = true := by
    decide +kernel
  exact ⟨ready, by decide +kernel, promote_applies_rule .default _ ready⟩

end Template

/-! ## Where a promotion stops -/

/-- A tag that cannot be promoted stops the run; those before it are promoted, those behind it
are not looked at. -/
theorem Promotion.editTags_of_stuck {options : PromoteOptions} {before after : List Tag} {bad : Tag}
    (free : ∀ tag ∈ before, ¬tag.Stuck options.pattern) (stuck : bad.Stuck options.pattern)
    (promotion : Promotion) :
    ∃ outcome, editTags (Promotion.apply options) (before ++ bad :: after) promotion =
      ⟨true, before.map (Tag.promoted options) ++ bad :: after,
        ⟨outcome, some (.missingHash bad.name bad.loc)⟩⟩ := by
  rw [editTags_append, Promotion.editTags_of_free free]
  simp [Edited.andThen, editTags, Promotion.apply, Tag.promote_eq_error options stuck,
    Edited.ofVerdict, Edited.map]

namespace Template

variable {options : PromoteOptions} {template : Template}

theorem promote_of_stuck {before after : List Tag} {bad : Tag}
    (tags : template.tags = before ++ bad :: after)
    (free : ∀ tag ∈ before, ¬tag.Stuck options.pattern) (stuck : bad.Stuck options.pattern) :
    (template.promote options).2 = .error (.missingHash bad.name bad.loc) ∧
      (template.promote options).1.tags = before.map (Tag.promoted options) ++ bad :: after ∧
      (template.promote options).1.frame = template.frame := by
  have retags := template.edit_retags (Promotion.editor_judges options)
  have run := retags.run .start
  obtain ⟨outcome, stops⟩ := @Promotion.editTags_of_stuck options before after bad free stuck .start
  rw [tags, stops] at run
  obtain ⟨_, left, state⟩ := Edited.mk.inj run
  refine ⟨?_, left, retags.frame .start⟩
  rw [promote, state]

theorem exists_first_stuck (found : ∃ tag ∈ template.tags, tag.Stuck options.pattern) :
    ∃ before bad after, template.tags = before ++ bad :: after ∧ bad.Stuck options.pattern ∧
      ∀ tag ∈ before, ¬tag.Stuck options.pattern := by
  have some : (template.tags.find? fun tag => tag.Stuck options.pattern).isSome = true := by
    simpa using found
  obtain ⟨bad, first⟩ := Option.isSome_iff_exists.mp some
  obtain ⟨stuck, before, after, tags, free⟩ := List.find?_eq_some_iff_append.mp first
  exact ⟨before, bad, after, tags, by simpa using stuck, by simpa using free⟩

/-- A promotion fails exactly if some tag has selectors but no keyword arguments.  The error names
the first such tag; each tag before it has been rewritten as the rule rewrites it alone, and that
tag, all behind it and everything but tags are as they were. -/
theorem promote_stops_at_first (options : PromoteOptions) (template : Template) :
    ((∃ error, (template.promote options).2 = .error error) ↔
      ∃ tag ∈ template.tags, tag.candidates options.pattern ≠ [] ∧ tag.hash = none) ∧
    ∀ error, (template.promote options).2 = .error error →
      ∃ (before : List Tag) (bad : Tag) (after : List Tag) (rewritten : Tag → Tag),
        template.tags = before ++ bad :: after ∧
        bad.Stuck options.pattern ∧ (∀ tag ∈ before, ¬tag.Stuck options.pattern) ∧
        error = .missingHash bad.name bad.loc ∧
        (∀ tag ∈ before, ∃ change, tag.promote options = .ok (change, rewritten tag)) ∧
        (template.promote options).1.tags = before.map rewritten ++ bad :: after ∧
        (template.promote options).1.frame = template.frame := by
  have fails : (∃ error, (template.promote options).2 = .error error) →
      ∃ tag ∈ template.tags, tag.Stuck options.pattern := by
    intro failure
    obtain ⟨error, failed⟩ := failure
    apply Decidable.byContradiction
    intro none
    have free : ∀ tag ∈ template.tags, ¬tag.Stuck options.pattern :=
      fun tag member stuck => none ⟨tag, member, stuck⟩
    rw [promote_of_free options free] at failed
    cases failed
  refine ⟨⟨fails, ?_⟩, ?_⟩
  · intro found
    obtain ⟨before, bad, after, tags, stuck, free⟩ := exists_first_stuck found
    exact ⟨_, (promote_of_stuck tags free stuck).1⟩
  · intro error failed
    obtain ⟨before, bad, after, tags, stuck, free⟩ := exists_first_stuck (fails ⟨error, failed⟩)
    obtain ⟨named, left, frame⟩ := promote_of_stuck tags free stuck
    rw [named] at failed
    refine ⟨before, bad, after, Tag.promoted options, tags, stuck, free,
      (Except.error.inj failed).symm, ?_, left, frame⟩
    intro tag member
    exact ⟨_, Tag.promote_eq_ok options (free tag member)⟩

/-- The chain has no keyword arguments: the block before it is rewritten, the mustache behind it is
not. -/
theorem promote_stops_at_first_selectorChain :
    ((selectorChain none).promote .default).2 =
        .error (.missingHash "else if".toList ⟨⟨1, 40⟩, ⟨1, 60⟩⟩) ∧
      ((selectorChain none).tags.map fun tag => tag.params.length) = [1, 1, 3, 1] ∧
      (((selectorChain none).promote .default).1.tags.map fun tag => tag.params.length) =
        [0, 1, 3, 1] ∧
      ∃ (before : List Tag) (bad : Tag) (after : List Tag) (rewritten : Tag → Tag),
        (selectorChain none).tags = before ++ bad :: after ∧ bad.Stuck .default ∧
        (∀ tag ∈ before, ¬tag.Stuck .default) ∧
        (∀ tag ∈ before, ∃ change, tag.promote .default = .ok (change, rewritten tag)) ∧
        ((selectorChain none).promote .default).1.tags = before.map rewritten ++ bad :: after ∧
        ((selectorChain none).promote .default).1.frame = (selectorChain none).frame := by
  have failed : ((selectorChain none).promote .default).2 =
      .error (.missingHash "else if".toList ⟨⟨1, 40⟩, ⟨1, 60⟩⟩) := by
    rfl
  obtain ⟨before, bad, after, rewritten, tags, stuck, free, _, alone, left, frame⟩ :=
    (promote_stops_at_first .default (selectorChain none)).2 _ failed
  exact ⟨failed, by decide +kernel, by decide +kernel, before, bad, after, rewritten, tags, stuck,
    free, alone, left, frame⟩

end Template

end TemplateSelectors
