import TemplateSelectors.Promotion
import TemplateSelectors.Proofs.TagEdits

/-!
# Finding and promoting agree

What is found before a promotion is what the promotion changes, nothing is found behind it, and
to promote again changes nothing.  The rule is settled tag by tag; the two walks see the same
tags in the same order.
-/

set_option autoImplicit false

namespace TemplateSelectors

theorem SelectorPattern.selectorOf?_eq (pattern : SelectorPattern) (param : Param) :
    pattern.selectorOf? param =
      if pattern.isSelector param then some param.value.print else none := by
  unfold isSelector selectorOf?
  cases param.value with
  | path path =>
      by_cases followed : pattern.follows path.text = true
      · simp [followed, Expression.print]
      · simp [followed]
  | literal literal => rfl
  | call call => rfl

namespace Tag

/-- The positional arguments that are selectors. -/
def candidates (pattern : SelectorPattern) (tag : Tag) : List Param :=
  tag.params.filter pattern.isSelector

/-- The positional arguments that are no selectors. -/
def kept (pattern : SelectorPattern) (tag : Tag) : List Param :=
  tag.params.filter fun param => !pattern.isSelector param

theorem selectorHits_eq (pattern : SelectorPattern) (tag : Tag) :
    tag.selectorHits pattern =
      (tag.candidates pattern).map fun param => ⟨param.value.print, param.loc⟩ := by
  unfold selectorHits candidates
  induction tag.params with
  | nil => rfl
  | cons param params inductionHypothesis =>
      rw [List.filterMap_cons, SelectorPattern.selectorOf?_eq, inductionHypothesis]
      by_cases selector : pattern.isSelector param = true
      · simp [selector]
      · simp [selector]

theorem candidates_of_params_kept {pattern : SelectorPattern} {tag other : Tag}
    (params : other.params = tag.kept pattern) : other.candidates pattern = [] := by
  rw [candidates, params, kept, List.filter_filter]
  simp

theorem kept_of_none {pattern : SelectorPattern} {tag : Tag}
    (none : tag.candidates pattern = []) : tag.kept pattern = tag.params := by
  apply List.filter_eq_self.mpr
  intro param member
  have other := List.filter_eq_nil_iff.mp none param member
  simp [other]

/-- The tag with its selectors as keyword arguments, to be printed from its parts. -/
def withPairs (pattern : SelectorPattern) (tag : Tag) (hash : Hash) : Tag :=
  { tag with
    params := tag.kept pattern
    hash := some (hash.promote (tag.params.length == 1) (tag.candidates pattern))
    source := none }

/-- What the rule does to a tag with keyword arguments: nothing without a selector; a lone
selector is taken out and left to be patched if that is wanted; else pairs are made. -/
theorem promote_cases (options : PromoteOptions) {tag : Tag} {hash : Hash}
    (keywords : tag.hash = some hash) :
    (tag.candidates options.pattern = [] ∧ tag.promote options = .ok (⟨false, none⟩, tag)) ∨
    (∃ candidate, options.fastPath = true ∧ tag.candidates options.pattern = [candidate] ∧
      tag.promote options = .ok (⟨true, some ⟨candidate.value.print, candidate.loc⟩⟩,
        { tag with params := tag.kept options.pattern })) ∨
    (tag.candidates options.pattern ≠ [] ∧
      (options.fastPath = false ∨ (tag.candidates options.pattern).length ≠ 1) ∧
      tag.promote options = .ok (⟨true, none⟩, tag.withPairs options.pattern hash)) := by
  unfold promote withPairs
  simp only [← candidates.eq_1, ← kept.eq_1, keywords]
  cases found : tag.candidates options.pattern with
  | nil => exact .inl ⟨rfl, by simp⟩
  | cons first others =>
      cases fast : options.fastPath with
      | false => exact .inr (.inr ⟨by simp, .inl rfl, by simp⟩)
      | true =>
          cases others with
          | nil => exact .inr (.inl ⟨first, rfl, rfl, by simp⟩)
          | cons second others => exact .inr (.inr ⟨by simp, .inr (by simp), by simp⟩)

/-- A tag with selectors that has no keyword arguments to move them to. -/
def Stuck (pattern : SelectorPattern) (tag : Tag) : Prop :=
  tag.candidates pattern ≠ [] ∧ tag.hash = none

instance (pattern : SelectorPattern) (tag : Tag) : Decidable (tag.Stuck pattern) :=
  decidable_of_iff ((tag.candidates pattern).isEmpty = false ∧ tag.hash.isNone = true)
    (by simp [Stuck])

theorem promote_of_none (options : PromoteOptions) {tag : Tag}
    (none : tag.candidates options.pattern = []) :
    tag.promote options = .ok (⟨false, Option.none⟩, tag) := by
  unfold candidates at none
  simp [promote, none]

/-- What the rule reports about a tag. -/
def change (options : PromoteOptions) (tag : Tag) : TagChange :=
  match tag.promote options with
  | .ok (change, _) => change
  | .error _ => ⟨false, none⟩

/-- What the rule makes of a tag. -/
def promoted (options : PromoteOptions) (tag : Tag) : Tag :=
  match tag.promote options with
  | .ok (_, promoted) => promoted
  | .error _ => tag

variable (options : PromoteOptions) {tag : Tag}

theorem promote_eq_ok (free : ¬tag.Stuck options.pattern) :
    tag.promote options = .ok (tag.change options, tag.promoted options) := by
  unfold change promoted
  by_cases none : tag.candidates options.pattern = []
  · rw [promote_of_none options none]
  · obtain ⟨hash, same⟩ := Option.ne_none_iff_exists'.mp fun lacks => free ⟨none, lacks⟩
    rcases promote_cases options same with ⟨_, rule⟩ | ⟨_, _, _, rule⟩ | ⟨_, _, rule⟩
    · rw [rule]
    · rw [rule]
    · rw [rule]

theorem promote_eq_error (stuck : tag.Stuck options.pattern) :
    tag.promote options = .error (.missingHash tag.name tag.loc) := by
  obtain ⟨some, lacks⟩ := stuck
  rw [promote, ← candidates.eq_1]
  simp [some, lacks]

theorem changed_eq (keywords : tag.hash.isSome = true) :
    (tag.change options).changed = !(tag.candidates options.pattern).isEmpty := by
  obtain ⟨hash, same⟩ := Option.isSome_iff_exists.mp keywords
  unfold change
  rcases promote_cases options same with ⟨none, rule⟩ | ⟨_, _, lone, rule⟩ | ⟨some, _, rule⟩
  · rw [rule, none]
    rfl
  · rw [rule, lone]
    rfl
  · rw [rule]
    simp [some]

theorem replacement_eq (keywords : tag.hash.isSome = true) :
    (tag.change options).replacement.toList =
      if options.fastPath = true ∧ (tag.candidates options.pattern).length = 1 then
        (tag.candidates options.pattern).map fun param => ⟨param.value.print, param.loc⟩
      else [] := by
  obtain ⟨hash, same⟩ := Option.isSome_iff_exists.mp keywords
  unfold change
  rcases promote_cases options same with ⟨none, rule⟩ | ⟨_, fast, lone, rule⟩ | ⟨_, slow, rule⟩
  · rw [rule, none]
    simp
  · rw [rule, lone]
    simp [fast]
  · rw [rule, if_neg]
    · rfl
    · rintro ⟨fast, lone⟩
      rcases slow with slow | many
      · simp [fast] at slow
      · exact many lone

theorem params_promoted (keywords : tag.hash.isSome = true) :
    (tag.promoted options).params = tag.kept options.pattern := by
  obtain ⟨hash, same⟩ := Option.isSome_iff_exists.mp keywords
  unfold promoted
  rcases promote_cases options same with ⟨none, rule⟩ | ⟨_, _, _, rule⟩ | ⟨_, _, rule⟩
  · rw [rule, kept_of_none none]
  · rw [rule]
  · rw [rule]
    rfl

theorem hash_promoted (keywords : tag.hash.isSome = true) :
    (tag.promoted options).hash.isSome = true := by
  obtain ⟨hash, same⟩ := Option.isSome_iff_exists.mp keywords
  unfold promoted
  rcases promote_cases options same with ⟨_, rule⟩ | ⟨_, _, _, rule⟩ | ⟨_, _, rule⟩
  · rw [rule]
    exact keywords
  · rw [rule]
    exact keywords
  · rw [rule]
    rfl

theorem candidates_promoted (keywords : tag.hash.isSome = true) :
    (tag.promoted options).candidates options.pattern = [] :=
  candidates_of_params_kept (params_promoted options keywords)

variable {options}

theorem promoted_eq_self (none : tag.candidates options.pattern = []) :
    tag.promoted options = tag := by
  rw [promoted, promote_of_none options none]

theorem change_eq_none (none : tag.candidates options.pattern = []) :
    tag.change options = ⟨false, Option.none⟩ := by
  rw [change, promote_of_none options none]

end Tag

/-! ## Whole templates -/

theorem Promotion.editor_judges (options : PromoteOptions) :
    (Promotion.editor options).JudgesTags (Promotion.apply options) where
  mustache _ _ := rfl
  block _ _ := rfl
  modifier _ _ := rfl
  onwards tag promotion := by
    unfold Promotion.apply
    split
    · simp
    · simp
  passes := ⟨fun _ _ => rfl, fun _ _ => rfl, fun _ _ => rfl⟩

/-- Along tags that can all be promoted, each is, and what was done is recorded. -/
theorem Promotion.editTags_of_free {options : PromoteOptions} {tags : List Tag}
    (free : ∀ tag ∈ tags, ¬tag.Stuck options.pattern) (promotion : Promotion) :
    editTags (Promotion.apply options) tags promotion =
      ⟨false, tags.map (Tag.promoted options),
        stepAll (fun tag => Promotion.record (tag.change options)) tags promotion⟩ := by
  induction tags generalizing promotion with
  | nil => rfl
  | cons tag tags inductionHypothesis =>
      rw [List.forall_mem_cons] at free
      have first : Promotion.apply options tag promotion =
          (.proceed, tag.promoted options, promotion.record (tag.change options)) := by
        rw [Promotion.apply, Tag.promote_eq_ok options free.1]
      rw [editTags, first]
      simp [Edited.ofVerdict, Edited.andThen, Edited.map, inductionHypothesis free.2, stepAll]

/-- What has been recorded after some tags. -/
theorem Promotion.record_all (options : PromoteOptions) (tags : List Tag) (promotion : Promotion) :
    stepAll (fun tag => Promotion.record (tag.change options)) tags promotion =
      ⟨⟨promotion.outcome.changed || tags.any fun tag => (tag.change options).changed,
        promotion.outcome.replacements ++
          tags.flatMap fun tag => (tag.change options).replacement.toList⟩, promotion.error⟩ := by
  induction tags generalizing promotion with
  | nil => simp [stepAll]
  | cons tag tags inductionHypothesis =>
      have next := inductionHypothesis (promotion.record (tag.change options))
      simp only [stepAll, List.foldl_cons] at next ⊢
      rw [next]
      simp [Promotion.record, Bool.or_assoc]

namespace Template

/-- What the rule reports about a template. -/
def outcome (options : PromoteOptions) (template : Template) : PromotionOutcome :=
  ⟨template.tags.any fun tag => (tag.change options).changed,
    template.tags.flatMap fun tag => (tag.change options).replacement.toList⟩

/-- The hits of the tags that have but one. -/
def loneHits (pattern : SelectorPattern) (template : Template) : List SelectorHit :=
  (template.tags.filter fun tag => (tag.selectorHits pattern).length = 1).flatMap
    (Tag.selectorHits pattern)

theorem mem_loneHits_iff {pattern : SelectorPattern} {template : Template} {hit : SelectorHit} :
    hit ∈ template.loneHits pattern ↔ ∃ tag ∈ template.tags, ∃ candidate,
      tag.candidates pattern = [candidate] ∧ hit = ⟨candidate.value.print, candidate.loc⟩ := by
  simp only [loneHits, List.mem_flatMap, List.mem_filter, Tag.selectorHits_eq, List.length_map,
    decide_eq_true_eq]
  constructor
  · rintro ⟨tag, ⟨member, alone⟩, found⟩
    obtain ⟨candidate, lone⟩ := List.length_eq_one_iff.mp alone
    rw [lone, List.map_singleton, List.mem_singleton] at found
    exact ⟨tag, member, candidate, lone, found⟩
  · rintro ⟨tag, member, candidate, lone, rfl⟩
    exact ⟨tag, ⟨member, by simp [lone]⟩, by simp [lone]⟩

variable (options : PromoteOptions) {template : Template}

theorem promote_of_free (free : ∀ tag ∈ template.tags, ¬tag.Stuck options.pattern) :
    template.promote options =
      (template.mapTags (Tag.promoted options), .ok (template.outcome options)) := by
  have retags := template.edit_retags (Promotion.editor_judges options)
  have run := retags.run .start
  rw [Promotion.editTags_of_free free, Promotion.record_all] at run
  obtain ⟨_, tags, state⟩ := Edited.mk.inj run
  rw [promote, state, eq_mapTags (retags.frame .start) tags]
  simp [Promotion.start, PromotionOutcome.unchanged, outcome]

theorem promote_eq (keywords : ∀ tag ∈ template.tags, tag.hash.isSome = true) :
    template.promote options =
      (template.mapTags (Tag.promoted options), .ok (template.outcome options)) := by
  apply promote_of_free
  intro tag member stuck
  have some := keywords tag member
  rw [stuck.2] at some
  cases some

theorem selectorHits_eq_nil_iff (pattern : SelectorPattern) :
    template.selectorHits pattern = [] ↔ ∀ tag ∈ template.tags, tag.candidates pattern = [] := by
  rw [selectorHits_eq, List.flatMap_eq_nil_iff]
  simp only [Tag.selectorHits_eq, List.map_eq_nil_iff]

theorem outcome_changed_iff (keywords : ∀ tag ∈ template.tags, tag.hash.isSome = true) :
    (template.outcome options).changed = true ↔ template.selectorHits options.pattern ≠ [] := by
  rw [Ne, selectorHits_eq_nil_iff, outcome, List.any_eq_true]
  constructor
  · rintro ⟨tag, member, changed⟩ none
    rw [Tag.changed_eq options (keywords tag member), none tag member] at changed
    cases changed
  · intro some
    obtain ⟨tag, absent⟩ := Classical.not_forall.mp some
    obtain ⟨member, nonempty⟩ := Classical.not_imp.mp absent
    refine ⟨tag, member, ?_⟩
    rw [Tag.changed_eq options (keywords tag member)]
    simp [nonempty]

theorem outcome_replacements (keywords : ∀ tag ∈ template.tags, tag.hash.isSome = true) :
    (template.outcome options).replacements =
      if options.fastPath = true then
        (template.loneHits options.pattern).map fun hit => ⟨hit.selector, hit.loc⟩
      else [] := by
  unfold outcome loneHits
  revert keywords
  induction template.tags with
  | nil => simp
  | cons tag tags inductionHypothesis =>
      intro keywords
      have later := inductionHypothesis fun other member =>
        keywords other (List.mem_cons_of_mem _ member)
      have here := Tag.replacement_eq options (keywords tag List.mem_cons_self)
      simp only [List.flatMap_cons] at later ⊢
      rw [later, here]
      by_cases fast : options.fastPath = true
      · by_cases lone : (tag.candidates options.pattern).length = 1
        · simp [fast, lone, Tag.selectorHits_eq]
        · simp [fast, lone, Tag.selectorHits_eq]
      · simp [fast]

theorem hash_mapTags_promoted (keywords : ∀ tag ∈ template.tags, tag.hash.isSome = true) :
    ∀ tag ∈ (template.mapTags (Tag.promoted options)).tags, tag.hash.isSome = true := by
  rw [tags_mapTags, List.forall_mem_map]
  intro tag member
  exact Tag.hash_promoted options (keywords tag member)

theorem selectorHits_mapTags_promoted (keywords : ∀ tag ∈ template.tags, tag.hash.isSome = true) :
    (template.mapTags (Tag.promoted options)).selectorHits options.pattern = [] := by
  rw [selectorHits_eq_nil_iff, tags_mapTags, List.forall_mem_map]
  intro tag member
  exact Tag.candidates_promoted options (keywords tag member)

variable {options}

theorem outcome_eq_unchanged (found : template.selectorHits options.pattern = []) :
    template.outcome options = .unchanged := by
  have none := (selectorHits_eq_nil_iff options.pattern).mp found
  have changes : ∀ tag ∈ template.tags, tag.change options = ⟨false, Option.none⟩ :=
    fun tag member => Tag.change_eq_none (none tag member)
  have unchanged : (template.tags.any fun tag => (tag.change options).changed) = false := by
    rw [List.any_eq_false]
    intro tag member
    simp [changes tag member]
  have nothing :
      (template.tags.flatMap fun tag => (tag.change options).replacement.toList) = [] := by
    rw [List.flatMap_eq_nil_iff]
    intro tag member
    simp [changes tag member]
  rw [outcome, unchanged, nothing]
  rfl

/-- Without a selector the rule does nothing. -/
theorem promote_eq_self (keywords : ∀ tag ∈ template.tags, tag.hash.isSome = true)
    (found : template.selectorHits options.pattern = []) :
    template.promote options = (template, .ok .unchanged) := by
  have none := (selectorHits_eq_nil_iff options.pattern).mp found
  rw [promote_eq options keywords, outcome_eq_unchanged found,
    template.mapTags_eq_self fun tag member => Tag.promoted_eq_self (none tag member)]

/-- A promotion changes a template exactly when a selector is found in it, leaves none to be
found, reports the lone ones if they are to be patched, and is complete after one pass. -/
theorem promote_settles (options : PromoteOptions) (template : Template)
    (keywords : ∀ tag ∈ template.tags, tag.hash.isSome = true) :
    ∃ promoted outcome, template.promote options = (promoted, .ok outcome) ∧
      (outcome.changed = true ↔ template.selectorHits options.pattern ≠ []) ∧
      promoted.selectorHits options.pattern = [] ∧
      (outcome.replacements.map fun replacement => (replacement.selector, replacement.loc)) =
        (if options.fastPath = true then template.loneHits options.pattern else []).map
          (fun hit => (hit.selector, hit.loc)) ∧
      ∀ fastPath, promoted.promote ⟨options.pattern, fastPath⟩ = (promoted, .ok .unchanged) := by
  have settled := selectorHits_mapTags_promoted options keywords
  refine ⟨_, _, promote_eq options keywords, outcome_changed_iff options keywords, settled, ?_, ?_⟩
  · rw [outcome_replacements options keywords]
    split
    · simp
    · rfl
  · intro fastPath
    exact promote_eq_self (hash_mapTags_promoted options keywords) settled

/-- A mustache with a lone selector and a block with two of them, one on each side of another
argument. -/
def threeSelectors : Template :=
  let param (name : String) : Param := .ofValue (.path (.ofText name.toList))
  let tag (name : String) (params : List Param) : Tag :=
    { Tag.ofCallee ['{', '{'] (.path (.ofText name.toList)) ['}', '}'] with params := params }
  { body := [.block {
      opening := tag "#box" [param "data-test-a", param "wide", param "data-test-b"]
      program := [.mustache ⟨tag "field" [param "data-test-a"], false⟩]
      inverse := none
      close := some ⟨"\x7b\x7b/box\x7d\x7d".toList, "box".toList, .nowhere⟩
      loc := .nowhere }]
    loc := .nowhere }

theorem promote_settles_threeSelectors :
    (∀ tag ∈ threeSelectors.tags, tag.hash.isSome = true) ∧
      threeSelectors.selectorHits .default ≠ [] ∧
      ∃ promoted outcome, threeSelectors.promote .default = (promoted, .ok outcome) ∧
        (outcome.changed = true ↔ threeSelectors.selectorHits .default ≠ []) ∧
        promoted.selectorHits .default = [] ∧
        (outcome.replacements.map fun replacement => (replacement.selector, replacement.loc)) =
          (threeSelectors.loneHits .default).map (fun hit => (hit.selector, hit.loc)) ∧
        ∀ fastPath, promoted.promote ⟨.default, fastPath⟩ = (promoted, .ok .unchanged) := by
  have keywords : ∀ tag ∈ threeSelectors.tags, tag.hash.isSome = true := by
    decide +kernel
  exact ⟨keywords, by decide +kernel, promote_settles .default threeSelectors keywords⟩

end Template

end TemplateSelectors
