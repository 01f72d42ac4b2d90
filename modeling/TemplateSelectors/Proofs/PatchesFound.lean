import TemplateSelectors.Proofs.SparedTags

/-!
# No patch is lost

A patch for which no free occurrence is left is dropped without a word.  That never happens to a
selector that is a token: it stands between white space in a tag that is printed as it was read, so
the printed text holds at least as many tokens of its spelling as there are patches for it, and
every patch takes away but one.
-/

set_option autoImplicit false

namespace TemplateSelectors

namespace Patch

theorem count_tokens_flatten {needle : Text} (nonempty : needle ≠ []) {pieces : List Text}
    (parted : AllParted pieces) :
    (tokens pieces.flatten).count needle = (pieces.flatMap tokens).count needle := by
  induction pieces with
  | nil =>
      rw [List.flatten_nil, tokens_nil, List.flatMap_nil, List.count_nil, List.count_eq_zero,
        List.mem_singleton]
      exact nonempty
  | cons piece pieces inductionHypothesis =>
      obtain ⟨apart, others⟩ := parted
      rw [List.flatten_cons, count_tokens_append nonempty apart, inductionHypothesis others,
        List.flatMap_cons, List.count_append]

theorem size_patchOne {needle text : Text} (token : Token needle) (member : needle ∈ tokens text) :
    (patchOne text needle).size = text.size + trueSuffix.size := by
  obtain ⟨before, behind, rfl, patched, _⟩ := patchOne_of_mem token member
  rw [patched]
  simp only [Text.size_append]
  omega

theorem unpatched_cons {needle text : Text} (token : Token needle) (member : needle ∈ tokens text)
    (selectors : List Text) :
    unpatched text (needle :: selectors) = unpatched (patchOne text needle) selectors := by
  cases found : splitFree needle text with
  | none => exact absurd member ((splitFree_eq_none_iff token).mp found)
  | some halves => simp only [unpatched, patchOne, found]

/-- Every patch finds its place if each selector is a token of the text as often as it is to be
patched. -/
theorem unpatched_eq_nil {text : Text} {selectors : List Text}
    (sought : ∀ selector ∈ selectors, Token selector)
    (enough : ∀ selector ∈ selectors, selectors.count selector ≤ (tokens text).count selector) :
    unpatched text selectors = [] ∧
      (patchAll text selectors).size = text.size + trueSuffix.size * selectors.length := by
  induction selectors generalizing text with
  | nil => exact ⟨rfl, rfl⟩
  | cons first selectors inductionHypothesis =>
      rw [List.forall_mem_cons] at sought
      obtain ⟨token, others⟩ := sought
      have here : first ∈ tokens text := by
        have bound := enough first List.mem_cons_self
        rw [List.count_cons_self] at bound
        exact List.count_pos_iff.mp (by omega)
      -- the patch has taken one token away, of its own spelling
      have left : ∀ selector ∈ selectors,
          selectors.count selector ≤ (tokens (patchOne text first)).count selector := by
        intro selector member
        have bound := enough selector (List.mem_cons_of_mem _ member)
        rw [count_patchOne token (others selector member)]
        by_cases same : first = selector
        · subst same
          rw [List.count_cons_self] at bound
          rw [if_pos rfl]
          omega
        · rw [List.count_cons_of_ne same] at bound
          rw [if_neg same]
          omega
      obtain ⟨none, grown⟩ := inductionHypothesis others left
      rw [unpatched_cons token here]
      refine ⟨none, ?_⟩
      have run : patchAll text (first :: selectors) =
          patchAll (patchOne text first) selectors := rfl
      rw [run, grown, size_patchOne token here, List.length_cons, Nat.mul_succ]
      omega

end Patch

open Patch

/-! ## The tokens of a template -/

theorem Tag.exists_around {pattern : SelectorPattern} {tag : Tag} (stands : tag.StandsFor tag)
    (delimited : tag.Delimited) {candidate : Param} (lone : tag.candidates pattern = [candidate]) :
    ∃ before behind, tag.print = before ++ (candidate.value.print ++ behind) ∧
      LooseEnd before ∧ LooseStart behind := by
  have member : candidate ∈ tag.params := by
    have found : candidate ∈ tag.candidates pattern := by simp [lone]
    exact (List.mem_filter.mp found).1
  obtain ⟨front, back, params⟩ := List.append_of_mem member
  have gaps : ∀ param ∈ tag.params, TagBody.Gap param.leading :=
    fun param listed => (stands.wellFormed.params param listed).1
  have opening : WallEnd (tag.front ++ printParams front ++ candidate.leading) :=
    wallEnd_of_gap (gaps candidate member) _
  have closing : WallStart (printParams back ++ tag.rear) := by
    refine (wallStart_printParams ?_).append (wallStart_rear stands.wellFormed delimited)
    intro param listed
    exact gaps param (by simp [params, listed])
  refine ⟨_, _, ?_, fun c last => isTokenChar_of_isWall (opening c last),
    fun c head => isTokenChar_of_isWall (closing c head)⟩
  rw [stands.printed, printParts_eq_front, params, printParams_append]
  simp [printParams, Param.print_eq]

theorem Leaf.Found.count_patches_le {index : LineIndex} {start : Nat} {leaf : Leaf}
    (found : leaf.Found index start) (pattern : SelectorPattern) {needle : Text}
    (token : Token needle) :
    ((Leaf.tags [leaf]).flatMap (Tag.patches pattern)).count needle ≤
      (tokens (leaf.promotedText pattern)).count needle := by
  cases found with
  | words braced => exact Nat.zero_le _
  | modifier braced => exact Nat.zero_le _
  | @invocation tag opener body closer read delimited =>
      have stands := Tag.standsFor_of_read read
      obtain ⟨hash, keywords⟩ := Option.isSome_iff_exists.mp stands.wellFormed.keywords
      simp only [Leaf.tags_invocation, Leaf.tags_nil, List.flatMap_cons, List.flatMap_nil,
        List.append_nil]
      rcases Tag.settled_cases pattern keywords with
        ⟨_, patches, _⟩ | ⟨candidate, lone, patches, _⟩ | ⟨patches, _⟩
      · rw [patches]
        exact Nat.zero_le _
      · rw [patches, Leaf.promotedText, Leaf.mapTag, Leaf.print,
          Tag.print_promoted_of_lone read lone, List.count_singleton]
        split
        · next same =>
            obtain ⟨before, behind, text, left, right⟩ := Tag.exists_around stands delimited lone
            rw [text, beq_iff_eq.mp same]
            exact List.count_pos_iff.mpr (mem_tokens_of_free token left right)
        · exact Nat.zero_le _
      · rw [patches]
        exact Nat.zero_le _

/-- The text that is printed for the items of a source holds every selector that is left to be
patched as often as it is to be patched. -/
theorem Item.Scans.count_patches_le {index : LineIndex} {markup : Markup} {start : Nat}
    {source : Text} {items : List Item} (scans : Scans index markup start source items)
    (pattern : SelectorPattern) {needle : Text} (token : Token needle) :
    ((Leaf.tags (items.flatMap leaves)).flatMap (Tag.patches pattern)).count needle ≤
      (((items.flatMap leaves).map (Leaf.promotedText pattern)).flatMap tokens).count needle := by
  induction scans with
  | @last markup start source chars run =>
      rw [tags_ofText]
      exact Nat.zero_le _
  | @lexeme markup markup' start source chars behind rest lexeme item items run read made more
      inductionHypothesis =>
      obtain ⟨leaf, single, _, found⟩ :=
        (ofLexeme_eq_ok_iff.mp made).exists_leaf (Lexeme.reads_of_read read)
      have here := found.count_patches_le pattern token
      simp only [List.flatMap_append, List.flatMap_cons, single, Leaf.tags_append, tags_ofText,
        List.nil_append, List.map_append, List.map_cons, List.map_nil, List.flatMap_nil,
        List.append_nil, List.count_append] at here ⊢
      omega

namespace Template

variable {pattern : SelectorPattern} {source : Text} {template : Template}

theorem count_loneSelectors_le (parsed : parse source = .ok template) {needle : Text}
    (token : Token needle) :
    (template.loneSelectors pattern).count needle ≤
      (tokens (template.mapTags (Tag.promoted ⟨pattern, true⟩)).print).count needle := by
  obtain ⟨items, scans, derived⟩ := items_of_parse parsed
  have bound := scans.count_patches_le pattern token
  rw [← leaves_of_items derived,
    ← count_tokens_flatten token.nonempty (allParted_promotedText pattern parsed),
    flatten_promotedText] at bound
  rw [← selectors_eq_loneSelectors parsed, selectors_replacements]
  exact bound

end Template

/-- Where the selectors that are to be patched are tokens, every patch finds a free occurrence, and
the printed template grows by one `=true` for each. -/
theorem migrateSource_patches_all (options : PromoteOptions) {source : Text} {template : Template}
    (parsed : Template.parse source = .ok template)
    (inside : options.fastPath = true → ∀ hit ∈ template.loneHits options.pattern,
      ∀ c ∈ hit.selector, isTokenChar c = true) :
    ∃ promoted result, template.promote options = (promoted, .ok result.outcome) ∧
      migrateSource options source = .ok result ∧
      unpatched promoted.print (result.outcome.replacements.map Replacement.selector) = [] ∧
      result.output.size = promoted.print.size + 5 * result.outcome.replacements.length := by
  have keywords := Template.keywords_of_parse parsed
  by_cases settled : template.selectorHits options.pattern = []
  · refine ⟨_, _, Template.promote_eq_self keywords settled,
      migrateSource_of_settled parsed options settled, rfl, ?_⟩
    rw [← Template.print_leaves, Template.printAll_leaves_of_parse parsed]
    rfl
  · obtain ⟨changed, migrated⟩ := migrateSource_of_found parsed options settled
    refine ⟨_, _, Template.promote_eq options keywords, migrated, ?_⟩
    obtain ⟨pattern, fastPath⟩ := options
    cases fastPath with
    | false =>
        simp only [Template.outcome_replacements _ keywords]
        exact ⟨rfl, rfl⟩
    | true =>
        have sought : ∀ selector ∈ template.loneSelectors pattern, Token selector := by
          intro selector member
          obtain ⟨hit, found, rfl⟩ := List.mem_map.mp member
          exact Template.token_of_loneHits parsed (inside rfl) hit found
        obtain ⟨none, grown⟩ := unpatched_eq_nil sought fun selector member =>
          Template.count_loneSelectors_le parsed (sought selector member)
        have names := @Template.selectors_eq_loneSelectors pattern _ _ parsed
        rw [← names, List.length_map] at grown
        rw [← names] at none
        exact ⟨none, grown⟩

/-- A selector that stands alone in two tags, between other arguments, and beside another selector
in a third. -/
def crowdedTags : Text :=
  "\x7b\x7bf t x\x7d\x7dt \x7b\x7bg t t/a\x7d\x7d\x7b\x7bh y t z=1\x7d\x7d".toList

theorem migrateSource_patches_all_crowdedTags :
    ∃ template promoted result, Template.parse crowdedTags = .ok template ∧
      template.loneSelectors letterPattern = [['t'], ['t']] ∧
      template.promote ⟨letterPattern, true⟩ = (promoted, .ok result.outcome) ∧
      migrateSource ⟨letterPattern, true⟩ crowdedTags = .ok result ∧
      unpatched promoted.print (result.outcome.replacements.map Replacement.selector) = [] ∧
      result.output.size = promoted.print.size + 5 * result.outcome.replacements.length := by
  have facts : ((Template.parse crowdedTags).toOption.map fun template =>
      template.loneSelectors letterPattern) = some [['t'], ['t']] := by
    cbv
  obtain ⟨template, parsed, selectors⟩ := Template.exists_parse_of_map facts
  have inside : ∀ hit ∈ template.loneHits letterPattern,
      ∀ c ∈ hit.selector, isTokenChar c = true := by
    intro hit member
    have listed : hit.selector ∈ template.loneSelectors letterPattern :=
      List.mem_map_of_mem member
    rw [selectors, List.mem_cons, List.mem_singleton, or_self] at listed
    rw [listed]
    exact List.all_eq_true.mp (by cbv)
  obtain ⟨promoted, result, promotes, migrated, none, grown⟩ :=
    migrateSource_patches_all ⟨letterPattern, true⟩ parsed fun _ => inside
  exact ⟨template, promoted, result, parsed, selectors, promotes, migrated, none, grown⟩

end TemplateSelectors
