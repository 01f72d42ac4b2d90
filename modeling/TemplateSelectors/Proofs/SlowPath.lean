import Mathlib
import TemplateSelectors.Migration
import TemplateSelectors.Proofs.PromotedTag

/-!
# Migrating by writing tags anew

When no selector is left to be patched, the output of a migration is the print of the promoted
template.  It is read as that template, no selector is found in it, and it is not changed again.
-/

set_option autoImplicit false

namespace TemplateSelectors

namespace Tag

theorem candidates_bare (pattern : SelectorPattern) (tag : Tag) :
    tag.bare.candidates pattern = (tag.candidates pattern).map Param.bare := by
  simp only [candidates, bare, bareParams_eq, List.filter_map]
  refine congrArg (List.map Param.bare) (List.filter_congr ?_)
  intro param _
  exact pattern.isSelector_bare param

end Tag

namespace Template

theorem selectorHits_eq_nil_of_bare {pattern : SelectorPattern} {template other : Template}
    (same : other.bare = template.bare) (settled : template.selectorHits pattern = []) :
    other.selectorHits pattern = [] := by
  rw [selectorHits_eq_nil_iff] at settled ⊢
  have tags : other.tags.map Tag.bare = template.tags.map Tag.bare := by
    rw [← tags_bare, ← tags_bare, same]
  intro tag member
  have inside : tag.bare ∈ template.tags.map Tag.bare := by
    rw [← tags]
    exact List.mem_map_of_mem member
  obtain ⟨origin, found, alike⟩ := List.mem_map.mp inside
  have none := congrArg (Tag.candidates pattern) alike
  rw [Tag.candidates_bare, Tag.candidates_bare, settled origin found] at none
  simpa using none.symm

theorem keywords_of_parse {source : Text} {template : Template}
    (parsed : parse source = .ok template) : ∀ tag ∈ template.tags, tag.hash.isSome = true :=
  fun tag member => (standsFor_of_parse parsed tag member).wellFormed.keywords

end Template

theorem Template.namesOnly_of_selectorHits {pattern : SelectorPattern} {template : Template}
    (names : ∀ hit ∈ template.selectorHits pattern, ∀ c ∈ hit.selector, TagBody.isIdChar c = true) :
    ∀ tag ∈ template.tags, tag.NamesOnly pattern := by
  intro tag member candidate inside
  refine names ⟨candidate.value.print, candidate.loc⟩ ?_
  rw [Template.selectorHits_eq, List.mem_flatMap]
  refine ⟨tag, member, ?_⟩
  rw [Tag.selectorHits_eq]
  exact List.mem_map_of_mem inside

section

variable {source : Text} {template : Template} (parsed : Template.parse source = .ok template)
include parsed

theorem migrateSource_of_settled (options : PromoteOptions)
    (settled : template.selectorHits options.pattern = []) :
    migrateSource options source = .ok ⟨source, false, .unchanged⟩ := by
  have keywords := Template.keywords_of_parse parsed
  rw [migrateSource, parsed]
  simp only [Template.promote_eq_self keywords settled]
  simp [PromotionOutcome.unchanged]

/-- A source in which a selector is found is printed anew and patched where the rule has left
something to be patched. -/
theorem migrateSource_of_found (options : PromoteOptions)
    (found : template.selectorHits options.pattern ≠ []) :
    ∃ changed, migrateSource options source =
      .ok ⟨applyReplacements (template.mapTags (Tag.promoted options)).print
        (template.outcome options).replacements, changed, template.outcome options⟩ := by
  have keywords := Template.keywords_of_parse parsed
  have changed := (Template.outcome_changed_iff options keywords).mpr found
  rw [migrateSource, parsed]
  simp only [Template.promote_eq options keywords, changed, if_true]
  exact ⟨_, rfl⟩

theorem applyReplacements_slow (pattern : SelectorPattern) (text : Text) :
    applyReplacements text (template.outcome ⟨pattern, false⟩).replacements = text := by
  rw [Template.outcome_replacements _ (Template.keywords_of_parse parsed)]
  rfl

/-- A template that is printed with other tags in place of its own, none of which has a selector,
is read as that template and left alone by every migration. -/
theorem migrateSource_print_mapTags {pattern : SelectorPattern} {f : Tag → Tag}
    (stands : ∀ tag ∈ template.tags, (f tag).StandsFor tag)
    (names : ∀ tag, (f tag).name = tag.name)
    (none : ∀ tag ∈ template.tags, (f tag).candidates pattern = []) :
    ∃ reparsed, Template.parse (template.mapTags f).print = .ok reparsed ∧
      reparsed.bare = (template.mapTags f).bare ∧ reparsed.selectorHits pattern = [] ∧
      ∀ fastPath, migrateSource ⟨pattern, fastPath⟩ (template.mapTags f).print =
        .ok ⟨(template.mapTags f).print, false, .unchanged⟩ := by
  obtain ⟨reparsed, again, same⟩ := Template.parse_of_standsFor parsed stands names
  have clean : (template.mapTags f).selectorHits pattern = [] := by
    rw [Template.selectorHits_eq_nil_iff, Template.tags_mapTags, List.forall_mem_map]
    exact none
  have empty := Template.selectorHits_eq_nil_of_bare same clean
  exact ⟨reparsed, again, same, empty,
    fun fastPath => migrateSource_of_settled again ⟨pattern, fastPath⟩ empty⟩

end

/-- Where selectors are plain names, a migration that writes tags anew says what the promoted
template says: its output is read as that template, places apart, holds no selector, and is left
alone by every further migration. -/
theorem migrateSource_means_promoted (pattern : SelectorPattern) {source : Text}
    {template : Template} (parsed : Template.parse source = .ok template)
    (names : ∀ hit ∈ template.selectorHits pattern,
      ∀ c ∈ hit.selector, TagBody.isIdChar c = true) :
    ∃ result reparsed, migrateSource ⟨pattern, false⟩ source = .ok result ∧
      Template.parse result.output = .ok reparsed ∧
      reparsed.bare = (template.promote ⟨pattern, false⟩).1.bare ∧
      reparsed.selectorHits pattern = [] ∧
      ∀ fastPath, migrateSource ⟨pattern, fastPath⟩ result.output =
        .ok ⟨result.output, false, .unchanged⟩ := by
  have keywords := Template.keywords_of_parse parsed
  by_cases settled : template.selectorHits pattern = []
  · have unchanged : template.promote ⟨pattern, false⟩ = (template, .ok .unchanged) :=
      Template.promote_eq_self keywords settled
    refine ⟨⟨source, false, .unchanged⟩, template,
      migrateSource_of_settled parsed ⟨pattern, false⟩ settled, parsed, ?_, settled, ?_⟩
    · rw [unchanged]
    · exact fun fastPath => migrateSource_of_settled parsed ⟨pattern, fastPath⟩ settled
  · obtain ⟨changed, migrated⟩ := migrateSource_of_found parsed ⟨pattern, false⟩ settled
    have stands : ∀ tag ∈ template.tags, (tag.promoted ⟨pattern, false⟩).StandsFor tag :=
      fun tag member => Tag.standsFor_promoted (Template.standsFor_of_parse parsed tag member)
        (Template.namesOnly_of_selectorHits names tag member)
    obtain ⟨reparsed, again, same, empty, settled⟩ :=
      migrateSource_print_mapTags parsed stands (Tag.name_promoted ⟨pattern, false⟩)
        fun tag member => Tag.candidates_promoted ⟨pattern, false⟩ (keywords tag member)
    rw [applyReplacements_slow parsed] at migrated
    refine ⟨⟨_, changed, _⟩, reparsed, migrated, again, ?_, empty, settled⟩
    rw [Template.promote_eq _ keywords]
    exact same

/-- A block with two selectors, the first of which stands inside quotes to the eye of the scanner
but not to that of the grammar. -/
def straddledQuotes : Text :=
  "\x7b\x7b#f ['] t ['] tu\x7d\x7d\x7b\x7b/f\x7d\x7d".toList

def letterPattern : SelectorPattern :=
  ⟨['t'], .symbol (.single 116)⟩

theorem migrateSource_means_promoted_straddledQuotes :
    ∃ template, Template.parse straddledQuotes = .ok template ∧
      (template.selectorHits letterPattern).map SelectorHit.selector = [['t'], ['t', 'u']] ∧
      (∀ hit ∈ template.selectorHits letterPattern,
        ∀ c ∈ hit.selector, TagBody.isIdChar c = true) ∧
      ∃ result reparsed, migrateSource ⟨letterPattern, false⟩ straddledQuotes = .ok result ∧
        Template.parse result.output = .ok reparsed ∧
        reparsed.bare = (template.promote ⟨letterPattern, false⟩).1.bare ∧
        reparsed.selectorHits letterPattern = [] ∧
        ∀ fastPath, migrateSource ⟨letterPattern, fastPath⟩ result.output =
          .ok ⟨result.output, false, .unchanged⟩ := by
  have hits : ((Template.parse straddledQuotes).toOption.map fun template =>
      (template.selectorHits letterPattern).map SelectorHit.selector) =
        some [['t'], ['t', 'u']] := by
    cbv
  cases parsed : Template.parse straddledQuotes with
  | error error =>
      rw [parsed] at hits
      cases hits
  | ok template =>
      rw [parsed] at hits
      have selectors : (template.selectorHits letterPattern).map SelectorHit.selector =
          [['t'], ['t', 'u']] := Option.some.inj hits
      have names : ∀ hit ∈ template.selectorHits letterPattern,
          ∀ c ∈ hit.selector, TagBody.isIdChar c = true := by
        intro hit member
        have inside := List.mem_map_of_mem (f := SelectorHit.selector) member
        rw [selectors, List.mem_cons, List.mem_singleton] at inside
        rcases inside with same | same
        · rw [same]
          exact List.all_eq_true.mp rfl
        · rw [same]
          exact List.all_eq_true.mp rfl
      exact ⟨template, rfl, selectors, names,
        migrateSource_means_promoted letterPattern parsed names⟩

end TemplateSelectors
