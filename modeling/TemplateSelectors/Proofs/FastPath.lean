import Mathlib
import TemplateSelectors.Proofs.Patching
import TemplateSelectors.Proofs.SlowPath

/-!
# Migrating by patching lone selectors

A migration that patches goes by the text of a selector alone.  It is complete if the first text
that spells a lone selector is always a selector itself; text outside of tags that spells one
takes the patch.
-/

set_option autoImplicit false

namespace TemplateSelectors

open Patch (Place)

theorem Text.forall_occurrence_iff {needle source : Text} {P : Text → Text → Prop} :
    (∀ before behind, source = before ++ (needle ++ behind) → P before behind) ↔
      ∀ count ∈ List.range (source.length + 1),
        ∀ behind ∈ Text.after? needle (source.drop count), P (source.take count) behind := by
  constructor
  · intro all count _ behind found
    have split := Text.eq_append_of_after? (Option.mem_def.mp found)
    refine all (source.take count) behind ?_
    rw [← split, List.take_append_drop]
  · intro checked before behind split
    have taken : source.take before.length = before := by
      rw [split, List.take_left]
    have dropped : source.drop before.length = needle ++ behind := by
      rw [split, List.drop_left]
    have inRange : before.length ∈ List.range (source.length + 1) := by
      rw [List.mem_range, split]
      simp only [List.length_append]
      omega
    have found : behind ∈ Text.after? needle (source.drop before.length) := by
      rw [dropped, Option.mem_def]
      exact Text.after?_append needle behind
    have here := checked before.length inRange behind found
    rw [taken] at here
    exact here

theorem SelectorHit.leads_iff {source : Text} {hits : List SelectorHit} {hit : SelectorHit} :
    hit.Leads source hits ↔
      ∀ count ∈ List.range (source.length + 1),
        ∀ behind ∈ Text.after? hit.selector (source.drop count),
          Patch.isFree (source.take count).getLast? behind.head? = true →
          ((LineIndex.ofText source).position (Text.size (source.take count))).compare
            hit.loc.start = .lt →
          ⟨hit.selector, (LineIndex.ofText source).sourceSpan
            ⟨Text.size (source.take count),
              Text.size (source.take count) + hit.selector.size⟩⟩ ∈ hits :=
  Text.forall_occurrence_iff

instance (source : Text) (hits : List SelectorHit) (hit : SelectorHit) :
    Decidable (hit.Leads source hits) :=
  decidable_of_iff _ SelectorHit.leads_iff.symm

theorem Leaf.mapTag_id : mapTag id = id := by
  funext leaf
  cases leaf with
  | words text => rfl
  | modifier tag => rfl
  | invocation tag => rfl

theorem Leaf.printAll_mapTag_congr {f g : Tag → Tag} {leaves : List Leaf}
    (same : ∀ tag ∈ tags leaves, (f tag).print = (g tag).print) :
    printAll (leaves.map (mapTag f)) = printAll (leaves.map (mapTag g)) := by
  induction leaves with
  | nil => rfl
  | cons leaf leaves inductionHypothesis =>
      cases leaf with
      | words text => simp [mapTag, inductionHypothesis same]
      | modifier tag => simp [mapTag, inductionHypothesis same]
      | invocation tag =>
          rw [tags_invocation, List.forall_mem_cons] at same
          simp [mapTag, print, same.1, inductionHypothesis same.2]

namespace Template

variable {pattern : SelectorPattern} {source : Text} {template : Template}

theorem selectors_replacements (pattern : SelectorPattern) (template : Template) :
    (template.outcome ⟨pattern, true⟩).replacements.map Replacement.selector =
      template.tags.flatMap (Tag.patches pattern) := by
  rw [outcome, List.map_flatMap]
  rfl

theorem needle_of_names (parsed : parse source = .ok template)
    (names : ∀ hit ∈ template.selectorHits pattern, ∀ c ∈ hit.selector, TagBody.isIdChar c = true) :
    ∀ hit ∈ template.loneHits pattern, Patch.Needle hit.selector := by
  intro hit found
  obtain ⟨tag, member, candidate, lone, rfl⟩ := mem_loneHits_iff.mp found
  have wellFormed := (standsFor_of_parse parsed tag member).wellFormed
  have named := namesOnly_of_selectorHits names tag member
  exact .of_identifier (Tag.identifier_of_namesOnly wellFormed named (by simp [lone])).2

theorem patchable_of_leads
    (needles : ∀ hit ∈ template.loneHits pattern, Patch.Needle hit.selector)
    (last : ∀ tag ∈ template.tags, ∀ candidate, tag.candidates pattern = [candidate] →
      tag.params.getLast? = some candidate)
    (leads : ∀ hit ∈ template.loneHits pattern,
      hit.Leads source (template.selectorHits pattern)) :
    ∀ tag ∈ template.tags, tag.Patchable pattern source (template.selectorHits pattern) := by
  intro tag member
  have listed : ∀ candidate, tag.candidates pattern = [candidate] →
      ⟨candidate.value.print, candidate.loc⟩ ∈ template.loneHits pattern :=
    fun candidate lone => mem_loneHits_iff.mpr ⟨tag, member, candidate, lone, rfl⟩
  refine ⟨fun candidate lone => needles _ (listed candidate lone), last tag member, ?_⟩
  intro alone hit found
  obtain ⟨candidate, lone⟩ := List.length_eq_one_iff.mp alone
  rw [Tag.selectorHits_eq, lone, List.map_singleton, List.mem_singleton] at found
  subst found
  exact leads _ (listed candidate lone)

theorem applyReplacements_promoted (parsed : parse source = .ok template)
    (patchable : ∀ tag ∈ template.tags,
      tag.Patchable pattern source (template.selectorHits pattern)) :
    applyReplacements (template.mapTags (Tag.promoted ⟨pattern, true⟩)).print
        (template.outcome ⟨pattern, true⟩).replacements =
      (template.mapTags (Tag.settled pattern)).print := by
  obtain ⟨items, scans, derived⟩ := items_of_parse parsed
  have leaves := leaves_of_items derived
  have inside : ∀ place ∈ leafPlaces pattern template.leaves, place.In source := by
    have within := leafPlaces_in pattern (standsFor_of_parse parsed)
    rw [printAll_leaves_of_parse parsed] at within
    exact within
  have hits : template.selectorHits pattern = (leafPlaces pattern template.leaves).map
      (Place.hit (LineIndex.ofText source)) := by
    have found := Item.hits_of_scans pattern scans
    rw [← leaves, Place.shift_zero, List.map_id] at found
    rw [selectorHits_eq]
    exact found
  rw [applyReplacements, selectors_replacements, print_mapTags_leaves, print_mapTags_leaves, tags]
  rw [hits, tags] at patchable
  rw [leaves] at inside patchable ⊢
  refine scans.patchAll_promoted inside patchable .nil rfl rfl ?_
  rw [Place.shift_zero, List.map_id, List.nil_append]

theorem print_promoted_of_few (parsed : parse source = .ok template) {tag : Tag}
    (member : tag ∈ template.tags) (few : (tag.candidates pattern).length ≤ 1) :
    (tag.promoted ⟨pattern, true⟩).print = tag.print := by
  obtain ⟨_, _, _, _, _, read⟩ :=
    exists_read_of_parse parsed tag (Leaf.mem_everyTag_of_mem_tags member)
  cases found : tag.candidates pattern with
  | nil => rw [Tag.promoted_eq_self found]
  | cons candidate others =>
      rw [found, List.length_cons] at few
      have alone : others = [] := List.eq_nil_of_length_eq_zero (by omega)
      subst alone
      exact Tag.print_promoted_of_lone read found

/-- Where no tag has two selectors, the promoted template is printed as it was read. -/
theorem print_mapTags_promoted (parsed : parse source = .ok template)
    (few : ∀ tag ∈ template.tags, (tag.candidates pattern).length ≤ 1) :
    (template.mapTags (Tag.promoted ⟨pattern, true⟩)).print = source := by
  have same : Leaf.printAll (template.leaves.map (Leaf.mapTag (Tag.promoted ⟨pattern, true⟩))) =
      Leaf.printAll (template.leaves.map (Leaf.mapTag id)) :=
    Leaf.printAll_mapTag_congr fun tag member => print_promoted_of_few parsed member (few tag member)
  rw [print_mapTags_leaves, same, Leaf.mapTag_id, List.map_id, printAll_leaves_of_parse parsed]

theorem applyReplacements_of_few (parsed : parse source = .ok template)
    (few : ∀ tag ∈ template.tags, (tag.candidates pattern).length ≤ 1) :
    applyReplacements (template.mapTags (Tag.promoted ⟨pattern, true⟩)).print
        (template.outcome ⟨pattern, true⟩).replacements =
      Patch.patchAll source ((template.loneHits pattern).map SelectorHit.selector) := by
  have replacements := outcome_replacements ⟨pattern, true⟩ (keywords_of_parse parsed)
  rw [applyReplacements, print_mapTags_promoted parsed few, replacements, if_pos rfl, List.map_map]
  rfl

end Template

/-- A migration that patches succeeds on every template.  Where selectors are plain names, a lone
one is the last positional argument of its tag and the only texts that spell it before are
selectors too, the output is read again, holds no selector, and is left alone by every further
migration. -/
theorem migrateSource_finishes (pattern : SelectorPattern) {source : Text} {template : Template}
    (parsed : Template.parse source = .ok template) :
    ∃ result, migrateSource ⟨pattern, true⟩ source = .ok result ∧
      ((∀ hit ∈ template.selectorHits pattern, ∀ c ∈ hit.selector, TagBody.isIdChar c = true) →
        (∀ tag ∈ template.tags, ∀ candidate, tag.candidates pattern = [candidate] →
          tag.params.getLast? = some candidate) →
        (∀ hit ∈ template.loneHits pattern,
          hit.Leads source (template.selectorHits pattern)) →
        ∃ reparsed, Template.parse result.output = .ok reparsed ∧
          reparsed.selectorHits pattern = [] ∧
          ∀ fastPath, migrateSource ⟨pattern, fastPath⟩ result.output =
            .ok ⟨result.output, false, .unchanged⟩) := by
  by_cases settled : template.selectorHits pattern = []
  · refine ⟨_, migrateSource_of_settled parsed ⟨pattern, true⟩ settled, ?_⟩
    intro _ _ _
    exact ⟨template, parsed, settled,
      fun fastPath => migrateSource_of_settled parsed ⟨pattern, fastPath⟩ settled⟩
  · obtain ⟨changed, migrated⟩ := migrateSource_of_found parsed ⟨pattern, true⟩ settled
    refine ⟨_, migrated, ?_⟩
    intro names last leads
    have needles := Template.needle_of_names parsed names
    have patchable := Template.patchable_of_leads needles last leads
    have named := Template.namesOnly_of_selectorHits names
    have read := Template.standsFor_of_parse parsed
    obtain ⟨reparsed, again, _, empty, alone⟩ :=
      migrateSource_print_mapTags parsed
        (fun tag member => Tag.standsFor_settled (read tag member) (named tag member))
        (Tag.name_settled pattern)
        (fun tag member => Tag.candidates_settled (read tag member).wellFormed)
    simp only [Template.applyReplacements_promoted parsed patchable]
    exact ⟨reparsed, again, empty, alone⟩

/-- Two mustaches with the same lone selector: what spells the second one before is the first. -/
def repeatedSelector : Text :=
  "\x7b\x7bf data-test-\x7d\x7d\x7b\x7bg data-test-\x7d\x7d".toList

theorem migrateSource_finishes_repeatedSelector :
    ∃ template result reparsed, Template.parse repeatedSelector = .ok template ∧
      (template.selectorHits .default).length = 2 ∧
      migrateSource .default repeatedSelector = .ok result ∧
      Template.parse result.output = .ok reparsed ∧ reparsed.selectorHits .default = [] ∧
      ∀ fastPath, migrateSource ⟨.default, fastPath⟩ result.output =
        .ok ⟨result.output, false, .unchanged⟩ := by
  have facts : ((Template.parse repeatedSelector).toOption.map fun template =>
      (template.selectorHits .default, template.loneHits .default,
        template.tags.map fun tag => tag.params.length)) =
      some ([⟨SelectorPattern.defaultStart, ⟨⟨1, 5⟩, ⟨1, 15⟩⟩⟩,
          ⟨SelectorPattern.defaultStart, ⟨⟨1, 21⟩, ⟨1, 31⟩⟩⟩],
        [⟨SelectorPattern.defaultStart, ⟨⟨1, 5⟩, ⟨1, 15⟩⟩⟩,
          ⟨SelectorPattern.defaultStart, ⟨⟨1, 21⟩, ⟨1, 31⟩⟩⟩], [1, 1]) := by
    cbv
  cases parsed : Template.parse repeatedSelector with
  | error error =>
      rw [parsed] at facts
      cases facts
  | ok template =>
      simp only [parsed, Except.toOption, Option.map_some, Option.some.injEq,
        Prod.mk.injEq] at facts
      obtain ⟨hits, lone, lengths⟩ := facts
      have names : ∀ hit ∈ template.selectorHits .default,
          ∀ c ∈ hit.selector, TagBody.isIdChar c = true := by
        rw [hits, List.forall_mem_cons, List.forall_mem_singleton]
        exact ⟨List.all_eq_true.mp rfl, List.all_eq_true.mp rfl⟩
      have last : ∀ tag ∈ template.tags, ∀ candidate, tag.candidates .default = [candidate] →
          tag.params.getLast? = some candidate := by
        intro tag member candidate alone
        have length : tag.params.length = 1 := by
          have inside := List.mem_map_of_mem (f := fun tag : Tag => tag.params.length) member
          rw [lengths] at inside
          simpa using inside
        obtain ⟨param, single⟩ := List.length_eq_one_iff.mp length
        have own : candidate ∈ tag.params :=
          (List.mem_filter.mp (alone ▸ List.mem_singleton_self candidate)).1
        rw [single, List.mem_singleton] at own
        rw [single, own]
        rfl
      have leads : ∀ hit ∈ template.loneHits .default,
          hit.Leads repeatedSelector (template.selectorHits .default) := by
        rw [lone, hits]
        decide +kernel
      obtain ⟨result, migrated, finishes⟩ := migrateSource_finishes .default parsed
      obtain ⟨reparsed, again, empty, alone⟩ := finishes names last leads
      exact ⟨template, result, reparsed, rfl, by rw [hits]; rfl, migrated, again, empty, alone⟩

theorem migrateSource_of_single (source selector : Text)
    (facts : ((Template.parse source).toOption.map fun template =>
      ((template.loneHits .default).map SelectorHit.selector,
        template.tags.map fun tag => (tag.candidates .default).length)) =
      some ([selector], [1])) :
    ∃ template result, Template.parse source = .ok template ∧
      migrateSource .default source = .ok result ∧
      result.output = Patch.patchAll source [selector] := by
  cases parsed : Template.parse source with
  | error error =>
      rw [parsed] at facts
      cases facts
  | ok template =>
      simp only [parsed, Except.toOption, Option.map_some, Option.some.injEq,
        Prod.mk.injEq] at facts
      obtain ⟨lone, lengths⟩ := facts
      have found : template.selectorHits .default ≠ [] := by
        intro none
        have empty := (Template.selectorHits_eq_nil_iff .default).mp none
        have one : 1 ∈ template.tags.map fun tag => (tag.candidates .default).length :=
          lengths ▸ List.mem_singleton_self 1
        obtain ⟨tag, member, length⟩ := List.mem_map.mp one
        rw [empty tag member] at length
        cases length
      have few : ∀ tag ∈ template.tags, (tag.candidates .default).length ≤ 1 := by
        intro tag member
        have inside := List.mem_map_of_mem (f := fun tag : Tag => (tag.candidates .default).length)
          member
        rw [lengths, List.mem_singleton] at inside
        exact Nat.le_of_eq inside
      obtain ⟨changed, migrated⟩ := migrateSource_of_found parsed ⟨.default, true⟩ found
      have patched := Template.applyReplacements_of_few parsed few
      rw [lone] at patched
      rw [patched] at migrated
      exact ⟨template, _, rfl, migrated, rfl⟩

/-- A comment that spells the selector of the mustache behind it. -/
def commentedSelector : Text :=
  "\x7b\x7b!data-test-\x7d\x7d\x7b\x7bf data-test-\x7d\x7d".toList

/-- The comment takes the patch, and the selector is found again in the output. -/
theorem migrateSource_commentedSelector :
    ∃ template result, Template.parse commentedSelector = .ok template ∧
      migrateSource .default commentedSelector = .ok result ∧
      result.output = "\x7b\x7b!data-test-=true\x7d\x7d\x7b\x7bf data-test-\x7d\x7d".toList ∧
      ¬∃ reparsed, Template.parse result.output = .ok reparsed ∧
        reparsed.selectorHits .default = [] ∧
        migrateSource .default result.output = .ok ⟨result.output, false, .unchanged⟩ := by
  obtain ⟨template, result, parsed, migrated, patched⟩ :=
    migrateSource_of_single commentedSelector SelectorPattern.defaultStart (by cbv)
  have output : Patch.patchAll commentedSelector [SelectorPattern.defaultStart] =
      "\x7b\x7b!data-test-=true\x7d\x7d\x7b\x7bf data-test-\x7d\x7d".toList := by
    cbv
  have left : ((Template.parse
      "\x7b\x7b!data-test-=true\x7d\x7d\x7b\x7bf data-test-\x7d\x7d".toList).toOption.map
        fun template => (template.selectorHits .default).length) = some 1 := by
    cbv
  rw [output] at patched
  refine ⟨template, result, parsed, migrated, patched, ?_⟩
  rw [patched]
  rintro ⟨reparsed, again, empty, _⟩
  simp only [again, Except.toOption, Option.map_some, empty] at left
  cases left

def dottedSelector : Text :=
  "\x7b\x7bf data-test-a.b\x7d\x7d".toList

/-- The names have to be single identifiers: a path of several is patched into what is no keyword
argument. -/
theorem migrateSource_dottedSelector :
    ∃ result, migrateSource .default dottedSelector = .ok result ∧
      result.output = "\x7b\x7bf data-test-a.b=true\x7d\x7d".toList ∧
      (Template.parse result.output).toOption = none := by
  obtain ⟨_, result, _, migrated, patched⟩ :=
    migrateSource_of_single dottedSelector "data-test-a.b".toList (by cbv)
  have output : Patch.patchAll dottedSelector ["data-test-a.b".toList] =
      "\x7b\x7bf data-test-a.b=true\x7d\x7d".toList := by
    cbv
  rw [output] at patched
  refine ⟨result, migrated, patched, ?_⟩
  rw [patched]
  cbv

def leadingSelector : Text :=
  "\x7b\x7bf data-test-x y\x7d\x7d".toList

/-- The selector has to be the last argument: it is patched where it stands, and no positional
argument may follow a keyword argument. -/
theorem migrateSource_leadingSelector :
    ∃ result, migrateSource .default leadingSelector = .ok result ∧
      result.output = "\x7b\x7bf data-test-x=true y\x7d\x7d".toList ∧
      (Template.parse result.output).toOption = none := by
  obtain ⟨_, result, _, migrated, patched⟩ :=
    migrateSource_of_single leadingSelector "data-test-x".toList (by cbv)
  have output : Patch.patchAll leadingSelector ["data-test-x".toList] =
      "\x7b\x7bf data-test-x=true y\x7d\x7d".toList := by
    cbv
  rw [output] at patched
  refine ⟨result, migrated, patched, ?_⟩
  rw [patched]
  cbv

end TemplateSelectors
