import TemplateSelectors.Proofs.PathsAgree
import TemplateSelectors.Proofs.PromotionReach

/-!
# The text of a migration that writes tags anew

When nothing is left to be patched, the output of a migration is told leaf by leaf: the tag of a
mustache or block that has selectors is put together from its parts, with the selectors behind the
other positional arguments, and every other leaf is copied from the source.
-/

set_option autoImplicit false

namespace TemplateSelectors

namespace Tag

variable {pattern : SelectorPattern} {tag : Tag}

/-- The selectors of a tag as keyword arguments.  The only positional argument keeps the white space
before it; otherwise there is one space. -/
def selectorText (pattern : SelectorPattern) (tag : Tag) : Text :=
  (tag.candidates pattern).flatMap fun candidate =>
    (if tag.params.length = 1 then candidate.leading else [' ']) ++ candidate.value.print ++
      trueSuffix

def textAnew (pattern : SelectorPattern) (tag : Tag) : Text :=
  tag.opener ++ tag.leading ++ tag.callee.print ++ printParams (tag.kept pattern) ++
    tag.selectorText pattern ++ printPairs tag.pairs ++ tag.blockParams.getD [] ++ tag.trailing ++
    tag.closer

theorem printPairs_map_pair (pairOf : Param → HashPair) {spaceOf : Param → Text}
    (promotes : ∀ candidate, (pairOf candidate).Promotes candidate)
    (leading : ∀ candidate, (pairOf candidate).leading = spaceOf candidate)
    (candidates : List Param) :
    printPairs (candidates.map pairOf) =
      candidates.flatMap fun candidate =>
        spaceOf candidate ++ candidate.value.print ++ trueSuffix := by
  induction candidates with
  | nil => rfl
  | cons candidate candidates inductionHypothesis =>
      rw [List.map_cons, printPairs, (promotes candidate).print, leading, inductionHypothesis,
        List.flatMap_cons]
      simp only [List.append_assoc]

theorem printPairs_selectors (pattern : SelectorPattern) (tag : Tag) :
    printPairs ((tag.candidates pattern).map
      (if tag.params.length = 1 then solePair else selectorPair)) = tag.selectorText pattern := by
  unfold selectorText
  split
  · exact printPairs_map_pair solePair HashPair.promotes_solePair (fun _ => rfl) _
  · exact printPairs_map_pair selectorPair HashPair.promotes_selectorPair (fun _ => rfl) _

theorem print_promoted_slow (keywords : tag.hash.isSome = true)
    (some : tag.candidates pattern ≠ []) :
    (tag.promoted ⟨pattern, false⟩).print = tag.textAnew pattern := by
  obtain ⟨hash, same⟩ := Option.isSome_iff_exists.mp keywords
  have written : printPairs (tag.withPairs pattern hash).pairs =
      tag.selectorText pattern ++ printPairs tag.pairs := by
    calc
      printPairs (tag.withPairs pattern hash).pairs
        = printPairs (hash.promote (tag.params.length == 1) (tag.candidates pattern)).pairs := rfl
      _ = tag.selectorText pattern ++ printPairs hash.pairs := by
          rw [pairs_promote, printPairs_append, printPairs_selectors]
      _ = tag.selectorText pattern ++ printPairs tag.pairs := by
          rw [pairs, same, Option.map_some, Option.getD_some]
  calc
    (tag.promoted ⟨pattern, false⟩).print
      = (tag.withPairs pattern hash).printParts := by
        rw [promoted_slow same some]
        rfl
    _ = tag.textAnew pattern := by
        rw [printParts, print_hash, written]
        simp only [withPairs, textAnew, List.append_assoc]

end Tag

/-- The text of a leaf after a migration that writes tags anew. -/
def Leaf.textAnew (pattern : SelectorPattern) : Leaf → Text
  | .words text => text
  | .modifier tag => tag.print
  | .invocation tag =>
      if (tag.candidates pattern).isEmpty = true then tag.print else tag.textAnew pattern

theorem Leaf.print_mapTag_promoted {pattern : SelectorPattern} {leaf : Leaf}
    (keywords : ∀ tag, leaf.tag? = some tag → tag.hash.isSome = true) :
    (leaf.mapTag (Tag.promoted ⟨pattern, false⟩)).print = leaf.textAnew pattern := by
  cases leaf with
  | words text => rfl
  | modifier tag => rfl
  | invocation tag =>
      rw [textAnew, mapTag, print]
      by_cases none : tag.candidates pattern = []
      · rw [Tag.promoted_eq_self none, if_pos (List.isEmpty_iff.mpr none)]
      · rw [Tag.print_promoted_slow (keywords tag rfl) none, if_neg (by simpa using none)]

namespace Template

variable {source : Text} {template : Template}

theorem print_parts_of_parse (parsed : Template.parse source = .ok template) :
    ∀ tag ∈ template.tags, tag.print =
      tag.opener ++ tag.leading ++ tag.callee.print ++ printParams tag.params ++
        printPairs tag.pairs ++ tag.blockParams.getD [] ++ tag.trailing ++ tag.closer := by
  intro tag member
  rw [(standsFor_of_parse parsed tag member).printed, Tag.printParts, Tag.print_hash]

theorem print_mapTags_slow (pattern : SelectorPattern)
    (keywords : ∀ tag ∈ template.tags, tag.hash.isSome = true) :
    (template.mapTags (Tag.promoted ⟨pattern, false⟩)).print =
      template.leaves.flatMap (Leaf.textAnew pattern) := by
  rw [print_mapTags_leaves, Leaf.printAll, List.flatMap_map]
  apply List.flatMap_congr
  intro leaf inside
  apply Leaf.print_mapTag_promoted
  intro tag found
  exact keywords tag (List.mem_filterMap.mpr ⟨leaf, inside, found⟩)

end Template

/-- A migration that writes tags anew copies its source but for the tags of mustaches and blocks
that have selectors.  Such a tag is put together from the parts that its text is made of: kept
arguments first, then a keyword argument for each selector, then the keyword arguments that were
there. -/
theorem migrateSource_writes_tags (pattern : SelectorPattern) {source : Text} {template : Template}
    (parsed : Template.parse source = .ok template) :
    ∃ result, migrateSource ⟨pattern, false⟩ source = .ok result ∧
      source = template.leaves.flatMap Leaf.print ∧
      result.output = template.leaves.flatMap (Leaf.textAnew pattern) ∧
      ∀ tag ∈ template.tags, tag.print =
        tag.opener ++ tag.leading ++ tag.callee.print ++ printParams tag.params ++
          printPairs tag.pairs ++ tag.blockParams.getD [] ++ tag.trailing ++ tag.closer := by
  have whole : Leaf.printAll template.leaves = source := Template.printAll_leaves_of_parse parsed
  have anew := Template.print_mapTags_slow pattern (Template.keywords_of_parse parsed)
  have parts := Template.print_parts_of_parse parsed
  by_cases settled : template.selectorHits pattern = []
  · refine ⟨_, migrateSource_of_settled parsed ⟨pattern, false⟩ settled, whole.symm, ?_, parts⟩
    have none := (Template.selectorHits_eq_nil_iff pattern).mp settled
    rw [← anew, template.mapTags_eq_self fun tag member => Tag.promoted_eq_self (none tag member),
      ← Template.print_leaves, whole]
  · obtain ⟨changed, migrated⟩ := migrateSource_of_found parsed ⟨pattern, false⟩ settled
    rw [applyReplacements_slow parsed] at migrated
    exact ⟨_, migrated, whole.symm, anew, parts⟩

/-- A selector before another argument in a block, an only argument on a line of its own in its
program, and two selectors before a pair in the chain behind; a modifier that spells one of them. -/
def nestedSelectors : Text :=
  ("\x7b\x7b#f t  a\x7d\x7d\x7b\x7bg\n tu\x7d\x7d\x7b\x7belse if tp\ttq k=1\x7d\x7d" ++
    "<i \x7b\x7bm t\x7d\x7d>\x7b\x7b/f\x7d\x7d").toList

theorem migrateSource_writes_tags_nestedSelectors :
    ∃ template result, Template.parse nestedSelectors = .ok template ∧
      migrateSource ⟨letterPattern, false⟩ nestedSelectors = .ok result ∧
      nestedSelectors = template.leaves.flatMap Leaf.print ∧
      result.output = template.leaves.flatMap (Leaf.textAnew letterPattern) ∧
      result.output =
        ("\x7b\x7b#f  a t=true\x7d\x7d\x7b\x7bg\n tu=true\x7d\x7d" ++
          "\x7b\x7belse if tp=true tq=true k=1\x7d\x7d" ++
          "<i \x7b\x7bm t\x7d\x7d>\x7b\x7b/f\x7d\x7d").toList := by
  have facts : ((Template.parse nestedSelectors).toOption.map fun template =>
      template.leaves.flatMap (Leaf.textAnew letterPattern)) =
        some ("\x7b\x7b#f  a t=true\x7d\x7d\x7b\x7bg\n tu=true\x7d\x7d" ++
          "\x7b\x7belse if tp=true tq=true k=1\x7d\x7d" ++
          "<i \x7b\x7bm t\x7d\x7d>\x7b\x7b/f\x7d\x7d").toList := by
    cbv
  obtain ⟨template, parsed, text⟩ := Template.exists_parse_of_map facts
  obtain ⟨result, migrated, whole, output, _⟩ := migrateSource_writes_tags letterPattern parsed
  exact ⟨template, result, parsed, migrated, whole, output, by rw [output, text]⟩

end TemplateSelectors
