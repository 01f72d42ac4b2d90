import TemplateSelectors.Proofs.PathsAgree
import TemplateSelectors.Proofs.TokenPatches

/-!
# Tags that patches are not meant for

A patch goes by the text of a selector, and its place plays no part.  So a modifier, or a tag
without a positional selector of its own, takes a patch that was meant for a tag behind it, if it
spells the selector and the text before does not use up the patches.  Counting tokens tells
exactly which leaves of a template are spared.
-/

set_option autoImplicit false

namespace TemplateSelectors

open Patch (AllParted UsedUp)

def Leaf.Foreign (pattern : SelectorPattern) : Leaf → Prop
  | .words _ => True
  | .modifier _ => True
  | .invocation tag => tag.candidates pattern = []

def Leaf.modifierText? : Leaf → Option Text
  | .words _ => none
  | .modifier tag => some tag.print
  | .invocation _ => none

theorem Leaf.exists_modifier {leaves : List Leaf} {front back : List (Option Text)} {text : Text}
    (kinds : leaves.map modifierText? = front ++ some text :: back) :
    ∃ (before : List Leaf) (tag : Tag) (after : List Leaf),
      leaves = before ++ .modifier tag :: after ∧ before.length = front.length ∧
      tag.print = text := by
  obtain ⟨before, others, rfl, rfl, rest⟩ := List.map_eq_append_iff.mp kinds
  obtain ⟨leaf, after, rfl, same, _⟩ := List.map_eq_cons_iff.mp rest
  rw [List.length_map]
  cases leaf with
  | words words => cases same
  | modifier tag => exact ⟨before, tag, after, rfl, rfl, Option.some.inj same⟩
  | invocation tag => cases same

def Leaf.promotedText (pattern : SelectorPattern) (leaf : Leaf) : Text :=
  (leaf.mapTag (Tag.promoted ⟨pattern, true⟩)).print

theorem Leaf.Foreign.promotedText {pattern : SelectorPattern} {leaf : Leaf}
    (foreign : leaf.Foreign pattern) : leaf.promotedText pattern = leaf.print := by
  cases leaf with
  | words text => rfl
  | modifier tag => rfl
  | invocation tag =>
      have same : tag.promoted ⟨pattern, true⟩ = tag := Tag.promoted_eq_self foreign
      simp only [Leaf.promotedText, Leaf.mapTag, same]

theorem Leaf.Found.braced_promotedText {index : LineIndex} {start : Nat} {leaf : Leaf}
    (found : leaf.Found index start) (pattern : SelectorPattern) :
    Braced (leaf.promotedText pattern) := by
  have settled := (found.settles pattern).2.1
  cases found with
  | words braced => exact braced
  | modifier braced => exact braced
  | @invocation tag opener body closer read delimited =>
      have stands := Tag.standsFor_of_read read
      obtain ⟨hash, keywords⟩ := Option.isSome_iff_exists.mp stands.wellFormed.keywords
      simp only [promotedText, mapTag, print] at settled ⊢
      rcases Tag.settled_cases pattern keywords with
        ⟨_, _, promotes, _⟩ | ⟨candidate, lone, _, _⟩ | ⟨_, promotes, settles⟩
      · rw [promotes]
        exact delimited.braced stands.printed
      · rw [Tag.print_promoted_of_lone read lone]
        exact delimited.braced stands.printed
      · rw [promotes, ← settles]
        exact settled

/-- No token reaches from one leaf of a source into the next. -/
theorem Item.Scans.allParted (pattern : SelectorPattern) {index : LineIndex} {markup : Markup}
    {start : Nat} {source : Text} {items : List Item}
    (scans : Scans index markup start source items) :
    AllParted ((items.flatMap leaves).map (Leaf.promotedText pattern)) := by
  induction scans with
  | @last markup start source chars run =>
      cases chars with
      | nil => trivial
      | cons c chars => exact ⟨.inr Patch.looseStart_nil, trivial⟩
  | @lexeme markup markup' start source chars behind rest lexeme item items run read made more
      inductionHypothesis =>
      obtain ⟨leaf, single, _, found⟩ :=
        (ofLexeme_eq_ok_iff.mp made).exists_leaf (Lexeme.reads_of_read read)
      have braced := found.braced_promotedText pattern
      have ends : Patch.WallEnd (leaf.promotedText pattern) := Patch.wallEnd_of_braced braced []
      rw [List.flatMap_append, List.flatMap_cons, single, List.map_append, List.singleton_append,
        List.map_cons]
      have onwards : AllParted (leaf.promotedText pattern ::
          (items.flatMap leaves).map (Leaf.promotedText pattern)) :=
        ⟨Patch.Apart.parted (.inl ends), inductionHypothesis⟩
      have starts : Patch.WallStart (leaf.promotedText pattern ::
          (items.flatMap leaves).map (Leaf.promotedText pattern)).flatten := by
        obtain ⟨inner, text⟩ := braced
        rw [List.flatten_cons, text]
        rintro c ⟨⟩
        decide +kernel
      cases chars with
      | nil => exact onwards
      | cons c chars => exact ⟨Patch.Apart.parted (.inr starts), onwards⟩

namespace Template

variable {pattern : SelectorPattern} {source : Text} {template : Template}

def loneSelectors (pattern : SelectorPattern) (template : Template) : List Text :=
  (template.loneHits pattern).map SelectorHit.selector

def patchedLeaves (pattern : SelectorPattern) (template : Template) : List Text :=
  Patch.patchEach (template.leaves.map (Leaf.promotedText pattern))
    (template.loneSelectors pattern)

theorem patchedLeaves_of_few (parsed : parse source = .ok template)
    (few : ∀ tag ∈ template.tags, (tag.candidates pattern).length ≤ 1) :
    template.patchedLeaves pattern =
      Patch.patchEach (template.leaves.map Leaf.print) (template.loneSelectors pattern) := by
  have same : ∀ leaf ∈ template.leaves, leaf.promotedText pattern = leaf.print := by
    intro leaf inside
    cases leaf with
    | words text => rfl
    | modifier tag => rfl
    | invocation tag =>
        have member : tag ∈ template.tags := List.mem_filterMap.mpr ⟨_, inside, rfl⟩
        exact print_promoted_of_few parsed member (few tag member)
  rw [patchedLeaves, List.map_congr_left same]

theorem allParted_promotedText (pattern : SelectorPattern) (parsed : parse source = .ok template) :
    AllParted (template.leaves.map (Leaf.promotedText pattern)) := by
  obtain ⟨items, scans, derived⟩ := items_of_parse parsed
  rw [leaves_of_items derived]
  exact scans.allParted pattern

theorem flatten_promotedText (template : Template) :
    (template.leaves.map (Leaf.promotedText pattern)).flatten =
      (template.mapTags (Tag.promoted ⟨pattern, true⟩)).print := by
  rw [print_mapTags_leaves, Leaf.printAll, List.flatMap_map, List.flatMap_def]
  rfl

theorem selectors_eq_loneSelectors (parsed : parse source = .ok template) :
    (template.outcome ⟨pattern, true⟩).replacements.map Replacement.selector =
      template.loneSelectors pattern := by
  rw [outcome_replacements ⟨pattern, true⟩ (keywords_of_parse parsed), if_pos rfl, List.map_map]
  rfl

/-- A migration that patches puts the patched leaves in a row. -/
theorem migrateSource_patchedLeaves (parsed : parse source = .ok template)
    (tokens : ∀ selector ∈ template.loneSelectors pattern, Patch.Token selector) :
    ∃ result, migrateSource ⟨pattern, true⟩ source = .ok result ∧
      result.output = (template.patchedLeaves pattern).flatten := by
  have output := Patch.flatten_patchEach (allParted_promotedText pattern parsed) tokens
  rw [flatten_promotedText] at output
  by_cases settled : template.selectorHits pattern = []
  · refine ⟨_, migrateSource_of_settled parsed ⟨pattern, true⟩ settled, ?_⟩
    have none := (selectorHits_eq_nil_iff pattern).mp settled
    have nothing : template.loneSelectors pattern = [] := by
      rw [loneSelectors, List.map_eq_nil_iff, List.eq_nil_iff_forall_not_mem]
      intro hit found
      obtain ⟨tag, member, candidate, lone, _⟩ := mem_loneHits_iff.mp found
      rw [none tag member] at lone
      cases lone
    rw [patchedLeaves, output, nothing,
      template.mapTags_eq_self fun tag member => Tag.promoted_eq_self (none tag member),
      ← print_leaves, printAll_leaves_of_parse parsed]
    rfl
  · obtain ⟨changed, migrated⟩ := migrateSource_of_found parsed ⟨pattern, true⟩ settled
    refine ⟨_, migrated, ?_⟩
    rw [patchedLeaves, output, applyReplacements, selectors_eq_loneSelectors parsed]

end Template

/-- A migration that patches prints the leaves of a template with its patches where they fall.  A
leaf without a positional selector of its own is spared exactly if, of every lone selector that is
a token of it, what is printed before holds as many as there are patches of that selector. -/
theorem migrateSource_spares_iff (pattern : SelectorPattern) {source : Text} {template : Template}
    (parsed : Template.parse source = .ok template)
    (tokens : ∀ hit ∈ template.loneHits pattern,
      ∀ c ∈ hit.selector, Patch.isTokenChar c = true) :
    ∃ result, migrateSource ⟨pattern, true⟩ source = .ok result ∧
      result.output = (template.patchedLeaves pattern).flatten ∧
      ∀ (before : List Leaf) (leaf : Leaf) (after : List Leaf),
        template.leaves = before ++ leaf :: after → leaf.Foreign pattern →
        ((template.patchedLeaves pattern)[before.length]? = some leaf.print ↔
          UsedUp (before.map (Leaf.promotedText pattern)) (template.loneSelectors pattern)
            leaf.print) := by
  have sought : ∀ selector ∈ template.loneSelectors pattern, Patch.Token selector := by
    intro selector member
    obtain ⟨hit, found, rfl⟩ := List.mem_map.mp member
    exact Template.token_of_loneHits parsed tokens hit found
  obtain ⟨result, migrated, output⟩ := Template.migrateSource_patchedLeaves parsed sought
  refine ⟨result, migrated, output, ?_⟩
  intro before leaf after split foreign
  have spares := @Patch.patchEach_spares_iff (before.map (Leaf.promotedText pattern))
    (after.map (Leaf.promotedText pattern)) leaf.print _ sought
  rw [List.length_map] at spares
  rw [Template.patchedLeaves, split, List.map_append, List.map_cons, foreign.promotedText]
  exact spares

/-- A modifier that spells the selector of the mustache before it. -/
def outrunModifier : Text :=
  "\x7b\x7bf t\x7d\x7d<a \x7b\x7bg t\x7d\x7d>".toList

theorem migrateSource_spares_iff_outrunModifier :
    ∃ (template : Template) (result : MigrationResult) (tag : Tag) (before after : List Leaf),
      Template.parse outrunModifier = .ok template ∧
      template.leaves = before ++ .modifier tag :: after ∧
      template.loneSelectors letterPattern = [['t']] ∧ ['t'] ∈ Patch.tokens tag.print ∧
      migrateSource ⟨letterPattern, true⟩ outrunModifier = .ok result ∧
      result.output = (template.patchedLeaves letterPattern).flatten ∧
      (template.patchedLeaves letterPattern)[before.length]? = some tag.print := by
  have facts : ((Template.parse outrunModifier).toOption.map fun template =>
      (template.leaves.map Leaf.modifierText?,
        template.leaves.map (Leaf.promotedText letterPattern),
        template.loneSelectors letterPattern)) =
      some ([none, none, some "\x7b\x7bg t\x7d\x7d".toList, none],
        ["\x7b\x7bf t\x7d\x7d".toList, "<a ".toList, "\x7b\x7bg t\x7d\x7d".toList, ['>']],
        [['t']]) := by
    cbv
  obtain ⟨template, parsed, told⟩ := Template.exists_parse_of_map facts
  simp only [Prod.mk.injEq] at told
  obtain ⟨kinds, texts, selectors⟩ := told
  obtain ⟨before, tag, after, split, place, text⟩ :=
    @Leaf.exists_modifier template.leaves [none, none] [none] _ kinds
  have tokens : ∀ hit ∈ template.loneHits letterPattern,
      ∀ c ∈ hit.selector, Patch.isTokenChar c = true := by
    intro hit member
    have listed : hit.selector ∈ template.loneSelectors letterPattern :=
      List.mem_map_of_mem member
    rw [selectors, List.mem_singleton] at listed
    rw [listed]
    exact List.all_eq_true.mp (by cbv)
  have used : UsedUp (before.map (Leaf.promotedText letterPattern))
      (template.loneSelectors letterPattern) tag.print := by
    have earlier : before.map (Leaf.promotedText letterPattern) =
        ["\x7b\x7bf t\x7d\x7d".toList, "<a ".toList] := by
      have taken := congrArg (List.take 2) texts
      rw [split, List.map_append, List.take_left' (by rw [List.length_map, place]; rfl)] at taken
      exact taken
    rw [earlier, selectors, text]
    decide +kernel
  obtain ⟨result, migrated, output, spares⟩ :=
    migrateSource_spares_iff letterPattern parsed tokens
  exact ⟨template, result, tag, before, after, parsed, split, selectors,
    by rw [text]; decide +kernel, migrated, output,
    (spares before (.modifier tag) after split trivial).mpr used⟩

/-- A modifier that spells the selector of the mustache behind it. -/
def spelledModifier : Text :=
  "<div \x7b\x7bon data-test-x\x7d\x7d>\x7b\x7bfoo data-test-x\x7d\x7d</div>".toList

/-- The modifier takes the patch, and the mustache is left as it was. -/
theorem migrateSource_spelledModifier :
    ∃ (template : Template) (result : MigrationResult) (tag : Tag) (before after : List Leaf),
      Template.parse spelledModifier = .ok template ∧
      template.leaves = before ++ .modifier tag :: after ∧
      migrateSource .default spelledModifier = .ok result ∧
      result.output = (template.patchedLeaves .default).flatten ∧
      tag.print = "\x7b\x7bon data-test-x\x7d\x7d".toList ∧
      (template.patchedLeaves .default)[before.length]? =
        some "\x7b\x7bon data-test-x=true\x7d\x7d".toList ∧
      result.output =
        "<div \x7b\x7bon data-test-x=true\x7d\x7d>\x7b\x7bfoo data-test-x\x7d\x7d</div>".toList := by
  have facts : ((Template.parse spelledModifier).toOption.map fun template =>
      (template.leaves.map Leaf.modifierText?, template.leaves.map Leaf.print,
        template.loneSelectors .default, template.tags.map fun tag => tag.params.length)) =
      some ([none, some "\x7b\x7bon data-test-x\x7d\x7d".toList, none, none, none],
        ["<div ".toList, "\x7b\x7bon data-test-x\x7d\x7d".toList, ['>'],
          "\x7b\x7bfoo data-test-x\x7d\x7d".toList, "</div>".toList],
        ["data-test-x".toList], [1]) := by
    cbv
  have taken : Patch.patchEach
      ["<div ".toList, "\x7b\x7bon data-test-x\x7d\x7d".toList, ['>'],
        "\x7b\x7bfoo data-test-x\x7d\x7d".toList, "</div>".toList] ["data-test-x".toList] =
      ["<div ".toList, "\x7b\x7bon data-test-x=true\x7d\x7d".toList, ['>'],
        "\x7b\x7bfoo data-test-x\x7d\x7d".toList, "</div>".toList] := by
    cbv
  obtain ⟨template, parsed, told⟩ := Template.exists_parse_of_map facts
  simp only [Prod.mk.injEq] at told
  obtain ⟨kinds, texts, selectors, lengths⟩ := told
  obtain ⟨before, tag, after, split, place, text⟩ :=
    @Leaf.exists_modifier template.leaves [none] [none, none, none] _ kinds
  have few : ∀ tag ∈ template.tags, (tag.candidates .default).length ≤ 1 := by
    intro tag member
    have inside := List.mem_map_of_mem (f := fun tag : Tag => tag.params.length) member
    rw [lengths, List.mem_singleton] at inside
    rw [← inside]
    exact List.length_filter_le _ _
  have sought : ∀ selector ∈ template.loneSelectors .default, Patch.Token selector := by
    rw [selectors, List.forall_mem_singleton]
    exact ⟨by decide, List.all_eq_true.mp (by cbv), by decide⟩
  have patched := Template.patchedLeaves_of_few parsed few
  rw [texts, selectors, taken] at patched
  obtain ⟨result, migrated, output⟩ := Template.migrateSource_patchedLeaves parsed sought
  refine ⟨template, result, tag, before, after, parsed, split, migrated, output, text, ?_, ?_⟩
  · rw [patched, place]
    rfl
  · rw [output, patched]
    rfl

end TemplateSelectors
