import Mathlib
import TemplateSelectors.Proofs.PromotionWalk
import TemplateSelectors.Proofs.Reparse

/-!
# Tags put together from their parts

A tag that is marked dirty forgets the text that it was read from.  Nothing is lost by that: the
parts of every tag of a template that was read are its text, so a template in which all tags are
marked dirty still prints as its source.
-/

set_option autoImplicit false

namespace TemplateSelectors

/-- Marks the tags of mustaches, modifiers and blocks dirty. -/
def dirtyEditor : Editor Unit where
  visit _ state := (.proceed, state)
  mustache m state := (.proceed, m.tag.markDirty, state)
  modifier m state := (.proceed, m.tag.markDirty, state)
  block b state := (.proceed, b.opening.markDirty, state)
  path p state := (.proceed, p, state)
  leave _ state := state

/-- The template with every tag marked dirty. -/
def Template.markDirty (template : Template) : Template :=
  (template.edit dirtyEditor ()).value

def Leaf.markDirty : Leaf → Leaf
  | .words text => .words text
  | .modifier tag => .modifier tag.markDirty
  | .invocation tag => .invocation tag.markDirty

theorem dirtyEditor_passes : dirtyEditor.PassesExpressions where
  visit _ _ := rfl
  path _ _ := rfl
  leave _ _ := rfl

@[simp]
theorem dirtyEditor_mustache (m : Mustache) (state : Unit) :
    dirtyEditor.mustache m state = (.proceed, m.tag.markDirty, state) := rfl

@[simp]
theorem dirtyEditor_modifier (m : Mustache) (state : Unit) :
    dirtyEditor.modifier m state = (.proceed, m.tag.markDirty, state) := rfl

@[simp]
theorem dirtyEditor_block (b : Block) (state : Unit) :
    dirtyEditor.block b state = (.proceed, b.opening.markDirty, state) := rfl

/-! ## What the walk leaves behind -/

mutual

theorem Statement.edit_dirty (statement : Statement) :
    ∃ marked, statement.edit dirtyEditor () = ⟨false, marked, ()⟩ ∧
      marked.leaves = statement.leaves.map Leaf.markDirty := by
  cases statement with
  | text run =>
      refine ⟨.text run, ?_, rfl⟩
      simp [Statement.edit, dirtyEditor_passes.around_eq, Edited.leaf, Edited.map]
  | comment c =>
      refine ⟨.comment c, ?_, rfl⟩
      simp [Statement.edit, dirtyEditor_passes.around_eq, Edited.leaf, Edited.map]
  | mustache m =>
      refine ⟨.mustache { m with tag := m.tag.markDirty }, ?_, rfl⟩
      simp [Statement.edit, dirtyEditor_passes.around_eq, Mustache.edit, Edited.resume,
        dirtyEditor_passes.leave_eq, Tag.edit_passes dirtyEditor_passes, Edited.map]
  | modifier m =>
      refine ⟨.modifier { m with tag := m.tag.markDirty }, ?_, rfl⟩
      simp [Statement.edit, dirtyEditor_passes.around_eq, Mustache.edit, Edited.resume,
        dirtyEditor_passes.leave_eq, Tag.edit_passes dirtyEditor_passes, Edited.map]
  | block b =>
      obtain ⟨marked, edited, leaves⟩ := Block.edit_dirty b
      refine ⟨.block marked, ?_, leaves⟩
      simp [Statement.edit, dirtyEditor_passes.around_eq, Edited.map, edited]

theorem Block.edit_dirty (block : Block) :
    ∃ marked, block.edit dirtyEditor () = ⟨false, marked, ()⟩ ∧
      marked.leaves = block.leaves.map Leaf.markDirty := by
  obtain ⟨opening, program, inverse, close, loc⟩ := block
  obtain ⟨program', editedProgram, programLeaves⟩ := editStatements_dirty program
  obtain ⟨inverse', editedInverse, inverseLeaves⟩ := editInverse_dirty inverse
  refine ⟨⟨opening.markDirty, program', inverse', close, loc⟩, ?_, ?_⟩
  · simp [Block.edit, Edited.resume, dirtyEditor_passes.leave_eq, Edited.andThen, Edited.map,
      Tag.edit_passes dirtyEditor_passes, editedProgram, editedInverse]
  · cases close <;>
      simp [Block.leaves, closeLeaves, Leaf.markDirty, programLeaves, inverseLeaves]

theorem Inverse.edit_dirty (inverse : Inverse) :
    ∃ marked, inverse.edit dirtyEditor () = ⟨false, marked, ()⟩ ∧
      marked.leaves = inverse.leaves.map Leaf.markDirty := by
  cases inverse with
  | otherwise tag body =>
      obtain ⟨body', edited, leaves⟩ := editStatements_dirty body
      refine ⟨.otherwise tag body', ?_, ?_⟩
      · simp [Inverse.edit, dirtyEditor_passes.around_eq, Edited.map, edited]
      · simp [Inverse.leaves, Leaf.markDirty, leaves]
  | chained b =>
      obtain ⟨marked, edited, leaves⟩ := Block.edit_dirty b
      refine ⟨.chained marked, ?_, leaves⟩
      simp [Inverse.edit, dirtyEditor_passes.around_eq, Edited.map, edited]

theorem editStatements_dirty (statements : List Statement) :
    ∃ marked, editStatements dirtyEditor statements () = ⟨false, marked, ()⟩ ∧
      statementLeaves marked = (statementLeaves statements).map Leaf.markDirty := by
  cases statements with
  | nil => exact ⟨[], rfl, rfl⟩
  | cons statement statements =>
      obtain ⟨first, editedFirst, firstLeaves⟩ := Statement.edit_dirty statement
      obtain ⟨rest, editedRest, restLeaves⟩ := editStatements_dirty statements
      refine ⟨first :: rest, ?_, ?_⟩
      · simp [editStatements, Edited.andThen, Edited.map, editedFirst, editedRest]
      · simp [statementLeaves, firstLeaves, restLeaves]

theorem editInverse_dirty (inverse : Option Inverse) :
    ∃ marked, editInverse dirtyEditor inverse () = ⟨false, marked, ()⟩ ∧
      inverseLeaves marked = (inverseLeaves inverse).map Leaf.markDirty := by
  cases inverse with
  | none => exact ⟨none, rfl, rfl⟩
  | some inverse =>
      obtain ⟨marked, edited, leaves⟩ := Inverse.edit_dirty inverse
      refine ⟨some marked, ?_, leaves⟩
      simp [editInverse, Edited.map, edited]

end

namespace Template

/-- Marking keeps the words of a template and the place of each tag. -/
theorem leaves_markDirty (template : Template) :
    template.markDirty.leaves = template.leaves.map Leaf.markDirty := by
  obtain ⟨marked, edited, leaves⟩ := editStatements_dirty template.body
  rw [markDirty, Template.edit, dirtyEditor_passes.around_eq, edited]
  exact leaves

theorem everyTag_markDirty (template : Template) :
    template.markDirty.everyTag = template.everyTag.map Tag.markDirty := by
  rw [everyTag, leaves_markDirty, everyTag]
  induction template.leaves with
  | nil => rfl
  | cons leaf leaves inductionHypothesis =>
      cases leaf with
      | words text => exact inductionHypothesis
      | modifier tag => exact congrArg (tag.markDirty :: ·) inductionHypothesis
      | invocation tag => exact congrArg (tag.markDirty :: ·) inductionHypothesis

end Template

/-! ## Parts and text -/

/-- The parts of a tag that was read are the text that it was read from. -/
theorem Tag.source_eq_printParts {index : LineIndex} {start : Nat} {opener body closer : Text}
    {tag : Tag} (found : Tag.read index start opener body closer = .ok tag) :
    tag.source = some tag.printParts := by
  obtain ⟨_, opened, inside, closed⟩ := Tag.wellFormed_of_read found
  rw [Tag.source_of_read found, Tag.printParts_eq, opened, inside, closed]

theorem Leaf.print_markDirty {leaf : Leaf}
    (complete : ∀ tag, leaf.anyTag? = some tag → tag.source = some tag.printParts) :
    leaf.markDirty.print = leaf.print := by
  have forgotten : ∀ tag : Tag, tag.source = some tag.printParts →
      tag.markDirty.print = tag.print := by
    intro tag source
    calc
      tag.markDirty.print = tag.printParts := rfl
      _ = tag.print := by rw [Tag.print, source, Option.getD_some]
  cases leaf with
  | words text => rfl
  | modifier tag => exact forgotten tag (complete tag rfl)
  | invocation tag => exact forgotten tag (complete tag rfl)

theorem Leaf.printAll_markDirty {leaves : List Leaf}
    (complete : ∀ tag ∈ everyTag leaves, tag.source = some tag.printParts) :
    printAll (leaves.map markDirty) = printAll leaves := by
  have same : ∀ leaf ∈ leaves, leaf.markDirty.print = leaf.print := by
    intro leaf member
    refine print_markDirty ?_
    intro tag found
    exact complete tag (List.mem_filterMap.mpr ⟨leaf, member, found⟩)
  rw [printAll, printAll, List.flatMap_map, List.flatMap_def, List.flatMap_def,
    List.map_congr_left same]

namespace Template

/-- The parts of every tag of a template that was read are its text, so the template prints as
its source even when all of its tags have forgotten theirs. -/
theorem print_markDirty_of_parse {source : Text} {template : Template}
    (parsed : parse source = .ok template) :
    template.markDirty.print = source ∧
      (∀ tag ∈ template.markDirty.everyTag, tag.isDirty = true) ∧
      ∀ tag ∈ template.everyTag, tag.source = some tag.printParts := by
  have complete : ∀ tag ∈ template.everyTag, tag.source = some tag.printParts := by
    intro tag member
    obtain ⟨_, _, _, _, _, found⟩ := exists_read_of_parse parsed tag member
    exact Tag.source_eq_printParts found
  refine ⟨?_, ?_, complete⟩
  · rw [← print_leaves, leaves_markDirty, Leaf.printAll_markDirty complete]
    exact printAll_leaves_of_parse parsed
  · rw [everyTag_markDirty, List.forall_mem_map]
    intro tag _
    rfl

/-- A modifier, a chain, and a call with keyword arguments and a string inside, white space of
every kind between them. -/
def scatteredParts : Text :=
  ("<p \x7b\x7bm  a\x7d\x7d>\x7b\x7b~#if (f \"\x7d\x7d\" k = 1 )\n as |x|~\x7d\x7d" ++
    "\x7b\x7b else  if y \x7d\x7d\x7b\x7b\x7bz b.[c d]\x7d\x7d\x7d\x7b\x7b/if\x7d\x7d").toList

theorem print_markDirty_of_parse_scatteredParts :
    ∃ template, parse scatteredParts = .ok template ∧ template.everyTag.length = 4 ∧
      template.markDirty.print = scatteredParts ∧
      (∀ tag ∈ template.markDirty.everyTag, tag.isDirty = true) ∧
      ∀ tag ∈ template.everyTag, tag.source = some tag.printParts := by
  have count : ((parse scatteredParts).toOption.map fun template => template.everyTag.length) =
      some 4 := by
    cbv
  obtain ⟨template, parsed, tags⟩ := exists_parse_of_map count
  exact ⟨template, parsed, tags, print_markDirty_of_parse parsed⟩

end Template

end TemplateSelectors
