import TemplateSelectors.Promotion
import TemplateSelectors.Proofs.Leaves
import TemplateSelectors.SelectorHit

/-!
# Walks that look at tags only

The walk that collects selectors meets the tags of mustaches and blocks in the order in which the
leaves of the template have them.  So the hits of a template are those of its tags in a row.  An
editor that lets everything inside a tag pass leaves every expression as it was.
-/

set_option autoImplicit false

namespace TemplateSelectors

section Visitor

variable {σ : Type} {visitor : Visitor σ} {step : Tag → σ → σ}

/-- A visitor that takes a step at each mustache and block and passes everything else by. -/
structure Visitor.StepsAtTags (visitor : Visitor σ) (step : Tag → σ → σ) : Prop where
  mustache : ∀ m state, visitor.visit (.mustache m) state = (.proceed, step m.tag state)
  block : ∀ b state, visitor.visit (.block b) state = (.proceed, step b.opening state)
  other : ∀ node state, (∀ m, node ≠ .mustache m) → (∀ b, node ≠ .block b) →
    visitor.visit node state = (.proceed, state)
  leave : ∀ node state, visitor.leave node state = state

/-- A node that is passed by is as if only its children were walked. -/
theorem Visitor.StepsAtTags.around_other (steps : visitor.StepsAtTags step) {node : Node}
    (notMustache : ∀ m, node ≠ .mustache m) (notBlock : ∀ b, node ≠ .block b) (children : Walk σ)
    (state : σ) : Walk.around visitor node children state = children state := by
  simp only [Walk.around, steps.other node state notMustache notBlock, steps.leave]
  cases children state <;> rfl

theorem Visitor.StepsAtTags.around_mustache (steps : visitor.StepsAtTags step) (m : Mustache)
    (children : Walk σ) (state : σ) :
    Walk.around visitor (.mustache m) children state = children (step m.tag state) := by
  simp only [Walk.around, steps.mustache, steps.leave]
  cases children (step m.tag state) <;> rfl

theorem Visitor.StepsAtTags.around_block (steps : visitor.StepsAtTags step) (b : Block)
    (children : Walk σ) (state : σ) :
    Walk.around visitor (.block b) children state = children (step b.opening state) := by
  simp only [Walk.around, steps.block, steps.leave]
  cases children (step b.opening state) <;> rfl

mutual

theorem Expression.walk_steps (steps : visitor.StepsAtTags step) (expression : Expression)
    (state : σ) : expression.walk visitor state = .ok state := by
  cases expression with
  | path p => simp [Expression.walk, steps.around_other, Walk.done]
  | literal l => simp [Expression.walk, steps.around_other, Walk.done]
  | call c => simp [Expression.walk, steps.around_other, SubExpression.walk_steps steps c]

theorem SubExpression.walk_steps (steps : visitor.StepsAtTags step) (call : SubExpression)
    (state : σ) : call.walk visitor state = .ok state := by
  obtain ⟨leading, callee, params, hash, trailing, loc⟩ := call
  simp [SubExpression.walk, steps.around_other, Walk.andThen, Expression.walk_steps steps callee,
    walkParams_steps steps params, Hash.walk_steps steps hash]

theorem Param.walk_steps (steps : visitor.StepsAtTags step) (param : Param) (state : σ) :
    param.walk visitor state = .ok state := by
  obtain ⟨leading, value⟩ := param
  simp [Param.walk, steps.around_other, Expression.walk_steps steps value]

theorem Hash.walk_steps (steps : visitor.StepsAtTags step) (hash : Hash) (state : σ) :
    hash.walk visitor state = .ok state := by
  obtain ⟨pairs, loc⟩ := hash
  simp [Hash.walk, steps.around_other, walkPairs_steps steps pairs]

theorem HashPair.walk_steps (steps : visitor.StepsAtTags step) (pair : HashPair) (state : σ) :
    pair.walk visitor state = .ok state := by
  obtain ⟨leading, key, separator, value, loc⟩ := pair
  simp [HashPair.walk, steps.around_other, Expression.walk_steps steps value]

theorem walkParams_steps (steps : visitor.StepsAtTags step) (params : List Param) (state : σ) :
    walkParams visitor params state = .ok state := by
  cases params with
  | nil => rfl
  | cons param params =>
      simp [walkParams, Walk.andThen, Param.walk_steps steps param, walkParams_steps steps params]

theorem walkPairs_steps (steps : visitor.StepsAtTags step) (pairs : List HashPair) (state : σ) :
    walkPairs visitor pairs state = .ok state := by
  cases pairs with
  | nil => rfl
  | cons pair pairs =>
      simp [walkPairs, Walk.andThen, HashPair.walk_steps steps pair, walkPairs_steps steps pairs]

end

theorem Tag.walk_steps (steps : visitor.StepsAtTags step) (tag : Tag) (state : σ) :
    tag.walk visitor state = .ok state := by
  simp only [Tag.walk, Walk.andThen, Expression.walk_steps steps, walkParams_steps steps]
  cases tag.hash with
  | none => rfl
  | some hash => exact hash.walk_steps steps state

/-- The state after a step at each of the tags. -/
def stepAll (step : Tag → σ → σ) (tags : List Tag) (state : σ) : σ :=
  tags.foldl (fun state tag => step tag state) state

mutual

theorem Statement.walk_steps (steps : visitor.StepsAtTags step) (statement : Statement)
    (state : σ) :
    statement.walk visitor state = .ok (stepAll step (Leaf.tags statement.leaves) state) := by
  cases statement with
  | text run =>
      simp [Statement.walk, Statement.leaves, steps.around_other, Walk.done, stepAll]
  | comment c =>
      simp [Statement.walk, Statement.leaves, steps.around_other, Walk.done, stepAll]
  | mustache m =>
      simp [Statement.walk, Statement.leaves, steps.around_other, steps.around_mustache,
        Tag.walk_steps steps, stepAll]
  | modifier m =>
      simp [Statement.walk, Statement.leaves, steps.around_other, Tag.walk_steps steps, stepAll]
  | block b =>
      simp [Statement.walk, Statement.leaves, steps.around_other, Block.walk_steps steps b]

theorem Block.walk_steps (steps : visitor.StepsAtTags step) (block : Block) (state : σ) :
    block.walk visitor state = .ok (stepAll step (Leaf.tags block.leaves) state) := by
  obtain ⟨opening, program, inverse, close, loc⟩ := block
  cases close <;>
    simp [Block.walk, Block.leaves, closeLeaves, steps.around_block, Walk.andThen,
      Tag.walk_steps steps, walkStatements_steps steps program, walkInverse_steps steps inverse,
      stepAll]

theorem Inverse.walk_steps (steps : visitor.StepsAtTags step) (inverse : Inverse) (state : σ) :
    inverse.walk visitor state = .ok (stepAll step (Leaf.tags inverse.leaves) state) := by
  cases inverse with
  | otherwise tag body =>
      simp [Inverse.walk, Inverse.leaves, steps.around_other, walkStatements_steps steps body]
  | chained b => simp [Inverse.walk, Inverse.leaves, steps.around_other, Block.walk_steps steps b]

theorem walkStatements_steps (steps : visitor.StepsAtTags step) (statements : List Statement)
    (state : σ) :
    walkStatements visitor statements state =
      .ok (stepAll step (Leaf.tags (statementLeaves statements)) state) := by
  cases statements with
  | nil => rfl
  | cons statement statements =>
      simp [walkStatements, statementLeaves, Walk.andThen, Statement.walk_steps steps statement,
        walkStatements_steps steps statements, stepAll]

theorem walkInverse_steps (steps : visitor.StepsAtTags step) (inverse : Option Inverse)
    (state : σ) :
    walkInverse visitor inverse state =
      .ok (stepAll step (Leaf.tags (inverseLeaves inverse)) state) := by
  cases inverse with
  | none => rfl
  | some inverse => simp only [walkInverse, inverseLeaves, Inverse.walk_steps steps inverse]

end

theorem Template.walk_steps (steps : visitor.StepsAtTags step) (template : Template) (state : σ) :
    template.walk visitor state = .ok (stepAll step template.tags state) := by
  rw [Template.walk, steps.around_other (by simp) (by simp), walkStatements_steps steps]
  rfl

end Visitor

/-- The collector takes a step at each tag: it adds the hits of the tag. -/
theorem SelectorHit.collector_steps (pattern : SelectorPattern) :
    (SelectorHit.collector pattern).StepsAtTags fun tag hits => hits ++ tag.selectorHits pattern where
  mustache _ _ := rfl
  block _ _ := rfl
  other node hits notMustache notBlock := by
    cases node with
    | mustache m => exact absurd rfl (notMustache m)
    | block b => exact absurd rfl (notBlock b)
    | _ => rfl
  leave _ _ := rfl

/-- The selectors of a template are those of its tags in a row. -/
theorem Template.selectorHits_eq (pattern : SelectorPattern) (template : Template) :
    template.selectorHits pattern = template.tags.flatMap (Tag.selectorHits pattern) := by
  have gather : ∀ (tags : List Tag) (hits : List SelectorHit),
      stepAll (fun tag hits => hits ++ tag.selectorHits pattern) tags hits =
        hits ++ tags.flatMap (Tag.selectorHits pattern) := by
    intro tags
    induction tags with
    | nil => intro hits; simp [stepAll]
    | cons tag tags inductionHypothesis =>
        intro hits
        have next := inductionHypothesis (hits ++ tag.selectorHits pattern)
        simp only [stepAll, List.foldl_cons] at next ⊢
        rw [next, List.flatMap_cons, List.append_assoc]
  rw [Template.selectorHits, Template.walk_steps (SelectorHit.collector_steps pattern), gather]
  rfl

/-! ## Edits that leave expressions alone -/

section Editor

variable {σ : Type} {editor : Editor σ}

/-- An editor that changes nothing inside a tag and passes everything there by. -/
structure Editor.PassesExpressions (editor : Editor σ) : Prop where
  visit : ∀ node state, editor.visit node state = (.proceed, state)
  path : ∀ p state, editor.path p state = (.proceed, p, state)
  leave : ∀ node state, editor.leave node state = state

theorem Editor.PassesExpressions.leave_eq {α : Type} (passes : editor.PassesExpressions)
    (node : α → Node) (edited : Edited σ α) : Edited.leave editor node edited = edited := by
  unfold Edited.leave
  split
  · rfl
  · next unstopped =>
      rw [passes.leave]
      cases edited
      simp_all

theorem Editor.PassesExpressions.around_eq {α : Type} (passes : editor.PassesExpressions)
    (node : α → Node) (value : α) (children : σ → Edited σ α) (state : σ) :
    Edited.around editor node value children state = children state := by
  simp only [Edited.around, passes.visit, passes.leave_eq]

mutual

theorem Expression.edit_passes (passes : editor.PassesExpressions) (expression : Expression)
    (state : σ) : expression.edit editor state = ⟨false, expression, state⟩ := by
  cases expression with
  | path p =>
      simp [Expression.edit, passes.around_eq, PathExpression.edit, passes.path, Edited.resume,
        passes.leave_eq, Edited.leaf, Edited.map]
  | literal l => simp [Expression.edit, passes.around_eq, Edited.leaf, Edited.map]
  | call c =>
      simp [Expression.edit, passes.around_eq, Edited.map, SubExpression.edit_passes passes c]

theorem SubExpression.edit_passes (passes : editor.PassesExpressions) (call : SubExpression)
    (state : σ) : call.edit editor state = ⟨false, call, state⟩ := by
  obtain ⟨leading, callee, params, hash, trailing, loc⟩ := call
  simp [SubExpression.edit, passes.around_eq, Edited.andThen, Edited.map,
    Expression.edit_passes passes callee, editParams_passes passes params,
    Hash.edit_passes passes hash]

theorem Param.edit_passes (passes : editor.PassesExpressions) (param : Param) (state : σ) :
    param.edit editor state = ⟨false, param, state⟩ := by
  obtain ⟨leading, value⟩ := param
  simp [Param.edit, passes.around_eq, Edited.map, Expression.edit_passes passes value]

theorem Hash.edit_passes (passes : editor.PassesExpressions) (hash : Hash) (state : σ) :
    hash.edit editor state = ⟨false, hash, state⟩ := by
  obtain ⟨pairs, loc⟩ := hash
  simp [Hash.edit, passes.around_eq, Edited.map, editPairs_passes passes pairs]

theorem HashPair.edit_passes (passes : editor.PassesExpressions) (pair : HashPair) (state : σ) :
    pair.edit editor state = ⟨false, pair, state⟩ := by
  obtain ⟨leading, key, separator, value, loc⟩ := pair
  simp [HashPair.edit, passes.around_eq, Edited.map, Expression.edit_passes passes value]

theorem editParams_passes (passes : editor.PassesExpressions) (params : List Param) (state : σ) :
    editParams editor params state = ⟨false, params, state⟩ := by
  cases params with
  | nil => rfl
  | cons param params =>
      simp [editParams, Edited.andThen, Edited.map, Param.edit_passes passes param,
        editParams_passes passes params]

theorem editPairs_passes (passes : editor.PassesExpressions) (pairs : List HashPair) (state : σ) :
    editPairs editor pairs state = ⟨false, pairs, state⟩ := by
  cases pairs with
  | nil => rfl
  | cons pair pairs =>
      simp [editPairs, Edited.andThen, Edited.map, HashPair.edit_passes passes pair,
        editPairs_passes passes pairs]

end

theorem Tag.edit_passes (passes : editor.PassesExpressions) (tag : Tag) (state : σ) :
    tag.edit editor state = ⟨false, tag, state⟩ := by
  have hash : editHash editor tag.hash state = ⟨false, tag.hash, state⟩ := by
    cases tag.hash with
    | none => rfl
    | some hash => simp [editHash, Edited.map, Hash.edit_passes passes hash]
  simp [Tag.edit, Edited.andThen, Edited.map, Expression.edit_passes passes,
    editParams_passes passes, hash]

end Editor

end TemplateSelectors
