import TemplateSelectors.Proofs.Leaves
import TemplateSelectors.SelectorHit

/-!
# Trees without places

A tree is bare when it tells neither where its parts stand nor from which text its tags were
read.  Two trees that are the same when bare print their parts alike and have the same
selectors.
-/

set_option autoImplicit false

namespace TemplateSelectors

mutual

def Expression.bare : Expression → Expression
  | .path p => .path { p with loc := .nowhere }
  | .literal l => .literal { l with loc := .nowhere }
  | .call c => .call c.bare

def SubExpression.bare : SubExpression → SubExpression
  | ⟨leading, callee, params, hash, trailing, _⟩ =>
      ⟨leading, callee.bare, bareParams params, hash.bare, trailing, .nowhere⟩

def Param.bare : Param → Param
  | ⟨leading, value⟩ => ⟨leading, value.bare⟩

def Hash.bare : Hash → Hash
  | ⟨pairs, _⟩ => ⟨barePairs pairs, .nowhere⟩

def HashPair.bare : HashPair → HashPair
  | ⟨leading, key, separator, value, _⟩ => ⟨leading, key, separator, value.bare, .nowhere⟩

def bareParams : List Param → List Param
  | [] => []
  | param :: params => param.bare :: bareParams params

def barePairs : List HashPair → List HashPair
  | [] => []
  | pair :: pairs => pair.bare :: barePairs pairs

end

theorem bareParams_eq (params : List Param) : bareParams params = params.map Param.bare := by
  induction params with
  | nil => rfl
  | cons param params inductionHypothesis => simp [bareParams, inductionHypothesis]

mutual

@[simp]
theorem Expression.print_bare (expression : Expression) :
    expression.bare.print = expression.print := by
  cases expression with
  | path p => rfl
  | literal l => rfl
  | call c => simp only [Expression.bare, Expression.print, SubExpression.print_bare c]

theorem SubExpression.print_bare (call : SubExpression) : call.bare.print = call.print := by
  obtain ⟨leading, callee, params, hash, trailing, loc⟩ := call
  simp only [SubExpression.bare, SubExpression.print, Expression.print_bare callee,
    printParams_bare params, Hash.print_bare hash]

theorem Param.print_bare (param : Param) : param.bare.print = param.print := by
  obtain ⟨leading, value⟩ := param
  simp only [Param.bare, Param.print, Expression.print_bare value]

theorem Hash.print_bare (hash : Hash) : hash.bare.print = hash.print := by
  obtain ⟨pairs, loc⟩ := hash
  simp only [Hash.bare, Hash.print, printPairs_bare pairs]

theorem HashPair.print_bare (pair : HashPair) : pair.bare.print = pair.print := by
  obtain ⟨leading, key, separator, value, loc⟩ := pair
  simp only [HashPair.bare, HashPair.print, Expression.print_bare value]

theorem printParams_bare (params : List Param) :
    printParams (bareParams params) = printParams params := by
  cases params with
  | nil => rfl
  | cons param params =>
      simp only [bareParams, printParams, Param.print_bare param, printParams_bare params]

theorem printPairs_bare (pairs : List HashPair) :
    printPairs (barePairs pairs) = printPairs pairs := by
  cases pairs with
  | nil => rfl
  | cons pair pairs =>
      simp only [barePairs, printPairs, HashPair.print_bare pair, printPairs_bare pairs]

end

theorem SelectorPattern.isSelector_bare (pattern : SelectorPattern) (param : Param) :
    pattern.isSelector param.bare = pattern.isSelector param := by
  obtain ⟨leading, value⟩ := param
  cases value with
  | path p => rfl
  | literal l => rfl
  | call c => rfl

/-- A tag that tells neither its place nor its text. -/
def Tag.bare (tag : Tag) : Tag :=
  { tag with
    callee := tag.callee.bare
    params := bareParams tag.params
    hash := tag.hash.map Hash.bare
    loc := .nowhere
    source := none }

theorem Tag.name_bare (tag : Tag) : tag.bare.name = tag.name := by
  simp [Tag.bare, Tag.name]

def Mustache.bare (mustache : Mustache) : Mustache :=
  { mustache with tag := mustache.tag.bare }

def CloseTag.bare (close : CloseTag) : CloseTag :=
  { close with loc := .nowhere }

def ElseTag.bare (tag : ElseTag) : ElseTag :=
  { tag with loc := .nowhere }

mutual

def Statement.bare : Statement → Statement
  | .text run => .text { run with loc := .nowhere }
  | .comment c => .comment { c with loc := .nowhere }
  | .mustache m => .mustache m.bare
  | .modifier m => .modifier m.bare
  | .block b => .block b.bare

def Block.bare : Block → Block
  | ⟨opening, program, inverse, close, _⟩ =>
      ⟨opening.bare, bareStatements program, bareInverse inverse, close.map CloseTag.bare, .nowhere⟩

def Inverse.bare : Inverse → Inverse
  | .otherwise tag body => .otherwise tag.bare (bareStatements body)
  | .chained b => .chained b.bare

def bareStatements : List Statement → List Statement
  | [] => []
  | statement :: statements => statement.bare :: bareStatements statements

def bareInverse : Option Inverse → Option Inverse
  | none => none
  | some inverse => some inverse.bare

end

/-- A template without any place and without the texts of its tags. -/
def Template.bare (template : Template) : Template :=
  ⟨bareStatements template.body, .nowhere⟩

namespace Leaf

def bare : Leaf → Leaf
  | .words text => .words text
  | .modifier tag => .modifier tag.bare
  | .invocation tag => .invocation tag.bare

theorem tags_map_bare (leaves : List Leaf) : tags (leaves.map bare) = (tags leaves).map Tag.bare := by
  induction leaves with
  | nil => rfl
  | cons leaf leaves inductionHypothesis => cases leaf <;> simp [bare, inductionHypothesis]

end Leaf

mutual

theorem Statement.leaves_bare (statement : Statement) :
    statement.bare.leaves = statement.leaves.map Leaf.bare := by
  cases statement with
  | text run => rfl
  | comment c => rfl
  | mustache m => rfl
  | modifier m => rfl
  | block b => simp only [Statement.bare, Statement.leaves, Block.leaves_bare b]

theorem Block.leaves_bare (block : Block) : block.bare.leaves = block.leaves.map Leaf.bare := by
  obtain ⟨opening, program, inverse, close, loc⟩ := block
  cases close <;>
    simp [Block.bare, Block.leaves, closeLeaves, Leaf.bare, CloseTag.bare,
      leaves_bareStatements program, leaves_bareInverse inverse]

theorem Inverse.leaves_bare (inverse : Inverse) :
    inverse.bare.leaves = inverse.leaves.map Leaf.bare := by
  cases inverse with
  | otherwise tag body =>
      simp [Inverse.bare, Inverse.leaves, Leaf.bare, ElseTag.bare, leaves_bareStatements body]
  | chained b => simp only [Inverse.bare, Inverse.leaves, Block.leaves_bare b]

theorem leaves_bareStatements (statements : List Statement) :
    statementLeaves (bareStatements statements) = (statementLeaves statements).map Leaf.bare := by
  cases statements with
  | nil => rfl
  | cons statement statements =>
      simp [bareStatements, statementLeaves, Statement.leaves_bare statement,
        leaves_bareStatements statements]

theorem leaves_bareInverse (inverse : Option Inverse) :
    inverseLeaves (bareInverse inverse) = (inverseLeaves inverse).map Leaf.bare := by
  cases inverse with
  | none => rfl
  | some inverse => simp only [bareInverse, inverseLeaves, Inverse.leaves_bare inverse]

end

theorem Template.tags_bare (template : Template) :
    template.bare.tags = template.tags.map Tag.bare := by
  rw [Template.tags, Template.leaves, Template.bare, leaves_bareStatements, Leaf.tags_map_bare]
  rfl

end TemplateSelectors
