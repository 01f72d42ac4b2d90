import TemplateSelectors.Walk

/-!
# The outline of a template

To a walk, a template is a tree of nodes: a statement holds its text, its comment, its mustache or
its block, a block holds the arguments of its opening tag, its program and its second half, and so
on down to paths and literals.  The outline is that tree and nothing else.  A walk of a template is
a walk of its outline, whoever visits it, so what can be said about walks is said about outlines,
where all nodes are alike.
-/

set_option autoImplicit false

namespace TemplateSelectors

/-- A node and what is met inside it, in order. -/
inductive Outline where
  | node (root : Node) (inside : List Outline)

namespace Outline

def root : Outline → Node
  | .node root _ => root

def inside : Outline → List Outline
  | .node _ inside => inside

end Outline

mutual

def Expression.outline : Expression → Outline
  | .path p => .node (.expression (.path p)) [.node (.path p) []]
  | .literal l => .node (.expression (.literal l)) [.node (.literal l) []]
  | .call c => .node (.expression (.call c)) [c.outline]

def SubExpression.outline : SubExpression → Outline
  | ⟨leading, callee, params, hash, trailing, loc⟩ =>
      .node (.subExpression ⟨leading, callee, params, hash, trailing, loc⟩)
        (callee.outline :: (paramOutlines params ++ [hash.outline]))

def Param.outline : Param → Outline
  | ⟨leading, value⟩ => .node (.param ⟨leading, value⟩) [value.outline]

def Hash.outline : Hash → Outline
  | ⟨pairs, loc⟩ => .node (.hash ⟨pairs, loc⟩) (pairOutlines pairs)

def HashPair.outline : HashPair → Outline
  | ⟨leading, key, separator, value, loc⟩ =>
      .node (.hashPair ⟨leading, key, separator, value, loc⟩) [value.outline]

def paramOutlines : List Param → List Outline
  | [] => []
  | param :: params => param.outline :: paramOutlines params

def pairOutlines : List HashPair → List Outline
  | [] => []
  | pair :: pairs => pair.outline :: pairOutlines pairs

end

/-- Callee, positional arguments, keyword arguments. -/
def Tag.outlines (tag : Tag) : List Outline :=
  tag.callee.outline :: (paramOutlines tag.params ++ (tag.hash.map Hash.outline).toList)

mutual

def Statement.outline : Statement → Outline
  | .text run => .node (.statement (.text run)) [.node (.text run) []]
  | .comment c => .node (.statement (.comment c)) [.node (.comment c) []]
  | .mustache m => .node (.statement (.mustache m)) [.node (.mustache m) m.tag.outlines]
  | .modifier m => .node (.statement (.modifier m)) [.node (.modifier m) m.tag.outlines]
  | .block b => .node (.statement (.block b)) [b.outline]

def Block.outline : Block → Outline
  | ⟨opening, program, inverse, close, loc⟩ =>
      .node (.block ⟨opening, program, inverse, close, loc⟩)
        (opening.outlines ++ (statementOutlines program ++ inverseOutlines inverse))

def Inverse.outline : Inverse → Outline
  | .otherwise tag body => .node (.inverse (.otherwise tag body)) (statementOutlines body)
  | .chained b => .node (.inverse (.chained b)) [b.outline]

def statementOutlines : List Statement → List Outline
  | [] => []
  | statement :: statements => statement.outline :: statementOutlines statements

def inverseOutlines : Option Inverse → List Outline
  | none => []
  | some inverse => [inverse.outline]

end

def Template.outline (template : Template) : Outline :=
  .node (.template template) (statementOutlines template.body)

/-! ## Walks of outlines -/

section

open Walk

variable {σ : Type}

mutual

def Outline.walk (visitor : Visitor σ) : Outline → Walk σ
  | .node root inside => around visitor root (walkOutlines visitor inside)

def walkOutlines (visitor : Visitor σ) : List Outline → Walk σ
  | [] => done
  | outline :: outlines => andThen (outline.walk visitor) (walkOutlines visitor outlines)

end

theorem andThen_done (walk : Walk σ) : andThen walk done = walk := by
  funext state
  rw [andThen]
  cases walk state <;> rfl

theorem done_andThen (walk : Walk σ) : andThen done walk = walk := rfl

theorem andThen_assoc (first second third : Walk σ) :
    andThen (andThen first second) third = andThen first (andThen second third) := by
  funext state
  simp only [andThen]
  cases first state <;> rfl

theorem walkOutlines_singleton (visitor : Visitor σ) (outline : Outline) :
    walkOutlines visitor [outline] = outline.walk visitor := by
  rw [walkOutlines, walkOutlines, andThen_done]

theorem walkOutlines_append (visitor : Visitor σ) (front back : List Outline) :
    walkOutlines visitor (front ++ back) =
      andThen (walkOutlines visitor front) (walkOutlines visitor back) := by
  induction front with
  | nil => rw [walkOutlines, List.nil_append, done_andThen]
  | cons outline front inductionHypothesis =>
      rw [List.cons_append, walkOutlines, walkOutlines, inductionHypothesis, andThen_assoc]

/-- A node with nothing inside. -/
theorem walk_leaf (visitor : Visitor σ) (node : Node) :
    Outline.walk visitor (.node node []) = around visitor node done := by
  rw [Outline.walk, walkOutlines]

mutual

theorem Expression.walk_outline (visitor : Visitor σ) (expression : Expression) :
    expression.outline.walk visitor = expression.walk visitor := by
  cases expression with
  | path p =>
      rw [Expression.outline, Outline.walk, walkOutlines_singleton, walk_leaf, Expression.walk]
  | literal l =>
      rw [Expression.outline, Outline.walk, walkOutlines_singleton, walk_leaf, Expression.walk]
  | call c =>
      rw [Expression.outline, Outline.walk, walkOutlines_singleton,
        SubExpression.walk_outline visitor c, Expression.walk]

theorem SubExpression.walk_outline (visitor : Visitor σ) (call : SubExpression) :
    call.outline.walk visitor = call.walk visitor := by
  obtain ⟨leading, callee, params, hash, trailing, loc⟩ := call
  rw [SubExpression.outline, Outline.walk, walkOutlines, walkOutlines_append,
    walkOutlines_singleton, Expression.walk_outline visitor callee,
    walkParams_outline visitor params, Hash.walk_outline visitor hash, SubExpression.walk]

theorem Param.walk_outline (visitor : Visitor σ) (param : Param) :
    param.outline.walk visitor = param.walk visitor := by
  obtain ⟨leading, value⟩ := param
  rw [Param.outline, Outline.walk, walkOutlines_singleton,
    Expression.walk_outline visitor value, Param.walk]

theorem Hash.walk_outline (visitor : Visitor σ) (hash : Hash) :
    hash.outline.walk visitor = hash.walk visitor := by
  obtain ⟨pairs, loc⟩ := hash
  rw [Hash.outline, Outline.walk, walkPairs_outline visitor pairs, Hash.walk]

theorem HashPair.walk_outline (visitor : Visitor σ) (pair : HashPair) :
    pair.outline.walk visitor = pair.walk visitor := by
  obtain ⟨leading, key, separator, value, loc⟩ := pair
  rw [HashPair.outline, Outline.walk, walkOutlines_singleton,
    Expression.walk_outline visitor value, HashPair.walk]

theorem walkParams_outline (visitor : Visitor σ) (params : List Param) :
    walkOutlines visitor (paramOutlines params) = walkParams visitor params := by
  cases params with
  | nil => rw [paramOutlines, walkOutlines, walkParams]
  | cons param params =>
      rw [paramOutlines, walkOutlines, Param.walk_outline visitor param,
        walkParams_outline visitor params, walkParams]

theorem walkPairs_outline (visitor : Visitor σ) (pairs : List HashPair) :
    walkOutlines visitor (pairOutlines pairs) = walkPairs visitor pairs := by
  cases pairs with
  | nil => rw [pairOutlines, walkOutlines, walkPairs]
  | cons pair pairs =>
      rw [pairOutlines, walkOutlines, HashPair.walk_outline visitor pair,
        walkPairs_outline visitor pairs, walkPairs]

end

theorem Tag.walk_outlines (visitor : Visitor σ) (tag : Tag) :
    walkOutlines visitor tag.outlines = tag.walk visitor := by
  rw [Tag.outlines, walkOutlines, walkOutlines_append, Expression.walk_outline,
    walkParams_outline, Tag.walk]
  cases tag.hash with
  | none => rfl
  | some hash =>
      rw [Option.map_some, Option.toList_some, walkOutlines_singleton, Hash.walk_outline]

mutual

theorem Statement.walk_outline (visitor : Visitor σ) (statement : Statement) :
    statement.outline.walk visitor = statement.walk visitor := by
  cases statement with
  | text run =>
      rw [Statement.outline, Outline.walk, walkOutlines_singleton, walk_leaf, Statement.walk]
  | comment c =>
      rw [Statement.outline, Outline.walk, walkOutlines_singleton, walk_leaf, Statement.walk]
  | mustache m =>
      rw [Statement.outline, Outline.walk, walkOutlines_singleton, Outline.walk,
        Tag.walk_outlines, Statement.walk]
  | modifier m =>
      rw [Statement.outline, Outline.walk, walkOutlines_singleton, Outline.walk,
        Tag.walk_outlines, Statement.walk]
  | block b =>
      rw [Statement.outline, Outline.walk, walkOutlines_singleton,
        Block.walk_outline visitor b, Statement.walk]

theorem Block.walk_outline (visitor : Visitor σ) (block : Block) :
    block.outline.walk visitor = block.walk visitor := by
  obtain ⟨opening, program, inverse, close, loc⟩ := block
  rw [Block.outline, Outline.walk, walkOutlines_append, walkOutlines_append, Tag.walk_outlines,
    walkStatements_outline visitor program, walkInverse_outline visitor inverse, Block.walk]

theorem Inverse.walk_outline (visitor : Visitor σ) (inverse : Inverse) :
    inverse.outline.walk visitor = inverse.walk visitor := by
  cases inverse with
  | otherwise tag body =>
      rw [Inverse.outline, Outline.walk, walkStatements_outline visitor body, Inverse.walk]
  | chained b =>
      rw [Inverse.outline, Outline.walk, walkOutlines_singleton, Block.walk_outline visitor b,
        Inverse.walk]

theorem walkStatements_outline (visitor : Visitor σ) (statements : List Statement) :
    walkOutlines visitor (statementOutlines statements) = walkStatements visitor statements := by
  cases statements with
  | nil => rw [statementOutlines, walkOutlines, walkStatements]
  | cons statement statements =>
      rw [statementOutlines, walkOutlines, Statement.walk_outline visitor statement,
        walkStatements_outline visitor statements, walkStatements]

theorem walkInverse_outline (visitor : Visitor σ) (inverse : Option Inverse) :
    walkOutlines visitor (inverseOutlines inverse) = walkInverse visitor inverse := by
  cases inverse with
  | none => rw [inverseOutlines, walkOutlines, walkInverse]
  | some inverse =>
      rw [inverseOutlines, walkOutlines_singleton, Inverse.walk_outline visitor inverse,
        walkInverse]

end

/-- A walk of a template is a walk of its outline. -/
theorem Template.walk_outline (visitor : Visitor σ) (template : Template) :
    template.outline.walk visitor = template.walk visitor := by
  rw [Template.outline, Outline.walk, walkStatements_outline, Template.walk]

end

/-! ## Recorded walks -/

/-- Where a node stands: its number inside the node around it, then where that one stands.  The
root stands at the empty address. -/
abbrev Address := List Nat

def nextSibling : Address → Address
  | [] => []
  | number :: outer => (number + 1) :: outer

inductive WalkEvent where
  | visit (address : Address) (node : Node)
  | leave (address : Address) (node : Node)

def WalkEvent.address : WalkEvent → Address
  | .visit address _ => address
  | .leave address _ => address

def WalkEvent.node : WalkEvent → Node
  | .visit _ node => node
  | .leave _ node => node

structure Recording where
  /-- Where the next node stands. -/
  next : Address
  events : List WalkEvent

def Recording.start : Recording :=
  ⟨[], []⟩

/-- Writes down every visit and every leave, and answers each visit as `verdict` says. -/
def Visitor.recorder (verdict : Address → Node → Verdict) : Visitor Recording where
  visit node recording :=
    (verdict recording.next node,
      ⟨0 :: recording.next, recording.events ++ [.visit recording.next node]⟩)
  leave node recording :=
    ⟨nextSibling recording.next.tail,
      recording.events ++ [.leave recording.next.tail node]⟩

def Template.recorded (verdict : Address → Node → Verdict) (template : Template) :
    Except Recording Recording :=
  template.walk (.recorder verdict) .start

/-- The events of a walk, stopped or not. -/
def Template.trace (verdict : Address → Node → Verdict) (template : Template) : List WalkEvent :=
  (Walk.finalState (template.recorded verdict)).events

end TemplateSelectors
