import TemplateSelectors.Proofs.PartPlaces
import TemplateSelectors.Proofs.WalkControl

/-!
# The nodes that a walk visits

A walk that is never held back visits the nodes of the outline, each before what is inside it.
Among them are the statements of the template at every depth, chained blocks included, and its
paths and literals, each of them once.
-/

set_option autoImplicit false

namespace TemplateSelectors

/-! ## Walks that are not held back -/

mutual

/-- The nodes of an outline, each before what is inside it. -/
def Outline.nodes : Outline → List Node
  | .node root inside => root :: outlineNodes inside

def outlineNodes : List Outline → List Node
  | [] => []
  | outline :: outlines => outline.nodes ++ outlineNodes outlines

end

theorem outlineNodes_append (front back : List Outline) :
    outlineNodes (front ++ back) = outlineNodes front ++ outlineNodes back := by
  induction front with
  | nil => rfl
  | cons outline front inductionHypothesis =>
      rw [List.cons_append, outlineNodes, outlineNodes, inductionHypothesis, List.append_assoc]

def WalkEvent.visited? : WalkEvent → Option Node
  | .visit _ node => some node
  | .leave _ _ => none

/-- Lets a walk into all children. -/
def alwaysProceed (_ : Address) (_ : Node) : Verdict :=
  .proceed

mutual

theorem Outline.visited_events (outline : Outline) (address : Address) :
    (outline.events alwaysProceed address).filterMap WalkEvent.visited? = outline.nodes := by
  obtain ⟨root, inside⟩ := outline
  rw [Outline.events, Outline.nodes, ← visited_insideEvents inside address 0]
  simp [alwaysProceed, WalkEvent.visited?]

theorem visited_insideEvents (outlines : List Outline) (outer : Address) (number : Nat) :
    (insideEvents alwaysProceed outer number outlines).filterMap WalkEvent.visited? =
      outlineNodes outlines := by
  cases outlines with
  | nil => rw [insideEvents, outlineNodes, List.filterMap_nil]
  | cons outline outlines =>
      rw [insideEvents, List.filterMap_append, outline.visited_events (number :: outer),
        visited_insideEvents outlines outer (number + 1), outlineNodes]

end

namespace Template

/-- The nodes that a walk visits which is not held back, in the order of the visits. -/
def visited (template : Template) : List Node :=
  (template.trace alwaysProceed).filterMap WalkEvent.visited?

theorem recorded_alwaysProceed (template : Template) :
    template.recorded alwaysProceed = .ok ⟨[], template.outline.events alwaysProceed []⟩ := by
  apply recorded_of_calm
  rw [upToStop_eq_none_iff]
  intro event _
  cases event with
  | visit address node => rfl
  | leave address node => rfl

theorem visited_eq_nodes (template : Template) : template.visited = template.outline.nodes := by
  rw [visited, trace, recorded_alwaysProceed]
  exact template.outline.visited_events []

end Template

/-! ## Landmarks -/

/-- The nodes that stand for statements, and paths and literals. -/
def Node.isLandmark : Node → Bool
  | .text _ | .comment _ | .mustache _ | .modifier _ | .block _ | .path _ | .literal _ => true
  | .template _ | .statement _ | .inverse _ | .expression _ | .subExpression _ | .param _ |
    .hash _ | .hashPair _ => false

def Part.leaf? : Part → Option Node
  | .expression (.path p) => some (.path p)
  | .expression (.literal l) => some (.literal l)
  | _ => none

def Tag.leaves (tag : Tag) : List Node :=
  tag.parts.filterMap Part.leaf?

mutual

def Statement.landmarks : Statement → List Node
  | .text run => [.text run]
  | .comment c => [.comment c]
  | .mustache m => .mustache m :: m.tag.leaves
  | .modifier m => .modifier m :: m.tag.leaves
  | .block b => b.landmarks

def Block.landmarks : Block → List Node
  | ⟨opening, program, inverse, close, loc⟩ =>
      .block ⟨opening, program, inverse, close, loc⟩ ::
        (opening.leaves ++ statementLandmarks program ++ inverseLandmarks inverse)

def Inverse.landmarks : Inverse → List Node
  | .otherwise _ body => statementLandmarks body
  | .chained b => b.landmarks

def statementLandmarks : List Statement → List Node
  | [] => []
  | statement :: statements => statement.landmarks ++ statementLandmarks statements

def inverseLandmarks : Option Inverse → List Node
  | none => []
  | some inverse => inverse.landmarks

end

/-- The statements at every depth with the paths and literals of their tags, each statement before
what is inside it. -/
def Template.landmarks (template : Template) : List Node :=
  statementLandmarks template.body

theorem leaf?_ownParts (hash : Hash) : hash.ownParts.filterMap Part.leaf? = [] := by
  unfold Hash.ownParts
  split <;> rfl

mutual

theorem Expression.landmarks_nodes (expression : Expression) :
    expression.outline.nodes.filter Node.isLandmark = expression.parts.filterMap Part.leaf? := by
  cases expression with
  | path p => rfl
  | literal l => rfl
  | call c =>
      have inside := SubExpression.landmarks_nodes c
      simpa [Expression.outline, Outline.nodes, outlineNodes, Expression.parts, List.filterMap_cons,
        Part.leaf?, Node.isLandmark] using inside

theorem SubExpression.landmarks_nodes (call : SubExpression) :
    call.outline.nodes.filter Node.isLandmark = call.parts.filterMap Part.leaf? := by
  obtain ⟨leading, callee, params, hash, trailing, loc⟩ := call
  have first := Expression.landmarks_nodes callee
  have positional := landmarks_paramNodes params
  have keyword := Hash.landmarks_nodes hash
  simp [SubExpression.outline, Outline.nodes, outlineNodes, outlineNodes_append,
    SubExpression.parts, Node.isLandmark, first, positional, keyword]

theorem Param.landmarks_nodes (param : Param) :
    param.outline.nodes.filter Node.isLandmark = param.parts.filterMap Part.leaf? := by
  obtain ⟨leading, value⟩ := param
  have inside := Expression.landmarks_nodes value
  simpa [Param.outline, Outline.nodes, outlineNodes, Param.parts, Node.isLandmark] using inside

theorem Hash.landmarks_nodes (hash : Hash) :
    hash.outline.nodes.filter Node.isLandmark = hash.parts.filterMap Part.leaf? := by
  obtain ⟨pairs, loc⟩ := hash
  have inside := landmarks_pairNodes pairs
  simpa [Hash.outline, Outline.nodes, Hash.parts, Node.isLandmark, leaf?_ownParts] using inside

theorem HashPair.landmarks_nodes (pair : HashPair) :
    pair.outline.nodes.filter Node.isLandmark = pair.parts.filterMap Part.leaf? := by
  obtain ⟨leading, key, separator, value, loc⟩ := pair
  have inside := Expression.landmarks_nodes value
  simpa [HashPair.outline, Outline.nodes, outlineNodes, HashPair.parts, List.filterMap_cons,
    Part.leaf?, Node.isLandmark] using inside

theorem landmarks_paramNodes (params : List Param) :
    (outlineNodes (paramOutlines params)).filter Node.isLandmark =
      (paramParts params).filterMap Part.leaf? := by
  cases params with
  | nil => rfl
  | cons param params =>
      rw [paramOutlines, outlineNodes, List.filter_append, Param.landmarks_nodes param,
        landmarks_paramNodes params, paramParts, List.filterMap_append]

theorem landmarks_pairNodes (pairs : List HashPair) :
    (outlineNodes (pairOutlines pairs)).filter Node.isLandmark =
      (pairParts pairs).filterMap Part.leaf? := by
  cases pairs with
  | nil => rfl
  | cons pair pairs =>
      rw [pairOutlines, outlineNodes, List.filter_append, HashPair.landmarks_nodes pair,
        landmarks_pairNodes pairs, pairParts, List.filterMap_append]

end

theorem Tag.landmarks_nodes (tag : Tag) :
    (outlineNodes tag.outlines).filter Node.isLandmark = tag.leaves := by
  have callee := Expression.landmarks_nodes tag.callee
  have params := landmarks_paramNodes tag.params
  have hash : (outlineNodes (tag.hash.map Hash.outline).toList).filter Node.isLandmark =
      ((tag.hash.map Hash.parts).getD []).filterMap Part.leaf? := by
    cases tag.hash with
    | none => rfl
    | some hash => simpa [outlineNodes] using Hash.landmarks_nodes hash
  rw [Tag.outlines, outlineNodes, outlineNodes_append, List.filter_append, List.filter_append,
    callee, params, hash, Tag.leaves, Tag.parts, List.filterMap_cons_none rfl,
    List.filterMap_append, List.filterMap_append, List.append_assoc]

mutual

theorem Statement.landmarks_nodes (statement : Statement) :
    statement.outline.nodes.filter Node.isLandmark = statement.landmarks := by
  cases statement with
  | text run => rfl
  | comment c => rfl
  | mustache m =>
      rw [Statement.landmarks, ← Tag.landmarks_nodes]
      simp [Statement.outline, Outline.nodes, outlineNodes, List.filter_cons, Node.isLandmark]
  | modifier m =>
      rw [Statement.landmarks, ← Tag.landmarks_nodes]
      simp [Statement.outline, Outline.nodes, outlineNodes, List.filter_cons, Node.isLandmark]
  | block b =>
      rw [Statement.landmarks, ← Block.landmarks_nodes b]
      simp [Statement.outline, Outline.nodes, outlineNodes, Node.isLandmark]

theorem Block.landmarks_nodes (block : Block) :
    block.outline.nodes.filter Node.isLandmark = block.landmarks := by
  obtain ⟨opening, program, inverse, close, loc⟩ := block
  rw [Block.landmarks, ← Tag.landmarks_nodes, ← landmarks_statementNodes program,
    ← landmarks_inverseNodes inverse]
  simp [Block.outline, Outline.nodes, outlineNodes_append, List.filter_cons, Node.isLandmark]

theorem Inverse.landmarks_nodes (inverse : Inverse) :
    inverse.outline.nodes.filter Node.isLandmark = inverse.landmarks := by
  cases inverse with
  | otherwise tag body =>
      rw [Inverse.landmarks, ← landmarks_statementNodes body]
      simp [Inverse.outline, Outline.nodes, Node.isLandmark]
  | chained b =>
      rw [Inverse.landmarks, ← Block.landmarks_nodes b]
      simp [Inverse.outline, Outline.nodes, outlineNodes, Node.isLandmark]

theorem landmarks_statementNodes (statements : List Statement) :
    (outlineNodes (statementOutlines statements)).filter Node.isLandmark =
      statementLandmarks statements := by
  cases statements with
  | nil => rfl
  | cons statement statements =>
      rw [statementOutlines, outlineNodes, List.filter_append,
        Statement.landmarks_nodes statement, landmarks_statementNodes statements,
        statementLandmarks]

theorem landmarks_inverseNodes (inverse : Option Inverse) :
    (outlineNodes (inverseOutlines inverse)).filter Node.isLandmark =
      inverseLandmarks inverse := by
  cases inverse with
  | none => rfl
  | some inverse =>
      rw [inverseOutlines, outlineNodes, outlineNodes, List.append_nil,
        Inverse.landmarks_nodes inverse, inverseLandmarks]

end

namespace Template

/-- A walk that is not held back visits every landmark once, in the order of the tree. -/
theorem filter_visited (template : Template) :
    template.visited.filter Node.isLandmark = template.landmarks := by
  rw [visited_eq_nodes, landmarks, ← landmarks_statementNodes]
  simp [Template.outline, Outline.nodes, Node.isLandmark]

/-- What is told of landmarks alone is told in the order of the tree. -/
theorem filterMap_visited {α : Type} {told : Node → Option α}
    (only : ∀ node value, told node = some value → node.isLandmark = true) (template : Template) :
    template.visited.filterMap told = template.landmarks.filterMap told := by
  rw [← filter_visited, List.filterMap_filter]
  congr 1
  funext node
  split
  · rfl
  · next other =>
      cases value : told node with
      | none => rfl
      | some value' => exact absurd (only node value' value) other

end Template

/-! ## Statements, paths and literals -/

/-- The statement that is visited as text, comment, mustache, modifier or block. -/
def Node.statement? : Node → Option Statement
  | .text run => some (.text run)
  | .comment c => some (.comment c)
  | .mustache m => some (.mustache m)
  | .modifier m => some (.modifier m)
  | .block b => some (.block b)
  | _ => none

def Node.atom? : Node → Option Expression
  | .path p => some (.path p)
  | .literal l => some (.literal l)
  | _ => none

namespace Template

/-- The statements of a template at every depth.  A chained block counts as a statement. -/
def everyStatement (template : Template) : List Statement :=
  template.landmarks.filterMap Node.statement?

def everyAtom (template : Template) : List Expression :=
  template.landmarks.filterMap Node.atom?

/-- A walk that is not held back visits every statement once. -/
theorem statement?_visited (template : Template) :
    template.visited.filterMap Node.statement? = template.everyStatement := by
  apply filterMap_visited
  intro node statement told
  cases node <;> cases told <;> rfl

/-- A walk that is not held back visits every path and every literal once. -/
theorem atom?_visited (template : Template) :
    template.visited.filterMap Node.atom? = template.everyAtom := by
  apply filterMap_visited
  intro node atom told
  cases node <;> cases told <;> rfl

end Template

end TemplateSelectors
