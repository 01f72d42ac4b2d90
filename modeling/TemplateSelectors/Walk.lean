import TemplateSelectors.Template.Tree

/-!
# Walks

A walk visits every node of a template in document order and leaves it after its
children.  The answer to a visit decides how the walk goes on.  A walk that was
stopped ends there and then: neither the node nor any node around it is left.
-/

set_option autoImplicit false

namespace TemplateSelectors

inductive Node where
  | template (template : Template)
  | statement (statement : Statement)
  | text (run : TextRun)
  | comment (comment : Comment)
  | mustache (mustache : Mustache)
  | modifier (mustache : Mustache)
  | block (block : Block)
  | inverse (inverse : Inverse)
  | expression (expression : Expression)
  | path (path : PathExpression)
  | literal (literal : Literal)
  | subExpression (call : SubExpression)
  | param (param : Param)
  | hash (hash : Hash)
  | hashPair (pair : HashPair)

/-- How a walk goes on after a visit: into the children, past them, or not at all. -/
inductive Verdict where
  | proceed
  | skip
  | stop
deriving DecidableEq, Repr, Inhabited

structure Visitor (σ : Type) where
  visit : Node → σ → Verdict × σ
  leave : Node → σ → σ

/-- A walk from one state to another; an error is the state in which it stopped. -/
abbrev Walk (σ : Type) := σ → Except σ σ

namespace Walk

variable {σ : Type}

def done : Walk σ :=
  .ok

/-- One walk after another, unless the first was stopped. -/
def andThen (first second : Walk σ) : Walk σ := fun state =>
  match first state with
  | .error stopped => .error stopped
  | .ok state => second state

def around (visitor : Visitor σ) (node : Node) (children : Walk σ) : Walk σ := fun state =>
  match visitor.visit node state with
  | (.stop, state) => .error state
  | (.skip, state) => .ok (visitor.leave node state)
  | (.proceed, state) =>
      match children state with
      | .error stopped => .error stopped
      | .ok state => .ok (visitor.leave node state)

end Walk

open Walk

variable {σ : Type}

mutual

def Expression.walk (visitor : Visitor σ) : Expression → Walk σ
  | .path p => around visitor (.expression (.path p)) (around visitor (.path p) done)
  | .literal l => around visitor (.expression (.literal l)) (around visitor (.literal l) done)
  | .call c => around visitor (.expression (.call c)) (c.walk visitor)

def SubExpression.walk (visitor : Visitor σ) : SubExpression → Walk σ
  | ⟨leading, callee, params, hash, trailing, loc⟩ =>
      around visitor (.subExpression ⟨leading, callee, params, hash, trailing, loc⟩)
        (andThen (callee.walk visitor) (andThen (walkParams visitor params) (hash.walk visitor)))

def Param.walk (visitor : Visitor σ) : Param → Walk σ
  | ⟨leading, value⟩ => around visitor (.param ⟨leading, value⟩) (value.walk visitor)

def Hash.walk (visitor : Visitor σ) : Hash → Walk σ
  | ⟨pairs, loc⟩ => around visitor (.hash ⟨pairs, loc⟩) (walkPairs visitor pairs)

def HashPair.walk (visitor : Visitor σ) : HashPair → Walk σ
  | ⟨leading, key, separator, value, loc⟩ =>
      around visitor (.hashPair ⟨leading, key, separator, value, loc⟩) (value.walk visitor)

def walkParams (visitor : Visitor σ) : List Param → Walk σ
  | [] => done
  | param :: params => andThen (param.walk visitor) (walkParams visitor params)

def walkPairs (visitor : Visitor σ) : List HashPair → Walk σ
  | [] => done
  | pair :: pairs => andThen (pair.walk visitor) (walkPairs visitor pairs)

end

/-- Callee, positional arguments, keyword arguments. -/
def Tag.walk (visitor : Visitor σ) (tag : Tag) : Walk σ :=
  andThen (tag.callee.walk visitor)
    (andThen (walkParams visitor tag.params)
      (match tag.hash with
        | none => done
        | some hash => hash.walk visitor))

mutual

def Statement.walk (visitor : Visitor σ) : Statement → Walk σ
  | .text run => around visitor (.statement (.text run)) (around visitor (.text run) done)
  | .comment c => around visitor (.statement (.comment c)) (around visitor (.comment c) done)
  | .mustache m =>
      around visitor (.statement (.mustache m)) (around visitor (.mustache m) (m.tag.walk visitor))
  | .modifier m =>
      around visitor (.statement (.modifier m)) (around visitor (.modifier m) (m.tag.walk visitor))
  | .block b => around visitor (.statement (.block b)) (b.walk visitor)

def Block.walk (visitor : Visitor σ) : Block → Walk σ
  | ⟨opening, program, inverse, close, loc⟩ =>
      around visitor (.block ⟨opening, program, inverse, close, loc⟩)
        (andThen (opening.walk visitor)
          (andThen (walkStatements visitor program) (walkInverse visitor inverse)))

def Inverse.walk (visitor : Visitor σ) : Inverse → Walk σ
  | .otherwise tag body =>
      around visitor (.inverse (.otherwise tag body)) (walkStatements visitor body)
  | .chained b => around visitor (.inverse (.chained b)) (b.walk visitor)

def walkStatements (visitor : Visitor σ) : List Statement → Walk σ
  | [] => done
  | statement :: statements =>
      andThen (statement.walk visitor) (walkStatements visitor statements)

def walkInverse (visitor : Visitor σ) : Option Inverse → Walk σ
  | none => done
  | some inverse => inverse.walk visitor

end

def Template.walk (visitor : Visitor σ) (template : Template) : Walk σ :=
  around visitor (.template template) (walkStatements visitor template.body)

def Walk.finalState : Except σ σ → σ
  | .error state => state
  | .ok state => state

end TemplateSelectors
