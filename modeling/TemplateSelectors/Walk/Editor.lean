import TemplateSelectors.Walk

/-!
# Walks that edit

An editor meets the same nodes in the same order as a visitor.  On its visit it
may put another tag in place of the tag of a mustache, a modifier or a block, and
another path in place of a path; the children that are walked next are those of
the new tag.  When the walk is stopped, the edits made so far stay.
-/

set_option autoImplicit false

namespace TemplateSelectors

/-- What to do on the way, and what to put in place of tags and paths. -/
structure Editor (σ : Type) where
  /-- The visit to a node that cannot be edited. -/
  visit : Node → σ → Verdict × σ
  mustache : Mustache → σ → Verdict × Tag × σ
  modifier : Mustache → σ → Verdict × Tag × σ
  block : Block → σ → Verdict × Tag × σ
  path : PathExpression → σ → Verdict × PathExpression × σ
  leave : Node → σ → σ

/-- What is left of a node after a walk, whether the walk was stopped, and the
state. -/
structure Edited (σ α : Type) where
  stopped : Bool
  value : α
  state : σ

namespace Edited

variable {σ α β : Type}

/-- Goes on with `second`, unless the walk has stopped; then it stays as it is. -/
def andThen (first : Edited σ α) (second : β) (walk : σ → Edited σ β) : Edited σ (α × β) :=
  if first.stopped then ⟨true, (first.value, second), first.state⟩
  else
    let next := walk first.state
    ⟨next.stopped, (first.value, next.value), next.state⟩

def map (f : α → β) (edited : Edited σ α) : Edited σ β :=
  ⟨edited.stopped, f edited.value, edited.state⟩

def leave (editor : Editor σ) (node : α → Node) (edited : Edited σ α) : Edited σ α :=
  if edited.stopped then edited
  else ⟨false, edited.value, editor.leave (node edited.value) edited.state⟩

/-- The end of a visit that has put `value` in its node: its children, then the
leave. -/
def resume (editor : Editor σ) (node : α → Node) (children : α → σ → Edited σ α) :
    Verdict × α × σ → Edited σ α
  | (.stop, value, state) => ⟨true, value, state⟩
  | (.skip, value, state) => leave editor node ⟨false, value, state⟩
  | (.proceed, value, state) => leave editor node (children value state)

def around (editor : Editor σ) (node : α → Node) (value : α) (children : σ → Edited σ α)
    (state : σ) : Edited σ α :=
  match editor.visit (node value) state with
  | (.stop, state) => ⟨true, value, state⟩
  | (.skip, state) => leave editor node ⟨false, value, state⟩
  | (.proceed, state) => leave editor node (children state)

def leaf (value : α) (state : σ) : Edited σ α :=
  ⟨false, value, state⟩

end Edited

open Edited

variable {σ : Type}

def PathExpression.edit (editor : Editor σ) (path : PathExpression) (state : σ) :
    Edited σ PathExpression :=
  resume editor .path leaf (editor.path path state)

mutual

def Expression.edit (editor : Editor σ) : Expression → σ → Edited σ Expression
  | .path p =>
      around editor .expression (.path p) fun state => (p.edit editor state).map .path
  | .literal l =>
      around editor .expression (.literal l) fun state =>
        (around editor .literal l (leaf l) state).map .literal
  | .call c =>
      around editor .expression (.call c) fun state => (c.edit editor state).map .call

def SubExpression.edit (editor : Editor σ) : SubExpression → σ → Edited σ SubExpression
  | ⟨leading, callee, params, hash, trailing, loc⟩ =>
      around editor .subExpression ⟨leading, callee, params, hash, trailing, loc⟩ fun state =>
        (((callee.edit editor state).andThen params (editParams editor params)).andThen hash
          (hash.edit editor)).map
          fun ((callee, params), hash) => ⟨leading, callee, params, hash, trailing, loc⟩

def Param.edit (editor : Editor σ) : Param → σ → Edited σ Param
  | ⟨leading, value⟩ =>
      around editor .param ⟨leading, value⟩ fun state =>
        (value.edit editor state).map fun value => ⟨leading, value⟩

def Hash.edit (editor : Editor σ) : Hash → σ → Edited σ Hash
  | ⟨pairs, loc⟩ =>
      around editor .hash ⟨pairs, loc⟩ fun state =>
        (editPairs editor pairs state).map fun pairs => ⟨pairs, loc⟩

def HashPair.edit (editor : Editor σ) : HashPair → σ → Edited σ HashPair
  | ⟨leading, key, separator, value, loc⟩ =>
      around editor .hashPair ⟨leading, key, separator, value, loc⟩ fun state =>
        (value.edit editor state).map fun value => ⟨leading, key, separator, value, loc⟩

def editParams (editor : Editor σ) : List Param → σ → Edited σ (List Param)
  | [], state => leaf [] state
  | param :: params, state =>
      ((param.edit editor state).andThen params (editParams editor params)).map
        fun (param, params) => param :: params

def editPairs (editor : Editor σ) : List HashPair → σ → Edited σ (List HashPair)
  | [], state => leaf [] state
  | pair :: pairs, state =>
      ((pair.edit editor state).andThen pairs (editPairs editor pairs)).map
        fun (pair, pairs) => pair :: pairs

end

def editHash (editor : Editor σ) : Option Hash → σ → Edited σ (Option Hash)
  | none, state => leaf none state
  | some hash, state => (hash.edit editor state).map some

def Tag.edit (editor : Editor σ) (tag : Tag) (state : σ) : Edited σ Tag :=
  (((tag.callee.edit editor state).andThen tag.params (editParams editor tag.params)).andThen
    tag.hash (editHash editor tag.hash)).map
    fun ((callee, params), hash) => { tag with callee := callee, params := params, hash := hash }

def Mustache.edit (editor : Editor σ) (node : Mustache → Node) (mustache : Mustache)
    (visited : Verdict × Tag × σ) : Edited σ Mustache :=
  resume editor node
    (fun mustache state =>
      (mustache.tag.edit editor state).map fun tag => { mustache with tag := tag })
    (visited.1, { mustache with tag := visited.2.1 }, visited.2.2)

mutual

def Statement.edit (editor : Editor σ) : Statement → σ → Edited σ Statement
  | .text run =>
      around editor .statement (.text run) fun state =>
        (around editor .text run (leaf run) state).map .text
  | .comment c =>
      around editor .statement (.comment c) fun state =>
        (around editor .comment c (leaf c) state).map .comment
  | .mustache m =>
      around editor .statement (.mustache m) fun state =>
        (m.edit editor .mustache (editor.mustache m state)).map .mustache
  | .modifier m =>
      around editor .statement (.modifier m) fun state =>
        (m.edit editor .modifier (editor.modifier m state)).map .modifier
  | .block b =>
      around editor .statement (.block b) fun state => (b.edit editor state).map .block

def Block.edit (editor : Editor σ) : Block → σ → Edited σ Block
  | ⟨opening, program, inverse, close, loc⟩, state =>
      let visited := editor.block ⟨opening, program, inverse, close, loc⟩ state
      resume editor .block
        (fun _ state =>
          (((visited.2.1.edit editor state).andThen program (editStatements editor program)).andThen
            inverse (editInverse editor inverse)).map
            fun ((opening, program), inverse) => ⟨opening, program, inverse, close, loc⟩)
        (visited.1, ⟨visited.2.1, program, inverse, close, loc⟩, visited.2.2)

def Inverse.edit (editor : Editor σ) : Inverse → σ → Edited σ Inverse
  | .otherwise tag body =>
      around editor .inverse (.otherwise tag body) fun state =>
        (editStatements editor body state).map fun body => .otherwise tag body
  | .chained b =>
      around editor .inverse (.chained b) fun state => (b.edit editor state).map .chained

def editStatements (editor : Editor σ) : List Statement → σ → Edited σ (List Statement)
  | [], state => leaf [] state
  | statement :: statements, state =>
      ((statement.edit editor state).andThen statements (editStatements editor statements)).map
        fun (statement, statements) => statement :: statements

def editInverse (editor : Editor σ) : Option Inverse → σ → Edited σ (Option Inverse)
  | none, state => leaf none state
  | some inverse, state => (inverse.edit editor state).map some

end

def Template.edit (editor : Editor σ) (template : Template) (state : σ) : Edited σ Template :=
  around editor .template template
    (fun state =>
      (editStatements editor template.body state).map fun body => { template with body := body })
    state

/-- The editor that changes nothing and does what a visitor does. -/
def Visitor.toEditor (visitor : Visitor σ) : Editor σ where
  visit := visitor.visit
  mustache m state :=
    let visited := visitor.visit (.mustache m) state
    (visited.1, m.tag, visited.2)
  modifier m state :=
    let visited := visitor.visit (.modifier m) state
    (visited.1, m.tag, visited.2)
  block b state :=
    let visited := visitor.visit (.block b) state
    (visited.1, b.opening, visited.2)
  path p state :=
    let visited := visitor.visit (.path p) state
    (visited.1, p, visited.2)
  leave := visitor.leave

end TemplateSelectors
