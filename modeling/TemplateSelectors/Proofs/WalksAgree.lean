import TemplateSelectors.Proofs.Outline
import TemplateSelectors.Walk.Editor

/-!
# A walk that edits nothing is a walk

Reading and editing walks are written apart, one function for each kind of node on either side.
With an editor that does what a visitor does and changes nothing, the two agree on every node: they
pass through the same states, stop at the same visit, and the nodes stay as they were.
-/

set_option autoImplicit false

namespace TemplateSelectors

/-- The end of a walk that leaves a node as it was. -/
def Edited.ofWalk {σ α : Type} (value : α) : Except σ σ → Edited σ α
  | .error state => ⟨true, value, state⟩
  | .ok state => ⟨false, value, state⟩

/-- From every state, `edit` ends as `walk` does and leaves `value` as it was. -/
def Retraces {σ α : Type} (edit : σ → Edited σ α) (value : α) (walk : Walk σ) : Prop :=
  ∀ state, edit state = Edited.ofWalk value (walk state)

section

variable {σ α β : Type} {value : α}

theorem retraces_leaf (value : α) : Retraces (Edited.leaf value) value (Walk.done : Walk σ) :=
  fun _ => rfl

theorem Retraces.map {edit : σ → Edited σ α} {walk : Walk σ} (retraces : Retraces edit value walk)
    (f : α → β) : Retraces (fun state => (edit state).map f) (f value) walk := by
  intro state
  simp only [retraces state]
  cases walk state <;> rfl

theorem Retraces.andThen {first : σ → Edited σ α} {second : σ → Edited σ β} {other : β}
    {walk next : Walk σ} (one : Retraces first value walk) (two : Retraces second other next) :
    Retraces (fun state => (first state).andThen other second) (value, other)
      (Walk.andThen walk next) := by
  intro state
  simp only [one state, Walk.andThen]
  cases walk state with
  | error stopped => rfl
  | ok state =>
      simp only [Edited.ofWalk, Edited.andThen, two state]
      cases next state <;> rfl

/-- The end of a visit to a node that is left as it was. -/
theorem Retraces.resume {visitor : Visitor σ} {children : α → σ → Edited σ α} {walk : Walk σ}
    (retraces : Retraces (children value) value walk) (node : α → Node) (state : σ) :
    Edited.resume visitor.toEditor node children
        ((visitor.visit (node value) state).1, value, (visitor.visit (node value) state).2) =
      Edited.ofWalk value (Walk.around visitor (node value) walk state) := by
  rw [Walk.around]
  rcases visitor.visit (node value) state with ⟨verdict, state⟩
  cases verdict with
  | stop => rfl
  | skip => rfl
  | proceed =>
      simp only [Edited.resume, retraces state]
      cases walk state <;> rfl

theorem around_eq_resume (editor : Editor σ) (node : α → Node) (value : α) (edit : σ → Edited σ α)
    (state : σ) :
    Edited.around editor node value edit state = Edited.resume editor node (fun _ => edit)
      ((editor.visit (node value) state).1, value, (editor.visit (node value) state).2) := by
  rw [Edited.around]
  rcases editor.visit (node value) state with ⟨verdict, state⟩
  cases verdict <;> rfl

theorem Retraces.around {visitor : Visitor σ} {edit : σ → Edited σ α} {walk : Walk σ}
    (retraces : Retraces edit value walk) (node : α → Node) :
    Retraces (Edited.around visitor.toEditor node value edit) value
      (Walk.around visitor (node value) walk) := by
  intro state
  rw [around_eq_resume]
  exact @Retraces.resume σ α value visitor (fun _ => edit) walk retraces node state

end

section

variable {σ : Type} (visitor : Visitor σ)

theorem PathExpression.edit_retraces (path : PathExpression) :
    Retraces (path.edit visitor.toEditor) path (Walk.around visitor (.path path) Walk.done) := by
  intro state
  exact (retraces_leaf path).resume .path state

mutual

theorem Expression.edit_retraces (expression : Expression) :
    Retraces (expression.edit visitor.toEditor) expression (expression.walk visitor) := by
  cases expression with
  | path p =>
      rw [Expression.edit, Expression.walk]
      exact ((p.edit_retraces visitor).map .path).around .expression
  | literal l =>
      rw [Expression.edit, Expression.walk]
      exact (((retraces_leaf l).around .literal).map .literal).around .expression
  | call c =>
      rw [Expression.edit, Expression.walk]
      exact ((SubExpression.edit_retraces c).map .call).around .expression

theorem SubExpression.edit_retraces (call : SubExpression) :
    Retraces (call.edit visitor.toEditor) call (call.walk visitor) := by
  obtain ⟨leading, callee, params, hash, trailing, loc⟩ := call
  rw [SubExpression.edit, SubExpression.walk, ← andThen_assoc]
  exact ((((Expression.edit_retraces callee).andThen (editParams_retraces params)).andThen
    (Hash.edit_retraces hash)).map fun ((callee, params), hash) =>
      (⟨leading, callee, params, hash, trailing, loc⟩ : SubExpression)).around .subExpression

theorem Param.edit_retraces (param : Param) :
    Retraces (param.edit visitor.toEditor) param (param.walk visitor) := by
  obtain ⟨leading, value⟩ := param
  rw [Param.edit, Param.walk]
  exact ((Expression.edit_retraces value).map _).around .param

theorem Hash.edit_retraces (hash : Hash) :
    Retraces (hash.edit visitor.toEditor) hash (hash.walk visitor) := by
  obtain ⟨pairs, loc⟩ := hash
  rw [Hash.edit, Hash.walk]
  exact ((editPairs_retraces pairs).map fun pairs => (⟨pairs, loc⟩ : Hash)).around .hash

theorem HashPair.edit_retraces (pair : HashPair) :
    Retraces (pair.edit visitor.toEditor) pair (pair.walk visitor) := by
  obtain ⟨leading, key, separator, value, loc⟩ := pair
  rw [HashPair.edit, HashPair.walk]
  exact ((Expression.edit_retraces value).map fun value =>
    (⟨leading, key, separator, value, loc⟩ : HashPair)).around .hashPair

theorem editParams_retraces (params : List Param) :
    Retraces (editParams visitor.toEditor params) params (walkParams visitor params) := by
  cases params with
  | nil => exact retraces_leaf []
  | cons param params =>
      intro state
      rw [editParams, walkParams]
      exact ((Param.edit_retraces param).andThen (editParams_retraces params)).map _ state

theorem editPairs_retraces (pairs : List HashPair) :
    Retraces (editPairs visitor.toEditor pairs) pairs (walkPairs visitor pairs) := by
  cases pairs with
  | nil => exact retraces_leaf []
  | cons pair pairs =>
      intro state
      rw [editPairs, walkPairs]
      exact ((HashPair.edit_retraces pair).andThen (editPairs_retraces pairs)).map _ state

end

theorem Tag.edit_retraces (tag : Tag) :
    Retraces (tag.edit visitor.toEditor) tag (tag.walk visitor) := by
  obtain ⟨opener, leading, callee, params, hash, blockParams, trailing, closer, loc, source⟩ := tag
  have front := (callee.edit_retraces visitor).andThen (editParams_retraces visitor params)
  intro state
  rw [Tag.edit, Tag.walk, ← andThen_assoc]
  cases hash with
  | none => exact (front.andThen (retraces_leaf none)).map _ state
  | some hash => exact (front.andThen ((hash.edit_retraces visitor).map some)).map _ state

/-- A mustache, be it a modifier or not, with the tag that it has. -/
theorem Mustache.edit_retraces (mustache : Mustache) (node : Mustache → Node) (state : σ) :
    mustache.edit visitor.toEditor node ((visitor.visit (node mustache) state).1, mustache.tag,
        (visitor.visit (node mustache) state).2) =
      Edited.ofWalk mustache
        (Walk.around visitor (node mustache) (mustache.tag.walk visitor) state) := by
  have children : Retraces (fun state => (mustache.tag.edit visitor.toEditor state).map fun tag =>
      { mustache with tag := tag }) mustache (mustache.tag.walk visitor) :=
    (mustache.tag.edit_retraces visitor).map fun tag => { mustache with tag := tag }
  exact children.resume node state

mutual

theorem Statement.edit_retraces (statement : Statement) :
    Retraces (statement.edit visitor.toEditor) statement (statement.walk visitor) := by
  cases statement with
  | text run =>
      rw [Statement.edit, Statement.walk]
      exact (((retraces_leaf run).around .text).map .text).around .statement
  | comment c =>
      rw [Statement.edit, Statement.walk]
      exact (((retraces_leaf c).around .comment).map .comment).around .statement
  | mustache m =>
      rw [Statement.edit, Statement.walk]
      exact (Retraces.map (m.edit_retraces visitor .mustache) .mustache).around .statement
  | modifier m =>
      rw [Statement.edit, Statement.walk]
      exact (Retraces.map (m.edit_retraces visitor .modifier) .modifier).around .statement
  | block b =>
      rw [Statement.edit, Statement.walk]
      exact ((Block.edit_retraces b).map .block).around .statement

theorem Block.edit_retraces (block : Block) :
    Retraces (block.edit visitor.toEditor) block (block.walk visitor) := by
  obtain ⟨opening, program, inverse, close, loc⟩ := block
  have children := (((opening.edit_retraces visitor).andThen
    (editStatements_retraces program)).andThen (editInverse_retraces inverse)).map
      fun ((opening, program), inverse) => (⟨opening, program, inverse, close, loc⟩ : Block)
  intro state
  rw [Block.edit, Block.walk, ← andThen_assoc]
  exact children.resume .block state

theorem Inverse.edit_retraces (inverse : Inverse) :
    Retraces (inverse.edit visitor.toEditor) inverse (inverse.walk visitor) := by
  cases inverse with
  | otherwise tag body =>
      rw [Inverse.edit, Inverse.walk]
      exact ((editStatements_retraces body).map (.otherwise tag)).around .inverse
  | chained b =>
      rw [Inverse.edit, Inverse.walk]
      exact ((Block.edit_retraces b).map .chained).around .inverse

theorem editStatements_retraces (statements : List Statement) :
    Retraces (editStatements visitor.toEditor statements) statements
      (walkStatements visitor statements) := by
  cases statements with
  | nil => exact retraces_leaf []
  | cons statement statements =>
      intro state
      rw [editStatements, walkStatements]
      exact ((Statement.edit_retraces statement).andThen
        (editStatements_retraces statements)).map _ state

theorem editInverse_retraces (inverse : Option Inverse) :
    Retraces (editInverse visitor.toEditor inverse) inverse (walkInverse visitor inverse) := by
  cases inverse with
  | none => exact retraces_leaf none
  | some inverse => exact (Inverse.edit_retraces inverse).map some

end

theorem Template.edit_retraces (template : Template) :
    Retraces (template.edit visitor.toEditor) template (template.walk visitor) := by
  intro state
  rw [Template.edit, Template.walk]
  exact (((editStatements_retraces visitor template.body).map fun body =>
    { template with body := body }).around .template) state

end

/-- However the visits are answered, the walk that may edit and does not records the same events as
the walk that only reads, is stopped if that one is, and leaves the template as it was. -/
theorem Template.edit_records_as_walk (verdict : Address → Node → Verdict) (template : Template) :
    let edited := template.edit (Visitor.recorder verdict).toEditor .start
    edited.state.events = template.trace verdict ∧
      edited.stopped = !(template.recorded verdict).isOk ∧ edited.value = template := by
  intro edited
  have same : edited = Edited.ofWalk template (template.recorded verdict) :=
    template.edit_retraces (Visitor.recorder verdict) .start
  rw [same, Template.trace]
  cases template.recorded verdict with
  | error stopped => exact ⟨rfl, rfl, rfl⟩
  | ok state => exact ⟨rfl, rfl, rfl⟩

end TemplateSelectors
