import TemplateSelectors.Proofs.PromotionWalk

/-!
# Edits of tags only

A template is a frame with the tags of its mustaches and blocks in it: the two together determine
it.  An editor that judges those tags and lets everything else pass leaves the frame alone, whether
it is stopped or not, and what it does to the tags is told by a run along the tags in a row.
-/

set_option autoImplicit false

namespace TemplateSelectors

/-! ## Frames -/

/-- Stands where a tag was taken out. -/
def Tag.blank : Tag :=
  .ofCallee [] default []

/-- All of a template but the tags of its mustaches and blocks. -/
def Template.frame (template : Template) : Template :=
  template.mapTags fun _ => .blank

theorem Leaf.tags_closeLeaves (close : Option CloseTag) : tags (closeLeaves close) = [] := by
  cases close with
  | none => rfl
  | some close => rfl

theorem Statement.length_tags_of_mapTags {f : Tag → Tag} {one two : Statement}
    (frame : one.mapTags f = two.mapTags f) :
    (Leaf.tags one.leaves).length = (Leaf.tags two.leaves).length := by
  have same := congrArg (fun statement => (Leaf.tags statement.leaves).length) frame
  simpa only [Statement.leaves_mapTags, Leaf.tags_map, List.length_map] using same

theorem length_tags_of_mapStatements {f : Tag → Tag} {one two : List Statement}
    (frame : mapStatements f one = mapStatements f two) :
    (Leaf.tags (statementLeaves one)).length = (Leaf.tags (statementLeaves two)).length := by
  have same := congrArg (fun statements => (Leaf.tags (statementLeaves statements)).length) frame
  simpa only [leaves_mapStatements, Leaf.tags_map, List.length_map] using same

section

variable {f g : Tag → Tag}

mutual

theorem Statement.eq_mapTags (one two : Statement) (frame : one.mapTags f = two.mapTags f)
    (tags : Leaf.tags one.leaves = (Leaf.tags two.leaves).map g) : one = two.mapTags g := by
  cases one with
  | text run => cases two <;> simp_all [Statement.mapTags]
  | comment c => cases two <;> simp_all [Statement.mapTags]
  | modifier m => cases two <;> simp_all [Statement.mapTags]
  | mustache m =>
      cases two with
      | mustache n =>
          obtain ⟨tag, trusting⟩ := m
          obtain ⟨other, trusting'⟩ := n
          simp_all [Statement.mapTags, Statement.leaves]
      | _ => simp [Statement.mapTags] at frame
  | block b =>
      cases two with
      | block c =>
          simp only [Statement.mapTags, Statement.block.injEq] at frame
          rw [Statement.mapTags, Block.eq_mapTags b c frame tags]
      | _ => simp [Statement.mapTags] at frame
termination_by structural one

theorem Block.eq_mapTags (one two : Block) (frame : one.mapTags f = two.mapTags f)
    (tags : Leaf.tags one.leaves = (Leaf.tags two.leaves).map g) : one = two.mapTags g := by
  obtain ⟨opening, program, inverse, close, loc⟩ := one
  obtain ⟨opening', program', inverse', close', loc'⟩ := two
  simp only [Block.mapTags, Block.mk.injEq] at frame
  obtain ⟨_, body, half, rfl, rfl⟩ := frame
  simp only [Block.leaves, Leaf.tags_invocation, Leaf.tags_append, Leaf.tags_closeLeaves,
    List.append_nil, List.map_cons, List.map_append, List.cons.injEq] at tags
  obtain ⟨rfl, rest⟩ := tags
  -- the frame tells how many of the tags belong to the program
  obtain ⟨inBody, inHalf⟩ := List.append_inj rest
    (by rw [List.length_map, length_tags_of_mapStatements body])
  rw [Block.mapTags, statements_eq_mapTags program program' body inBody,
    inverse_eq_mapTags inverse inverse' half inHalf]
termination_by structural one

theorem Inverse.eq_mapTags (one two : Inverse) (frame : one.mapTags f = two.mapTags f)
    (tags : Leaf.tags one.leaves = (Leaf.tags two.leaves).map g) : one = two.mapTags g := by
  cases one with
  | otherwise tag body =>
      cases two with
      | otherwise other body' =>
          simp only [Inverse.mapTags, Inverse.otherwise.injEq] at frame
          rw [Inverse.mapTags, frame.1, statements_eq_mapTags body body' frame.2 tags]
      | chained c => simp [Inverse.mapTags] at frame
  | chained b =>
      cases two with
      | otherwise other body => simp [Inverse.mapTags] at frame
      | chained c =>
          simp only [Inverse.mapTags, Inverse.chained.injEq] at frame
          rw [Inverse.mapTags, Block.eq_mapTags b c frame tags]
termination_by structural one

theorem statements_eq_mapTags (one two : List Statement)
    (frame : mapStatements f one = mapStatements f two)
    (tags : Leaf.tags (statementLeaves one) = (Leaf.tags (statementLeaves two)).map g) :
    one = mapStatements g two := by
  cases one with
  | nil =>
      cases two with
      | nil => rfl
      | cons other others => simp [mapStatements] at frame
  | cons statement statements =>
      cases two with
      | nil => simp [mapStatements] at frame
      | cons other others =>
          simp only [mapStatements, List.cons.injEq] at frame
          simp only [statementLeaves, Leaf.tags_append, List.map_append] at tags
          obtain ⟨first, rest⟩ := List.append_inj tags
            (by rw [List.length_map, Statement.length_tags_of_mapTags frame.1])
          rw [mapStatements, Statement.eq_mapTags statement other frame.1 first,
            statements_eq_mapTags statements others frame.2 rest]
termination_by structural one

theorem inverse_eq_mapTags (one two : Option Inverse)
    (frame : mapInverse f one = mapInverse f two)
    (tags : Leaf.tags (inverseLeaves one) = (Leaf.tags (inverseLeaves two)).map g) :
    one = mapInverse g two := by
  cases one with
  | none =>
      cases two with
      | none => rfl
      | some other => simp [mapInverse] at frame
  | some inverse =>
      cases two with
      | none => simp [mapInverse] at frame
      | some other =>
          simp only [mapInverse, Option.some.injEq] at frame
          rw [mapInverse, Inverse.eq_mapTags inverse other frame tags]
termination_by structural one

end

/-- A template is determined by its frame and its tags. -/
theorem Template.eq_mapTags {one two : Template} (frame : one.frame = two.frame)
    (tags : one.tags = two.tags.map g) : one = two.mapTags g := by
  obtain ⟨body, loc⟩ := one
  obtain ⟨body', loc'⟩ := two
  simp only [Template.frame, Template.mapTags, Template.mk.injEq] at frame
  rw [Template.mapTags, statements_eq_mapTags body body' frame.1 tags, frame.2]

end

/-! ## Tags in a row -/

section

open Edited

variable {σ α β : Type} {editor : Editor σ} {judge : Tag → σ → Verdict × Tag × σ}

/-- What a visit leaves, if nothing is to be walked inside. -/
def Edited.ofVerdict : Verdict × α × σ → Edited σ α
  | (verdict, value, state) => ⟨verdict == .stop, value, state⟩

theorem Edited.map_map {γ : Type} (f : α → β) (g : β → γ) (edited : Edited σ α) :
    (edited.map f).map g = edited.map fun value => g (f value) := rfl

/-- Tags are judged one after another; a stop leaves those behind it alone. -/
def editTags (judge : Tag → σ → Verdict × Tag × σ) : List Tag → σ → Edited σ (List Tag)
  | [], state => leaf [] state
  | tag :: tags, state =>
      ((ofVerdict (judge tag state)).andThen tags (editTags judge tags)).map
        fun (tag, tags) => tag :: tags

theorem editTags_append (front back : List Tag) (state : σ) :
    editTags judge (front ++ back) state =
      ((editTags judge front state).andThen back (editTags judge back)).map
        fun (front, back) => front ++ back := by
  induction front generalizing state with
  | nil => rfl
  | cons tag front inductionHypothesis =>
      rw [List.cons_append, editTags, editTags]
      rcases ofVerdict (judge tag state) with ⟨stopped, edited, next⟩
      cases stopped with
      | true => rfl
      | false =>
          simp only [Edited.andThen, Edited.map, inductionHypothesis, Bool.false_eq_true, if_false]
          split
          · rfl
          · rfl

/-- From every state, `edit` does to the tags of `value` what is done to them in a row, and leaves
the frame of `value` alone. -/
structure Retags (judge : Tag → σ → Verdict × Tag × σ) (tags : α → List Tag) (frame : α → α)
    (edit : σ → Edited σ α) (value : α) : Prop where
  run : ∀ state, (edit state).map tags = editTags judge (tags value) state
  frame : ∀ state, frame (edit state).value = frame value

theorem retags_leaf {tags : α → List Tag} {frame : α → α} (value : α) (none : tags value = []) :
    Retags judge tags frame (leaf value) value where
  run state := by
    rw [none]
    simp [editTags, Edited.map, leaf, none]
  frame _ := rfl

theorem retags_judge (tag : Tag) :
    Retags judge (fun tag => [tag]) (fun _ => .blank) (fun state => ofVerdict (judge tag state))
      tag where
  run state := by
    rw [editTags]
    rcases ofVerdict (judge tag state) with ⟨stopped, edited, next⟩
    cases stopped with
    | true => rfl
    | false => rfl
  frame _ := rfl

section

variable {tags : α → List Tag} {frame : α → α} {edit : σ → Edited σ α} {value : α}
  {otherTags : β → List Tag} {otherFrame : β → β}

/-- What is done to a part is done to the whole around it. -/
theorem Retags.map {f : α → β} (retags : Retags judge tags frame edit value)
    (sameTags : ∀ inner, otherTags (f inner) = tags inner)
    (sameFrame : ∀ one two, frame one = frame two → otherFrame (f one) = otherFrame (f two)) :
    Retags judge otherTags otherFrame (fun state => (edit state).map f) (f value) where
  run state := by
    rw [sameTags, ← retags.run]
    simp only [Edited.map_map, sameTags]
  frame state := sameFrame _ _ (retags.frame state)

theorem Retags.andThen {next : σ → Edited σ β} {other : β}
    (one : Retags judge tags frame edit value)
    (two : Retags judge otherTags otherFrame next other) :
    Retags judge (fun both => tags both.1 ++ otherTags both.2)
      (fun both => (frame both.1, otherFrame both.2))
      (fun state => (edit state).andThen other next) (value, other) where
  run state := by
    rw [editTags_append, ← one.run]
    simp only [Edited.andThen, Edited.map, ← two.run]
    split
    · rfl
    · rfl
  frame state := by
    rw [Edited.andThen]
    split
    · rw [one.frame]
    · rw [one.frame, two.frame]

end

/-! ## Whole templates -/

/-- An editor that judges the tag of each mustache and block and passes everything else by. -/
structure Editor.JudgesTags (editor : Editor σ) (judge : Tag → σ → Verdict × Tag × σ) : Prop where
  mustache : ∀ m state, editor.mustache m state = judge m.tag state
  block : ∀ b state, editor.block b state = judge b.opening state
  modifier : ∀ m state, editor.modifier m state = (.proceed, m.tag, state)
  onwards : ∀ tag state, (judge tag state).1 ≠ .skip
  passes : editor.PassesExpressions

theorem Editor.PassesExpressions.around_fun (passes : editor.PassesExpressions) (node : α → Node)
    (value : α) (children : σ → Edited σ α) :
    Edited.around editor node value children = children :=
  funext (passes.around_eq node value children)

theorem Editor.JudgesTags.edit_mustache (judges : editor.JudgesTags judge) (m : Mustache)
    (node : Mustache → Node) (state : σ) :
    m.edit editor node (judge m.tag state) =
      (ofVerdict (judge m.tag state)).map fun tag => { m with tag := tag } := by
  have onwards := judges.onwards m.tag state
  rcases visited : judge m.tag state with ⟨verdict, edited, next⟩
  cases verdict with
  | stop => rfl
  | skip => simp [visited] at onwards
  | proceed =>
      simp [Mustache.edit, Edited.resume, judges.passes.leave_eq, Tag.edit_passes judges.passes,
        Edited.map, ofVerdict]

theorem Editor.JudgesTags.edit_block (judges : editor.JudgesTags judge) (opening : Tag)
    (program : List Statement) (inverse : Option Inverse) (close : Option CloseTag)
    (loc : SourceSpan) (state : σ) :
    Block.edit editor ⟨opening, program, inverse, close, loc⟩ state =
      (((ofVerdict (judge opening state)).andThen program (editStatements editor program)).andThen
        inverse (editInverse editor inverse)).map
        fun ((opening, program), inverse) => ⟨opening, program, inverse, close, loc⟩ := by
  have onwards := judges.onwards opening state
  rw [Block.edit, judges.block]
  rcases visited : judge opening state with ⟨verdict, edited, next⟩
  cases verdict with
  | stop => rfl
  | skip => simp [visited] at onwards
  | proceed =>
      simp [Edited.resume, judges.passes.leave_eq, Tag.edit_passes judges.passes, Edited.andThen,
        Edited.map, ofVerdict]

mutual

theorem Statement.edit_retags (judges : editor.JudgesTags judge) (statement : Statement) :
    Retags judge (fun statement => Leaf.tags statement.leaves)
      (Statement.mapTags fun _ => .blank) (statement.edit editor) statement := by
  cases statement with
  | text run =>
      rw [Statement.edit, judges.passes.around_fun, judges.passes.around_fun]
      exact retags_leaf (Statement.text run) rfl
  | comment c =>
      rw [Statement.edit, judges.passes.around_fun, judges.passes.around_fun]
      exact retags_leaf (Statement.comment c) rfl
  | mustache m =>
      rw [Statement.edit, judges.passes.around_fun]
      simp only [judges.mustache, judges.edit_mustache, Edited.map_map]
      exact (retags_judge m.tag).map (fun _ => rfl) fun _ _ _ => rfl
  | modifier m =>
      rw [Statement.edit, judges.passes.around_fun]
      simp only [judges.modifier, Mustache.edit, Edited.resume, judges.passes.leave_eq,
        Tag.edit_passes judges.passes]
      exact retags_leaf (Statement.modifier m) rfl
  | block b =>
      rw [Statement.edit, judges.passes.around_fun]
      exact (Block.edit_retags judges b).map (fun _ => rfl) fun _ _ => congrArg Statement.block

theorem Block.edit_retags (judges : editor.JudgesTags judge) (block : Block) :
    Retags judge (fun block => Leaf.tags block.leaves) (Block.mapTags fun _ => .blank)
      (block.edit editor) block := by
  obtain ⟨opening, program, inverse, close, loc⟩ := block
  rw [funext (judges.edit_block opening program inverse close loc)]
  refine (((retags_judge opening).andThen (editStatements_retags judges program)).andThen
    (editInverse_retags judges inverse)).map ?_ ?_
  · intro inner
    simp [Block.leaves, Leaf.tags_closeLeaves]
  · intro one two same
    simp only [Prod.mk.injEq] at same
    simp only [Block.mapTags, same]

theorem Inverse.edit_retags (judges : editor.JudgesTags judge) (inverse : Inverse) :
    Retags judge (fun inverse => Leaf.tags inverse.leaves) (Inverse.mapTags fun _ => .blank)
      (inverse.edit editor) inverse := by
  cases inverse with
  | otherwise tag body =>
      rw [Inverse.edit, judges.passes.around_fun]
      exact (editStatements_retags judges body).map (fun _ => rfl)
        fun _ _ => congrArg (Inverse.otherwise tag)
  | chained b =>
      rw [Inverse.edit, judges.passes.around_fun]
      exact (Block.edit_retags judges b).map (fun _ => rfl) fun _ _ => congrArg Inverse.chained

theorem editStatements_retags (judges : editor.JudgesTags judge) (statements : List Statement) :
    Retags judge (fun statements => Leaf.tags (statementLeaves statements))
      (mapStatements fun _ => .blank) (editStatements editor statements) statements := by
  cases statements with
  | nil => exact retags_leaf [] rfl
  | cons statement statements =>
      refine ((Statement.edit_retags judges statement).andThen
        (editStatements_retags judges statements)).map ?_ ?_
      · intro inner
        simp [statementLeaves]
      · intro one two same
        simp only [Prod.mk.injEq] at same
        simp only [mapStatements, same]

theorem editInverse_retags (judges : editor.JudgesTags judge) (inverse : Option Inverse) :
    Retags judge (fun inverse => Leaf.tags (inverseLeaves inverse)) (mapInverse fun _ => .blank)
      (editInverse editor inverse) inverse := by
  cases inverse with
  | none => exact retags_leaf none rfl
  | some inverse =>
      exact (Inverse.edit_retags judges inverse).map (fun _ => rfl) fun _ _ => congrArg some

end

/-- An editor that judges tags does so along the tags in a row, and leaves the frame alone. -/
theorem Template.edit_retags (judges : editor.JudgesTags judge) (template : Template) :
    Retags judge Template.tags Template.frame (template.edit editor) template := by
  have whole : template.edit editor = fun state =>
      (editStatements editor template.body state).map fun body => { template with body := body } :=
    judges.passes.around_fun _ _ _
  rw [whole]
  refine (editStatements_retags judges template.body).map (fun _ => rfl) ?_
  intro one two same
  simp only [Template.frame, Template.mapTags, same]

end

end TemplateSelectors
