import Mathlib
import TemplateSelectors.Proofs.BlockStructure
import TemplateSelectors.Proofs.VisitedNodes

/-!
# The shape of comments

A comment ends at the first terminator that follows its opener, and its value is what stands
between the two, whitespace control marks apart.  A short comment ends at two braces; one whose
body starts with two dashes is long and ends at two dashes and two braces, with or without a mark
in between.
-/

set_option autoImplicit false

namespace TemplateSelectors

/-! ## First terminators -/

/-- Nothing but the whole of `text` ends in a terminator, of all that `text` starts with. -/
def EndsFirst (terminators : List Text) (text : Text) : Prop :=
  ∀ front, front <+: text → front ≠ text → ∀ terminator ∈ terminators, ¬terminator <:+ front

theorem EndsFirst.cons {terminators : List Text} {c : Char} {text : Text}
    (absent : ∀ terminator ∈ terminators, ¬terminator <+: c :: text)
    (ends : EndsFirst terminators text) : EndsFirst terminators (c :: text) := by
  intro front starts proper terminator member found
  rcases List.prefix_cons_iff.mp starts with rfl | ⟨more, rfl, within⟩
  · rw [List.suffix_nil] at found
    rw [found] at member
    exact absent [] member List.nil_prefix
  · rcases List.suffix_cons_iff.mp found with rfl | later
    · exact absent _ member starts
    · refine ends more within ?_ terminator member later
      rintro rfl
      exact proper rfl

theorem Text.not_isPrefix_of_after? {mark text behind : Text}
    (absent : Text.after? mark (text ++ behind) = none) : ¬mark <+: text := by
  rintro ⟨rest, rfl⟩
  rw [List.append_assoc, Text.after?_append] at absent
  cases absent

theorem endsFirst_of_splitAtMark {mark text front behind : Text}
    (found : splitAtMark mark text = some (front, behind)) : EndsFirst [mark] (front ++ mark) := by
  fun_induction splitAtMark mark text generalizing front with
  | case1 => cases found
  | case2 c rest behind' here =>
      cases found
      intro front starts proper terminator member ends
      rw [List.mem_singleton] at member
      subst member
      exact proper (starts.eq_of_length_le ends.length_le)
  | case3 c rest absent inductionHypothesis =>
      obtain ⟨⟨front', behind'⟩, later, same⟩ := Option.map_eq_some_iff.mp found
      cases same
      refine .cons ?_ (inductionHypothesis later)
      intro terminator member
      rw [List.mem_singleton] at member
      subst member
      rw [eq_append_of_splitAtMark later, ← List.cons_append] at absent
      exact Text.not_isPrefix_of_after? absent

def longEnds : List Text :=
  [['-', '-', '}', '}'], ['-', '-', '~', '}', '}']]

theorem endsFirst_longEnds {terminator : Text} (long : LongEnd terminator) :
    EndsFirst longEnds terminator := by
  have short : ∀ whole ∈ longEnds, ∀ front ∈ whole.inits, front ≠ whole →
      ∀ terminator ∈ longEnds, ¬terminator <:+ front := by
    decide
  intro front starts
  have member : terminator ∈ longEnds := by
    rcases long with rfl | rfl
    · decide
    · decide
  exact short terminator member front ((List.mem_inits front terminator).mpr starts)

theorem endsFirst_of_splitLongComment {text value terminator behind : Text}
    (found : splitLongComment text = some (value, terminator, behind)) :
    EndsFirst longEnds (value ++ terminator) := by
  fun_induction splitLongComment text generalizing value with
  | case1 => cases found
  | case2 =>
      cases found
      exact endsFirst_longEnds (.inl rfl)
  | case3 =>
      cases found
      exact endsFirst_longEnds (.inr rfl)
  | case4 c rest noPlain noMarked inductionHypothesis =>
      obtain ⟨⟨value', terminator', behind'⟩, later, same⟩ := Option.map_eq_some_iff.mp found
      cases same
      refine .cons ?_ (inductionHypothesis later)
      rw [eq_append_of_splitLongComment later, ← List.cons_append] at noPlain noMarked
      intro terminator member
      rw [longEnds, List.mem_cons, List.mem_singleton] at member
      rcases member with rfl | rfl
      · exact Text.not_isPrefix_of_after? noPlain
      · exact Text.not_isPrefix_of_after? noMarked

theorem EndsFirst.not_isInfix {terminator value rest : Text} (nonempty : rest ≠ [])
    (ends : EndsFirst [terminator] (value ++ rest)) : ¬terminator <:+: value := by
  rintro ⟨before, after, rfl⟩
  refine ends (before ++ terminator) ?_ ?_ terminator List.mem_cons_self
    (List.suffix_append before terminator)
  · exact ⟨after ++ rest, by simp⟩
  · intro whole
    have size := congrArg List.length whole
    have positive := List.length_pos_iff.mpr nonempty
    simp only [List.length_append] at size
    omega

/-! ## The two shapes -/

def OptionalTilde (mark : Text) : Prop :=
  mark = [] ∨ mark = ['~']

namespace Comment

/-- A short comment with the marks `left` and `right`. -/
structure IsShort (comment : Comment) (left right : Text) : Prop where
  raw : comment.raw = ['{', '{'] ++ left ++ ['!'] ++ comment.value ++ right ++ ['}', '}']
  braceless : ¬['}', '}'] <:+: comment.value
  dashless : ¬['-', '-'] <+: comment.value ++ right
  ends : EndsFirst [['}', '}']] (comment.value ++ right ++ ['}', '}'])
  /-- A mark at the end is no part of the value. -/
  trimmed : right = [] → comment.value.getLast? ≠ some '~'

/-- A long comment with the marks `left` and `right`. -/
structure IsLong (comment : Comment) (left right : Text) : Prop where
  raw : comment.raw =
    ['{', '{'] ++ left ++ ['!', '-', '-'] ++ comment.value ++ ['-', '-'] ++ right ++ ['}', '}']
  ends : EndsFirst longEnds (comment.value ++ ['-', '-'] ++ right ++ ['}', '}'])

def IsFormed (comment : Comment) : Prop :=
  ∃ left right, OptionalTilde left ∧ OptionalTilde right ∧
    (comment.IsShort left right ∨ comment.IsLong left right)

end Comment

theorem Lexeme.optionalTilde_of_leadingTilde {front tilde inside : Text}
    (marked : leadingTilde front = (tilde, inside)) : OptionalTilde tilde := by
  unfold leadingTilde at marked
  split at marked
  · cases marked
    exact .inr rfl
  · cases marked
    exact .inl rfl

theorem Lexeme.trailingTilde_cases (body : Text) :
    OptionalTilde (trailingTilde body).2 ∧
      ((trailingTilde body).2 = [] → (trailingTilde body).1.getLast? ≠ some '~') := by
  unfold trailingTilde
  split
  · exact ⟨.inr rfl, by simp⟩
  · next unmarked => exact ⟨.inl rfl, fun _ => unmarked⟩

/-- A comment that was read has one of the two shapes. -/
theorem Lexeme.Reads.isFormed {behind opener value closer rest : Text}
    (reads : Reads behind (.comment opener value closer) rest) (loc : SourceSpan) :
    Comment.IsFormed ⟨opener ++ value ++ closer, value, loc⟩ := by
  cases reads with
  | @shortComment _ tilde inside body _ _ marked short closed =>
      obtain ⟨optional, trimmed⟩ := trailingTilde_cases body
      have whole := trailingTilde_append body
      have ends := endsFirst_of_splitAtMark closed
      rw [eq_append_of_splitAtMark closed, List.append_assoc] at short
      rw [← whole] at ends short
      refine ⟨tilde, (trailingTilde body).2, optionalTilde_of_leadingTilde marked, optional,
        .inl ⟨by simp, ?_, Text.not_isPrefix_of_after? short, ends, trimmed⟩⟩
      rw [List.append_assoc] at ends
      exact ends.not_isInfix (by simp)
  | @longComment _ tilde inside _ _ _ _ marked closed =>
      have ends := endsFirst_of_splitLongComment closed
      rcases longEnd_of_splitLongComment closed with rfl | rfl
      · refine ⟨tilde, [], optionalTilde_of_leadingTilde marked, .inl rfl,
          .inr ⟨by simp, ?_⟩⟩
        simpa using ends
      · refine ⟨tilde, ['~'], optionalTilde_of_leadingTilde marked, .inr rfl,
          .inr ⟨by simp, ?_⟩⟩
        simpa using ends

/-! ## The comments of a template -/

theorem Tag.comment_not_mem_leaves (comment : Comment) (tag : Tag) :
    Node.comment comment ∉ tag.leaves := by
  rw [Tag.leaves, List.mem_filterMap]
  rintro ⟨part, -, leaf⟩
  unfold Part.leaf? at leaf
  split at leaf
  · cases leaf
  · cases leaf
  · cases leaf

section

variable {comment : Comment}

mutual

theorem Statement.piece_of_comment (statement : Statement)
    (member : .comment comment ∈ statement.landmarks) :
    .statement (.comment comment) ∈ statement.pieces := by
  cases statement with
  | text run => simp [Statement.landmarks] at member
  | comment c =>
      simp only [Statement.landmarks, List.mem_singleton, Node.comment.injEq] at member
      subst member
      exact List.mem_cons_self
  | mustache m =>
      simp [Statement.landmarks, Tag.comment_not_mem_leaves] at member
  | modifier m =>
      simp [Statement.landmarks, Tag.comment_not_mem_leaves] at member
  | block b =>
      rw [Statement.landmarks] at member
      rw [Statement.pieces]
      exact List.mem_cons_of_mem _ (Block.piece_of_comment b member)

theorem Block.piece_of_comment (block : Block) (member : .comment comment ∈ block.landmarks) :
    .statement (.comment comment) ∈ block.innerPieces := by
  obtain ⟨opening, program, inverse, close, loc⟩ := block
  simp only [Block.landmarks, List.mem_cons, reduceCtorEq, false_or, List.mem_append,
    Tag.comment_not_mem_leaves] at member
  rw [Block.innerPieces, List.mem_append, List.mem_append]
  rcases member with first | second
  · exact .inl (.inl (piece_of_comment_statements program first))
  · exact .inl (.inr (piece_of_comment_inverse inverse second))

theorem Inverse.piece_of_comment (inverse : Inverse)
    (member : .comment comment ∈ inverse.landmarks) :
    .statement (.comment comment) ∈ inverse.pieces := by
  cases inverse with
  | otherwise tag body =>
      exact List.mem_cons_of_mem _ (piece_of_comment_statements body member)
  | chained b => exact List.mem_cons_of_mem _ (Block.piece_of_comment b member)

theorem piece_of_comment_statements (statements : List Statement)
    (member : .comment comment ∈ statementLandmarks statements) :
    .statement (.comment comment) ∈ statementPieces statements := by
  cases statements with
  | nil => cases member
  | cons statement statements =>
      rw [statementLandmarks, List.mem_append] at member
      rw [statementPieces, List.mem_append]
      rcases member with first | later
      · exact .inl (Statement.piece_of_comment statement first)
      · exact .inr (piece_of_comment_statements statements later)

theorem piece_of_comment_inverse (inverse : Option Inverse)
    (member : .comment comment ∈ inverseLandmarks inverse) :
    .statement (.comment comment) ∈ inversePieces inverse := by
  cases inverse with
  | none => cases member
  | some inverse => exact Inverse.piece_of_comment inverse member

end

theorem Item.isFormed_of_scans {index : LineIndex} {markup : Markup} {start : Nat} {text : Text}
    {items : List Item} (scans : Scans index markup start text items) :
    ∀ item ∈ items, .statement (.comment comment) ∈ item.pieces → comment.IsFormed := by
  have ofRun : ∀ (start : Nat) (chars : Text), ∀ item ∈ ofText index start chars,
      .statement (.comment comment) ∈ item.pieces → comment.IsFormed := by
    intro start chars item member piece
    unfold ofText at member
    split at member
    · cases member
    · rw [List.mem_singleton] at member
      subst member
      simp [pieces, Statement.pieces] at piece
  induction scans with
  | last run => exact ofRun _ _
  | lexeme run read made more inductionHypothesis =>
      intro item member piece
      rw [List.mem_append, List.mem_cons] at member
      rcases member with before | rfl | later
      · exact ofRun _ _ item before piece
      · have reads := Lexeme.reads_of_read read
        cases ofLexeme_eq_ok_iff.mp made with
        | comment opener value closer =>
            simp only [pieces, Statement.pieces, List.mem_singleton, Piece.statement.injEq,
              Statement.comment.injEq] at piece
            subst piece
            exact reads.isFormed _
        | triple found => simp [pieces, Statement.pieces] at piece
        | opening form found => simp [pieces] at piece
        | closing opener closer form => simp [pieces] at piece
        | otherwise opener closer form => simp [pieces] at piece
        | chain form found => simp [pieces] at piece
        | mustache form found =>
            unfold ofMustache at piece
            split at piece
            · simp [pieces, Statement.pieces] at piece
            · simp [pieces, Statement.pieces] at piece
      · exact inductionHypothesis item later piece

end

def Statement.comment? : Statement → Option Comment
  | .comment c => some c
  | .text _ | .mustache _ | .modifier _ | .block _ => none

namespace Template

def comments (template : Template) : List Comment :=
  template.everyStatement.filterMap Statement.comment?

theorem landmark_of_mem_comments {template : Template} {comment : Comment}
    (member : comment ∈ template.comments) : .comment comment ∈ template.landmarks := by
  obtain ⟨statement, inside, kind⟩ := List.mem_filterMap.mp member
  obtain ⟨node, landmark, told⟩ := List.mem_filterMap.mp inside
  cases node <;> cases told <;> cases kind
  exact landmark

/-- Every comment of a template that was read is short or long, ends at the first terminator
behind its opener, and has for its value what stands between the two. -/
theorem comments_end_first {source : Text} {template : Template}
    (parsed : parse source = .ok template) :
    ∀ comment ∈ template.comments, comment.IsFormed := by
  intro comment member
  obtain ⟨items, scans, derived⟩ := items_of_parse parsed
  have piece := piece_of_comment_statements template.body (landmark_of_mem_comments member)
  have pieces := pieces_of_derives derived
  rw [Break.items, List.flatMap_nil, List.append_nil] at pieces
  rw [pieces, List.mem_flatMap] at piece
  obtain ⟨item, inside, found⟩ := piece
  exact Item.isFormed_of_scans scans item inside found

/-- Dashes, braces and marks next to the delimiters, in and behind a block. -/
def dashedComments : Text :=
  ("\x7b\x7b#if a\x7d\x7d\x7b\x7b~!b\x7d -~\x7d\x7d\x7b\x7belse\x7d\x7d" ++
    "\x7b\x7b!--c\x7d\x7d--~ ---\x7d\x7d\x7b\x7b/if\x7d\x7d\x7b\x7b!----~\x7d\x7d").toList

theorem comments_end_first_dashedComments :
    ∃ template, parse dashedComments = .ok template ∧
      template.comments.map Comment.value =
        ["b\x7d -".toList, "c\x7d\x7d--~ -".toList, []] ∧
      ∀ comment ∈ template.comments, comment.IsFormed := by
  have values : ((parse dashedComments).toOption.map fun template =>
      template.comments.map Comment.value) =
      some ["b\x7d -".toList, "c\x7d\x7d--~ -".toList, []] := by
    cbv
  obtain ⟨template, parsed, told⟩ := exists_parse_of_map values
  exact ⟨template, parsed, told, comments_end_first parsed⟩

end Template

end TemplateSelectors
