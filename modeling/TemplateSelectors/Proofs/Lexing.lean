import TemplateSelectors.Proofs.TagEnd

/-!
# Lexemes do not look ahead

A run of text, a comment and a tag are settled by their own characters: with something else
behind them they are read in the same way.  A tag whose inside is replaced is read as the tag
with the other inside, as long as that starts with the same character and ends with the tag.
-/

set_option autoImplicit false

namespace TemplateSelectors

theorem textRun_cons {beforeLast last : Bool} {c : Char} {rest : Text}
    (single : ∀ after, c :: rest ≠ '{' :: '{' :: after) :
    textRun beforeLast last (c :: rest) =
      (c :: (textRun last (c == '\\') rest).1, (textRun last (c == '\\') rest).2) := by
  rw [textRun]
  intro after first second
  exact single after (by rw [first, second])

theorem textRun_behind {beforeLast last : Bool} {chars behind : Text}
    (run : textRun beforeLast last (chars ++ '{' :: '{' :: behind) =
      (chars, '{' :: '{' :: behind)) (other : Text) :
    textRun beforeLast last (chars ++ '{' :: '{' :: other) = (chars, '{' :: '{' :: other) := by
  -- escaped braces are taken two at a time, so the induction is on the length
  induction bound : chars.length using Nat.strongRecOn generalizing chars beforeLast last with
  | ind length inductionHypothesis =>
  cases chars with
  | nil =>
      simp only [List.nil_append, textRun] at run ⊢
      split at run
      · cases run
      · next unescaped => rw [if_neg unescaped]
  | cons c chars =>
      simp only [List.length_cons] at bound
      cases chars with
      | nil =>
          have single : ∀ (text after : Text), c :: '{' :: text ≠ '{' :: '{' :: after := by
            rintro text after ⟨⟩
            simp only [List.cons_append, List.nil_append, textRun] at run
            split at run
            · cases run
            · cases run
          simp only [List.cons_append, List.nil_append] at run ⊢
          rw [textRun_cons (single _)] at run ⊢
          simp only [Prod.mk.injEq, List.cons.injEq, true_and] at run
          have next : textRun last (c == '\\') ([] ++ '{' :: '{' :: other) =
              ([], '{' :: '{' :: other) :=
            inductionHypothesis 0 (by omega) (Prod.ext run.1 run.2) rfl
          rw [List.nil_append] at next
          rw [next]
      | cons d chars =>
          by_cases escaped : c = '{' ∧ d = '{'
          · obtain ⟨rfl, rfl⟩ := escaped
            simp only [List.cons_append, textRun] at run ⊢
            split at run
            · next escape =>
                simp only [Prod.mk.injEq, List.cons.injEq, true_and] at run
                simp only [List.length_cons] at bound
                have next := inductionHypothesis chars.length (by omega) (Prod.ext run.1 run.2) rfl
                rw [if_pos escape, next]
            · cases run
          · have single : ∀ (text after : Text), c :: d :: text ≠ '{' :: '{' :: after := by
              rintro text after ⟨⟩
              exact escaped ⟨rfl, rfl⟩
            simp only [List.cons_append] at run ⊢
            rw [textRun_cons (single _)] at run ⊢
            simp only [Prod.mk.injEq, List.cons.injEq, true_and] at run
            have next := inductionHypothesis (d :: chars).length (by omega)
              (Prod.ext run.1 run.2) rfl
            simp only [List.cons_append] at next
            rw [next]

/-- The first mark does not depend on what follows it. -/
theorem splitAtMark_behind {mark front behind : Text} (nonempty : mark ≠ [])
    (found : splitAtMark mark (front ++ (mark ++ behind)) = some (front, behind)) (other : Text) :
    splitAtMark mark (front ++ (mark ++ other)) = some (front, other) := by
  induction front with
  | nil =>
      have here := Text.after?_append mark other
      obtain ⟨c, more, rfl⟩ := List.exists_cons_of_ne_nil nonempty
      simp only [List.nil_append, List.cons_append] at here ⊢
      rw [splitAtMark, here]
  | cons c front inductionHypothesis =>
      have long : mark.length ≤ (c :: (front ++ mark)).length := by
        simp only [List.length_append, List.length_cons]
        omega
      have absent : Text.after? mark (c :: (front ++ (mark ++ behind))) = none := by
        cases here : Text.after? mark (c :: (front ++ (mark ++ behind))) with
        | none => rfl
        | some after => simp [splitAtMark, here] at found
      have absent' : Text.after? mark (c :: (front ++ (mark ++ other))) = none := by
        rw [← List.append_assoc, ← List.cons_append] at absent ⊢
        exact Text.after?_eq_none_of_prefix long absent other
      simp only [List.cons_append] at found ⊢
      rw [splitAtMark, absent] at found
      rw [splitAtMark, absent', inductionHypothesis (found_of_map_cons found)]
      rfl

def LongEnd (terminator : Text) : Prop :=
  terminator = ['-', '-', '}', '}'] ∨ terminator = ['-', '-', '~', '}', '}']

theorem longEnd_of_splitLongComment {text value terminator behind : Text}
    (found : splitLongComment text = some (value, terminator, behind)) : LongEnd terminator := by
  fun_induction splitLongComment text generalizing value with
  | case1 => cases found
  | case2 =>
      cases found
      exact .inl rfl
  | case3 =>
      cases found
      exact .inr rfl
  | case4 c rest _ _ inductionHypothesis =>
      obtain ⟨⟨value', terminator', behind'⟩, later, same⟩ := Option.map_eq_some_iff.mp found
      cases same
      exact inductionHypothesis later

theorem splitLongComment_behind {value terminator behind : Text} (long : LongEnd terminator)
    (found : splitLongComment (value ++ (terminator ++ behind)) = some (value, terminator, behind))
    (other : Text) :
    splitLongComment (value ++ (terminator ++ other)) = some (value, terminator, other) := by
  induction value with
  | nil =>
      rcases long with rfl | rfl
      · simp [splitLongComment, Text.after?]
      · simp [splitLongComment, Text.after?]
  | cons c value inductionHypothesis =>
      have size : 4 ≤ terminator.length := by
        rcases long with rfl | rfl
        · decide
        · decide
      have keep : ∀ {mark : Text}, mark.length ≤ 5 →
          Text.after? mark (c :: (value ++ (terminator ++ behind))) = none →
          Text.after? mark (c :: (value ++ (terminator ++ other))) = none := by
        intro mark short absent
        rw [← List.append_assoc, ← List.cons_append] at absent ⊢
        refine Text.after?_eq_none_of_prefix ?_ absent other
        simp only [List.length_append, List.length_cons]
        omega
      simp only [List.cons_append] at found ⊢
      rw [splitLongComment] at found
      split at found
      · cases found
      · next short =>
          split at found
          · cases found
          · next tilde =>
              obtain ⟨⟨value', terminator', behind'⟩, later, same⟩ := Option.map_eq_some_iff.mp found
              cases same
              rw [splitLongComment, keep (by decide) short, keep (by decide) tilde,
                inductionHypothesis later]
              rfl

namespace Lexeme

/-- `Reads behind lexeme rest`: what stands behind two opening braces is a lexeme and `rest`. -/
inductive Reads : Text → Lexeme → Text → Prop where
  | triple {front tilde inside body rest : Text} (first : front.head? ≠ some '{')
      (marked : leadingTilde front = (tilde, inside))
      (closed : splitAtClose ['}', '}', '}'] none inside = some (body, rest)) :
      Reads ('{' :: front) (.tag true (['{', '{', '{'] ++ tilde) (trailingTilde body).1
        ((trailingTilde body).2 ++ ['}', '}', '}'])) rest
  | tag {front tilde inside body rest : Text} (first : front.head? ≠ some '{')
      (marked : leadingTilde front = (tilde, inside)) (plain : inside.head? ≠ some '!')
      (closed : splitAtClose ['}', '}'] none inside = some (body, rest)) :
      Reads front (.tag false (['{', '{'] ++ tilde) (trailingTilde body).1
        ((trailingTilde body).2 ++ ['}', '}'])) rest
  | shortComment {front tilde inside body rest : Text} (first : front.head? ≠ some '{')
      (marked : leadingTilde front = (tilde, '!' :: inside))
      (short : Text.after? ['-', '-'] inside = none)
      (closed : splitAtMark ['}', '}'] inside = some (body, rest)) :
      Reads front (.comment (['{', '{'] ++ tilde ++ ['!']) (trailingTilde body).1
        ((trailingTilde body).2 ++ ['}', '}'])) rest
  | longComment {front tilde inside value terminator rest : Text} (first : front.head? ≠ some '{')
      (marked : leadingTilde front = (tilde, '!' :: '-' :: '-' :: inside))
      (closed : splitLongComment inside = some (value, terminator, rest)) :
      Reads front (.comment (['{', '{'] ++ tilde ++ ['!'] ++ ['-', '-']) value terminator) rest

theorem readTag_eq_ok {triple : Bool} {opener close inside rest : Text} {lexeme : Lexeme}
    (found : readTag triple opener close inside = .ok (lexeme, rest)) :
    ∃ body, splitAtClose close none inside = some (body, rest) ∧
      lexeme = .tag triple opener (trailingTilde body).1 ((trailingTilde body).2 ++ close) := by
  unfold readTag at found
  split at found
  · cases found
  · next body behind closed =>
      cases found
      exact ⟨body, closed, rfl⟩

theorem readTag_of_closed {close inside body rest : Text} (triple : Bool) (opener : Text)
    (closed : splitAtClose close none inside = some (body, rest)) :
    readTag triple opener close inside =
      .ok (.tag triple opener (trailingTilde body).1 ((trailingTilde body).2 ++ close), rest) := by
  rw [readTag, closed]

theorem after?_dashes_eq_none {inside : Text}
    (short : ∀ after, inside ≠ '-' :: '-' :: after) : Text.after? ['-', '-'] inside = none := by
  cases found : Text.after? ['-', '-'] inside with
  | none => rfl
  | some after => exact absurd (Text.eq_append_of_after? found) (short after)

theorem reads_of_read {behind rest : Text} {lexeme : Lexeme}
    (found : read behind = .ok (lexeme, rest)) : Reads behind lexeme rest := by
  unfold read at found
  split at found
  · cases found
  · next front single =>
      obtain ⟨body, closed, rfl⟩ := readTag_eq_ok found
      refine .triple ?_ rfl closed
      intro brace
      obtain ⟨after, rfl⟩ := List.head?_eq_some_iff.mp brace
      exact single after rfl
  · next notTwo notOne =>
      have first : behind.head? ≠ some '{' := by
        intro brace
        obtain ⟨after, rfl⟩ := List.head?_eq_some_iff.mp brace
        exact notOne after rfl
      split at found
      · next inside bang =>
          have marked : leadingTilde behind = ((leadingTilde behind).1, '!' :: inside) := by
            rw [← bang]
          unfold readComment at found
          split at found
          · split at found
            · cases found
            · next value terminator after closed =>
                cases found
                exact .longComment first marked closed
          · next short =>
              split at found
              · cases found
              · next body after closed =>
                  cases found
                  exact .shortComment first marked (after?_dashes_eq_none short) closed
      · next plain =>
          obtain ⟨body, closed, rfl⟩ := readTag_eq_ok found
          refine .tag first rfl ?_ closed
          intro bang
          obtain ⟨after, same⟩ := List.head?_eq_some_iff.mp bang
          exact plain after same

theorem read_of_reads {behind rest : Text} {lexeme : Lexeme} (reads : Reads behind lexeme rest) :
    read behind = .ok (lexeme, rest) := by
  cases reads with
  | @triple front tilde inside body _ first marked closed =>
      rw [read]
      · rw [marked, readTag_of_closed _ _ closed]
      · rintro after rfl
        exact first rfl
  | @tag _ tilde inside body _ first marked plain closed =>
      rw [read]
      · rw [marked]
        split
        · next after bang =>
            simp only at bang
            rw [bang] at plain
            exact absurd rfl plain
        · rw [readTag_of_closed _ _ closed]
      · rintro after rfl
        exact first rfl
      · rintro after rfl
        exact first rfl
  | @shortComment _ tilde inside body _ first marked short closed =>
      rw [read]
      · rw [marked]
        simp only
        rw [readComment, closed]
        rintro after rfl
        cases short
      · rintro after rfl
        exact first rfl
      · rintro after rfl
        exact first rfl
  | @longComment _ tilde inside value terminator _ first marked closed =>
      rw [read]
      · rw [marked]
        simp only [readComment, closed]
      · rintro after rfl
        exact first rfl
      · rintro after rfl
        exact first rfl

theorem leadingTilde_congr {front tilde inside : Text}
    (marked : leadingTilde front = (tilde, inside)) {other : Text}
    (same : other.head? = inside.head?) :
    leadingTilde (tilde ++ other) = (tilde, other) ∧ (tilde ++ other).head? = front.head? := by
  unfold leadingTilde at marked
  split at marked
  · cases marked
    exact ⟨rfl, rfl⟩
  · next unmarked =>
      cases marked
      refine ⟨?_, same⟩
      rw [List.nil_append, leadingTilde]
      rintro after rfl
      obtain ⟨rest, rfl⟩ := List.head?_eq_some_iff.mp same.symm
      exact unmarked rest rfl

theorem trailingTilde_congr {body other : Text}
    (last : (trailingTilde body).1.getLast? ≠ some '~' → other.getLast? ≠ some '~') :
    trailingTilde (other ++ (trailingTilde body).2) = (other, (trailingTilde body).2) := by
  by_cases tilde : body.getLast? = some '~'
  · simp [trailingTilde, tilde]
  · have unmarked : trailingTilde body = (body, []) := by simp [trailingTilde, tilde]
    rw [unmarked] at last ⊢
    simp [trailingTilde, last tilde]

/-- A replaced inside ends with the tag, in the words of the reader: with the mark at the end, and
with the same first character. -/
theorem closed_of_replaces {inner other : Text} (replaces : Replaces inner other) {close : Text}
    (braces : Braces close) {inside body rest : Text} (whole : inner = (trailingTilde body).1)
    (closed : splitAtClose close none inside = some (body, rest))
    (same : other.head? = inner.head?) (rest' : Text) :
    splitAtClose close none (other ++ ((trailingTilde body).2 ++ (close ++ rest'))) =
        some (other ++ (trailingTilde body).2, rest') ∧
      (other ++ ((trailingTilde body).2 ++ (close ++ rest'))).head? = inside.head? := by
  have text := eq_append_of_splitAtClose closed
  have parts := trailingTilde_append body
  rw [← whole] at parts
  rw [text, ← parts] at closed
  constructor
  · refine replaces close braces none quoteState_none _ rest rest' ?_
    simpa only [List.append_assoc] using closed
  · rw [text]
    generalize (trailingTilde body).2 = tilde at parts ⊢
    rw [← parts]
    cases inner with
    | cons c inner =>
        obtain ⟨after, rfl⟩ := List.head?_eq_some_iff.mp same
        rfl
    | nil =>
        have nothing : other = [] := by simpa using same
        subst nothing
        cases tilde with
        | cons c tilde => rfl
        | nil =>
            obtain ⟨c, more, rfl⟩ := List.exists_cons_of_ne_nil braces.nonempty
            rfl

/-- A tag with another inside is read as such. -/
theorem Reads.replace {triple : Bool} {behind opener inner closer rest other : Text}
    (reads : Reads behind (.tag triple opener inner closer) rest)
    (replaces : Replaces inner other) (same : other.head? = inner.head?)
    (last : inner.getLast? ≠ some '~' → other.getLast? ≠ some '~') (rest' : Text) :
    ∃ behind', opener ++ other ++ closer ++ rest' = '{' :: '{' :: behind' ∧
      Reads behind' (.tag triple opener other closer) rest' := by
  cases reads with
  | @triple front tilde inside body _ first marked closed =>
      obtain ⟨closed', head⟩ := closed_of_replaces replaces braces_three rfl closed same rest'
      obtain ⟨marked', first'⟩ := leadingTilde_congr marked head
      have again := Reads.triple (by rw [first']; exact first) marked' closed'
      rw [trailingTilde_congr last] at again
      exact ⟨_, by simp, again⟩
  | @tag _ tilde inside body _ first marked plain closed =>
      obtain ⟨closed', head⟩ := closed_of_replaces replaces braces_two rfl closed same rest'
      obtain ⟨marked', first'⟩ := leadingTilde_congr marked head
      have again := Reads.tag (by rw [first']; exact first) marked' (by rw [head]; exact plain) closed'
      rw [trailingTilde_congr last] at again
      exact ⟨_, by simp, again⟩

theorem Reads.comment_behind {behind opener value closer rest : Text}
    (reads : Reads behind (.comment opener value closer) rest) (rest' : Text) :
    ∃ behind', opener ++ value ++ closer ++ rest' = '{' :: '{' :: behind' ∧
      Reads behind' (.comment opener value closer) rest' := by
  cases reads with
  | @shortComment _ tilde inside body _ first marked short closed =>
      have parts := trailingTilde_append body
      have text := eq_append_of_splitAtMark closed
      rw [text, List.append_assoc] at closed
      have closed' := splitAtMark_behind (by simp) closed rest'
      have short' : Text.after? ['-', '-'] (body ++ (['}', '}'] ++ rest')) = none := by
        rw [text] at short
        rw [← List.append_assoc]
        exact Text.after?_eq_none_of_prefix (by simp) short rest'
      have head : ('!' :: (body ++ (['}', '}'] ++ rest'))).head? = ('!' :: inside).head? := rfl
      obtain ⟨marked', first'⟩ := leadingTilde_congr marked head
      have again := Reads.shortComment (by rw [first']; exact first) marked' short' closed'
      refine ⟨_, ?_, again⟩
      simp only [List.append_assoc, List.cons_append, List.nil_append, List.cons.injEq, true_and]
      rw [← List.append_assoc (trailingTilde body).1, parts]
  | @longComment _ tilde inside value terminator _ first marked closed =>
      have text := eq_append_of_splitLongComment closed
      have long := longEnd_of_splitLongComment closed
      rw [text, List.append_assoc] at closed
      have closed' := splitLongComment_behind long closed rest'
      have head : ('!' :: '-' :: '-' :: (value ++ (closer ++ rest'))).head? =
          ('!' :: '-' :: '-' :: inside).head? := rfl
      obtain ⟨marked', first'⟩ := leadingTilde_congr marked head
      exact ⟨_, by simp, Reads.longComment (by rw [first']; exact first) marked' closed'⟩

end Lexeme

end TemplateSelectors
