import TemplateSelectors.Lexeme

/-!
# Where a tag ends

The closing braces of a tag are the first ones outside quotes.  Which ones that are is settled
by the text up to them: what follows plays no part, and a piece of the tag matters only by the
quote that is open behind it.
-/

set_option autoImplicit false

namespace TemplateSelectors

namespace Text

theorem after?_append (front rest : Text) : after? front (front ++ rest) = some rest := by
  induction front with
  | nil => rfl
  | cons c front inductionHypothesis => simp [after?, inductionHypothesis]

/-- Whether a text starts with `front` is settled by as many characters. -/
theorem after?_append_of_length_le {front text : Text} (long : front.length ≤ text.length)
    (rest : Text) : after? front (text ++ rest) = (after? front text).map (· ++ rest) := by
  induction front generalizing text with
  | nil => rfl
  | cons c front inductionHypothesis =>
      cases text with
      | nil => simp at long
      | cons d text =>
          simp only [List.length_cons] at long
          simp only [List.cons_append, after?]
          by_cases same : c = d
          · rw [if_pos same, if_pos same, inductionHypothesis (by omega)]
          · rw [if_neg same, if_neg same]
            rfl

theorem after?_eq_none_of_prefix {front text rest : Text} (long : front.length ≤ text.length)
    (absent : after? front (text ++ rest) = none) (other : Text) :
    after? front (text ++ other) = none := by
  rw [after?_append_of_length_le long, Option.map_eq_none_iff] at absent
  rw [after?_append_of_length_le long, absent]
  rfl

/-- A text that is given up for another character before its end is not started by `front`,
whatever follows. -/
theorem after?_eq_none_of_getLast {mark : Char} {front text rest : Text}
    (marks : ∀ c ∈ front, c = mark) (last : text.getLast? ≠ some mark) (nonempty : text ≠ [])
    (absent : after? front (text ++ rest) = none) (other : Text) :
    after? front (text ++ other) = none := by
  induction front generalizing text with
  | nil => cases absent
  | cons c front inductionHypothesis =>
      obtain ⟨d, text, rfl⟩ := List.exists_cons_of_ne_nil nonempty
      have first : c = mark := marks c List.mem_cons_self
      have others : ∀ c ∈ front, c = mark := fun c member => marks c (List.mem_cons_of_mem _ member)
      simp only [List.cons_append, after?] at absent ⊢
      by_cases same : c = d
      · rw [if_pos same] at absent ⊢
        cases text with
        | nil => simp [← same, first] at last
        | cons e text =>
            rw [List.getLast?_cons_cons] at last
            exact inductionHypothesis others last (by simp) absent
      · rw [if_neg same]

end Text

structure Braces (close : Text) : Prop where
  braces : ∀ c ∈ close, c = '}'
  nonempty : close ≠ []

theorem braces_two : Braces ['}', '}'] := ⟨by simp, by simp⟩

theorem braces_three : Braces ['}', '}', '}'] := ⟨by simp, by simp⟩

theorem Braces.after?_eq_none {close : Text} (braces : Braces close) {c : Char} (other : c ≠ '}')
    (rest : Text) : Text.after? close (c :: rest) = none := by
  obtain ⟨d, close, rfl⟩ := List.exists_cons_of_ne_nil braces.nonempty
  have first := braces.braces d List.mem_cons_self
  simp [Text.after?, first, Ne.symm other]

def QuoteState (quote : Option Char) : Prop :=
  ∀ c, quote = some c → c = '"' ∨ c = '\''

theorem quoteState_none : QuoteState none := by
  rintro c ⟨⟩

/-- A piece that is passed over: what is found behind it is found with the quote `after` open. -/
def Carries (close : Text) (before : Option Char) (piece : Text) (after : Option Char) : Prop :=
  ∀ behind, splitAtClose close before (piece ++ behind) =
    (splitAtClose close after behind).map fun (front, rest) => (piece ++ front, rest)

namespace Carries

variable {close : Text} {before between after : Option Char}

theorem nil (quote : Option Char) : Carries close quote [] quote := by
  intro behind
  cases found : splitAtClose close quote behind with
  | none => simp [found]
  | some halves => simp [found]

theorem append {first second : Text} (left : Carries close before first between)
    (right : Carries close between second after) :
    Carries close before (first ++ second) after := by
  intro behind
  rw [List.append_assoc, left, right]
  cases splitAtClose close after behind with
  | none => rfl
  | some halves => simp

/-- What is found behind a piece that is passed over. -/
theorem found {piece behind front rest : Text} (carries : Carries close before piece after)
    (whole : splitAtClose close before (piece ++ behind) = some (piece ++ front, rest)) :
    splitAtClose close after behind = some (front, rest) := by
  rw [carries] at whole
  obtain ⟨⟨front', rest'⟩, later, same⟩ := Option.map_eq_some_iff.mp whole
  simp only [Prod.mk.injEq, List.append_cancel_left_eq] at same
  rw [later, same.1, same.2]

theorem whole {piece behind front rest : Text} (carries : Carries close before piece after)
    (found : splitAtClose close after behind = some (front, rest)) :
    splitAtClose close before (piece ++ behind) = some (piece ++ front, rest) := by
  rw [carries, found]
  rfl

end Carries

/-! ## One character -/

section

variable {close : Text} {quote : Char}

theorem splitAtClose_escaped (c : Char) (rest : Text) :
    splitAtClose close (some quote) ('\\' :: c :: rest) =
      (splitAtClose close (some quote) rest).map
        fun (front, behind) => ('\\' :: c :: front, behind) := by
  rw [splitAtClose]

theorem splitAtClose_inside {c : Char} {rest : Text} (unescaped : c = '\\' → rest = []) :
    splitAtClose close (some quote) (c :: rest) =
      (splitAtClose close (if c = quote then none else some quote) rest).map
        fun (front, behind) => (c :: front, behind) := by
  rw [splitAtClose]
  rintro d after rfl rfl
  cases unescaped rfl

theorem splitAtClose_opens {c : Char} {rest : Text} (opens : c = '"' ∨ c = '\'') :
    splitAtClose close none (c :: rest) =
      (splitAtClose close (some c) rest).map fun (front, behind) => (c :: front, behind) := by
  rw [splitAtClose, if_pos opens]

theorem splitAtClose_outside {c : Char} {rest : Text} (ordinary : ¬(c = '"' ∨ c = '\''))
    (absent : Text.after? close (c :: rest) = none) :
    splitAtClose close none (c :: rest) =
      (splitAtClose close none rest).map fun (front, behind) => (c :: front, behind) := by
  rw [splitAtClose, if_neg ordinary, absent]

end

/-! ## Pieces -/

/-- A character without a meaning of its own leaves the quote as it is. -/
theorem carries_plain {close : Text} (braces : Braces close) {quote : Option Char}
    (state : QuoteState quote) {c : Char} (unquoted : c ≠ '"' ∧ c ≠ '\'')
    (unescaped : c ≠ '\\') (unclosed : c ≠ '}') : Carries close quote [c] quote := by
  intro behind
  rw [List.singleton_append]
  cases quote with
  | none =>
      refine splitAtClose_outside ?_ (braces.after?_eq_none unclosed behind)
      rintro (double | single)
      · exact unquoted.1 double
      · exact unquoted.2 single
  | some quote =>
      have different : c ≠ quote := by
        rcases state quote rfl with rfl | rfl
        · exact unquoted.1
        · exact unquoted.2
      rw [splitAtClose_inside fun escape => absurd escape unescaped, if_neg different]
      rfl

def Plain (text : Text) : Prop :=
  ∀ c ∈ text, (c ≠ '"' ∧ c ≠ '\'') ∧ c ≠ '\\' ∧ c ≠ '}'

theorem Plain.append {front back : Text} (left : Plain front) (right : Plain back) :
    Plain (front ++ back) := by
  intro c member
  rcases List.mem_append.mp member with early | late
  · exact left c early
  · exact right c late

theorem carries_of_plain {close : Text} (braces : Braces close) {quote : Option Char}
    (state : QuoteState quote) {piece : Text} (plain : Plain piece) :
    Carries close quote piece quote := by
  induction piece with
  | nil => exact .nil quote
  | cons c piece inductionHypothesis =>
      obtain ⟨unquoted, unescaped, unclosed⟩ := plain c List.mem_cons_self
      have first := carries_plain braces state unquoted unescaped unclosed
      exact first.append (inductionHypothesis fun d member => plain d (List.mem_cons_of_mem _ member))

/-- A piece is passed over when its first character is and the others are. -/
theorem Carries.cons {close piece : Text} {c : Char} {before between after : Option Char}
    (first : ∀ behind, splitAtClose close before (c :: (piece ++ behind)) =
      (splitAtClose close between (piece ++ behind)).map fun (front, rest) => (c :: front, rest))
    (others : Carries close between piece after) : Carries close before (c :: piece) after := by
  intro behind
  rw [List.cons_append, first, others]
  cases splitAtClose close after behind with
  | none => rfl
  | some halves => rfl

theorem absent_of_found {close : Text} {c : Char} {text front rest : Text}
    (ordinary : ¬(c = '"' ∨ c = '\''))
    (found : splitAtClose close none (c :: text) = some (c :: front, rest)) :
    Text.after? close (c :: text) = none := by
  cases here : Text.after? close (c :: text) with
  | none => rfl
  | some after => simp [splitAtClose, ordinary, here] at found

theorem found_of_map_cons {c : Char} {result : Option (Text × Text)} {front rest : Text}
    (found : (result.map fun (front, rest) => (c :: front, rest)) = some (c :: front, rest)) :
    result = some (front, rest) := by
  obtain ⟨⟨front', rest'⟩, later, same⟩ := Option.map_eq_some_iff.mp found
  cases same
  exact later

theorem getLast?_tail {c mark : Char} {piece : Text} (last : (c :: piece).getLast? ≠ some mark) :
    piece.getLast? ≠ some mark := by
  cases piece with
  | nil => simp
  | cons d piece => rwa [List.getLast?_cons_cons] at last

/-- A piece before the end of a tag is passed over whatever follows it, unless its last character
can join with what follows. -/
theorem exists_carries {close : Text} (braces : Braces close) {piece behind front rest : Text}
    {quote : Option Char} (state : QuoteState quote) (unescaped : piece.getLast? ≠ some '\\')
    (unclosed : piece.getLast? ≠ some '}')
    (found : splitAtClose close quote (piece ++ behind) = some (piece ++ front, rest)) :
    ∃ after, QuoteState after ∧ Carries close quote piece after := by
  -- a backslash takes two characters at once, so the induction is on the length
  induction bound : piece.length using Nat.strongRecOn generalizing piece quote with
  | ind length inductionHypothesis =>
  cases piece with
  | nil => exact ⟨quote, state, .nil quote⟩
  | cons c piece =>
      simp only [List.length_cons] at bound
      simp only [List.cons_append] at found
      have step : ∀ {between : Option Char}, QuoteState between →
          (∀ behind, splitAtClose close quote (c :: (piece ++ behind)) =
            (splitAtClose close between (piece ++ behind)).map
              fun (front, rest) => (c :: front, rest)) →
          ∃ after, QuoteState after ∧ Carries close quote (c :: piece) after := by
        intro between betweenState first
        rw [first] at found
        obtain ⟨after, afterState, others⟩ := inductionHypothesis piece.length (by omega)
          betweenState (getLast?_tail unescaped) (getLast?_tail unclosed) (found_of_map_cons found) rfl
        exact ⟨after, afterState, .cons first others⟩
      cases quote with
      | none =>
          by_cases opens : c = '"' ∨ c = '\''
          · refine @step (some c) ?_ fun behind => splitAtClose_opens opens
            rintro d ⟨⟩
            exact opens
          · have absent := absent_of_found opens found
            refine step quoteState_none fun behind' => splitAtClose_outside opens ?_
            exact Text.after?_eq_none_of_getLast braces.braces unclosed (by simp) absent behind'
      | some quote =>
          by_cases escape : c = '\\'
          · subst escape
            cases piece with
            | nil => simp at unescaped
            | cons d piece =>
                rw [List.cons_append, splitAtClose_escaped] at found
                obtain ⟨⟨front', rest'⟩, later, same⟩ := Option.map_eq_some_iff.mp found
                cases same
                obtain ⟨after, afterState, others⟩ := inductionHypothesis piece.length
                  (by simp only [List.length_cons] at bound; omega) state
                  (getLast?_tail (getLast?_tail unescaped)) (getLast?_tail (getLast?_tail unclosed))
                  later rfl
                refine ⟨after, afterState, ?_⟩
                intro behind'
                simp only [List.cons_append]
                rw [splitAtClose_escaped, others]
                cases splitAtClose close after behind' with
                | none => rfl
                | some halves => rfl
          · refine step ?_ fun behind => splitAtClose_inside fun same => absurd same escape
            split
            · exact quoteState_none
            · exact state

/-- The end of a tag does not depend on what follows it. -/
theorem splitAtClose_behind {close : Text} (braces : Braces close) {body behind : Text}
    {quote : Option Char} (found : splitAtClose close quote (body ++ (close ++ behind)) =
      some (body, behind)) (other : Text) :
    splitAtClose close quote (body ++ (close ++ other)) = some (body, other) := by
  induction bound : body.length using Nat.strongRecOn generalizing body quote with
  | ind length inductionHypothesis =>
  cases body with
  | nil =>
      have here := Text.after?_append close other
      obtain ⟨brace, more, rfl⟩ := List.exists_cons_of_ne_nil braces.nonempty
      have first : brace = '}' := braces.braces brace List.mem_cons_self
      subst first
      simp only [List.nil_append, List.cons_append] at found here ⊢
      cases quote with
      | none => simp [splitAtClose, here]
      | some quote =>
          rw [splitAtClose_inside (by simp)] at found
          obtain ⟨halves, later, same⟩ := Option.map_eq_some_iff.mp found
          cases same
  | cons c body =>
      simp only [List.length_cons] at bound
      simp only [List.cons_append] at found ⊢
      cases quote with
      | none =>
          by_cases opens : c = '"' ∨ c = '\''
          · rw [splitAtClose_opens opens] at found ⊢
            rw [inductionHypothesis body.length (by omega) (found_of_map_cons found) rfl]
            rfl
          · have absent := absent_of_found opens found
            have absent' : Text.after? close (c :: (body ++ (close ++ other))) = none := by
              have long : close.length ≤ (c :: (body ++ close)).length := by
                simp only [List.length_append, List.length_cons]
                omega
              rw [← List.append_assoc, ← List.cons_append] at absent ⊢
              exact Text.after?_eq_none_of_prefix long absent other
            rw [splitAtClose_outside opens absent] at found
            rw [splitAtClose_outside opens absent',
              inductionHypothesis body.length (by omega) (found_of_map_cons found) rfl]
            rfl
      | some quote =>
          by_cases escape : c = '\\'
          · subst escape
            cases body with
            | nil =>
                obtain ⟨brace, more, rfl⟩ := List.exists_cons_of_ne_nil braces.nonempty
                simp only [List.nil_append, List.cons_append] at found
                rw [splitAtClose_escaped] at found
                obtain ⟨halves, later, same⟩ := Option.map_eq_some_iff.mp found
                cases same
            | cons d body =>
                simp only [List.cons_append] at found ⊢
                rw [splitAtClose_escaped] at found ⊢
                obtain ⟨⟨front, rest⟩, later, same⟩ := Option.map_eq_some_iff.mp found
                cases same
                rw [inductionHypothesis body.length
                  (by simp only [List.length_cons] at bound; omega) later rfl]
                rfl
          · rw [splitAtClose_inside fun same => absurd same escape] at found ⊢
            rw [inductionHypothesis body.length (by omega) (found_of_map_cons found) rfl]
            rfl

/-! ## Replacing a piece -/

/-- A piece of a tag that can be put in place of another: the tag ends behind it where it ended
behind the other. -/
def Replaces (piece other : Text) : Prop :=
  ∀ close, Braces close → ∀ quote, QuoteState quote → ∀ behind rest rest',
    splitAtClose close quote (piece ++ (behind ++ (close ++ rest))) = some (piece ++ behind, rest) →
    splitAtClose close quote (other ++ (behind ++ (close ++ rest'))) = some (other ++ behind, rest')

theorem Replaces.refl (piece : Text) : Replaces piece piece := by
  intro close braces quote _ behind rest rest' found
  rw [← List.append_assoc] at found ⊢
  exact splitAtClose_behind braces found rest'

/-- Pieces behind which the same quote is open can be put in place of each other. -/
theorem Replaces.of_carries {piece other : Text}
    (carries : ∀ close, Braces close → ∀ quote, QuoteState quote → ∀ behind front rest,
      splitAtClose close quote (piece ++ behind) = some (piece ++ front, rest) →
      ∃ after, Carries close quote piece after ∧ Carries close quote other after) :
    Replaces piece other := by
  intro close braces quote state behind rest rest' found
  obtain ⟨after, left, right⟩ := carries close braces quote state _ _ rest found
  exact right.whole (splitAtClose_behind braces (left.found found) rest')

theorem Replaces.append_right {piece other : Text} (replaces : Replaces piece other)
    (back : Text) : Replaces (piece ++ back) (other ++ back) := by
  intro close braces quote state behind rest rest' found
  rw [List.append_assoc, List.append_assoc, ← List.append_assoc back] at found ⊢
  exact replaces close braces quote state _ rest rest' found

theorem Replaces.append_left {front piece other : Text} (replaces : Replaces piece other)
    (unescaped : front.getLast? ≠ some '\\') (unclosed : front.getLast? ≠ some '}') :
    Replaces (front ++ piece) (front ++ other) := by
  intro close braces quote state behind rest rest' found
  rw [List.append_assoc, List.append_assoc] at found ⊢
  obtain ⟨after, afterState, carries⟩ := exists_carries braces state unescaped unclosed found
  exact carries.whole (replaces close braces after afterState _ rest rest' (carries.found found))

end TemplateSelectors
