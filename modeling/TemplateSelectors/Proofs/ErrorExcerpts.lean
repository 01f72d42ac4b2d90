import TemplateSelectors.Excerpt
import TemplateSelectors.Proofs.ErrorPlaces

/-!
# What is marked in an excerpt

The excerpt of an error holds the line on which the error starts, so the marked range starts in it,
between two characters, and is not empty.  It ends between two characters as well, unless the
error is over the first byte of a longer character.
-/

set_option autoImplicit false

namespace TemplateSelectors

theorem Position.line_advance (here : Position) (text : Text) :
    (here.advance text).line = here.line + text.count '\n' := by
  induction text generalizing here with
  | nil => rfl
  | cons c text inductionHypothesis =>
      rw [advance_cons, inductionHypothesis, next]
      by_cases feed : c = '\n'
      · rw [if_pos feed, feed, List.count_cons_self]
        simp only
        omega
      · rw [if_neg feed, List.count_cons_of_ne feed]

/-! ## Starts of lines -/

theorem exists_of_lineOffset (skipped : Nat) (text : Text) :
    ∃ front rest : Text, text = front ++ rest ∧ lineOffset skipped text = front.size := by
  induction text generalizing skipped with
  | nil =>
      refine ⟨[], [], rfl, ?_⟩
      cases skipped with
      | zero => rfl
      | succ skipped => rfl
  | cons c text inductionHypothesis =>
      cases skipped with
      | zero => exact ⟨[], c :: text, rfl, rfl⟩
      | succ skipped =>
          obtain ⟨front, rest, whole, offset⟩ :=
            inductionHypothesis (if c = '\n' then skipped else skipped + 1)
          refine ⟨c :: front, rest, by rw [List.cons_append, ← whole], ?_⟩
          rw [lineOffset, offset, Text.size_cons]

theorem exists_of_lineOffset_le {skipped : Nat} {front : Text} (rest : Text)
    (early : skipped ≤ front.count '\n') :
    ∃ before inside : Text, front = before ++ inside ∧
      lineOffset skipped (front ++ rest) = before.size := by
  induction front generalizing skipped with
  | nil =>
      rw [Nat.le_zero.mp early]
      exact ⟨[], [], rfl, by simp [lineOffset]⟩
  | cons c front inductionHypothesis =>
      cases skipped with
      | zero => exact ⟨[], c :: front, rfl, rfl⟩
      | succ skipped =>
          have later : (if c = '\n' then skipped else skipped + 1) ≤ front.count '\n' := by
            by_cases feed : c = '\n'
            · rw [feed, List.count_cons_self] at early
              rw [if_pos feed]
              omega
            · rw [List.count_cons_of_ne feed] at early
              rwa [if_neg feed]
          obtain ⟨before, inside, whole, offset⟩ := inductionHypothesis later
          refine ⟨c :: before, inside, by rw [List.cons_append, ← whole], ?_⟩
          rw [List.cons_append, lineOffset, offset, Text.size_cons]

theorem lineOffset_append (front rest : Text) (skipped : Nat) :
    lineOffset (front.count '\n' + (skipped + 1)) (front ++ rest) =
      front.size + lineOffset (skipped + 1) rest := by
  induction front with
  | nil => simp
  | cons c front inductionHypothesis =>
      by_cases feed : c = '\n'
      · rw [feed, List.count_cons_self, List.cons_append,
          show front.count '\n' + 1 + (skipped + 1) = front.count '\n' + (skipped + 1) + 1 by omega,
          lineOffset, if_pos rfl, inductionHypothesis, Text.size_cons]
        omega
      · rw [List.count_cons_of_ne feed, List.cons_append, ← Nat.add_assoc, lineOffset, if_neg feed,
          Nat.add_assoc, inductionHypothesis, Text.size_cons]
        omega

/-! ## Cuts of one text -/

namespace Text

theorem exists_append_of_size_le {front rest front' rest' : Text}
    (same : front ++ rest = front' ++ rest') (smaller : front.size ≤ front'.size) :
    ∃ middle, front' = front ++ middle := by
  rcases List.append_eq_append_iff.mp same with ⟨middle, rfl, _⟩ | ⟨middle, rfl, _⟩
  · exact ⟨middle, rfl⟩
  · cases middle with
    | nil => exact ⟨[], by simp⟩
    | cons c middle =>
        have positive : 0 < c.utf8Size := Char.utf8Size_pos c
        rw [size_append, size_cons] at smaller
        omega

theorem isBoundary_first_byte {front rest : Text} {c : Char} (long : 1 < c.utf8Size) :
    isBoundary (front.size + 1) (front ++ c :: rest) = false := by
  rw [Bool.eq_false_iff]
  intro boundary
  obtain ⟨front', rest', whole, size⟩ := isBoundary_iff.mp boundary
  obtain ⟨middle, rfl⟩ := exists_append_of_size_le whole (by omega)
  rw [List.append_assoc, List.append_cancel_left_eq] at whole
  rw [size_append] at size
  cases middle with
  | nil =>
      rw [size_nil] at size
      omega
  | cons d middle =>
      cases whole
      rw [size_cons] at size
      omega

end Text

/-! ## Excerpts -/

variable {source : Text}

/-- The excerpt of an error behind `front` holds what follows `front`, at least one character. -/
theorem ParseError.excerpt_around {error : ParseError} {front rest : Text} {c : Char}
    (whole : source = front ++ c :: rest) (start : error.span.start = front.size)
    (position : error.position = positionAt source front.size) :
    ∃ before inside more after : Text, front = before ++ inside ∧ rest = more ++ after ∧
      source.slice? (lineStart source (error.position.line - 1))
        (lineStart source (error.position.line + 2)) = some (inside ++ c :: more) ∧
      (error.excerpt source).text = inside ++ c :: more ∧
      (error.excerpt source).start = inside.size ∧
      (inside.size < min (error.span.stop - before.size) (inside ++ c :: more).size →
        (error.excerpt source).stop =
          min (error.span.stop - before.size) (inside ++ c :: more).size) := by
  have line : error.position.line = 1 + front.count '\n' := by
    rw [position, whole, positionAt, positionFrom_append, Position.line_advance]
  obtain ⟨before, inside, rfl, first⟩ :=
    @exists_of_lineOffset_le (front.count '\n' - 1) front (c :: rest) (Nat.sub_le _ _)
  obtain ⟨more, after, rfl, last⟩ := exists_of_lineOffset (if c = '\n' then 1 else 2) rest
  have firstLine : lineStart source (error.position.line - 1) = before.size := by
    rw [line, lineStart, whole, ← first]
    congr 1
    omega
  have lastLine : lineStart source (error.position.line + 2) =
      before.size + (inside ++ c :: more).size := by
    rw [line, lineStart, whole,
      show 1 + (before ++ inside).count '\n' + 2 - 1 = (before ++ inside).count '\n' + (1 + 1) by
        omega, lineOffset_append, lineOffset, last]
    simp only [Text.size_append, Text.size_cons]
    omega
  have cut : source.slice? before.size (before.size + (inside ++ c :: more).size) =
      some (inside ++ c :: more) := by
    have split : source = before ++ ((inside ++ c :: more) ++ after) := by
      rw [whole]
      simp
    rw [split]
    exact Text.slice?_append _ _ _
  have inner : min ((before ++ inside).size - before.size) (inside ++ c :: more).size =
      inside.size := by
    simp only [Text.size_append]
    omega
  refine ⟨before, inside, more, after, rfl, rfl, ?_, ?_, ?_, ?_⟩
  · rw [firstLine, lastLine, cut]
  · simp only [excerpt, firstLine, lastLine, cut, Option.getD_some]
  · simp only [excerpt, firstLine, lastLine, cut, Option.getD_some, start, inner]
  · intro reaches
    simp only [excerpt, firstLine, lastLine, cut, Option.getD_some, start, inner]
    rw [if_neg (by omega)]

/-- An error over the first byte of a longer character. -/
def ParseError.CutsChar (source : Text) (error : ParseError) : Prop :=
  ∃ (fault : ExpressionFault) (c : Char) (front rest : Text), source = front ++ c :: rest ∧
    1 < c.utf8Size ∧ error.cause = .invalidExpression fault ∧
    error.span = ⟨front.size, front.size + 1⟩

theorem ParseError.CutsChar.not_isBoundary {error : ParseError} (cuts : error.CutsChar source)
    (position : error.position = positionAt source error.span.start) :
    (error.excerpt source).text.isBoundary (error.excerpt source).stop = false := by
  obtain ⟨fault, c, front, rest, whole, long, _, span⟩ := cuts
  rw [span] at position
  obtain ⟨before, inside, more, after, rfl, rfl, _, text, _, stop⟩ :=
    excerpt_around whole (by rw [span]) position
  have ends : min (error.span.stop - before.size) (inside ++ c :: more).size = inside.size + 1 := by
    rw [span]
    simp only [Text.size_append, Text.size_cons]
    omega
  rw [ends] at stop
  rw [text, stop (by omega)]
  exact Text.isBoundary_first_byte long

theorem ParseError.isBoundary_of_across {error : ParseError} {front marked rest : Text}
    (nonempty : marked ≠ []) (whole : source = front ++ (marked ++ rest))
    (span : error.span = ⟨front.size, front.size + marked.size⟩)
    (position : error.position = positionAt source front.size) :
    (error.excerpt source).start < (error.excerpt source).stop ∧
      (error.excerpt source).text.isBoundary (error.excerpt source).stop = true := by
  obtain ⟨c, others, rfl⟩ := List.exists_cons_of_ne_nil nonempty
  have positive : 0 < c.utf8Size := Char.utf8Size_pos c
  obtain ⟨before, inside, more, after, rfl, split, _, text, start, stop⟩ :=
    excerpt_around whole (by rw [span]) position
  have ends : error.span.stop - before.size = (inside ++ c :: others).size := by
    rw [span]
    simp only [Text.size_append, Text.size_cons]
    omega
  rw [ends] at stop
  have reaches : inside.size < min (inside ++ c :: others).size (inside ++ c :: more).size := by
    simp only [Text.size_append, Text.size_cons]
    omega
  rw [start, text, stop reaches]
  refine ⟨reaches, ?_⟩
  rcases Nat.le_total (inside ++ c :: others).size (inside ++ c :: more).size with fits | cut
  · rw [Nat.min_eq_left fits]
    have same : (inside ++ c :: others) ++ rest = (inside ++ c :: more) ++ after := by
      simpa using split
    obtain ⟨left, shape⟩ := Text.exists_append_of_size_le same fits
    rw [shape]
    exact Text.isBoundary_append _ left
  · rw [Nat.min_eq_right cut]
    have end' := Text.isBoundary_append (inside ++ c :: more) []
    rwa [List.append_nil] at end'

theorem ParseError.StandsIn.isBoundary_stop_iff {error : ParseError}
    (stands : error.StandsIn source) :
    (error.excerpt source).text.isBoundary (error.excerpt source).stop = true ↔
      ¬error.CutsChar source := by
  constructor
  · intro boundary cuts
    rw [cuts.not_isBoundary stands.position_eq] at boundary
    cases boundary
  · intro whole
    have position := stands.position_eq
    cases stands with
    | across cause nonempty split =>
        exact (isBoundary_of_across nonempty split rfl position).2
    | @firstByte fault c front rest split =>
        have short : c.utf8Size = 1 := by
          have positive : 0 < c.utf8Size := Char.utf8Size_pos c
          by_contra long
          exact whole ⟨fault, c, front, rest, split, by omega, rfl, rfl⟩
        have single : source = front ++ ([c] ++ rest) := split
        refine (isBoundary_of_across (List.cons_ne_nil c []) single ?_ position).2
        rw [Text.size_cons, short]
        rfl

theorem ParseError.StandsIn.excerpt_range {error : ParseError} (stands : error.StandsIn source) :
    source.slice? (lineStart source (error.position.line - 1))
        (lineStart source (error.position.line + 2)) = some (error.excerpt source).text ∧
      (error.excerpt source).text.isBoundary (error.excerpt source).start = true ∧
      (error.excerpt source).start < (error.excerpt source).stop := by
  obtain ⟨front, c, rest, whole, start, beyond⟩ : ∃ (front : Text) (c : Char) (rest : Text),
      source = front ++ c :: rest ∧ error.span.start = front.size ∧
        front.size < error.span.stop := by
    cases stands with
    | @across cause front marked rest nonempty whole =>
        obtain ⟨c, others, rfl⟩ := List.exists_cons_of_ne_nil nonempty
        have positive : 0 < c.utf8Size := Char.utf8Size_pos c
        refine ⟨front, c, others ++ rest, whole, rfl, ?_⟩
        simp only [LineIndex.errorAt, Text.size_cons]
        omega
    | @firstByte fault c front rest whole =>
        exact ⟨front, c, rest, whole, rfl, Nat.lt_succ_self _⟩
  have position := stands.position_eq
  rw [start] at position
  obtain ⟨before, inside, more, after, rfl, rfl, cut, text, first, stop⟩ :=
    excerpt_around whole start position
  have reaches : inside.size < min (error.span.stop - before.size) (inside ++ c :: more).size := by
    have positive : 0 < c.utf8Size := Char.utf8Size_pos c
    simp only [Text.size_append, Text.size_cons] at beyond ⊢
    omega
  rw [cut, text, first, stop reaches]
  exact ⟨rfl, Text.isBoundary_append inside _, reaches⟩

theorem ParseError.stop_le_size (error : ParseError) (source : Text) :
    (error.excerpt source).stop ≤ (error.excerpt source).text.size := by
  unfold excerpt
  simp only
  split
  · exact Nat.min_le_right _ _
  · exact Nat.min_le_right _ _

/-- What is marked in the excerpt of an error lies in it, is not empty and starts between two
characters.  It ends between two characters exactly if the error is not over the first byte of a
longer character. -/
theorem Template.excerpt_of_parse_error {source : Text} {error : ParseError}
    (failed : parse source = .error error) :
    source.slice? (lineStart source (error.position.line - 1))
        (lineStart source (error.position.line + 2)) = some (error.excerpt source).text ∧
      (error.excerpt source).start < (error.excerpt source).stop ∧
      (error.excerpt source).stop ≤ (error.excerpt source).text.size ∧
      (error.excerpt source).text.isBoundary (error.excerpt source).start = true ∧
      ((error.excerpt source).text.isBoundary (error.excerpt source).stop = true ↔
        ¬error.CutsChar source) := by
  have stands := standsIn_of_parse failed
  obtain ⟨cut, boundary, ordered⟩ := stands.excerpt_range
  exact ⟨cut, ordered, error.stop_le_size source, boundary, stands.isBoundary_stop_iff⟩

theorem Template.exists_error_of_map {α : Type} {source : Text} {f : ParseError → α} {value : α}
    (facts : (match parse source with
      | .error error => some (f error)
      | .ok _ => none) = some value) :
    ∃ error, parse source = .error error ∧ f error = value := by
  cases parsed : parse source with
  | error error =>
      rw [parsed] at facts
      exact ⟨error, rfl, Option.some.inj facts⟩
  | ok template =>
      rw [parsed] at facts
      cases facts

/-- Between lines with longer characters, a close tag that names another block. -/
def closedApart : Text :=
  "é\n\n\x7b\x7b#if ü\x7d\x7dß\n ö \x7b\x7b/each\x7d\x7d\nä\nx".toList

theorem Template.excerpt_of_parse_error_closedApart :
    ∃ error, parse closedApart = .error error ∧
      (error.excerpt closedApart).text = "\x7b\x7b#if ü\x7d\x7dß\n ö \x7b\x7b/each\x7d\x7d\nä\n".toList ∧
      closedApart.slice? (lineStart closedApart (error.position.line - 1))
        (lineStart closedApart (error.position.line + 2)) =
          some (error.excerpt closedApart).text ∧
      (error.excerpt closedApart).start < (error.excerpt closedApart).stop ∧
      (error.excerpt closedApart).stop ≤ (error.excerpt closedApart).text.size ∧
      (error.excerpt closedApart).text.isBoundary (error.excerpt closedApart).start = true ∧
      ((error.excerpt closedApart).text.isBoundary (error.excerpt closedApart).stop = true ↔
        ¬error.CutsChar closedApart) := by
  have text : (match parse closedApart with
      | .error error => some (error.excerpt closedApart).text
      | .ok _ => none) =
        some "\x7b\x7b#if ü\x7d\x7dß\n ö \x7b\x7b/each\x7d\x7d\nä\n".toList := by
    cbv
  obtain ⟨error, failed, shown⟩ := exists_error_of_map text
  exact ⟨error, failed, shown, excerpt_of_parse_error failed⟩

/-- A tag in which a letter of two bytes follows a string. -/
def accentBehindString : Text :=
  "\x7b\x7bx \"a\"é\x7d\x7d".toList

/-- What is marked ends inside the letter. -/
theorem Template.excerpt_accentBehindString :
    ¬∀ (source : Text) (error : ParseError), parse source = .error error →
      (error.excerpt source).text.isBoundary (error.excerpt source).stop = true := by
  intro marked
  have inside : (match parse accentBehindString with
      | .error error => some ((error.excerpt accentBehindString).text.isBoundary
          (error.excerpt accentBehindString).stop)
      | .ok _ => none) = some false := by
    cbv
  obtain ⟨error, failed, cut⟩ := exists_error_of_map inside
  rw [marked accentBehindString error failed] at cut
  cases cut

end TemplateSelectors
