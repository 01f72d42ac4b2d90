import Mathlib.Order.Bounds.Basic
import TemplateSelectors.Excerpt
import TemplateSelectors.Proofs.OffsetPlaces

/-!
# The lines around an offset

The starts of lines are found in two ways: by the line feeds that are counted from the start of
the source, and in the index of all of them, which is searched for an offset.  Both agree, so
what is shown around an offset is the line in which it lies with the one before and the one behind.
-/

set_option autoImplicit false

namespace TemplateSelectors

/-! ## Whole lines -/

namespace Text

/-- The lines of a text, each with its line feed.  A line feed at the end opens one more line. -/
def wholeLines : Text → List Text
  | [] => [[]]
  | c :: rest =>
      if c = '\n' then [c] :: wholeLines rest else (wholeLines rest).modifyHead (c :: ·)

/-- The lines numbered from `first` to `last`, as far as there are any; the first line is line
one. -/
def linesAmong (first last : Nat) (text : Text) : List Text :=
  (text.wholeLines.take last).drop (first - 1)

theorem wholeLines_ne_nil (text : Text) : text.wholeLines ≠ [] := by
  induction text with
  | nil => exact List.cons_ne_nil _ _
  | cons c rest inductionHypothesis =>
      rw [wholeLines]
      split
      · exact List.cons_ne_nil _ _
      · obtain ⟨line, lines, shape⟩ := List.exists_cons_of_ne_nil inductionHypothesis
        rw [shape]
        exact List.cons_ne_nil _ _

theorem flatten_wholeLines (text : Text) : text.wholeLines.flatten = text := by
  induction text with
  | nil => rfl
  | cons c rest inductionHypothesis =>
      rw [wholeLines]
      split
      · rw [List.flatten_cons, inductionHypothesis, List.singleton_append]
      · obtain ⟨line, lines, shape⟩ := List.exists_cons_of_ne_nil (wholeLines_ne_nil rest)
        rw [shape, List.flatten_cons] at inductionHypothesis
        rw [shape, List.modifyHead_cons, List.flatten_cons, List.cons_append, inductionHypothesis]

end Text

theorem lineOffset_eq_size (skipped : Nat) (text : Text) :
    lineOffset skipped text = Text.size (text.wholeLines.take skipped).flatten := by
  induction text generalizing skipped with
  | nil =>
      cases skipped with
      | zero => rfl
      | succ skipped => simp [lineOffset, Text.wholeLines]
  | cons c rest inductionHypothesis =>
      cases skipped with
      | zero => rfl
      | succ skipped =>
          rw [lineOffset, inductionHypothesis, Text.wholeLines]
          split
          · rw [List.take_succ_cons, List.flatten_cons, List.singleton_append, Text.size_cons]
          · obtain ⟨line, lines, shape⟩ := List.exists_cons_of_ne_nil (Text.wholeLines_ne_nil rest)
            rw [shape, List.modifyHead_cons, List.take_succ_cons, List.take_succ_cons,
              List.flatten_cons, List.flatten_cons, List.cons_append, Text.size_cons]

theorem slice?_lineOffset (source : Text) {first last : Nat} (ordered : first ≤ last) :
    lineOffset last source = lineOffset first source +
        Text.size ((source.wholeLines.take last).drop first).flatten ∧
      source.slice? (lineOffset first source) (lineOffset last source) =
        some ((source.wholeLines.take last).drop first).flatten := by
  have front : source.wholeLines.take last =
      source.wholeLines.take first ++ (source.wholeLines.take last).drop first := by
    have split := (List.take_append_drop first (source.wholeLines.take last)).symm
    rwa [List.take_take, Nat.min_eq_left ordered] at split
  have whole : source = (source.wholeLines.take first).flatten ++
      (((source.wholeLines.take last).drop first).flatten ++
        (source.wholeLines.drop last).flatten) := by
    rw [← List.append_assoc, ← List.flatten_append, ← front, ← List.flatten_append,
      List.take_append_drop, Text.flatten_wholeLines]
  have sizes : lineOffset last source = lineOffset first source +
      Text.size ((source.wholeLines.take last).drop first).flatten := by
    rw [lineOffset_eq_size, lineOffset_eq_size, ← Text.size_append, ← List.flatten_append, ← front]
  have cut := Text.slice?_append (source.wholeLines.take first).flatten
    ((source.wholeLines.take last).drop first).flatten (source.wholeLines.drop last).flatten
  rw [← whole, ← lineOffset_eq_size, ← sizes] at cut
  exact ⟨sizes, cut⟩

/-! ## Line starts in the index -/

theorem lineOffset_eq_getD (text : Text) (start skipped : Nat) :
    start + lineOffset (skipped + 1) text =
      ((LineIndex.startsFrom start text).map LineStart.offset)[skipped]?.getD
        (start + text.size) := by
  induction text generalizing start skipped with
  | nil => rfl
  | cons c rest inductionHypothesis =>
      have next := inductionHypothesis (start + c.utf8Size)
      rw [lineOffset, LineIndex.startsFrom, Text.size_cons, ← Nat.add_assoc, ← Nat.add_assoc]
      split
      · cases skipped with
        | zero => simp [lineOffset]
        | succ skipped => exact next skipped
      · exact next skipped

theorem lineStart_eq_getD (source : Text) (place : Nat) :
    lineStart source (place + 1) = (ByOffsets.lineStarts source)[place]?.getD source.size := by
  rw [ByOffsets.lineStarts_eq, List.map_cons]
  cases place with
  | zero => simp [lineStart, lineOffset]
  | succ place =>
      have counted := lineOffset_eq_getD source 0 place
      rw [Nat.zero_add, Nat.zero_add] at counted
      exact counted

theorem pairwise_lineStarts (source : Text) : (ByOffsets.lineStarts source).Pairwise (· < ·) := by
  obtain ⟨ascending, lines⟩ := ByOffsets.startsFrom_ascending (List.nil_append source).symm
  rw [Text.size_nil] at ascending lines
  rw [ByOffsets.lineStarts_eq, List.pairwise_map]
  exact .cons (fun line member => (lines line member).1) ascending

/-- The search stops at a line that starts at or before the offset, and before the first one that
starts behind it. -/
theorem LineIndex.exists_of_lineFrom {offset : Nat} (number : Nat) (here : LineStart)
    (later : List LineStart) (started : here.offset ≤ offset) :
    ∃ place line, lineFrom offset number here later = (number + place, line) ∧
      (here :: later)[place]? = some line ∧ line.offset ≤ offset ∧
      ∀ next, (here :: later)[place + 1]? = some next → offset < next.offset := by
  induction later generalizing number here with
  | nil => exact ⟨0, here, rfl, rfl, started, by simp⟩
  | cons next later inductionHypothesis =>
      by_cases reached : next.offset ≤ offset
      · obtain ⟨place, line, found, member, bound, behind⟩ :=
          inductionHypothesis (number + 1) next reached
        refine ⟨place + 1, line, ?_, member, bound, behind⟩
        rw [lineFrom, if_pos reached, found, Nat.add_assoc, Nat.add_comm 1 place]
      · refine ⟨0, here, by rw [lineFrom, if_neg reached, Nat.add_zero], rfl, started, ?_⟩
        rintro _ ⟨⟩
        exact Nat.lt_of_not_le reached

theorem exists_place_of_position {source : Text} {offset : Nat} (inside : offset ≤ source.size) :
    ∃ place start, ((LineIndex.ofText source).position offset).line = place + 1 ∧
      (ByOffsets.lineStarts source)[place]? = some start ∧ start ≤ offset ∧
      ∀ next, (ByOffsets.lineStarts source)[place + 1]? = some next → offset < next := by
  obtain ⟨place, line, found, member, bound, behind⟩ := LineIndex.exists_of_lineFrom 1
    ⟨0, source⟩ (LineIndex.startsFrom 0 source) (Nat.zero_le offset)
  refine ⟨place, line.offset, ?_, ?_, bound, ?_⟩
  · simp only [LineIndex.position, LineIndex.ofText, Nat.min_eq_left inside, found]
    exact Nat.add_comm 1 place
  · rw [ByOffsets.lineStarts_eq, List.getElem?_map, member]
    rfl
  · intro next later
    rw [ByOffsets.lineStarts_eq, List.getElem?_map, Option.map_eq_some_iff] at later
    obtain ⟨line', member', rfl⟩ := later
    exact behind line' member'

/-- Of numbers in ascending order, each is at most the one at `place` or at least the next one. -/
theorem le_or_next_le {numbers : List Nat} (ascending : numbers.Pairwise (· < ·))
    {place number other : Nat} (here : numbers[place]? = some number) (member : other ∈ numbers) :
    other ≤ number ∨ ∃ next, numbers[place + 1]? = some next ∧ next ≤ other := by
  induction numbers generalizing place with
  | nil => cases member
  | cons first rest inductionHypothesis =>
      cases place with
      | zero =>
          cases here
          rcases List.mem_cons.mp member with rfl | behind
          · exact .inl (Nat.le_refl _)
          · obtain ⟨next, more, rfl⟩ := List.exists_cons_of_ne_nil (List.ne_nil_of_mem behind)
            refine .inr ⟨next, rfl, ?_⟩
            rcases List.mem_cons.mp behind with rfl | further
            · exact Nat.le_refl _
            · exact Nat.le_of_lt (List.rel_of_pairwise_cons ascending.of_cons further)
      | succ place =>
          rcases List.mem_cons.mp member with rfl | behind
          · have before := List.rel_of_pairwise_cons ascending (List.mem_of_getElem? here)
            exact .inl (Nat.le_of_lt before)
          · exact inductionHypothesis ascending.of_cons here behind

/-! ## What is shown -/

section

variable {source : Text} {offset place start : Nat}

theorem isGreatest_lineStart (here : (ByOffsets.lineStarts source)[place]? = some start)
    (upTo : start ≤ offset)
    (behind : ∀ next, (ByOffsets.lineStarts source)[place + 1]? = some next → offset < next) :
    IsGreatest {s | s ∈ ByOffsets.lineStarts source ∧ s ≤ offset}
      (lineStart source (place + 1)) := by
  rw [lineStart_eq_getD, here, Option.getD_some]
  refine ⟨⟨List.mem_of_getElem? here, upTo⟩, ?_⟩
  rintro other ⟨member, before⟩
  rcases le_or_next_le (pairwise_lineStarts source) here member with le | ⟨next, found, le⟩
  · exact le
  · have := behind next found
    omega

theorem isLeast_lineStart (here : (ByOffsets.lineStarts source)[place]? = some start)
    (upTo : start ≤ offset)
    (behind : ∀ next, (ByOffsets.lineStarts source)[place + 1]? = some next → offset < next) :
    IsLeast {s | s ∈ ByOffsets.lineStarts source ∧ offset < s} (lineStart source (place + 2)) ∨
      lineStart source (place + 2) = source.size ∧
        ∀ s ∈ ByOffsets.lineStarts source, s ≤ offset := by
  have split := fun other (member : other ∈ ByOffsets.lineStarts source) =>
    le_or_next_le (pairwise_lineStarts source) here member
  rw [lineStart_eq_getD]
  cases found : (ByOffsets.lineStarts source)[place + 1]? with
  | some next =>
      refine .inl ⟨⟨List.mem_of_getElem? found, behind next found⟩, ?_⟩
      rintro other ⟨member, beyond⟩
      rcases split other member with le | ⟨next', found', le⟩
      · omega
      · rw [found] at found'
        cases found'
        exact le
  | none =>
      refine .inr ⟨rfl, ?_⟩
      intro other member
      rcases split other member with le | ⟨next, found', _⟩
      · omega
      · rw [found] at found'
        cases found'

end

theorem lineStart_mono (source : Text) {first last : Nat} (ordered : first ≤ last) :
    lineStart source first ≤ lineStart source last := by
  rw [lineStart, lineStart, (slice?_lineOffset source (Nat.sub_le_sub_right ordered 1)).1]
  exact Nat.le_add_right _ _

theorem slice?_lineStart (source : Text) (line : Nat) :
    lineStart source (line + 2) = lineStart source (line - 1) +
        Text.size (source.linesAmong (max 1 (line - 1)) (line + 1)).flatten ∧
      source.slice? (lineStart source (line - 1)) (lineStart source (line + 2)) =
        some (source.linesAmong (max 1 (line - 1)) (line + 1)).flatten := by
  have first : max 1 (line - 1) - 1 = line - 1 - 1 := by omega
  rw [Text.linesAmong, first]
  exact slice?_lineOffset source (by omega)

/-- With the line of an offset: its start is the last line start up to the offset, and the next
line starts at the first one behind the offset or, without one, at the end.  So what is shown
around the offset lies in the source, is made of the lines from the one before to the one behind,
as far as there are any, and holds the offset. -/
theorem excerpt_holds_lines (source : Text) {offset line : Nat} (inside : offset ≤ source.size)
    (told : ((LineIndex.ofText source).position offset).line = line) :
    IsGreatest {s | s ∈ ByOffsets.lineStarts source ∧ s ≤ offset} (lineStart source line) ∧
    (IsLeast {s | s ∈ ByOffsets.lineStarts source ∧ offset < s} (lineStart source (line + 1)) ∨
      lineStart source (line + 1) = source.size ∧
        ∀ s ∈ ByOffsets.lineStarts source, s ≤ offset) ∧
    source.slice? (lineStart source (line - 1)) (lineStart source (line + 2)) =
      some (source.linesAmong (max 1 (line - 1)) (line + 1)).flatten ∧
    lineStart source (line - 1) ≤ offset ∧ offset ≤ lineStart source (line + 2) ∧
    ∀ error : ParseError, error.position = (LineIndex.ofText source).position offset →
      (error.excerpt source).text = (source.linesAmong (max 1 (line - 1)) (line + 1)).flatten ∧
      (error.excerpt source).firstLine = max 1 (line - 1) ∧
      (error.span.start = offset →
        lineStart source (line - 1) + (error.excerpt source).start = offset) := by
  obtain ⟨place, start, number, here, upTo, behind⟩ := exists_place_of_position inside
  rw [number] at told
  subst told
  have greatest := isGreatest_lineStart here upTo behind
  have next := isLeast_lineStart here upTo behind
  obtain ⟨size, cut⟩ := slice?_lineStart source (place + 1)
  have before : lineStart source (place + 1 - 1) ≤ offset :=
    Nat.le_trans (lineStart_mono source (Nat.sub_le _ _)) greatest.1.2
  have beyond : offset ≤ lineStart source (place + 1 + 2) := by
    have later : lineStart source (place + 2) ≤ lineStart source (place + 1 + 2) :=
      lineStart_mono source (by omega)
    rcases next with least | ⟨last, _⟩
    · exact Nat.le_trans (Nat.le_of_lt least.1.2) later
    · omega
  refine ⟨greatest, next, cut, before, beyond, ?_⟩
  intro error position
  have line : error.position.line = place + 1 := by rw [position, number]
  refine ⟨?_, ?_, ?_⟩
  · simp only [ParseError.excerpt, line, cut, Option.getD_some]
  · simp only [ParseError.excerpt, line]
  · intro starts
    simp only [ParseError.excerpt, line, cut, Option.getD_some, starts]
    omega

/-- Lines of different sizes, one of them empty, and a line feed at the end. -/
def unevenLines : Text :=
  "é\n\nab\nü\n".toList

theorem excerpt_holds_lines_unevenLines :
    ((LineIndex.ofText unevenLines).position 5).line = 3 ∧
      IsGreatest {s | s ∈ ByOffsets.lineStarts unevenLines ∧ s ≤ 5} (lineStart unevenLines 3) ∧
      unevenLines.slice? (lineStart unevenLines 2) (lineStart unevenLines 5) =
        some (unevenLines.linesAmong 2 4).flatten ∧
      unevenLines.linesAmong 2 4 = ["\n".toList, "ab\n".toList, "ü\n".toList] ∧
      ((LineIndex.ofText unevenLines).position unevenLines.size).line = 5 ∧
      unevenLines.slice? (lineStart unevenLines 4) (lineStart unevenLines 7) =
        some (unevenLines.linesAmong 4 6).flatten ∧
      unevenLines.linesAmong 4 6 = ["ü\n".toList, []] ∧
      unevenLines.size ≤ lineStart unevenLines 7 := by
  have third : ((LineIndex.ofText unevenLines).position 5).line = 3 := by decide
  have last : ((LineIndex.ofText unevenLines).position unevenLines.size).line = 5 := by decide
  obtain ⟨greatest, -, shown, -⟩ := excerpt_holds_lines unevenLines (by decide) third
  obtain ⟨-, -, shownLast, -, reaches, -⟩ := excerpt_holds_lines unevenLines (Nat.le_refl _) last
  exact ⟨third, greatest, shown, by decide, last, shownLast, by decide, reaches⟩

end TemplateSelectors
