import TemplateSelectors.LineIndex

/-!
# Positions and offsets

Between two characters of a source, line and column follow from the text before.  They grow with
every character, so a position tells its offset.
-/

set_option autoImplicit false

namespace TemplateSelectors

namespace Position

def next (here : Position) (c : Char) : Position :=
  if c = '\n' then ⟨here.line + 1, 1⟩ else ⟨here.line, here.column + 1⟩

def advance (here : Position) (text : Text) : Position :=
  text.foldl next here

@[simp]
theorem advance_nil (here : Position) : here.advance [] = here := rfl

@[simp]
theorem advance_cons (here : Position) (c : Char) (text : Text) :
    here.advance (c :: text) = (here.next c).advance text := rfl

theorem advance_append (here : Position) (front back : Text) :
    here.advance (front ++ back) = (here.advance front).advance back := by
  simp [advance]

def Before (first second : Position) : Prop :=
  first.line < second.line ∨ first.line = second.line ∧ first.column < second.column

theorem Before.trans {first second third : Position} (left : first.Before second)
    (right : second.Before third) : first.Before third := by
  unfold Before at *
  omega

theorem compare_eq_lt_of_before {first second : Position} (before : first.Before second) :
    first.compare second = .lt := by
  rcases before with line | ⟨line, column⟩
  · simp [compare, Nat.compare_eq_lt.mpr line, Ordering.then]
  · simp [compare, line, Nat.compare_eq_lt.mpr column, Ordering.then]

theorem before_next (here : Position) (c : Char) : here.Before (here.next c) := by
  unfold next Before
  split
  · exact .inl (Nat.lt_succ_self _)
  · exact .inr ⟨rfl, Nat.lt_succ_self _⟩

theorem before_advance {here : Position} {text : Text} (nonempty : text ≠ []) :
    here.Before (here.advance text) := by
  induction text generalizing here with
  | nil => exact absurd rfl nonempty
  | cons c text inductionHypothesis =>
      rw [advance_cons]
      cases text with
      | nil => exact here.before_next c
      | cons d text => exact (here.before_next c).trans (inductionHypothesis (by simp))

theorem before_irrefl (here : Position) : ¬here.Before here := by
  unfold Before
  omega

/-- Every character adds at most one to the line or to the column. -/
theorem advance_le (here : Position) (started : 1 ≤ here.column) (text : Text) :
    (here.advance text).line ≤ here.line + text.length ∧
      (here.advance text).column ≤ here.column + text.length := by
  induction text generalizing here with
  | nil => exact ⟨Nat.le_refl _, Nat.le_refl _⟩
  | cons c text inductionHypothesis =>
      have step : 1 ≤ (here.next c).column ∧ (here.next c).line ≤ here.line + 1 ∧
          (here.next c).column ≤ here.column + 1 := by
        unfold next
        split
        · exact ⟨Nat.le_refl 1, Nat.le_refl _, Nat.le_add_left 1 _⟩
        · exact ⟨Nat.le_add_left 1 _, Nat.le_add_right _ 1, Nat.le_refl _⟩
      obtain ⟨line, column⟩ := inductionHypothesis (here.next c) step.1
      rw [advance_cons, List.length_cons]
      omega

structure AtMost (limit : Nat) (position : Position) : Prop where
  line : position.line ≤ limit
  column : position.column ≤ limit

end Position

theorem Text.length_le_size (text : Text) : text.length ≤ text.size := by
  induction text with
  | nil => exact Nat.le_refl 0
  | cons c text inductionHypothesis =>
      have positive : 0 < c.utf8Size := Char.utf8Size_pos c
      rw [List.length_cons, size_cons]
      omega

namespace LineIndex

theorem charsWithin?_append (seen : Nat) (front rest : Text) :
    Text.charsWithin? seen front.size (front ++ rest) = some (seen + front.length) := by
  induction front generalizing seen with
  | nil => simp [Text.charsWithin?]
  | cons c front inductionHypothesis =>
      have positive : 0 < c.utf8Size := Char.utf8Size_pos c
      obtain ⟨count, size⟩ : ∃ count, c.utf8Size + Text.size front = count + 1 :=
        ⟨c.utf8Size + Text.size front - 1, by omega⟩
      have left : count + 1 - c.utf8Size = Text.size front := by omega
      have fits : c.utf8Size ≤ count + 1 := by omega
      rw [Text.size_cons, size, List.cons_append, Text.charsWithin?, if_pos fits, left,
        inductionHypothesis, List.length_cons]
      congr 1
      omega

/-- No further line starts before the text goes on. -/
theorem lineFrom_startsFrom_of_le {offset base : Nat} (reached : offset ≤ base) (number : Nat)
    (here : LineStart) (rest : Text) :
    lineFrom offset number here (startsFrom base rest) = (number, here) := by
  induction rest generalizing base with
  | nil => rfl
  | cons c rest inductionHypothesis =>
      have positive : 0 < c.utf8Size := Char.utf8Size_pos c
      simp only [startsFrom]
      split
      · rw [lineFrom, if_neg]
        simp only
        omega
      · exact inductionHypothesis (by omega)

/-- The line that is reached behind `front`, when `passed` is the part of the line before it. -/
theorem lineFrom_append (front rest passed : Text) (number base : Nat) :
    ∃ line passed', lineFrom (base + passed.size + front.size) number
        ⟨base, passed ++ (front ++ rest)⟩ (startsFrom (base + passed.size) (front ++ rest)) =
          (line, ⟨base + passed.size + front.size - passed'.size, passed' ++ rest⟩) ∧
      passed'.size ≤ base + passed.size + front.size ∧
      Position.advance ⟨number, passed.length + 1⟩ front = ⟨line, passed'.length + 1⟩ := by
  induction front generalizing passed number base with
  | nil =>
      refine ⟨number, passed, ?_, by simp, rfl⟩
      rw [List.nil_append, lineFrom_startsFrom_of_le (by simp)]
      simp
  | cons c front inductionHypothesis =>
      simp only [List.cons_append, startsFrom, Text.size_cons, Position.advance_cons, Position.next]
      split
      · next feed =>
          subst feed
          have size : Char.utf8Size '\n' = 1 := rfl
          obtain ⟨line, passed', found, bound, position⟩ :=
            inductionHypothesis [] (number + 1) (base + passed.size + 1)
          simp only [Text.size_nil, Nat.add_zero, List.nil_append, List.length_nil,
            Nat.zero_add] at found bound position
          refine ⟨line, passed', ?_, by omega, position⟩
          rw [size, lineFrom, if_pos (by simp only; omega)]
          have order : base + passed.size + (1 + Text.size front) =
              base + passed.size + 1 + Text.size front := by omega
          rw [order]
          exact found
      · obtain ⟨line, passed', found, bound, position⟩ :=
          inductionHypothesis (passed ++ [c]) number base
        simp only [Text.size_append, Text.size_cons, Text.size_nil, List.append_assoc,
          List.singleton_append, List.length_append, List.length_cons, List.length_nil,
          Nat.add_zero, Nat.zero_add] at found bound position
        refine ⟨line, passed', ?_, by omega, position⟩
        have order : base + passed.size + (c.utf8Size + Text.size front) =
            base + (passed.size + c.utf8Size) + Text.size front := by omega
        rw [order, Nat.add_assoc base passed.size]
        exact found

theorem position_append (front rest : Text) :
    (LineIndex.ofText (front ++ rest)).position front.size = Position.advance ⟨1, 1⟩ front := by
  obtain ⟨line, passed, found, bound, position⟩ := lineFrom_append front rest [] 1 0
  simp only [Text.size_nil, Nat.add_zero, Nat.zero_add, List.nil_append,
    List.length_nil] at found bound position
  have inside : min front.size (front ++ rest).size = front.size := by
    rw [Text.size_append]
    omega
  have bytes : front.size - (front.size - passed.size) = passed.size := by omega
  simp only [LineIndex.position, ofText, inside, found, bytes, charsWithin?_append, position,
    Option.getD_some, Nat.zero_add]

/-- Neither number of a position exceeds the number of bytes by more than one. -/
theorem position_atMost {text front rest : Text} (whole : text = front ++ rest) :
    ((LineIndex.ofText text).position front.size).AtMost (text.size + 1) := by
  obtain ⟨line, column⟩ := Position.advance_le ⟨1, 1⟩ (Nat.le_refl 1) front
  have short := Text.length_le_size front
  simp only at line column
  rw [whole, position_append, Text.size_append]
  exact ⟨by omega, by omega⟩

theorem position_before {text front middle rest : Text} (whole : text = front ++ (middle ++ rest))
    (nonempty : middle ≠ []) :
    ((LineIndex.ofText text).position front.size).Before
      ((LineIndex.ofText text).position (front ++ middle).size) := by
  have first := position_append front (middle ++ rest)
  have second := position_append (front ++ middle) rest
  rw [List.append_assoc] at second
  rw [whole, first, second, Position.advance_append]
  exact Position.before_advance nonempty

/-- A position between two characters tells the text before it. -/
theorem eq_of_position_eq {text front rest front' rest' : Text} (left : text = front ++ rest)
    (right : text = front' ++ rest')
    (same : (LineIndex.ofText text).position front.size =
      (LineIndex.ofText text).position front'.size) : front = front' := by
  have split : front ++ rest = front' ++ rest' := by rw [← left, right]
  rcases List.append_eq_append_iff.mp split with ⟨middle, rfl, rfl⟩ | ⟨middle, rfl, rfl⟩
  · cases middle with
    | nil => simp
    | cons c middle =>
        have before := position_before left (by simp)
        rw [same] at before
        exact absurd before (Position.before_irrefl _)
  · cases middle with
    | nil => simp
    | cons c middle =>
        have before := position_before right (by simp)
        rw [← same] at before
        exact absurd before (Position.before_irrefl _)

end LineIndex

end TemplateSelectors
