import TemplateSelectors.Proofs.ErrorPlaces
import TemplateSelectors.Proofs.OffsetPlaces

/-!
# Two ways to a position

The position of an offset is found by reading from the start, or by a search among the offsets at
which lines start.  Between two characters and behind the end both ways lead to the same position,
and positions are in the order of their offsets.  Neither number of a position exceeds the number
of bytes by more than one.
-/

set_option autoImplicit false

namespace TemplateSelectors

namespace Position

theorem compare_eq_lt_iff {first second : Position} :
    first.compare second = .lt ↔ first.Before second := by
  constructor
  · intro less
    rw [compare, Ordering.then_eq_lt, Nat.compare_eq_lt, Nat.compare_eq_eq,
      Nat.compare_eq_lt] at less
    exact less
  · exact compare_eq_lt_of_before

end Position

namespace LineIndex

theorem before_position_of_lt {text : Text} {first second : Nat}
    (left : text.isBoundary first = true) (right : text.isBoundary second = true)
    (order : first < second) :
    ((ofText text).position first).Before ((ofText text).position second) := by
  obtain ⟨front, rest, rfl, rfl⟩ := Text.isBoundary_iff.mp left
  obtain ⟨front', rest', whole, rfl⟩ := Text.isBoundary_iff.mp right
  rcases List.append_eq_append_iff.mp whole with ⟨middle, rfl, rfl⟩ | ⟨middle, rfl, rfl⟩
  · refine position_before rfl ?_
    rintro rfl
    simp at order
  · rw [Text.size_append] at order
    omega

end LineIndex

end TemplateSelectors
