import Mathlib.Data.List.TakeWhile
import TemplateSelectors.Template.Expression
import TemplateSelectors.Proofs.Derivation

/-!
# Heads of paths

The head of a path is cut off at the first divider, wherever that stands.  A segment in brackets
may hold dividers, and the parent segment is made of them: there the head is only the part of the
first segment before its first divider.  In every other path it is the first segment.
-/

set_option autoImplicit false

namespace TemplateSelectors

namespace TagBody

namespace Tree

/-- No character of the segment divides segments. -/
def Segment.Undivided : Segment → Prop
  | .parent => False
  | .bracketed inner _ => ∀ c ∈ inner, c ≠ '.' ∧ c ≠ '/'
  | .name _ _ => True

def isUndivided (c : Char) : Bool :=
  !(c == '.' || c == '/')

theorem isUndivided_iff {c : Char} : isUndivided c = true ↔ c ≠ '.' ∧ c ≠ '/' := by
  simp [isUndivided]

theorem Segment.undivided_iff (segment : Segment) :
    segment.Undivided ↔ ∀ c ∈ segment.yield, isUndivided c = true := by
  cases segment with
  | parent => simp [Undivided, yield, isUndivided]
  | bracketed inner closed =>
      simp only [Undivided, yield, isUndivided_iff, List.cons_append, List.mem_cons,
        List.mem_append, List.not_mem_nil, or_false]
      constructor
      · rintro free c (rfl | inside | rfl)
        · decide
        · exact free c inside
        · decide
      · intro free c inside
        exact free c (.inr (.inl inside))
  | name text identifier =>
      refine ⟨fun _ c member => isUndivided_iff.mpr ?_, fun _ => trivial⟩
      have idChar := identifier.1 c member
      exact ⟨ne_of_isIdChar idChar rfl, ne_of_isIdChar idChar rfl⟩

theorem stopsAt_divider (more : List (Divider × Segment)) :
    StopsAt isUndivided (yieldSegments more) := by
  cases more with
  | nil => exact stopsAt_nil _
  | cons first more =>
      obtain ⟨divider, segment⟩ := first
      cases divider with
      | dot => exact stopsAt_cons rfl
      | slash => exact stopsAt_cons rfl

/-- Only the mark of an argument comes off, since no segment starts with one. -/
theorem Path.dropWhile_mark (path : Path) :
    path.yield.dropWhile (· == '@') = path.first.yield ++ yieldSegments path.more := by
  obtain ⟨data, first, more⟩ := path
  have unmarked : StopsAt (· == '@') (first.yield ++ yieldSegments more) := by
    obtain ⟨c, rest, shape, start⟩ := first.rule.starts
    rw [shape]
    refine stopsAt_cons ?_
    rcases start with idChar | rfl | rfl
    · exact beq_false_of_ne (ne_of_isIdChar idChar rfl)
    · rfl
    · rfl
  refine dropWhile_append_of_stopsAt ?_ unmarked
  cases data with
  | false => simp
  | true => simp

theorem takeWhile_first (first : Segment) (more : List (Divider × Segment)) :
    (first.yield ++ yieldSegments more).takeWhile isUndivided =
      first.yield.takeWhile isUndivided := by
  by_cases undivided : ∀ c ∈ first.yield, isUndivided c = true
  · rw [takeWhile_append_of_stopsAt undivided (stopsAt_divider more),
      List.takeWhile_eq_self_iff.mpr undivided]
  · -- the head ends inside the segment, before anything that follows
    have shorter : (first.yield.takeWhile isUndivided).length ≠ first.yield.length := by
      intro long
      have whole := (List.takeWhile_prefix isUndivided).eq_of_length long
      exact undivided (List.takeWhile_eq_self_iff.mp whole)
    rw [List.takeWhile_append, if_neg shorter]

theorem Path.head_yield (path : Path) (loc : SourceSpan) :
    PathExpression.head ⟨path.yield, loc⟩ = path.first.yield.takeWhile isUndivided := by
  have behindMark := path.dropWhile_mark
  rw [PathExpression.head, behindMark]
  exact takeWhile_first path.first path.more

theorem exists_segments_of_segment? {text start left : Text}
    (found : segment? text = some (start, left)) :
    ∃ (first : Segment) (more : List (Divider × Segment)), first.yield = start ∧
      yieldSegments more = (moreSegments left).1 := by
  obtain ⟨first, yield⟩ := exists_segment (segment_of_segment? found)
  obtain ⟨more, further⟩ := exists_segments (segments_of_moreSegments left)
  exact ⟨first, more, yield, further⟩

/-- The derivation starts with the segment that was read behind the mark. -/
theorem exists_path_of_path? {text piece rest : Text} (found : path? text = some (piece, rest)) :
    ∃ (path : Path) (behind left : Text), path.yield = piece ∧
      text = (if path.data then ['@'] else []) ++ behind ∧
      segment? behind = some (path.first.yield, left) := by
  unfold path? at found
  split at found
  · next behind =>
      obtain ⟨⟨start, left⟩, segment, same⟩ := Option.map_eq_some_iff.mp found
      obtain ⟨first, more, rfl, further⟩ := exists_segments_of_segment? segment
      cases same
      refine ⟨⟨true, first, more⟩, behind, left, ?_, rfl, segment⟩
      simp [Path.yield, further]
  · obtain ⟨⟨start, left⟩, segment, same⟩ := Option.map_eq_some_iff.mp found
    obtain ⟨first, more, rfl, further⟩ := exists_segments_of_segment? segment
    cases same
    refine ⟨⟨false, first, more⟩, text, left, ?_, rfl, segment⟩
    simp [Path.yield, further]

end Tree

end TagBody

namespace PathExpression

open TagBody.Tree (isUndivided)

/-- A path that is read has one derivation, and its first segment is what was read behind the mark.
The head is the part of this segment before its first divider, so it is the whole segment exactly
if that is an identifier or a text in brackets without dividers. -/
theorem head_of_accepted {text piece rest : Text} (found : TagBody.path? text = some (piece, rest))
    (loc : SourceSpan) :
    ∃ path : TagBody.Tree.Path,
      path.yield = piece ∧ (∀ other : TagBody.Tree.Path, other.yield = piece → other = path) ∧
      (∃ behind left, text = (if path.data then ['@'] else []) ++ behind ∧
        TagBody.segment? behind = some (path.first.yield, left)) ∧
      head ⟨piece, loc⟩ = path.first.yield.takeWhile isUndivided ∧
      (head ⟨piece, loc⟩ = path.first.yield ↔ path.first.Undivided) := by
  obtain ⟨path, behind, left, rfl, split, segment⟩ := TagBody.Tree.exists_path_of_path? found
  have shape := path.head_yield loc
  refine ⟨path, rfl, fun other same => TagBody.Tree.Path.eq_of_yield same,
    ⟨behind, left, split, segment⟩, shape, ?_⟩
  rw [shape, path.first.undivided_iff]
  exact List.takeWhile_eq_self_iff

example : head (.ofText "[a.b].c".toList) = "[a".toList := by decide

def argumentField : TagBody.Tree.Path where
  data := true
  first := .name "model".toList ⟨List.all_eq_true.mp rfl, by decide⟩
  more := [(.dot, .name "name".toList ⟨List.all_eq_true.mp rfl, by decide⟩)]

theorem head_of_accepted_argumentField :
    TagBody.path? "@model.name x".toList = some (argumentField.yield, " x".toList) ∧
      head ⟨argumentField.yield, .nowhere⟩ = "model".toList := by
  have found : TagBody.path? "@model.name x".toList = some (argumentField.yield, " x".toList) :=
    TagBody.path?_append argumentField.rule (TagBody.stopsAt_cons rfl)
  obtain ⟨path, _, only, _, _, whole⟩ := head_of_accepted found .nowhere
  have same : argumentField = path := only argumentField rfl
  subst same
  exact ⟨found, whole.mpr trivial⟩

def parentName : TagBody.Tree.Path where
  data := false
  first := .parent
  more := [(.slash, .name ['x'] ⟨List.all_eq_true.mp rfl, by decide⟩)]

/-- The parent segment is made of dividers, and nothing stands before the first. -/
theorem head_parentName :
    head ⟨parentName.yield, .nowhere⟩ = [] ∧
      ¬∀ (text piece rest : Text) (path : TagBody.Tree.Path) (loc : SourceSpan),
        TagBody.path? text = some (piece, rest) → path.yield = piece →
        head ⟨piece, loc⟩ = path.first.yield := by
  refine ⟨rfl, ?_⟩
  intro follows
  have found : TagBody.path? "../x".toList = some (parentName.yield, []) :=
    TagBody.path?_append parentName.rule (TagBody.stopsAt_nil _)
  have whole := follows _ _ _ parentName .nowhere found rfl
  cases whole

end PathExpression

end TemplateSelectors
