import TemplateSelectors.Diff
import TemplateSelectors.Proofs.CheckedCuts

/-!
# The lines of a hunk

A hunk takes the place of some lines of the old text.  Before it and behind it both texts have the
same lines, so with the lines that it adds, and the few unchanged ones that it shows around them,
the old lines become the new ones.  Its four numbers say which lines these are.
-/

set_option autoImplicit false

namespace TemplateSelectors

/-! ## Common members -/

section Common

variable {α : Type} [DecidableEq α]

theorem commonLength_eq_zip (left right : List α) :
    commonLength left right = ((left.zip right).takeWhile fun (a, b) => a = b).length := by
  induction left generalizing right with
  | nil => rfl
  | cons a left inductionHypothesis =>
      cases right with
      | nil => rfl
      | cons b right =>
          by_cases same : a = b
          · simp [commonLength, same, inductionHypothesis]
          · simp [commonLength, same]

theorem commonLength_le (left right : List α) :
    commonLength left right ≤ min left.length right.length := by
  rw [commonLength_eq_zip, ← List.length_zip]
  exact (List.takeWhile_sublist _).length_le

theorem take_commonLength (left right : List α) :
    left.take (commonLength left right) = right.take (commonLength left right) := by
  induction left generalizing right with
  | nil => cases right <;> rfl
  | cons a left inductionHypothesis =>
      cases right with
      | nil => rfl
      | cons b right =>
          by_cases same : a = b
          · simp only [commonLength, same, if_true, List.take_succ_cons]
            rw [inductionHypothesis]
          · simp [commonLength, same]

theorem length_takeWhile_take {β : Type} (p : β → Bool) (most : Nat) (members : List β) :
    ((members.take most).takeWhile p).length = min (members.takeWhile p).length most := by
  induction members generalizing most with
  | nil => simp
  | cons b members inductionHypothesis =>
      cases most with
      | zero => simp
      | succ most =>
          by_cases holds : p b = true
          · simp only [List.take_succ_cons, List.takeWhile_cons, holds, if_true, List.length_cons,
              inductionHypothesis]
            omega
          · simp [holds]

/-- Lists that agree in their last `back` members. -/
theorem drop_eq_of_reverse {left right : List α} {back : Nat}
    (common : back ≤ commonLength left.reverse right.reverse) :
    left.drop (left.length - back) = right.drop (right.length - back) := by
  have same := congrArg (List.take back) (take_commonLength left.reverse right.reverse)
  rw [List.take_take, List.take_take, Nat.min_eq_left common, List.take_reverse,
    List.take_reverse] at same
  exact List.reverse_inj.mp same

theorem take_append_middle {β : Type} (members : List β) {start stop : Nat} (order : start ≤ stop) :
    members.take start ++ (members.take stop).drop start ++ members.drop stop = members := by
  have front : members.take start = (members.take stop).take start := by
    rw [List.take_take, Nat.min_eq_left order]
  rw [front, List.take_append_drop, List.take_append_drop]

end Common

/-! ## Lines without line feeds -/

namespace Text

theorem not_mem_dropReturn {line : Text} (clean : '\n' ∉ line) : '\n' ∉ dropReturn line := by
  unfold dropReturn
  split
  · intro member
    exact clean (List.dropLast_subset line member)
  · exact clean

theorem not_mem_linesFrom {current text : Text} (clean : '\n' ∉ current) :
    ∀ line ∈ linesFrom current text, '\n' ∉ line := by
  induction text generalizing current with
  | nil =>
      intro line member
      by_cases empty : current.isEmpty = true
      · simp [linesFrom, empty] at member
      · simp only [linesFrom, empty, Bool.false_eq_true, if_false, List.mem_singleton] at member
        subst member
        simpa using clean
  | cons c text inductionHypothesis =>
      intro line member
      by_cases feed : c = '\n'
      · rw [linesFrom, if_pos feed, List.mem_cons] at member
        rcases member with rfl | later
        · exact not_mem_dropReturn (by simpa using clean)
        · exact inductionHypothesis (List.not_mem_nil) line later
      · rw [linesFrom, if_neg feed] at member
        refine inductionHypothesis ?_ line member
        simp [clean, Ne.symm feed]

theorem not_mem_lines (text : Text) : ∀ line ∈ text.lines, '\n' ∉ line :=
  not_mem_linesFrom List.not_mem_nil

end Text

namespace Hunk

theorem not_mem_number (n : Nat) : '\n' ∉ number n := by
  intro member
  have digit := Nat.isDigit_of_mem_toDigits (by decide) (by decide) member
  revert digit
  decide

/-! ## The hunk in both texts -/

def oldLines (hunk : Hunk) : List Text :=
  hunk.before ++ hunk.removed ++ hunk.after

def newLines (hunk : Hunk) : List Text :=
  hunk.before ++ hunk.added ++ hunk.after

theorem length_oldLines (hunk : Hunk) : hunk.oldLines.length = hunk.oldLength := by
  simp only [oldLines, oldLength, List.length_append]

theorem length_newLines (hunk : Hunk) : hunk.newLines.length = hunk.newLength := by
  simp only [newLines, newLength, List.length_append]

/-- Between the same lines, the hunk holds what each text has of its own. -/
theorem exists_around (old new : List Text) :
    ∃ head tail, head.length = (ofLines old new).skipped ∧
      old = head ++ ((ofLines old new).oldLines ++ tail) ∧
      new = head ++ ((ofLines old new).newLines ++ tail) := by
  have bound := commonLength_le old new
  have same := take_commonLength old new
  generalize found : ofLines old new = hunk
  simp only [ofLines] at found
  generalize commonLength old new = front at bound same found
  generalize behind : min (commonLength old.reverse new.reverse)
    (min old.length new.length - front) = back at found
  have tail : old.drop (old.length - back) = new.drop (new.length - back) :=
    drop_eq_of_reverse (by omega)
  have oldWhole := take_append_middle old (show front ≤ old.length - back by omega)
  have newWhole := take_append_middle new (show front ≤ new.length - back by omega)
  subst found
  have shown := List.take_append_drop (front - contextSize) (old.take front)
  have behind := List.take_append_drop contextSize (old.drop (old.length - back))
  refine ⟨(old.take front).take (front - contextSize),
    (old.drop (old.length - back)).drop contextSize, ?_, ?_, ?_⟩
  · simp only [List.length_take]
    omega
  · rw [← shown, ← behind] at oldWhole
    simpa only [oldLines, List.append_assoc] using oldWhole.symm
  · rw [← same, ← tail, ← shown, ← behind] at newWhole
    simpa only [newLines, List.append_assoc] using newWhole.symm

theorem length_before_le (old new : List Text) : (ofLines old new).before.length ≤ contextSize := by
  simp only [ofLines, List.length_drop, List.length_take]
  omega

theorem length_after_le (old new : List Text) : (ofLines old new).after.length ≤ contextSize := by
  simp only [ofLines, List.length_take]
  omega

/-! ## The hunk as text -/

def placesLine (oldFirst oldCount newFirst newCount : Nat) : Text :=
  ['@', '@', ' ', '-'] ++ number oldFirst ++ [','] ++ number oldCount ++ [' ', '+'] ++
    number newFirst ++ [','] ++ number newCount ++ [' ', '@', '@']

def markedLines (before removed added after : List Text) : List Text :=
  before.map (' ' :: ·) ++ removed.map ('-' :: ·) ++ added.map ('+' :: ·) ++ after.map (' ' :: ·)

theorem render_eq (hunk : Hunk) :
    hunk.render =
      placesLine (hunk.skipped + 1) hunk.oldLength (hunk.skipped + 1) hunk.newLength ++ '\n' ::
        (markedLines hunk.before hunk.removed hunk.added hunk.after).flatMap (· ++ ['\n']) := by
  have marks (mark : Char) (lines : List Text) :
      (lines.map (mark :: ·)).flatMap (· ++ ['\n']) = lines.flatMap (line mark) :=
    List.flatMap_map ..
  simp only [render, header, placesLine, markedLines, List.flatMap_append, marks,
    List.append_assoc, List.cons_append, List.nil_append]

theorem splitOn_flatMap {lines : List Text} (clean : ∀ line ∈ lines, '\n' ∉ line) :
    (lines.flatMap (· ++ ['\n'])).splitOn '\n' = lines ++ [[]] := by
  induction lines with
  | nil => rfl
  | cons line lines inductionHypothesis =>
      rw [List.flatMap_cons, List.append_assoc, List.singleton_append,
        List.splitOn_append_cons_self_of_not_mem (clean line List.mem_cons_self),
        inductionHypothesis fun other member => clean other (List.mem_cons_of_mem _ member),
        List.cons_append]

theorem not_mem_placesLine (oldFirst oldCount newFirst newCount : Nat) :
    '\n' ∉ placesLine oldFirst oldCount newFirst newCount := by
  simp [placesLine, not_mem_number]

/-- Read line by line, a hunk gives its numbers and its lines back. -/
theorem splitOn_render {hunk : Hunk} (oldClean : ∀ line ∈ hunk.oldLines, '\n' ∉ line)
    (newClean : ∀ line ∈ hunk.newLines, '\n' ∉ line) :
    hunk.render.splitOn '\n' =
      placesLine (hunk.skipped + 1) hunk.oldLength (hunk.skipped + 1) hunk.newLength ::
        (markedLines hunk.before hunk.removed hunk.added hunk.after ++ [[]]) := by
  have clean : ∀ line ∈ markedLines hunk.before hunk.removed hunk.added hunk.after,
      '\n' ∉ line := by
    simp only [oldLines, newLines, List.forall_mem_append] at oldClean newClean
    simp only [markedLines, List.forall_mem_append, List.forall_mem_map, List.mem_cons, not_or]
    obtain ⟨⟨before, removed⟩, after⟩ := oldClean
    obtain ⟨⟨_, added⟩, _⟩ := newClean
    exact ⟨⟨⟨fun line member => ⟨by decide, before line member⟩,
      fun line member => ⟨by decide, removed line member⟩⟩,
      fun line member => ⟨by decide, added line member⟩⟩,
      fun line member => ⟨by decide, after line member⟩⟩
  rw [render_eq, List.splitOn_append_cons_self_of_not_mem (not_mem_placesLine _ _ _ _),
    splitOn_flatMap clean]

end Hunk

def fileLines (path : Text) : Text :=
  ['-', '-', '-', ' ', 'a', '/'] ++ path ++ ['\n', '+', '+', '+', ' ', 'b', '/'] ++ path ++ ['\n']

theorem unifiedDiff_of_ne (path : Text) {old new : Text} (different : old ≠ new) :
    unifiedDiff path old new = fileLines path ++ (Hunk.ofLines old.lines new.lines).render := by
  rw [unifiedDiff, if_neg different, fileLines]

/-! ## Line by line number -/

/-- The lines that two texts have in common, counted in pairs. -/
def agreeing (pairs : List (Text × Text)) : Nat :=
  (pairs.takeWhile fun (a, b) => a = b).length

/-- The difference of two texts, put together by line numbers.  No result if a number falls below
zero or a cut is out of range. -/
def diffByNumbers? (path old new : Text) : Option Text := do
  if old = new then
    return []
  let front := agreeing (old.lines.zip new.lines)
  let most ← minus? (min old.lines.length new.lines.length) front
  let back := agreeing ((old.lines.reverse.zip new.lines.reverse).take most)
  let start := front - Hunk.contextSize
  let oldEnd ← minus? old.lines.length back
  let newEnd ← minus? new.lines.length back
  let oldStop := min (oldEnd + Hunk.contextSize) old.lines.length
  let newStop := min (newEnd + Hunk.contextSize) new.lines.length
  let oldCount ← minus? oldStop start
  let newCount ← minus? newStop start
  let before ← between? start front old.lines
  let removed ← between? front oldEnd old.lines
  let added ← between? front newEnd new.lines
  let after ← between? oldEnd oldStop old.lines
  return fileLines path ++ Hunk.placesLine (start + 1) oldCount (start + 1) newCount ++ '\n' ::
    (Hunk.markedLines before removed added after).flatMap (· ++ ['\n'])

/-- The unchanged lines behind a change, cut by their numbers. -/
theorem take_drop_context {β : Type} (members : List β) (last : Nat) :
    (members.take (min (members.length - last + Hunk.contextSize) members.length)).drop
      (members.length - last) = (members.drop (members.length - last)).take Hunk.contextSize := by
  rw [List.drop_take]
  apply List.take_eq_take_iff.mpr
  rw [List.length_drop]
  omega

/-- The lines of a hunk in one of the texts, by their numbers and one by one.  The unchanged ones
are taken from the old text. -/
theorem count_shown {olds members : List Text} {first last : Nat}
    (inOld : first + last ≤ olds.length) (inside : first + last ≤ members.length) :
    min (members.length - last + Hunk.contextSize) members.length - (first - Hunk.contextSize) =
      ((olds.take first).drop (first - Hunk.contextSize)).length +
        ((members.take (members.length - last)).drop first).length +
        ((olds.drop (olds.length - last)).take Hunk.contextSize).length := by
  simp only [List.length_drop, List.length_take]
  omega

/-- No number falls below zero and no cut is out of range. -/
theorem diffByNumbers?_eq (path old new : Text) :
    diffByNumbers? path old new = some (unifiedDiff path old new) := by
  by_cases same : old = new
  · rw [diffByNumbers?, unifiedDiff, if_pos same, if_pos same]
    rfl
  rw [unifiedDiff_of_ne path same, Hunk.render_eq, diffByNumbers?, if_neg same]
  generalize old.lines = olds
  generalize new.lines = news
  have bound := commonLength_le olds news
  have front : agreeing (olds.zip news) = commonLength olds news :=
    (commonLength_eq_zip olds news).symm
  have back (most : Nat) : agreeing ((olds.reverse.zip news.reverse).take most) =
      min (commonLength olds.reverse news.reverse) most := by
    rw [agreeing, length_takeWhile_take, commonLength_eq_zip]
  simp only [front, back, minus?_of_le bound, Option.bind_eq_bind, Option.bind_some, Hunk.ofLines,
    Hunk.oldLength, Hunk.newLength]
  generalize commonLength olds news = first at bound ⊢
  have most : min (commonLength olds.reverse news.reverse) (min olds.length news.length - first) ≤
      min olds.length news.length - first := Nat.min_le_right _ _
  generalize min (commonLength olds.reverse news.reverse)
    (min olds.length news.length - first) = last at most ⊢
  have inOld : first + last ≤ olds.length := by omega
  have inNew : first + last ≤ news.length := by omega
  clear bound most
  rw [minus?_of_le (by omega), Option.bind_some, minus?_of_le (by omega), Option.bind_some,
    minus?_of_le (by omega), Option.bind_some, minus?_of_le (by omega), Option.bind_some,
    between?_of_le (by omega) (by omega), Option.bind_some,
    between?_of_le (by omega) (by omega), Option.bind_some,
    between?_of_le (by omega) (by omega), Option.bind_some,
    between?_of_le (by omega) (by omega), Option.bind_some, take_drop_context,
    count_shown inOld inOld, count_shown inOld inNew]
  simp only [List.append_assoc]
  rfl

/-- Between lines that both texts have, a hunk replaces lines of the old text by lines of the new
one.  Its numbers tell which, and no more than three unchanged lines stand on either side. -/
theorem unifiedDiff_replaces_lines (path : Text) {old new : Text} (different : old ≠ new) :
    diffByNumbers? path old new = some (unifiedDiff path old new) ∧
      ∃ (hunk : Text) (a p q : Nat) (before removed added after : List Text),
        unifiedDiff path old new = fileLines path ++ hunk ∧
        hunk.splitOn '\n' = Hunk.placesLine (a + 1) p (a + 1) q ::
          (Hunk.markedLines before removed added after ++ [[]]) ∧
        a + p ≤ old.lines.length ∧ before ++ removed ++ after = (old.lines.drop a).take p ∧
        a + q ≤ new.lines.length ∧ before ++ added ++ after = (new.lines.drop a).take q ∧
        old.lines.take a = new.lines.take a ∧ old.lines.drop (a + p) = new.lines.drop (a + q) ∧
        old.lines.take a ++ (before ++ added ++ after) ++ old.lines.drop (a + p) = new.lines ∧
        before.length ≤ 3 ∧ after.length ≤ 3 := by
  obtain ⟨head, tail, skipped, oldWhole, newWhole⟩ := Hunk.exists_around old.lines new.lines
  have beforeFew := Hunk.length_before_le old.lines new.lines
  have afterFew := Hunk.length_after_le old.lines new.lines
  have text := unifiedDiff_of_ne path different
  generalize Hunk.ofLines old.lines new.lines = hunk at *
  have oldClean : ∀ line ∈ hunk.oldLines, '\n' ∉ line := by
    intro line member
    apply old.not_mem_lines
    rw [oldWhole]
    simp [member]
  have newClean : ∀ line ∈ hunk.newLines, '\n' ∉ line := by
    intro line member
    apply new.not_mem_lines
    rw [newWhole]
    simp [member]
  refine ⟨diffByNumbers?_eq path old new, hunk.render, hunk.skipped, hunk.oldLength,
    hunk.newLength, hunk.before, hunk.removed, hunk.added, hunk.after, text,
    Hunk.splitOn_render oldClean newClean, ?_, ?_, ?_, ?_, ?_, ?_, ?_, beforeFew, afterFew⟩
  · rw [oldWhole]
    simp only [List.length_append, Hunk.length_oldLines]
    omega
  · rw [oldWhole, ← skipped, ← Hunk.length_oldLines]
    simp only [List.drop_left, List.take_left]
    rfl
  · rw [newWhole]
    simp only [List.length_append, Hunk.length_newLines]
    omega
  · rw [newWhole, ← skipped, ← Hunk.length_newLines]
    simp only [List.drop_left, List.take_left]
    rfl
  · rw [oldWhole, newWhole, ← skipped]
    simp
  · rw [oldWhole, newWhole, ← skipped, ← Hunk.length_oldLines, ← Hunk.length_newLines]
    simp
  · rw [oldWhole, newWhole, ← skipped, ← Hunk.length_oldLines]
    simp [Hunk.newLines]

/-- The same line four times, then three times: the common front and the common back meet. -/
def fourTimes : Text :=
  "a\nb\nc\nc\nc\nc\nd\r\n".toList

def threeTimes : Text :=
  "a\nb\nc\nc\nc\nd".toList

theorem unifiedDiff_replaces_lines_fourTimes :
    fourTimes ≠ threeTimes ∧
      unifiedDiff ['t'] fourTimes threeTimes =
        "--- a/t\n+++ b/t\n@@ -3,5 +3,4 @@\n c\n c\n c\n-c\n d\n".toList ∧
      ∃ (a p : Nat) (before added after : List Text),
        fourTimes.lines.take a ++ (before ++ added ++ after) ++ fourTimes.lines.drop (a + p) =
          threeTimes.lines ∧ before.length ≤ 3 ∧ after.length ≤ 3 := by
  have different : fourTimes ≠ threeTimes := by decide
  obtain ⟨_, _, a, p, _, before, _, added, after, _, _, _, _, _, _, _, _, replaced, few⟩ :=
    unifiedDiff_replaces_lines ['t'] different
  exact ⟨different, by cbv, a, p, before, added, after, replaced, few⟩

end TemplateSelectors
