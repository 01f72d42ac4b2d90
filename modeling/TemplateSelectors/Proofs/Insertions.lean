import TemplateSelectors.Proofs.ExactPlaces
import TemplateSelectors.Proofs.TokenPatches

/-!
# Patches only insert

A patch puts `=true` behind a free occurrence of its selector and leaves the rest alone.  Unless
the selector itself ends so, the occurrence ends neither inside nor right beside what an earlier
patch has put in, and the text is cut between two of its own characters once more.  A patched text
is therefore the text in pieces, with `=true` wherever two of them meet.
-/

set_option autoImplicit false

namespace TemplateSelectors

namespace Text

/-- The offsets at which pieces of a text meet, if the first piece begins at `start`. -/
def seams (start : Nat) : List Text → List Nat
  | piece :: next :: pieces => (start + piece.size) :: seams (start + piece.size) (next :: pieces)
  | _ => []

section

variable {separator : Text}

theorem join_singleton (piece : Text) : join separator [piece] = piece := by
  simp [join]

theorem join_cons (piece : Text) {pieces : List Text} (more : pieces ≠ []) :
    join separator (piece :: pieces) = piece ++ (separator ++ join separator pieces) := by
  obtain ⟨next, pieces, rfl⟩ := List.exists_cons_of_ne_nil more
  simp [join]

theorem isPrefix_join (piece : Text) (pieces : List Text) :
    piece <+: join separator (piece :: pieces) := by
  by_cases last : pieces = []
  · subst last
    rw [join_singleton]
  · rw [join_cons piece last]
    exact List.prefix_append _ _

theorem join_append {front back : List Text} (left : front ≠ []) (right : back ≠ []) :
    join separator (front ++ back) =
      join separator front ++ (separator ++ join separator back) := by
  induction front with
  | nil => exact absurd rfl left
  | cons piece front inductionHypothesis =>
      by_cases last : front = []
      · subst last
        rw [List.singleton_append, join_cons piece right, join_singleton]
      · have more : front ++ back ≠ [] := by simp [last]
        rw [List.cons_append, join_cons piece more, join_cons piece last, inductionHypothesis last]
        simp only [List.append_assoc]

end

theorem length_seams (start : Nat) (pieces : List Text) :
    (seams start pieces).length = pieces.length - 1 := by
  induction pieces generalizing start with
  | nil => rfl
  | cons piece pieces inductionHypothesis =>
      cases pieces with
      | nil => rfl
      | cons next pieces =>
          rw [seams, List.length_cons, inductionHypothesis]
          simp only [List.length_cons]
          omega

theorem le_of_mem_seams {start offset : Nat} {pieces : List Text}
    (member : offset ∈ seams start pieces) : start ≤ offset := by
  induction pieces generalizing start with
  | nil => cases member
  | cons piece pieces inductionHypothesis =>
      cases pieces with
      | nil => cases member
      | cons next pieces =>
          rw [seams, List.mem_cons] at member
          rcases member with rfl | later
          · omega
          · have bound := inductionHypothesis later
            omega

theorem isBoundary_of_mem_seams {offset : Nat} {front : Text} {pieces : List Text}
    (member : offset ∈ seams front.size pieces) :
    isBoundary offset (front ++ pieces.flatten) = true := by
  induction pieces generalizing front with
  | nil => cases member
  | cons piece pieces inductionHypothesis =>
      cases pieces with
      | nil => cases member
      | cons next pieces =>
          rw [seams, ← size_append, List.mem_cons] at member
          rw [List.flatten_cons, ← List.append_assoc]
          rcases member with rfl | later
          · exact isBoundary_append _ _
          · exact inductionHypothesis later

end Text

namespace Patch

/-! ## One insertion -/

theorem isTokenChar_of_mem_trueSuffix {c : Char} (member : c ∈ trueSuffix) :
    isTokenChar c = true := by
  have tokens : trueSuffix.all isTokenChar = true := by decide +kernel
  exact List.all_eq_true.mp tokens c member

theorem LooseStart.not_isPrefix {text : Text} (loose : LooseStart text) : ¬trueSuffix <+: text := by
  rintro ⟨rest, rfl⟩
  have outside := loose '=' rfl
  cases outside

/-- A text that does not continue a token starts behind `=true`, not inside it. -/
theorem LooseStart.eq_nil_of_append {inside rest : Text} (loose : LooseStart (inside ++ rest))
    (part : ∀ c ∈ inside, c ∈ trueSuffix) : inside = [] := by
  cases inside with
  | nil => rfl
  | cons c inside =>
      have outside := loose c rfl
      rw [isTokenChar_of_mem_trueSuffix (part c List.mem_cons_self)] at outside
      cases outside

/-- A free occurrence of a selector that does not end in `=true` does not end where `=true` does. -/
theorem not_isSuffix_of_free {before selector : Text} (unmarked : ¬trueSuffix <:+ selector)
    (nonempty : selector ≠ []) (loose : LooseEnd before) : ¬trueSuffix <:+ before ++ selector := by
  rintro ⟨front, whole⟩
  rcases List.append_eq_append_iff.mp whole with ⟨middle, rfl, suffix⟩ | ⟨middle, _, rfl⟩
  · rcases List.eq_nil_or_concat middle with rfl | ⟨start, c, rfl⟩
    · exact unmarked (by rw [suffix]; exact List.suffix_refl _)
    · -- the selector is the end of `=true`, and what stands before it continues a token
      have inside : c ∈ trueSuffix := by simp [suffix]
      have outside := loose c (by simp)
      rw [isTokenChar_of_mem_trueSuffix inside] at outside
      cases outside
  · exact unmarked (List.suffix_append _ _)

theorem patchOne_cases {selector : Text} (unmarked : ¬trueSuffix <:+ selector) (text : Text) :
    patchOne text selector = text ∨
      ∃ before behind, text = before ++ behind ∧
        patchOne text selector = before ++ (trueSuffix ++ behind) ∧
        ¬trueSuffix <:+ before ∧ LooseStart behind := by
  unfold patchOne
  cases found : splitFree selector text with
  | none => exact .inl rfl
  | some halves =>
      obtain ⟨front, behind⟩ := halves
      obtain ⟨nonempty, whole, left, right⟩ := loose_of_splitFree found
      refine .inr ⟨front.reverse ++ selector, behind, ?_, ?_,
        not_isSuffix_of_free unmarked nonempty left, right⟩
      · rw [whole, List.append_assoc]
      · simp only [rejoin_eq, List.append_assoc]

/-! ## Insertions among pieces -/

/-- Pieces between which `=true` can stand: where two of them meet, the first does not end in
`=true`, and what is read behind them does not continue a token. -/
def Clear : List Text → Prop
  | piece :: next :: pieces =>
      ¬trueSuffix <:+ piece ∧ LooseStart (Text.join trueSuffix (next :: pieces)) ∧
        Clear (next :: pieces)
  | _ => True

theorem ne_nil_of_looseStart_join {piece : Text} {pieces : List Text} (more : pieces ≠ [])
    (loose : LooseStart (Text.join trueSuffix (piece :: pieces))) : piece ≠ [] := by
  intro empty
  -- what is read would start with `=true`
  rw [empty, Text.join_cons [] more, List.nil_append] at loose
  exact loose.not_isPrefix (List.prefix_append _ _)

theorem LooseStart.of_isPrefix {piece text other : Text} (loose : LooseStart text)
    (filled : piece ≠ []) (start : piece <+: text) (otherStart : piece <+: other) :
    LooseStart other := by
  obtain ⟨first, piece, rfl⟩ := List.exists_cons_of_ne_nil filled
  obtain ⟨rest, rfl⟩ := start
  obtain ⟨otherRest, rfl⟩ := otherStart
  exact loose

theorem pairwise_seams {pieces : List Text} (clear : Clear pieces) (start : Nat) :
    (Text.seams start pieces).Pairwise (· < ·) := by
  induction pieces generalizing start with
  | nil => exact .nil
  | cons piece pieces inductionHypothesis =>
      cases pieces with
      | nil => exact .nil
      | cons next pieces =>
          rw [Text.seams]
          refine .cons ?_ (inductionHypothesis clear.2.2 (start + piece.size))
          intro offset member
          cases pieces with
          | nil => cases member
          | cons third pieces =>
              -- a piece between two of these places is not empty
              have filled := ne_nil_of_looseStart_join (by simp) clear.2.1
              have positive := size_pos filled
              rw [Text.seams, List.mem_cons] at member
              rcases member with rfl | later
              · omega
              · have bound := Text.le_of_mem_seams later
                omega

/-- A place in a row of pieces that is neither inside nor right behind what stands between them lies
in one of the pieces. -/
theorem exists_split_of_join {pieces : List Text} {before behind : Text} (some : pieces ≠ [])
    (whole : Text.join trueSuffix pieces = before ++ behind)
    (fresh : ¬trueSuffix <:+ before) (loose : LooseStart behind) :
    ∃ front left right back, pieces = front ++ (left ++ right) :: back ∧
      before = Text.join trueSuffix (front ++ [left]) ∧
      behind = Text.join trueSuffix (right :: back) := by
  induction pieces generalizing before with
  | nil => exact absurd rfl some
  | cons piece pieces inductionHypothesis =>
      by_cases last : pieces = []
      · subst last
        rw [Text.join_singleton] at whole
        exact ⟨[], before, behind, [], by rw [whole]; rfl, (Text.join_singleton before).symm,
          (Text.join_singleton behind).symm⟩
      · rw [Text.join_cons piece last] at whole
        rcases List.append_eq_append_iff.mp whole with ⟨middle, rfl, rest⟩ | ⟨middle, rfl, rfl⟩
        · rcases List.append_eq_append_iff.mp rest with ⟨later, rfl, joined⟩ | ⟨inside, cut, rfl⟩
          · -- the place lies behind what stands after the first piece
            have stillFresh : ¬trueSuffix <:+ later := by
              intro ends
              refine fresh (ends.trans ?_)
              rw [← List.append_assoc]
              exact List.suffix_append _ _
            obtain ⟨front, left, right, back, rfl, rfl, rfl⟩ :=
              inductionHypothesis last joined stillFresh
            refine ⟨piece :: front, left, right, back, rfl, ?_, rfl⟩
            rw [List.cons_append, Text.join_cons piece (by simp)]
          · have nothing : inside = [] := by
              refine loose.eq_nil_of_append ?_
              intro c member
              rw [cut]
              exact List.mem_append_right _ member
            subst nothing
            rw [List.append_nil] at cut
            refine absurd ?_ fresh
            rw [cut]
            exact List.suffix_append _ _
        · refine ⟨[], before, middle, pieces, rfl, (Text.join_singleton before).symm, ?_⟩
          rw [Text.join_cons middle last]

/-- A piece that is cut where a patch goes leaves the pieces clear. -/
theorem Clear.cut {front back : List Text} {left right : Text}
    (clear : Clear (front ++ (left ++ right) :: back))
    (fresh : ¬trueSuffix <:+ Text.join trueSuffix (front ++ [left]))
    (loose : LooseStart (Text.join trueSuffix (right :: back))) :
    Clear (front ++ left :: right :: back) := by
  induction front with
  | nil =>
      rw [List.nil_append, Text.join_singleton] at fresh
      refine ⟨fresh, loose, ?_⟩
      cases back with
      | nil => trivial
      | cons next back =>
          obtain ⟨closed, behind, rest⟩ := clear
          refine ⟨?_, behind, rest⟩
          intro ends
          exact closed (ends.trans (List.suffix_append _ _))
  | cons piece front inductionHypothesis =>
      rw [List.cons_append, Text.join_cons piece (by simp), ← List.append_assoc] at fresh
      have freshBehind : ¬trueSuffix <:+ Text.join trueSuffix (front ++ [left]) := by
        intro ends
        exact fresh (ends.trans (List.suffix_append _ _))
      cases front with
      | nil =>
          obtain ⟨closed, behind, rest⟩ := clear
          -- an empty left half would put the place right behind what was inserted before
          have filled : left ≠ [] := by
            intro empty
            rw [empty, List.nil_append, Text.join_singleton, List.append_nil] at fresh
            exact fresh (List.suffix_append _ _)
          refine ⟨closed, ?_, inductionHypothesis rest freshBehind⟩
          have start : left <+: Text.join trueSuffix ((left ++ right) :: back) :=
            (List.prefix_append _ _).trans (Text.isPrefix_join _ _)
          exact behind.of_isPrefix filled start (Text.isPrefix_join _ _)
      | cons next front =>
          obtain ⟨closed, behind, rest⟩ := clear
          refine ⟨closed, ?_, inductionHypothesis rest freshBehind⟩
          have filled := ne_nil_of_looseStart_join (by simp) behind
          exact behind.of_isPrefix filled (Text.isPrefix_join _ _) (Text.isPrefix_join _ _)

/-! ## What stands twice -/

/-- Two occurrences of `=true` are the same or do not overlap: only its first character is `=`. -/
theorem eq_nil_or_append_of_trueSuffix {gap front back : Text}
    (whole : trueSuffix ++ front = gap ++ (trueSuffix ++ back)) :
    (gap = [] ∧ front = back) ∨
      ∃ rest, gap = trueSuffix ++ rest ∧ front = rest ++ (trueSuffix ++ back) := by
  rcases List.append_eq_append_iff.mp whole with ⟨rest, rfl, later⟩ | ⟨inside, cut, later⟩
  · exact .inr ⟨rest, rfl, later⟩
  · cases gap with
    | nil =>
        rw [List.nil_append] at cut
        subst cut
        exact .inl ⟨rfl, (List.append_cancel_left later).symm⟩
    | cons first gap =>
        cases inside with
        | nil =>
            rw [List.append_nil] at cut
            refine .inr ⟨[], by rw [cut, List.append_nil], ?_⟩
            rw [later]
            rfl
        | cons second inside =>
            -- the second occurrence would start behind the first character of the first
            have equalsSign : second = '=' := (List.cons.inj later).1.symm
            have behindFirst : second ∈ trueSuffix.tail := by
              rw [cut]
              simp
            subst equalsSign
            exact absurd behindFirst (by decide)

/-- Between clear pieces nothing doubles: where `=true` is read twice in a row, it is read so in one
of the pieces. -/
theorem exists_piece_of_doubled {pieces : List Text} {before behind : Text} (some : pieces ≠ [])
    (clear : Clear pieces)
    (whole : Text.join trueSuffix pieces = before ++ (trueSuffix ++ (trueSuffix ++ behind))) :
    ∃ front left right back,
      pieces = front ++ (left ++ (trueSuffix ++ (trueSuffix ++ right))) :: back ∧
        before = Text.join trueSuffix (front ++ [left]) ∧
        behind = Text.join trueSuffix (right :: back) := by
  induction pieces generalizing before with
  | nil => exact absurd rfl some
  | cons piece pieces inductionHypothesis =>
      cases pieces with
      | nil =>
          rw [Text.join_singleton] at whole
          exact ⟨[], before, behind, [], by rw [whole]; rfl, (Text.join_singleton before).symm,
            (Text.join_singleton behind).symm⟩
      | cons next pieces =>
          obtain ⟨closed, loose, rest⟩ := clear
          rw [Text.join_cons piece (by simp)] at whole
          rcases List.append_eq_append_iff.mp whole with ⟨gap, rfl, later⟩ | ⟨gap, rfl, later⟩
          · rcases eq_nil_or_append_of_trueSuffix later with ⟨_, meets⟩ | ⟨gap, rfl, joined⟩
            · rw [meets] at loose
              exact absurd (List.prefix_append _ _) loose.not_isPrefix
            · obtain ⟨front, left, right, back, split, rfl, rfl⟩ :=
                inductionHypothesis (by simp) rest joined
              refine ⟨piece :: front, left, right, back, by rw [split]; rfl, ?_, rfl⟩
              rw [List.cons_append, Text.join_cons piece (by simp)]
          · rcases eq_nil_or_append_of_trueSuffix later with ⟨_, meets⟩ | ⟨gap, rfl, further⟩
            · rw [← meets] at loose
              exact absurd (List.prefix_append _ _) loose.not_isPrefix
            · rcases eq_nil_or_append_of_trueSuffix further with ⟨rfl, _⟩ | ⟨gap, rfl, rfl⟩
              · rw [List.append_nil] at closed
                exact absurd (List.suffix_append _ _) closed
              · refine ⟨[], before, gap, next :: pieces, rfl, (Text.join_singleton before).symm, ?_⟩
                rw [Text.join_cons gap (by simp)]

/-! ## One patch and a run of them -/

structure Inserted (text output : Text) (pieces : List Text) : Prop where
  nonempty : pieces ≠ []
  whole : pieces.flatten = text
  joined : Text.join trueSuffix pieces = output
  clear : Clear pieces

theorem inserted_self (text : Text) : Inserted text text [text] where
  nonempty := by simp
  whole := by simp
  joined := Text.join_singleton text
  clear := trivial

theorem Inserted.patchOne {text output selector : Text} {pieces : List Text}
    (inserted : Inserted text output pieces) (unmarked : ¬trueSuffix <:+ selector) :
    ∃ finer, Inserted text (patchOne output selector) finer ∧ finer.length ≤ pieces.length + 1 := by
  rcases patchOne_cases unmarked output with same | ⟨before, behind, split, patched, fresh, loose⟩
  · rw [same]
    exact ⟨pieces, inserted, by omega⟩
  · obtain ⟨front, left, right, back, rfl, rfl, rfl⟩ :=
      exists_split_of_join inserted.nonempty (inserted.joined.trans split) fresh loose
    refine ⟨front ++ left :: right :: back, ⟨by simp, ?_, ?_, ?_⟩, ?_⟩
    · rw [← inserted.whole]
      simp
    · rw [patched, ← Text.join_append (by simp) (by simp)]
      simp
    · exact inserted.clear.cut fresh loose
    · simp only [List.length_append, List.length_cons]
      omega

theorem Inserted.patchAll {text output : Text} {selectors pieces : List Text}
    (inserted : Inserted text output pieces)
    (unmarked : ∀ selector ∈ selectors, ¬trueSuffix <:+ selector) :
    ∃ finer, Inserted text (patchAll output selectors) finer ∧
      finer.length ≤ pieces.length + selectors.length := by
  induction selectors generalizing output pieces with
  | nil => exact ⟨pieces, inserted, by simp⟩
  | cons selector selectors inductionHypothesis =>
      obtain ⟨finer, patched, grown⟩ := inserted.patchOne (unmarked selector List.mem_cons_self)
      obtain ⟨finest, all, bound⟩ := inductionHypothesis patched
        (fun other member => unmarked other (List.mem_cons_of_mem _ member))
      refine ⟨finest, all, ?_⟩
      rw [List.length_cons]
      omega

end Patch

/-- Patching puts `=true` in at places of the text that differ, at most one for each selector, and
changes nothing else.  Nothing doubles: where `=true` is read twice in a row, it was so in the
text. -/
theorem applyReplacements_only_inserts (text : Text) (replacements : List Replacement)
    (unmarked : ∀ replacement ∈ replacements, ¬trueSuffix <:+ replacement.selector) :
    ∃ pieces : List Text,
      pieces.flatten = text ∧
        applyReplacements text replacements = Text.join trueSuffix pieces ∧
        (Text.seams 0 pieces).Pairwise (· < ·) ∧
        (Text.seams 0 pieces).length ≤ replacements.length ∧
        (∀ offset ∈ Text.seams 0 pieces, Text.isBoundary offset text = true) ∧
        ∀ before behind,
          applyReplacements text replacements =
              before ++ (trueSuffix ++ (trueSuffix ++ behind)) →
            ∃ front left right back,
              pieces = front ++ (left ++ (trueSuffix ++ (trueSuffix ++ right))) :: back ∧
                before = Text.join trueSuffix (front ++ [left]) ∧
                behind = Text.join trueSuffix (right :: back) := by
  have openSelectors : ∀ selector ∈ replacements.map Replacement.selector,
      ¬trueSuffix <:+ selector := by
    intro selector member
    obtain ⟨replacement, listed, rfl⟩ := List.mem_map.mp member
    exact unmarked replacement listed
  obtain ⟨pieces, inserted, bound⟩ := (Patch.inserted_self text).patchAll openSelectors
  refine ⟨pieces, inserted.whole, inserted.joined.symm, Patch.pairwise_seams inserted.clear 0, ?_,
    ?_, ?_⟩
  · rw [List.length_map, List.length_singleton] at bound
    rw [Text.length_seams]
    omega
  · intro offset member
    rw [← inserted.whole]
    exact @Text.isBoundary_of_mem_seams offset [] pieces member
  · intro before behind doubled
    exact Patch.exists_piece_of_doubled inserted.nonempty inserted.clear
      (inserted.joined.trans doubled)

def overlappingNames : Text :=
  "a b é a x=true".toList

/-- The second selector reaches over what the first patch puts in, and `x` is set already. -/
def overlappingPatches : List Replacement :=
  ["a", "a=true b", "é a", "x"].map fun name => { selector := name.toList, loc := default }

theorem applyReplacements_only_inserts_overlapping :
    applyReplacements overlappingNames overlappingPatches =
        "a=true b=true é a=true x=true".toList ∧
      ∃ pieces : List Text,
        pieces.flatten = overlappingNames ∧
          applyReplacements overlappingNames overlappingPatches = Text.join trueSuffix pieces ∧
          (Text.seams 0 pieces).Pairwise (· < ·) ∧
          (Text.seams 0 pieces).length ≤ 4 ∧
          ∀ offset ∈ Text.seams 0 pieces, Text.isBoundary offset overlappingNames = true := by
  have opens : ∀ replacement ∈ overlappingPatches, ¬trueSuffix <:+ replacement.selector := by
    decide +kernel
  obtain ⟨pieces, whole, joined, ordered, bound, places, _⟩ :=
    applyReplacements_only_inserts overlappingNames overlappingPatches opens
  exact ⟨by decide +kernel, pieces, whole, joined, ordered, bound, places⟩

end TemplateSelectors
