import TemplateSelectors.Proofs.FreeOccurrences

/-!
# Patches among tokens

A selector that is a token occurs free in a text exactly where it is one of the tokens of that
text.  A patch takes the first of them, and what it leaves there is a token that no selector
spells.  So when a text is cut into pieces between tokens, every patch falls into one piece, and
counting tells which pieces are spared.
-/

set_option autoImplicit false

namespace TemplateSelectors

namespace Patch

/-- The tokens of a text in order, with an empty one where two other characters meet. -/
def tokens (text : Text) : List Text :=
  text.splitOnP fun c => !isTokenChar c

/-- A text that does not end inside a token. -/
def LooseEnd (text : Text) : Prop :=
  ∀ c, text.getLast? = some c → isTokenChar c = false

def LooseStart (text : Text) : Prop :=
  ∀ c, text.head? = some c → isTokenChar c = false

/-- Two texts between which no token is cut. -/
def Parted (front back : Text) : Prop :=
  LooseEnd front ∨ LooseStart back

theorem looseEnd_nil : LooseEnd [] := by
  intro c last
  cases last

theorem looseStart_nil : LooseStart [] := by
  intro c head
  cases head

theorem LooseEnd.append_cons {c : Char} {back : Text} (loose : LooseEnd back)
    (gap : isTokenChar c = false) (front : Text) : LooseEnd (front ++ c :: back) := by
  intro d last
  rw [List.getLast?_append, List.getLast?_cons] at last
  cases ends : back.getLast? with
  | none =>
      simp only [ends, Option.getD_none, Option.some_or, Option.some.injEq] at last
      exact last ▸ gap
  | some e =>
      simp only [ends, Option.getD_some, Option.some_or, Option.some.injEq] at last
      exact last ▸ loose e ends

theorem isFree_iff_loose {before behind : Text} :
    isFree before.getLast? behind.head? = true ↔ LooseEnd before ∧ LooseStart behind :=
  isFree_eq_true_iff

theorem Apart.parted {front back : Text} (apart : Apart front back) : Parted front back := by
  rcases apart with ends | starts
  · exact .inl fun c last => isTokenChar_of_isWall (ends c last)
  · exact .inr fun c head => isTokenChar_of_isWall (starts c head)

theorem Token.not_looseEnd {needle : Text} (token : Token needle) (before : Text) :
    ¬LooseEnd (before ++ needle) := by
  intro loose
  have last := List.getLast?_eq_some_getLast token.nonempty
  have outside := loose (needle.getLast token.nonempty) (by simp [List.getLast?_append, last])
  rw [token.inside _ (List.getLast_mem token.nonempty)] at outside
  cases outside

theorem Token.not_looseStart {needle : Text} (token : Token needle) (behind : Text) :
    ¬LooseStart (needle ++ behind) := by
  intro loose
  obtain ⟨c, more, rfl⟩ := List.exists_cons_of_ne_nil token.nonempty
  have outside := loose c rfl
  rw [token.inside c List.mem_cons_self] at outside
  cases outside

theorem Token.not_mem {needle : Text} (token : Token needle) {c : Char}
    (outside : isTokenChar c = false) : c ∉ needle := by
  intro member
  rw [token.inside c member] at outside
  cases outside

/-! ## Counting tokens -/

theorem tokens_append_cons {c : Char} (gap : isTokenChar c = false) (front back : Text) :
    tokens (front ++ c :: back) = tokens front ++ tokens back :=
  List.splitOnP_append_cons front back (by simp [gap])

theorem tokens_of_inside {word : Text} (inside : ∀ c ∈ word, isTokenChar c = true) :
    tokens word = [word] :=
  List.splitOnP_eq_singleton (by simpa using inside)

theorem exists_run (text : Text) :
    (∀ c ∈ text, isTokenChar c = true) ∨
      ∃ run c rest, text = run ++ c :: rest ∧ (∀ d ∈ run, isTokenChar d = true) ∧
        isTokenChar c = false := by
  induction text with
  | nil => exact .inl (by simp)
  | cons c text inductionHypothesis =>
      cases part : isTokenChar c with
      | false => exact .inr ⟨[], c, text, rfl, by simp, part⟩
      | true =>
          rcases inductionHypothesis with inside | ⟨run, d, rest, rfl, inside, gap⟩
          · exact .inl (List.forall_mem_cons.mpr ⟨part, inside⟩)
          · exact .inr ⟨c :: run, d, rest, rfl, List.forall_mem_cons.mpr ⟨part, inside⟩, gap⟩

theorem tokens_nil : tokens [] = [[]] := rfl

theorem count_tokens_append {needle front back : Text} (nonempty : needle ≠ [])
    (parted : Parted front back) :
    (tokens (front ++ back)).count needle =
      (tokens front).count needle + (tokens back).count needle := by
  have blank : (tokens []).count needle = 0 := by
    rw [tokens_nil, List.count_eq_zero, List.mem_singleton]
    exact nonempty
  -- the gap goes with either side and leaves a blank there
  rcases parted with ends | starts
  · rcases List.eq_nil_or_concat front with rfl | ⟨start, c, rfl⟩
    · rw [List.nil_append, blank, Nat.zero_add]
    · have gap := ends c (by simp)
      rw [List.concat_eq_append, List.append_assoc, List.singleton_append, tokens_append_cons gap,
        tokens_append_cons gap start [], List.count_append, List.count_append, blank, Nat.add_zero]
  · cases back with
    | nil => rw [List.append_nil, blank, Nat.add_zero]
    | cons c rest =>
        have gap := starts c rfl
        have first := tokens_append_cons gap [] rest
        rw [List.nil_append] at first
        rw [tokens_append_cons gap, first, List.count_append, List.count_append, blank, Nat.zero_add]

theorem count_tokens_around {needle before word behind : Text} (nonempty : needle ≠ [])
    (inside : ∀ c ∈ word, isTokenChar c = true) (left : LooseEnd before)
    (right : LooseStart behind) :
    (tokens (before ++ (word ++ behind))).count needle =
      (tokens before).count needle + (if word = needle then 1 else 0) +
        (tokens behind).count needle := by
  rw [count_tokens_append nonempty (.inl left), count_tokens_append nonempty (.inr right),
    tokens_of_inside inside, List.count_singleton]
  simp only [beq_iff_eq]
  omega

/-! ## One patch -/

theorem isFree_of_splitFrom {needle front text before behind : Text} {skipped : Nat}
    (found : splitFrom needle skipped front text = some (before, behind)) :
    isFree before.head? behind.head? = true := by
  induction text generalizing front skipped with
  | nil => simp [splitFrom] at found
  | cons c rest inductionHypothesis =>
      simp only [splitFrom] at found
      split at found
      · exact inductionHypothesis found
      · split at found
        · exact inductionHypothesis found
        · split at found
          · next free =>
              simp only [Option.some.injEq, Prod.mk.injEq] at found
              obtain ⟨rfl, rfl⟩ := found
              exact free
          · exact inductionHypothesis found

/-- A text that is split at a free occurrence is cut between tokens on either side of it. -/
theorem loose_of_splitFree {needle text front behind : Text}
    (found : splitFree needle text = some (front, behind)) :
    needle ≠ [] ∧ text = front.reverse ++ (needle ++ behind) ∧ LooseEnd front.reverse ∧
      LooseStart behind := by
  unfold splitFree at found
  by_cases empty : needle.isEmpty = true
  · rw [if_pos empty] at found
    cases found
  · rw [if_neg empty] at found
    have free := isFree_of_splitFrom found
    have whole := append_eq_of_splitFrom found
    rw [← List.getLast?_reverse, isFree_iff_loose] at free
    rw [List.reverse_nil, List.nil_append, List.append_assoc] at whole
    exact ⟨by simpa using empty, whole, free⟩

section

variable {needle : Text} (token : Token needle)
include token

theorem mem_tokens_of_free {before behind : Text} (left : LooseEnd before)
    (right : LooseStart behind) : needle ∈ tokens (before ++ (needle ++ behind)) := by
  rw [← List.count_pos_iff,
    count_tokens_around token.nonempty token.inside left right, if_pos rfl]
  omega

/-- A patch goes behind a free occurrence before which the selector is no token. -/
theorem patchOne_of_first_token {before behind : Text} (left : LooseEnd before)
    (right : LooseStart behind) (absent : needle ∉ tokens before) :
    patchOne (before ++ (needle ++ behind)) needle =
      before ++ (needle ++ (trueSuffix ++ behind)) := by
  refine patchOne_eq token.nonempty (fun c last => token.not_mem (left c last))
    (isFree_iff_loose.mpr ⟨left, right⟩) ?_
  intro earlier later same shorter
  rw [← Bool.not_eq_true, isFree_iff_loose]
  rintro ⟨clear, loose⟩
  -- an earlier occurrence would be a token of what stands before
  refine absent ?_
  rcases List.append_eq_append_iff.mp same with ⟨middle, rfl, _⟩ | ⟨middle, rfl, split⟩
  · simp only [List.length_append] at shorter
    omega
  · have nonempty : middle ≠ [] := by
      rintro rfl
      simp at shorter
    have wall : ∀ c, middle.getLast? = some c → c ∉ needle := by
      intro c last
      refine token.not_mem (left c ?_)
      rw [List.getLast?_append, last]
      rfl
    have fits := length_lt_of_prefix wall nonempty split.symm
    rcases List.append_eq_append_iff.mp split with ⟨rest, rfl, rfl⟩ | ⟨rest, rfl, _⟩
    · refine mem_tokens_of_free token clear ?_
      intro c head
      refine loose c ?_
      rw [List.head?_append, head]
      rfl
    · simp only [List.length_append] at fits
      omega

theorem exists_first {text : Text} (member : needle ∈ tokens text) :
    ∃ before behind, text = before ++ (needle ++ behind) ∧ LooseEnd before ∧
      LooseStart behind ∧ needle ∉ tokens before := by
  have blank : needle ∉ tokens [] := by
    rw [tokens_nil, List.mem_singleton]
    exact token.nonempty
  -- token by token, by induction on the length of what is left
  induction bound : text.length using Nat.strongRecOn generalizing text with
  | _ size inductionHypothesis =>
      rcases exists_run text with inside | ⟨run, c, rest, rfl, inside, gap⟩
      · rw [tokens_of_inside inside, List.mem_singleton] at member
        exact ⟨[], [], by simp [member], looseEnd_nil, looseStart_nil, blank⟩
      · rw [tokens_append_cons gap, tokens_of_inside inside, List.singleton_append,
          List.mem_cons] at member
        by_cases here : needle = run
        · refine ⟨[], c :: rest, by simp [here], looseEnd_nil, ?_, blank⟩
          rintro d ⟨⟩
          exact gap
        · have shorter : rest.length < size := by
            simp only [List.length_append, List.length_cons] at bound
            omega
          obtain ⟨before, behind, rfl, left, right, absent⟩ :=
            inductionHypothesis rest.length shorter (member.resolve_left here) rfl
          refine ⟨run ++ c :: before, behind, by simp, left.append_cons gap run, right, ?_⟩
          rw [tokens_append_cons gap, tokens_of_inside inside, List.singleton_append, List.mem_cons]
          exact not_or.mpr ⟨here, absent⟩

/-- A free occurrence is found exactly if the selector is a token. -/
theorem splitFree_eq_none_iff {text : Text} :
    splitFree needle text = none ↔ needle ∉ tokens text := by
  constructor
  · intro none member
    obtain ⟨before, behind, rfl, left, right, absent⟩ := exists_first token member
    have patched := patchOne_of_first_token token left right absent
    rw [patchOne, none] at patched
    have lengths := congrArg List.length patched
    simp only [List.length_append, trueSuffix, List.length_cons] at lengths
    omega
  · intro absent
    cases found : splitFree needle text with
    | none => rfl
    | some halves =>
        obtain ⟨_, whole, left, right⟩ := loose_of_splitFree found
        rw [whole] at absent
        exact absurd (mem_tokens_of_free token left right) absent

theorem patchOne_of_not_mem {text : Text} (absent : needle ∉ tokens text) :
    patchOne text needle = text := by
  rw [patchOne, (splitFree_eq_none_iff token).mpr absent]

theorem patchOne_of_mem {text : Text} (member : needle ∈ tokens text) :
    ∃ before behind, text = before ++ (needle ++ behind) ∧
      patchOne text needle = before ++ (needle ++ (trueSuffix ++ behind)) ∧
      LooseEnd before ∧ LooseStart behind ∧ needle ∉ tokens before := by
  obtain ⟨before, behind, rfl, left, right, absent⟩ := exists_first token member
  exact ⟨before, behind, rfl, patchOne_of_first_token token left right absent, left, right, absent⟩

theorem length_lt_patchOne {text : Text} (member : needle ∈ tokens text) :
    text.length < (patchOne text needle).length := by
  obtain ⟨before, behind, rfl, patched, _⟩ := patchOne_of_mem token member
  rw [patched]
  simp only [List.length_append, trueSuffix, List.length_cons]
  omega

/-- A patch takes away one token, and adds none that a selector spells. -/
theorem count_patchOne {other : Text} (sought : Token other) (text : Text) :
    (tokens (patchOne text needle)).count other =
      (tokens text).count other - if needle = other then 1 else 0 := by
  by_cases member : needle ∈ tokens text
  · obtain ⟨before, behind, rfl, patched, left, right, _⟩ := patchOne_of_mem token member
    have inside : ∀ c ∈ needle ++ trueSuffix, isTokenChar c = true :=
      List.forall_mem_append.mpr ⟨token.inside, List.all_eq_true.mp (by decide +kernel)⟩
    have differs : needle ++ trueSuffix ≠ other := by
      rintro rfl
      exact sought.unset (by simp [trueSuffix])
    rw [patched, ← List.append_assoc needle, count_tokens_around sought.nonempty inside left right,
      count_tokens_around sought.nonempty token.inside left right, if_neg differs]
    omega
  · rw [patchOne_of_not_mem token member]
    split
    · next same =>
        rw [← same, List.count_eq_zero.mpr member]
    · rfl

theorem LooseEnd.patchOne {text : Text} (loose : LooseEnd text) :
    LooseEnd (patchOne text needle) := by
  by_cases member : needle ∈ tokens text
  · obtain ⟨before, behind, rfl, patched, _⟩ := patchOne_of_mem token member
    rcases List.eq_nil_or_concat behind with rfl | ⟨start, c, rfl⟩
    · rw [List.append_nil] at loose
      exact absurd loose (token.not_looseEnd before)
    · rw [patched]
      intro d last
      refine loose d ?_
      simpa [List.getLast?_append] using last
  · rw [patchOne_of_not_mem token member]
    exact loose

theorem LooseStart.patchOne {text : Text} (loose : LooseStart text) :
    LooseStart (patchOne text needle) := by
  by_cases member : needle ∈ tokens text
  · obtain ⟨before, behind, rfl, patched, _⟩ := patchOne_of_mem token member
    cases before with
    | nil => exact absurd loose (token.not_looseStart behind)
    | cons c before =>
        rw [patched]
        exact fun d head => loose d head
  · rw [patchOne_of_not_mem token member]
    exact loose

/-- A patch of two texts in a row goes to the first, if the selector is a token there. -/
theorem patchOne_append {front back : Text} (parted : Parted front back) :
    patchOne (front ++ back) needle =
      if needle ∈ tokens front then patchOne front needle ++ back
      else front ++ patchOne back needle := by
  split
  · next member =>
      obtain ⟨before, behind, rfl, patched, left, right, absent⟩ := patchOne_of_mem token member
      have loose : LooseStart (behind ++ back) := by
        cases behind with
        | cons c behind => exact right
        | nil =>
            -- the token ends the front, so the cut lies at the start of the back
            rw [List.append_nil] at parted
            exact parted.resolve_left (token.not_looseEnd before)
      rw [patched]
      simpa only [List.append_assoc] using patchOne_of_first_token token left loose absent
  · next absent =>
      by_cases member : needle ∈ tokens back
      · obtain ⟨before, behind, rfl, patched, left, right, later⟩ := patchOne_of_mem token member
        have loose : LooseEnd (front ++ before) ∧ Parted front before := by
          cases before with
          | nil =>
              have ends := parted.resolve_right (token.not_looseStart behind)
              exact ⟨by rw [List.append_nil]; exact ends, .inl ends⟩
          | cons c before =>
              refine ⟨?_, parted.imp_right fun starts d head => starts d head⟩
              intro d last
              refine left d ?_
              simpa [List.getLast?_append] using last
        have nowhere : needle ∉ tokens (front ++ before) := by
          rw [← List.count_eq_zero, count_tokens_append token.nonempty loose.2,
            List.count_eq_zero.mpr absent, List.count_eq_zero.mpr later]
        rw [patched, ← List.append_assoc, patchOne_of_first_token token loose.1 right nowhere,
          List.append_assoc]
      · have nowhere : needle ∉ tokens (front ++ back) := by
          rw [← List.count_eq_zero, count_tokens_append token.nonempty parted,
            List.count_eq_zero.mpr absent, List.count_eq_zero.mpr member]
        rw [patchOne_of_not_mem token nowhere, patchOne_of_not_mem token member]

end

/-! ## Pieces -/

/-- Patches the first piece in which the selector occurs free. -/
def patchFirst (selector : Text) : List Text → List Text
  | [] => []
  | piece :: pieces =>
      match splitFree selector piece with
      | some (front, behind) => rejoin selector front behind :: pieces
      | none => piece :: patchFirst selector pieces

/-- Patches selectors one after another, each in one of the pieces. -/
def patchEach (pieces selectors : List Text) : List Text :=
  selectors.foldl (fun pieces selector => patchFirst selector pieces) pieces

/-- Pieces of a text that was cut between tokens. -/
def AllParted : List Text → Prop
  | [] => True
  | piece :: pieces => Parted piece pieces.flatten ∧ AllParted pieces

section

variable {needle : Text} (token : Token needle)
include token

theorem patchFirst_cons (piece : Text) (pieces : List Text) :
    patchFirst needle (piece :: pieces) =
      if needle ∈ tokens piece then patchOne piece needle :: pieces
      else piece :: patchFirst needle pieces := by
  cases found : splitFree needle piece with
  | none =>
      rw [if_neg ((splitFree_eq_none_iff token).mp found)]
      simp only [patchFirst, found]
  | some halves =>
      have member : needle ∈ tokens piece := by
        refine Decidable.byContradiction fun absent => ?_
        rw [(splitFree_eq_none_iff token).mpr absent] at found
        cases found
      rw [if_pos member]
      simp only [patchFirst, patchOne, found]

theorem patchFirst_append (front back : List Text) :
    patchFirst needle (front ++ back) =
      if needle ∈ front.flatMap tokens then patchFirst needle front ++ back
      else front ++ patchFirst needle back := by
  induction front with
  | nil => simp
  | cons piece front inductionHypothesis =>
      rw [List.cons_append, patchFirst_cons token, patchFirst_cons token, inductionHypothesis,
        List.flatMap_cons]
      by_cases here : needle ∈ tokens piece
      · simp [here]
      · by_cases later : needle ∈ front.flatMap tokens
        · simp only [List.mem_append, here, later, or_true, if_true, if_false, List.cons_append]
        · simp only [List.mem_append, here, later, or_false, if_false, List.cons_append]

theorem length_patchFirst (pieces : List Text) :
    (patchFirst needle pieces).length = pieces.length := by
  induction pieces with
  | nil => rfl
  | cons piece pieces inductionHypothesis =>
      rw [patchFirst_cons token]
      split
      · rfl
      · rw [List.length_cons, List.length_cons, inductionHypothesis]

theorem count_patchFirst {other : Text} (sought : Token other) (pieces : List Text) :
    ((patchFirst needle pieces).flatMap tokens).count other =
      (pieces.flatMap tokens).count other - if needle = other then 1 else 0 := by
  induction pieces with
  | nil => simp [patchFirst]
  | cons piece pieces inductionHypothesis =>
      rw [patchFirst_cons token]
      have first := count_patchOne token sought piece
      by_cases here : needle ∈ tokens piece
      · have positive := List.count_pos_iff.mpr here
        rw [if_pos here, List.flatMap_cons, List.flatMap_cons, List.count_append,
          List.count_append, first]
        by_cases same : needle = other
        · subst same
          rw [if_pos rfl]
          omega
        · rw [if_neg same]
          omega
      · rw [if_neg here, List.flatMap_cons, List.flatMap_cons, List.count_append,
          List.count_append, inductionHypothesis]
        by_cases same : needle = other
        · subst same
          rw [if_pos rfl, List.count_eq_zero.mpr here]
          omega
        · rw [if_neg same]
          omega

theorem length_le_patchFirst (pieces : List Text) (i : Nat) :
    (pieces[i]?.getD []).length ≤ ((patchFirst needle pieces)[i]?.getD []).length := by
  induction pieces generalizing i with
  | nil => exact Nat.le_refl _
  | cons piece pieces inductionHypothesis =>
      rw [patchFirst_cons token]
      split
      · next member =>
          cases i with
          | zero => exact Nat.le_of_lt (length_lt_patchOne token member)
          | succ i => exact Nat.le_refl _
      · cases i with
        | zero => exact Nat.le_refl _
        | succ i => exact inductionHypothesis i

/-- A patch of pieces that lie between tokens is a patch of the text they make up, and they still
lie between tokens. -/
theorem flatten_patchFirst {pieces : List Text} (parted : AllParted pieces) :
    (patchFirst needle pieces).flatten = patchOne pieces.flatten needle ∧
      AllParted (patchFirst needle pieces) := by
  induction pieces with
  | nil =>
      have absent : needle ∉ tokens [] := by
        rw [tokens_nil, List.mem_singleton]
        exact token.nonempty
      exact ⟨(patchOne_of_not_mem token absent).symm, trivial⟩
  | cons piece pieces inductionHypothesis =>
      obtain ⟨apart, others⟩ := parted
      rw [patchFirst_cons token, List.flatten_cons, patchOne_append token apart]
      split
      · exact ⟨rfl, apart.imp_left (LooseEnd.patchOne token), others⟩
      · obtain ⟨flat, later⟩ := inductionHypothesis others
        refine ⟨by rw [List.flatten_cons, flat], ?_, later⟩
        rw [flat]
        exact apart.imp_right (LooseStart.patchOne token)

end

/-- Patching piece by piece is patching the text. -/
theorem flatten_patchEach {pieces selectors : List Text} (parted : AllParted pieces)
    (sought : ∀ selector ∈ selectors, Token selector) :
    (patchEach pieces selectors).flatten = patchAll pieces.flatten selectors := by
  induction selectors generalizing pieces with
  | nil => rfl
  | cons selector selectors inductionHypothesis =>
      rw [List.forall_mem_cons] at sought
      obtain ⟨flat, still⟩ := flatten_patchFirst sought.1 parted
      have rest := inductionHypothesis still sought.2
      rw [flat] at rest
      exact rest

theorem length_le_patchEach {pieces selectors : List Text}
    (sought : ∀ selector ∈ selectors, Token selector) (i : Nat) :
    (pieces[i]?.getD []).length ≤ ((patchEach pieces selectors)[i]?.getD []).length := by
  induction selectors generalizing pieces with
  | nil => exact Nat.le_refl _
  | cons selector selectors inductionHypothesis =>
      rw [List.forall_mem_cons] at sought
      exact Nat.le_trans (length_le_patchFirst sought.1 pieces i) (inductionHypothesis sought.2)

/-- Of every selector that is a token of `piece`, the pieces before hold as many as there are
patches. -/
def UsedUp (before selectors : List Text) (piece : Text) : Prop :=
  ∀ selector ∈ selectors, selector ∈ tokens piece →
    selectors.count selector ≤ (before.flatMap tokens).count selector

instance (before selectors : List Text) (piece : Text) : Decidable (UsedUp before selectors piece) :=
  inferInstanceAs (Decidable (∀ selector ∈ selectors, _ → _))

section

variable {before selectors : List Text} {first piece : Text}

/-- A patch that falls before the piece takes one token away there. -/
theorem usedUp_patchFirst_iff (token : Token first)
    (others : ∀ selector ∈ selectors, Token selector) (early : first ∈ before.flatMap tokens) :
    UsedUp (patchFirst first before) selectors piece ↔ UsedUp before (first :: selectors) piece := by
  have positive := List.count_pos_iff.mpr early
  constructor
  · intro enough selector member inside
    by_cases same : first = selector
    · subst same
      rw [List.count_cons_self]
      by_cases again : first ∈ selectors
      · have left := enough first again inside
        rw [count_patchFirst token token, if_pos rfl] at left
        omega
      · rw [List.count_eq_zero.mpr again]
        omega
    · have listed := (List.mem_cons.mp member).resolve_left (Ne.symm same)
      have left := enough selector listed inside
      rw [count_patchFirst token (others selector listed), if_neg same] at left
      rw [List.count_cons_of_ne same]
      omega
  · intro enough selector member inside
    have left := enough selector (List.mem_cons_of_mem _ member) inside
    rw [count_patchFirst token (others selector member)]
    by_cases same : first = selector
    · subst same
      rw [List.count_cons_self] at left
      rw [if_pos rfl]
      omega
    · rw [List.count_cons_of_ne same] at left
      rw [if_neg same]
      omega

theorem usedUp_cons_iff (absent : first ∉ tokens piece) :
    UsedUp before (first :: selectors) piece ↔ UsedUp before selectors piece := by
  have differs : ∀ selector ∈ tokens piece, first ≠ selector := by
    rintro selector inside rfl
    exact absent inside
  constructor
  · intro enough selector member inside
    have left := enough selector (List.mem_cons_of_mem _ member) inside
    rw [List.count_cons_of_ne (differs selector inside)] at left
    exact left
  · intro enough selector member inside
    rw [List.count_cons_of_ne (differs selector inside)]
    exact enough selector ((List.mem_cons.mp member).resolve_left (differs selector inside).symm)
      inside

theorem not_usedUp (inside : first ∈ tokens piece) (absent : first ∉ before.flatMap tokens) :
    ¬UsedUp before (first :: selectors) piece := by
  intro enough
  have left := enough first List.mem_cons_self inside
  rw [List.count_cons_self, List.count_eq_zero.mpr absent] at left
  omega

end

/-- A piece is spared exactly if the pieces before use up the patches that it could take. -/
theorem patchEach_spares_iff {before after : List Text} {piece : Text} {selectors : List Text}
    (sought : ∀ selector ∈ selectors, Token selector) :
    (patchEach (before ++ piece :: after) selectors)[before.length]? = some piece ↔
      UsedUp before selectors piece := by
  induction selectors generalizing before after with
  | nil => simp [patchEach, UsedUp]
  | cons first selectors inductionHypothesis =>
      rw [List.forall_mem_cons] at sought
      obtain ⟨token, others⟩ := sought
      have step := patchFirst_append token before (piece :: after)
      rw [patchFirst_cons token] at step
      have run : patchEach (before ++ piece :: after) (first :: selectors) =
          patchEach (patchFirst first (before ++ piece :: after)) selectors := rfl
      rw [run, step]
      by_cases early : first ∈ before.flatMap tokens
      · have later := @inductionHypothesis (patchFirst first before) after others
        rw [length_patchFirst token] at later
        rw [if_pos early, later, usedUp_patchFirst_iff token others early]
      · rw [if_neg early]
        by_cases here : first ∈ tokens piece
        · -- the piece takes the patch, and never gets shorter again
          refine iff_of_false ?_ (not_usedUp here early)
          have longer := length_lt_patchOne token here
          have bound := @length_le_patchEach (before ++ patchOne piece first :: after) selectors
            others before.length
          intro spared
          rw [if_pos here] at spared
          rw [spared] at bound
          simp only [List.getElem?_append_right (Nat.le_refl before.length), Nat.sub_self,
            List.getElem?_cons_zero, Option.getD_some] at bound
          omega
        · rw [if_neg here, inductionHypothesis others, usedUp_cons_iff here]

end Patch

end TemplateSelectors
