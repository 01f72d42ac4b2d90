import TemplateSelectors.Proofs.SelectorPlaces

/-!
# Tags whose lone selector is patched

A lone selector is left in the text of its tag and patched later.  The tag that is meant has that
selector as its first keyword argument.  A needle that occurs free in the text of such a tag, or
of a tag that was written anew, occurs in the tag that was read, and there it is none of its
selectors: those have become keys.
-/

set_option autoImplicit false

namespace TemplateSelectors

open Patch
open TagBody (Gap Identifier)

/-! ## White space as a wall -/

theorem Patch.wallStart_of_gap {layout : Text} (gap : Gap layout) (rest : Text) :
    WallStart (layout ++ rest) := by
  intro c head
  exact isWall_of_isLayout (TagBody.gap_head gap rest c head)

theorem Patch.wallEnd_of_gap {layout : Text} (gap : Gap layout) (front : Text) :
    WallEnd (front ++ layout) := by
  intro c last
  rw [List.getLast?_append, List.getLast?_eq_some_getLast gap.2, Option.some_or] at last
  cases last
  exact isWall_of_isLayout (gap.1 _ (List.getLast_mem gap.2))

theorem wallStart_printParams {params : List Param} (gaps : ∀ param ∈ params, Gap param.leading) :
    WallStart (printParams params) := by
  cases params with
  | nil => exact wallStart_nil
  | cons param params =>
      rw [printParams, Param.print_eq, List.append_assoc]
      exact wallStart_of_gap (gaps param List.mem_cons_self) _

theorem HashPair.print_eq (pair : HashPair) :
    pair.print = pair.leading ++ (pair.key ++ (pair.separator ++ pair.value.print)) := by
  obtain ⟨leading, key, separator, value, loc⟩ := pair
  simp [HashPair.print]

theorem wallStart_printPairs {pairs : List HashPair} (gaps : ∀ pair ∈ pairs, Gap pair.leading) :
    WallStart (printPairs pairs) := by
  cases pairs with
  | nil => exact wallStart_nil
  | cons pair pairs =>
      rw [printPairs, HashPair.print_eq, List.append_assoc]
      exact wallStart_of_gap (gaps pair List.mem_cons_self) _

/-! ## Needles in arguments that were moved -/

theorem HashPair.Promotes.print {candidate : Param} {pair : HashPair}
    (promotes : pair.Promotes candidate) :
    pair.print = pair.leading ++ (candidate.value.print ++ trueSuffix) := by
  rw [HashPair.print_eq, promotes.key, promotes.separator, promotes.value]
  rfl

/-- A needle in a pair that a selector has become is part of the selector, and not all of it. -/
theorem HashPair.Promotes.traces (pattern : SelectorPattern) {candidate : Param} {pair : HashPair}
    (promotes : pair.Promotes candidate) (gap : Gap candidate.leading)
    (leading : Gap pair.leading) :
    Traces candidate.print pair.print (candidate.places pattern) := by
  rintro needle sought ⟨before, free⟩
  rw [promotes.print] at free
  rcases free.of_append sought (.inl (by simpa using wallEnd_of_gap leading [])) with
    ⟨behind, space, _⟩ | ⟨before', _, inside⟩
  · -- white space holds no needle
    obtain ⟨c, more, rfl⟩ := List.exists_cons_of_ne_nil sought.nonempty
    have layout := leading.1 c (by rw [space]; simp)
    exact absurd List.mem_cons_self (sought.not_mem_of_isWall (isWall_of_isLayout layout))
  · obtain ⟨c, behind, word, clear⟩ := inside.of_patched sought
    have within : FreeAt needle candidate.value.print before' := ⟨c :: behind, word, clear⟩
    have apart : Apart candidate.leading candidate.value.print :=
      .inl (by simpa using wallEnd_of_gap gap [])
    refine ⟨candidate.leading ++ before', ?_, ?_⟩
    · rw [Param.print_eq]
      exact within.append_left sought apart
    · intro member
      unfold Param.places at member
      split at member
      · rw [List.mem_singleton, Place.mk.injEq] at member
        have length := congrArg List.length word
        rw [← member.2] at length
        simp only [List.length_append, List.length_cons] at length
        omega
      · cases member

section

variable {pattern : SelectorPattern} {params : List Param}
  (rules : ∀ param ∈ params, Gap param.leading ∧ param.value.print ≠ [])
include rules

theorem traces_kept :
    Traces (printParams params)
      (printParams (params.filter fun param => !pattern.isSelector param))
      (paramPlaces pattern params) := by
  induction params with
  | nil => exact .nil _ _
  | cons param params inductionHypothesis =>
      rw [List.forall_mem_cons] at rules
      have later := inductionHypothesis rules.2
      have apart : Apart param.print (printParams params) :=
        .inr (wallStart_printParams fun other member => (rules.2 other member).1)
      have inside := param.places_in pattern rules.1.2
      by_cases selector : pattern.isSelector param = true
      · rw [List.filter_cons_of_neg (by simp [selector])]
        exact Traces.append (.nil param.print _) later apart (.inl wallEnd_nil) inside
      · rw [List.filter_cons_of_pos (by simp [selector])]
        have none : param.places pattern = [] := by
          rw [Param.places, if_neg selector]
        rw [printParams, paramPlaces, none]
        refine (Traces.refl param.print).append later apart (.inr ?_) (by simp)
        exact wallStart_printParams fun other member =>
          (rules.2 other (List.mem_filter.mp member).1).1

/-- A pair that a selector among positional arguments has become. -/
theorem traces_pair {candidate : Param} {pair : HashPair} (member : candidate ∈ params)
    (promotes : pair.Promotes candidate) (leading : Gap pair.leading) :
    Traces (printParams params) pair.print (paramPlaces pattern params) := by
  induction params with
  | nil => cases member
  | cons param params inductionHypothesis =>
      rw [List.forall_mem_cons] at rules
      have apart : Apart param.print (printParams params) :=
        .inr (wallStart_printParams fun other member => (rules.2 other member).1)
      have inside := param.places_in pattern rules.1.2
      rcases List.mem_cons.mp member with rfl | later
      · have first := promotes.traces pattern rules.1.1 leading
        have whole := first.append (.nil (printParams params) (paramPlaces pattern params)) apart
          (.inr wallStart_nil) inside
        rw [List.append_nil] at whole
        exact whole
      · exact Traces.append (.nil param.print _) (inductionHypothesis rules.2 later) apart
          (.inl wallEnd_nil) inside

theorem traces_pairs {pairs : List HashPair}
    (promotes : ∀ pair ∈ pairs, Gap pair.leading ∧ ∃ candidate ∈ params, pair.Promotes candidate) :
    Traces (printParams params) (printPairs pairs) (paramPlaces pattern params) := by
  induction pairs with
  | nil => exact .nil _ _
  | cons pair pairs inductionHypothesis =>
      rw [List.forall_mem_cons] at promotes
      obtain ⟨leading, candidate, member, promoted⟩ := promotes.1
      refine (traces_pair rules member promoted leading).both (inductionHypothesis promotes.2)
        (.inr ?_)
      exact wallStart_printPairs fun other member => (promotes.2 other member).1

end

theorem printParams_append (front back : List Param) :
    printParams (front ++ back) = printParams front ++ printParams back := by
  induction front with
  | nil => rfl
  | cons param front inductionHypothesis => simp [printParams, inductionHypothesis]

theorem paramPlaces_append (pattern : SelectorPattern) (front back : List Param) :
    paramPlaces pattern (front ++ back) =
      paramPlaces pattern front ++
        (paramPlaces pattern back).map (Place.shift (printParams front).size) := by
  induction front with
  | nil => simp [paramPlaces, printParams, Place.shift_zero]
  | cons param front inductionHypothesis =>
      simp only [List.cons_append, paramPlaces, inductionHypothesis, List.map_append,
        Place.map_shift_shift, printParams, Text.size_append, List.append_assoc]

theorem paramPlaces_eq_nil {pattern : SelectorPattern} {params : List Param}
    (none : ∀ param ∈ params, ¬pattern.isSelector param = true) :
    paramPlaces pattern params = [] := by
  induction params with
  | nil => rfl
  | cons param params inductionHypothesis =>
      rw [List.forall_mem_cons] at none
      rw [paramPlaces, Param.places, if_neg none.1, inductionHypothesis none.2]
      rfl

namespace Tag

variable {pattern : SelectorPattern} {tag : Tag}

theorem wallStart_rear (wellFormed : tag.WellFormed) (delimited : tag.Delimited) :
    WallStart tag.rear := by
  have rule : TagBody.Grammatical { tag.body with args := pairArguments tag.pairs } :=
    ⟨wellFormed.grammatical.leading, wellFormed.grammatical.callee,
      grammatical_pairArguments_iff.mpr wellFormed.pairs, wellFormed.grammatical.blockParams,
      wellFormed.grammatical.trailing⟩
  have inner : WallStart (printPairs tag.pairs ++ (tag.blockParams.getD [] ++ tag.trailing)) := by
    intro c head
    refine isWall_of_isLayout (rule.tail_head c ?_)
    simpa only [TagBody.tail, body, text_pairArguments, List.append_assoc] using head
  have whole := inner.append delimited.wall
  simpa only [rear, List.append_assoc] using whole

theorem print_moved (pattern : SelectorPattern) (tag : Tag) (hash : Hash) :
    (tag.moved pattern hash).print = (tag.moved pattern hash).printParts := rfl

theorem printParts_moved {pairs : List HashPair} {hash : Hash}
    (first : hash.pairs = pairs ++ tag.pairs) :
    (tag.moved pattern hash).printParts =
      tag.front ++ (printParams (tag.kept pattern) ++ printPairs pairs ++ tag.rear) := by
  have keywords : (tag.moved pattern hash).pairs = pairs ++ tag.pairs := first
  rw [printParts_eq_front, rear, keywords, printPairs_append]
  simp only [front, moved, rear, List.append_assoc]

/-- Needles in a tag whose selectors have become pairs in front of its keyword arguments. -/
theorem traces_moved (wellFormed : tag.WellFormed) (delimited : tag.Delimited)
    {pairs : List HashPair} {hash : Hash}
    (first : hash.pairs = pairs ++ tag.pairs)
    (promotes : ∀ pair ∈ pairs, ∃ candidate ∈ tag.candidates pattern, pair.Promotes candidate) :
    Traces tag.printParts (tag.moved pattern hash).printParts (tag.places pattern) := by
  have rules : ∀ param ∈ tag.params, Gap param.leading ∧ param.value.print ≠ [] :=
    fun param member => ⟨(wellFormed.params param member).1, wellFormed.print_ne_nil param member⟩
  have made : ∀ pair ∈ pairs,
      Gap pair.leading ∧ ∃ candidate ∈ tag.params, pair.Promotes candidate := by
    intro pair member
    obtain ⟨candidate, inside, promoted⟩ := promotes pair member
    have listed := (List.mem_filter.mp inside).1
    exact ⟨promoted.gap (rules candidate listed).1, candidate, listed, promoted⟩
  have pairStart : WallStart (printPairs pairs) :=
    wallStart_printPairs fun pair member => (made pair member).1
  have keptStart : WallStart (printParams (tag.kept pattern)) :=
    wallStart_printParams fun param member => (rules param (List.mem_filter.mp member).1).1
  have paramStart : WallStart (printParams tag.params) :=
    wallStart_printParams fun param member => (rules param member).1
  have rearStart := wallStart_rear wellFormed delimited
  -- front and rear of the tag stay as they are; only the arguments between them move
  have arguments : Traces (printParams tag.params)
      (printParams (tag.kept pattern) ++ printPairs pairs) (paramPlaces pattern tag.params) :=
    (traces_kept rules).both (traces_pairs rules made) (.inr pairStart)
  have behind := arguments.append (Traces.refl tag.rear) (.inr rearStart) (.inr rearStart)
    (paramPlaces_in pattern wellFormed.print_ne_nil)
  have whole := (Traces.refl tag.front).append behind (.inr (paramStart.append rearStart))
    (.inr ((keptStart.append pairStart).append rearStart)) (by simp)
  rw [printParts_moved first, printParts_eq_front, places]
  simpa only [List.map_nil, List.append_nil, List.nil_append] using whole

/-! ## What becomes of a tag -/

/-- The tag with its selectors as keyword arguments; a lone one keeps its white space. -/
def settled (pattern : SelectorPattern) (tag : Tag) : Tag :=
  match tag.candidates pattern, tag.hash with
  | [candidate], some hash =>
      tag.moved pattern { hash with pairs := solePair candidate :: hash.pairs }
  | _, _ => tag.promoted ⟨pattern, true⟩

/-- The selector that is left to be patched, if there is one. -/
def patches (pattern : SelectorPattern) (tag : Tag) : List Text :=
  (tag.change ⟨pattern, true⟩).replacement.toList.map Replacement.selector

/-- A tag is either finished at once, or its text is kept and its lone selector is left to be
patched. -/
theorem settled_cases (pattern : SelectorPattern) {hash : Hash} (keywords : tag.hash = some hash) :
    (tag.candidates pattern = [] ∧ tag.patches pattern = [] ∧
      tag.promoted ⟨pattern, true⟩ = tag ∧ tag.settled pattern = tag) ∨
    (∃ candidate, tag.candidates pattern = [candidate] ∧
      tag.patches pattern = [candidate.value.print] ∧
      tag.settled pattern =
        tag.moved pattern { hash with pairs := solePair candidate :: hash.pairs }) ∨
    (tag.patches pattern = [] ∧
      tag.promoted ⟨pattern, true⟩ = tag.withPairs pattern hash ∧
      tag.settled pattern = tag.withPairs pattern hash) := by
  rcases promote_cases ⟨pattern, true⟩ keywords with
    ⟨none, rule⟩ | ⟨candidate, _, lone, rule⟩ | ⟨some, slow, rule⟩
  · simp only at none
    refine .inl ⟨none, ?_, ?_, ?_⟩
    · simp [patches, change, rule]
    · simp [promoted, rule]
    · simp [settled, none, promoted, rule]
  · simp only at lone
    refine .inr (.inl ⟨candidate, lone, ?_, ?_⟩)
    · simp [patches, change, rule]
    · simp [settled, lone, keywords]
  · have outcome : tag.promoted ⟨pattern, true⟩ = tag.withPairs pattern hash := by
      simp [promoted, rule]
    refine .inr (.inr ⟨by simp [patches, change, rule], outcome, ?_⟩)
    unfold settled
    split
    · next candidate _ lone _ => simp [lone] at slow
    · exact outcome

theorem settled_eq_moved (wellFormed : tag.WellFormed) (pattern : SelectorPattern) :
    (tag.candidates pattern = [] ∧ tag.settled pattern = tag) ∨
      ∃ pairs hash, hash.pairs = pairs ++ tag.pairs ∧
        (∀ pair ∈ pairs, ∃ candidate ∈ tag.candidates pattern, pair.Promotes candidate) ∧
        tag.settled pattern = tag.moved pattern hash := by
  obtain ⟨hash, keywords⟩ := Option.isSome_iff_exists.mp wellFormed.keywords
  have same : tag.pairs = hash.pairs := by simp [Tag.pairs, keywords]
  rcases settled_cases pattern keywords with
    ⟨none, _, _, rule⟩ | ⟨candidate, lone, _, rule⟩ | ⟨_, _, rule⟩
  · exact .inl ⟨none, rule⟩
  · refine .inr ⟨[solePair candidate], _, by rw [same]; rfl, ?_, rule⟩
    intro pair member
    rw [List.mem_singleton] at member
    subst member
    exact ⟨candidate, by simp [lone], HashPair.promotes_solePair candidate⟩
  · obtain ⟨pairs, first, promotes⟩ :=
      hash.exists_pairs_promote (tag.params.length == 1) (tag.candidates pattern)
    exact .inr ⟨pairs, _, by rw [first, same], promotes, rule⟩

/-- A settled tag stands for the tag that was read. -/
theorem standsFor_settled (stands : tag.StandsFor tag) (names : tag.NamesOnly pattern) :
    (tag.settled pattern).StandsFor tag := by
  rcases settled_eq_moved stands.wellFormed pattern with
    ⟨_, rule⟩ | ⟨pairs, hash, first, promotes, rule⟩
  · rw [rule]
    exact stands
  · rw [rule]
    exact standsFor_moved stands.wellFormed names first promotes

theorem name_settled (pattern : SelectorPattern) (tag : Tag) :
    (tag.settled pattern).name = tag.name := by
  unfold settled
  split
  · rfl
  · exact name_promoted _ tag

theorem candidates_settled (wellFormed : tag.WellFormed) :
    (tag.settled pattern).candidates pattern = [] := by
  rcases settled_eq_moved wellFormed pattern with ⟨none, rule⟩ | ⟨_, _, _, _, rule⟩
  · rw [rule]
    exact none
  · rw [rule]
    exact candidates_of_params_kept rfl

theorem delimited_settled (pattern : SelectorPattern) (wellFormed : tag.WellFormed)
    (delimited : tag.Delimited) : (tag.settled pattern).Delimited := by
  rcases settled_eq_moved wellFormed pattern with ⟨_, rule⟩ | ⟨_, _, _, _, rule⟩
  · rw [rule]
    exact delimited
  · rw [rule]
    exact ⟨delimited.opener, delimited.closer, delimited.wall⟩

theorem print_settled (stands : tag.StandsFor tag) :
    (tag.settled pattern).print = (tag.settled pattern).printParts := by
  rcases settled_eq_moved stands.wellFormed pattern with ⟨_, rule⟩ | ⟨_, _, _, _, rule⟩
  · rw [rule]
    exact stands.printed
  · rw [rule, print_moved]

/-- Needles in a settled tag. -/
theorem traces_settled (stands : tag.StandsFor tag) (delimited : tag.Delimited) :
    Traces tag.print (tag.settled pattern).print (tag.places pattern) := by
  rcases settled_eq_moved stands.wellFormed pattern with
    ⟨none, rule⟩ | ⟨pairs, hash, first, promotes, rule⟩
  · have nowhere : tag.places pattern = [] := by
      rw [places, paramPlaces_eq_nil (List.filter_eq_nil_iff.mp none)]
      rfl
    rw [rule, nowhere]
    exact .refl tag.print
  · rw [rule, print_moved, stands.printed]
    exact traces_moved stands.wellFormed delimited first promotes

/-! ## A lone selector in the text of its tag -/

theorem params_of_last {candidate : Param} (lone : tag.candidates pattern = [candidate])
    (last : tag.params.getLast? = some candidate) :
    tag.params = tag.kept pattern ++ [candidate] := by
  obtain ⟨front, whole⟩ := List.getLast?_eq_some_iff.mp last
  have selector : pattern.isSelector candidate = true := by
    have member : candidate ∈ tag.candidates pattern := by simp [lone]
    exact (List.mem_filter.mp member).2
  rw [candidates, whole, List.filter_append, List.filter_cons_of_pos selector] at lone
  have none : front.filter pattern.isSelector = [] := by simpa using lone
  have all : (front.filter fun param => !pattern.isSelector param) = front := by
    rw [List.filter_eq_self]
    intro param member
    have other := List.filter_eq_nil_iff.mp none param member
    simpa using other
  rw [kept, whole, List.filter_append, all, List.filter_cons_of_neg (by simp [selector])]
  simp

/-- The text of a tag around a lone selector that is the last positional argument. -/
theorem exists_around_lone (stands : tag.StandsFor tag) {candidate : Param}
    (lone : tag.candidates pattern = [candidate])
    (last : tag.params.getLast? = some candidate) :
    ∃ before, (∀ front, WallEnd (front ++ before)) ∧
      tag.print = before ++ (candidate.value.print ++ tag.rear) ∧
      (tag.settled pattern).print =
        before ++ (candidate.value.print ++ (trueSuffix ++ tag.rear)) ∧
      tag.places pattern = [⟨before.size, candidate.value.print⟩] := by
  obtain ⟨hash, keywords⟩ := Option.isSome_iff_exists.mp stands.wellFormed.keywords
  have member : candidate ∈ tag.candidates pattern := by simp [lone]
  have gap := (stands.wellFormed.params candidate (List.mem_filter.mp member).1).1
  have params := params_of_last lone last
  have settles : tag.settled pattern =
      tag.moved pattern { hash with pairs := solePair candidate :: hash.pairs } := by
    simp [settled, lone, keywords]
  refine ⟨tag.front ++ (printParams (tag.kept pattern) ++ candidate.leading), ?_, ?_, ?_, ?_⟩
  · intro front
    rw [← List.append_assoc, ← List.append_assoc]
    exact wallEnd_of_gap gap _
  · rw [stands.printed, printParts_eq_front, params, printParams_append]
    simp [printParams, Param.print_eq]
  · have pair : (solePair candidate).print =
        candidate.leading ++ (candidate.value.print ++ trueSuffix) :=
      (HashPair.promotes_solePair candidate).print
    have first : solePair candidate :: hash.pairs = [solePair candidate] ++ tag.pairs := by
      simp [Tag.pairs, keywords]
    rw [settles, print_moved, printParts_moved first, printPairs, pair]
    simp [printPairs]
  · have none : paramPlaces pattern (tag.kept pattern) = [] := by
      refine paramPlaces_eq_nil ?_
      intro param inside
      simpa using (List.mem_filter.mp inside).2
    have selector := (List.mem_filter.mp member).2
    rw [places, params, paramPlaces_append, none]
    simp [paramPlaces, Param.places, selector, Place.shift]

end Tag

end TemplateSelectors
