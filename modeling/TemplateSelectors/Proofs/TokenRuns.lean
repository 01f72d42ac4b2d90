import Mathlib.Data.List.SplitBy
import TemplateSelectors.Proofs.TokenPatches

/-!
# Patches by counting

A text falls into maximal runs of characters that continue a token and of characters that do not.
Patches of selectors that are tokens go to runs that spell them, the first ones first, as many as
there are patches.  So it only matters how often each selector is patched, not in which order.
-/

set_option autoImplicit false

namespace TemplateSelectors

namespace Patch

/-- The maximal runs of a text, of token characters and of others. -/
def runs (text : Text) : List Text :=
  text.splitBy fun c d => isTokenChar c == isTokenChar d

/-- The characters are alike: all of them continue a token, or none. -/
def Uniform (run : Text) : Prop :=
  ∃ kind, ∀ c ∈ run, isTokenChar c = kind

theorem uniform_of_isChain {run : Text}
    (chain : run.IsChain fun c d => (isTokenChar c == isTokenChar d) = true) : Uniform run := by
  induction run with
  | nil => exact ⟨true, by simp⟩
  | cons c run inductionHypothesis =>
      cases run with
      | nil => exact ⟨isTokenChar c, by simp⟩
      | cons d run =>
          rw [List.isChain_cons_cons, beq_iff_eq] at chain
          obtain ⟨kind, same⟩ := inductionHypothesis chain.2
          refine ⟨kind, List.forall_mem_cons.mpr ⟨?_, same⟩⟩
          rw [chain.1]
          exact same d List.mem_cons_self

theorem uniform_of_mem_runs {text run : Text} (member : run ∈ runs text) : Uniform run :=
  uniform_of_isChain (List.isChain_of_mem_splitBy member)

theorem allParted_of_isChain {pieces : List Text}
    (chain : pieces.IsChain fun front back => ∃ some other,
      (isTokenChar (front.getLast some) == isTokenChar (back.head other)) = false) :
    AllParted pieces := by
  induction pieces with
  | nil => trivial
  | cons piece pieces inductionHypothesis =>
      cases pieces with
      | nil => exact ⟨.inr looseStart_nil, trivial⟩
      | cons next pieces =>
          rw [List.isChain_cons_cons] at chain
          obtain ⟨⟨some, other, differ⟩, chain⟩ := chain
          refine ⟨?_, inductionHypothesis chain⟩
          cases last : isTokenChar (piece.getLast some) with
          | false =>
              apply Or.inl
              intro c ends
              rw [List.getLast?_eq_some_getLast some, Option.some.injEq] at ends
              rw [← ends]
              exact last
          | true =>
              apply Or.inr
              intro c starts
              rw [List.flatten_cons, List.head?_append, List.head?_eq_some_head other,
                Option.some_or, Option.some.injEq] at starts
              rw [← starts]
              simpa [last] using differ

theorem allParted_runs (text : Text) : AllParted (runs text) :=
  allParted_of_isChain (List.isChain_getLast_head_splitBy
    (fun c d => isTokenChar c == isTokenChar d) text)

theorem flatten_runs (text : Text) : (runs text).flatten = text :=
  List.flatten_splitBy _ text

/-! ## One patch among runs -/

section

variable {needle : Text} (token : Token needle)
include token

/-- The only token of a run is the run itself. -/
theorem mem_tokens_iff_of_uniform {run : Text} (uniform : Uniform run) :
    needle ∈ tokens run ↔ needle = run := by
  obtain ⟨kind, same⟩ := uniform
  cases kind with
  | true => rw [tokens_of_inside same, List.mem_singleton]
  | false =>
      constructor
      · intro member
        obtain ⟨before, behind, rfl, _⟩ := exists_first token member
        obtain ⟨c, more, rfl⟩ := List.exists_cons_of_ne_nil token.nonempty
        have outside := same c (by simp)
        rw [token.inside c List.mem_cons_self] at outside
        cases outside
      · intro spelled
        subst spelled
        rw [tokens_of_inside token.inside]
        exact List.mem_singleton_self needle

theorem patchOne_self : patchOne needle needle = needle ++ trueSuffix := by
  have absent : needle ∉ tokens [] := by
    rw [tokens_nil, List.mem_singleton]
    exact token.nonempty
  have patched := patchOne_of_first_token token looseEnd_nil looseStart_nil absent
  simpa only [List.nil_append, List.append_nil] using patched

theorem patchFirst_cons_of_uniform {run : Text} (uniform : Uniform run) (pieces : List Text) :
    patchFirst needle (run :: pieces) =
      if needle = run then (needle ++ trueSuffix) :: pieces
      else run :: patchFirst needle pieces := by
  rw [patchFirst_cons token]
  by_cases spelled : needle = run
  · subst spelled
    rw [if_pos ((mem_tokens_iff_of_uniform token uniform).mpr rfl), if_pos rfl, patchOne_self token]
  · rw [if_neg fun member => spelled ((mem_tokens_iff_of_uniform token uniform).mp member),
      if_neg spelled]

theorem uniform_patched : Uniform (needle ++ trueSuffix) := by
  refine ⟨true, List.forall_mem_append.mpr ⟨token.inside, ?_⟩⟩
  exact List.all_eq_true.mp (by decide +kernel)

theorem uniform_patchFirst {pieces : List Text} (uniform : ∀ piece ∈ pieces, Uniform piece) :
    ∀ piece ∈ patchFirst needle pieces, Uniform piece := by
  induction pieces with
  | nil => exact uniform
  | cons piece pieces inductionHypothesis =>
      rw [List.forall_mem_cons] at uniform
      rw [patchFirst_cons_of_uniform token uniform.1]
      split
      · exact List.forall_mem_cons.mpr ⟨uniform_patched token, uniform.2⟩
      · exact List.forall_mem_cons.mpr ⟨uniform.1, inductionHypothesis uniform.2⟩

end

/-! ## All patches in one pass -/

/-- Each run in turn takes a patch that is meant for it, while there is one. -/
def markRuns : (selectors pieces : List Text) → List Text
  | _, [] => []
  | selectors, run :: pieces =>
      (if run ∈ selectors then run ++ trueSuffix else run) ::
        markRuns (selectors.erase run) pieces

theorem markRuns_nil (pieces : List Text) : markRuns [] pieces = pieces := by
  induction pieces with
  | nil => rfl
  | cons run pieces inductionHypothesis =>
      rw [markRuns, if_neg List.not_mem_nil, List.erase_nil, inductionHypothesis]

theorem markRuns_of_perm {selectors others : List Text} (perm : selectors.Perm others)
    (pieces : List Text) : markRuns selectors pieces = markRuns others pieces := by
  induction pieces generalizing selectors others with
  | nil => rfl
  | cons run pieces inductionHypothesis =>
      rw [markRuns, markRuns, inductionHypothesis (perm.erase run)]
      simp only [perm.mem_iff]

/-- A patch that is made ahead of the pass is made in the pass. -/
theorem markRuns_patchFirst {first : Text} {selectors pieces : List Text} (token : Token first)
    (others : ∀ selector ∈ selectors, Token selector)
    (uniform : ∀ piece ∈ pieces, Uniform piece) :
    markRuns selectors (patchFirst first pieces) = markRuns (first :: selectors) pieces := by
  induction pieces generalizing selectors with
  | nil => rfl
  | cons run pieces inductionHypothesis =>
      rw [List.forall_mem_cons] at uniform
      rw [patchFirst_cons_of_uniform token uniform.1, markRuns]
      by_cases spelled : first = run
      · subst spelled
        -- what is patched has an equals sign in it, so no selector spells it
        have finished : first ++ trueSuffix ∉ selectors := by
          intro listed
          exact (others _ listed).unset (by simp [trueSuffix])
        rw [if_pos rfl, if_pos List.mem_cons_self, List.erase_cons_head, markRuns,
          if_neg finished, List.erase_of_not_mem finished]
      · have swapped : (first :: selectors).erase run = first :: selectors.erase run :=
          List.erase_cons_tail (by simpa using spelled)
        have fewer : ∀ selector ∈ selectors.erase run, Token selector :=
          fun selector member => others selector (List.mem_of_mem_erase member)
        rw [if_neg spelled, markRuns, swapped, inductionHypothesis fewer uniform.2]
        simp only [List.mem_cons, Ne.symm spelled, false_or]

theorem patchEach_eq_markRuns {selectors pieces : List Text}
    (sought : ∀ selector ∈ selectors, Token selector)
    (uniform : ∀ piece ∈ pieces, Uniform piece) :
    patchEach pieces selectors = markRuns selectors pieces := by
  induction selectors generalizing pieces with
  | nil => exact (markRuns_nil pieces).symm
  | cons first selectors inductionHypothesis =>
      rw [List.forall_mem_cons] at sought
      calc
        patchEach pieces (first :: selectors)
          = patchEach (patchFirst first pieces) selectors := rfl
        _ = markRuns selectors (patchFirst first pieces) :=
            inductionHypothesis sought.2 (uniform_patchFirst sought.1 uniform)
        _ = markRuns (first :: selectors) pieces :=
            markRuns_patchFirst sought.1 sought.2 uniform

/-- A run is patched if fewer of its like stand before it than there are patches for it. -/
theorem markRuns_eq_mapIdx (selectors pieces : List Text) :
    markRuns selectors pieces =
      pieces.mapIdx fun i run =>
        if (pieces.take i).count run < selectors.count run then run ++ trueSuffix else run := by
  induction pieces generalizing selectors with
  | nil => rfl
  | cons first pieces inductionHypothesis =>
      rw [markRuns, inductionHypothesis, List.mapIdx_cons]
      simp only [List.take_zero, List.count_nil, List.count_pos_iff, List.take_succ_cons]
      refine congrArg (List.cons _) (congrArg (fun f => List.mapIdx f pieces) ?_)
      funext i run
      refine if_congr ?_ rfl rfl
      -- one patch fewer is left for the like of `first`, and one more of them stands before
      rw [List.count_erase, List.count_cons]
      split <;> omega

theorem patchAll_eq_markRuns {selectors : List Text}
    (sought : ∀ selector ∈ selectors, Token selector) (text : Text) :
    patchAll text selectors = (markRuns selectors (runs text)).flatten := by
  calc
    patchAll text selectors
      = patchAll (runs text).flatten selectors := by rw [flatten_runs]
    _ = (patchEach (runs text) selectors).flatten :=
        (flatten_patchEach (allParted_runs text) sought).symm
    _ = (markRuns selectors (runs text)).flatten := by
        rw [patchEach_eq_markRuns sought fun run => uniform_of_mem_runs]

end Patch

/-- Patches of selectors that are tokens: of the runs that spell a selector, the first ones are
followed by `=true`, as many as there are patches for it, and nothing else changes.  The order of
the patches plays no part. -/
theorem applyReplacements_marks_runs (text : Text) (replacements : List Replacement)
    (tokens : ∀ replacement ∈ replacements, Patch.Token replacement.selector) :
    applyReplacements text replacements =
        ((Patch.runs text).mapIdx fun i run =>
          if ((Patch.runs text).take i).count run <
              (replacements.map Replacement.selector).count run then
            run ++ trueSuffix
          else run).flatten ∧
      ∀ others : List Replacement, others.Perm replacements →
        applyReplacements text others = applyReplacements text replacements := by
  have marked (patches : List Replacement)
      (sought : ∀ replacement ∈ patches, Patch.Token replacement.selector) :=
    Patch.patchAll_eq_markRuns (List.forall_mem_map.mpr sought) text
  constructor
  · rw [applyReplacements, marked replacements tokens, Patch.markRuns_eq_mapIdx]
  · intro others perm
    have sought : ∀ replacement ∈ others, Patch.Token replacement.selector :=
      fun replacement member => tokens replacement (perm.mem_iff.mp member)
    rw [applyReplacements, applyReplacements, marked others sought, marked replacements tokens,
      Patch.markRuns_of_perm (perm.map Replacement.selector)]

def alikeNames : Text :=
  "data-test-a-b data-test-a x/data-test-a data-test-a".toList

/-- Three patches for `data-test-a`, which stands there alone only twice. -/
def alikePatches : List Replacement :=
  ["data-test-a", "data-test-a-b", "data-test-a", "data-test-a"].map fun name =>
    { selector := name.toList, loc := default }

theorem applyReplacements_marks_runs_alike :
    applyReplacements alikeNames alikePatches =
        "data-test-a-b=true data-test-a=true x/data-test-a data-test-a=true".toList ∧
      applyReplacements alikeNames alikePatches.reverse =
        "data-test-a-b=true data-test-a=true x/data-test-a data-test-a=true".toList := by
  have tokens : ∀ replacement ∈ alikePatches, Patch.Token replacement.selector := by
    have letters : ∀ replacement ∈ alikePatches,
        replacement.selector ≠ [] ∧ replacement.selector.all Patch.isTokenChar ∧
          '=' ∉ replacement.selector := by
      decide +kernel
    intro replacement member
    obtain ⟨nonempty, inside, unset⟩ := letters replacement member
    exact ⟨nonempty, List.all_eq_true.mp inside, unset⟩
  obtain ⟨marked, anyOrder⟩ := applyReplacements_marks_runs alikeNames alikePatches tokens
  have forwards := marked.trans (by decide +kernel :
    _ = "data-test-a-b=true data-test-a=true x/data-test-a data-test-a=true".toList)
  exact ⟨forwards, (anyOrder _ (List.reverse_perm alikePatches)).trans forwards⟩

end TemplateSelectors
