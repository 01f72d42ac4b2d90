import TemplateSelectors.Promotion
import TemplateSelectors.Text.Alphanumeric

/-!
# Patching printed text

Each replacement puts `=true` behind the first free occurrence of its selector: one
that is a whole token and is not followed by an equals sign.  Where the selector
stood in the source plays no part.
-/

set_option autoImplicit false

namespace TemplateSelectors

namespace Patch

/-- The characters that continue a token on either side. -/
def isTokenChar (c : Char) : Bool :=
  Text.isAlphanumeric c || ['-', '_', '.', '@', '$', '/', ':', '='].contains c

def isFree (before after : Option Char) : Bool :=
  !before.any isTokenChar && !after.any isTokenChar

/-- Splits a text at the first free occurrence of `needle` into what stands before it, in
reverse, and what stands behind it.  Occurrences do not overlap: `skipped` characters still
belong to one that was not free.  `front` is what stands before the text, in reverse. -/
def splitFrom (needle : Text) (skipped : Nat) (front : Text) : Text → Option (Text × Text)
  | [] => none
  | c :: rest =>
      if 0 < skipped then splitFrom needle (skipped - 1) (c :: front) rest
      else
        match Text.after? needle (c :: rest) with
        | none => splitFrom needle 0 (c :: front) rest
        | some behind =>
            if isFree front.head? behind.head? then some (front, behind)
            else splitFrom needle (needle.length - 1) (c :: front) rest

theorem append_eq_of_splitFrom {needle front text before behind : Text} {skipped : Nat}
    (found : splitFrom needle skipped front text = some (before, behind)) :
    front.reverse ++ text = before.reverse ++ needle ++ behind := by
  induction text generalizing front skipped with
  | nil => simp [splitFrom] at found
  | cons c rest inductionHypothesis =>
      have onwards {skipped : Nat}
          (later : splitFrom needle skipped (c :: front) rest = some (before, behind)) :
          front.reverse ++ c :: rest = before.reverse ++ needle ++ behind := by
        simpa using inductionHypothesis later
      simp only [splitFrom] at found
      split at found
      · exact onwards found
      · split at found
        · exact onwards found
        · next after here =>
            split at found
            · simp only [Option.some.injEq, Prod.mk.injEq] at found
              obtain ⟨rfl, rfl⟩ := found
              rw [Text.eq_append_of_after? here, List.append_assoc]
            · exact onwards found

/-- Splits a text at the first free occurrence of `needle` into what stands before it, in
reverse, and what stands behind it; an empty needle has none. -/
def splitFree (needle text : Text) : Option (Text × Text) :=
  if needle.isEmpty then none else splitFrom needle 0 [] text

def rejoin (selector front behind : Text) : Text :=
  front.reverseAux (selector ++ trueSuffix ++ behind)

theorem rejoin_eq (selector front behind : Text) :
    rejoin selector front behind = front.reverse ++ selector ++ trueSuffix ++ behind := by
  simp [rejoin, List.reverseAux_eq]

def patchOne (text selector : Text) : Text :=
  match splitFree selector text with
  | some (front, behind) => rejoin selector front behind
  | none => text

def patchAll (text : Text) (selectors : List Text) : Text :=
  selectors.foldl patchOne text

def unpatched : (text : Text) → List Text → List Text
  | _, [] => []
  | text, selector :: rest =>
      match splitFree selector text with
      | some (front, behind) => unpatched (rejoin selector front behind) rest
      | none => selector :: unpatched text rest

end Patch

def applyReplacements (text : Text) (replacements : List Replacement) : Text :=
  Patch.patchAll text (replacements.map Replacement.selector)

end TemplateSelectors
