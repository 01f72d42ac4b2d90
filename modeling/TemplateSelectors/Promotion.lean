import TemplateSelectors.Selector
import TemplateSelectors.Walk.Editor

/-!
# Promotion

A positional selector becomes a keyword argument: `{{widget data-test-w}}` turns
into `{{widget data-test-w=true}}`.  A lone selector can be left in the text of its
tag and be patched after printing; the tag then stays clean and a `Replacement`
says what to patch.  Otherwise each selector becomes a pair before the pairs that
are there, and the tag is marked dirty.  Modifiers and calls are left alone.
-/

set_option autoImplicit false

namespace TemplateSelectors

def trueSuffix : Text :=
  ['=', 't', 'r', 'u', 'e']

structure PromoteOptions where
  pattern : SelectorPattern
  /-- Whether a lone selector is patched in the printed text. -/
  fastPath : Bool
deriving DecidableEq, Repr

def PromoteOptions.default : PromoteOptions :=
  ⟨.default, true⟩

inductive PromoteError where
  | missingHash (name : Text) (loc : SourceSpan)
deriving DecidableEq, Repr

def PromoteError.message : PromoteError → String
  | .missingHash name loc =>
      "`" ++ String.ofList name ++ "` at " ++ loc.start.render ++ " has no keyword argument list"

structure Replacement where
  selector : Text
  loc : SourceSpan
deriving DecidableEq, Repr

def Replacement.text (replacement : Replacement) : Text :=
  replacement.selector ++ trueSuffix

structure TagChange where
  changed : Bool
  replacement : Option Replacement
deriving DecidableEq, Repr

structure PromotionOutcome where
  changed : Bool
  /-- In document order. -/
  replacements : List Replacement
deriving DecidableEq, Repr

def PromotionOutcome.unchanged : PromotionOutcome :=
  ⟨false, []⟩

def selectorPair (candidate : Param) : HashPair :=
  { HashPair.ofValue candidate.value.print (.literal (.ofBool true)) with loc := candidate.loc }

/-- The pair that the only positional argument becomes: it keeps its white space and
grows to the right, without a bound for its column (`SourceSpan.extendStop`). -/
def solePair (candidate : Param) : HashPair :=
  { selectorPair candidate with
    leading := candidate.leading
    loc := candidate.loc.extendStop trueSuffix.length }

/-- The keyword arguments after the promotion of `candidates`; `sole` if there is but
one positional argument. -/
def Hash.promote (hash : Hash) (sole : Bool) (candidates : List Param) : Hash :=
  match sole, candidates with
  | true, [candidate] =>
      let pair := solePair candidate
      { pairs := pair :: hash.pairs
        loc := ⟨hash.loc.start.max candidate.loc.start, hash.loc.stop.max pair.loc.stop⟩ }
  | _, candidates => { hash with pairs := candidates.map selectorPair ++ hash.pairs }

def Tag.promote (options : PromoteOptions) (tag : Tag) : Except PromoteError (TagChange × Tag) :=
  let candidates := tag.params.filter options.pattern.isSelector
  let kept := tag.params.filter fun param => !options.pattern.isSelector param
  if candidates.isEmpty then .ok (⟨false, none⟩, tag)
  else
    match tag.hash with
    | none => .error (.missingHash tag.name tag.loc)
    | some hash =>
        match options.fastPath, candidates with
        | true, [candidate] =>
            .ok (⟨true, some ⟨candidate.value.print, candidate.loc⟩⟩, { tag with params := kept })
        | _, _ =>
            .ok (⟨true, none⟩,
              { tag with
                params := kept
                hash := some (hash.promote (tag.params.length == 1) candidates)
                source := none })

structure Promotion where
  outcome : PromotionOutcome
  error : Option PromoteError

namespace Promotion

def start : Promotion :=
  ⟨.unchanged, none⟩

def record (change : TagChange) (promotion : Promotion) : Promotion :=
  { promotion with
    outcome :=
      ⟨promotion.outcome.changed || change.changed,
        promotion.outcome.replacements ++ change.replacement.toList⟩ }

def apply (options : PromoteOptions) (tag : Tag) (promotion : Promotion) :
    Verdict × Tag × Promotion :=
  match tag.promote options with
  | .ok (change, promoted) => (.proceed, promoted, promotion.record change)
  | .error error => (.stop, tag, { promotion with error := some error })

def editor (options : PromoteOptions) : Editor Promotion where
  visit _ promotion := (.proceed, promotion)
  mustache m promotion := apply options m.tag promotion
  modifier m promotion := (.proceed, m.tag, promotion)
  block b promotion := apply options b.opening promotion
  path p promotion := (.proceed, p, promotion)
  leave _ promotion := promotion

end Promotion

/-- Applies the rule to a template.  After an error the tags before it stay promoted. -/
def Template.promote (options : PromoteOptions) (template : Template) :
    Template × Except PromoteError PromotionOutcome :=
  let edited := template.edit (Promotion.editor options) .start
  (edited.value,
    match edited.state.error with
    | some error => .error error
    | none => .ok edited.state.outcome)

end TemplateSelectors
