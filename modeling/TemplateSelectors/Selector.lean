import TemplateSelectors.Regex.Pattern
import TemplateSelectors.Template.Tree

/-!
# Selectors

A positional argument is a selector when it is a path, neither a literal nor a
call, whose text follows a naming convention.  The convention is a regular
expression that has to occur in the text.
-/

set_option autoImplicit false

namespace TemplateSelectors

structure SelectorPattern where
  source : Text
  regex : Regex
deriving DecidableEq, Repr

namespace SelectorPattern

def defaultStart : Text :=
  ['d', 'a', 't', 'a', '-', 't', 'e', 's', 't', '-']

/-- Texts that start with `data-test-`. -/
def default : SelectorPattern where
  source := '^' :: defaultStart
  regex := .seqAll (.start :: defaultStart.map fun c => .symbol (.single c.toNat))

def read (pattern : Text) : Except PatternError SelectorPattern :=
  (Pattern.read pattern).map fun regex => ⟨pattern, regex⟩

def follows (pattern : SelectorPattern) (text : Text) : Bool :=
  pattern.regex.occursIn (text.map Char.toNat)

/-- The selector that a positional argument is, if it is one. -/
def selectorOf? (pattern : SelectorPattern) (param : Param) : Option Text :=
  match param.value with
  | .path path => if pattern.follows path.text then some path.text else none
  | .literal _ => none
  | .call _ => none

def isSelector (pattern : SelectorPattern) (param : Param) : Bool :=
  (pattern.selectorOf? param).isSome

end SelectorPattern

end TemplateSelectors
