import TemplateSelectors.Selector
import TemplateSelectors.Walk

/-!
# Finding selectors

The positional selectors of a template in document order: those of mustaches and
blocks, not those of modifiers or of calls inside an expression.
-/

set_option autoImplicit false

namespace TemplateSelectors

structure SelectorHit where
  selector : Text
  loc : SourceSpan
deriving DecidableEq, Repr

def Tag.selectorHits (pattern : SelectorPattern) (tag : Tag) : List SelectorHit :=
  tag.params.filterMap fun param =>
    (pattern.selectorOf? param).map fun selector => ⟨selector, param.loc⟩

/-- Collects the selectors of every mustache and block. -/
def SelectorHit.collector (pattern : SelectorPattern) : Visitor (List SelectorHit) where
  visit
    | .mustache mustache, hits => (.proceed, hits ++ mustache.tag.selectorHits pattern)
    | .block block, hits => (.proceed, hits ++ block.opening.selectorHits pattern)
    | _, hits => (.proceed, hits)
  leave _ hits := hits

def Template.selectorHits (pattern : SelectorPattern) (template : Template) : List SelectorHit :=
  Walk.finalState (template.walk (SelectorHit.collector pattern) [])

end TemplateSelectors
