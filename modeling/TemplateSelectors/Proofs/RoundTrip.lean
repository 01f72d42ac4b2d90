import Mathlib
import TemplateSelectors.Proofs.Scanning

/-!
# Printing what was read

A template that was read prints as its source, character for character: the leaves of the tree
are the items of the source, in their order.
-/

set_option autoImplicit false

namespace TemplateSelectors

theorem exists_ok_of_isOk {ε α : Type} {result : Except ε α} (accepted : result.isOk = true) :
    ∃ value, result = .ok value := by
  cases result with
  | error error => cases accepted
  | ok value => exact ⟨value, rfl⟩

namespace Template

/-- A template that was read prints as its source. -/
theorem print_of_parse {source : Text} {template : Template}
    (parsed : parse source = .ok template) : template.print = source := by
  rw [← template.print_leaves]
  exact printAll_leaves_of_parse parsed

/-- An escape, a comment, whitespace control and a chain with an else tag behind it. -/
def nestedChain : Text :=
  ("\\\x7b\x7ba \x7b\x7b~#if x as |y|\x7d\x7d\x7b\x7b! c \x7d\x7d\x7b\x7belse if (f g=1)\x7d\x7d" ++
    "\x7b\x7bh [i j]~\x7d\x7d\x7b\x7b^\x7d\x7dk\x7b\x7b/if\x7d\x7d").toList

theorem print_of_parse_nestedChain :
    ∃ template, parse nestedChain = .ok template ∧ template.print = nestedChain := by
  have accepted : (parse nestedChain).isOk = true := by cbv
  obtain ⟨template, parsed⟩ := exists_ok_of_isOk accepted
  exact ⟨template, parsed, print_of_parse parsed⟩

end Template

end TemplateSelectors
