import TemplateSelectors.Text

/-!
# Checked differences and cuts

Numbers that are subtracted and lists that are cut by numbers, with the checks that make both
possible: a difference does not fall below zero, and a cut has its ends in order and inside.
-/

set_option autoImplicit false

namespace TemplateSelectors

def minus? (whole part : Nat) : Option Nat :=
  if part ≤ whole then some (whole - part) else none

theorem minus?_of_le {whole part : Nat} (fits : part ≤ whole) :
    minus? whole part = some (whole - part) :=
  if_pos fits

section Between

variable {α : Type}

/-- The members from number `start` up to number `stop`; refused when the ends are out of order
or past the end. -/
def between? (start stop : Nat) (members : List α) : Option (List α) :=
  if start ≤ stop ∧ stop ≤ members.length then some ((members.take stop).drop start) else none

theorem between?_of_le {start stop : Nat} {members : List α} (order : start ≤ stop)
    (inside : stop ≤ members.length) :
    between? start stop members = some ((members.take stop).drop start) :=
  if_pos ⟨order, inside⟩

end Between

end TemplateSelectors
