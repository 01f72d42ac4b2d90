import TemplateSelectors.Text

/-!
# Markup around a tag

Just enough of the surrounding markup is followed to tell a tag among the
attributes of an element from a tag in content or in the value of an attribute.
-/

set_option autoImplicit false

namespace TemplateSelectors

structure Markup where
  inTag : Bool
  quote : Option Char
  /-- An equals sign came last, white space apart. -/
  afterEquals : Bool
deriving DecidableEq, Repr, Inhabited

namespace Markup

def initial : Markup :=
  ⟨false, none, false⟩

def isGap (c : Char) : Bool :=
  c == ' ' || c == '\t' || c == '\n' || c == '\x0c' || c == '\r'

def opensTag (next : Option Char) : Bool :=
  next.any fun c => c.isAlpha || c == '/'

/-- The state after one more character; `next` is the one that follows in the same
run of text. -/
def step (state : Markup) (c : Char) (next : Option Char) : Markup :=
  match state.quote with
  | some quote => if c = quote then { state with quote := none } else state
  | none =>
      if state.inTag then
        if c = '>' then { state with inTag := false, afterEquals := false }
        else if (c = '"' ∨ c = '\'') ∧ state.afterEquals then
          { state with quote := some c, afterEquals := false }
        else if c = '=' then { state with afterEquals := true }
        else if isGap c then state
        else { state with afterEquals := false }
      else if c = '<' ∧ opensTag next then { state with inTag := true, afterEquals := false }
      else state

def advance (state : Markup) : Text → Markup
  | [] => state
  | c :: rest => advance (state.step c rest.head?) rest

def atAttribute (state : Markup) : Bool :=
  state.inTag && state.quote.isNone && !state.afterEquals

/-- A tag that is an unquoted attribute value ends that value. -/
def afterTag (state : Markup) : Markup :=
  if state.quote.isNone then { state with afterEquals := false } else state

end Markup

end TemplateSelectors
