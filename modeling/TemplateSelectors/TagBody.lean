import TemplateSelectors.Text

/-!
# The inside of a tag

The syntax between the opener and the closer of a tag, as it is written:

    tag         := layout? expr (layout arg)* blockparams? layout?
    arg         := id layout? "=" layout? expr | expr
    expr        := "(" layout? expr (layout arg)* layout? ")" | string | path
    path        := "@"? segment (("." | "/") segment)*
    segment     := ".." | "[" [^\]]* "]" | id
    blockparams := layout "as" layout "|" [^|]* "|"

A `TagBody` keeps every character, so its text is the text that it was read from.
Numbers and keywords are written like paths and told apart later.
-/

set_option autoImplicit false

namespace TemplateSelectors

namespace TagBody

mutual

inductive Term where
  | path (text : Text)
  | quoted (text : Text)
  | call (leading : Text) (callee : Term) (args : Arguments) (trailing : Text)

/-- Positional and keyword arguments in the order in which they are written. -/
inductive Arguments where
  | done
  | positional (leading : Text) (value : Term) (more : Arguments)
  | keyword (leading key separator : Text) (value : Term) (more : Arguments)

end

mutual

def Term.text : Term → Text
  | .path t => t
  | .quoted t => t
  | .call leading callee args trailing =>
      '(' :: leading ++ callee.text ++ args.text ++ trailing ++ [')']

def Arguments.text : Arguments → Text
  | .done => []
  | .positional leading value more => leading ++ value.text ++ more.text
  | .keyword leading key separator value more =>
      leading ++ key ++ separator ++ value.text ++ more.text

end

mutual

def Term.size : Term → Nat
  | .path t => t.size
  | .quoted t => t.size
  | .call leading callee args trailing =>
      leading.size + callee.size + args.size + trailing.size + 2

def Arguments.size : Arguments → Nat
  | .done => 0
  | .positional leading value more => leading.size + value.size + more.size
  | .keyword leading key separator value more =>
      leading.size + key.size + separator.size + value.size + more.size

end

mutual

@[simp]
theorem Term.size_text (term : Term) : term.text.size = term.size := by
  cases term with
  | path => rfl
  | quoted => rfl
  | call leading callee args trailing =>
      simp only [Term.text, Term.size, Text.size_append, Text.size_cons, Text.size_nil,
        Term.size_text callee, Arguments.size_text args,
        show Char.utf8Size '(' = 1 from rfl, show Char.utf8Size ')' = 1 from rfl]
      omega

@[simp]
theorem Arguments.size_text (args : Arguments) : args.text.size = args.size := by
  cases args with
  | done => rfl
  | positional leading value more =>
      simp only [Arguments.text, Arguments.size, Text.size_append, Term.size_text value,
        Arguments.size_text more]
  | keyword leading key separator value more =>
      simp only [Arguments.text, Arguments.size, Text.size_append, Term.size_text value,
        Arguments.size_text more]

end

/-- The white space that separates the parts of a tag. -/
def isLayout (c : Char) : Bool :=
  c == ' ' || c == '\t' || c == '\r' || c == '\n'

/-- The characters with a meaning of their own. -/
def reserved : List Char :=
  ['!', '"', '#', '%', '&', '\'', '(', ')', '*', '+', ',', '.', '/', ';', '<', '=', '>', '@',
    '[', '\\', ']', '^', '`', '{', '|', '}', '~']

/-- The characters of an identifier: all but white space and the reserved ones. -/
def isIdChar (c : Char) : Bool :=
  !Text.isSpace c && !reserved.contains c

end TagBody

structure TagBody where
  leading : Text
  callee : TagBody.Term
  args : TagBody.Arguments
  blockParams : Option Text
  trailing : Text

def TagBody.text (body : TagBody) : Text :=
  body.leading ++ body.callee.text ++ body.args.text ++ body.blockParams.getD [] ++ body.trailing

end TemplateSelectors
