import TemplateSelectors.Location

/-!
# Parse errors

Why a text is not a template.  An error has a cause, the bytes that it is about
and the position at which they start; the wording is fixed by `message` and, for
the note beside the source, by `label`.
-/

set_option autoImplicit false

namespace TemplateSelectors

/-- Why the inside of a tag is not an invocation. -/
inductive ExpressionFault where
  /-- Something is left over after the invocation. -/
  | unexpected (found : Char)
  | empty
  | expected
  | positionalAfterKeyword
deriving DecidableEq, Repr

def ExpressionFault.message : ExpressionFault → String
  | .unexpected found => s!"unexpected `{found}`"
  | .empty => "empty mustache"
  | .expected => "expected a path, literal or sub-expression"
  | .positionalAfterKeyword => "positional argument after keyword argument"

inductive Unclosed where
  | mustache
  | comment
  | block (name : Text)
deriving DecidableEq, Repr

def Unclosed.describe : Unclosed → String
  | .mustache => "mustache"
  | .comment => "comment"
  | .block name => "block `" ++ String.ofList name ++ "`"

inductive Misplaced where
  | elseOutside (raw : Text)
  | elseAfterElse (raw : Text)
  | closeOutside (raw : Text)
deriving DecidableEq, Repr

def Misplaced.describe : Misplaced → String
  | .elseOutside raw => "`" ++ String.ofList raw ++ "` outside of a block"
  | .elseAfterElse raw => "`" ++ String.ofList raw ++ "` after `\x7b\x7belse\x7d\x7d`"
  | .closeOutside raw => "`" ++ String.ofList raw ++ "` without an open block"

inductive UnsupportedForm where
  | rawBlocks
  | partialBlocks
  | decoratorBlocks
  | inverseSections
  | partials
  | decorators
deriving DecidableEq, Repr

def UnsupportedForm.describe : UnsupportedForm → String
  | .rawBlocks => "raw blocks"
  | .partialBlocks => "partial blocks"
  | .decoratorBlocks => "decorator blocks"
  | .inverseSections => "inverse sections"
  | .partials => "partials"
  | .decorators => "decorators"

inductive ParseCause where
  | unclosed (what : Unclosed)
  | invalidExpression (fault : ExpressionFault)
  | mismatchedClose (expected : Text) (found : Text)
  | misplaced (what : Misplaced)
  | unsupported (form : UnsupportedForm)
deriving DecidableEq, Repr

/-- A cause with the bytes that it is about. -/
structure ParseError where
  cause : ParseCause
  span : Span
  position : Position
deriving DecidableEq, Repr

namespace ParseError

def offset (error : ParseError) : Nat :=
  error.span.start

def message (error : ParseError) : String :=
  let place := error.position.render
  match error.cause with
  | .unclosed what => "unclosed " ++ what.describe ++ " at " ++ place
  | .invalidExpression fault => "invalid expression at " ++ place ++ ": " ++ fault.message
  | .mismatchedClose expected found =>
      "`" ++ String.ofList found ++ "` at " ++ place ++ " does not close `" ++
        String.ofList expected ++ "`"
  | .misplaced what => "unexpected " ++ what.describe ++ " at " ++ place
  | .unsupported form => form.describe ++ " at " ++ place ++ " are not supported"

/-- The short form, for a note beside the source. -/
def label (error : ParseError) : String :=
  match error.cause with
  | .unclosed what => "unclosed " ++ what.describe
  | .invalidExpression fault => fault.message
  | .mismatchedClose expected _ => "expected `\x7b\x7b/" ++ String.ofList expected ++ "\x7d\x7d`"
  | .misplaced what => "unexpected " ++ what.describe
  | .unsupported form => form.describe ++ " are not supported"

end ParseError

end TemplateSelectors
