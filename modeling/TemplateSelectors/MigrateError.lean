import TemplateSelectors.ErrorCode
import TemplateSelectors.FileFilter
import TemplateSelectors.ParseError
import TemplateSelectors.Promotion

/-!
# Errors of a migration

All that can end a run or keep a single template from being migrated.
-/

set_option autoImplicit false

namespace TemplateSelectors

inductive MigrateError where
  | invalidGlob (error : FilterError)
  | invalidSelectorPattern (error : PatternError)
  /-- There is no such directory to search. -/
  | invalidRoot (path : Text)
  | parse (error : ParseError)
  | promote (error : PromoteError)
deriving DecidableEq, Repr

namespace MigrateError

def message : MigrateError → String
  | .invalidGlob error => error.message
  | .invalidSelectorPattern error => "invalid selector pattern: " ++ error.message
  | .invalidRoot path => "not a directory: " ++ String.ofList path
  | .parse error => error.message
  | .promote error => error.message

def code : MigrateError → ErrorCode
  | .invalidGlob _ => .invalidArguments
  | .invalidSelectorPattern _ => .invalidArguments
  | .invalidRoot _ => .invalidArguments
  | .parse _ => .templateError
  | .promote _ => .templateError

end MigrateError

end TemplateSelectors
