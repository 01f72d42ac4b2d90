import TemplateSelectors.Log
import TemplateSelectors.MigrateError
import TemplateSelectors.Template.Parser

/-!
# Migrating a template

A source is parsed, promoted, printed and patched.  When the rule changes nothing,
the source is returned as it is.
-/

set_option autoImplicit false

namespace TemplateSelectors

structure MigrationResult where
  output : Text
  /-- Whether the output differs from the source. -/
  changed : Bool
  outcome : PromotionOutcome
deriving DecidableEq, Repr

def migrateSource (options : PromoteOptions) (source : Text) :
    Except MigrateError MigrationResult :=
  match Template.parse source with
  | .error error => .error (.parse error)
  | .ok template =>
      match template.promote options with
      | (_, .error error) => .error (.promote error)
      | (promoted, .ok outcome) =>
          let output :=
            if outcome.changed then applyReplacements promoted.print outcome.replacements
            else source
          .ok ⟨output, output != source, outcome⟩

def migrationLog (options : PromoteOptions) (source : Text) : List LogEvent :=
  match Template.parse source with
  | .error _ => []
  | .ok template =>
      template.promotionLog options ++
        match template.promote options with
        | (promoted, .ok outcome) =>
            if outcome.changed then patchLog promoted.print outcome.replacements else []
        | (_, .error _) => []

end TemplateSelectors
