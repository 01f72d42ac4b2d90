import TemplateSelectors.ErrorCode
import TemplateSelectors.JsonValue
import TemplateSelectors.Location

/-!
# Responses

What a command answers in JSON.  Every response starts with its status and the
version of its form.
-/

set_option autoImplicit false

namespace TemplateSelectors

def Span.json (span : Span) : JsonValue :=
  .object [("start", .number span.start), ("end", .number span.stop)]

def Position.json (position : Position) : JsonValue :=
  .object [("line", .number position.line), ("column", .number position.column)]

def SourceSpan.json (place : SourceSpan) : JsonValue :=
  .object [("start", place.start.json), ("end", place.stop.json)]

namespace Response

/-- The version of the form of all responses. -/
def schemaVersion : String :=
  "1"

structure Failure where
  path : String
  stage : String
  message : String
deriving DecidableEq, Repr

def Failure.json (failure : Failure) : JsonValue :=
  .object [("path", .string failure.path), ("stage", .string failure.stage),
    ("message", .string failure.message)]

/-- A selector that is still positional. -/
structure Selector where
  path : String
  line : Nat
  column : Nat
  selector : String
deriving DecidableEq, Repr

def Selector.json (found : Selector) : JsonValue :=
  .object [("path", .string found.path), ("line", .number found.line),
    ("col", .number found.column), ("selector", .string found.selector)]

/-- A response with its status first. -/
def withStatus (status : String) (fields : List (String × JsonValue)) : JsonValue :=
  .object (("status", .string status) :: ("schema_version", .string schemaVersion) :: fields)

def migration (dryRun : Bool) (scanned : Nat) (changed : List String) (failures : List Failure) :
    JsonValue :=
  withStatus (if failures.isEmpty then "ok" else "partial")
    [("dry_run", .bool dryRun), ("files_scanned", .number scanned),
      ("files_changed", .array (changed.map .string)),
      ("failures", .array (failures.map Failure.json))]

def check (scanned : Nat) (selectors : List Selector) (failures : List Failure) : JsonValue :=
  withStatus (if selectors.isEmpty && failures.isEmpty then "ok" else "found")
    [("files_scanned", .number scanned), ("selectors", .array (selectors.map Selector.json)),
      ("failures", .array (failures.map Failure.json))]

def failure (code : ErrorCode) (message : String) : JsonValue :=
  withStatus "error"
    [("error", .object [("code", .string code.name), ("message", .string message)])]

def emit (response : JsonValue) : String :=
  response.pretty ++ "\n"

end Response

end TemplateSelectors
