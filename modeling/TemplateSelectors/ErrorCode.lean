/-!
# Error codes

The codes with which a run ends, and their names in responses.
-/

set_option autoImplicit false

namespace TemplateSelectors

inductive ErrorCode where
  | selectorsFound
  /-- A pattern or a directory that was asked for is no good. -/
  | invalidArguments
  | templateError
  | applyError
  | internalError
deriving DecidableEq, Repr

namespace ErrorCode

def number : ErrorCode → Nat
  | .selectorsFound => 1
  | .invalidArguments => 2
  | .templateError => 3
  | .applyError => 4
  | .internalError => 10

def name : ErrorCode → String
  | .selectorsFound => "SelectorsFound"
  | .invalidArguments => "InvalidArguments"
  | .templateError => "TemplateError"
  | .applyError => "ApplyError"
  | .internalError => "InternalError"

def all : List ErrorCode :=
  [.selectorsFound, .invalidArguments, .templateError, .applyError, .internalError]

def ofName? (name : String) : Option ErrorCode :=
  all.find? fun code => code.name == name

end ErrorCode

end TemplateSelectors
