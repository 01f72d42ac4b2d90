import TemplateSelectors.Patch
import TemplateSelectors.SelectorHit
import TemplateSelectors.Snippet

/-!
# Log

What is noted down during a migration, and how it reads.
-/

set_option autoImplicit false

namespace TemplateSelectors

inductive LogLevel where
  | debug
  | info
  | warn
deriving DecidableEq, Repr

def LogLevel.name : LogLevel → String
  | .debug => "DEBUG"
  | .info => "INFO"
  | .warn => "WARN"

inductive LogEvent where
  | promotingByPatch (selector name : Text) (position : Position)
  | promoting (count : Nat) (name : Text) (position : Position)
  | nothingToPatch (selector : Text)
  | foundTemplates (count : Nat) (root : Text)
  | unparsed (error : ParseError) (source path : Text)
  | unchanged (path : Text)
  | migrated (path : Text)
  | failed (message : String)
  | finished (changed scanned failures : Nat)
deriving DecidableEq, Repr

namespace LogEvent

def level : LogEvent → LogLevel
  | .promotingByPatch _ _ _ => .debug
  | .promoting _ _ _ => .debug
  | .nothingToPatch _ => .debug
  | .foundTemplates _ _ => .debug
  | .unparsed _ _ _ => .debug
  | .unchanged _ => .debug
  | .migrated _ => .info
  | .failed _ => .warn
  | .finished _ _ _ => .info

/-- The wording of an event.  An event without one stands for an error that cannot be shown beside
its source, such as one that marks a part of a character: writing it out fails. -/
def message? : LogEvent → Option String
  | .promotingByPatch selector name position =>
      some ("promoting `" ++ String.ofList selector ++ "` in `" ++ String.ofList name ++ "` at " ++
        position.render ++ " by patch-up")
  | .promoting count name position =>
      some ("promoting " ++ toString count ++ " selector(s) in `" ++ String.ofList name ++
        "` at " ++ position.render)
  | .nothingToPatch selector =>
      some ("no occurrence of `" ++ String.ofList selector ++ "` left to patch")
  | .foundTemplates count root =>
      some ("found " ++ toString count ++ " templates under " ++ String.ofList root)
  | .unparsed error source path => error.pretty? source path
  | .unchanged path => some (String.ofList path ++ " unchanged")
  | .migrated path => some ("migrated " ++ String.ofList path)
  | .failed message => some message
  | .finished changed scanned failures =>
      some (toString changed ++ " of " ++ toString scanned ++ " templates changed, " ++
        toString failures ++ " failed")

def render? (event : LogEvent) : Option String :=
  event.message?.map fun message => event.level.name ++ " " ++ message

/-- How events read, up to the first that has no wording, and whether all have one. -/
def renderAll : List LogEvent → List String × Bool
  | [] => ([], true)
  | event :: events =>
      match event.render? with
      | none => ([], false)
      | some line =>
          let (lines, complete) := renderAll events
          (line :: lines, complete)

end LogEvent

def Tag.promotionLog (options : PromoteOptions) (tag : Tag) : List LogEvent :=
  match tag.promote options with
  | .error _ => []
  | .ok (change, _) =>
      match change.changed, change.replacement with
      | false, _ => []
      | true, some replacement =>
          [.promotingByPatch replacement.selector tag.name replacement.loc.start]
      | true, none =>
          [.promoting (tag.selectorHits options.pattern).length tag.name tag.loc.start]

/-- Notes down the promotion of each mustache and block, up to the first error. -/
def LogEvent.promotionVisitor (options : PromoteOptions) : Visitor (List LogEvent) :=
  let note (tag : Tag) (events : List LogEvent) : Verdict × List LogEvent :=
    match tag.promote options with
    | .error _ => (.stop, events)
    | .ok _ => (.proceed, events ++ tag.promotionLog options)
  { visit
      | .mustache mustache, events => note mustache.tag events
      | .block block, events => note block.opening events
      | _, events => (.proceed, events)
    leave _ events := events }

def Template.promotionLog (options : PromoteOptions) (template : Template) : List LogEvent :=
  Walk.finalState (template.walk (LogEvent.promotionVisitor options) [])

def patchLog (text : Text) (replacements : List Replacement) : List LogEvent :=
  (Patch.unpatched text (replacements.map Replacement.selector)).map .nothingToPatch

end TemplateSelectors
