import TemplateSelectors.Diff
import TemplateSelectors.Migration
import TemplateSelectors.Progress
import TemplateSelectors.Project
import TemplateSelectors.Response

/-!
# Batch runs

A run finds the templates of a project and goes through them one by one.  What keeps
one template from being processed is reported and does not touch the others; only a
bad root or a bad filter ends the run before it begins.
-/

set_option autoImplicit false

namespace TemplateSelectors

inductive Stage where
  | read
  | parse
  | transform
  | write
deriving DecidableEq, Repr

def Stage.name : Stage → String
  | .read => "read"
  | .parse => "parse"
  | .transform => "transform"
  | .write => "write"

structure FileFailure where
  path : Text
  stage : Stage
  message : String
deriving DecidableEq, Repr

def FileFailure.render (failure : FileFailure) : String :=
  "Could not " ++ failure.stage.name ++ " file " ++ String.ofList failure.path ++ ": " ++
    failure.message

def FileFailure.response (failure : FileFailure) : Response.Failure :=
  ⟨String.ofList failure.path, failure.stage.name, failure.message⟩

structure FoundSelector where
  path : Text
  selector : Text
  position : Position
deriving DecidableEq, Repr

def FoundSelector.render (found : FoundSelector) : String :=
  String.ofList found.path ++ ":" ++ found.position.render ++ " " ++ String.ofList found.selector

def FoundSelector.response (found : FoundSelector) : Response.Selector :=
  ⟨String.ofList found.path, found.position.line, found.position.column,
    String.ofList found.selector⟩

structure MigrateConfig where
  cwd : Text
  /-- The names that lead to it; none if it lies outside the project. -/
  root : Option (List Text)
  /-- Globs; none mean the default ones. -/
  patterns : List Text
  options : PromoteOptions
  dryRun : Bool

namespace MigrateConfig

def defaultPatterns : List Text :=
  ["app/**/*.hbs".toList, "addon/**/*.hbs".toList]

def filter (config : MigrateConfig) : Except FilterError FileFilter :=
  FileFilter.read (if config.patterns.isEmpty then defaultPatterns else config.patterns)

def discover (config : MigrateConfig) (project : Project) :
    Except MigrateError (List (List Text × Content)) :=
  match config.root with
  | none => .error (.invalidRoot config.cwd)
  | some root =>
      if project.isDirectory root then
        match config.filter with
        | .error error => .error (.invalidGlob error)
        | .ok filter => .ok (project.search root filter)
      else .error (.invalidRoot config.cwd)

end MigrateConfig

def notText : String :=
  "stream did not contain valid UTF-8"

def noFile : String :=
  "No such file or directory (os error 2)"

structure Run (ρ : Type) where
  result : Except MigrateError ρ
  progress : List ProgressEvent
  log : List LogEvent
  project : Project

def openingEvents (activity : String) (count : Nat) : List ProgressEvent :=
  [.step 1 "Looking for templates...",
    .step 2 (activity ++ " " ++ toString count ++ " templates..."), .start count]

/-! ## Migrating -/

def Stage.ofError : MigrateError → Stage
  | .parse _ => .parse
  | .promote _ => .transform
  | _ => .read

structure MigrationReport where
  filesScanned : Nat
  changed : List Text
  failures : List FileFailure
  /-- The differences of the changed files, on a dry run only. -/
  diffs : List Text
deriving DecidableEq, Repr

structure MigrationState where
  project : Project
  report : MigrationReport
  progress : List ProgressEvent
  log : List LogEvent

namespace MigrationState

def note (events : List LogEvent) (state : MigrationState) : MigrationState :=
  { state with log := state.log ++ events }

/-- Takes up that a file changes: the file is written, or on a dry run the difference kept. -/
def change (config : MigrateConfig) (root names : List Text) (source output : Text)
    (state : MigrationState) : MigrationState :=
  let path := FilePath.ofNames names
  let state :=
    if config.dryRun then
      { state with report.diffs := state.report.diffs ++ [unifiedDiff path source output] }
    else
      { state with project := state.project.write (root ++ names) (.text output) }.note
        [.migrated path]
  { state with report.changed := state.report.changed ++ [path] }

/-- Migrates the file that `names` lead to from the root, as it is by now. -/
def migrateFile (config : MigrateConfig) (root names : List Text) (state : MigrationState) :
    MigrationState × Option FileFailure :=
  let path := FilePath.ofNames names
  match state.project.find? (root ++ names) with
  | none => (state, some ⟨path, .read, noFile⟩)
  | some (.binary _) => (state, some ⟨path, .read, notText⟩)
  | some (.text source) =>
      let state := state.note (migrationLog config.options source)
      match migrateSource config.options source with
      | .error error =>
          let unparsed :=
            match error with
            | .parse error => [.unparsed error source path]
            | _ => []
          (state.note unparsed, some ⟨path, Stage.ofError error, error.message⟩)
      | .ok result =>
          if result.changed then (state.change config root names source result.output, none)
          else (state.note [.unchanged path], none)

def fail (failure : FileFailure) (state : MigrationState) : MigrationState :=
  { state.note [.failed failure.render] with
    report.failures := state.report.failures ++ [failure]
    progress := state.progress ++ [.interrupt failure.render] }

/-- Migrates the next file and goes on whatever becomes of it. -/
def next (config : MigrateConfig) (root : List Text) (state : MigrationState)
    (names : List Text) : MigrationState :=
  let state :=
    match state.migrateFile config root names with
    | (state, none) => state
    | (state, some failure) => state.fail failure
  { state with progress := state.progress ++ [.tick] }

end MigrationState

/-- Migrates every template.  The run is one whose log is kept and not read: where an event of it
has no wording (`LogEvent.message?`), a run that writes out events of that level as it goes would
break off there, and the files behind would stay as they are. -/
def runMigration (config : MigrateConfig) (project : Project) : Run MigrationReport :=
  match config.discover project with
  | .error error => ⟨.error error, [], [], project⟩
  | .ok found =>
      let opened : MigrationState :=
        { project := project
          report := ⟨found.length, [], [], []⟩
          progress := openingEvents "Migrating" found.length
          log := [.foundTemplates found.length config.cwd] }
      let ended :=
        (found.map Prod.fst).foldl (MigrationState.next config (config.root.getD [])) opened
      { result := .ok ended.report
        progress := ended.progress ++ [.finish]
        log :=
          ended.log ++
            [.finished ended.report.changed.length ended.report.filesScanned
              ended.report.failures.length]
        project := ended.project }

/-! ## Checking -/

structure CheckReport where
  filesScanned : Nat
  selectors : List FoundSelector
  failures : List FileFailure
deriving DecidableEq, Repr

def checkContent (pattern : SelectorPattern) (path : Text) :
    Content → Except FileFailure (List FoundSelector)
  | .binary _ => .error ⟨path, .read, notText⟩
  | .text source =>
      match Template.parse source with
      | .error error => .error ⟨path, .parse, error.message⟩
      | .ok template =>
          .ok ((template.selectorHits pattern).map fun hit =>
            ⟨path, hit.selector, hit.loc.start⟩)

def checkFailure? : Except FileFailure (List FoundSelector) → Option FileFailure
  | .error failure => some failure
  | .ok _ => none

def runCheck (config : MigrateConfig) (project : Project) : Run CheckReport :=
  match config.discover project with
  | .error error => ⟨.error error, [], [], project⟩
  | .ok found =>
      let files := found.map fun file =>
        checkContent config.options.pattern (FilePath.ofNames file.1) file.2
      let failures := files.filterMap checkFailure?
      { result := .ok ⟨files.length, files.flatMap fun file => (file.toOption).getD [], failures⟩
        progress :=
          openingEvents "Checking" files.length ++
            files.flatMap (fun file =>
              match file with
              | .error failure => [.interrupt failure.render, .tick]
              | .ok _ => [.tick]) ++ [.finish]
        log :=
          .foundTemplates files.length config.cwd ::
            failures.map fun failure => .failed failure.render
        project := project }

end TemplateSelectors
