import TemplateSelectors.Batch

/-!
# Command line

The commands `migrate` and `check` with their options, what they write and the status
with which they end.
-/

set_option autoImplicit false

namespace TemplateSelectors

namespace CommandLine

inductive OutputFormat where
  | text
  | json
deriving DecidableEq, Repr

inductive Activity where
  | migrate
  | check
deriving DecidableEq, Repr

def activity? : String → Option Activity
  | "migrate" => some .migrate
  | "check" => some .check
  | _ => none

def format? : String → Option OutputFormat
  | "text" => some .text
  | "json" => some .json
  | _ => none

def logLevels : List String :=
  ["trace", "debug", "info", "warn", "error"]

/-- A command as it was asked for; what was not given is absent. -/
structure Arguments where
  patterns : List String
  cwd : Option String
  selectorPattern : Option String
  format : Option OutputFormat
  logLevel : Option String
  noFastPath : Bool
  dryRun : Bool

def Arguments.none : Arguments :=
  ⟨[], .none, .none, .none, .none, false, false⟩

inductive Request where
  | version
  | run (activity : Activity) (arguments : Arguments)
  | invalid

inductive ValueOption where
  | cwd
  | selectorPattern
  | format
  | logLevel
deriving DecidableEq, Repr

def valueOption? : String → Option ValueOption
  | "--cwd" => some .cwd
  | "--selector-pattern" => some .selectorPattern
  | "--format" => some .format
  | "--log-level" => some .logLevel
  | _ => none

/-- Takes up the value of an option; refused for a bad value and the second time. -/
def Arguments.set? (arguments : Arguments) (option : ValueOption) (value : String) :
    Option Arguments :=
  match option with
  | .cwd =>
      if arguments.cwd.isSome || value.isEmpty then .none
      else some { arguments with cwd := some value }
  | .selectorPattern =>
      if arguments.selectorPattern.isSome then .none
      else some { arguments with selectorPattern := some value }
  | .format =>
      if arguments.format.isSome then .none
      else (format? value).map fun format => { arguments with format := some format }
  | .logLevel =>
      if arguments.logLevel.isSome || !logLevels.contains value then .none
      else some { arguments with logLevel := some value }

/-- Takes up a flag; only a migration has any, and each only once. -/
def Arguments.flag? (activity : Activity) (arguments : Arguments) (flag : String) :
    Option Arguments :=
  match activity, flag with
  | .migrate, "--no-fast-path" =>
      if arguments.noFastPath then .none else some { arguments with noFastPath := true }
  | .migrate, "--dry-run" =>
      if arguments.dryRun then .none else some { arguments with dryRun := true }
  | _, _ => .none

/-- Whether an argument stands for itself: a single dash does, other dashes at the
front begin an option. -/
def isPlain (argument : String) : Bool :=
  argument == "-" || argument.toList.head? != some '-'

/-- Whether an argument asks for the version; what follows the short form is not read. -/
def asksVersion (argument : String) : Bool :=
  argument == "--version" || ['-', 'V'].isPrefixOf argument.toList

def splitEquals (argument : String) : String × Option String :=
  let characters := argument.toList
  match characters.dropWhile (· != '=') with
  | [] => (argument, .none)
  | _ :: value => (String.ofList (characters.takeWhile (· != '=')), some (String.ofList value))

def Arguments.addPatterns (arguments : Arguments) (patterns : List String) : Arguments :=
  { arguments with patterns := arguments.patterns ++ patterns }

def readArguments (activity : Activity) (arguments : Arguments) : List String → Option Arguments
  | [] => some arguments
  | "--" :: rest => some (arguments.addPatterns rest)
  | argument :: rest =>
      if isPlain argument then readArguments activity (arguments.addPatterns [argument]) rest
      else
        match splitEquals argument with
        | (name, some value) =>
            (valueOption? name).bind fun option =>
              (arguments.set? option value).bind fun arguments =>
                readArguments activity arguments rest
        | (name, .none) =>
            match valueOption? name, rest with
            | some option, value :: rest =>
                if isPlain value then
                  (arguments.set? option value).bind fun arguments =>
                    readArguments activity arguments rest
                else .none
            | some _, [] => .none
            | .none, rest =>
                (arguments.flag? activity name).bind fun arguments =>
                  readArguments activity arguments rest

def readCommand (command : String) (rest : List String) : Request :=
  match activity? command with
  | .none => .invalid
  | some activity =>
      match readArguments activity .none rest with
      | .none => .invalid
      | some arguments => .run activity arguments

/-- Reads all arguments of the program.  Before the command there may be a level for
the log; `levelGiven` says whether there has been one. -/
def read (levelGiven : Bool) : List String → Request
  | [] => .invalid
  | argument :: rest =>
      if asksVersion argument then .version
      else if isPlain argument then readCommand argument rest
      else
        match levelGiven, splitEquals argument, rest with
        | false, ("--log-level", some value), rest =>
            if logLevels.contains value then read true rest else .invalid
        | false, ("--log-level", .none), value :: rest =>
            if logLevels.contains value then read true rest else .invalid
        | _, _, _ => .invalid

/-! ## Carrying out -/

structure Outcome where
  exit : Nat
  stdout : String
  stderr : String
  project : Project

def versionLine : String :=
  "tug-selectors 0.1.0\n"

def Arguments.pattern (arguments : Arguments) : Except PatternError SelectorPattern :=
  match arguments.selectorPattern with
  | .none => .ok .default
  | some pattern => SelectorPattern.read pattern.toList

/-- The run that was asked for.  `root` is where its directory lies in the project. -/
def Arguments.config (arguments : Arguments) (root : Option (List Text))
    (pattern : SelectorPattern) : MigrateConfig where
  cwd := (arguments.cwd.getD ".").toList
  root := root
  patterns := arguments.patterns.map String.toList
  options := ⟨pattern, !arguments.noFastPath⟩
  dryRun := arguments.dryRun

def migrationSummary (dryRun : Bool) (report : MigrationReport) : String :=
  let verb := if dryRun then "Would migrate" else "Migrated"
  let failures :=
    if report.failures.isEmpty then ""
    else
      toString report.failures.length ++ " templates failed:\n" ++
        String.join (report.failures.map fun failure => "  " ++ failure.render ++ "\n")
  String.join (report.diffs.map String.ofList) ++ verb ++ " " ++ toString report.changed.length ++
    " of " ++ toString report.filesScanned ++ " templates\n" ++ failures

def checkSummary (report : CheckReport) : String :=
  String.join (report.selectors.map fun found => found.render ++ "\n") ++
    String.join (report.failures.map fun failure => failure.render ++ "\n") ++
    toString report.selectors.length ++ " positional selectors in " ++
    toString report.filesScanned ++ " templates\n"

def migrationExit (report : MigrationReport) : Nat :=
  if report.failures.isEmpty then 0 else ErrorCode.applyError.number

/-- The status with which a check ends: selectors count more than failures. -/
def checkExit (report : CheckReport) : Nat :=
  if !report.selectors.isEmpty then ErrorCode.selectorsFound.number
  else if !report.failures.isEmpty then ErrorCode.applyError.number
  else 0

def migrationOutput (format : OutputFormat) (dryRun : Bool) (report : MigrationReport) : String :=
  match format with
  | .text => migrationSummary dryRun report
  | .json =>
      Response.emit (Response.migration dryRun report.filesScanned
        (report.changed.map String.ofList) (report.failures.map FileFailure.response))

def checkOutput (format : OutputFormat) (report : CheckReport) : String :=
  match format with
  | .text => checkSummary report
  | .json =>
      Response.emit (Response.check report.filesScanned
        (report.selectors.map FoundSelector.response) (report.failures.map FileFailure.response))

/-- The end of a run: its report or its error on the standard output, its progress
beside it unless the output is for a machine. -/
def conclude {ρ : Type} (format : OutputFormat) (drawn : Bool) (run : Run ρ) (output : ρ → String)
    (exit : ρ → Nat) : Outcome :=
  let stderr :=
    match format with
    | .text => (ProgressBar.initial drawn).writeAll run.progress
    | .json => ""
  match run.result with
  | .error error =>
      ⟨error.code.number, Response.emit (Response.failure error.code error.message), stderr,
        run.project⟩
  | .ok report => ⟨exit report, output report, stderr, run.project⟩

/-- Carries out a command.  `root` is where its directory lies in the project, `drawn`
whether there is a terminal to draw on. -/
def execute (activity : Activity) (arguments : Arguments) (root : Option (List Text))
    (drawn : Bool) (project : Project) : Outcome :=
  match arguments.pattern with
  | .error error =>
      let error := MigrateError.invalidSelectorPattern error
      ⟨error.code.number, Response.emit (Response.failure error.code error.message), "", project⟩
  | .ok pattern =>
      let config := arguments.config root pattern
      let format := arguments.format.getD .text
      match activity with
      | .migrate =>
          conclude format drawn (runMigration config project)
            (migrationOutput format config.dryRun) migrationExit
      | .check => conclude format drawn (runCheck config project) (checkOutput format) checkExit

def usageExit : Nat :=
  ErrorCode.invalidArguments.number

def run (arguments : List String) (project : Project) : Outcome :=
  match read false arguments with
  | .invalid => ⟨usageExit, "", "", project⟩
  | .version => ⟨0, versionLine, "", project⟩
  | .run activity arguments =>
      let root := project.locate? (arguments.cwd.getD ".").toList
      execute activity arguments root false project

end CommandLine

end TemplateSelectors
