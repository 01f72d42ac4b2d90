import TemplateSelectors.CommandLine

/-!
# The program

Reads the templates of a directory, carries out the command that was asked for and
writes back the files that it changed.
-/

set_option autoImplicit false

namespace TemplateSelectors

namespace Program

/-- The most directories inside one another. -/
def depthLimit : Nat :=
  4096

def place (directory : String) (names : List Text) :=
  IO.FS.DirEntry.path ⟨directory, String.ofList (FilePath.ofNames names)⟩

/-- Reads the files below `names` that pass the filter. -/
def load (filter : FileFilter) (directory : String) :
    (depth : Nat) → List Text → Project → IO Project
  | 0, _, project => return project
  | depth + 1, names, project => do
      let mut found := project
      for entry in ← (place directory names).readDir do
        let names := names ++ [entry.fileName.toList]
        match (← entry.path.symlinkMetadata).type with
        | .dir =>
            if !filter.excludesDirectory (FilePath.ofNames names) then
              found ← load filter directory depth names found
        | .file =>
            if filter.passes (FilePath.ofNames names) then
              found := found.write names (.ofBytes (← IO.FS.readBinFile entry.path))
        | _ => pure ()
      return found

def save (directory : String) (before after : Project) : IO Unit :=
  for (names, content) in after.files do
    if before.find? names != some content then
      match content with
      | .text text => IO.FS.writeFile (place directory names) (String.ofList text)
      | .binary bytes => IO.FS.writeBinFile (place directory names) ⟨bytes.toArray⟩

def perform (activity : CommandLine.Activity) (arguments : CommandLine.Arguments) :
    IO UInt32 := do
  let directory := arguments.cwd.getD "."
  let root := if ← (place directory []).isDir then some [] else none
  let project ←
    match root, (arguments.config root .default).filter with
    | some root, .ok filter => load filter directory depthLimit root .empty
    | _, _ => pure .empty
  let drawn ← (← IO.getStderr).isTty
  let outcome := CommandLine.execute activity arguments root drawn project
  save directory project outcome.project
  IO.eprint outcome.stderr
  IO.print outcome.stdout
  return outcome.exit.toUInt32

end Program

end TemplateSelectors

open TemplateSelectors in
def main (arguments : List String) : IO UInt32 := do
  match CommandLine.read false arguments with
  | .run activity arguments => Program.perform activity arguments
  | .version =>
      IO.print CommandLine.versionLine
      return 0
  | .invalid => return CommandLine.usageExit.toUInt32
