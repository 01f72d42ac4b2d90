import TemplateSelectors.FileFilter

/-!
# Projects

The files below a directory, by the names that lead to them.  Templates are found by
a search that leaves out whole directories, and are listed name by name.
-/

set_option autoImplicit false

namespace TemplateSelectors

inductive Content where
  | text (text : Text)
  | binary (bytes : List UInt8)
deriving DecidableEq, Repr

def Content.ofBytes (bytes : ByteArray) : Content :=
  match String.fromUTF8? bytes with
  | some valid => .text valid.toList
  | none => .binary bytes.toList

structure Project where
  files : List (List Text × Content)
  /-- Directories that exist even if no file is below them. -/
  directories : List (List Text)

namespace Project

def empty : Project :=
  ⟨[], []⟩

def below? : (front names : List Text) → Option (List Text)
  | [], names => some names
  | _ :: _, [] => none
  | a :: front, b :: names => if a = b then below? front names else none

def find? (names : List Text) (project : Project) : Option Content :=
  (project.files.find? fun file => file.1 == names).map Prod.snd

def hasBelow (names : List Text) (project : Project) : Bool :=
  project.files.any fun file => ((below? names file.1).any fun rest => !rest.isEmpty)

/-- Whether there is a directory.  Those around the project are named by two dots, one
pair for each step upwards, and nothing is known to lie in them but the project. -/
def isDirectory (names : List Text) (project : Project) : Bool :=
  names.all (· == ['.', '.']) || project.hasBelow names ||
    project.directories.any fun directory => (below? names directory).isSome

/-- Follows the parts of a path from the place that `names` lead to.  Each step, also one
upwards and one that goes nowhere, starts from a directory. -/
def follow? (project : Project) (names : List Text) : (parts : List Text) → Option (List Text)
  | [] => some names
  | part :: parts =>
      if !project.isDirectory names then none
      else if part = [] ∨ part = ['.'] then project.follow? names parts
      else if part = ['.', '.'] ∧ (names.all (· == ['.', '.'])) = false then
        project.follow? names.dropLast parts
      else project.follow? (names ++ [part]) parts

/-- The names that lead to where a path leads from the working directory.  An empty path
leads nowhere, and so does one from the root of all directories. -/
def locate? (path : Text) (project : Project) : Option (List Text) :=
  if path = [] ∨ path.head? = some '/' then none
  else project.follow? [] (splitOnChar '/' path)

def write (names : List Text) (content : Content) (project : Project) : Project :=
  if (project.find? names).isSome then
    { project with
      files := project.files.map fun file => if file.1 = names then (names, content) else file }
  else { project with files := project.files ++ [(names, content)] }

def makeDirectory (names : List Text) (project : Project) : Project :=
  { project with directories := project.directories ++ [names] }

def remove (names : List Text) (project : Project) : Project where
  files := project.files.filter fun file => (below? names file.1).isNone
  directories :=
    (project.directories.filter fun directory => (below? names directory).isNone) ++
      [names.dropLast]

def ancestors (names : List Text) : List (List Text) :=
  (List.range (names.length - 1)).map fun n => names.take (n + 1)

def isFound (filter : FileFilter) (names : List Text) : Bool :=
  (ancestors names).all (fun directory => !filter.excludesDirectory (FilePath.ofNames directory)) &&
    filter.passes (FilePath.ofNames names)

/-- The files that a search of `root` finds, by the names that lead to them from there.
A root that is itself a file is reached by no name at all. -/
def search (root : List Text) (filter : FileFilter) (project : Project) :
    List (List Text × Content) :=
  let candidates := project.files.filterMap fun file =>
    (below? root file.1).map fun names => (names, file.2)
  (candidates.filter fun file => isFound filter file.1).mergeSort
    fun first second => (FilePath.compareNames first.1 second.1).isLE

end Project

end TemplateSelectors
