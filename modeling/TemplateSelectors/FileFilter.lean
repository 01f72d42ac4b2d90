import TemplateSelectors.FilePath
import TemplateSelectors.Glob

/-!
# File filters

A path passes a filter when it matches one of the inclusions and none of the
exclusions.  Some directories are always excluded: `.git` and `node_modules`
anywhere, and build output at the top.
-/

set_option autoImplicit false

namespace TemplateSelectors

inductive FilterError where
  | invalidPattern (error : GlobError)
  | noInclusions
deriving DecidableEq, Repr

def FilterError.message : FilterError → String
  | .invalidPattern error =>
      "invalid glob pattern '" ++ String.ofList error.glob ++ "': " ++ error.message
  | .noInclusions => "no inclusion patterns given"

structure FileFilter where
  inclusions : List Glob
  exclusions : List Glob
  /-- The exclusions that always hold. -/
  standing : List Glob
deriving DecidableEq, Repr

namespace FileFilter

def standingPatterns : List Text :=
  ["**/.git/**".toList, "**/node_modules/**".toList, "bower_components/**".toList,
    "tmp/**".toList, "dist/**".toList]

/-- Reads globs, up to the first that cannot be read. -/
def readGlobs : List Text → Except FilterError (List Glob)
  | [] => .ok []
  | pattern :: patterns =>
      match Glob.read pattern with
      | .error error => .error (.invalidPattern error)
      | .ok glob => (readGlobs patterns).map (glob :: ·)

/-- The pattern behind an exclamation mark, which makes it an exclusion. -/
def exclusion? : Text → Option Text
  | '!' :: pattern => some pattern
  | _ => none

def read (patterns : List Text) : Except FilterError FileFilter :=
  let inclusions := patterns.filter fun pattern => (exclusion? pattern).isNone
  let exclusions := patterns.filterMap exclusion?
  if inclusions.isEmpty then .error .noInclusions
  else
    match readGlobs inclusions with
    | .error error => .error error
    | .ok inclusions =>
        match readGlobs exclusions with
        | .error error => .error error
        | .ok exclusions =>
            (readGlobs standingPatterns).map fun standing => ⟨inclusions, exclusions, standing⟩

def matchesAny (globs : List Glob) (path : Text) : Bool :=
  globs.any fun glob => glob.isMatch path

def excludes (filter : FileFilter) (path : Text) : Bool :=
  matchesAny filter.standing path || matchesAny filter.exclusions path

def passes (filter : FileFilter) (path : Text) : Bool :=
  !filter.excludes path && matchesAny filter.inclusions path

/-- Whether a directory is left out of a search, judged by an entry that it might
have. -/
def excludesDirectory (filter : FileFilter) (directory : Text) : Bool :=
  filter.excludes (FilePath.child directory ['_'])

def inclusionPatterns (filter : FileFilter) : List Text :=
  filter.inclusions.map Glob.source

def hasExclusions (filter : FileFilter) : Bool :=
  !filter.exclusions.isEmpty

end FileFilter

end TemplateSelectors
