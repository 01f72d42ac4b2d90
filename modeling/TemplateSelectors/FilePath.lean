import TemplateSelectors.Text

/-!
# File paths

A path is written as components between slashes.  Repeated slashes, a slash at the
end and dots that name the directory itself say nothing, except that a dot at the
very start is kept.
-/

set_option autoImplicit false

namespace TemplateSelectors

def splitOnChar (mark : Char) : Text → List Text
  | [] => [[]]
  | c :: rest =>
      if c = mark then [] :: splitOnChar mark rest
      else
        match splitOnChar mark rest with
        | [] => [[c]]
        | part :: parts => (c :: part) :: parts

inductive PathComponent where
  | root
  | current
  | parent
  | name (name : Text)
deriving DecidableEq, Repr

def PathComponent.text : PathComponent → Text
  | .root => ['/']
  | .current => ['.']
  | .parent => ['.', '.']
  | .name n => n

namespace FilePath

def component? (part : Text) : Option PathComponent :=
  if part = [] ∨ part = ['.'] then none
  else if part = ['.', '.'] then some .parent
  else some (.name part)

def components (path : Text) : List PathComponent :=
  let parts := splitOnChar '/' path
  let front :=
    if path.head? = some '/' then [PathComponent.root]
    else if parts.head? = some ['.'] then [.current]
    else []
  front ++ parts.filterMap component?

def display (path : Text) : Text :=
  Text.join ['/'] ((components path).map PathComponent.text)

def child (directory entry : Text) : Text :=
  if directory = [] ∨ directory.getLast? = some '/' then directory ++ entry
  else directory ++ '/' :: entry

/-- The names that lead from a place to `path`; none if it is not below that place. -/
def resolveFrom (names : List Text) : List PathComponent → Option (List Text)
  | [] => some names
  | .root :: _ => none
  | .current :: rest => resolveFrom names rest
  | .parent :: rest => if names = [] then none else resolveFrom names.dropLast rest
  | .name n :: rest => resolveFrom (names ++ [n]) rest

/-- The names that lead from the working directory to `path`; an empty path leads
nowhere. -/
def resolve? (path : Text) : Option (List Text) :=
  if path = [] then none else resolveFrom [] (components path)

def ofNames (names : List Text) : Text :=
  Text.join ['/'] names

/-- Compares lists member by member; a list that breaks off comes first. -/
def compareLists {α : Type} (compare : α → α → Ordering) : List α → List α → Ordering
  | [], [] => .eq
  | [], _ :: _ => .lt
  | _ :: _, [] => .gt
  | a :: as, b :: bs => (compare a b).then (compareLists compare as bs)

/-- The order of texts by code points, which is that of their bytes. -/
def compareTexts : Text → Text → Ordering :=
  compareLists fun c d => compare c.toNat d.toNat

def compareNames : List Text → List Text → Ordering :=
  compareLists compareTexts

end FilePath

end TemplateSelectors
