import TemplateSelectors.Text

/-!
# Differences

The difference of two texts as one hunk: what lies between their common first lines
and their common last lines, with a few of the common lines around it.
-/

set_option autoImplicit false

namespace TemplateSelectors

/-- The number of members in which two lists agree at the front. -/
def commonLength {α : Type} [DecidableEq α] : List α → List α → Nat
  | a :: as, b :: bs => if a = b then commonLength as bs + 1 else 0
  | _, _ => 0

structure Hunk where
  skipped : Nat
  before : List Text
  removed : List Text
  added : List Text
  after : List Text
deriving DecidableEq, Repr

namespace Hunk

/-- The most unchanged lines that are shown on either side. -/
def contextSize : Nat :=
  3

def ofLines (old new : List Text) : Hunk :=
  let front := commonLength old new
  let back := min (commonLength old.reverse new.reverse) (min old.length new.length - front)
  let skipped := front - contextSize
  { skipped := skipped
    before := (old.take front).drop skipped
    removed := (old.take (old.length - back)).drop front
    added := (new.take (new.length - back)).drop front
    after := (old.drop (old.length - back)).take contextSize }

def oldLength (hunk : Hunk) : Nat :=
  hunk.before.length + hunk.removed.length + hunk.after.length

def newLength (hunk : Hunk) : Nat :=
  hunk.before.length + hunk.added.length + hunk.after.length

def line (mark : Char) (text : Text) : Text :=
  mark :: text ++ ['\n']

def number (n : Nat) : Text :=
  Nat.toDigits 10 n

def header (hunk : Hunk) : Text :=
  ['@', '@', ' ', '-'] ++ number (hunk.skipped + 1) ++ [','] ++ number hunk.oldLength ++
    [' ', '+'] ++ number (hunk.skipped + 1) ++ [','] ++ number hunk.newLength ++
    [' ', '@', '@', '\n']

def render (hunk : Hunk) : Text :=
  hunk.header ++ hunk.before.flatMap (line ' ') ++ hunk.removed.flatMap (line '-') ++
    hunk.added.flatMap (line '+') ++ hunk.after.flatMap (line ' ')

end Hunk

/-- The unified difference of two versions of a file; equal texts have none. -/
def unifiedDiff (path old new : Text) : Text :=
  if old = new then []
  else
    ['-', '-', '-', ' ', 'a', '/'] ++ path ++ ['\n', '+', '+', '+', ' ', 'b', '/'] ++ path ++
      ['\n'] ++ (Hunk.ofLines old.lines new.lines).render

end TemplateSelectors
