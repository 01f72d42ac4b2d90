import TemplateSelectors.ParseError
import TemplateSelectors.Text.Width

/-!
# Excerpts

The part of a source that is shown with a parse error: the line on which the error
starts and the lines before and after it, and how the faulty part lies on them.
-/

set_option autoImplicit false

namespace TemplateSelectors

def lineOffset : (skipped : Nat) → Text → Nat
  | 0, _ => 0
  | _ + 1, [] => 0
  | skipped + 1, c :: rest =>
      c.utf8Size + lineOffset (if c = '\n' then skipped else skipped + 1) rest

def lineStart (source : Text) (number : Nat) : Nat :=
  lineOffset (number - 1) source

structure Excerpt where
  text : Text
  firstLine : Nat
  start : Nat
  stop : Nat
deriving DecidableEq, Repr

/-- The lines around an error.  A fault that reaches further is cut off, and one
without length is widened by a byte. -/
def ParseError.excerpt (error : ParseError) (source : Text) : Excerpt :=
  let line := error.position.line
  let first := lineStart source (line - 1)
  let last := lineStart source (line + 2)
  let text := (source.slice? first last).getD []
  let start := min (error.span.start - first) text.size
  let stop := min (error.span.stop - first) text.size
  { text := text
    firstLine := max 1 (line - 1)
    start := start
    stop := if start = stop then min (stop + 1) text.size else stop }

structure ExcerptLine where
  number : Nat
  text : Text
  start : Nat
  endSize : Nat
deriving DecidableEq, Repr

namespace ExcerptLine

def stop (line : ExcerptLine) : Nat :=
  line.start + line.text.size

/-- The offset behind its line end; the end of the source counts as one byte. -/
def limit (line : ExcerptLine) : Nat :=
  line.stop + max line.endSize 1

/-- The text before an offset; all of it for an offset behind the text.  None inside a
character. -/
def before? (line : ExcerptLine) (offset : Nat) : Option Text :=
  Text.takeBytes? (min (offset - line.start) line.text.size) line.text

def column? (line : ExcerptLine) (offset : Nat) : Option Nat :=
  (line.before? offset).map (Text.width 0)

/-- What is shown in place of a character: a tab is four columns, and marks that join
characters or turn the direction of writing are left out. -/
def shownChar (c : Char) : Text :=
  if c = '\t' then [' ', ' ', ' ', ' ']
  else if c.toNat = 0x200D ∨ 0x202A ≤ c.toNat ∧ c.toNat ≤ 0x202E ∨
      0x2066 ≤ c.toNat ∧ c.toNat ≤ 0x2069 then []
  else [c]

def shown (line : ExcerptLine) : Text :=
  line.text.flatMap shownChar

def indent? (line : ExcerptLine) : Option Nat :=
  if line.text.all Text.isSpace then none
  else
    some ((line.text.takeWhile Text.isSpace).foldr
      (fun c columns => (if c = '\t' then 4 else 1) + columns) 0)

end ExcerptLine

/-- Cuts a text into numbered lines.  `current` is the line read so far, reversed. -/
def excerptLines (number start : Nat) (current : Text) : Text → List ExcerptLine
  | [] => if current.isEmpty then [] else [⟨number, current.reverse, start, 0⟩]
  | c :: rest =>
      if c = '\n' then
        let (line, endSize) :=
          match current with
          | '\r' :: before => (before.reverse, 2)
          | _ => (current.reverse, 1)
        ⟨number, line, start, endSize⟩ ::
          excerptLines (number + 1) (start + Text.size line + endSize) [] rest
      else excerptLines number start (c :: current) rest

def Excerpt.lines (excerpt : Excerpt) : List ExcerptLine :=
  excerptLines excerpt.firstLine 0 [] excerpt.text

inductive Mark where
  | none
  | underline (first last : Nat)
  | opens (column : Nat)
  | closes (column : Nat)
deriving DecidableEq, Repr

namespace Mark

def columns? : Mark → Option (Nat × Nat)
  | .none => Option.none
  | .underline first last => some (first, last)
  | .opens column => some (column, column + 1)
  | .closes column => some (column, column + 1)

def isOpen : Mark → Bool
  | .opens _ => true
  | _ => false

end Mark

/-- The mark on a line; none at all if an end lies inside a character. -/
def Excerpt.mark? (excerpt : Excerpt) (line : ExcerptLine) : Option Mark :=
  let start := excerpt.start
  let stop := excerpt.stop
  if line.stop + line.endSize < start then some .none
  else if line.start ≤ start ∧ stop ≤ line.limit then
    (line.column? start).bind fun first =>
      (line.column? stop).map fun last =>
        .underline first (if first = last then last + 1 else last)
  else if line.start ≤ start ∧ start ≤ line.stop + (line.endSize - 1) ∧ line.stop < stop then
    (line.column? start).map .opens
  else if start < line.start ∧ line.start < stop ∧ stop ≤ line.limit then
    (line.column? stop).map fun column =>
      .closes (if line.stop < stop then column - 1 + 1 else column - 1)
  else some .none

def Excerpt.origin (excerpt : Excerpt) : List ExcerptLine → Position
  | [] => ⟨1, 1⟩
  | line :: rest =>
      if line.start ≤ excerpt.start ∧ excerpt.start < line.limit then
        ⟨line.number, ((line.before? excerpt.start).getD []).length + 1⟩
      else excerpt.origin rest

end TemplateSelectors
