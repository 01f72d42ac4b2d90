import TemplateSelectors.Location

/-!
# Lines of a source

Byte offsets are turned into positions in two ways: by reading the text from its
start (`positionAt`), and through the offsets at which its lines start
(`LineIndex.position`).  Both stop at the end of the text.
-/

set_option autoImplicit false

namespace TemplateSelectors

def positionFrom (here : Position) (offset : Nat) : Text → Position
  | [] => here
  | c :: rest =>
      if offset = 0 then here
      else
        positionFrom (if c = '\n' then ⟨here.line + 1, 1⟩ else ⟨here.line, here.column + 1⟩)
          (offset - c.utf8Size) rest

def positionAt (text : Text) (offset : Nat) : Position :=
  positionFrom ⟨1, 1⟩ offset text

/-- The number of lines; a line feed at the end opens no further one. -/
def lineCount (text : Text) : Nat :=
  text.lines.length

structure LineStart where
  offset : Nat
  text : Text

structure LineIndex where
  text : Text
  size : Nat
  later : List LineStart

namespace LineIndex

def startsFrom (offset : Nat) : Text → List LineStart
  | [] => []
  | c :: rest =>
      let next := offset + c.utf8Size
      if c = '\n' then ⟨next, rest⟩ :: startsFrom next rest else startsFrom next rest

def ofText (text : Text) : LineIndex :=
  ⟨text, text.size, startsFrom 0 text⟩

/-- The last line that starts at or before `offset`, with its number.  Line `number` is
`here`, and the lines behind it are in ascending order. -/
def lineFrom (offset number : Nat) (here : LineStart) : List LineStart → Nat × LineStart
  | [] => (number, here)
  | next :: later =>
      if next.offset ≤ offset then lineFrom offset (number + 1) next later else (number, here)

/-- The position of a byte offset: its line is the last one that starts at or
before it.  Inside a character the column counts bytes.  Line and column are counted without a
bound; `LineIndex.position_atMost` gives the size of a text below which 32 bits hold them. -/
def position (index : LineIndex) (offset : Nat) : Position :=
  let offset := min offset index.size
  let (number, line) := lineFrom offset 1 ⟨0, index.text⟩ index.later
  let bytes := offset - line.offset
  ⟨number, (Text.charsWithin? 0 bytes line.text).getD bytes + 1⟩

def sourceSpan (index : LineIndex) (span : Span) : SourceSpan :=
  ⟨index.position span.start, index.position span.stop⟩

/-- The number of indexed lines; a line feed at the end opens one more. -/
def lineCount (index : LineIndex) : Nat :=
  index.later.length + 1

end LineIndex

end TemplateSelectors
