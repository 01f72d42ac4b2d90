import TemplateSelectors.Text

/-!
# Locations

A place in a source is given in two ways.  A `Span` is a half-open range of byte
offsets.  A `SourceSpan` is a pair of `Position`s, line and column counted from
one, and is what nodes and reports carry; a node that was not read from a source
has the position `0:0` at both ends.
-/

set_option autoImplicit false

namespace TemplateSelectors

/-- The bytes from `start` up to, not including, `stop`. -/
structure Span where
  start : Nat
  stop : Nat
deriving DecidableEq, Repr, Inhabited

namespace Span

def ordered? (start stop : Nat) : Option Span :=
  if start ≤ stop then some ⟨start, stop⟩ else none

def orderMessage (start stop : Nat) : String :=
  s!"Span start ({start}) must be <= end ({stop})"

def length (span : Span) : Nat :=
  span.stop - span.start

def isEmpty (span : Span) : Bool :=
  span.start == span.stop

/-- Whether the spans share a byte; neighbours do not. -/
def overlaps (span other : Span) : Bool :=
  span.start < other.stop && other.start < span.stop

def contains (span other : Span) : Bool :=
  span.start ≤ other.start && other.stop ≤ span.stop

def render (span : Span) : String :=
  s!"[{span.start}, {span.stop})"

end Span

/-- A line and a column, both counted from one.  Columns count characters.  The numbers have no
bound here; those of a source of `size` bytes are at most `size + 1` (`LineIndex.position_atMost`),
so below `lastColumn` bytes they are what numbers of 32 bits would be. -/
structure Position where
  line : Nat
  column : Nat
deriving DecidableEq, Repr, Inhabited

namespace Position

def lastColumn : Nat :=
  0xffffffff

def compare (first second : Position) : Ordering :=
  (Ord.compare first.line second.line).then (Ord.compare first.column second.column)

def max (first second : Position) : Position :=
  if first.compare second = .gt then first else second

def render (position : Position) : String :=
  s!"{position.line}:{position.column}"

end Position

structure SourceSpan where
  start : Position
  stop : Position
deriving DecidableEq, Repr, Inhabited

namespace SourceSpan

/-- The place of a node that was not read from a source. -/
def nowhere : SourceSpan :=
  ⟨⟨0, 0⟩, ⟨0, 0⟩⟩

def point (position : Position) : SourceSpan :=
  ⟨position, position⟩

/-- Moves the end to the right within its line.  The column has no bound here: it is the one of
`extendStop?`, which refuses a column beyond `Position.lastColumn`, wherever the place was read from
a source whose size and `columns` are below that bound (`Template.extendStop?_of_parse`). -/
def extendStop (columns : Nat) (place : SourceSpan) : SourceSpan :=
  { place with stop := ⟨place.stop.line, place.stop.column + columns⟩ }

/-- Moves the end to the right, unless the column would be too large to be told. -/
def extendStop? (columns : Nat) (place : SourceSpan) : Option SourceSpan :=
  if place.stop.column + columns ≤ Position.lastColumn then some (place.extendStop columns)
  else none

def isSingleLine (place : SourceSpan) : Bool :=
  place.start.line == place.stop.line

def render (place : SourceSpan) : String :=
  s!"{place.start.render}-{place.stop.render}"

end SourceSpan

end TemplateSelectors
