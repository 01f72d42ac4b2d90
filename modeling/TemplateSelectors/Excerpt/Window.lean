import TemplateSelectors.Excerpt

/-!
# Windows

The part of each line that is shown.  Deep indents are cut short, and of lines that
are too long only a part around the marks is shown, with an ellipsis where something
was cut off.
-/

set_option autoImplicit false

namespace TemplateSelectors

/-- How far the lines of an excerpt and their marks reach: the least indent, the first marked
column, the columns behind the last marked one and behind the label, and the size of the longest
line. -/
structure Extent where
  indent : Option Nat
  first : Nat
  last : Nat
  labelStop : Nat
  longest : Nat
deriving DecidableEq, Repr

def leastIndent : Option Nat → Option Nat → Option Nat
  | none, indent => indent
  | indent, none => indent
  | some first, some second => some (min first second)

def Extent.ofLines (labelSize : Nat) (lines : List (ExcerptLine × Mark)) : Extent :=
  let marked := lines.filterMap fun (_, mark) => mark.columns?
  let last := (marked.map Prod.snd).foldl max 0
  { indent := (lines.map fun (line, _) => line.indent?).foldl leastIndent none
    first := (marked.map Prod.fst).foldl min last
    last := last
    labelStop := last + labelSize
    longest := (lines.map fun (line, _) => line.text.size).foldl max 0 }

structure Window where
  /-- What is cut off at the front of each line; none if all of it is. -/
  start : Option Nat
  stop : Nat
  capacity : Nat
  /-- Whether `stop` includes room for an ellipsis. -/
  padded : Bool
deriving DecidableEq, Repr

namespace Window

def ellipsis : Text :=
  ['.', '.', '.']

def padding : Nat :=
  6

def deepIndent : Nat :=
  20

def keptIndent : Nat :=
  16

/-- The window for an extent.  If the lines do not fit, it starts at the indent when
the label fits then, else before the marks.  There is no such window if the indent is
behind the label. -/
def fit? (capacity : Nat) (extent : Extent) : Option Window :=
  match extent.indent with
  | none => some ⟨none, extent.longest, capacity, false⟩
  | some indent =>
      let indent := indent - padding
      let first := extent.first - padding
      let last := extent.last + padding
      let labelStop := extent.labelStop + padding
      let window (start stop : Nat) : Window :=
        ⟨some start, stop, capacity, stop == last || stop == labelStop⟩
      let start := if deepIndent < indent then indent - keptIndent else 0
      let stop := max extent.longest start
      if stop - start ≤ capacity then some (window start stop)
      else if labelStop < indent then none
      else if labelStop - indent ≤ capacity then some (window indent (indent + capacity))
      else if labelStop - first ≤ capacity then
        let start := first - (capacity - (labelStop - first)) / 2
        some (window start (start + capacity))
      else if last - first ≤ capacity then
        let start := first - (capacity - (last - first)) / 5 * 2
        some (window start (start + capacity))
      else some (window first last)

def left (window : Window) (size : Nat) : Nat :=
  match window.start with
  | none => size
  | some start => min start size

def right (window : Window) (size : Nat) : Nat :=
  match window.start with
  | none => size
  | some start =>
      if size - start ≤ window.capacity ∨ size < window.stop then size else window.stop

def cutsFront (window : Window) : Bool :=
  window.start != some 0

def cutsBack (window : Window) (size : Nat) : Bool :=
  match window.start with
  | none => false
  | some start =>
      (if window.padded then window.stop - padding else window.stop) < size &&
        start + window.capacity < size

def view (window : Window) (text : Text) : Text :=
  let left := window.left text.size
  Text.takeColumns (window.right text.size - left) (text.drop left)

def hiddenColumns (window : Window) (text : Text) : Nat :=
  Text.width 1 (text.take (window.left text.size))

end Window

end TemplateSelectors
