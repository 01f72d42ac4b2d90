import TemplateSelectors.Excerpt.Window

/-!
# Errors beside their source

A parse error is shown with its excerpt.  The faulty part is underlined with carets;
one that goes on to the next line is marked along the margin.  Rows are drawn by
putting texts on them at given columns, the later over the earlier.
-/

set_option autoImplicit false

namespace TemplateSelectors

namespace Snippet

def put (column : Nat) (text row : Text) : Text :=
  if text.isEmpty then row
  else
    row.take column ++ List.replicate (column - row.length) ' ' ++ text ++
      row.drop (column + text.length)

structure Layout where
  digits : Nat
  severalLines : Bool
  window : Window
  label : Text

namespace Layout

/-- The column behind the line numbers and their bar. -/
def gutter (layout : Layout) : Nat :=
  layout.digits + 3

def codeColumn (layout : Layout) : Nat :=
  layout.gutter + if layout.severalLines then 2 else 0

def marginRow (layout : Layout) : Text :=
  put (layout.digits + 1) ['|'] []

def sourceRow (layout : Layout) (line : ExcerptLine) : Text :=
  let number := (toString line.number).toList
  let view := layout.window.view line.shown
  let row := put (layout.digits - number.length) number layout.marginRow
  let row := put layout.codeColumn view row
  let row :=
    if layout.window.cutsFront then put layout.codeColumn Window.ellipsis row else row
  if layout.window.cutsBack (Text.size line.shown) then
    put (layout.codeColumn + Text.width 1 view - Window.ellipsis.length) Window.ellipsis row
  else row

def place (layout : Layout) (line : ExcerptLine) (column : Nat) : Nat :=
  layout.codeColumn + column - layout.window.hiddenColumns line.shown

def putCarets (layout : Layout) (line : ExcerptLine) (first last : Nat) (row : Text) : Text :=
  (List.range (last - first)).foldl
    (fun row n => put (layout.place line (first + n)) ['^'] row) row

def putLabel (layout : Layout) (line : ExcerptLine) (last : Nat) (row : Text) : Text :=
  put (layout.codeColumn + (last + 1 - layout.window.hiddenColumns line.shown)) layout.label row

def putRule (layout : Layout) (line : ExcerptLine) (column : Nat) (row : Text) : Text :=
  let first := layout.gutter + 1
  put first (List.replicate (layout.place line column - first) '_') row

def putInMargin (layout : Layout) (mark : Char) (row : Text) : Text :=
  put layout.gutter [mark] row

/-- The rows for a line: the line itself and what is drawn below it. -/
def rows (layout : Layout) (line : ExcerptLine) : Mark → List Text
  | .none => [layout.sourceRow line]
  | .underline first last =>
      [layout.sourceRow line,
        layout.putCarets line first last (layout.putLabel line last layout.marginRow)]
  | .opens column =>
      if (line.shown.take column).all Text.isSpace then
        [layout.putInMargin '/' (layout.sourceRow line)]
      else
        [layout.sourceRow line,
          layout.putCarets line column (column + 1) (layout.putRule line column layout.marginRow)]
  | .closes column =>
      [layout.putInMargin '|' (layout.sourceRow line),
        layout.putCarets line column (column + 1)
          (layout.putLabel line (column + 1)
            (layout.putInMargin '|' (layout.putRule line column layout.marginRow)))]

def originRow (layout : Layout) (name : Text) (position : Position) : Text :=
  put (layout.digits + 4) name (put layout.digits ['-', '-', '>'] []) ++
    ':' :: position.render.toList

end Layout

def rowWidth : Nat :=
  140

def digitCount (n : Nat) : Nat :=
  (toString n).length

/-- The layout of marked lines, if there is a window for them. -/
def layout? (label : Text) (lines : List (ExcerptLine × Mark)) : Option Layout :=
  let greatest := (lines.map fun (line, _) => line.number).foldl max 0
  let capacity := rowWidth - (digitCount (greatest + 1) + 3)
  (Window.fit? capacity (.ofLines (label.size + 1) lines)).map fun window =>
    { digits := digitCount greatest
      severalLines := lines.any fun (_, mark) => mark.isOpen
      window := window
      label := label }

end Snippet

open Snippet in
/-- The error beside its source, which is named `name`.  There is nothing to show if the
faulty part ends inside a character. -/
def ParseError.pretty? (error : ParseError) (source name : Text) : Option String :=
  let excerpt := error.excerpt source
  let lines := excerpt.lines
  let label := (error.label ++ " at " ++ error.position.render).toList
  (lines.mapM fun line => (excerpt.mark? line).map fun mark => (line, mark)).bind fun marked =>
    (layout? label marked).map fun layout =>
      let title := "error: ".toList ++ name ++ ':' :: ' ' :: error.message.toList
      let body := marked.flatMap fun (line, mark) => layout.rows line mark
      String.ofList (Text.join ['\n']
        ([title, layout.originRow name (excerpt.origin lines), layout.marginRow] ++ body ++
          [layout.marginRow]))

end TemplateSelectors
