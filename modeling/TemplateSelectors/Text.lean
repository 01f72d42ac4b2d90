/-!
# Text

Source text is a list of Unicode scalar values.  Offsets into it count the bytes
of its UTF-8 form, so the size of a text is the sum of the sizes of its
characters, and an offset is usable only where one character ends and the next
begins.
-/

set_option autoImplicit false

namespace TemplateSelectors

abbrev Text := List Char

namespace Text

def size : Text → Nat
  | [] => 0
  | c :: rest => c.utf8Size + size rest

@[simp]
theorem size_nil : size [] = 0 := rfl

@[simp]
theorem size_cons (c : Char) (rest : Text) : size (c :: rest) = c.utf8Size + size rest := rfl

@[simp]
theorem size_append (front back : Text) : size (front ++ back) = size front + size back := by
  induction front with
  | nil => simp
  | cons c rest inductionHypothesis => simp [inductionHypothesis]; omega

/-- The white space of the Unicode property `White_Space`. -/
def isSpace (c : Char) : Bool :=
  let n := c.toNat
  (9 ≤ n && n ≤ 13) || n == 0x20 || n == 0x85 || n == 0xA0 || n == 0x1680 ||
    (0x2000 ≤ n && n ≤ 0x200A) || n == 0x2028 || n == 0x2029 || n == 0x202F ||
    n == 0x205F || n == 0x3000

def trimStart (text : Text) : Text :=
  text.dropWhile isSpace

def trimEnd (text : Text) : Text :=
  (text.reverse.dropWhile isSpace).reverse

def trim (text : Text) : Text :=
  trimEnd (trimStart text)

/-- What follows `front` at the start of `text`, if `text` starts so. -/
def after? : (front text : Text) → Option Text
  | [], text => some text
  | _ :: _, [] => none
  | c :: front, d :: text => if c = d then after? front text else none

theorem eq_append_of_after? {front text rest : Text} (found : after? front text = some rest) :
    text = front ++ rest := by
  induction front generalizing text with
  | nil => simpa [after?] using found
  | cons c front inductionHypothesis =>
      cases text with
      | nil => simp [after?] at found
      | cons d text =>
          by_cases same : c = d
          · subst same
            simp only [after?, if_true] at found
            simp [inductionHypothesis found]
          · simp [after?, same] at found

/-- Drops exactly `count` bytes; refused inside a character or past the end. -/
def dropBytes? : (count : Nat) → Text → Option Text
  | 0, text => some text
  | _ + 1, [] => none
  | count + 1, c :: rest =>
      if c.utf8Size ≤ count + 1 then dropBytes? (count + 1 - c.utf8Size) rest else none

def takeBytes? : (count : Nat) → Text → Option Text
  | 0, _ => some []
  | _ + 1, [] => none
  | count + 1, c :: rest =>
      if c.utf8Size ≤ count + 1 then
        (takeBytes? (count + 1 - c.utf8Size) rest).map (c :: ·)
      else
        none

/-- The number of characters in the first `count` bytes, on top of those `seen`; refused
inside a character or past the end. -/
def charsWithin? (seen : Nat) : (count : Nat) → Text → Option Nat
  | 0, _ => some seen
  | _ + 1, [] => none
  | count + 1, c :: rest =>
      if c.utf8Size ≤ count + 1 then charsWithin? (seen + 1) (count + 1 - c.utf8Size) rest else none

theorem charsWithin?_eq (seen count : Nat) (text : Text) :
    charsWithin? seen count text =
      (takeBytes? count text).map fun front => seen + front.length := by
  induction text generalizing seen count with
  | nil => cases count <;> rfl
  | cons c rest inductionHypothesis =>
      cases count with
      | zero => rfl
      | succ count =>
          by_cases fits : c.utf8Size ≤ count + 1
          · simp only [charsWithin?, takeBytes?, fits, if_true, inductionHypothesis, Option.map_map]
            congr 1
            funext front
            simp only [Function.comp_apply, List.length_cons]
            omega
          · simp [charsWithin?, takeBytes?, fits]

/-- The bytes from `start` up to `stop`; refused when the ends are out of order,
past the end or inside a character. -/
def slice? (start stop : Nat) (text : Text) : Option Text :=
  if start ≤ stop then (dropBytes? start text).bind (takeBytes? (stop - start)) else none

def dropReturn (line : Text) : Text :=
  if line.getLast? = some '\r' then line.dropLast else line

/-- Cuts `text` at its line feeds.  `current` is the line read so far, reversed.
A carriage return before a line feed belongs to the line end, and a line feed at
the very end opens no further line. -/
def linesFrom (current : Text) : Text → List Text
  | [] => if current.isEmpty then [] else [current.reverse]
  | c :: rest =>
      if c = '\n' then dropReturn current.reverse :: linesFrom [] rest
      else linesFrom (c :: current) rest

def lines (text : Text) : List Text :=
  linesFrom [] text

def join (separator : Text) (parts : List Text) : Text :=
  (parts.intersperse separator).flatten

def bytes (text : Text) : List UInt8 :=
  text.flatMap String.utf8EncodeChar

end Text

end TemplateSelectors
