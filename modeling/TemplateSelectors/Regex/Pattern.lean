import TemplateSelectors.Regex

/-!
# Patterns

The written form of a regular expression: literals, `.`, `^`, `$`, classes, groups, `|`,
the repetitions `*`, `+`, `?` and `{m,n}`, escapes of punctuation, and `(?i)` at the
front.  A class has characters, ranges and classes inside it, and `&&`, `--` and `~~`
join its parts.  A pattern is first cut into tokens with their places, then the tokens
are put together with a stack of open groups.
-/

set_option autoImplicit false

namespace TemplateSelectors

inductive PatternFault where
  | unclosedGroup
  | unopenedGroup
  | unclosedClass
  | invalidRange
  | missingRepeated
  | invalidCount
  | unclosedCount
  | danglingEscape
  | unknownEscape
  | unknownFlag
deriving DecidableEq, Repr

def PatternFault.message : PatternFault → String
  | .unclosedGroup => "unclosed group"
  | .unopenedGroup => "unopened group"
  | .unclosedClass => "unclosed character class"
  | .invalidRange => "invalid character class range, the start must be <= the end"
  | .missingRepeated => "repetition operator missing expression"
  | .invalidCount => "invalid repetition count range, the start must be <= the end"
  | .unclosedCount => "unclosed counted repetition"
  | .danglingEscape => "incomplete escape sequence, reached end of pattern prematurely"
  | .unknownEscape => "unrecognized escape sequence"
  | .unknownFlag => "unrecognized flag"

structure PatternError where
  pattern : Text
  fault : PatternFault
  start : Nat
  stop : Nat
deriving DecidableEq, Repr

def PatternError.message (error : PatternError) : String :=
  let marks := List.replicate error.start ' ' ++ List.replicate (error.stop - error.start) '^'
  "regex parse error:\n    " ++ String.ofList error.pattern ++ "\n    " ++ String.ofList marks ++
    "\nerror: " ++ error.fault.message

namespace Pattern

structure Count where
  least : Nat
  most : Option Nat
deriving DecidableEq, Repr

inductive Token where
  | atom (regex : Regex)
  | opening
  | closing
  | bar
  | count (count : Count)
deriving DecidableEq, Repr

structure Placed where
  token : Token
  start : Nat
  stop : Nat

abbrev Fault := PatternFault × Nat × Nat

/-- The ASCII characters that may be escaped: all but letters, digits and angle
brackets. -/
def isEscapable (c : Char) : Bool :=
  c.toNat < 128 && !c.isAlphanum && c != '<' && c != '>'

def member? : Text → Option (Char × Text)
  | [] => none
  | '\\' :: c :: rest => if isEscapable c then some (c, rest) else none
  | '\\' :: [] => none
  | c :: rest => some (c, rest)

theorem length_lt_of_member? {text rest : Text} {c : Char}
    (found : member? text = some (c, rest)) : rest.length < text.length := by
  unfold member? at found
  split at found
  · simp at found
  · split at found
    · simp only [Option.some.injEq, Prod.mk.injEq] at found
      obtain ⟨-, rfl⟩ := found
      simp only [List.length_cons]
      omega
    · simp at found
  · simp at found
  · simp only [Option.some.injEq, Prod.mk.injEq] at found
    obtain ⟨-, rfl⟩ := found
    simp

/-! ## Classes -/

inductive ClassOperator where
  | intersection
  | difference
  | symmetricDifference
deriving DecidableEq, Repr

def ClassOperator.apply : ClassOperator → SymbolSet → SymbolSet → SymbolSet
  | .intersection => .intersection
  | .difference => .difference
  | .symmetricDifference => .symmetricDifference

structure ClassLevel where
  negated : Bool
  /-- What stands before the last operator. -/
  front : Option (SymbolSet × ClassOperator)
  /-- The members since then, reversed. -/
  members : List SymbolSet

namespace ClassLevel

def push (set : SymbolSet) (level : ClassLevel) : ClassLevel :=
  { level with members := set :: level.members }

def joined (level : ClassLevel) : SymbolSet :=
  let back := level.members.foldl (fun sets set => .union set sets) .nothing
  match level.front with
  | none => back
  | some (front, operator) => operator.apply front back

def operate (operator : ClassOperator) (level : ClassLevel) : ClassLevel :=
  { level with front := some (level.joined, operator), members := [] }

def close (level : ClassLevel) : SymbolSet :=
  if level.negated then .complement level.joined else level.joined

end ClassLevel

/-- Starts a class behind its opening bracket.  Hyphens at its front stand for
themselves, and so does a closing bracket without such hyphens before it. -/
def openClass (text : Text) : ClassLevel × Text :=
  let negated := text.head? == some '^'
  let body := if negated then text.tail else text
  let hyphens := (body.takeWhile (· == '-')).map fun c => SymbolSet.single c.toNat
  let rest := body.dropWhile (· == '-')
  if hyphens.isEmpty && rest.head? == some ']' then
    (⟨negated, none, [.single 93]⟩, rest.tail)
  else (⟨negated, none, hyphens⟩, rest)

theorem length_openClass_le (text : Text) : (openClass text).2.length ≤ text.length := by
  simp only [openClass]
  generalize bodyIs : (if (text.head? == some '^') = true then text.tail else text) = body
  have bodyLength : body.length ≤ text.length := by
    rw [← bodyIs]
    split <;> simp
  have restLength : (body.dropWhile (· == '-')).length ≤ body.length :=
    (List.dropWhile_sublist _).length_le
  split
  · simp only [List.length_tail]
    omega
  · dsimp only
    omega

/-- Reads a class.  `level` is the innermost one and `around` are those around it. -/
def readClass (ignoresCase : Bool) (level : ClassLevel) (around : List ClassLevel) (text : Text) :
    Except PatternFault (SymbolSet × Text) :=
  let range (low high : Char) : SymbolSet := .ranges ignoresCase [(low.toNat, high.toNat)]
  match text with
  | [] => .error .unclosedClass
  | ']' :: rest =>
      match around with
      | [] => .ok (level.close, rest)
      | outer :: around => readClass ignoresCase (outer.push level.close) around rest
  | '[' :: rest => readClass ignoresCase (openClass rest).1 (level :: around) (openClass rest).2
  | '&' :: '&' :: rest => readClass ignoresCase (level.operate .intersection) around rest
  | '-' :: '-' :: rest => readClass ignoresCase (level.operate .difference) around rest
  | '~' :: '~' :: rest => readClass ignoresCase (level.operate .symmetricDifference) around rest
  | c :: tail =>
      match _low : member? (c :: tail) with
      | none => .error .unknownEscape
      | some (low, '-' :: rest) =>
          if rest.head? = some ']' ∨ rest.head? = some '-' then
            readClass ignoresCase (level.push (range low low)) around ('-' :: rest)
          else
            match _high : member? rest with
            | none => .error .unclosedClass
            | some (high, rest) =>
                if high.toNat < low.toNat then .error .invalidRange
                else readClass ignoresCase (level.push (range low high)) around rest
      | some (low, rest) => readClass ignoresCase (level.push (range low low)) around rest
termination_by text.length
decreasing_by
  · simp
  · have := length_openClass_le rest
    simp only [List.length_cons]
    omega
  · simp only [List.length_cons]
    omega
  · simp only [List.length_cons]
    omega
  · simp only [List.length_cons]
    omega
  · exact length_lt_of_member? _low
  · have h₁ := length_lt_of_member? _low
    have h₂ := length_lt_of_member? _high
    simp only [List.length_cons] at h₁ ⊢
    omega
  · exact length_lt_of_member? _low

def digits (text : Text) : Option Nat × Text :=
  let digits := text.takeWhile Char.isDigit
  (if digits.isEmpty then none
    else some (digits.foldl (fun n c => n * 10 + (c.toNat - 48)) 0),
    text.dropWhile Char.isDigit)

/-- Reads `m}`, `m,}` or `m,n}`. -/
def counted (text : Text) : Except PatternFault (Count × Text) :=
  match digits text with
  | (some least, '}' :: rest) => .ok (⟨least, some least⟩, rest)
  | (some least, ',' :: more) =>
      match digits more with
      | (none, '}' :: rest) => .ok (⟨least, none⟩, rest)
      | (some most, '}' :: rest) =>
          if most < least then .error .invalidCount else .ok (⟨least, some most⟩, rest)
      | _ => .error .unclosedCount
  | _ => .error .unclosedCount

/-- Drops the mark of a repetition that prefers to be short: which texts match does
not depend on it. -/
def dropShortMark : Text → Text
  | '?' :: rest => rest
  | text => text

def token (ignoresCase : Bool) (text : Text) : Except PatternFault (Token × Text) :=
  let literal (c : Char) : Token := .atom (.symbol (.ranges ignoresCase [(c.toNat, c.toNat)]))
  match text with
  | [] => .error .danglingEscape
  | '(' :: '?' :: ':' :: rest => .ok (.opening, rest)
  | '(' :: '?' :: [] => .error .unclosedGroup
  | '(' :: '?' :: _ => .error .unknownFlag
  | '(' :: rest => .ok (.opening, rest)
  | ')' :: rest => .ok (.closing, rest)
  | '|' :: rest => .ok (.bar, rest)
  | '*' :: rest => .ok (.count ⟨0, none⟩, dropShortMark rest)
  | '+' :: rest => .ok (.count ⟨1, none⟩, dropShortMark rest)
  | '?' :: rest => .ok (.count ⟨0, some 1⟩, dropShortMark rest)
  | '{' :: rest => (counted rest).map fun (count, rest) => (.count count, dropShortMark rest)
  | '.' :: rest => .ok (.atom (.symbol (.complement (.single 10))), rest)
  | '^' :: rest => .ok (.atom .start, rest)
  | '$' :: rest => .ok (.atom .finish, rest)
  | '[' :: rest =>
      (readClass ignoresCase (openClass rest).1 [] (openClass rest).2).map fun (set, rest) =>
        (.atom (.symbol set), rest)
  | '\\' :: c :: rest =>
      if isEscapable c then .ok (literal c, rest) else .error .unknownEscape
  | '\\' :: [] => .error .danglingEscape
  | c :: rest => .ok (literal c, rest)

/-- Cuts a pattern into tokens.  `fuel` bounds their number; each takes at least one
character, so the length of the pattern is enough. -/
def tokensFrom (ignoresCase : Bool) (start : Nat) : (fuel : Nat) → Text →
    Except Fault (List Placed)
  | _, [] => .ok []
  | 0, _ => .ok []
  | fuel + 1, text =>
      match token ignoresCase text with
      | .error fault => .error (fault, start, start + 1)
      | .ok (token, rest) =>
          let stop := start + (text.length - rest.length)
          (tokensFrom ignoresCase stop fuel rest).map (⟨token, start, stop⟩ :: ·)

/-- An open group: the alternatives before the last bar, the pieces since then, both
in reverse, and the place of its parenthesis. -/
structure Group where
  alternatives : List Regex
  pieces : List Regex
  start : Nat

def Group.close (group : Group) : Regex :=
  Regex.altAll ((Regex.seqAll group.pieces.reverse :: group.alternatives).reverse)

def Group.push (regex : Regex) (group : Group) : Group :=
  { group with pieces := regex :: group.pieces }

def Count.apply (count : Count) (regex : Regex) : Regex :=
  match count.most with
  | none => .seq (regex.times count.least) (.star regex)
  | some most =>
      .seq (regex.times count.least) (Regex.times (most - count.least) (.alt regex .empty))

/-- Puts tokens together.  `group` is the innermost open group, `around` are those
around it. -/
def assemble (group : Group) (around : List Group) : List Placed → Except Fault Regex
  | [] =>
      match around with
      | [] => .ok group.close
      | _ :: _ => .error (.unclosedGroup, group.start, group.start + 1)
  | placed :: rest =>
      match placed.token with
      | .atom regex => assemble (group.push regex) around rest
      | .opening => assemble ⟨[], [], placed.start⟩ (group :: around) rest
      | .closing =>
          match around with
          | [] => .error (.unopenedGroup, placed.start, placed.stop)
          | outer :: around => assemble (outer.push group.close) around rest
      | .bar =>
          assemble
            { group with
              alternatives := Regex.seqAll group.pieces.reverse :: group.alternatives
              pieces := [] }
            around rest
      | .count count =>
          match group.pieces with
          | [] => .error (.missingRepeated, placed.start, placed.stop)
          | last :: before =>
              assemble { group with pieces := count.apply last :: before } around rest

def caseMark : Text → Bool × Text
  | '(' :: '?' :: 'i' :: ')' :: rest => (true, rest)
  | text => (false, text)

def read (pattern : Text) : Except PatternError Regex :=
  let (ignoresCase, body) := caseMark pattern
  let start := pattern.length - body.length
  let result : Except Fault Regex :=
    match tokensFrom ignoresCase start body.length body with
    | .error fault => .error fault
    | .ok tokens => assemble ⟨[], [], 0⟩ [] tokens
  match result with
  | .ok regex => .ok regex
  | .error (fault, start, stop) => .error ⟨pattern, fault, start, stop⟩

end Pattern

end TemplateSelectors
