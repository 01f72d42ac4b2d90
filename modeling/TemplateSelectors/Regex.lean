import TemplateSelectors.Text

/-!
# Regular expressions

Regular expressions over numbered symbols, which are code points for texts and
bytes for file paths.  A symbol is matched by stepping to the expressions that
may follow it; a search keeps the expressions that are still possible, each once.
-/

set_option autoImplicit false

namespace TemplateSelectors

inductive SymbolSet where
  /-- The symbols in some ranges; `ignoresCase` if the case of letters does not matter. -/
  | ranges (ignoresCase : Bool) (bounds : List (Nat × Nat))
  | complement (set : SymbolSet)
  | union (first second : SymbolSet)
  | intersection (first second : SymbolSet)
deriving DecidableEq, Repr, Inhabited

namespace SymbolSet

/-- The symbols that differ from `n` in case only, `n` among them: the other case
of an ASCII letter, and the two characters beyond ASCII whose folded form is one. -/
def caseVariants (n : Nat) : List Nat :=
  if 65 ≤ n ∧ n ≤ 90 ∨ 97 ≤ n ∧ n ≤ 122 then
    let lower := if n ≤ 90 then n + 32 else n
    [lower, lower - 32] ++ (if lower = 107 then [0x212A] else []) ++
      (if lower = 115 then [0x17F] else [])
  else if n = 0x212A then [n, 107, 75]
  else if n = 0x17F then [n, 115, 83]
  else [n]

def inRanges (bounds : List (Nat × Nat)) (n : Nat) : Bool :=
  bounds.any fun (low, high) => low ≤ n && n ≤ high

def contains : SymbolSet → Nat → Bool
  | .ranges ignoresCase bounds, n =>
      if ignoresCase then (caseVariants n).any (inRanges bounds) else inRanges bounds n
  | .complement set, n => !set.contains n
  | .union first second, n => first.contains n || second.contains n
  | .intersection first second, n => first.contains n && second.contains n

def single (n : Nat) : SymbolSet :=
  .ranges false [(n, n)]

def nothing : SymbolSet :=
  .ranges false []

def all : SymbolSet :=
  .complement nothing

def difference (first second : SymbolSet) : SymbolSet :=
  .intersection first (.complement second)

def symmetricDifference (first second : SymbolSet) : SymbolSet :=
  .union (first.difference second) (second.difference first)

end SymbolSet

inductive Regex where
  | empty
  | symbol (set : SymbolSet)
  | start
  | finish
  | seq (first second : Regex)
  | alt (first second : Regex)
  | star (inner : Regex)
deriving DecidableEq, Repr, Inhabited

namespace Regex

/-- Whether the empty text matches at a place that is the start or the end of the
whole text or neither. -/
def nullable (atStart atEnd : Bool) : Regex → Bool
  | .empty => true
  | .symbol _ => false
  | .start => atStart
  | .finish => atEnd
  | .seq first second => first.nullable atStart atEnd && second.nullable atStart atEnd
  | .alt first second => first.nullable atStart atEnd || second.nullable atStart atEnd
  | .star _ => true

/-- The expressions of which one must match what follows the symbol `n`. -/
def steps (atStart : Bool) (n : Nat) : Regex → List Regex
  | .empty => []
  | .symbol set => if set.contains n then [.empty] else []
  | .start => []
  | .finish => []
  | .seq first second =>
      (first.steps atStart n).map (.seq · second) ++
        if first.nullable atStart false then second.steps atStart n else []
  | .alt first second => first.steps atStart n ++ second.steps atStart n
  | .star inner => (inner.steps atStart n).map (.seq · (.star inner))

def stepAll (atStart : Bool) (n : Nat) (states : List Regex) : List Regex :=
  (states.flatMap (steps atStart n)).eraseDups

def matchesFrom (atStart : Bool) (states : List Regex) : List Nat → Bool
  | [] => states.any (nullable atStart true)
  | n :: rest => matchesFrom false (stepAll atStart n states) rest

def isMatch (regex : Regex) (text : List Nat) : Bool :=
  matchesFrom true [regex] text

/-- Whether one of `states` matches from here, or `regex` from a later place. -/
def searchFrom (regex : Regex) (atStart : Bool) (states : List Regex) : List Nat → Bool
  | [] => (regex :: states).any (nullable atStart true)
  | n :: rest =>
      (regex :: states).any (nullable atStart false) ||
        searchFrom regex false (stepAll atStart n (regex :: states)) rest

def occursIn (regex : Regex) (text : List Nat) : Bool :=
  searchFrom regex true [] text

def seqAll : List Regex → Regex
  | [] => .empty
  | [regex] => regex
  | regex :: rest => .seq regex (seqAll rest)

/-- One of several expressions; the empty text if there are none. -/
def altAll : List Regex → Regex
  | [] => .empty
  | [regex] => regex
  | regex :: rest => .alt regex (altAll rest)

def times (count : Nat) (regex : Regex) : Regex :=
  seqAll (List.replicate count regex)

end Regex

end TemplateSelectors
