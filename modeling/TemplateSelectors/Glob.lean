import TemplateSelectors.Regex

/-!
# Globs

A glob matches whole file paths, byte by byte.  `?` stands for any byte and `*` for
any bytes, separators among them; `**` between separators stands for any number of
directories; `[...]` is a class of bytes, `{a,b}` a choice, and a backslash makes
the next character stand for itself.
-/

set_option autoImplicit false

namespace TemplateSelectors

inductive GlobFault where
  | unclosedClass
  | invalidRange (low high : Char)
  | unopenedAlternates
  | unclosedAlternates
  | danglingEscape
deriving DecidableEq, Repr

def GlobFault.message : GlobFault → String
  | .unclosedClass => "unclosed character class; missing ']'"
  | .invalidRange low high =>
      "invalid range; '" ++ String.singleton low ++ "' > '" ++ String.singleton high ++ "'"
  | .unopenedAlternates =>
      "unopened alternate group; missing '\x7b' (maybe escape '\x7d' with '[\x7d]'?)"
  | .unclosedAlternates =>
      "unclosed alternate group; missing '\x7d' (maybe escape '\x7b' with '[\x7b]'?)"
  | .danglingEscape => "dangling '\\'"

structure GlobError where
  glob : Text
  fault : GlobFault
deriving DecidableEq, Repr

def GlobError.message (error : GlobError) : String :=
  "error parsing glob '" ++ String.ofList error.glob ++ "': " ++ error.fault.message

inductive GlobToken where
  | literal (c : Char)
  | anyOne
  | anyMany
  | directoriesFirst
  | directoriesLast
  | directoriesBetween
  | oneOf (negated : Bool) (ranges : List (Char × Char))
  | choice (branches : List (List GlobToken))

namespace Glob

/-! ## Meaning -/

def anyByte : Regex :=
  .symbol .all

def separator : Regex :=
  .symbol (.single 47)

def charRegex (c : Char) : Regex :=
  .seqAll ((String.utf8EncodeChar c).map fun byte => .symbol (.single byte.toNat))

/-- A range of characters as ranges of bytes: the bytes of its ends are members, and
so is what lies between the last byte of the one and the first byte of the other. -/
def byteRanges (low high : Char) : List (Nat × Nat) :=
  let first := (String.utf8EncodeChar low).map UInt8.toNat
  let last := (String.utf8EncodeChar high).map UInt8.toNat
  let single := fun byte => (byte, byte)
  if low = high then first.map single
  else
    first.dropLast.map single ++ [(first.getLast?.getD 0, last.head?.getD 0)] ++
      last.tail.map single

mutual

def tokenRegex? : GlobToken → Option Regex
  | .literal c => some (charRegex c)
  | .anyOne => some anyByte
  | .anyMany => some (.star anyByte)
  | .directoriesFirst => some (.alt (.alt separator .empty) (.seq (.star anyByte) separator))
  | .directoriesLast => some (.seq separator (.star anyByte))
  | .directoriesBetween =>
      some (.alt separator (.seq separator (.seq (.star anyByte) separator)))
  | .oneOf negated ranges =>
      let set := SymbolSet.ranges false (ranges.flatMap fun (low, high) => byteRanges low high)
      some (.symbol (if negated then .complement set else set))
  | .choice branches =>
      match branchRegexes branches with
      | [] => none
      | alternatives => some (.altAll alternatives)

def tokenRegexes : List GlobToken → List Regex
  | [] => []
  | token :: tokens => (tokenRegex? token).toList ++ tokenRegexes tokens

/-- The alternatives of a choice; an empty one is dropped. -/
def branchRegexes : List (List GlobToken) → List Regex
  | [] => []
  | branch :: branches =>
      (match tokenRegexes branch with
        | [] => []
        | pieces => [.seqAll pieces]) ++ branchRegexes branches

end

/-- The meaning of a whole glob.  One that is nothing but `**` matches everything. -/
def regexOf : List GlobToken → Regex
  | [.directoriesFirst] => .star anyByte
  | tokens => .seqAll (tokenRegexes tokens)

/-! ## Reading -/

/-- Reads the members of a class.  `first` holds before the first member, `joining` after
a hyphen that may join two members; `ranges` are the members so far, reversed. -/
def classRanges (first joining : Bool) (ranges : List (Char × Char)) :
    Text → Except GlobFault (List (Char × Char) × Text)
  | [] => .error .unclosedClass
  | c :: rest =>
      if c = ']' ∧ first = false then
        .ok ((if joining then ('-', '-') :: ranges else ranges).reverse, rest)
      else if c = '-' ∧ first = false ∧ joining = false then classRanges false true ranges rest
      else
        match joining, ranges with
        | true, (low, _) :: before =>
            if c.toNat < low.toNat then .error (.invalidRange low c)
            else classRanges false false ((low, c) :: before) rest
        | _, _ => classRanges false false ((c, c) :: ranges) rest

def classToken (text : Text) : Except GlobFault (GlobToken × Text) :=
  let negated : Bool := text.head? = some '!' ∨ text.head? = some '^'
  match classRanges true false [] (if negated then text.tail else text) with
  | .error fault => .error fault
  | .ok (ranges, rest) => .ok (.oneOf negated ranges, rest)

theorem length_lt_of_classRanges {first joining : Bool} {ranges : List (Char × Char)} {text : Text}
    {result : List (Char × Char) × Text}
    (found : classRanges first joining ranges text = .ok result) :
    result.2.length < text.length := by
  fun_induction classRanges first joining ranges text with
  | case1 => simp at found
  | case2 =>
      simp only [Except.ok.injEq] at found
      subst found
      simp
  | case3 =>
      rename_i inductionHypothesis
      exact Nat.lt_succ_of_lt (inductionHypothesis found)
  | case4 => simp at found
  | case5 =>
      rename_i inductionHypothesis
      exact Nat.lt_succ_of_lt (inductionHypothesis found)
  | case6 =>
      rename_i inductionHypothesis
      exact Nat.lt_succ_of_lt (inductionHypothesis found)

theorem length_le_of_classToken {text : Text} {token : GlobToken} {rest : Text}
    (found : classToken text = .ok (token, rest)) : rest.length ≤ text.length := by
  simp only [classToken] at found
  split at found
  · simp at found
  · next members =>
      simp only [Except.ok.injEq, Prod.mk.injEq] at found
      obtain ⟨-, rfl⟩ := found
      have shorter := length_lt_of_classRanges members
      have tail : text.tail.length ≤ text.length := by simp
      dsimp only at shorter
      split at shorter <;> omega

/-- A choice that is being read: the alternatives before the last comma and the tokens
since then, both in reverse. -/
structure Level where
  finished : List (List GlobToken)
  tokens : List GlobToken

def Level.push (token : GlobToken) (level : Level) : Level :=
  { level with tokens := token :: level.tokens }

def Level.close (level : Level) : GlobToken :=
  .choice ((level.tokens.reverse :: level.finished).reverse)

/-- Reads `**`, of which `rest` is what follows, after the character `before`. -/
def doubleStar (level : Level) (nested : Bool) (before : Option Char) (rest : Text) :
    Level × Text :=
  let plain := ((level.push .anyMany).push .anyMany, rest)
  if level.tokens.isEmpty then
    match rest with
    | [] => (level.push .directoriesFirst, [])
    | '/' :: after => (level.push .directoriesFirst, after)
    | _ => plain
  else if before = some '/' ∨ nested ∧ (before = some ',' ∨ before = some '{') then
    let replaceLast (token : GlobToken) : Level :=
      match level.tokens with
      | .directoriesFirst :: _ => level
      | .directoriesLast :: _ => level
      | _ :: tokens => { level with tokens := token :: tokens }
      | [] => level.push token
    match rest with
    | [] => (replaceLast .directoriesLast, [])
    | '/' :: after => (replaceLast .directoriesBetween, after)
    | c :: _ =>
        if nested ∧ (c = ',' ∨ c = '}') then (replaceLast .directoriesLast, rest) else plain
  else plain

theorem length_doubleStar_le (level : Level) (nested : Bool) (before : Option Char) (rest : Text) :
    (doubleStar level nested before rest).2.length ≤ rest.length := by
  simp only [doubleStar]
  split
  · split <;> simp
  · split
    · split
      · simp
      · simp
      · split <;> simp
    · simp

/-- Reads tokens.  `level` is the innermost choice, or the glob itself, and `around`
are those around it; `before` is the character before. -/
def readFrom (level : Level) (around : List Level) (before : Option Char) (text : Text) :
    Except GlobFault (List GlobToken) :=
  match text with
  | [] =>
      match around with
      | [] => .ok level.tokens.reverse
      | _ :: _ => .error .unclosedAlternates
  | '?' :: rest => readFrom (level.push .anyOne) around (some '?') rest
  | '*' :: '*' :: rest =>
      let next := doubleStar level (!around.isEmpty) before rest
      readFrom next.1 around (if next.2.length < rest.length then some '/' else some '*') next.2
  | '*' :: rest => readFrom (level.push .anyMany) around (some '*') rest
  | '[' :: rest =>
      match _found : classToken rest with
      | .error fault => .error fault
      | .ok (token, after) => readFrom (level.push token) around (some ']') after
  | '{' :: rest => readFrom ⟨[], []⟩ (level :: around) (some '{') rest
  | '}' :: rest =>
      match around with
      | [] => .error .unopenedAlternates
      | outer :: around => readFrom (outer.push level.close) around (some '}') rest
  | ',' :: rest =>
      if around.isEmpty then readFrom (level.push (.literal ',')) around (some ',') rest
      else readFrom ⟨level.tokens.reverse :: level.finished, []⟩ around (some ',') rest
  | '\\' :: c :: rest => readFrom (level.push (.literal c)) around (some c) rest
  | '\\' :: [] => .error .danglingEscape
  | c :: rest => readFrom (level.push (.literal c)) around (some c) rest
termination_by text.length
decreasing_by
  · simp
  · have := length_doubleStar_le level (!around.isEmpty) before rest
    simp only [List.length_cons]
    omega
  · simp
  · have := length_le_of_classToken _found
    simp only [List.length_cons]
    omega
  · simp
  · simp
  · simp
  · simp
  · simp only [List.length_cons]
    omega
  · simp

def readTokens (glob : Text) : Except GlobFault (List GlobToken) :=
  readFrom ⟨[], []⟩ [] none glob

end Glob

/-! ## Names of files -/

namespace GlobToken

def literal? : GlobToken → Option Char
  | .literal c => some c
  | _ => none

def literals? (tokens : List GlobToken) : Option Text :=
  tokens.mapM literal?

/-- Whether tokens, given in reverse, end in a dot and characters of the same name. -/
def endInExtension : (reversed : List GlobToken) → Bool
  | .literal c :: rest => c == '.' || (c != '/' && endInExtension rest)
  | _ => false

/-- Whether tokens are decided by the name of the file that a path leads to: they give
the whole name, or nothing but an extension, or an extension after something that has to
be matched as well. -/
def judgeFileName (tokens : List GlobToken) : Bool :=
  let (anywhere, named) :=
    match tokens with
    | .directoriesFirst :: rest => (true, rest)
    | _ => (false, tokens)
  let (anyFront, ending) :=
    match named with
    | .anyMany :: rest => (true, rest)
    | _ => (false, named)
  match literals? ending with
  | some ending =>
      if anyFront then
        ending.head? == some '.' && ending.tail.all fun c => c != '.' && c != '/'
      else anywhere && !ending.isEmpty && !ending.contains '/'
  | none => endInExtension tokens.reverse

end GlobToken

structure Glob where
  source : Text
  regex : Regex
  /-- Whether it asks for the name of a file, which a path that ends in `..` lacks. -/
  needsFileName : Bool
deriving DecidableEq, Repr

namespace Glob

def read (source : Text) : Except GlobError Glob :=
  match readTokens source with
  | .error fault => .error ⟨source, fault⟩
  | .ok tokens => .ok ⟨source, regexOf tokens, GlobToken.judgeFileName tokens⟩

def endsInParent (path : Text) : Bool :=
  path == ['.', '.'] || ['/', '.', '.'].isSuffixOf path

def isMatch (glob : Glob) (path : Text) : Bool :=
  glob.regex.isMatch (path.bytes.map UInt8.toNat) && !(glob.needsFileName && endsInParent path)

end Glob

end TemplateSelectors
