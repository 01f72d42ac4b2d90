import Mathlib.Data.List.Induction
import TemplateSelectors.FileFilter
import TemplateSelectors.Proofs.RegexLanguage

/-!
# How globs end

What the end of a glob says about the paths that it matches.  One that ends in a slash and two
stars matches all that lies below a directory as soon as it matches one entry of it.  One that
ends in a character that stands for itself matches only paths that end in this character.
-/

set_option autoImplicit false

namespace TemplateSelectors

namespace Glob

/-! ## The last token -/

def special : List Char :=
  ['?', '*', '[', ']', '{', '}', ',', '\\']

theorem exists_of_classRanges {first joining : Bool} {ranges : List (Char × Char)} {text : Text}
    {result : List (Char × Char) × Text}
    (found : classRanges first joining ranges text = .ok result) :
    ∃ members, text = members ++ ']' :: result.2 := by
  fun_induction classRanges first joining ranges text with
  | case1 => cases found
  | case2 first joining ranges c rest closes =>
      cases found
      exact ⟨[], by rw [closes.1]; rfl⟩
  | case3 =>
      rename_i inductionHypothesis
      obtain ⟨members, rfl⟩ := inductionHypothesis found
      exact ⟨_ :: members, rfl⟩
  | case4 => cases found
  | case5 =>
      rename_i inductionHypothesis
      obtain ⟨members, rfl⟩ := inductionHypothesis found
      exact ⟨_ :: members, rfl⟩
  | case6 =>
      rename_i inductionHypothesis
      obtain ⟨members, rfl⟩ := inductionHypothesis found
      exact ⟨_ :: members, rfl⟩

theorem exists_of_classToken {text rest : Text} {token : GlobToken}
    (found : classToken text = .ok (token, rest)) :
    token ≠ .directoriesFirst ∧ ∃ members, text = members ++ ']' :: rest := by
  simp only [classToken] at found
  split at found
  · cases found
  · next ranges rest' members =>
      cases found
      refine ⟨by simp, ?_⟩
      obtain ⟨read, inside⟩ := exists_of_classRanges members
      split at inside
      · next negated =>
          cases text with
          | nil => simp at negated
          | cons c text =>
              rw [List.tail_cons] at inside
              exact ⟨c :: read, by rw [inside]; rfl⟩
      · exact ⟨read, inside⟩

/-- A level whose last token stands for directories at the front only if it is the only one. -/
def Level.Grounded (level : Level) : Prop :=
  ∀ tokens, level.tokens = .directoriesFirst :: tokens → tokens = []

theorem Level.grounded_push (level : Level) {token : GlobToken}
    (other : token ≠ .directoriesFirst) : (level.push token).Grounded := by
  intro tokens same
  rw [Level.push, List.cons.injEq] at same
  exact absurd same.1 other

theorem Level.grounded_replaced {level next : Level} (grounded : level.Grounded)
    (nonempty : level.tokens ≠ []) (token : GlobToken) (other : token ≠ .directoriesFirst)
    (replaced : next = level ∨ ∃ tokens, next = { level with tokens := token :: tokens }) :
    next.Grounded ∧ next.tokens ≠ [] := by
  rcases replaced with rfl | ⟨tokens, rfl⟩
  · exact ⟨grounded, nonempty⟩
  · exact ⟨Level.grounded_push { level with tokens := tokens } other, by simp⟩

/-- Two stars leave a token behind, and take nothing but a slash along. -/
theorem doubleStar_cases {level : Level} (grounded : level.Grounded) (nested : Bool)
    (before : Option Char) (rest : Text) :
    ((doubleStar level nested before rest).1.Grounded ∧
      (doubleStar level nested before rest).1.tokens ≠ []) ∧
      ((doubleStar level nested before rest).2 = rest ∨
        rest = '/' :: (doubleStar level nested before rest).2) := by
  have plain : ((level.push .anyMany).push .anyMany).Grounded ∧
      ((level.push .anyMany).push .anyMany).tokens ≠ [] :=
    ⟨Level.grounded_push _ (by simp), by simp [Level.push]⟩
  simp only [doubleStar]
  split
  · next none =>
      have first : (level.push .directoriesFirst).Grounded ∧
          (level.push .directoriesFirst).tokens ≠ [] := by
        refine ⟨?_, by simp [Level.push]⟩
        intro tokens same
        rw [Level.push, List.cons.injEq] at same
        rw [← same.2]
        exact List.isEmpty_iff.mp none
      split
      · exact ⟨first, .inl rfl⟩
      · exact ⟨first, .inr rfl⟩
      · exact ⟨plain, .inl rfl⟩
  · next some =>
      have nonempty : level.tokens ≠ [] := by simpa using some
      split
      · split
        · refine ⟨Level.grounded_replaced grounded nonempty .directoriesLast (by simp) ?_, .inl rfl⟩
          split <;> simp [Level.push]
        · refine ⟨Level.grounded_replaced grounded nonempty .directoriesBetween (by simp) ?_,
            .inr rfl⟩
          split <;> simp [Level.push]
        · split
          · refine ⟨Level.grounded_replaced grounded nonempty .directoriesLast (by simp) ?_, .inl rfl⟩
            split <;> simp [Level.push]
          · exact ⟨plain, .inl rfl⟩
      · exact ⟨plain, .inl rfl⟩

/-- What is left when a character that stands for itself has been read. -/
def Passed (c : Char) (tail : Text) (tokens : List GlobToken) : Prop :=
  ∃ level around, level.Grounded ∧ level.tokens ≠ [] ∧
    (c ≠ '/' → level.tokens.head? = some (.literal c)) ∧
    readFrom level around (some c) tail = .ok tokens

theorem passed_of_push {level : Level} {around : List Level} {c : Char} {tail : Text}
    {tokens : List GlobToken}
    (found : readFrom (level.push (.literal c)) around (some c) tail = .ok tokens) :
    Passed c tail tokens :=
  ⟨level.push (.literal c), around, Level.grounded_push _ (by simp), by simp [Level.push],
    fun _ => rfl, found⟩

theorem suffix_of_cons {x c : Char} {rest tail : Text} (ahead : c :: tail <:+ x :: rest)
    (other : c ≠ x) : c :: tail <:+ rest := by
  rcases List.suffix_cons_iff.mp ahead with here | later
  · exact absurd (List.cons.inj here).1 other
  · exact later

/-- A class that is closed by a bracket lies before what holds no bracket. -/
theorem suffix_behind_bracket {members rest tail : Text} {c : Char}
    (ahead : c :: tail <:+ members ++ ']' :: rest) (noBracket : ']' ∉ c :: tail) :
    c :: tail <:+ rest := by
  induction members with
  | nil => exact suffix_of_cons ahead fun same => noBracket (by simp [same])
  | cons d members inductionHypothesis =>
      rcases List.suffix_cons_iff.mp ahead with whole | later
      · refine absurd ?_ noBracket
        rw [whole]
        simp
      · exact inductionHypothesis later

section

variable {level : Level} {around : List Level} {before : Option Char} {c : Char}
  {rest tail : Text} {tokens : List GlobToken}

theorem passed_of_literal {d : Char}
    (found : readFrom (level.push (.literal d)) around (some d) rest = .ok tokens)
    (ahead : c :: tail <:+ d :: rest) (later : c :: tail <:+ rest → Passed c tail tokens) :
    Passed c tail tokens := by
  rcases List.suffix_cons_iff.mp ahead with here | behind
  · cases here
    exact passed_of_push found
  · exact later behind

/-- Two stars take a slash along; this may be the character that is ahead. -/
theorem passed_of_doubleStar (grounded : level.Grounded)
    (found : readFrom (doubleStar level (!around.isEmpty) before rest).1 around
      (if (doubleStar level (!around.isEmpty) before rest).2.length < rest.length then some '/'
        else some '*') (doubleStar level (!around.isEmpty) before rest).2 = .ok tokens)
    (ahead : c :: tail <:+ rest)
    (later : (doubleStar level (!around.isEmpty) before rest).1.Grounded →
      c :: tail <:+ (doubleStar level (!around.isEmpty) before rest).2 → Passed c tail tokens) :
    Passed c tail tokens := by
  obtain ⟨⟨kept, nonempty⟩, same | slash⟩ :=
    doubleStar_cases grounded (!around.isEmpty) before rest
  · exact later kept (by rwa [same])
  · have shorter : (doubleStar level (!around.isEmpty) before rest).2.length < rest.length := by
      conv => rhs; rw [slash]
      exact Nat.lt_succ_self _
    rw [slash] at ahead
    rcases List.suffix_cons_iff.mp ahead with here | behind
    · cases here
      rw [if_pos shorter] at found
      exact ⟨_, around, kept, nonempty, fun other => absurd rfl other, found⟩
    · exact later kept behind

/-- Reading comes past every character that stands for itself, if no class can end behind it. -/
theorem passed_of_readFrom {text : Text} (found : readFrom level around before text = .ok tokens)
    (grounded : level.Grounded) (ahead : c :: tail <:+ text) (plain : c ∉ special)
    (noBracket : ']' ∉ tail) : Passed c tail tokens := by
  have ordinary : ∀ x ∈ special, c ≠ x := by
    rintro x member rfl
    exact plain member
  have freshGrounded : ∀ finished, Level.Grounded ⟨finished, []⟩ := by
    intro finished tokens same
    cases same
  -- along the reading of `text`: what is read first is not yet `c`, unless it stands for itself
  fun_induction readFrom level around before text with
  -- the text ends
  | case1 => cases List.suffix_nil.mp ahead
  | case2 => cases found
  -- `?`
  | case3 level around before rest inductionHypothesis =>
      have later := suffix_of_cons ahead (ordinary _ (by simp [special]))
      exact inductionHypothesis found (Level.grounded_push _ (by simp)) later
  -- `**`
  | case4 level around before rest next =>
      rename_i inductionHypothesis
      have star := suffix_of_cons ahead (ordinary _ (by simp [special]))
      have later := suffix_of_cons star (ordinary _ (by simp [special]))
      exact passed_of_doubleStar grounded found later (inductionHypothesis found)
  -- `*`
  | case5 level around before rest _ inductionHypothesis =>
      have later := suffix_of_cons ahead (ordinary _ (by simp [special]))
      exact inductionHypothesis found (Level.grounded_push _ (by simp)) later
  -- a class, which is malformed or closed by a bracket
  | case6 => cases found
  | case7 level around before rest token after read inductionHypothesis =>
      obtain ⟨other, members, closed⟩ := exists_of_classToken read
      have later := suffix_of_cons ahead (ordinary _ (by simp [special]))
      have unclosed : ']' ∉ c :: tail := by
        rw [List.mem_cons, not_or]
        exact ⟨fun same => ordinary ']' (by simp [special]) same.symm, noBracket⟩
      rw [closed] at later
      exact inductionHypothesis found (Level.grounded_push _ other)
        (suffix_behind_bracket later unclosed)
  -- a choice is opened
  | case8 level around before rest inductionHypothesis =>
      have later := suffix_of_cons ahead (ordinary _ (by simp [special]))
      exact inductionHypothesis found (freshGrounded []) later
  -- a choice is closed
  | case9 => cases found
  | case10 level before rest outer around inductionHypothesis =>
      have later := suffix_of_cons ahead (ordinary _ (by simp [special]))
      exact inductionHypothesis found (Level.grounded_push _ (by simp [Level.close])) later
  -- a comma, outside of all choices and in one
  | case11 level around before rest _ inductionHypothesis =>
      have later := suffix_of_cons ahead (ordinary _ (by simp [special]))
      exact inductionHypothesis found (Level.grounded_push _ (by simp)) later
  | case12 level around before rest _ inductionHypothesis =>
      have later := suffix_of_cons ahead (ordinary _ (by simp [special]))
      exact inductionHypothesis (by simpa using found) (freshGrounded _) later
  -- a backslash, with the character that it takes along and without
  | case13 level around before d rest inductionHypothesis =>
      have later := suffix_of_cons ahead (ordinary _ (by simp [special]))
      exact passed_of_literal found later
        (inductionHypothesis found (Level.grounded_push _ (by simp)))
  | case14 => cases found
  -- any other character
  | case15 =>
      rename_i level around before d rest _ _ _ _ _ _ _ _ _ inductionHypothesis
      exact passed_of_literal found ahead
        (inductionHypothesis found (Level.grounded_push _ (by simp)))

end

theorem passed_of_readTokens {front tail : Text} {c : Char} {tokens : List GlobToken}
    (found : readTokens (front ++ c :: tail) = .ok tokens) (plain : c ∉ special)
    (noBracket : ']' ∉ tail) : Passed c tail tokens := by
  refine passed_of_readFrom found ?_ (List.suffix_append _ _) plain noBracket
  intro tokens same
  cases same

theorem eq_reverse_of_readFrom_nil {level : Level} {around : List Level} {before : Option Char}
    {tokens : List GlobToken} (found : readFrom level around before [] = .ok tokens) :
    tokens = level.tokens.reverse := by
  cases around with
  | nil =>
      rw [readFrom] at found
      cases found
      rfl
  | cons outer around =>
      rw [readFrom] at found
      cases found

theorem getLast?_of_readTokens_plain {front : Text} {c : Char} {tokens : List GlobToken}
    (found : readTokens (front ++ [c]) = .ok tokens) (plain : c ∉ special) (other : c ≠ '/') :
    tokens.getLast? = some (.literal c) := by
  obtain ⟨level, around, -, -, top, finished⟩ := passed_of_readTokens found plain (by simp)
  rw [eq_reverse_of_readFrom_nil finished, List.getLast?_reverse]
  exact top other

/-- A glob that ends in a slash and two stars ends in the token for all that is below, or is
nothing but stars and slashes. -/
theorem tokens_of_readTokens_below {front : Text} {tokens : List GlobToken}
    (found : readTokens (front ++ ['/', '*', '*']) = .ok tokens) :
    tokens = [.directoriesFirst] ∨ tokens.getLast? = some .directoriesLast := by
  obtain ⟨level, around, grounded, nonempty, -, finished⟩ :=
    passed_of_readTokens found (by decide) (by decide)
  rw [readFrom] at finished
  have noRest : (doubleStar level (!around.isEmpty) (some '/') []).2 = [] :=
    List.length_eq_zero_iff.mp
      (Nat.le_zero.mp (length_doubleStar_le level (!around.isEmpty) (some '/') []))
  simp only [noRest] at finished
  rw [eq_reverse_of_readFrom_nil finished, List.getLast?_reverse]
  have occupied : level.tokens.isEmpty = false := by simpa using nonempty
  simp only [doubleStar, occupied]
  cases read : level.tokens with
  | nil => exact absurd read nonempty
  | cons token others =>
      cases token with
      | directoriesFirst =>
          have single : others = [] := grounded others read
          left
          simp [read, single]
      | directoriesLast =>
          right
          simp [read]
      | _ =>
          right
          simp

end Glob

namespace GlobToken

theorem literals?_of_mem {tokens : List GlobToken} {token : GlobToken} (member : token ∈ tokens)
    (other : literal? token = none) : literals? tokens = none := by
  obtain ⟨front, back, rfl⟩ := List.append_of_mem member
  simp [literals?, other]

theorem judgeFileName_below (tokens : List GlobToken) :
    judgeFileName (tokens ++ [.directoriesLast]) = false := by
  have whole : directoriesLast ∈ tokens ++ [directoriesLast] := by simp
  unfold judgeFileName
  split
  next anywhere named front =>
  have inNamed : directoriesLast ∈ named := by
    split at front
    · next rest same =>
        cases front
        rw [same] at whole
        simpa using whole
    · cases front
      exact whole
  split
  next anyFront ending middle =>
  have inEnding : directoriesLast ∈ ending := by
    split at middle
    · cases middle
      simpa using inNamed
    · cases middle
      exact inNamed
  rw [literals?_of_mem inEnding rfl]
  simp [endInExtension]

end GlobToken

namespace Glob

/-! ## What the last token asks for -/

theorem tokenRegexes_append (front back : List GlobToken) :
    tokenRegexes (front ++ back) = tokenRegexes front ++ tokenRegexes back := by
  induction front with
  | nil => rfl
  | cons token front inductionHypothesis => simp [tokenRegexes, inductionHypothesis]

theorem regexOf_concat (tokens : List GlobToken) (token : GlobToken) {regex : Regex}
    (meaning : tokenRegex? token = some regex) (other : token ≠ .directoriesFirst) :
    regexOf (tokens ++ [token]) = .seqAll (tokenRegexes tokens ++ [regex]) := by
  unfold regexOf
  split
  · next single =>
      have last := congrArg List.getLast? single
      simp only [List.getLast?_append, List.getLast?_singleton, Option.some_or] at last
      exact absurd (Option.some.inj last) other
  · rw [tokenRegexes_append]
    simp [tokenRegexes, meaning]

theorem contains_all (n : Nat) : SymbolSet.all.contains n = true := by
  simp [SymbolSet.all, SymbolSet.nothing, SymbolSet.contains, SymbolSet.inRanges]

theorem contains_single_iff (m n : Nat) : (SymbolSet.single m).contains n = true ↔ n = m := by
  simp only [SymbolSet.single, SymbolSet.contains, SymbolSet.inRanges]
  simp
  omega

theorem accepts_separator_iff {atStart atEnd : Bool} {word : List Nat} :
    separator.Accepts atStart atEnd word ↔ word = [47] := by
  rw [separator, Regex.accepts_symbol_iff]
  simp [contains_single_iff]

theorem accepts_charRegex_iff {atStart atEnd : Bool} {c : Char} {word : List Nat} :
    (charRegex c).Accepts atStart atEnd word ↔
      word = (String.utf8EncodeChar c).map UInt8.toNat := by
  rw [charRegex]
  induction String.utf8EncodeChar c using List.reverseRecOn generalizing atEnd word with
  | nil => exact Regex.accepts_empty_iff
  | append_singleton bytes byte inductionHypothesis =>
      rw [List.map_append, List.map_singleton, Regex.accepts_seqAll_concat_iff]
      simp only [inductionHypothesis, Regex.accepts_symbol_iff, contains_single_iff]
      constructor
      · rintro ⟨front, back, rfl, rfl, n, rfl, rfl⟩
        simp
      · rintro rfl
        exact ⟨_, _, by simp, rfl, _, rfl, rfl⟩

theorem toNat_eq_of_getLast? {c : Char} {n : Nat}
    (last : ((String.utf8EncodeChar c).map UInt8.toNat).getLast? = some n) (small : n < 128) :
    c.toNat = n := by
  rw [String.utf8EncodeChar] at last
  split at last
  · next ascii =>
      rw [show c.val.toNat = c.toNat from rfl] at ascii
      simp at last
      omega
  · split at last
    · simp at last
      omega
    · split at last
      · simp at last
        omega
      · simp at last
        omega

/-! ## Entries of a directory -/

def symbols (path : Text) : List Nat :=
  path.bytes.map UInt8.toNat

theorem symbols_entry (directory entry : Text) :
    symbols (directory ++ '/' :: entry) = symbols directory ++ 47 :: symbols entry := by
  simp only [symbols, Text.bytes, List.flatMap_append, List.flatMap_cons, List.map_append]
  rfl

theorem symbols_probe (directory : Text) :
    symbols (directory ++ ['/', '_']) = symbols directory ++ [47, 95] :=
  symbols_entry directory ['_']

theorem accepts_below_iff {atStart atEnd : Bool} {word : List Nat} :
    (Regex.seq separator (.star anyByte)).Accepts atStart atEnd word ↔
      ∃ rest, word = 47 :: rest := by
  rw [Regex.accepts_seq_iff]
  simp only [accepts_separator_iff]
  constructor
  · rintro ⟨_, rest, rfl, rfl, -⟩
    exact ⟨rest, rfl⟩
  · rintro ⟨rest, rfl⟩
    exact ⟨[47], rest, rfl, rfl, Regex.accepts_star_symbol contains_all _ _ _⟩

/-- A separator in front of a tried entry is in front of every other entry as well. -/
theorem exists_separator {word front back : List Nat}
    (same : word ++ [47, 95] = front ++ 47 :: back) (rest : List Nat) :
    ∃ back', word ++ 47 :: rest = front ++ 47 :: back' := by
  -- the tried name itself lies behind the separator, which is not the last symbol
  rcases List.eq_nil_or_concat back with rfl | ⟨more, last, rfl⟩
  · have ends := congrArg List.getLast? same
    simp at ends
  · have shorter : (word ++ [47]) ++ [95] = (front ++ 47 :: more) ++ [last] := by simpa using same
    have both := (List.append_inj' shorter rfl).1
    refine ⟨more ++ rest, ?_⟩
    calc word ++ 47 :: rest = (word ++ [47]) ++ rest := by simp
      _ = (front ++ 47 :: more) ++ rest := by rw [both]
      _ = front ++ 47 :: (more ++ rest) := by simp

/-- A glob for all that is below a directory takes every entry of a directory if it takes one. -/
theorem isMatch_below {front : Text} {glob : Glob}
    (found : read (front ++ ['/', '*', '*']) = .ok glob) {directory : Text}
    (tried : glob.isMatch (directory ++ ['/', '_']) = true) (entry : Text) :
    glob.isMatch (directory ++ '/' :: entry) = true := by
  rw [read] at found
  split at found
  · cases found
  · next tokens reading =>
      cases found
      rcases tokens_of_readTokens_below reading with rfl | last
      · simp only [isMatch, Bool.and_eq_true]
        refine ⟨?_, rfl⟩
        rw [regexOf, Regex.isMatch_iff]
        exact Regex.accepts_star_symbol contains_all _ _ _
      · obtain ⟨others, rfl⟩ := List.getLast?_eq_some_iff.mp last
        have meaning := regexOf_concat others .directoriesLast rfl (by simp)
        simp only [isMatch, GlobToken.judgeFileName_below, Bool.false_and, Bool.not_false,
          Bool.and_true] at tried ⊢
        rw [meaning, Regex.isMatch_iff, Regex.accepts_seqAll_concat_iff] at tried ⊢
        obtain ⟨front', back, same, left, right⟩ := tried
        obtain ⟨back, rfl⟩ := accepts_below_iff.mp right
        obtain ⟨back', same'⟩ := exists_separator ((symbols_probe directory).symm.trans same)
          (symbols entry)
        exact ⟨front', 47 :: back', (symbols_entry directory entry).trans same', left,
          accepts_below_iff.mpr ⟨back', rfl⟩⟩

/-- A glob that ends in a character that stands for itself takes only paths that end in it. -/
theorem not_isMatch_probe {front : Text} {c : Char} {glob : Glob}
    (found : read (front ++ [c]) = .ok glob) (plain : c ∉ special) (noSeparator : c ≠ '/')
    (other : c ≠ '_') (directory : Text) : glob.isMatch (directory ++ ['/', '_']) = false := by
  rw [Bool.eq_false_iff]
  intro tried
  rw [read] at found
  split at found
  · cases found
  · next tokens reading =>
      cases found
      obtain ⟨others, rfl⟩ :=
        List.getLast?_eq_some_iff.mp (getLast?_of_readTokens_plain reading plain noSeparator)
      have accepted := (Bool.and_eq_true_iff.mp tried).1
      rw [regexOf_concat others (.literal c) rfl (by simp), Regex.isMatch_iff,
        Regex.accepts_seqAll_concat_iff] at accepted
      obtain ⟨front', back, same, -, right⟩ := accepted
      rw [accepts_charRegex_iff] at right
      have ends := congrArg List.getLast? ((symbols_probe directory).symm.trans same)
      have nonempty : back ≠ [] := by
        intro none
        have size := congrArg List.length (right.symm.trans none)
        rw [List.length_map, String.length_utf8EncodeChar] at size
        exact absurd size (Nat.ne_of_gt (Char.utf8Size_pos c))
      rw [List.getLast?_append, List.getLast?_append,
        List.getLast?_eq_some_getLast nonempty, Option.some_or] at ends
      have last : back.getLast? = some 95 :=
        (List.getLast?_eq_some_getLast nonempty).trans ends.symm
      have code : c.toNat = 95 := toNat_eq_of_getLast? (right ▸ last) (by decide)
      exact other (Char.toNat_inj.mp code)

/-! ## Patterns that judge a directory by any of its entries -/

/-- Whether an exclusion that takes the tried entry of a directory takes all that is below it, as
its last characters show. -/
def judgesDirectories (pattern : Text) : Bool :=
  ['/', '*', '*'].isSuffixOf pattern ||
    pattern.getLast?.any fun c => !('/' :: '_' :: special).contains c

theorem isMatch_of_judgesDirectories {pattern : Text} {glob : Glob}
    (found : read pattern = .ok glob) (judges : judgesDirectories pattern = true) {directory : Text}
    (tried : glob.isMatch (directory ++ ['/', '_']) = true) (entry : Text) :
    glob.isMatch (directory ++ '/' :: entry) = true := by
  rw [judgesDirectories, Bool.or_eq_true, List.isSuffixOf_iff_suffix] at judges
  rcases judges with ⟨front, rfl⟩ | plain
  · exact isMatch_below found tried entry
  · rw [Option.any_eq_true] at plain
    obtain ⟨c, last, ordinary⟩ := plain
    obtain ⟨front, rfl⟩ := List.getLast?_eq_some_iff.mp last
    rw [Bool.not_eq_true', List.contains_eq_mem, decide_eq_false_iff_not, List.mem_cons,
      List.mem_cons, not_or, not_or] at ordinary
    obtain ⟨noSeparator, other, plain⟩ := ordinary
    rw [not_isMatch_probe found plain noSeparator other] at tried
    cases tried

end Glob

end TemplateSelectors
