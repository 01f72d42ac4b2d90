import TemplateSelectors.Proofs.ByteSearch
import TemplateSelectors.Proofs.Discovery

/-!
# What is always excluded

A glob names a directory and takes all that lies below it, at the top or anywhere.  It is matched
against bytes, and stars reach across slashes; still it takes exactly the paths that lead through
a directory of this name, because the name stands between slashes or at an end, and a slash is
never a byte of another character.
-/

set_option autoImplicit false

namespace TemplateSelectors

namespace Glob

/-! ## Reading names -/

theorem readFrom_plain {c : Char} (plain : c ∉ special) (level : Level) (around : List Level)
    (before : Option Char) (rest : Text) :
    readFrom level around before (c :: rest) =
      readFrom (level.push (.literal c)) around (some c) rest := by
  simp only [special, List.mem_cons, List.not_mem_nil, or_false, not_or] at plain
  obtain ⟨question, star, opening, closing, brace, endBrace, comma, backslash⟩ := plain
  rw [readFrom]
  all_goals simp_all

theorem readFrom_append {word : Text} (plain : ∀ c ∈ word, c ∉ special) (level : Level)
    (around : List Level) (before : Option Char) (rest : Text) :
    readFrom level around before (word ++ rest) =
      readFrom ⟨level.finished, (word.map .literal).reverse ++ level.tokens⟩ around
        (word.getLast?.or before) rest := by
  induction word generalizing level before with
  | nil => rfl
  | cons c word inductionHypothesis =>
      rw [List.forall_mem_cons] at plain
      rw [List.cons_append, readFrom_plain plain.1, inductionHypothesis plain.2, List.getLast?_cons]
      cases word.getLast? <;> simp [Level.push]

theorem readFrom_below {name : Text} (plain : ∀ c ∈ name, c ∉ special) (tokens : List GlobToken)
    (before : Option Char) :
    readFrom ⟨[], tokens⟩ [] before (name ++ ['/', '*', '*']) =
      .ok (tokens.reverse ++ (name.map .literal ++ [.directoriesLast])) := by
  have plainSlash : ∀ c ∈ name ++ ['/'], c ∉ special := by
    intro c member
    rcases List.mem_append.mp member with inside | slash
    · exact plain c inside
    · rw [List.mem_singleton.mp slash]
      decide
  have whole : name ++ ['/', '*', '*'] = (name ++ ['/']) ++ ['*', '*'] := by simp
  rw [whole, readFrom_append plainSlash, readFrom]
  simp [doubleStar, readFrom]

def belowTop (name : Text) : Text :=
  name ++ ['/', '*', '*']

def belowAnywhere (name : Text) : Text :=
  ['*', '*', '/'] ++ belowTop name

theorem readTokens_belowTop {name : Text} (plain : ∀ c ∈ name, c ∉ special) :
    readTokens (belowTop name) = .ok (name.map .literal ++ [.directoriesLast]) :=
  readFrom_below plain [] none

theorem readTokens_belowAnywhere {name : Text} (plain : ∀ c ∈ name, c ∉ special) :
    readTokens (belowAnywhere name) =
      .ok (.directoriesFirst :: (name.map .literal ++ [.directoriesLast])) := by
  rw [readTokens, belowAnywhere, List.cons_append, List.cons_append, readFrom]
  exact readFrom_below plain [.directoriesFirst] _

/-! ## Matching bytes -/

/-- Characters that stand for themselves are the last bytes of what they match. -/
theorem accepts_literals_iff {regexes : List Regex} {Front : List Nat → Prop}
    (meaning : ∀ atStart atEnd word,
      (Regex.seqAll regexes).Accepts atStart atEnd word ↔ Front word)
    (name : Text) (atStart atEnd : Bool) (word : List Nat) :
    (Regex.seqAll (regexes ++ name.map charRegex)).Accepts atStart atEnd word ↔
      ∃ front, word = front ++ symbols name ∧ Front front := by
  induction name using List.reverseRecOn generalizing atEnd word with
  | nil => simp [symbols, Text.bytes, meaning]
  | append_singleton name c inductionHypothesis =>
      rw [List.map_append, List.map_singleton, ← List.append_assoc,
        Regex.accepts_seqAll_concat_iff]
      simp only [inductionHypothesis, accepts_charRegex_iff]
      constructor
      · rintro ⟨_, _, rfl, ⟨front, rfl, opens⟩, rfl⟩
        exact ⟨front, by simp [symbols, Text.bytes], opens⟩
      · rintro ⟨front, rfl, opens⟩
        exact ⟨front ++ symbols name, _, by simp [symbols, Text.bytes], ⟨front, rfl, opens⟩, rfl⟩

theorem accepts_directoriesFirst_iff {atStart atEnd : Bool} {word : List Nat} :
    (Regex.alt (.alt separator .empty) (.seq (.star anyByte) separator)).Accepts atStart atEnd
        word ↔ word = [] ∨ ∃ before, word = before ++ [47] := by
  simp only [Regex.accepts_alt_iff, Regex.accepts_seq_iff, accepts_separator_iff,
    Regex.accepts_empty_iff]
  constructor
  · rintro ((rfl | rfl) | ⟨before, _, rfl, -, rfl⟩)
    · exact .inr ⟨[], rfl⟩
    · exact .inl rfl
    · exact .inr ⟨before, rfl⟩
  · rintro (rfl | ⟨before, rfl⟩)
    · exact .inl (.inr rfl)
    · exact .inr ⟨before, [47], rfl, Regex.accepts_star_symbol contains_all _ _ _, rfl⟩

theorem tokenRegexes_literals (name : Text) :
    tokenRegexes (name.map .literal) = name.map charRegex := by
  induction name with
  | nil => rfl
  | cons c name inductionHypothesis => simp [tokenRegexes, tokenRegex?, inductionHypothesis]

/-- What a glob matches that ends in a name and all that is below. -/
theorem isMatch_of_tokens {source name : Text} {Front : List Nat → Prop} (tokens : List GlobToken)
    (reading : readTokens source = .ok (tokens ++ (name.map .literal ++ [.directoriesLast])))
    (meaning : ∀ atStart atEnd word,
      (Regex.seqAll (tokenRegexes tokens)).Accepts atStart atEnd word ↔ Front word) :
    ∃ glob, read source = .ok glob ∧ ∀ path, glob.isMatch path = true ↔
      ∃ front rest, symbols path = front ++ symbols name ++ 47 :: rest ∧ Front front := by
  refine ⟨_, by rw [read, reading], ?_⟩
  intro path
  rw [← List.append_assoc, isMatch, GlobToken.judgeFileName_below, Bool.false_and, Bool.not_false,
    Bool.and_true, regexOf_concat _ _ rfl (by simp), Regex.isMatch_iff,
    Regex.accepts_seqAll_concat_iff, tokenRegexes_append, tokenRegexes_literals]
  simp only [accepts_literals_iff meaning, accepts_below_iff]
  constructor
  · rintro ⟨_, _, whole, ⟨front, rfl, opens⟩, rest, rfl⟩
    exact ⟨front, rest, whole, opens⟩
  · rintro ⟨front, rest, whole, opens⟩
    exact ⟨_, _, whole, ⟨front, rfl, opens⟩, rest, rfl⟩

/-! ## Bytes and characters -/

theorem symbols_cons (c : Char) (path : Text) :
    symbols (c :: path) = (String.utf8EncodeChar c).map UInt8.toNat ++ symbols path := by
  rw [symbols, Text.bytes_cons, List.map_append]
  rfl

theorem exists_of_symbols_append {name path : Text} {rest : List Nat} (ascii : name.Ascii)
    (same : symbols path = symbols name ++ rest) :
    ∃ behind, path = name ++ behind ∧ symbols behind = rest := by
  induction name generalizing path with
  | nil => exact ⟨path, rfl, same⟩
  | cons c name inductionHypothesis =>
      have first : c.toNat < 128 := ascii c List.mem_cons_self
      have others : Text.Ascii name := fun d member => ascii d (List.mem_cons_of_mem _ member)
      rw [symbols_cons, Text.utf8EncodeChar_ascii first] at same
      cases path with
      | nil => cases same
      | cons d path =>
          obtain ⟨byte, more, shape, -, tells, -⟩ := Text.exists_utf8EncodeChar d
          have here : d = c := by
            rw [symbols_cons, shape] at same
            exact (tells c first).mp (UInt8.toNat_inj.mp (List.cons.inj same).1)
          subst here
          rw [symbols_cons, Text.utf8EncodeChar_ascii first] at same
          obtain ⟨behind, rfl, left⟩ := inductionHypothesis others (List.cons.inj same).2
          exact ⟨behind, rfl, left⟩

theorem exists_of_symbols_separator {path : Text} {front rest : List Nat}
    (same : symbols path = front ++ 47 :: rest) :
    ∃ before behind, path = before ++ '/' :: behind ∧ symbols before = front ∧
      symbols behind = rest := by
  induction path generalizing front with
  | nil => simp [symbols, Text.bytes] at same
  | cons c path inductionHypothesis =>
      rw [symbols_cons] at same
      by_cases slash : c = '/'
      · subst slash
        cases front with
        | nil => exact ⟨[], path, rfl, rfl, (List.cons.inj same).2⟩
        | cons n front =>
            rw [List.cons_append, show String.utf8EncodeChar '/' = [47] from rfl] at same
            obtain ⟨here, later⟩ := List.cons.inj same
            obtain ⟨before, behind, rfl, left, right⟩ := inductionHypothesis later
            refine ⟨'/' :: before, behind, rfl, ?_, right⟩
            rw [symbols_cons, left, ← here]
            rfl
      · have other : 47 ∉ (String.utf8EncodeChar c).map UInt8.toNat := by
          rw [List.mem_map]
          rintro ⟨byte, member, value⟩
          have isSlash : byte = '/'.toUInt8 := UInt8.toNat_inj.mp value
          rw [isSlash, Text.mem_utf8EncodeChar_iff (by decide)] at member
          exact slash member
        rcases List.append_eq_append_iff.mp same with ⟨more, rfl, later⟩ | ⟨more, inside, later⟩
        · obtain ⟨before, behind, rfl, left, right⟩ := inductionHypothesis later
          exact ⟨c :: before, behind, rfl, by rw [symbols_cons, left], right⟩
        · cases more with
          | nil =>
              have next : symbols path = [] ++ 47 :: rest := later.symm
              obtain ⟨before, behind, rfl, left, right⟩ := inductionHypothesis next
              refine ⟨c :: before, behind, rfl, ?_, right⟩
              rw [symbols_cons, left, inside]
              simp
          | cons n more =>
              refine absurd ?_ other
              rw [inside, (List.cons.inj later).1]
              simp

/-- What stands before a name inside a path: nothing, or directories up to a slash. -/
def Leading (front : Text) : Prop :=
  front = [] ∨ ∃ outer, front = outer ++ ['/']

theorem symbols_append (front rest : Text) :
    symbols (front ++ rest) = symbols front ++ symbols rest := by
  rw [symbols, Text.bytes_append, List.map_append]
  rfl

theorem symbols_top_iff {name : Text} (ascii : name.Ascii) (path : Text) :
    (∃ rest, symbols path = symbols name ++ 47 :: rest) ↔ ∃ rest, path = name ++ '/' :: rest := by
  constructor
  · rintro ⟨rest, same⟩
    obtain ⟨behind, rfl, left⟩ := exists_of_symbols_append ascii same
    have slash : symbols behind = symbols ['/'] ++ rest := left
    obtain ⟨behind, rfl, -⟩ := exists_of_symbols_append (by decide) slash
    exact ⟨behind, rfl⟩
  · rintro ⟨rest, rfl⟩
    exact ⟨symbols rest, symbols_entry name rest⟩

/-- Among the bytes of a path, an ASCII name behind nothing or a separator, and before a separator,
is the name of a directory. -/
theorem symbols_below_iff {name : Text} (ascii : name.Ascii) (path : Text) :
    (∃ front rest, symbols path = front ++ symbols name ++ 47 :: rest ∧
      (front = [] ∨ ∃ outer, front = outer ++ [47])) ↔
    ∃ front rest, path = front ++ (name ++ '/' :: rest) ∧ Leading front := by
  constructor
  · rintro ⟨front, rest, same, opens⟩
    rw [List.append_assoc] at same
    rcases opens with rfl | ⟨outer, rfl⟩
    · obtain ⟨behind, rfl⟩ := (symbols_top_iff ascii path).mp ⟨rest, same⟩
      exact ⟨[], behind, rfl, .inl rfl⟩
    · rw [List.append_assoc] at same
      obtain ⟨before, behind, rfl, -, left⟩ := exists_of_symbols_separator same
      obtain ⟨behind, rfl⟩ := (symbols_top_iff ascii behind).mp ⟨rest, left⟩
      exact ⟨before ++ ['/'], behind, by simp, .inr ⟨before, rfl⟩⟩
  · rintro ⟨front, rest, rfl, opens⟩
    refine ⟨symbols front, symbols rest, ?_, ?_⟩
    · rw [symbols_append, symbols_entry, List.append_assoc]
    · rcases opens with rfl | ⟨outer, rfl⟩
      · exact .inl rfl
      · exact .inr ⟨symbols outer, symbols_append outer ['/']⟩

/-! ## Names of directories -/

/-- A name of which a pattern can be made: its characters stand for themselves, each is one byte,
and none is a slash. -/
structure NamesDirectory (name : Text) : Prop where
  plain : ∀ c ∈ name, c ∉ special
  ascii : name.Ascii
  noSlash : '/' ∉ name

theorem namesDirectory_iff (name : Text) :
    (name.all (!special.contains ·) = true ∧ name.Ascii ∧ '/' ∉ name) ↔ NamesDirectory name := by
  have plain : name.all (!special.contains ·) = true ↔ ∀ c ∈ name, c ∉ special := by
    simp
  rw [plain]
  exact ⟨fun ⟨plain, ascii, noSlash⟩ => ⟨plain, ascii, noSlash⟩,
    fun ⟨plain, ascii, noSlash⟩ => ⟨plain, ascii, noSlash⟩⟩

instance (name : Text) : Decidable (NamesDirectory name) :=
  decidable_of_iff _ (namesDirectory_iff name)

theorem cut_of_names {name : Text} (noSlash : '/' ∉ name) {rest front behind : Text}
    (same : name ++ '/' :: rest = front ++ '/' :: behind) :
    front = name ∧ behind = rest ∨ ∃ more, front = name ++ '/' :: more ∧
      rest = more ++ '/' :: behind := by
  rcases List.append_eq_append_iff.mp same with ⟨more, rfl, later⟩ | ⟨more, rfl, later⟩
  · cases more with
    | nil =>
        left
        simpa using later.symm
    | cons c more =>
        rw [List.cons_append, List.cons.injEq] at later
        obtain ⟨rfl, rfl⟩ := later
        exact .inr ⟨more, rfl, rfl⟩
  · cases more with
    | nil =>
        left
        simpa using later
    | cons c more =>
        rw [List.cons_append, List.cons.injEq] at later
        refine absurd ?_ noSlash
        rw [← later.1]
        simp

/-- A name stands inside a path, before a slash, where it is the name of a directory on the way. -/
theorem mem_dropLast_iff {name : Text} (noSlash : '/' ∉ name) {names : List Text}
    (valid : ∀ name ∈ names, FilePath.IsName name) :
    (∃ front rest, FilePath.ofNames names = front ++ (name ++ '/' :: rest) ∧ Leading front) ↔
      name ∈ names.dropLast := by
  induction names with
  | nil => simp [FilePath.ofNames, Text.join]
  | cons first names inductionHypothesis =>
      rw [List.forall_mem_cons] at valid
      obtain ⟨⟨-, firstNoSlash⟩, others⟩ := valid
      by_cases single : names = []
      · subst single
        simp only [FilePath.ofNames_singleton, List.dropLast_singleton, List.not_mem_nil, iff_false]
        rintro ⟨front, rest, rfl, -⟩
        exact firstNoSlash (by simp)
      · rw [FilePath.ofNames_cons first single, List.dropLast_cons_of_ne_nil single, List.mem_cons,
          ← inductionHypothesis others]
        constructor
        · rintro ⟨front, rest, same, opens⟩
          rcases opens with rfl | ⟨outer, rfl⟩
          · rcases cut_of_names firstNoSlash same with ⟨here, -⟩ | ⟨more, here, -⟩
            · exact .inl here
            · refine absurd ?_ noSlash
              rw [here]
              simp
          · rw [List.append_assoc] at same
            rcases cut_of_names firstNoSlash same with ⟨-, later⟩ | ⟨more, -, later⟩
            · exact .inr ⟨[], rest, later.symm, .inl rfl⟩
            · exact .inr ⟨more ++ ['/'], rest, by simp [later], .inr ⟨more, rfl⟩⟩
        · rintro (rfl | ⟨front, rest, later, opens⟩)
          · exact ⟨[], _, rfl, .inl rfl⟩
          · refine ⟨first ++ '/' :: front, rest, by simp [later], ?_⟩
            rcases opens with rfl | ⟨outer, rfl⟩
            · exact .inr ⟨first, rfl⟩
            · exact .inr ⟨first ++ '/' :: outer, by simp⟩

/-- A path begins with a name and a slash where this is its first name and another one follows. -/
theorem exists_cons_cons_iff {name : Text} (noSlash : '/' ∉ name) {names : List Text}
    (valid : ∀ name ∈ names, FilePath.IsName name) :
    (∃ rest, FilePath.ofNames names = name ++ '/' :: rest) ↔
      ∃ next more, names = name :: next :: more := by
  constructor
  · rintro ⟨rest, same⟩
    match names with
    | [] => simp [FilePath.ofNames, Text.join] at same
    | [first] =>
        refine absurd ?_ (valid first (by simp)).2
        rw [FilePath.ofNames_singleton] at same
        simp [same]
    | first :: next :: more =>
        have firstNoSlash := (valid first (by simp)).2
        rw [FilePath.ofNames_cons first (by simp)] at same
        rcases cut_of_names firstNoSlash same with ⟨rfl, -⟩ | ⟨between, here, -⟩
        · exact ⟨next, more, rfl⟩
        · refine absurd ?_ noSlash
          rw [here]
          simp
  · rintro ⟨next, more, rfl⟩
    exact ⟨_, FilePath.ofNames_cons name (by simp)⟩

/-- A glob for all that lies below a directory anywhere takes the paths that lead through a
directory of this name. -/
theorem isMatch_belowAnywhere {name : Text} (named : NamesDirectory name) :
    ∃ glob, read (belowAnywhere name) = .ok glob ∧
      ∀ names, (∀ name ∈ names, FilePath.IsName name) →
        (glob.isMatch (FilePath.ofNames names) = true ↔ name ∈ names.dropLast) := by
  obtain ⟨glob, reading, matched⟩ := isMatch_of_tokens [.directoriesFirst]
    (readTokens_belowAnywhere named.plain) fun _ _ _ => accepts_directoriesFirst_iff
  refine ⟨glob, reading, ?_⟩
  intro names valid
  rw [matched, symbols_below_iff named.ascii, mem_dropLast_iff named.noSlash valid]

theorem isMatch_belowTop {name : Text} (named : NamesDirectory name) :
    ∃ glob, read (belowTop name) = .ok glob ∧
      ∀ names, (∀ name ∈ names, FilePath.IsName name) →
        (glob.isMatch (FilePath.ofNames names) = true ↔
          ∃ next more, names = name :: next :: more) := by
  obtain ⟨glob, reading, matched⟩ := isMatch_of_tokens [] (readTokens_belowTop named.plain)
    fun _ _ _ => Regex.accepts_empty_iff
  refine ⟨glob, reading, ?_⟩
  intro names valid
  rw [matched, ← exists_cons_cons_iff named.noSlash valid, ← symbols_top_iff named.ascii]
  simp

end Glob

namespace FileFilter

/-! ## The standing exclusions -/

theorem matchesAny_iff {patterns : List Text} {globs : List Glob}
    (reading : readGlobs patterns = .ok globs) (path : Text) :
    matchesAny globs path = true ↔
      ∃ pattern ∈ patterns, ∃ glob, Glob.read pattern = .ok glob ∧ glob.isMatch path = true := by
  induction patterns generalizing globs with
  | nil =>
      cases reading
      simp [matchesAny]
  | cons pattern patterns inductionHypothesis =>
      rw [readGlobs] at reading
      split at reading
      · cases reading
      · next first found =>
          cases others : readGlobs patterns with
          | error error =>
              rw [others] at reading
              cases reading
          | ok rest =>
              rw [others] at reading
              cases reading
              simp only [matchesAny, List.any_cons, Bool.or_eq_true] at inductionHypothesis ⊢
              rw [inductionHypothesis others]
              simp [found]

def excludedAnywhere : List Text :=
  [".git".toList, "node_modules".toList]

def excludedAtTop : List Text :=
  ["bower_components".toList, "tmp".toList, "dist".toList]

theorem standingPatterns_eq :
    standingPatterns =
      excludedAnywhere.map Glob.belowAnywhere ++ excludedAtTop.map Glob.belowTop := by
  decide

theorem namesDirectory_of_excluded :
    ∀ name ∈ excludedAnywhere ++ excludedAtTop, Glob.NamesDirectory name := by
  decide

/-- The standing exclusions take the paths that lead through an excluded directory. -/
theorem matchesAny_standing {standing : List Glob}
    (reading : readGlobs standingPatterns = .ok standing)
    {names : List Text} (valid : ∀ name ∈ names, FilePath.IsName name) :
    matchesAny standing (FilePath.ofNames names) = true ↔
      (∃ name ∈ names.dropLast, name ∈ excludedAnywhere) ∨
        ∃ first next more, names = first :: next :: more ∧ first ∈ excludedAtTop := by
  have same : ∀ {pattern : Text} {glob glob' : Glob}, Glob.read pattern = .ok glob →
      Glob.read pattern = .ok glob' → glob' = glob := by
    intro pattern glob glob' first second
    rw [first] at second
    cases second
    rfl
  rw [matchesAny_iff reading, standingPatterns_eq]
  constructor
  · rintro ⟨pattern, member, glob, found, matched⟩
    rcases List.mem_append.mp member with anywhere | top
    · obtain ⟨name, inside, rfl⟩ := List.mem_map.mp anywhere
      obtain ⟨glob', found', told⟩ :=
        Glob.isMatch_belowAnywhere (namesDirectory_of_excluded name (by simp [inside]))
      rw [same found' found, told names valid] at matched
      exact .inl ⟨name, matched, inside⟩
    · obtain ⟨name, inside, rfl⟩ := List.mem_map.mp top
      obtain ⟨glob', found', told⟩ :=
        Glob.isMatch_belowTop (namesDirectory_of_excluded name (by simp [inside]))
      rw [same found' found, told names valid] at matched
      obtain ⟨next, more, rfl⟩ := matched
      exact .inr ⟨name, next, more, rfl, inside⟩
  · rintro (⟨name, onTheWay, inside⟩ | ⟨name, next, more, rfl, inside⟩)
    · obtain ⟨glob, found, told⟩ :=
        Glob.isMatch_belowAnywhere (namesDirectory_of_excluded name (by simp [inside]))
      exact ⟨_, List.mem_append_left _ (List.mem_map_of_mem inside), glob, found,
        (told names valid).mpr onTheWay⟩
    · obtain ⟨glob, found, told⟩ :=
        Glob.isMatch_belowTop (namesDirectory_of_excluded name (by simp [inside]))
      exact ⟨_, List.mem_append_right _ (List.mem_map_of_mem inside), glob, found,
        (told _ valid).mpr ⟨next, more, rfl⟩⟩

/-- With the pattern of two stars, nothing is kept back but what lies below `.git` or
`node_modules` anywhere, or below build output at the top. -/
theorem passes_unless_standing :
    ∃ filter, read [['*', '*']] = .ok filter ∧
      ∀ names, (∀ name ∈ names, FilePath.IsName name) →
        (filter.passes (FilePath.ofNames names) = false ↔
          (∃ name ∈ names.dropLast, name = ".git".toList ∨ name = "node_modules".toList) ∨
          2 ≤ names.length ∧ ∃ first, names.head? = some first ∧
            (first = "tmp".toList ∨ first = "dist".toList ∨ first = "bower_components".toList)) := by
  have facts : ((read [['*', '*']]).toOption.map fun filter =>
      (filter.inclusions, filter.exclusions)) =
      some ([⟨['*', '*'], .star Glob.anyByte, false⟩], []) := by
    decide +kernel
  obtain ⟨filter, reading, told⟩ := exists_read_of_map facts
  rw [Prod.mk.injEq] at told
  obtain ⟨inclusions, exclusions⟩ := told
  refine ⟨filter, reading, ?_⟩
  intro names valid
  have included : matchesAny filter.inclusions (FilePath.ofNames names) = true := by
    rw [inclusions, matchesAny, List.any_cons, Bool.or_eq_true]
    left
    rw [Glob.isMatch, Bool.and_eq_true, Regex.isMatch_iff]
    exact ⟨Regex.accepts_star_symbol Glob.contains_all _ _ _, rfl⟩
  have rejected : filter.passes (FilePath.ofNames names) = false ↔
      matchesAny filter.standing (FilePath.ofNames names) = true := by
    rw [passes, included, excludes, exclusions]
    simp [matchesAny]
  rw [rejected, matchesAny_standing (readGlobs_of_read reading).2 valid]
  refine or_congr (by simp [excludedAnywhere]) ?_
  cases names with
  | nil => simp
  | cons first names =>
      cases names with
      | nil => simp
      | cons next more =>
          have inside : first ∈ excludedAtTop ↔ first = "tmp".toList ∨ first = "dist".toList ∨
              first = "bower_components".toList := by
            simp only [excludedAtTop, List.mem_cons, List.not_mem_nil, or_false]
            exact or_rotate
          simp [inside]

theorem passes_unless_standing_nestedNames :
    (∀ name ∈ ["app".toList, "tmp".toList, "x.git".toList, "é".toList, "node_modules".toList],
      FilePath.IsName name) ∧
    (∀ name ∈ ["é".toList, "node_modules".toList, "..".toList], FilePath.IsName name) ∧
    (∀ name ∈ ["dist".toList, ".git".toList], FilePath.IsName name) ∧
    ∃ filter, read [['*', '*']] = .ok filter ∧
      filter.passes "app/tmp/x.git/é/node_modules".toList = true ∧
      filter.passes "é/node_modules/..".toList = false ∧
      filter.passes "dist/.git".toList = false := by
  have first : ∀ name ∈ ["app".toList, "tmp".toList, "x.git".toList, "é".toList,
      "node_modules".toList], FilePath.IsName name := by
    decide
  have second : ∀ name ∈ ["é".toList, "node_modules".toList, "..".toList],
      FilePath.IsName name := by
    decide
  have third : ∀ name ∈ ["dist".toList, ".git".toList], FilePath.IsName name := by decide
  obtain ⟨filter, reading, told⟩ := passes_unless_standing
  refine ⟨first, second, third, filter, reading, ?_, ?_, ?_⟩
  · rw [← Bool.not_eq_false]
    intro rejected
    exact absurd ((told _ first).mp rejected) (by decide)
  · exact (told _ second).mpr (by decide)
  · exact (told _ third).mpr (by decide)

end FileFilter

end TemplateSelectors
