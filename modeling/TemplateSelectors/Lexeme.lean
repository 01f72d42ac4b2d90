import TemplateSelectors.ParseError

/-!
# Lexemes

A source is a sequence of runs of text, comments and tags.  Text reaches up to
the next two opening braces, unless a single backslash stands before them.  A
comment ends at its first terminator, a tag at its first closing braces outside
quotes.  A lexeme keeps what it was read from: its parts in a row are its text.
-/

set_option autoImplicit false

namespace TemplateSelectors

/-- Splits off the text before the next tag or comment.  `beforeLast` and `last`
say whether the two characters before are backslashes: one of them escapes the
braces, two stand for a backslash. -/
def textRun (beforeLast last : Bool) : Text → Text × Text
  | '{' :: '{' :: rest =>
      if last = true ∧ beforeLast = false then
        let run := textRun false false rest
        ('{' :: '{' :: run.1, run.2)
      else ([], '{' :: '{' :: rest)
  | c :: rest =>
      let run := textRun last (c == '\\') rest
      (c :: run.1, run.2)
  | [] => ([], [])

theorem textRun_append (beforeLast last : Bool) (text : Text) :
    (textRun beforeLast last text).1 ++ (textRun beforeLast last text).2 = text := by
  fun_induction textRun beforeLast last text with
  | case1 beforeLast last rest escaped run inductionHypothesis =>
      simp [run, inductionHypothesis]
  | case2 => rfl
  | case3 beforeLast last c rest _ run inductionHypothesis =>
      simp [run, inductionHypothesis]
  | case4 => rfl

def splitAtMark (mark : Text) : Text → Option (Text × Text)
  | [] => none
  | c :: rest =>
      match Text.after? mark (c :: rest) with
      | some behind => some ([], behind)
      | none => (splitAtMark mark rest).map fun (front, behind) => (c :: front, behind)

theorem eq_append_of_splitAtMark {mark text front behind : Text}
    (found : splitAtMark mark text = some (front, behind)) : text = front ++ mark ++ behind := by
  fun_induction splitAtMark mark text generalizing front with
  | case1 => simp at found
  | case2 c rest behind' here =>
      simp only [Option.some.injEq, Prod.mk.injEq] at found
      obtain ⟨rfl, rfl⟩ := found
      simpa using Text.eq_append_of_after? here
  | case3 c rest absent inductionHypothesis =>
      simp only [Option.map_eq_some_iff, Prod.mk.injEq] at found
      obtain ⟨⟨front', behind'⟩, later, rfl, rfl⟩ := found
      simp [inductionHypothesis later]

/-- Splits at the first `close` outside quotes, which is left out.  `quote` is the
quote that is open; inside quotes a backslash takes the next character along. -/
def splitAtClose (close : Text) : (quote : Option Char) → Text → Option (Text × Text)
  | _, [] => none
  | some quote, '\\' :: c :: rest =>
      (splitAtClose close (some quote) rest).map fun (front, behind) => ('\\' :: c :: front, behind)
  | some quote, c :: rest =>
      (splitAtClose close (if c = quote then none else some quote) rest).map
        fun (front, behind) => (c :: front, behind)
  | none, c :: rest =>
      if c = '"' ∨ c = '\'' then
        (splitAtClose close (some c) rest).map fun (front, behind) => (c :: front, behind)
      else
        match Text.after? close (c :: rest) with
        | some behind => some ([], behind)
        | none =>
            (splitAtClose close none rest).map fun (front, behind) => (c :: front, behind)

theorem eq_append_of_splitAtClose {close text front behind : Text} {quote : Option Char}
    (found : splitAtClose close quote text = some (front, behind)) :
    text = front ++ close ++ behind := by
  fun_induction splitAtClose close quote text generalizing front with
  | case1 => simp at found
  | case2 quote c rest inductionHypothesis =>
      simp only [Option.map_eq_some_iff, Prod.mk.injEq] at found
      obtain ⟨⟨front', behind'⟩, later, rfl, rfl⟩ := found
      simp [inductionHypothesis later]
  | case3 quote c rest _ inductionHypothesis =>
      simp only [Option.map_eq_some_iff, Prod.mk.injEq] at found
      obtain ⟨⟨front', behind'⟩, later, rfl, rfl⟩ := found
      simp [inductionHypothesis later]
  | case4 c rest opens inductionHypothesis =>
      simp only [Option.map_eq_some_iff, Prod.mk.injEq] at found
      obtain ⟨⟨front', behind'⟩, later, rfl, rfl⟩ := found
      simp [inductionHypothesis later]
  | case5 c rest ordinary behind' here =>
      simp only [Option.some.injEq, Prod.mk.injEq] at found
      obtain ⟨rfl, rfl⟩ := found
      simpa using Text.eq_append_of_after? here
  | case6 c rest ordinary absent inductionHypothesis =>
      simp only [Option.map_eq_some_iff, Prod.mk.injEq] at found
      obtain ⟨⟨front', behind'⟩, later, rfl, rfl⟩ := found
      simp [inductionHypothesis later]

/-- Splits at the first terminator of a long comment: the value, the terminator
and what follows. -/
def splitLongComment : Text → Option (Text × Text × Text)
  | [] => none
  | c :: rest =>
      match Text.after? ['-', '-', '}', '}'] (c :: rest) with
      | some behind => some ([], ['-', '-', '}', '}'], behind)
      | none =>
          match Text.after? ['-', '-', '~', '}', '}'] (c :: rest) with
          | some behind => some ([], ['-', '-', '~', '}', '}'], behind)
          | none =>
              (splitLongComment rest).map fun (value, terminator, behind) =>
                (c :: value, terminator, behind)

theorem eq_append_of_splitLongComment {text value terminator behind : Text}
    (found : splitLongComment text = some (value, terminator, behind)) :
    text = value ++ terminator ++ behind := by
  fun_induction splitLongComment text generalizing value with
  | case1 => simp at found
  | case2 c rest behind' here =>
      simp only [Option.some.injEq, Prod.mk.injEq] at found
      obtain ⟨rfl, rfl, rfl⟩ := found
      simpa using Text.eq_append_of_after? here
  | case3 c rest _ behind' here =>
      simp only [Option.some.injEq, Prod.mk.injEq] at found
      obtain ⟨rfl, rfl, rfl⟩ := found
      simpa using Text.eq_append_of_after? here
  | case4 c rest _ _ inductionHypothesis =>
      simp only [Option.map_eq_some_iff, Prod.mk.injEq] at found
      obtain ⟨⟨value', terminator', behind'⟩, later, rfl, rfl, rfl⟩ := found
      simp [inductionHypothesis later]

inductive Lexeme where
  | comment (opener value closer : Text)
  | tag (triple : Bool) (opener inner closer : Text)
deriving DecidableEq, Repr

namespace Lexeme

def raw : Lexeme → Text
  | .comment opener value closer => opener ++ value ++ closer
  | .tag _ opener inner closer => opener ++ inner ++ closer

def leadingTilde : Text → Text × Text
  | '~' :: rest => (['~'], rest)
  | rest => ([], rest)

def trailingTilde (body : Text) : Text × Text :=
  if body.getLast? = some '~' then (body.dropLast, ['~']) else (body, [])

/-- Why no lexeme could be read, and over how many bytes that shows. -/
abbrev Fault := ParseCause × Nat

def readTag (triple : Bool) (opener close inside : Text) : Except Fault (Lexeme × Text) :=
  match splitAtClose close none inside with
  | none => .error (.unclosed .mustache, opener.size)
  | some (body, behind) =>
      .ok (.tag triple opener (trailingTilde body).1 ((trailingTilde body).2 ++ close), behind)

def readComment (opener : Text) : (inside : Text) → Except Fault (Lexeme × Text)
  | '-' :: '-' :: inside =>
      match splitLongComment inside with
      | none => .error (.unclosed .comment, (opener ++ ['-', '-']).size)
      | some (value, terminator, behind) =>
          .ok (.comment (opener ++ ['-', '-']) value terminator, behind)
  | inside =>
      match splitAtMark ['}', '}'] inside with
      | none => .error (.unclosed .comment, opener.size)
      | some (body, behind) =>
          .ok (.comment opener (trailingTilde body).1 ((trailingTilde body).2 ++ ['}', '}']),
            behind)

/-- Reads a comment or a tag; `behind` is what follows its two opening braces. -/
def read : (behind : Text) → Except Fault (Lexeme × Text)
  | '{' :: '{' :: _ => .error (.unsupported .rawBlocks, 4)
  | '{' :: rest =>
      readTag true (['{', '{', '{'] ++ (leadingTilde rest).1) ['}', '}', '}'] (leadingTilde rest).2
  | rest =>
      match (leadingTilde rest).2 with
      | '!' :: inside => readComment (['{', '{'] ++ (leadingTilde rest).1 ++ ['!']) inside
      | inside => readTag false (['{', '{'] ++ (leadingTilde rest).1) ['}', '}'] inside

theorem leadingTilde_append (text : Text) :
    (leadingTilde text).1 ++ (leadingTilde text).2 = text := by
  unfold leadingTilde
  split <;> rfl

theorem trailingTilde_append (body : Text) :
    (trailingTilde body).1 ++ (trailingTilde body).2 = body := by
  unfold trailingTilde
  split
  · next last =>
      obtain ⟨front, rfl⟩ := List.getLast?_eq_some_iff.mp last
      simp
  · simp

theorem append_eq_of_readTag {triple : Bool} {opener close inside rest : Text} {lexeme : Lexeme}
    (found : readTag triple opener close inside = .ok (lexeme, rest)) :
    opener ++ inside = lexeme.raw ++ rest := by
  unfold readTag at found
  split at found
  · simp at found
  · next body behind closed =>
      simp only [Except.ok.injEq, Prod.mk.injEq] at found
      obtain ⟨rfl, rfl⟩ := found
      rw [eq_append_of_splitAtClose closed]
      simp only [raw, List.append_assoc, ← List.append_assoc (trailingTilde body).1,
        trailingTilde_append]

theorem append_eq_of_readComment {opener inside rest : Text} {lexeme : Lexeme}
    (found : readComment opener inside = .ok (lexeme, rest)) :
    opener ++ inside = lexeme.raw ++ rest := by
  unfold readComment at found
  split at found
  · split at found
    · simp at found
    · next value terminator behind closed =>
        simp only [Except.ok.injEq, Prod.mk.injEq] at found
        obtain ⟨rfl, rfl⟩ := found
        rw [eq_append_of_splitLongComment closed]
        simp [raw]
  · split at found
    · simp at found
    · next body behind closed =>
        simp only [Except.ok.injEq, Prod.mk.injEq] at found
        obtain ⟨rfl, rfl⟩ := found
        rw [eq_append_of_splitAtMark closed]
        simp only [raw, List.append_assoc, ← List.append_assoc (trailingTilde body).1,
          trailingTilde_append]

theorem raw_ne_nil_of_readTag {triple : Bool} {opener close inside rest : Text} {lexeme : Lexeme}
    (found : readTag triple opener close inside = .ok (lexeme, rest)) (nonempty : opener ≠ []) :
    lexeme.raw ≠ [] := by
  unfold readTag at found
  split at found
  · simp at found
  · simp only [Except.ok.injEq, Prod.mk.injEq] at found
    obtain ⟨rfl, rfl⟩ := found
    simp [raw, nonempty]

theorem raw_ne_nil_of_readComment {opener inside rest : Text} {lexeme : Lexeme}
    (found : readComment opener inside = .ok (lexeme, rest)) (nonempty : opener ≠ []) :
    lexeme.raw ≠ [] := by
  unfold readComment at found
  split at found
  · split at found
    · simp at found
    · simp only [Except.ok.injEq, Prod.mk.injEq] at found
      obtain ⟨rfl, rfl⟩ := found
      simp [raw]
  · split at found
    · simp at found
    · simp only [Except.ok.injEq, Prod.mk.injEq] at found
      obtain ⟨rfl, rfl⟩ := found
      simp [raw, nonempty]

theorem raw_ne_nil_of_read {behind rest : Text} {lexeme : Lexeme}
    (found : read behind = .ok (lexeme, rest)) : lexeme.raw ≠ [] := by
  unfold read at found
  split at found
  · simp at found
  · exact raw_ne_nil_of_readTag found (by simp)
  · split at found
    · exact raw_ne_nil_of_readComment found (by simp)
    · exact raw_ne_nil_of_readTag found (by simp)

theorem append_eq_of_read {behind rest : Text} {lexeme : Lexeme}
    (found : read behind = .ok (lexeme, rest)) :
    '{' :: '{' :: behind = lexeme.raw ++ rest := by
  unfold read at found
  split at found
  · simp at found
  · next inside _ =>
      have whole := leadingTilde_append inside
      rw [← append_eq_of_readTag found]
      simp [whole]
  · have whole := leadingTilde_append behind
    split at found
    · next inside bang =>
        rw [← append_eq_of_readComment found]
        rw [bang] at whole
        simp [whole]
    · rw [← append_eq_of_readTag found]
      simp [whole]

end Lexeme

end TemplateSelectors
