import TemplateSelectors.Proofs.TagEnd

/-!
# Searching bytes

The marks of a template are ASCII characters, and no byte of a longer character is that of an
ASCII character.  So a mark is found among the bytes of a text where it is found in the text, also
where the search steps into the middle of a character: behind a backslash in quotes it takes one
byte along, and the other bytes of the character mean nothing.
-/

set_option autoImplicit false

namespace TemplateSelectors

namespace Text

/-- The bytes of a longer character are not those of an ASCII character. -/
theorem le_of_mem_utf8EncodeChar {c : Char} {byte : UInt8} (long : 128 ≤ c.toNat)
    (member : byte ∈ String.utf8EncodeChar c) : 128 ≤ byte.toNat := by
  rw [String.utf8EncodeChar] at member
  have same : c.val.toNat = c.toNat := rfl
  split at member
  · omega
  · split at member
    · simp at member
      rcases member with rfl | rfl
      · simp; omega
      · simp; omega
    · split at member
      · simp at member
        rcases member with rfl | rfl | rfl <;> simp <;> omega
      · simp at member
        have valid : c.val.toNat < 0xd800 ∨ 0xdfff < c.val.toNat ∧ c.val.toNat < 0x110000 := c.valid
        rcases member with rfl | rfl | rfl | rfl <;> simp <;> omega

theorem utf8EncodeChar_ascii {mark : Char} (ascii : mark.toNat < 128) :
    String.utf8EncodeChar mark = [mark.toUInt8] := by
  apply String.utf8EncodeChar_eq_singleton
  rw [Char.utf8Size_eq_one_iff, UInt32.le_iff_toNat_le]
  exact Nat.le_of_lt_succ ascii

theorem mem_utf8EncodeChar_iff {c mark : Char} (ascii : mark.toNat < 128) :
    mark.toUInt8 ∈ String.utf8EncodeChar c ↔ c = mark := by
  have byte : mark.toUInt8.toNat = mark.toNat := Nat.mod_eq_of_lt (show Char.toNat _ < 256 by omega)
  constructor
  · intro member
    by_cases long : 128 ≤ c.toNat
    · have large := le_of_mem_utf8EncodeChar long member
      omega
    · rw [utf8EncodeChar_ascii (by omega), List.mem_singleton] at member
      have other : c.toUInt8.toNat = c.toNat := Nat.mod_eq_of_lt (show Char.toNat _ < 256 by omega)
      apply Char.ext
      apply UInt32.toNat_inj.mp
      show c.toNat = mark.toNat
      rw [← byte, ← other, member]
  · rintro rfl
    rw [utf8EncodeChar_ascii ascii]
    exact List.mem_singleton_self _

/-- A character is written as a byte that tells it from every ASCII character, and bytes that are
those of none. -/
theorem exists_utf8EncodeChar (c : Char) :
    ∃ first more, String.utf8EncodeChar c = first :: more ∧ more.length + 1 = c.utf8Size ∧
      (∀ mark : Char, mark.toNat < 128 → (first = mark.toUInt8 ↔ c = mark)) ∧
      ∀ byte ∈ more, ∀ mark : Char, mark.toNat < 128 → byte ≠ mark.toUInt8 := by
  have length := String.length_utf8EncodeChar c
  cases shape : String.utf8EncodeChar c with
  | nil =>
      have positive : 0 < c.utf8Size := Char.utf8Size_pos c
      rw [shape, List.length_nil] at length
      omega
  | cons first more =>
      rw [shape, List.length_cons] at length
      refine ⟨first, more, rfl, length, ?_, ?_⟩
      · intro mark ascii
        rw [← mem_utf8EncodeChar_iff ascii, shape]
        constructor
        · rintro rfl
          exact List.mem_cons_self
        · intro member
          have same : c = mark := by
            rwa [← mem_utf8EncodeChar_iff ascii, shape]
          rw [same, utf8EncodeChar_ascii ascii] at shape
          cases shape
          rfl
      · rintro byte member mark ascii rfl
        have same : c = mark := by
          rw [← mem_utf8EncodeChar_iff ascii, shape]
          exact List.mem_cons_of_mem _ member
        rw [same, utf8EncodeChar_ascii ascii] at shape
        cases shape
        cases member

theorem bytes_cons (c : Char) (rest : Text) :
    bytes (c :: rest) = String.utf8EncodeChar c ++ bytes rest :=
  List.flatMap_cons

theorem bytes_append (front rest : Text) : bytes (front ++ rest) = bytes front ++ bytes rest :=
  List.flatMap_append

@[simp]
theorem length_bytes (text : Text) : (bytes text).length = text.size := by
  induction text with
  | nil => rfl
  | cons c rest inductionHypothesis =>
      rw [bytes_cons, List.length_append, String.length_utf8EncodeChar, inductionHypothesis, size]

def Ascii (text : Text) : Prop :=
  ∀ c ∈ text, c.toNat < 128

theorem all_iff_ascii (text : Text) :
    (text.all fun c => decide (c.toNat < 128)) = true ↔ Ascii text := by
  simp [Ascii]

instance (text : Text) : Decidable (Ascii text) :=
  decidable_of_iff _ (all_iff_ascii text)

theorem bytes_ascii_cons {mark : Char} (ascii : mark.toNat < 128) (rest : Text) :
    bytes (mark :: rest) = mark.toUInt8 :: bytes rest := by
  rw [bytes_cons, utf8EncodeChar_ascii ascii]
  rfl

theorem isPrefixOf_bytes {mark : Text} (ascii : Ascii mark) (text : Text) :
    (bytes mark).isPrefixOf (bytes text) = (after? mark text).isSome := by
  induction mark generalizing text with
  | nil => rfl
  | cons c mark inductionHypothesis =>
      have first : c.toNat < 128 := ascii c List.mem_cons_self
      have others : Ascii mark := fun d member => ascii d (List.mem_cons_of_mem _ member)
      rw [bytes_ascii_cons first]
      cases text with
      | nil => rfl
      | cons d text =>
          by_cases same : c = d
          · subst same
            rw [bytes_ascii_cons first, after?, if_pos rfl, ← inductionHypothesis others]
            simp
          · obtain ⟨byte, more, shape, _, tells, _⟩ := exists_utf8EncodeChar d
            have different : c.toUInt8 ≠ byte := by
              intro equal
              exact same ((tells c first).mp equal.symm).symm
            rw [bytes_cons, shape, after?, if_neg same, List.cons_append, List.isPrefixOf,
              beq_eq_false_iff_ne.mpr different]
            rfl

theorem after?_double_eq_none {mark c : Char} {rest : Text}
    (single : ¬(c = mark ∧ rest.head? = some mark)) : after? [mark, mark] (c :: rest) = none := by
  by_cases first : c = mark
  · cases rest with
    | nil => simp [after?]
    | cons d rest =>
        have second : d ≠ mark := fun same => single ⟨first, by rw [same]; rfl⟩
        simp [after?, Ne.symm second]
  · simp [after?, Ne.symm first]

end Text

namespace Bytes

def find? (mark : List UInt8) : List UInt8 → Option Nat
  | [] => none
  | byte :: rest =>
      if mark.isPrefixOf (byte :: rest) then some 0 else (find? mark rest).map (· + 1)

theorem find?_append {mark piece : List UInt8} {first : UInt8}
    (other : ∀ byte ∈ piece, byte ≠ first) (rest : List UInt8) :
    find? (first :: mark) (piece ++ rest) =
      (find? (first :: mark) rest).map (· + piece.length) := by
  induction piece with
  | nil => simp
  | cons byte piece inductionHypothesis =>
      have here : first ≠ byte := (other byte List.mem_cons_self).symm
      have others := fun byte member => other byte (List.mem_cons_of_mem _ member)
      rw [List.cons_append, find?, if_neg (by simp [here]), inductionHypothesis others,
        Option.map_map]
      rfl

/-- The first occurrence of a mark among the bytes is its first occurrence in the text. -/
theorem find?_bytes {mark : Text} (ascii : mark.Ascii) (nonempty : mark ≠ []) (text : Text) :
    find? mark.bytes text.bytes = (splitAtMark mark text).map fun (front, _) => front.size := by
  induction text with
  | nil => rfl
  | cons c text inductionHypothesis =>
      obtain ⟨byte, more, shape, length, _, plain⟩ := Text.exists_utf8EncodeChar c
      have starts := Text.isPrefixOf_bytes ascii (c :: text)
      rw [Text.bytes_cons, shape, List.cons_append] at starts
      rw [Text.bytes_cons, shape, List.cons_append, find?, starts, splitAtMark]
      cases found : Text.after? mark (c :: text) with
      | some behind => rfl
      | none =>
          obtain ⟨d, mark, rfl⟩ := List.exists_cons_of_ne_nil nonempty
          have first : d.toNat < 128 := ascii d List.mem_cons_self
          rw [Text.bytes_ascii_cons first] at inductionHypothesis ⊢
          rw [find?_append (fun byte member => plain byte member d first), inductionHypothesis]
          simp only [Option.isSome_none, Bool.false_eq_true, if_false, Option.map_map]
          congr 1
          funext halves
          simp only [Function.comp_apply, Text.size_cons]
          omega

/-- The end of the first `close` outside quotes, among bytes that begin at `offset`.  `quote` is
the quote that is open; inside quotes a backslash takes the next byte along. -/
def closeIn? (close : List UInt8) :
    (quote : Option UInt8) → (offset : Nat) → List UInt8 → Option Nat
  | _, _, [] => none
  | some _, _, [_] => none
  | some quote, offset, byte :: next :: rest =>
      if byte = '\\'.toUInt8 then closeIn? close (some quote) (offset + 2) rest
      else closeIn? close (if byte = quote then none else some quote) (offset + 1) (next :: rest)
  | none, offset, byte :: rest =>
      if byte = '"'.toUInt8 ∨ byte = '\''.toUInt8 then closeIn? close (some byte) (offset + 1) rest
      else if close.isPrefixOf (byte :: rest) then some (offset + close.length)
      else closeIn? close none (offset + 1) rest

theorem closeIn?_inside {close : List UInt8} {quote byte : UInt8} (unescaped : byte ≠ '\\'.toUInt8)
    (offset : Nat) (rest : List UInt8) :
    closeIn? close (some quote) offset (byte :: rest) =
      closeIn? close (if byte = quote then none else some quote) (offset + 1) rest := by
  cases rest with
  | nil => simp [closeIn?]
  | cons next rest => rw [closeIn?, if_neg unescaped]

theorem ascii_of_braces {close : Text} (braces : Braces close) : close.Ascii := by
  intro c member
  rw [braces.braces c member]
  decide

theorem ascii_of_quoteState {quote : Char} (state : QuoteState (some quote)) :
    quote.toNat < 128 := by
  rcases state quote rfl with rfl | rfl
  · decide
  · decide

theorem closeIn?_append {close : Text} (braces : Braces close) {quote : Option Char}
    (state : QuoteState quote) {piece : List UInt8}
    (plain : ∀ byte ∈ piece, ∀ mark : Char, mark.toNat < 128 → byte ≠ mark.toUInt8) (offset : Nat)
    (rest : List UInt8) :
    closeIn? close.bytes (quote.map Char.toUInt8) offset (piece ++ rest) =
      closeIn? close.bytes (quote.map Char.toUInt8) (offset + piece.length) rest := by
  induction piece generalizing offset with
  | nil => rfl
  | cons byte piece inductionHypothesis =>
      have other := plain byte List.mem_cons_self
      have others := fun byte member => plain byte (List.mem_cons_of_mem _ member)
      have step : closeIn? close.bytes (quote.map Char.toUInt8) offset (byte :: (piece ++ rest)) =
          closeIn? close.bytes (quote.map Char.toUInt8) (offset + 1) (piece ++ rest) := by
        cases quote with
        | none =>
            have unquoted : ¬(byte = '"'.toUInt8 ∨ byte = '\''.toUInt8) := by
              rintro (double | single)
              · exact other '"' (by decide) double
              · exact other '\'' (by decide) single
            have absent : close.bytes.isPrefixOf (byte :: (piece ++ rest)) = false := by
              obtain ⟨brace, close, rfl⟩ := List.exists_cons_of_ne_nil braces.nonempty
              have ascii := ascii_of_braces braces brace List.mem_cons_self
              rw [Text.bytes_ascii_cons ascii, List.isPrefixOf,
                beq_eq_false_iff_ne.mpr (other brace ascii).symm]
              rfl
            rw [Option.map_none, closeIn?, if_neg unquoted, absent]
            rfl
        | some quote =>
            rw [Option.map_some, closeIn?_inside (other '\\' (by decide)),
              if_neg (other quote (ascii_of_quoteState state))]
      rw [List.cons_append, step, inductionHypothesis others, List.length_cons]
      congr 1
      omega

theorem unquoted_of_tells {c : Char} {byte : UInt8}
    (tells : ∀ mark : Char, mark.toNat < 128 → (byte = mark.toUInt8 ↔ c = mark))
    (ordinary : ¬(c = '"' ∨ c = '\'')) : ¬(byte = '"'.toUInt8 ∨ byte = '\''.toUInt8) := by
  rwa [tells '"' (by decide), tells '\'' (by decide)]

theorem quote_of_tells {c quote : Char} {byte : UInt8} (tells : byte = quote.toUInt8 ↔ c = quote) :
    (if byte = quote.toUInt8 then none else some quote.toUInt8) =
      (if c = quote then none else some quote).map Char.toUInt8 := by
  by_cases same : c = quote
  · rw [if_pos (tells.mpr same), if_pos same]
    rfl
  · rw [if_neg (mt tells.mp same), if_neg same]
    rfl

/-- Where a tag ends that begins with `c`, by its end behind `c`. -/
theorem map_end_cons (c : Char) (halves : Option (Text × Text)) (offset closing : Nat) :
    (halves.map fun (front, behind) => (c :: front, behind)).map
        (fun (front, _) => offset + Text.size front + closing) =
      halves.map fun (front, _) => offset + c.utf8Size + Text.size front + closing := by
  rw [Option.map_map]
  congr 1
  funext halves
  simp only [Function.comp_apply, Text.size_cons]
  omega

/-- The end of a tag among the bytes is its end in the text. -/
theorem closeIn?_bytes {close : Text} (braces : Braces close) {quote : Option Char}
    (state : QuoteState quote) (text : Text) (offset : Nat) :
    closeIn? close.bytes (quote.map Char.toUInt8) offset text.bytes =
      (splitAtClose close quote text).map
        fun (front, _) => offset + front.size + close.size := by
  fun_induction splitAtClose close quote text generalizing offset with
  | case1 quote => simp [closeIn?, Text.bytes]
  | case2 quote c rest inductionHypothesis =>
      obtain ⟨byte, more, shape, length, _, plain⟩ := Text.exists_utf8EncodeChar c
      rw [Text.bytes_ascii_cons (by decide), Text.bytes_cons, shape, List.cons_append,
        Option.map_some, closeIn?, if_pos rfl, ← Option.map_some,
        closeIn?_append braces state plain, inductionHypothesis state, Option.map_map]
      congr 1
      funext halves
      simp only [Function.comp_apply, Text.size_cons, show Char.utf8Size '\\' = 1 from rfl]
      omega
  | case3 quote c rest unescaped inductionHypothesis =>
      obtain ⟨byte, more, shape, length, tells, plain⟩ := Text.exists_utf8EncodeChar c
      by_cases backslash : c = '\\'
      · have last : rest = [] := by
          cases rest with
          | nil => rfl
          | cons d rest => exact (unescaped d rest backslash rfl).elim
        subst backslash last
        simp [Text.bytes, closeIn?, splitAtClose, String.utf8EncodeChar]
      · have ascii := ascii_of_quoteState state
        have state' : QuoteState (if c = quote then none else some quote) := by
          split
          · exact quoteState_none
          · exact state
        rw [Text.bytes_cons, shape, List.cons_append, Option.map_some,
          closeIn?_inside (mt (tells '\\' (by decide)).mp backslash),
          quote_of_tells (tells quote ascii), closeIn?_append braces state' plain,
          inductionHypothesis state', map_end_cons, ← length, ← Nat.add_assoc,
          Nat.add_right_comm offset]
  | case4 c rest opens inductionHypothesis =>
      have state' : QuoteState (some c) := by
        rintro d ⟨⟩
        exact opens
      have ascii := ascii_of_quoteState state'
      have size : c.utf8Size = 1 := by
        rcases opens with rfl | rfl
        · rfl
        · rfl
      have opened : c.toUInt8 = '"'.toUInt8 ∨ c.toUInt8 = '\''.toUInt8 := by
        rcases opens with rfl | rfl
        · exact .inl rfl
        · exact .inr rfl
      have later := inductionHypothesis state' (offset + 1)
      rw [Option.map_some] at later
      rw [Text.bytes_ascii_cons ascii, Option.map_none, closeIn?, if_pos opened, later,
        map_end_cons, size]
  | case5 c rest ordinary behind here =>
      obtain ⟨byte, more, shape, length, tells, plain⟩ := Text.exists_utf8EncodeChar c
      have starts := Text.isPrefixOf_bytes (ascii_of_braces braces) (c :: rest)
      rw [here, Text.bytes_cons, shape, List.cons_append] at starts
      rw [Text.bytes_cons, shape, List.cons_append, Option.map_none, closeIn?,
        if_neg (unquoted_of_tells tells ordinary), starts, Option.isSome_some, if_pos rfl,
        Text.length_bytes]
      rfl
  | case6 c rest ordinary absent inductionHypothesis =>
      obtain ⟨byte, more, shape, length, tells, plain⟩ := Text.exists_utf8EncodeChar c
      have starts := Text.isPrefixOf_bytes (ascii_of_braces braces) (c :: rest)
      rw [absent, Text.bytes_cons, shape, List.cons_append] at starts
      have later := inductionHypothesis quoteState_none (offset + 1 + more.length)
      have passed := closeIn?_append braces quoteState_none plain (offset + 1) (Text.bytes rest)
      rw [Option.map_none] at later passed
      rw [Text.bytes_cons, shape, List.cons_append, Option.map_none, closeIn?,
        if_neg (unquoted_of_tells tells ordinary), starts, Option.isSome_none,
        if_neg Bool.false_ne_true, passed, later, map_end_cons, ← length, ← Nat.add_assoc,
        Nat.add_right_comm offset]

/-- The offsets of a mark among bytes that begin at `offset`, none inside another.  The first
`skipped` bytes belong to the one before. -/
def occurrences (mark : List UInt8) : (offset skipped : Nat) → List UInt8 → List Nat
  | _, _, [] => []
  | offset, skipped + 1, _ :: rest => occurrences mark (offset + 1) skipped rest
  | offset, 0, byte :: rest =>
      if mark.isPrefixOf (byte :: rest) then
        offset :: occurrences mark (offset + 1) (mark.length - 1) rest
      else occurrences mark (offset + 1) 0 rest

theorem occurrences_append {mark piece : List UInt8} {first : UInt8}
    (other : ∀ byte ∈ piece, byte ≠ first) (offset : Nat) (rest : List UInt8) :
    occurrences (first :: mark) offset 0 (piece ++ rest) =
      occurrences (first :: mark) (offset + piece.length) 0 rest := by
  induction piece generalizing offset with
  | nil => rfl
  | cons byte piece inductionHypothesis =>
      have here : first ≠ byte := (other byte List.mem_cons_self).symm
      have others := fun byte member => other byte (List.mem_cons_of_mem _ member)
      rw [List.cons_append, occurrences, if_neg (by simp [here]), inductionHypothesis others,
        List.length_cons]
      congr 1
      omega

theorem eq_concat_of_bytes {mark : Char} (ascii : mark.toNat < 128) {text : Text}
    {front : List UInt8} (ends : text.bytes = front ++ [mark.toUInt8]) :
    ∃ before, text = before ++ [mark] ∧ before.bytes = front := by
  rcases List.eq_nil_or_concat text with rfl | ⟨before, c, rfl⟩
  · simp [Text.bytes] at ends
  · rw [List.concat_eq_append] at ends ⊢
    have last : mark.toUInt8 ∈ String.utf8EncodeChar c := by
      obtain ⟨byte, more, shape, _⟩ := Text.exists_utf8EncodeChar c
      rw [Text.bytes_append, Text.bytes_cons, shape] at ends
      have same := congrArg List.getLast? ends
      simp only [Text.bytes, List.flatMap_nil, List.append_nil, List.getLast?_append,
        List.getLast?_singleton, Option.some_or] at same
      rw [shape]
      rcases hlast : (byte :: more).getLast? with _ | found
      · simp at hlast
      · rw [hlast, Option.some_or] at same
        cases same
        exact List.mem_of_getLast? hlast
    obtain rfl := (Text.mem_utf8EncodeChar_iff ascii).mp last
    rw [Text.bytes_append, Text.bytes_ascii_cons ascii] at ends
    exact ⟨before, rfl, List.append_cancel_right ends⟩

theorem isSuffixOf_bytes {mark : Text} (ascii : mark.Ascii) (text : Text) :
    mark.bytes.isSuffixOf text.bytes = true ↔ mark <:+ text := by
  rw [List.isSuffixOf_iff_suffix]
  constructor
  · induction bound : mark.length generalizing mark text with
    | zero =>
        rw [List.length_eq_zero_iff.mp bound]
        exact fun _ => List.nil_suffix
    | succ length inductionHypothesis =>
        rcases List.eq_nil_or_concat mark with rfl | ⟨front, c, rfl⟩
        · simp at bound
        · rw [List.concat_eq_append] at ascii bound ⊢
          rintro ⟨before, whole⟩
          have last : c.toNat < 128 := ascii c (by simp)
          rw [Text.bytes_append, Text.bytes_ascii_cons last, ← List.append_assoc] at whole
          obtain ⟨rest, rfl, same⟩ := eq_concat_of_bytes last whole.symm
          have inside : front <:+ rest := by
            refine inductionHypothesis (fun d member => ascii d (by simp [member])) rest
              (by simpa using bound) ⟨before, same.symm⟩
          obtain ⟨left, rfl⟩ := inside
          exact ⟨left, by simp⟩
  · rintro ⟨before, rfl⟩
    rw [Text.bytes_append]
    exact List.suffix_append _ _

end Bytes

/-! ## The end of a long comment -/

/-- How the text of a long comment ends so far: what its terminator begins with. -/
inductive CommentTail where
  | other
  | dash
  | dashes
  | tilde
deriving DecidableEq

namespace CommentTail

def text : CommentTail → Text
  | .other => []
  | .dash => ['-']
  | .dashes => ['-', '-']
  | .tilde => ['-', '-', '~']

def next (tail : CommentTail) (c : Char) : CommentTail :=
  if c = '-' then
    match tail with
    | .dash | .dashes => .dashes
    | _ => .dash
  else if c = '~' ∧ tail = .dashes then .tilde
  else .other

def ofText (passed : Text) : CommentTail :=
  passed.foldl next .other

def closes (tail : CommentTail) : Bool :=
  tail = .dashes || tail = .tilde

theorem ofText_concat (passed : Text) (c : Char) :
    ofText (passed ++ [c]) = (ofText passed).next c := by
  simp [ofText]

theorem suffix_concat_concat {α : Type} {mark text : List α} {last c : α} :
    mark ++ [last] <:+ text ++ [c] ↔ last = c ∧ mark <:+ text := by
  rw [List.suffix_concat_iff]
  constructor
  · rintro (empty | ⟨front, same, suffix⟩)
    · simp at empty
    · obtain ⟨rfl, lasts⟩ := List.append_inj' same rfl
      cases lasts
      exact ⟨rfl, suffix⟩
  · rintro ⟨rfl, suffix⟩
    exact .inr ⟨mark, rfl, suffix⟩

theorem suffix_iff (passed : Text) :
    (['-'] <:+ passed ↔ ofText passed = .dash ∨ ofText passed = .dashes) ∧
      (['-', '-'] <:+ passed ↔ ofText passed = .dashes) ∧
      (['-', '-', '~'] <:+ passed ↔ ofText passed = .tilde) := by
  induction bound : passed.length generalizing passed with
  | zero =>
      rw [List.length_eq_zero_iff.mp bound]
      simp [ofText]
  | succ length inductionHypothesis =>
      rcases List.eq_nil_or_concat passed with rfl | ⟨front, c, rfl⟩
      · simp at bound
      · rw [List.concat_eq_append] at bound ⊢
        obtain ⟨dash, dashes, -⟩ := inductionHypothesis front (by simpa using bound)
        have one : ['-'] <:+ front ++ [c] ↔ '-' = c ∧ [] <:+ front :=
          @suffix_concat_concat Char [] front '-' c
        have two : ['-', '-'] <:+ front ++ [c] ↔ '-' = c ∧ ['-'] <:+ front :=
          @suffix_concat_concat Char ['-'] front '-' c
        have three : ['-', '-', '~'] <:+ front ++ [c] ↔ '~' = c ∧ ['-', '-'] <:+ front :=
          @suffix_concat_concat Char ['-', '-'] front '~' c
        rw [one, two, three, dash, dashes, ofText_concat]
        generalize ofText front = tail
        by_cases minus : c = '-'
        · subst minus
          cases tail <;> simp [next]
        · by_cases wave : c = '~'
          · subst wave
            cases tail <;> simp [next]
          · cases tail <;> simp [next, minus, wave, Ne.symm minus, Ne.symm wave]

theorem closes_ofText_iff (passed : Text) :
    (ofText passed).closes = true ↔ ['-', '-'] <:+ passed ∨ ['-', '-', '~'] <:+ passed := by
  obtain ⟨-, dashes, tilde⟩ := suffix_iff passed
  rw [dashes, tilde]
  simp [closes]

end CommentTail

/-- The size of a text up to the end of its terminator, behind a text that ends with `tail`. -/
def commentEnd? (tail : CommentTail) : Text → Option Nat
  | [] => none
  | c :: rest =>
      if tail.closes = true ∧ c = '}' ∧ rest.head? = some '}' then some 2
      else (commentEnd? (tail.next c) rest).map (c.utf8Size + ·)

def longCommentSize? (text : Text) : Option Nat :=
  (splitLongComment text).map fun (value, terminator, _) => value.size + terminator.size

/-- A character at which no terminator starts belongs to the value. -/
theorem longCommentSize?_cons {c : Char} {rest : Text}
    (short : Text.after? ['-', '-', '}', '}'] (c :: rest) = none)
    (marked : Text.after? ['-', '-', '~', '}', '}'] (c :: rest) = none) :
    longCommentSize? (c :: rest) = (longCommentSize? rest).map (c.utf8Size + ·) := by
  rw [longCommentSize?, splitLongComment, short, marked, longCommentSize?, Option.map_map,
    Option.map_map]
  congr 1
  funext parts
  simp only [Function.comp_apply, Text.size_cons]
  omega

theorem longCommentSize?_other {c : Char} (other : c ≠ '-') (rest : Text) :
    longCommentSize? (c :: rest) = (longCommentSize? rest).map (c.utf8Size + ·) := by
  apply longCommentSize?_cons
  · simp [Text.after?, Ne.symm other]
  · simp [Text.after?, Ne.symm other]

/-- The tail belongs to the value if neither the terminator nor the tail goes on. -/
theorem longCommentSize?_tail {tail : CommentTail} {c : Char} {rest : Text} (minus : c ≠ '-')
    (wave : ¬(c = '~' ∧ tail = .dashes))
    (unclosed : ¬(tail.closes = true ∧ c = '}' ∧ rest.head? = some '}')) :
    longCommentSize? (tail.text ++ c :: rest) =
      (longCommentSize? rest).map fun size => tail.text.size + (c.utf8Size + size) := by
  have last := longCommentSize?_other minus rest
  have single : longCommentSize? ('-' :: c :: rest) =
      (longCommentSize? rest).map fun size => 1 + (c.utf8Size + size) := by
    rw [longCommentSize?_cons (by simp [Text.after?, Ne.symm minus])
      (by simp [Text.after?, Ne.symm minus]), last, Option.map_map]
    rfl
  cases tail with
  | other =>
      rw [CommentTail.text, List.nil_append, last]
      simp
  | dash => exact single
  | dashes =>
      have other : c ≠ '~' := fun same => wave ⟨same, rfl⟩
      have short : Text.after? ['-', '-', '}', '}'] ('-' :: '-' :: c :: rest) = none :=
        Text.after?_double_eq_none fun double => unclosed ⟨rfl, double⟩
      have step := longCommentSize?_cons short (by simp [Text.after?, Ne.symm other])
      rw [CommentTail.text, List.cons_append, List.cons_append, List.nil_append, step, single,
        Option.map_map]
      congr 1
      funext size
      simp only [Function.comp_apply, Text.size_cons, Text.size_nil,
        show Char.utf8Size '-' = 1 from rfl]
      omega
  | tilde =>
      have marked :
          Text.after? ['-', '-', '~', '}', '}'] ('-' :: '-' :: '~' :: c :: rest) = none :=
        Text.after?_double_eq_none fun double => unclosed ⟨rfl, double⟩
      have first := longCommentSize?_cons (by simp [Text.after?]) marked
      have second : longCommentSize? ('-' :: '~' :: c :: rest) =
          (longCommentSize? ('~' :: c :: rest)).map (1 + ·) :=
        longCommentSize?_cons (by simp [Text.after?]) (by simp [Text.after?])
      have third := longCommentSize?_other (show '~' ≠ '-' by decide) (c :: rest)
      rw [CommentTail.text, List.cons_append, List.cons_append, List.cons_append, List.nil_append,
        first, second, third, last]
      simp only [Option.map_map]
      congr 1
      funext size
      simp only [Function.comp_apply, Text.size_cons, Text.size_nil,
        show Char.utf8Size '-' = 1 from rfl, show Char.utf8Size '~' = 1 from rfl]
      omega

theorem commentEnd?_cons {tail : CommentTail} {c : Char} (other : c ≠ '}') (rest : Text) :
    commentEnd? tail (c :: rest) = (commentEnd? (tail.next c) rest).map (c.utf8Size + ·) := by
  rw [commentEnd?, if_neg]
  rintro ⟨_, brace, _⟩
  exact other brace

/-- A dash behind a tail goes on with it, or starts it anew. -/
theorem longCommentSize?_dash (tail : CommentTail) (rest : Text)
    (later : ∀ tail : CommentTail,
      longCommentSize? (tail.text ++ rest) = (commentEnd? tail rest).map (tail.text.size + ·)) :
    longCommentSize? (tail.text ++ '-' :: rest) =
      (commentEnd? (tail.next '-') rest).map (tail.text.size + 1 + ·) := by
  cases tail with
  | other =>
      have dash := later .dash
      exact dash
  | dash =>
      have dashes := later .dashes
      exact dashes
  | dashes =>
      have dashes := later .dashes
      have step : longCommentSize? ('-' :: '-' :: '-' :: rest) =
          (longCommentSize? ('-' :: '-' :: rest)).map (1 + ·) :=
        longCommentSize?_cons (by simp [Text.after?]) (by simp [Text.after?])
      rw [CommentTail.text, List.cons_append, List.cons_append, List.nil_append] at dashes
      rw [CommentTail.text, List.cons_append, List.cons_append, List.nil_append, step, dashes,
        Option.map_map]
      congr 1
      funext size
      simp only [Function.comp_apply]
      omega
  | tilde =>
      have dash := later .dash
      have first : longCommentSize? ('-' :: '-' :: '~' :: '-' :: rest) =
          (longCommentSize? ('-' :: '~' :: '-' :: rest)).map (1 + ·) :=
        longCommentSize?_cons (by simp [Text.after?]) (by simp [Text.after?])
      have second : longCommentSize? ('-' :: '~' :: '-' :: rest) =
          (longCommentSize? ('~' :: '-' :: rest)).map (1 + ·) :=
        longCommentSize?_cons (by simp [Text.after?]) (by simp [Text.after?])
      have third := longCommentSize?_other (show '~' ≠ '-' by decide) ('-' :: rest)
      rw [CommentTail.text, List.cons_append, List.nil_append] at dash
      rw [CommentTail.text, List.cons_append, List.cons_append, List.cons_append, List.nil_append,
        first, second, third, dash]
      simp only [Option.map_map]
      congr 1
      funext size
      simp only [Function.comp_apply, Text.size_cons, Text.size_nil,
        show Char.utf8Size '-' = 1 from rfl, show Char.utf8Size '~' = 1 from rfl]
      omega

/-- The terminator of a long comment is found by what stands before its braces. -/
theorem commentEnd?_eq (tail : CommentTail) (text : Text) :
    longCommentSize? (tail.text ++ text) = (commentEnd? tail text).map (tail.text.size + ·) := by
  induction text generalizing tail with
  | nil => cases tail <;> rfl
  | cons c text inductionHypothesis =>
      by_cases minus : c = '-'
      · subst minus
        rw [longCommentSize?_dash tail text inductionHypothesis, commentEnd?_cons (by decide),
          Option.map_map]
        congr 1
        funext size
        simp only [Function.comp_apply, show Char.utf8Size '-' = 1 from rfl]
        omega
      · by_cases wave : c = '~' ∧ tail = .dashes
        · obtain ⟨rfl, rfl⟩ := wave
          have tilde := inductionHypothesis .tilde
          have next : CommentTail.next .dashes '~' = .tilde := rfl
          rw [commentEnd?_cons (by decide), next, Option.map_map]
          refine tilde.trans ?_
          congr 1
          funext size
          simp only [CommentTail.text, Text.size_cons, Text.size_nil, Function.comp_apply,
            show Char.utf8Size '-' = 1 from rfl, show Char.utf8Size '~' = 1 from rfl]
          omega
        · by_cases closed : tail.closes = true ∧ c = '}' ∧ text.head? = some '}'
          · rw [commentEnd?, if_pos closed]
            obtain ⟨closes, rfl, head⟩ := closed
            obtain ⟨rest, rfl⟩ := List.head?_eq_some_iff.mp head
            cases tail with
            | other => cases closes
            | dash => cases closes
            | dashes => rfl
            | tilde => rfl
          · have other := inductionHypothesis .other
            have next : tail.next c = .other := by
              unfold CommentTail.next
              rw [if_neg minus, if_neg wave]
            rw [CommentTail.text, List.nil_append] at other
            rw [longCommentSize?_tail minus wave closed, commentEnd?, if_neg closed, next, other,
              Option.map_map, Option.map_map]
            congr 1
            funext size
            simp only [Function.comp_apply, Text.size_nil]
            omega

/-! ## Runs of text -/

/-- Whether the last character but one and the last one are backslashes, behind a text. -/
def backslashes (before : Bool × Bool) (text : Text) : Bool × Bool :=
  text.foldl (fun flags c => (flags.2, c == '\\')) before

theorem backslashes_cons (before : Bool × Bool) (c : Char) (text : Text) :
    backslashes before (c :: text) = backslashes (before.2, c == '\\') text := rfl

theorem backslashes_append (before : Bool × Bool) (front text : Text) :
    backslashes before (front ++ text) = backslashes (backslashes before front) text := by
  simp [backslashes]

/-- Whether the last character is a backslash that stands alone. -/
def escapes (flags : Bool × Bool) : Bool :=
  flags.2 && !flags.1

/-- A run of text ends at the first opening braces that are not escaped. -/
theorem textRun_eq (beforeLast last : Bool) (text : Text) :
    textRun beforeLast last text =
      match splitAtMark ['{', '{'] text with
      | none => (text, [])
      | some (front, behind) =>
          if escapes (backslashes (beforeLast, last) front) = true then
            (front ++ '{' :: '{' :: (textRun false false behind).1, (textRun false false behind).2)
          else (front, '{' :: '{' :: behind) := by
  fun_induction textRun beforeLast last text with
  | case1 beforeLast last rest escaped run inductionHypothesis =>
      have alone : escapes (backslashes (beforeLast, last) []) = true := by
        simp [backslashes, escapes, escaped]
      simp [splitAtMark, Text.after?, alone, run]
  | case2 beforeLast last rest unescaped =>
      have joined : escapes (backslashes (beforeLast, last) []) = false := by
        simpa [backslashes, escapes] using unescaped
      simp [splitAtMark, Text.after?, joined]
  | case3 beforeLast last c rest other run inductionHypothesis =>
      have absent : Text.after? ['{', '{'] (c :: rest) = none := by
        apply Text.after?_double_eq_none
        rintro ⟨first, second⟩
        obtain ⟨after, shape⟩ := List.head?_eq_some_iff.mp second
        exact other after first shape
      simp only [run]
      rw [inductionHypothesis, splitAtMark, absent]
      cases splitAtMark ['{', '{'] rest with
      | none => rfl
      | some halves =>
          obtain ⟨front, behind⟩ := halves
          have same := congrArg escapes (backslashes_cons (beforeLast, last) c front)
          by_cases alone : escapes (backslashes (last, c == '\\') front) = true
          · simp [alone, same]
          · simp [alone, same]
  | case4 => rfl

end TemplateSelectors
