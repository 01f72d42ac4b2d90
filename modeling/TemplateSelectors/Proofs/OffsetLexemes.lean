import TemplateSelectors.Proofs.Lexing
import TemplateSelectors.Proofs.OffsetPlaces

/-!
# Lexemes by offsets

Comments and tags are found by walking over the bytes of a source.  The ends of a lexeme and of
its parts come out as offsets, some of them by going back over a mark that was found.  None of
these walks leaves the source, and the offsets are those of the lexeme that is read from the text.
-/

set_option autoImplicit false

namespace TemplateSelectors

namespace ByOffsets

open Outcome (check)

/-! ## Walks over the bytes -/

/-- The end of the first `close` outside quotes, from `offset` on. -/
def closeFrom (source close : Text) (quote : Option UInt8) (offset : Nat) : Outcome (Option Nat) :=
  if _inside : offset < source.size then do
    let byte ← byteAt source offset
    match quote with
    | some mark =>
        if byte = '\\'.toUInt8 then closeFrom source close quote (offset + 2)
        else closeFrom source close (if byte = mark then none else quote) (offset + 1)
    | none =>
        if byte = '"'.toUInt8 ∨ byte = '\''.toUInt8 then
          closeFrom source close (some byte) (offset + 1)
        else do
          let behind ← bytesFrom source offset
          if close.bytes.isPrefixOf behind then return some (offset + close.bytes.length)
          else closeFrom source close none (offset + 1)
  else .reached none
termination_by source.size - offset

theorem closeFrom_eq (source close : Text) (quote : Option UInt8) (offset : Nat) :
    closeFrom source close quote offset =
      .reached (Bytes.closeIn? close.bytes quote offset (source.bytes.drop offset)) := by
  induction left : source.size - offset using Nat.strongRecOn generalizing quote offset with
  | ind left' inductionHypothesis =>
  rw [closeFrom]
  by_cases inside : offset < source.size
  · have within : offset < source.bytes.length := by rwa [Text.length_bytes]
    have shape := List.drop_eq_getElem_cons within
    have byte : byteAt source offset = .reached source.bytes[offset] := by
      rw [byteAt, List.getElem?_eq_getElem within, Outcome.check_some]
    have behind : bytesFrom source offset = .reached (source.bytes.drop offset) := by
      rw [bytesFrom, between?_of_le (Nat.le_of_lt within) (Nat.le_refl _), List.take_length,
        Outcome.check_some]
    rw [dif_pos inside, byte, Outcome.reached_bind]
    cases quote with
    | some mark =>
        simp only
        split
        · next escape =>
            have later : source.bytes.drop (offset + 2) = (source.bytes.drop (offset + 1)).tail :=
              List.tail_drop.symm
            rw [inductionHypothesis _ (by omega) (some mark) (offset + 2) rfl, shape, escape, later]
            cases source.bytes.drop (offset + 1) with
            | nil => rfl
            | cons next rest => rw [List.tail_cons, Bytes.closeIn?, if_pos rfl]
        · next unescaped =>
            rw [inductionHypothesis _ (by omega) _ (offset + 1) rfl, shape,
              Bytes.closeIn?_inside unescaped]
    | none =>
        simp only
        rw [shape, Bytes.closeIn?]
        split
        · rw [inductionHypothesis _ (by omega) _ (offset + 1) rfl]
        · rw [behind, Outcome.reached_bind, shape]
          split
          · rfl
          · rw [inductionHypothesis _ (by omega) _ (offset + 1) rfl]
  · rw [dif_neg inside, List.drop_eq_nil_of_le (by rw [Text.length_bytes]; omega)]
    cases quote with
    | some mark => rfl
    | none => rfl

theorem closeFrom_append {source front text close : Text} (whole : source = front ++ text)
    (braces : Braces close) :
    closeFrom source close none front.size =
      .reached ((splitAtClose close none text).map
        fun (body, _) => front.size + body.size + close.size) := by
  have found := Bytes.closeIn?_bytes braces quoteState_none text front.size
  rw [Option.map_none] at found
  rw [closeFrom_eq, whole, Text.bytes_append, ← Text.length_bytes, List.drop_left,
    Text.length_bytes, found]

/-- The end of a long comment: the first of some closing braces that stand behind dashes. -/
def firstEnd (source : Text) (start : Nat) : List Nat → Outcome (Option Nat)
  | [] => .reached none
  | place :: more => do
      let before ← check (between? start place source.bytes)
      if (Text.bytes ['-', '-']).isSuffixOf before || (Text.bytes ['-', '-', '~']).isSuffixOf before
      then return some (place + 2)
      else firstEnd source start more

def longCommentEnd (source : Text) (start : Nat) : Outcome (Option Nat) := do
  let inside ← bytesFrom source start
  firstEnd source start (Bytes.occurrences (Text.bytes ['}', '}']) start 0 inside)

theorem endsDashed_iff (passed : Text) :
    ((Text.bytes ['-', '-']).isSuffixOf passed.bytes ||
        (Text.bytes ['-', '-', '~']).isSuffixOf passed.bytes) =
      (CommentTail.ofText passed).closes := by
  rw [Bool.eq_iff_iff, Bool.or_eq_true, Bytes.isSuffixOf_bytes (by decide),
    Bytes.isSuffixOf_bytes (by decide), CommentTail.closes_ofText_iff]

theorem passedBytes {source front passed rest : Text} (whole : source = front ++ (passed ++ rest)) :
    between? front.size (front.size + passed.size) source.bytes = some passed.bytes := by
  have inside : front.size + passed.size ≤ source.bytes.length := by
    rw [whole, Text.length_bytes]
    simp only [Text.size_append]
    omega
  rw [between?_of_le (Nat.le_add_right _ _) inside, whole, Text.bytes_append, Text.bytes_append,
    ← Text.length_bytes front, ← Text.length_bytes passed, List.take_length_add_append,
    List.take_left, List.drop_left]

/-- The walk over closing braces finds the end of a comment behind `passed`.  The first `skipped`
bytes belong to braces the first of which is the last of `passed`. -/
def EndsBehind (source front passed : Text) (skipped : Nat) (text : Text) : Prop :=
  firstEnd source front.size
      (Bytes.occurrences (Text.bytes ['}', '}']) (front.size + passed.size) skipped text.bytes) =
    .reached ((commentEnd? (.ofText passed) text).map (front.size + passed.size + ·))

theorem size_concat (front passed : Text) (c : Char) :
    front.size + (passed ++ [c]).size = front.size + passed.size + c.utf8Size := by
  rw [Text.size_append, Text.size_cons, Text.size_nil]
  omega

theorem map_commentEnd_concat (front passed : Text) (c : Char) (found : Option Nat) :
    (found.map (c.utf8Size + ·)).map (front.size + passed.size + ·) =
      found.map (front.size + (passed ++ [c]).size + ·) := by
  rw [Option.map_map, size_concat]
  congr 1
  funext size
  simp only [Function.comp_apply]
  omega

theorem endsBehind_skipped {source front passed text : Text}
    (other : CommentTail.ofText passed = .other)
    (later : EndsBehind source front (passed ++ ['}']) 0 text) :
    EndsBehind source front passed 1 ('}' :: text) := by
  have skip : Bytes.occurrences (Text.bytes ['}', '}']) (front.size + passed.size) 1
      ('}'.toUInt8 :: Text.bytes text) =
        Bytes.occurrences (Text.bytes ['}', '}']) (front.size + passed.size + 1) 0
          (Text.bytes text) := rfl
  rw [EndsBehind, size_concat, CommentTail.ofText_concat, other] at later
  rw [EndsBehind, Text.bytes_ascii_cons (by decide) text, skip, commentEnd?, other,
    if_neg (by simp [CommentTail.closes]), map_commentEnd_concat, size_concat]
  exact later

/-- Two closing braces are the end if dashes stand before them.  If not, the second one may still be
the first of two. -/
theorem endsBehind_double {source front passed behind : Text}
    (whole : source = front ++ (passed ++ '}' :: '}' :: behind))
    (later : EndsBehind source front (passed ++ ['}']) 1 ('}' :: behind)) :
    EndsBehind source front passed 0 ('}' :: '}' :: behind) := by
  have here : Bytes.occurrences (Text.bytes ['}', '}']) (front.size + passed.size) 0
      (Text.bytes ('}' :: '}' :: behind)) =
        (front.size + passed.size) :: Bytes.occurrences (Text.bytes ['}', '}'])
          (front.size + passed.size + 1) 1 (Text.bytes ('}' :: behind)) := rfl
  rw [EndsBehind, here, firstEnd, passedBytes whole, Outcome.check_some, Outcome.reached_bind,
    endsDashed_iff, commentEnd?]
  by_cases closes : (CommentTail.ofText passed).closes = true
  · rw [if_pos closes, if_pos ⟨closes, rfl, rfl⟩]
    rfl
  · rw [EndsBehind, size_concat, CommentTail.ofText_concat] at later
    rw [if_neg closes, if_neg (fun all => closes all.1), map_commentEnd_concat, size_concat]
    exact later

theorem endsBehind_single {source front passed text : Text} {c : Char}
    (single : ¬(c = '}' ∧ text.head? = some '}'))
    (later : EndsBehind source front (passed ++ [c]) 0 text) :
    EndsBehind source front passed 0 (c :: text) := by
  obtain ⟨byte, more, shape, length, tells, plain⟩ := Text.exists_utf8EncodeChar c
  have brace : '}'.toNat < 128 := by decide
  have starts := Text.isPrefixOf_bytes (by decide : Text.Ascii ['}', '}']) (c :: text)
  rw [Text.after?_double_eq_none single, Text.bytes_cons c text, shape, List.cons_append] at starts
  have size : front.size + passed.size + 1 + more.length = front.size + (passed ++ [c]).size := by
    rw [size_concat]
    omega
  rw [EndsBehind, CommentTail.ofText_concat] at later
  rw [EndsBehind, Text.bytes_cons c text, shape, List.cons_append, Bytes.occurrences, starts,
    Option.isSome_none, if_neg Bool.false_ne_true, commentEnd?, if_neg (fun all => single all.2),
    map_commentEnd_concat, Text.bytes_ascii_cons brace,
    Bytes.occurrences_append (fun byte member => plain byte member '}' brace), size,
    ← Text.bytes_ascii_cons brace]
  exact later

theorem endsBehind_of_append {source front passed text : Text}
    (whole : source = front ++ (passed ++ text)) {skipped : Nat}
    (joined : skipped = 0 ∨ skipped = 1 ∧ text.head? = some '}' ∧
      CommentTail.ofText passed = .other) : EndsBehind source front passed skipped text := by
  induction text generalizing passed skipped with
  | nil =>
      cases skipped with
      | zero => rfl
      | succ skipped => rfl
  | cons c text inductionHypothesis =>
      have split : source = front ++ ((passed ++ [c]) ++ text) := by
        rw [whole]
        simp
      rcases joined with rfl | ⟨rfl, head, other⟩
      · by_cases double : c = '}' ∧ text.head? = some '}'
        · obtain ⟨rfl, head⟩ := double
          obtain ⟨behind, rfl⟩ := List.head?_eq_some_iff.mp head
          refine endsBehind_double whole (inductionHypothesis split (.inr ⟨rfl, rfl, ?_⟩))
          rw [CommentTail.ofText_concat]
          rfl
        · exact endsBehind_single double (inductionHypothesis split (.inl rfl))
      · obtain rfl : c = '}' := Option.some.inj head
        exact endsBehind_skipped other (inductionHypothesis split (.inl rfl))

theorem longCommentEnd_append {source front text : Text} (whole : source = front ++ text) :
    longCommentEnd source front.size =
      .reached ((longCommentSize? text).map (front.size + ·)) := by
  have walked := @endsBehind_of_append source front [] text whole 0 (.inl rfl)
  have found := commentEnd?_eq .other text
  rw [CommentTail.text, List.nil_append] at found
  simp only [Text.size_nil, Nat.zero_add, Option.map_id'] at found
  rw [longCommentEnd, bytesFrom_append whole, Outcome.reached_bind, found]
  exact walked

def escapedAt (source : Text) (start : Nat) : Outcome Bool :=
  if 1 ≤ start then do
    let last ← byteAt source (start - 1)
    if last = '\\'.toUInt8 then
      if 2 ≤ start then do
        let before ← byteAt source (start - 2)
        return before != '\\'.toUInt8
      else return true
    else return false
  else return false

theorem escapedAt_append {source front rest : Text} (whole : source = front ++ rest) :
    escapedAt source front.size = .reached (escapes (backslashes (false, false) front)) := by
  rcases List.eq_nil_or_concat front with rfl | ⟨before, c, rfl⟩
  · rfl
  · rw [List.concat_eq_append] at whole ⊢
    have positive : 0 < c.utf8Size := Char.utf8Size_pos c
    have around : source = before ++ (c :: rest) := by
      rw [whole]
      simp
    obtain ⟨byte, last, tells⟩ := byteAt_last c around
    have size : Text.size (before ++ [c]) = Text.size before + c.utf8Size := by
      simp [Text.size_append]
    rw [escapedAt, if_pos (by omega), last, Outcome.reached_bind, backslashes_append]
    by_cases backslash : c = '\\'
    · have single : Text.size (before ++ [c]) = Text.size before + 1 := by
        rw [size, backslash]
        rfl
      rw [if_pos ((tells '\\' (by decide)).mpr backslash)]
      rcases List.eq_nil_or_concat before with rfl | ⟨front, d, rfl⟩
      · rw [if_neg (by rw [single]; decide), backslash]
        rfl
      · rw [List.concat_eq_append] at around single ⊢
        have long : 0 < d.utf8Size := Char.utf8Size_pos d
        have further : source = front ++ (d :: ([c] ++ rest)) := by
          rw [around]
          simp
        obtain ⟨earlier, found, knows⟩ := byteAt_last d further
        have place : Text.size (front ++ [d] ++ [c]) - 2 = Text.size (front ++ [d]) - 1 := by
          omega
        have least : 2 ≤ Text.size (front ++ [d] ++ [c]) := by
          rw [single, Text.size_append, Text.size_cons, Text.size_nil]
          omega
        rw [if_pos least, place, found, Outcome.reached_bind, backslashes_append, backslash]
        have same : (earlier == '\\'.toUInt8) = (d == '\\') := by
          rw [Bool.eq_iff_iff, beq_iff_eq, beq_iff_eq, knows '\\' (by decide)]
        simp [backslashes, escapes, bne, same]
    · have other : byte ≠ '\\'.toUInt8 := mt (tells '\\' (by decide)).mp backslash
      rw [if_neg other]
      simp [backslashes, escapes, backslash]

/-- Goes back over a mark of white space control, but not before `floor`. -/
def beforeTilde (source : Text) (floor place : Nat) : Outcome Nat :=
  if floor < place then do
    let before ← minus place 1
    let byte ← byteAt source before
    if byte = '~'.toUInt8 then return before else return place
  else return place

theorem beforeTilde_append {source front body rest : Text}
    (whole : source = front ++ (body ++ rest)) :
    beforeTilde source front.size (front.size + body.size) =
      .reached (front.size + (Lexeme.trailingTilde body).1.size) := by
  rcases List.eq_nil_or_concat body with rfl | ⟨inner, c, rfl⟩
  · simp [beforeTilde, Lexeme.trailingTilde]
  · rw [List.concat_eq_append] at whole ⊢
    have positive : 0 < c.utf8Size := Char.utf8Size_pos c
    have around : source = (front ++ inner) ++ (c :: rest) := by
      rw [whole]
      simp
    obtain ⟨byte, last, tells⟩ := byteAt_last c around
    have size : front.size + Text.size (inner ++ [c]) = Text.size (front ++ inner ++ [c]) := by
      simp only [Text.size_append]
      omega
    have reaches : front.size < front.size + Text.size (inner ++ [c]) := by
      simp only [Text.size_append, Text.size_cons, Text.size_nil]
      omega
    rw [beforeTilde, if_pos reaches, minus_of_le (by omega), Outcome.reached_bind, size, last,
      Outcome.reached_bind, Lexeme.trailingTilde]
    by_cases tilde : c = '~'
    · rw [if_pos ((tells '~' (by decide)).mpr tilde), if_pos (by rw [tilde]; simp),
        List.dropLast_concat, tilde]
      simp only [Text.size_append, Text.size_cons, Text.size_nil,
        show Char.utf8Size '~' = 1 from rfl, Outcome.pure_eq]
      congr 1
    · rw [if_neg (mt (tells '~' (by decide)).mp tilde), if_neg (by simpa using tilde), ← size]
      rfl

/-! ## Comments and tags -/

/-- The offsets that a comment or a tag is cut at: where its inside starts and stops, and where it
stops itself. -/
inductive Marks where
  | comment (valueStart valueStop stop : Nat)
  | tag (triple : Bool) (innerStart innerStop stop : Nat)

def Marks.ofLexeme (start : Nat) : Lexeme → Marks
  | .comment opener value closer =>
      .comment (start + opener.size) (start + opener.size + value.size)
        (start + opener.size + value.size + closer.size)
  | .tag triple opener inner closer =>
      .tag triple (start + opener.size) (start + opener.size + inner.size)
        (start + opener.size + inner.size + closer.size)

def Marks.ofRead (source : Text) (start : Nat) :
    Except Lexeme.Fault (Lexeme × Text) → Outcome Marks
  | .error (cause, size) =>
      .refused ((LineIndex.ofText source).errorAt cause ⟨start, start + size⟩)
  | .ok (lexeme, _) => .reached (.ofLexeme start lexeme)

def tagAt (source : Text) (triple : Bool) (close : Text) (start innerStart : Nat) :
    Outcome Marks := do
  match ← closeFrom source close none innerStart with
  | none => refuse source (.unclosed .mustache) start innerStart
  | some stop =>
      let braces ← minus stop close.size
      let innerStop ← beforeTilde source innerStart braces
      return .tag triple innerStart innerStop stop

def beforeDashes (source : Text) (stop : Nat) : Outcome Nat := do
  let braces ← minus stop 2
  let before ← minus braces 1
  let byte ← byteAt source before
  if byte = '~'.toUInt8 then minus before 2 else minus braces 2

def longCommentAt (source : Text) (start valueStart : Nat) : Outcome Marks := do
  match ← longCommentEnd source valueStart with
  | none => refuse source (.unclosed .comment) start valueStart
  | some stop =>
      let valueStop ← beforeDashes source stop
      return .comment valueStart valueStop stop

def shortCommentAt (source : Text) (start valueStart : Nat) : Outcome Marks := do
  let inside ← bytesFrom source valueStart
  match Bytes.find? (Text.bytes ['}', '}']) inside with
  | none => refuse source (.unclosed .comment) start valueStart
  | some found =>
      let stop := valueStart + found + 2
      let braces ← minus stop 2
      let valueStop ← beforeTilde source valueStart braces
      return .comment valueStart valueStop stop

def commentAt (source : Text) (start bodyStart : Nat) : Outcome Marks := do
  let body ← cutFrom source bodyStart
  if ['-', '-'].isPrefixOf body then longCommentAt source start (bodyStart + 2)
  else shortCommentAt source start bodyStart

/-- The number of bytes of the opening braces and of a mark of white space control behind them. -/
def headSize (rest : Text) (braces : Nat) : Outcome Nat := do
  let behind ← cutFrom rest braces
  return if behind.head? = some '~' then braces + 1 else braces

/-- The tag between three braces at `start`, where the source goes on with `rest`. -/
def tripleAt (source : Text) (start : Nat) (rest : Text) : Outcome Marks := do
  let head ← headSize rest 3
  tagAt source true ['}', '}', '}'] start (start + head)

/-- The comment or tag between two braces at `start`, where the source goes on with `rest`. -/
def doubleAt (source : Text) (start : Nat) (rest : Text) : Outcome Marks := do
  let head ← headSize rest 2
  let inside ← cutFrom rest head
  if inside.head? = some '!' then commentAt source start (start + head + 1)
  else tagAt source false ['}', '}'] start (start + head)

def lexemeAt (source : Text) (start : Nat) : Outcome Marks := do
  let rest ← cutFrom source start
  if ['{', '{', '{', '{'].isPrefixOf rest then
    refuse source (.unsupported .rawBlocks) start (start + 4)
  else if ['{', '{', '{'].isPrefixOf rest then tripleAt source start rest
  else doubleAt source start rest

section

variable {source front opener inside : Text}

theorem size_trailingTilde (body : Text) :
    (Lexeme.trailingTilde body).1.size + (Lexeme.trailingTilde body).2.size = body.size := by
  rw [← Text.size_append, Lexeme.trailingTilde_append]

theorem tagAt_eq (triple : Bool) {close : Text} (braces : Braces close)
    (whole : source = front ++ (opener ++ inside)) :
    tagAt source triple close front.size (front.size + opener.size) =
      Marks.ofRead source front.size (Lexeme.readTag triple opener close inside) := by
  have split : source = (front ++ opener) ++ inside := by
    rw [whole, List.append_assoc]
  have found := closeFrom_append split braces
  rw [Text.size_append] at found
  rw [tagAt, found, Outcome.reached_bind, Lexeme.readTag]
  cases closed : splitAtClose close none inside with
  | none => exact refuse_eq source _ (Nat.le_add_right _ _)
  | some parts =>
      obtain ⟨body, behind⟩ := parts
      have around : source = (front ++ opener) ++ (body ++ (close ++ behind)) := by
        rw [split, eq_append_of_splitAtClose closed, List.append_assoc body]
      have back := beforeTilde_append around
      have size := size_trailingTilde body
      rw [Text.size_append] at back
      simp only [Option.map_some, minus_of_le (Nat.le_add_left _ _), Nat.add_sub_cancel,
        Outcome.reached_bind, back, Outcome.pure_eq, Marks.ofRead, Marks.ofLexeme, Text.size_append]
      congr 2
      omega

theorem beforeDashes_append {terminator behind : Text} (long : LongEnd terminator)
    (whole : source = front ++ (terminator ++ behind)) :
    beforeDashes source (front.size + terminator.size) = .reached front.size := by
  have dash : Char.utf8Size '-' = 1 := rfl
  have tilde : Char.utf8Size '~' = 1 := rfl
  have brace : Char.utf8Size '}' = 1 := rfl
  rcases long with rfl | rfl
  · have around : source = (front ++ ['-']) ++ '-' :: (['}', '}'] ++ behind) := by
      rw [whole]
      simp
    obtain ⟨byte, last, tells⟩ := byteAt_last '-' around
    have other : byte ≠ '~'.toUInt8 := mt (tells '~' (by decide)).mp (by decide)
    have place : front.size + Text.size ['-', '-', '}', '}'] - 2 - 1 =
        Text.size (front ++ ['-'] ++ ['-']) - 1 := by
      simp only [Text.size_append, Text.size_cons, Text.size_nil]
      omega
    have size : Text.size ['-', '-', '}', '}'] = 4 := rfl
    rw [beforeDashes, minus_of_le (by omega), Outcome.reached_bind, minus_of_le (by omega),
      Outcome.reached_bind, place, last, Outcome.reached_bind, if_neg other,
      minus_of_le (by omega), size]
    rfl
  · have around : source = (front ++ ['-', '-']) ++ '~' :: (['}', '}'] ++ behind) := by
      rw [whole]
      simp
    obtain ⟨byte, last, tells⟩ := byteAt_last '~' around
    have place : front.size + Text.size ['-', '-', '~', '}', '}'] - 2 - 1 =
        Text.size (front ++ ['-', '-'] ++ ['~']) - 1 := by
      simp only [Text.size_append, Text.size_cons, Text.size_nil]
      omega
    have size : Text.size ['-', '-', '~', '}', '}'] = 5 := rfl
    rw [beforeDashes, minus_of_le (by omega), Outcome.reached_bind, minus_of_le (by omega),
      Outcome.reached_bind, place, last, Outcome.reached_bind,
      if_pos ((tells '~' (by decide)).mpr rfl), ← place, minus_of_le (by omega), size]
    rfl

theorem longCommentAt_eq (whole : source = front ++ (opener ++ (['-', '-'] ++ inside))) :
    longCommentAt source front.size (front.size + opener.size + 2) =
      Marks.ofRead source front.size (Lexeme.readComment opener ('-' :: '-' :: inside)) := by
  have split : source = (front ++ opener ++ ['-', '-']) ++ inside := by
    rw [whole]
    simp only [List.append_assoc]
  have opened : Text.size (front ++ opener ++ ['-', '-']) = front.size + opener.size + 2 := by
    simp only [Text.size_append]
    rfl
  have found := longCommentEnd_append split
  rw [opened] at found
  rw [longCommentAt, found, Outcome.reached_bind, Lexeme.readComment, longCommentSize?]
  cases closed : splitLongComment inside with
  | none =>
      have size : front.size + opener.size + 2 = front.size + Text.size (opener ++ ['-', '-']) := by
        rw [Text.size_append, Nat.add_assoc]
        rfl
      simp only [Option.map_none, Marks.ofRead, size]
      exact refuse_eq source _ (Nat.le_add_right _ _)
  | some parts =>
      obtain ⟨value, terminator, behind⟩ := parts
      have rest := eq_append_of_splitLongComment closed
      have around : source =
          (front ++ opener ++ ['-', '-'] ++ value) ++ (terminator ++ behind) := by
        rw [split, rest]
        simp only [List.append_assoc]
      have back := beforeDashes_append (longEnd_of_splitLongComment closed) around
      rw [Text.size_append, opened, Nat.add_assoc] at back
      have dashes : Text.size ['-', '-'] = 2 := rfl
      simp only [Option.map_some, back, Outcome.reached_bind, Outcome.pure_eq, Marks.ofRead,
        Marks.ofLexeme, Text.size_append, dashes]
      congr 2
      all_goals omega

theorem shortCommentAt_eq (whole : source = front ++ (opener ++ inside))
    (short : ['-', '-'].isPrefixOf inside = false) :
    shortCommentAt source front.size (front.size + opener.size) =
      Marks.ofRead source front.size (Lexeme.readComment opener inside) := by
  have split : source = (front ++ opener) ++ inside := by
    rw [whole, List.append_assoc]
  have from' := bytesFrom_append split
  rw [Text.size_append] at from'
  have read : Lexeme.readComment opener inside =
      (splitAtMark ['}', '}'] inside).elim (.error (.unclosed .comment, opener.size))
        fun parts => .ok (.comment opener (Lexeme.trailingTilde parts.1).1
          ((Lexeme.trailingTilde parts.1).2 ++ ['}', '}']), parts.2) := by
    unfold Lexeme.readComment
    split
    · cases short
    · cases splitAtMark ['}', '}'] inside <;> rfl
  rw [shortCommentAt, from', Outcome.reached_bind, Bytes.find?_bytes (by decide) (by decide), read]
  cases closed : splitAtMark ['}', '}'] inside with
  | none => exact refuse_eq source _ (Nat.le_add_right _ _)
  | some parts =>
      obtain ⟨body, behind⟩ := parts
      have around : source = (front ++ opener) ++ (body ++ (['}', '}'] ++ behind)) := by
        rw [split, eq_append_of_splitAtMark closed, List.append_assoc body]
      have back := beforeTilde_append around
      have size := size_trailingTilde body
      rw [Text.size_append] at back
      simp only [Option.map_some, Option.elim_some, minus_of_le (Nat.le_add_left _ _),
        Nat.add_sub_cancel, Outcome.reached_bind, back, Outcome.pure_eq, Marks.ofRead,
        Marks.ofLexeme, Text.size_append]
      congr 2
      have braces : Text.size ['}', '}'] = 2 := rfl
      omega

theorem commentAt_eq (whole : source = front ++ (opener ++ inside)) :
    commentAt source front.size (front.size + opener.size) =
      Marks.ofRead source front.size (Lexeme.readComment opener inside) := by
  have split : source = (front ++ opener) ++ inside := by
    rw [whole, List.append_assoc]
  have body := cutFrom_append split
  rw [Text.size_append] at body
  rw [commentAt, body, Outcome.reached_bind]
  cases long : ['-', '-'].isPrefixOf inside with
  | true =>
      obtain ⟨rest, rfl⟩ := List.isPrefixOf_iff_prefix.mp long
      rw [if_pos rfl]
      exact longCommentAt_eq whole
  | false => rw [if_neg Bool.false_ne_true, shortCommentAt_eq whole long]

end

theorem headSize_append (braces rest : Text) :
    headSize (braces ++ rest) braces.size =
      .reached (Text.size (braces ++ (Lexeme.leadingTilde rest).1)) := by
  rw [headSize, cutFrom_append rfl, Outcome.reached_bind, Text.size_append]
  fun_cases Lexeme.leadingTilde rest with
  | case1 rest => rfl
  | case2 rest other =>
      rw [if_neg]
      · rfl
      · intro head
        obtain ⟨behind, rfl⟩ := List.head?_eq_some_iff.mp head
        exact other behind rfl

theorem tripleAt_eq {source front rest : Text}
    (whole : source = front ++ (['{', '{', '{'] ++ rest)) :
    tripleAt source front.size (['{', '{', '{'] ++ rest) =
      Marks.ofRead source front.size (Lexeme.readTag true
        (['{', '{', '{'] ++ (Lexeme.leadingTilde rest).1) ['}', '}', '}']
        (Lexeme.leadingTilde rest).2) := by
  have head : headSize (['{', '{', '{'] ++ rest) 3 = _ := headSize_append ['{', '{', '{'] rest
  rw [tripleAt, head, Outcome.reached_bind]
  apply tagAt_eq true braces_three
  rw [whole, List.append_assoc, Lexeme.leadingTilde_append]

theorem doubleAt_eq {source front rest : Text} (whole : source = front ++ (['{', '{'] ++ rest)) :
    doubleAt source front.size (['{', '{'] ++ rest) =
      Marks.ofRead source front.size
        (match (Lexeme.leadingTilde rest).2 with
        | '!' :: inside =>
            Lexeme.readComment (['{', '{'] ++ (Lexeme.leadingTilde rest).1 ++ ['!']) inside
        | inside =>
            Lexeme.readTag false (['{', '{'] ++ (Lexeme.leadingTilde rest).1) ['}', '}']
              inside) := by
  have head : headSize (['{', '{'] ++ rest) 2 = _ := headSize_append ['{', '{'] rest
  have split : ['{', '{'] ++ rest =
      (['{', '{'] ++ (Lexeme.leadingTilde rest).1) ++ (Lexeme.leadingTilde rest).2 := by
    rw [List.append_assoc, Lexeme.leadingTilde_append]
  rw [doubleAt, head, Outcome.reached_bind, cutFrom_append split, Outcome.reached_bind]
  rw [split] at whole
  split
  · next bang =>
      obtain ⟨inside, comment⟩ := List.head?_eq_some_iff.mp bang
      have around : source =
          front ++ ((['{', '{'] ++ (Lexeme.leadingTilde rest).1 ++ ['!']) ++ inside) := by
        rw [whole, comment]
        simp
      have size : front.size + Text.size (['{', '{'] ++ (Lexeme.leadingTilde rest).1) + 1 =
          front.size + Text.size (['{', '{'] ++ (Lexeme.leadingTilde rest).1 ++ ['!']) := by
        rw [Text.size_append _ ['!'], Nat.add_assoc]
        rfl
      rw [comment, size]
      exact commentAt_eq around
  · next other =>
      rw [tagAt_eq false braces_two whole]
      split
      · next inside bang => exact absurd (by rw [bang]; rfl) other
      · rfl

/-- The comment or tag behind two opening braces is found by offsets as it is read. -/
theorem lexemeAt_eq {source front behind : Text} (whole : source = front ++ '{' :: '{' :: behind) :
    lexemeAt source front.size = Marks.ofRead source front.size (Lexeme.read behind) := by
  rw [lexemeAt, cutFrom_append whole, Outcome.reached_bind]
  by_cases brace : ∃ rest, behind = '{' :: rest
  · obtain ⟨rest, rfl⟩ := brace
    by_cases again : ∃ tail, rest = '{' :: tail
    · obtain ⟨tail, rfl⟩ := again
      exact refuse_eq source _ (Nat.le_add_right _ _)
    · have raw : ¬['{', '{', '{', '{'].isPrefixOf ('{' :: '{' :: '{' :: rest) = true := by
        intro starts
        obtain ⟨tail, same⟩ := List.isPrefixOf_iff_prefix.mp starts
        cases same
        exact again ⟨tail, rfl⟩
      rw [if_neg raw, if_pos (by rfl), Lexeme.read]
      · exact tripleAt_eq whole
      · intro tail same
        exact again ⟨tail, same⟩
  · have triple : ¬['{', '{', '{'].isPrefixOf ('{' :: '{' :: behind) = true := by
      intro starts
      obtain ⟨tail, same⟩ := List.isPrefixOf_iff_prefix.mp starts
      cases same
      exact brace ⟨tail, rfl⟩
    have raw : ¬['{', '{', '{', '{'].isPrefixOf ('{' :: '{' :: behind) = true := by
      intro starts
      obtain ⟨tail, same⟩ := List.isPrefixOf_iff_prefix.mp starts
      cases same
      exact brace ⟨'{' :: tail, rfl⟩
    rw [if_neg raw, if_neg triple, Lexeme.read]
    · exact doubleAt_eq whole
    · intro tail same
      exact brace ⟨'{' :: tail, same⟩
    · intro tail same
      exact brace ⟨tail, same⟩

end ByOffsets

end TemplateSelectors
