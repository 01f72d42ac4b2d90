import TemplateSelectors.Proofs.OffsetPlaces
import TemplateSelectors.Proofs.Scanning

/-!
# Markup by bytes

Markup is followed byte by byte.  All marks of markup are ASCII, so a longer character counts as
something else with each of its bytes, as it does as a whole.
-/

set_option autoImplicit false

namespace TemplateSelectors

namespace ByOffsets

open Outcome (check)

/-- The character that a single byte stands for. -/
def charOf (byte : UInt8) : Char :=
  Char.ofNat byte.toNat

theorem toNat_charOf (byte : UInt8) : (charOf byte).toNat = byte.toNat := by
  have small : byte.toNat < 256 := byte.toNat_lt
  have valid : byte.toNat.isValidChar := .inl (by omega)
  rw [charOf, Char.ofNat, dif_pos valid]
  rfl

theorem charOf_toUInt8 {c : Char} (ascii : c.toNat < 128) : charOf c.toUInt8 = c := by
  have byte : c.toUInt8.toNat = c.toNat := Nat.mod_eq_of_lt (show Char.toNat _ < 256 by omega)
  rw [charOf, byte, Char.ofNat_toNat]

/-- The markup behind some bytes, from the byte at `place` on. -/
def advanceFrom (bytes : List UInt8) (markup : Markup) (place : Nat) : Outcome Markup :=
  if _inside : place < bytes.length then do
    let byte ← check bytes[place]?
    advanceFrom bytes (markup.step (charOf byte) (bytes[place + 1]?.map charOf)) (place + 1)
  else return markup
termination_by bytes.length - place

theorem advanceFrom_eq (bytes : List UInt8) (markup : Markup) (place : Nat) :
    advanceFrom bytes markup place =
      .reached (markup.advance ((bytes.drop place).map charOf)) := by
  induction left : bytes.length - place using Nat.strongRecOn generalizing markup place with
  | ind left' inductionHypothesis =>
  rw [advanceFrom]
  by_cases inside : place < bytes.length
  · have shape := List.drop_eq_getElem_cons inside
    have next : bytes[place + 1]?.map charOf = ((bytes.drop (place + 1)).map charOf).head? := by
      rw [List.head?_map, List.head?_drop]
    rw [dif_pos inside, List.getElem?_eq_getElem inside, Outcome.check_some, Outcome.reached_bind,
      inductionHypothesis _ (by omega) _ (place + 1) rfl, shape, next]
    rfl
  · rw [dif_neg inside, List.drop_eq_nil_of_le (by omega)]
    rfl

/-- The markup behind a character that is no mark of it. -/
def other (markup : Markup) : Markup :=
  if markup.quote = none ∧ markup.inTag then { markup with afterEquals := false } else markup

theorem quote_other (markup : Markup) : (other markup).quote = markup.quote := by
  unfold other
  split
  · rfl
  · rfl

theorem other_other (markup : Markup) : other (other markup) = other markup := by
  unfold other
  split
  · rfl
  · rfl

theorem step_long {markup : Markup} (state : QuoteState markup.quote) {c : Char}
    (long : 128 ≤ c.toNat) (next : Option Char) : markup.step c next = other markup := by
  have unlike : ∀ mark : Char, mark.toNat < 128 → c ≠ mark := by
    rintro mark ascii rfl
    omega
  obtain ⟨inTag, quote, afterEquals⟩ := markup
  cases quote with
  | some quote =>
      have apart : c ≠ quote := by
        rcases state quote rfl with rfl | rfl
        · exact unlike _ (by decide)
        · exact unlike _ (by decide)
      simp [Markup.step, other, apart]
  | none =>
      cases inTag with
      | false => simp [Markup.step, other, unlike '<' (by decide)]
      | true =>
          have gap : Markup.isGap c = false := by
            simp [Markup.isGap, unlike ' ' (by decide), unlike '\t' (by decide),
              unlike '\n' (by decide), unlike '\x0c' (by decide), unlike '\r' (by decide)]
          simp [Markup.step, other, gap, unlike '>' (by decide), unlike '"' (by decide),
            unlike '\'' (by decide), unlike '=' (by decide)]

theorem quoteState_step {markup : Markup} (state : QuoteState markup.quote) (c : Char)
    (next : Option Char) : QuoteState (markup.step c next).quote := by
  unfold Markup.step
  split
  · split
    · exact quoteState_none
    · exact state
  · split
    · split
      · exact state
      · split
        · next opens =>
            intro quote same
            cases same
            exact opens.1
        · split
          · exact state
          · split
            · exact state
            · exact state
    · split
      · exact state
      · exact state

theorem step_congr (markup : Markup) (c : Char) {next later : Option Char}
    (same : Markup.opensTag next = Markup.opensTag later) :
    markup.step c next = markup.step c later := by
  rw [Markup.step, Markup.step, same]

theorem opensTag_long {c : Char} (long : 128 ≤ c.toNat) : Markup.opensTag (some c) = false := by
  have slash : c ≠ '/' := by
    rintro rfl
    revert long
    decide
  have size : c.val.toNat = c.toNat := rfl
  have upper : c.isUpper = false := by
    simp only [Char.isUpper, UInt32.le_iff_toNat_le, ge_iff_le]
    simp
    omega
  have lower : c.isLower = false := by
    simp only [Char.isLower, UInt32.le_iff_toNat_le, ge_iff_le]
    simp
    omega
  simp [Markup.opensTag, Char.isAlpha, upper, lower, slash]

/-- Whether an element's tag is opened shows in the first byte of what follows. -/
theorem opensTag_bytes (text : Text) :
    Markup.opensTag (text.bytes.map charOf).head? = Markup.opensTag text.head? := by
  cases text with
  | nil => rfl
  | cons c text =>
      by_cases long : 128 ≤ c.toNat
      · obtain ⟨first, more, shape, _⟩ := Text.exists_utf8EncodeChar c
        have large : 128 ≤ (charOf first).toNat := by
          rw [toNat_charOf]
          exact Text.le_of_mem_utf8EncodeChar long (by rw [shape]; exact List.mem_cons_self)
        rw [Text.bytes_cons, shape, List.cons_append, List.map_cons, List.head?_cons,
          List.head?_cons, opensTag_long large, opensTag_long long]
      · rw [Text.bytes_ascii_cons (by omega), List.map_cons, charOf_toUInt8 (by omega)]
        rfl

theorem advance_long {markup : Markup} (state : QuoteState markup.quote) {bytes : List UInt8}
    (nonempty : bytes ≠ []) (long : ∀ byte ∈ bytes, 128 ≤ byte.toNat) (rest : Text) :
    markup.advance (bytes.map charOf ++ rest) = (other markup).advance rest := by
  induction bytes generalizing markup with
  | nil => exact absurd rfl nonempty
  | cons byte bytes inductionHypothesis =>
      have large : 128 ≤ (charOf byte).toNat := by
        rw [toNat_charOf]
        exact long byte List.mem_cons_self
      rw [List.map_cons, List.cons_append, Markup.advance, step_long state large]
      cases bytes with
      | nil => rfl
      | cons next bytes =>
          have state' : QuoteState (other markup).quote := by
            rw [quote_other]
            exact state
          rw [inductionHypothesis state' (List.cons_ne_nil _ _)
            (fun byte member => long byte (List.mem_cons_of_mem _ member)), other_other]

/-- Following markup byte by byte is following it character by character. -/
theorem advance_bytes {markup : Markup} (state : QuoteState markup.quote) (text : Text) :
    markup.advance (text.bytes.map charOf) = markup.advance text := by
  induction text generalizing markup with
  | nil => rfl
  | cons c text inductionHypothesis =>
      by_cases long : 128 ≤ c.toNat
      · have nonempty : String.utf8EncodeChar c ≠ [] := by
          obtain ⟨first, more, shape, _⟩ := Text.exists_utf8EncodeChar c
          rw [shape]
          exact List.cons_ne_nil _ _
        have state' : QuoteState (other markup).quote := by
          rw [quote_other]
          exact state
        rw [Text.bytes_cons, List.map_append,
          advance_long state nonempty (fun _ => Text.le_of_mem_utf8EncodeChar long),
          inductionHypothesis state', Markup.advance, step_long state long]
      · rw [Text.bytes_ascii_cons (by omega), List.map_cons, charOf_toUInt8 (by omega),
          Markup.advance, Markup.advance, step_congr markup c (opensTag_bytes text),
          inductionHypothesis (quoteState_step state c _)]

theorem quoteState_advance {markup : Markup} (state : QuoteState markup.quote) (text : Text) :
    QuoteState (markup.advance text).quote := by
  induction text generalizing markup with
  | nil => exact state
  | cons c text inductionHypothesis => exact inductionHypothesis (quoteState_step state c _)

/-- A tag leaves an open quote open. -/
theorem quote_of_ofLexeme {index : LineIndex} {markup markup' : Markup} {start : Nat}
    {lexeme : Lexeme} {item : Item}
    (made : Item.ofLexeme index markup start lexeme = .ok (item, markup')) :
    markup'.quote = markup.quote := by
  have tag : markup.afterTag.quote = markup.quote := by
    unfold Markup.afterTag
    split
    · rfl
    · rfl
  cases Item.ofLexeme_eq_ok_iff.mp made with
  | comment => rfl
  | triple read => exact tag
  | opening form read => rfl
  | closing opener closer form => rfl
  | otherwise opener closer form => rfl
  | chain form read => rfl
  | mustache form read => exact tag

end ByOffsets

end TemplateSelectors
