import TemplateSelectors.Proofs.TokenPatches

/-!
# Patches beside identifiers

What continues a token and what an identifier is made of are two classes of characters, one told by
what it holds and one by what it leaves out.  A question mark, control characters and the symbols
beyond ASCII belong to identifiers and yet continue no token.  A free occurrence of a selector is a
whole identifier exactly if it stands beside none of these.
-/

set_option autoImplicit false

namespace TemplateSelectors

open TagBody (isIdChar)

namespace Patch

/-- A character of identifiers at which a token ends. -/
def Overlooked (c : Char) : Prop :=
  (c.toNat < 0x20 ∨ c = '?' ∨ 0x7F ≤ c.toNat) ∧
    Text.isSpace c = false ∧ Text.isAlphanumeric c = false

instance (c : Char) : Decidable (Overlooked c) :=
  inferInstanceAs (Decidable ((_ ∨ _ ∨ _) ∧ _ ∧ _))

theorem isTokenChar_of_printable {c : Char} (low : 0x20 ≤ c.toNat) (high : c.toNat < 0x7F)
    (idChar : isIdChar c = true) : c = '?' ∨ isTokenChar c = true := by
  -- few enough to be tried one by one
  have table : ∀ n ∈ List.range 0x7F, 0x20 ≤ n → isIdChar (Char.ofNat n) = true →
      Char.ofNat n = '?' ∨ isTokenChar (Char.ofNat n) = true := by
    decide +kernel
  have checked := table c.toNat (List.mem_range.mpr high) low
  rw [Char.ofNat_toNat] at checked
  exact checked idChar

theorem isIdChar_iff_overlooked {c : Char} (outside : isTokenChar c = false) :
    isIdChar c = true ↔ Overlooked c := by
  constructor
  · intro idChar
    have blank : Text.isSpace c = false := by
      simp only [isIdChar, Bool.and_eq_true, Bool.not_eq_true'] at idChar
      exact idChar.1
    have letter : Text.isAlphanumeric c = false := by
      simp only [isTokenChar, Bool.or_eq_false_iff] at outside
      exact outside.1
    refine ⟨?_, blank, letter⟩
    by_cases low : c.toNat < 0x20
    · exact .inl low
    · by_cases high : c.toNat < 0x7F
      · rcases isTokenChar_of_printable (by omega) high idChar with question | inside
        · exact .inr (.inl question)
        · rw [inside] at outside
          cases outside
      · exact .inr (.inr (by omega))
  · intro overlooked
    obtain ⟨place, blank, _⟩ := overlooked
    have printable : (TagBody.reserved.all fun d =>
        decide (¬(d.toNat < 0x20 ∨ d = '?' ∨ 0x7F ≤ d.toNat))) = true := by
      decide +kernel
    have free : c ∉ TagBody.reserved := by
      intro member
      exact of_decide_eq_true (List.all_eq_true.mp printable c member) place
    simp [isIdChar, blank, free]

theorem takeWhile_eq_nil_iff {text : Text} :
    text.takeWhile isIdChar = [] ↔ ∀ c, text.head? = some c → isIdChar c = false := by
  cases text with
  | nil => simp
  | cons c text => simp [List.takeWhile_cons]

/-- What is read around a name is the name, if no identifier goes on beside it. -/
theorem identifier_around_eq_iff {front needle behind : Text}
    (named : ∀ c ∈ needle, isIdChar c = true) :
    (front.takeWhile isIdChar).reverse ++ (needle ++ behind).takeWhile isIdChar = needle ↔
      ∀ c, front.head? = some c ∨ behind.head? = some c → isIdChar c = false := by
  have beside : (∀ c, front.head? = some c ∨ behind.head? = some c → isIdChar c = false) ↔
      front.takeWhile isIdChar = [] ∧ behind.takeWhile isIdChar = [] := by
    rw [takeWhile_eq_nil_iff, takeWhile_eq_nil_iff, ← forall_and]
    exact forall_congr' fun c => or_imp
  rw [beside, List.takeWhile_append_of_pos named]
  constructor
  · intro same
    have lengths := congrArg List.length same
    simp only [List.length_append, List.length_reverse] at lengths
    constructor
    · exact List.eq_nil_of_length_eq_zero (by omega)
    · exact List.eq_nil_of_length_eq_zero (by omega)
  · intro empty
    rw [empty.1, empty.2, List.reverse_nil, List.nil_append, List.append_nil]

end Patch

open Patch

/-- A free occurrence of a name stands beside a character of identifiers exactly if that is
overlooked; if there is none, the name is all of the identifier that is read there, and else `=true`
is put inside of a longer one. -/
theorem splitFree_beside_identifiers {needle text front behind : Text}
    (named : ∀ c ∈ needle, isIdChar c = true)
    (found : splitFree needle text = some (front, behind)) :
    text = front.reverse ++ (needle ++ behind) ∧
      (∀ c, front.head? = some c ∨ behind.head? = some c →
        (isIdChar c = true ↔ Overlooked c)) ∧
      ((front.takeWhile isIdChar).reverse ++ (needle ++ behind).takeWhile isIdChar = needle ↔
        ∀ c, front.head? = some c ∨ behind.head? = some c → ¬Overlooked c) := by
  obtain ⟨_, whole, left, right⟩ := loose_of_splitFree found
  have neighbour : ∀ c, front.head? = some c ∨ behind.head? = some c →
      (isIdChar c = true ↔ Overlooked c) := by
    intro c beside
    apply isIdChar_iff_overlooked
    rcases beside with last | head
    · exact left c (by rw [List.getLast?_reverse, last])
    · exact right c head
  refine ⟨whole, neighbour, ?_⟩
  rw [identifier_around_eq_iff named]
  refine forall_congr' fun c => forall_congr' fun beside => ?_
  rw [← neighbour c beside, Bool.not_eq_true]

def shortName : Text :=
  "data-test-x".toList

def longerName : Text :=
  "data-test-x-y (data-test-x)".toList

theorem splitFree_beside_identifiers_longerName :
    ∃ front behind, splitFree shortName longerName = some (front, behind) ∧
      longerName = front.reverse ++ (shortName ++ behind) ∧
      (front.takeWhile isIdChar).reverse ++ (shortName ++ behind).takeWhile isIdChar =
        shortName := by
  have found : splitFree shortName longerName =
      some ("data-test-x-y (".toList.reverse, ")".toList) := by
    decide +kernel
  have named : ∀ c ∈ shortName, isIdChar c = true :=
    List.all_eq_true.mp (by decide +kernel)
  obtain ⟨whole, _, single⟩ := splitFree_beside_identifiers named found
  refine ⟨_, _, found, whole, single.mpr ?_⟩
  intro c beside
  rcases beside with before | after
  · cases before
    decide +kernel
  · cases after
    decide +kernel

/-- A name that goes on with a question mark. -/
def questionedName : Text :=
  "data-test-x?".toList

theorem splitFree_questionedName :
    applyReplacements questionedName [⟨shortName, default⟩] = "data-test-x=true?".toList ∧
      ¬∀ needle text front behind : Text, (∀ c ∈ needle, isIdChar c = true) →
        splitFree needle text = some (front, behind) →
        ∀ c, front.head? = some c ∨ behind.head? = some c → isIdChar c = false := by
  refine ⟨by decide +kernel, ?_⟩
  intro parted
  have outside := parted shortName questionedName [] ['?']
    (List.all_eq_true.mp (by decide +kernel)) (by decide +kernel) '?' (.inr rfl)
  cases outside

end TemplateSelectors
