import TemplateSelectors.Proofs.OffsetMarkup

/-!
# Markup in pieces

Markup is followed from one tag to the next, so a source is taken in pieces.  However it is cut,
an open quote is that of an attribute value, and an equals sign counts only between the attributes
of an element.  Where it is cut does not matter, except behind a `<` outside of an element's tag:
whether it opens one is told by the character that follows in the same piece.
-/

set_option autoImplicit false

namespace TemplateSelectors

namespace Markup

/-! ## States that can be reached -/

/-- A quote is open only in a tag and not right behind an equals sign, which itself counts only in
a tag. -/
structure Coherent (state : Markup) : Prop where
  quote : state.quote ≠ none → state.inTag = true ∧ state.afterEquals = false
  equals : state.afterEquals = true → state.inTag = true

theorem coherent_unquoted (afterEquals : Bool) : Coherent ⟨true, none, afterEquals⟩ where
  quote opened := absurd rfl opened
  equals _ := rfl

theorem coherent_quoted (quote : Char) : Coherent ⟨true, some quote, false⟩ where
  quote _ := ⟨rfl, rfl⟩
  equals behind := nomatch behind

theorem coherent_initial : initial.Coherent where
  quote opened := absurd rfl opened
  equals behind := nomatch behind

theorem Coherent.eq_initial {state : Markup} (coherent : state.Coherent)
    (outside : state.inTag = false) : state = initial := by
  obtain ⟨inTag, quote, afterEquals⟩ := state
  obtain ⟨opened, behind⟩ := coherent
  simp only at opened behind outside
  subst outside
  cases quote with
  | some quote => cases (opened (by simp)).1
  | none =>
      cases afterEquals with
      | true => cases behind rfl
      | false => rfl

theorem Coherent.step {state : Markup} (coherent : state.Coherent) (c : Char)
    (next : Option Char) : (state.step c next).Coherent := by
  obtain ⟨inTag, quote, afterEquals⟩ := state
  cases inTag with
  | false =>
      rw [coherent.eq_initial rfl]
      unfold Markup.step
      simp only [initial, Bool.false_eq_true, if_false]
      split
      · exact coherent_unquoted false
      · exact coherent_initial
  | true =>
      cases quote with
      | some quote =>
          obtain ⟨-, rfl⟩ := coherent.quote (by simp)
          unfold Markup.step
          simp only
          split
          · exact coherent_unquoted false
          · exact coherent_quoted quote
      | none =>
          unfold Markup.step
          simp only [if_true]
          split
          · exact coherent_initial
          · split
            · exact coherent_quoted c
            · split
              · exact coherent_unquoted true
              · split
                · exact coherent_unquoted afterEquals
                · exact coherent_unquoted false

theorem Coherent.advance {state : Markup} (coherent : state.Coherent) (text : Text) :
    (state.advance text).Coherent := by
  induction text generalizing state with
  | nil => exact coherent
  | cons c rest inductionHypothesis => exact inductionHypothesis (coherent.step c rest.head?)

theorem Coherent.afterTag {state : Markup} (coherent : state.Coherent) :
    state.afterTag.Coherent := by
  unfold Markup.afterTag
  split
  · next unquoted =>
      refine ⟨fun opened => absurd (by simpa using unquoted) opened, fun behind => nomatch behind⟩
  · exact coherent

/-- The states that are reached from the start, behind any texts, any bytes and any tags. -/
inductive Reachable : Markup → Prop where
  | initial : Reachable initial
  | text {state : Markup} (reached : Reachable state) (chars : Text) :
      Reachable (state.advance chars)
  | bytes {state state' : Markup} (reached : Reachable state) {bytes : List UInt8}
      (read : ByOffsets.advanceFrom bytes state 0 = .reached state') : Reachable state'
  | tag {state : Markup} (reached : Reachable state) : Reachable state.afterTag

theorem advanceFrom_start (bytes : List UInt8) (state : Markup) :
    ByOffsets.advanceFrom bytes state 0 =
      .reached (state.advance (bytes.map ByOffsets.charOf)) := by
  rw [ByOffsets.advanceFrom_eq, List.drop_zero]

theorem Reachable.coherent {state : Markup} (reached : Reachable state) : state.Coherent := by
  induction reached with
  | initial => exact coherent_initial
  | text _ chars inductionHypothesis => exact inductionHypothesis.advance chars
  | bytes _ read inductionHypothesis =>
      rw [advanceFrom_start] at read
      cases read
      exact inductionHypothesis.advance _
  | tag _ inductionHypothesis => exact inductionHypothesis.afterTag

/-! ## Cuts -/

def opened : Markup :=
  ⟨true, none, false⟩

/-- The state behind `front` once it is known what comes next: a `<` at the end of `front` may
open a tag after all. -/
def resume (state : Markup) (front : Text) (next : Option Char) : Markup :=
  if front.getLast? = some '<' ∧ state.inTag = false ∧ opensTag next = true then opened else state

theorem step_inTag {state : Markup} (inside : state.inTag = true) (c : Char)
    (next : Option Char) :
    state.step c next = state.step c none ∧ (c = '<' → (state.step c none).inTag = true) := by
  obtain ⟨inTag, quote, afterEquals⟩ := state
  simp only at inside
  subst inside
  refine ⟨rfl, ?_⟩
  rintro rfl
  cases quote with
  | some quote =>
      simp only [Markup.step]
      split <;> rfl
  | none => rfl

theorem Coherent.step_resume {state : Markup} (coherent : state.Coherent) (c : Char)
    (next : Option Char) : state.step c next = (state.step c none).resume [c] next := by
  cases inside : state.inTag with
  | true =>
      obtain ⟨same, stays⟩ := step_inTag inside c next
      rw [same, resume, if_neg]
      rintro ⟨last, outside, _⟩
      rw [stays (by simpa using last)] at outside
      cases outside
  | false =>
      rw [coherent.eq_initial inside]
      have unopened : initial.step c none = initial := by
        simp [Markup.step, initial, opensTag]
      rw [unopened]
      by_cases opens : c = '<' ∧ opensTag next = true
      · simp [Markup.step, resume, initial, opened, opens]
      · have closed : ¬([c].getLast? = some '<' ∧ initial.inTag = false ∧ opensTag next = true) := by
          simpa [initial] using opens
        rw [resume, if_neg closed]
        simp [Markup.step, initial, opens]

theorem Coherent.advance_append {state : Markup} (coherent : state.Coherent) (front back : Text) :
    state.advance (front ++ back) =
      ((state.advance front).resume front back.head?).advance back := by
  induction front generalizing state with
  | nil => rfl
  | cons c front inductionHypothesis =>
      cases front with
      | nil =>
          rw [List.singleton_append, Markup.advance, coherent.step_resume]
          rfl
      | cons d front =>
          have last : (c :: d :: front).getLast? = (d :: front).getLast? := rfl
          rw [List.cons_append, Markup.advance, List.cons_append, List.head?_cons,
            ← List.cons_append, inductionHypothesis (coherent.step c (some d))]
          simp only [resume, last]
          rfl

/-- Where a piece is cut does not matter, unless it ends in `<` outside of a tag. -/
theorem Coherent.advance_pieces {state : Markup} (coherent : state.Coherent) {front : Text}
    (back : Text) (told : ¬(front.getLast? = some '<' ∧ (state.advance front).inTag = false)) :
    state.advance (front ++ back) = (state.advance front).advance back := by
  rw [coherent.advance_append, resume, if_neg]
  rintro ⟨last, outside, _⟩
  exact told ⟨last, outside⟩

/-- Behind a `<` outside of a tag, the first character of what follows decides. -/
theorem Coherent.advance_open {state : Markup} (coherent : state.Coherent) {front : Text}
    (back : Text) (last : front.getLast? = some '<')
    (outside : (state.advance front).inTag = false) :
    state.advance front = initial ∧ state.advance (front ++ back) =
      (if opensTag back.head? then opened else initial).advance back := by
  have start := (coherent.advance front).eq_initial outside
  refine ⟨start, ?_⟩
  rw [coherent.advance_append, start, resume]
  simp only [last, initial, true_and]

theorem getLast?_charOf (bytes : List UInt8) :
    (bytes.map ByOffsets.charOf).getLast? = some '<' ↔ bytes.getLast? = some '<'.toUInt8 := by
  rw [List.getLast?_map, Option.map_eq_some_iff]
  constructor
  · rintro ⟨byte, last, same⟩
    have number := congrArg Char.toNat same
    rw [ByOffsets.toNat_charOf] at number
    have mark : byte = '<'.toUInt8 := UInt8.toNat_inj.mp number
    rw [last, mark]
  · intro last
    exact ⟨_, last, ByOffsets.charOf_toUInt8 (by decide)⟩

/-- In every state that can be reached, a quote is open only in a tag and not right behind an
equals sign, which itself counts only in a tag.  Where a text or a sequence of bytes is cut does
not matter, unless the cut falls behind a `<` outside of a tag; there it depends on the next
character whether a tag is open. -/
theorem coherent_in_pieces {state : Markup} (reached : Reachable state) :
    (state.quote ≠ none → state.inTag = true ∧ state.afterEquals = false) ∧
    (state.afterEquals = true → state.inTag = true) ∧
    (∀ front back : Text,
      ¬(front.getLast? = some '<' ∧ (state.advance front).inTag = false) →
      state.advance (front ++ back) = (state.advance front).advance back) ∧
    (∀ front back : Text, front.getLast? = some '<' → (state.advance front).inTag = false →
      state.advance front = initial ∧ state.advance (front ++ back) =
        (if opensTag back.head? then opened else initial).advance back) ∧
    ∀ front back : List UInt8, ∃ middle, ByOffsets.advanceFrom front state 0 = .reached middle ∧
      (¬(front.getLast? = some '<'.toUInt8 ∧ middle.inTag = false) →
        ByOffsets.advanceFrom (front ++ back) state 0 = ByOffsets.advanceFrom back middle 0) := by
  have coherent := reached.coherent
  refine ⟨coherent.quote, coherent.equals, fun front back => coherent.advance_pieces back,
    fun front back => coherent.advance_open back, ?_⟩
  intro front back
  refine ⟨_, advanceFrom_start front state, ?_⟩
  intro told
  rw [← getLast?_charOf] at told
  rw [advanceFrom_start, advanceFrom_start, List.map_append, coherent.advance_pieces _ told]

def quotedValue : Markup :=
  initial.advance "<p a=\"".toList

/-- The value is cut inside a character of two bytes, and what follows it inside a tag and behind
a `<`. -/
theorem coherent_in_pieces_quotedValue :
    Reachable quotedValue ∧ quotedValue.quote = some '"' ∧ quotedValue.inTag = true ∧
      quotedValue.afterEquals = false ∧
      quotedValue.advance ("b\"><i".toList ++ " c=".toList) =
        (quotedValue.advance "b\"><i".toList).advance " c=".toList ∧
      quotedValue.advance ("b\"><".toList ++ "i c=".toList) = opened.advance "i c=".toList ∧
      ∃ middle, ByOffsets.advanceFrom [0xC3] quotedValue 0 = .reached middle ∧
        ByOffsets.advanceFrom ([0xC3] ++ [0xA9, 0x22]) quotedValue 0 =
          ByOffsets.advanceFrom [0xA9, 0x22] middle 0 := by
  have reached : Reachable quotedValue := .text .initial _
  have quoted : quotedValue.quote = some '"' := by decide
  obtain ⟨value, -, pieces, behind, bytes⟩ := coherent_in_pieces reached
  obtain ⟨inside, unequal⟩ := value (by rw [quoted]; exact Option.some_ne_none _)
  obtain ⟨middle, read, again⟩ := bytes [0xC3] [0xA9, 0x22]
  exact ⟨reached, quoted, inside, unequal, pieces _ _ (by decide),
    (behind _ "i c=".toList (by decide) (by decide)).2, middle, read,
    again fun both => absurd both.1 (by decide)⟩

end Markup

end TemplateSelectors
