import TemplateSelectors.Proofs.ByteSearch
import TemplateSelectors.Proofs.CheckedCuts
import TemplateSelectors.Proofs.ExactPlaces

/-!
# Places by offsets

A source can be read by byte offsets alone: bytes are looked up, texts are cut out, offsets are
subtracted, and each of these steps is possible only inside the source.  Here every step is
checked, and one that is not possible leads astray.  Positions are found so without going astray,
through a search among the offsets at which lines start.
-/

set_option autoImplicit false

namespace TemplateSelectors

/-- How reading by offsets ends. -/
inductive Outcome (α : Type) where
  /-- A step was not possible. -/
  | astray
  | refused (error : ParseError)
  | reached (value : α)

namespace Outcome

variable {α β : Type}

instance : Monad Outcome where
  pure := reached
  bind outcome next :=
    match outcome with
    | astray => astray
    | refused error => refused error
    | reached value => next value

/-- A step that is possible if its check gives a value. -/
def check : Option α → Outcome α
  | none => astray
  | some value => reached value

def ofExcept : Except ParseError α → Outcome α
  | .error error => refused error
  | .ok value => reached value

@[simp]
theorem pure_eq (value : α) : (pure value : Outcome α) = reached value := rfl

@[simp]
theorem reached_bind (value : α) (next : α → Outcome β) : reached value >>= next = next value := rfl

@[simp]
theorem check_some (value : α) : check (some value) = reached value := rfl

@[simp]
theorem ofExcept_map (f : α → β) (result : Except ParseError α) :
    ofExcept (result.map f) = ofExcept result >>= fun value => reached (f value) := by
  cases result with
  | error error => rfl
  | ok value => rfl

end Outcome

namespace ByOffsets

open Outcome (check)

/-! ## Single steps -/

def minus (whole part : Nat) : Outcome Nat :=
  check (minus? whole part)

def byteAt (source : Text) (offset : Nat) : Outcome UInt8 :=
  check source.bytes[offset]?

def bytesFrom (source : Text) (offset : Nat) : Outcome (List UInt8) :=
  check (between? offset source.bytes.length source.bytes)

def cut (source : Text) (start stop : Nat) : Outcome Text :=
  check (source.slice? start stop)

def cutFrom (source : Text) (start : Nat) : Outcome Text :=
  cut source start source.size

def spanBetween (start stop : Nat) : Outcome Span :=
  check (Span.ordered? start stop)

theorem minus_of_le {whole part : Nat} (fits : part ≤ whole) :
    minus whole part = .reached (whole - part) := by
  rw [minus, minus?_of_le fits, Outcome.check_some]

theorem spanBetween_of_le {start stop : Nat} (ordered : start ≤ stop) :
    spanBetween start stop = .reached ⟨start, stop⟩ := by
  rw [spanBetween, Span.ordered?, if_pos ordered, Outcome.check_some]

section

variable {source front middle rest : Text}

theorem bytesFrom_append (whole : source = front ++ rest) :
    bytesFrom source front.size = .reached rest.bytes := by
  have inside : front.size ≤ source.bytes.length := by
    rw [whole, Text.length_bytes, Text.size_append]
    omega
  rw [bytesFrom, between?_of_le inside (Nat.le_refl _), List.take_length, Outcome.check_some, whole,
    Text.bytes_append, ← Text.length_bytes, List.drop_left]

theorem cut_append (whole : source = front ++ (middle ++ rest)) :
    cut source front.size (front.size + middle.size) = .reached middle := by
  rw [cut, whole, Text.slice?_append, Outcome.check_some]

theorem cutFrom_append (whole : source = front ++ rest) :
    cutFrom source front.size = .reached rest := by
  have around : source = front ++ (rest ++ []) := by
    rw [List.append_nil]
    exact whole
  have ends : source.size = front.size + rest.size := by
    rw [whole, Text.size_append]
  rw [cutFrom, ends, cut_append around]

/-- The byte before an offset tells whether an ASCII character stands there. -/
theorem byteAt_last (c : Char) (whole : source = front ++ (c :: rest)) :
    ∃ byte, byteAt source ((front ++ [c]).size - 1) = .reached byte ∧
      ∀ mark : Char, mark.toNat < 128 → (byte = mark.toUInt8 ↔ c = mark) := by
  obtain ⟨first, more, shape, length, tells, plain⟩ := Text.exists_utf8EncodeChar c
  have bytes : source.bytes = front.bytes ++ (first :: more) ++ rest.bytes := by
    rw [whole, Text.bytes_append, Text.bytes_cons, shape, List.append_assoc]
  have place : (front ++ [c]).size - 1 = front.bytes.length + more.length := by
    rw [Text.size_append, Text.size_cons, Text.size_nil, Text.length_bytes]
    omega
  have last : source.bytes[(front ++ [c]).size - 1]? = (first :: more).getLast? := by
    rw [bytes, place, List.append_assoc, List.getElem?_append_right (Nat.le_add_right _ _),
      Nat.add_sub_cancel_left, List.getElem?_append_left (by simp), List.getLast?_eq_getElem?]
    rfl
  cases found : (first :: more).getLast? with
  | none => simp at found
  | some byte =>
      refine ⟨byte, by rw [byteAt, last, found, Outcome.check_some], ?_⟩
      intro mark ascii
      cases more with
      | nil =>
          cases found
          exact tells mark ascii
      | cons next more =>
          rw [List.getLast?_cons_cons] at found
          have other := plain byte (List.mem_of_getLast? found) mark ascii
          constructor
          · intro same
            exact absurd same other
          · intro same
            rw [same, Text.utf8EncodeChar_ascii ascii] at shape
            cases shape

end

/-! ## Positions -/

/-- The offsets at which lines start: the first one, and one behind each line feed. -/
def lineStarts (source : Text) : List Nat :=
  0 :: (source.bytes.zipIdx.filter fun (byte, _) => byte == '\n'.toUInt8).map fun (_, place) =>
    place + 1

/-- The place of a number among numbers in ascending order, or else the place at which it would
be put in. -/
def search (numbers : List Nat) (number : Nat) : Except Nat Nat :=
  let place := (numbers.takeWhile (· < number)).length
  if numbers[place]? = some number then .ok place else .error place

/-- The number of the line of an offset: the line that starts there, or the one before the place
at which the offset would be put in. -/
def lineAt (source : Text) (offset : Nat) : Outcome Nat :=
  match search (lineStarts source) offset with
  | .ok place => .reached place
  | .error place => minus place 1

/-- The position of an offset, of the end for an offset behind it. -/
def positionOf (source : Text) (offset : Nat) : Outcome Position := do
  let offset := min offset source.size
  let line ← lineAt source offset
  let lineStart ← check (lineStarts source)[line]?
  let bytes ← minus offset lineStart
  let column := ((source.slice? lineStart offset).map List.length).getD bytes
  return ⟨line + 1, column + 1⟩

theorem filter_zipIdx_eq_nil {mark : UInt8} {bytes : List UInt8}
    (other : ∀ byte ∈ bytes, byte ≠ mark) (start : Nat) :
    ((bytes.zipIdx start).filter fun (byte, _) => byte == mark) = [] := by
  rw [List.filter_eq_nil_iff]
  intro entry member
  have inside := other entry.1 (List.fst_mem_of_mem_zipIdx member)
  simpa using inside

theorem lineStarts_bytes (text : Text) (start : Nat) :
    ((text.bytes.zipIdx start).filter fun (byte, _) => byte == '\n'.toUInt8).map
        (fun (_, place) => place + 1) =
      (LineIndex.startsFrom start text).map LineStart.offset := by
  induction text generalizing start with
  | nil => rfl
  | cons c text inductionHypothesis =>
      obtain ⟨first, more, shape, length, tells, plain⟩ := Text.exists_utf8EncodeChar c
      have others := filter_zipIdx_eq_nil (fun byte member => plain byte member '\n' (by decide))
        (start + 1)
      have next : start + (first :: more).length = start + c.utf8Size := by
        rw [List.length_cons, length]
      rw [Text.bytes_cons, shape, List.zipIdx_append, List.filter_append, List.map_append, next,
        inductionHypothesis, List.zipIdx_cons, LineIndex.startsFrom]
      by_cases feed : c = '\n'
      · have byte : first = '\n'.toUInt8 := (tells '\n' (by decide)).mpr feed
        have size : c.utf8Size = 1 := by
          rw [feed]
          rfl
        rw [List.filter_cons_of_pos (by simpa using byte), others, if_pos feed, size]
        rfl
      · have byte : first ≠ '\n'.toUInt8 := mt (tells '\n' (by decide)).mp feed
        rw [List.filter_cons_of_neg (by simpa using byte), others, if_neg feed]
        rfl

theorem lineStarts_eq (source : Text) :
    lineStarts source =
      (⟨0, source⟩ :: LineIndex.startsFrom 0 source : List LineStart).map LineStart.offset := by
  rw [lineStarts, lineStarts_bytes, List.map_cons]

/-- Lines start behind one another, each between two characters. -/
theorem startsFrom_ascending {source front text : Text} (whole : source = front ++ text) :
    (LineIndex.startsFrom front.size text).Pairwise
        (fun first second => first.offset < second.offset) ∧
      ∀ line ∈ LineIndex.startsFrom front.size text, front.size < line.offset ∧
        source.dropBytes? line.offset = some line.text := by
  induction text generalizing front with
  | nil => exact ⟨.nil, by simp [LineIndex.startsFrom]⟩
  | cons c text inductionHypothesis =>
      have positive : 0 < c.utf8Size := Char.utf8Size_pos c
      have split : source = (front ++ [c]) ++ text := by
        rw [whole]
        simp
      have next : front.size + c.utf8Size = (front ++ [c]).size := by
        simp [Text.size_append]
      obtain ⟨ascending, lines⟩ := inductionHypothesis split
      rw [LineIndex.startsFrom, next]
      split_ifs
      · refine ⟨.cons (fun line member => (lines line member).1) ascending, ?_⟩
        intro line member
        rcases List.mem_cons.mp member with rfl | later
        · refine ⟨by simp only; omega, ?_⟩
          rw [split]
          exact Text.dropBytes?_append _ _
        · obtain ⟨behind, dropped⟩ := lines line later
          exact ⟨by omega, dropped⟩
      · refine ⟨ascending, ?_⟩
        intro line member
        obtain ⟨behind, dropped⟩ := lines line member
        exact ⟨by omega, dropped⟩

theorem search_cons {first number : Nat} (before : first < number) (numbers : List Nat) :
    search (first :: numbers) number =
      match search numbers number with
      | .ok place => .ok (place + 1)
      | .error place => .error (place + 1) := by
  simp only [search, List.takeWhile_cons, before, decide_true, if_true, List.length_cons,
    List.getElem?_cons_succ]
  split
  · rfl
  · rfl

/-- The search among the line starts finds the line of an offset, or the place behind it. -/
theorem search_of_lineFrom {offset : Nat} (number : Nat) (here : LineStart) (later : List LineStart)
    (started : here.offset ≤ offset)
    (ascending : (here :: later).Pairwise fun first second => first.offset < second.offset) :
    ∃ place line, LineIndex.lineFrom offset number here later = (number + place, line) ∧
      (here :: later)[place]? = some line ∧ line.offset ≤ offset ∧
      (search ((here :: later).map LineStart.offset) offset = .ok place ∨
        search ((here :: later).map LineStart.offset) offset = .error (place + 1)) := by
  induction later generalizing number here with
  | nil =>
      refine ⟨0, here, rfl, rfl, started, ?_⟩
      rcases Nat.lt_or_eq_of_le started with before | same
      · exact .inr (by simp [search, before])
      · exact .inl (by simp [search, same])
  | cons next later inductionHypothesis =>
      have first := List.rel_of_pairwise_cons ascending List.mem_cons_self
      by_cases reached : next.offset ≤ offset
      · obtain ⟨place, line, found, member, bound, searched⟩ :=
          inductionHypothesis (number + 1) next reached (List.Pairwise.of_cons ascending)
        refine ⟨place + 1, line, ?_, member, bound, ?_⟩
        · rw [LineIndex.lineFrom, if_pos reached, found]
          congr 1
          omega
        · rw [List.map_cons, search_cons (by omega)]
          rcases searched with here | behind
          · exact .inl (by rw [here])
          · exact .inr (by rw [behind])
      · refine ⟨0, here, by rw [LineIndex.lineFrom, if_neg reached]; rfl, rfl, started, ?_⟩
        rcases Nat.lt_or_eq_of_le started with before | same
        · have other : next.offset ≠ offset := by omega
          have behind : ¬next.offset < offset := by omega
          exact .inr (by simp [search, before, behind, other])
        · exact .inl (by simp [search, same])

theorem positionOf_eq (source : Text) (offset : Nat) :
    positionOf source offset = .reached ((LineIndex.ofText source).position offset) := by
  obtain ⟨ascending, lines⟩ := startsFrom_ascending (List.nil_append source).symm
  rw [Text.size_nil] at ascending lines
  have first : ∀ line ∈ LineIndex.startsFrom 0 source, 0 < line.offset :=
    fun line member => (lines line member).1
  obtain ⟨place, line, found, member, bound, searched⟩ := search_of_lineFrom 1 ⟨0, source⟩
    (LineIndex.startsFrom 0 source) (Nat.zero_le (min offset source.size)) (.cons first ascending)
  have dropped : source.dropBytes? line.offset = some line.text := by
    rcases List.mem_cons.mp (List.mem_of_getElem? member) with rfl | later
    · rw [Text.dropBytes?]
    · exact (lines line later).2
  have number : lineAt source (min offset source.size) = .reached place := by
    rw [lineAt, lineStarts_eq]
    rcases searched with here | behind
    · rw [here]
    · rw [behind]
      exact minus_of_le (Nat.le_add_left _ _)
  have start : (lineStarts source)[place]? = some line.offset := by
    rw [lineStarts_eq, List.getElem?_map, member]
    rfl
  have column : ((source.slice? line.offset (min offset source.size)).map List.length).getD
        (min offset source.size - line.offset) =
      (Text.charsWithin? 0 (min offset source.size - line.offset) line.text).getD
        (min offset source.size - line.offset) := by
    rw [Text.slice?, if_pos bound, dropped, Option.bind_some, Text.charsWithin?_eq]
    simp
  simp only [positionOf, number, start, Outcome.reached_bind, Outcome.check_some,
    minus_of_le bound, column, Outcome.pure_eq]
  simp only [LineIndex.position, LineIndex.ofText, found]
  congr 2
  omega

/-- Where a span of the source stands. -/
def locationOf (source : Text) (span : Span) : Outcome SourceSpan := do
  let start ← positionOf source span.start
  let stop ← positionOf source span.stop
  return ⟨start, stop⟩

theorem locationOf_eq (source : Text) (span : Span) :
    locationOf source span = .reached ((LineIndex.ofText source).sourceSpan span) := by
  rw [locationOf, positionOf_eq, Outcome.reached_bind, positionOf_eq, Outcome.reached_bind]
  rfl

/-- Refuses the source for the bytes of `span`. -/
def refuseAt {α : Type} (source : Text) (cause : ParseCause) (span : Span) : Outcome α := do
  let position ← positionOf source span.start
  .refused ⟨cause, span, position⟩

theorem refuseAt_eq {α : Type} (source : Text) (cause : ParseCause) (span : Span) :
    (refuseAt source cause span : Outcome α) =
      .refused ((LineIndex.ofText source).errorAt cause span) := by
  rw [refuseAt, positionOf_eq, Outcome.reached_bind]
  rfl

/-- Refuses the source for the bytes from `start` up to `stop`. -/
def refuse {α : Type} (source : Text) (cause : ParseCause) (start stop : Nat) : Outcome α := do
  let span ← spanBetween start stop
  refuseAt source cause span

theorem refuse_eq {α : Type} (source : Text) (cause : ParseCause) {start stop : Nat}
    (ordered : start ≤ stop) :
    (refuse source cause start stop : Outcome α) =
      .refused ((LineIndex.ofText source).errorAt cause ⟨start, stop⟩) := by
  rw [refuse, spanBetween_of_le ordered, Outcome.reached_bind, refuseAt_eq]

end ByOffsets

end TemplateSelectors
