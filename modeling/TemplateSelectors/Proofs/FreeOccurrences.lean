import TemplateSelectors.Patch
import TemplateSelectors.Proofs.TagEnd
import TemplateSelectors.Proofs.TagReading

/-!
# Free occurrences

A patch goes behind the first free occurrence of a selector.  A selector that is a name or a token
cannot reach over a character that is part of neither, such as a brace or white space, so its
occurrences in a text are those in the pieces between such characters.
-/

set_option autoImplicit false

namespace TemplateSelectors

namespace Patch

open TagBody (Identifier isIdChar)

/-- A free occurrence of `needle` in `text`, behind `before`. -/
def FreeAt (needle text before : Text) : Prop :=
  ∃ behind, text = before ++ (needle ++ behind) ∧
    isFree before.getLast? behind.head? = true

theorem isFree_eq_true_iff {before after : Option Char} :
    isFree before after = true ↔
      (∀ c, before = some c → isTokenChar c = false) ∧
        ∀ c, after = some c → isTokenChar c = false := by
  cases before <;> cases after <;> simp [isFree]

/-! ## Walls and needles -/

/-- A character that neither names nor tokens reach over. -/
def isWall (c : Char) : Bool :=
  !isIdChar c && !isTokenChar c

theorem isTokenChar_of_isWall {c : Char} (wall : isWall c = true) : isTokenChar c = false := by
  simp only [isWall, Bool.and_eq_true, Bool.not_eq_true'] at wall
  exact wall.2

theorem isWall_of_isLayout {c : Char} (layout : TagBody.isLayout c = true) : isWall c = true := by
  simp only [TagBody.isLayout, Bool.or_eq_true, beq_iff_eq] at layout
  rcases layout with ((rfl | rfl) | rfl) | rfl
  all_goals decide +kernel

/-- A text that a patch can be meant for: it holds no wall, and no equals sign as patches do. -/
structure Needle (text : Text) : Prop where
  nonempty : text ≠ []
  inside : ∀ c ∈ text, isWall c = false
  unset : '=' ∉ text

theorem Needle.of_identifier {text : Text} (name : Identifier text) : Needle text where
  nonempty := name.2
  inside c member := by simp [isWall, name.1 c member]
  unset member := by
    have idChar := name.1 _ member
    cases idChar

/-- A whole token that has not been patched. -/
structure Token (text : Text) : Prop where
  nonempty : text ≠ []
  inside : ∀ c ∈ text, isTokenChar c = true
  unset : '=' ∉ text

theorem Token.needle {text : Text} (token : Token text) : Needle text where
  nonempty := token.nonempty
  inside c member := by simp [isWall, token.inside c member]
  unset := token.unset

theorem Needle.not_mem_of_isWall {text : Text} (needle : Needle text) {c : Char}
    (wall : isWall c = true) : c ∉ text := by
  intro member
  rw [needle.inside c member] at wall
  cases wall

/-! ## The first free occurrence -/

theorem length_lt_of_prefix {needle front rest behind : Text}
    (wall : ∀ c, front.getLast? = some c → c ∉ needle) (nonempty : front ≠ [])
    (same : front ++ rest = needle ++ behind) : needle.length < front.length := by
  have outside : front.getLast nonempty ∉ needle :=
    wall _ (List.getLast?_eq_some_getLast nonempty)
  have last := List.getLast_mem nonempty
  rcases List.append_eq_append_iff.mp same with ⟨middle, whole, _⟩ | ⟨middle, whole, _⟩
  · refine absurd ?_ outside
    rw [whole]
    exact List.mem_append_left _ last
  · cases middle with
    | nil =>
        rw [List.append_nil] at whole
        refine absurd ?_ outside
        rw [← whole]
        exact last
    | cons c middle =>
        rw [whole]
        simp only [List.length_append, List.length_cons]
        omega

/-- The search passes over all that is not free and stops at the first occurrence that is. -/
theorem splitFrom_eq {needle before behind front : Text} {skipped : Nat}
    (nonempty : needle ≠ []) (skips : skipped ≤ before.length)
    (wall : ∀ c, before.getLast? = some c → c ∉ needle)
    (free : isFree (front.reverse ++ before).getLast? behind.head? = true)
    (first : ∀ earlier later, before ++ (needle ++ behind) = earlier ++ (needle ++ later) →
      earlier.length < before.length →
      isFree (front.reverse ++ earlier).getLast? later.head? = false) :
    splitFrom needle skipped front (before ++ (needle ++ behind)) =
      some ((front.reverse ++ before).reverse, behind) := by
  induction before generalizing front skipped with
  | nil =>
      obtain ⟨c, more, rfl⟩ := List.exists_cons_of_ne_nil nonempty
      have here := Text.after?_append (c :: more) behind
      have none : skipped = 0 := by simpa using skips
      subst none
      simp only [List.append_nil, List.getLast?_reverse] at free
      simp only [List.cons_append] at here
      simp [splitFrom, here, free]
  | cons c before inductionHypothesis =>
      have onwards : ∀ {skipped : Nat}, skipped ≤ before.length →
          splitFrom needle skipped (c :: front) (before ++ (needle ++ behind)) =
            some ((front.reverse ++ c :: before).reverse, behind) := by
        intro skipped fits
        have shape : (front.reverse ++ c :: before).reverse =
            ((c :: front).reverse ++ before).reverse := by simp
        rw [shape]
        refine inductionHypothesis fits ?_ ?_ ?_
        · intro d last
          refine wall d ?_
          rw [List.getLast?_cons, last]
          rfl
        · simpa using free
        · intro earlier later same shorter
          have absent := first (c :: earlier) later (by simp [same]) (by simpa using shorter)
          simpa using absent
      simp only [List.cons_append, splitFrom]
      split
      · exact onwards (by simp only [List.length_cons] at skips; omega)
      · split
        · exact onwards (Nat.zero_le _)
        · next later here =>
            have same := Text.eq_append_of_after? here
            have taken := first [] later (by simpa using same) (by simp)
            rw [List.append_nil, List.getLast?_reverse] at taken
            have shorter := length_lt_of_prefix wall (by simp) same
            rw [if_neg (by simp [taken])]
            exact onwards (by simp only [List.length_cons] at shorter; omega)

/-- A patch goes behind an occurrence that is free and not preceded by another free one. -/
theorem patchOne_eq {needle before behind : Text} (nonempty : needle ≠ [])
    (wall : ∀ c, before.getLast? = some c → c ∉ needle)
    (free : isFree before.getLast? behind.head? = true)
    (first : ∀ earlier later, before ++ (needle ++ behind) = earlier ++ (needle ++ later) →
      earlier.length < before.length → isFree earlier.getLast? later.head? = false) :
    patchOne (before ++ (needle ++ behind)) needle =
      before ++ (needle ++ (trueSuffix ++ behind)) := by
  have found : splitFrom needle 0 [] (before ++ (needle ++ behind)) = some (_, behind) :=
    splitFrom_eq nonempty (Nat.zero_le _) wall (by simpa using free) (by simpa using first)
  have filled : needle.isEmpty = false := List.isEmpty_eq_false_iff.mpr nonempty
  simp only [List.reverse_nil, List.nil_append] at found
  simp only [patchOne, splitFree, filled, Bool.false_eq_true, if_false, found, rejoin_eq,
    List.reverse_reverse, List.append_assoc]

/-! ## Occurrences in pieces -/

def WallEnd (text : Text) : Prop :=
  ∀ c, text.getLast? = some c → isWall c = true

def WallStart (text : Text) : Prop :=
  ∀ c, text.head? = some c → isWall c = true

theorem wallEnd_nil : WallEnd [] := by
  intro c last
  cases last

theorem wallStart_nil : WallStart [] := by
  intro c head
  cases head

theorem WallStart.append {front back : Text} (left : WallStart front) (right : WallStart back) :
    WallStart (front ++ back) := by
  intro c head
  cases front with
  | nil => exact right c head
  | cons d front => exact left c head

/-- Two texts between which there is a wall. -/
def Apart (front back : Text) : Prop :=
  WallEnd front ∨ WallStart back

theorem FreeAt.of_append {needle front back before : Text} (sought : Needle needle)
    (apart : Apart front back) (free : FreeAt needle (front ++ back) before) :
    FreeAt needle front before ∨
      ∃ before', before = front ++ before' ∧ FreeAt needle back before' := by
  obtain ⟨behind, whole, clear⟩ := free
  obtain ⟨left, right⟩ := isFree_eq_true_iff.mp clear
  rcases List.append_eq_append_iff.mp whole with ⟨middle, rfl, rfl⟩ | ⟨middle, rfl, split⟩
  · refine .inr ⟨middle, rfl, behind, rfl, isFree_eq_true_iff.mpr ⟨?_, right⟩⟩
    intro c last
    exact left c (by rw [List.getLast?_append, last]; rfl)
  · rcases List.append_eq_append_iff.mp split with ⟨piece, rfl, rfl⟩ | ⟨piece, rfl, rfl⟩
    · refine .inl ⟨piece, by simp, isFree_eq_true_iff.mpr ⟨left, ?_⟩⟩
      intro c head
      exact right c (by rw [List.head?_append, head]; rfl)
    · cases piece with
      | nil => exact .inl ⟨[], by simp, isFree_eq_true_iff.mpr ⟨left, by simp⟩⟩
      | cons c piece =>
          rcases List.eq_nil_or_concat middle with rfl | ⟨start, d, rfl⟩
          · exact .inr ⟨[], by simp, behind, rfl, isFree_eq_true_iff.mpr ⟨by simp, right⟩⟩
          · -- the needle would reach over the wall
            rcases apart with ends | starts
            · exact absurd (by simp) (sought.not_mem_of_isWall (ends d (by simp)))
            · exact absurd (by simp) (sought.not_mem_of_isWall (starts c (by simp)))

theorem FreeAt.append_right {needle front before : Text} (sought : Needle needle)
    (free : FreeAt needle front before) {back : Text} (apart : Apart front back) :
    FreeAt needle (front ++ back) before := by
  obtain ⟨behind, rfl, clear⟩ := free
  obtain ⟨left, right⟩ := isFree_eq_true_iff.mp clear
  refine ⟨behind ++ back, by simp, isFree_eq_true_iff.mpr ⟨left, ?_⟩⟩
  intro c head
  cases behind with
  | cons d behind => exact right c head
  | nil =>
      rcases apart with ends | starts
      · have last := List.getLast?_eq_some_getLast sought.nonempty
        have wall := ends (needle.getLast sought.nonempty) (by simp [List.getLast?_append, last])
        exact absurd (List.getLast_mem sought.nonempty) (sought.not_mem_of_isWall wall)
      · exact isTokenChar_of_isWall (starts c head)

theorem FreeAt.append_left {needle back before : Text} (sought : Needle needle)
    (free : FreeAt needle back before) {front : Text} (apart : Apart front back) :
    FreeAt needle (front ++ back) (front ++ before) := by
  obtain ⟨behind, rfl, clear⟩ := free
  obtain ⟨left, right⟩ := isFree_eq_true_iff.mp clear
  refine ⟨behind, by simp, isFree_eq_true_iff.mpr ⟨?_, right⟩⟩
  intro c last
  rcases List.eq_nil_or_concat before with rfl | ⟨start, d, rfl⟩
  · rw [List.append_nil] at last
    rcases apart with ends | starts
    · exact isTokenChar_of_isWall (ends c last)
    · obtain ⟨d, more, rfl⟩ := List.exists_cons_of_ne_nil sought.nonempty
      exact absurd List.mem_cons_self (sought.not_mem_of_isWall (starts d rfl))
  · refine left c ?_
    simpa [List.getLast?_append] using last

/-- In a text that has been patched, a needle occurs free only before its last character: the patch
continues every token that it follows. -/
theorem FreeAt.of_patched {needle word before : Text} (sought : Needle needle)
    (free : FreeAt needle (word ++ trueSuffix) before) :
    ∃ c behind, word = before ++ (needle ++ c :: behind) ∧
      isFree before.getLast? (some c) = true := by
  obtain ⟨behind, whole, clear⟩ := free
  obtain ⟨left, right⟩ := isFree_eq_true_iff.mp clear
  have tokens : ∀ c ∈ trueSuffix, isTokenChar c = true :=
    List.all_eq_true.mp (by decide +kernel)
  rcases List.append_eq_append_iff.mp whole with ⟨middle, rfl, suffix⟩ | ⟨middle, rfl, split⟩
  · rcases List.eq_nil_or_concat middle with rfl | ⟨start, d, rfl⟩
    · obtain ⟨c, more, rfl⟩ := List.exists_cons_of_ne_nil sought.nonempty
      injection suffix with first _
      subst first
      exact absurd List.mem_cons_self sought.unset
    · have token := tokens d (by rw [suffix]; simp)
      rw [left d (by simp [List.getLast?_append])] at token
      cases token
  · rcases List.append_eq_append_iff.mp split with ⟨piece, rfl, rfl⟩ | ⟨piece, rfl, rest⟩
    · cases piece with
      | nil =>
          have token := right '=' rfl
          cases token
      | cons c piece => exact ⟨c, piece, rfl, clear⟩
    · cases piece with
      | nil =>
          rw [List.nil_append] at rest
          have token := right '=' (by rw [← rest]; rfl)
          cases token
      | cons c piece =>
          injection rest with first _
          subst first
          exact absurd (by simp) sought.unset

/-! ## Occurrences that are no selectors -/

structure Place where
  offset : Nat
  selector : Text

def Place.shift (count : Nat) (place : Place) : Place :=
  { place with offset := count + place.offset }

def Place.In (text : Text) (place : Place) : Prop :=
  place.selector ≠ [] ∧ ∃ before behind, text = before ++ (place.selector ++ behind) ∧
    before.size = place.offset

/-- Somewhere in the text `needle` occurs free, and it is none of the selectors there. -/
def Stray (needle text : Text) (places : List Place) : Prop :=
  ∃ before, FreeAt needle text before ∧ ⟨before.size, needle⟩ ∉ places

theorem size_pos {text : Text} (nonempty : text ≠ []) : 0 < text.size := by
  obtain ⟨c, rest, rfl⟩ := List.exists_cons_of_ne_nil nonempty
  have positive : 0 < c.utf8Size := Char.utf8Size_pos c
  rw [Text.size_cons]
  omega

theorem Place.In.offset_lt {text : Text} {place : Place} (inside : place.In text) :
    place.offset < text.size := by
  obtain ⟨nonempty, before, behind, rfl, size⟩ := inside
  have positive := size_pos nonempty
  simp only [Text.size_append]
  omega

theorem Place.In.append_right {text : Text} {place : Place} (inside : place.In text)
    (back : Text) : place.In (text ++ back) := by
  obtain ⟨nonempty, before, behind, rfl, size⟩ := inside
  exact ⟨nonempty, before, behind ++ back, by simp, size⟩

theorem Place.In.append_left {text : Text} {place : Place} (inside : place.In text)
    (front : Text) : (place.shift front.size).In (front ++ text) := by
  obtain ⟨nonempty, before, behind, rfl, size⟩ := inside
  exact ⟨nonempty, front ++ before, behind, by simp [shift], by simp [shift, size]⟩

theorem Place.in_append {front back : Text} {places others : List Place}
    (left : ∀ place ∈ places, place.In front) (right : ∀ place ∈ others, place.In back) :
    ∀ place ∈ places ++ others.map (shift front.size), place.In (front ++ back) := by
  intro place member
  rcases List.mem_append.mp member with early | late
  · exact (left place early).append_right back
  · obtain ⟨origin, inside, rfl⟩ := List.mem_map.mp late
    exact (right origin inside).append_left front

theorem FreeAt.size_lt {needle text before : Text} (sought : Needle needle)
    (free : FreeAt needle text before) : before.size < text.size := by
  obtain ⟨behind, rfl, _⟩ := free
  have positive := size_pos sought.nonempty
  simp only [Text.size_append]
  omega

theorem Stray.append_right {needle front back : Text} {places others : List Place}
    (sought : Needle needle) (stray : Stray needle front places) (apart : Apart front back) :
    Stray needle (front ++ back) (places ++ others.map (Place.shift front.size)) := by
  obtain ⟨before, free, other⟩ := stray
  refine ⟨before, free.append_right sought apart, ?_⟩
  rw [List.mem_append]
  rintro (early | late)
  · exact other early
  · obtain ⟨place, _, same⟩ := List.mem_map.mp late
    have offset := congrArg Place.offset same
    have bound := free.size_lt sought
    simp only [Place.shift] at offset
    omega

theorem Stray.append_left {needle front back : Text} {places others : List Place}
    (sought : Needle needle) (stray : Stray needle back others) (apart : Apart front back)
    (bounded : ∀ place ∈ places, place.In front) :
    Stray needle (front ++ back) (places ++ others.map (Place.shift front.size)) := by
  obtain ⟨before, free, other⟩ := stray
  refine ⟨front ++ before, free.append_left sought apart, ?_⟩
  rw [List.mem_append]
  rintro (early | late)
  · have bound := (bounded _ early).offset_lt
    simp only [Text.size_append] at bound
    omega
  · obtain ⟨place, member, same⟩ := List.mem_map.mp late
    obtain ⟨offset, selector⟩ := place
    simp only [Place.shift, Place.mk.injEq, Text.size_append] at same
    obtain ⟨sameOffset, rfl⟩ := same
    have equal : offset = before.size := by omega
    subst equal
    exact other member

/-- Whatever needle occurs free in the new text occurs free in the old one, and there it is none of
the selectors. -/
def Traces (old new : Text) (places : List Place) : Prop :=
  ∀ needle, Needle needle → (∃ before, FreeAt needle new before) → Stray needle old places

theorem Traces.refl (text : Text) : Traces text text [] := by
  rintro needle _ ⟨before, free⟩
  exact ⟨before, free, by simp⟩

theorem Traces.nil (old : Text) (places : List Place) : Traces old [] places := by
  rintro needle sought ⟨before, free⟩
  have bound := free.size_lt sought
  simp at bound

theorem Traces.both {old new new' : Text} {places : List Place} (left : Traces old new places)
    (right : Traces old new' places) (apart : Apart new new') :
    Traces old (new ++ new') places := by
  rintro needle sought ⟨before, free⟩
  rcases free.of_append sought apart with early | ⟨before', _, late⟩
  · exact left needle sought ⟨before, early⟩
  · exact right needle sought ⟨before', late⟩

theorem Traces.append {old new old' new' : Text} {places places' : List Place}
    (left : Traces old new places) (right : Traces old' new' places') (oldApart : Apart old old')
    (newApart : Apart new new') (bounded : ∀ place ∈ places, place.In old) :
    Traces (old ++ old') (new ++ new') (places ++ places'.map (Place.shift old.size)) := by
  rintro needle sought ⟨before, free⟩
  rcases free.of_append sought newApart with early | ⟨before', _, late⟩
  · exact (left needle sought ⟨before, early⟩).append_right sought oldApart
  · exact (right needle sought ⟨before', late⟩).append_left sought oldApart bounded

end Patch

end TemplateSelectors
