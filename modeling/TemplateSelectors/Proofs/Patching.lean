import TemplateSelectors.Proofs.SettledTag

/-!
# Patching settles lone selectors

A printed template is patched once for each lone selector, in document order.  Every patch finds
the selector it is meant for, if no other text spells that selector before it: what stands before
has been settled, so the selectors there are followed by equals signs.
-/

set_option autoImplicit false

namespace TemplateSelectors

/-- The only free occurrences of a selector before the place of a hit are hits themselves. -/
def SelectorHit.Leads (source : Text) (hits : List SelectorHit) (hit : SelectorHit) : Prop :=
  ∀ before behind, source = before ++ (hit.selector ++ behind) →
    Patch.isFree before.getLast? behind.head? = true →
    ((LineIndex.ofText source).position before.size).compare hit.loc.start = .lt →
    ⟨hit.selector, (LineIndex.ofText source).sourceSpan
      ⟨before.size, before.size + hit.selector.size⟩⟩ ∈ hits

namespace Patch

/-! ## One patch -/

/-- A patch goes to the selector behind `new`, if every needle that occurs free before it has been
traced to one that is no selector and the selector is the first of its text. -/
theorem patchOne_of_first {old new needle behind after : Text} {places others : List Place}
    (sought : Needle needle) (oldEnd : WallEnd old) (newEnd : WallEnd new)
    (wall : WallStart behind) (traces : Traces old new places)
    (beyond : ∀ place ∈ others, old.size ≤ place.offset)
    (first : ∀ before, FreeAt needle (old ++ after) before → before.size < old.size →
      ⟨before.size, needle⟩ ∈ places ++ others) :
    patchOne (new ++ (needle ++ behind)) needle = new ++ (needle ++ (trueSuffix ++ behind)) := by
  refine patchOne_eq sought.nonempty (fun c last => sought.not_mem_of_isWall (newEnd c last)) ?_ ?_
  · refine isFree_eq_true_iff.mpr ⟨?_, ?_⟩
    · exact fun c last => isTokenChar_of_isWall (newEnd c last)
    · exact fun c head => isTokenChar_of_isWall (wall c head)
  · intro earlier later same shorter
    rw [← Bool.not_eq_true]
    intro clear
    have free : FreeAt needle (new ++ (needle ++ behind)) earlier := ⟨later, same, clear⟩
    rcases free.of_append sought (.inl newEnd) with inside | ⟨before', rfl, _⟩
    · -- an earlier occurrence comes from one in the source that is no selector
      obtain ⟨before, origin, other⟩ := traces needle sought ⟨earlier, inside⟩
      have bound := origin.size_lt sought
      have place := first before (origin.append_right sought (.inl oldEnd)) bound
      rcases List.mem_append.mp place with early | late
      · exact other early
      · have reached := beyond _ late
        simp only at reached
        omega
    · simp only [List.length_append] at shorter
      omega

def Place.Leads (whole : Text) (places : List Place) (place : Place) : Prop :=
  ∀ before, FreeAt place.selector whole before → before.size < place.offset →
    ⟨before.size, place.selector⟩ ∈ places

/-- Offsets tell as much as lines and columns do. -/
theorem Place.leads_of_hit {whole : Text} {places : List Place} {place : Place}
    (inside : ∀ other ∈ places, other.In whole) (here : place.In whole)
    (leads : (place.hit (LineIndex.ofText whole)).Leads whole
      (places.map (Place.hit (LineIndex.ofText whole)))) :
    place.Leads whole places := by
  rintro before ⟨behind, split, clear⟩ early
  obtain ⟨_, front, back, shape, offset⟩ := here
  have earlier : ((LineIndex.ofText whole).position before.size).Before
      ((LineIndex.ofText whole).position place.offset) := by
    have same := split.symm.trans shape
    rcases List.append_eq_append_iff.mp same with ⟨middle, rfl, rest⟩ | ⟨middle, rfl, _⟩
    · have parts : whole = before ++ (middle ++ (place.selector ++ back)) := by
        rw [split, rest]
      have nonempty : middle ≠ [] := by
        rintro rfl
        simp only [List.append_nil] at offset
        omega
      rw [← offset]
      exact LineIndex.position_before parts nonempty
    · simp only [Text.size_append] at early
      omega
  have member := leads before behind split clear (Position.compare_eq_lt_of_before earlier)
  obtain ⟨other, listed, same⟩ := List.mem_map.mp member
  obtain ⟨otherOffset, otherSelector⟩ := other
  simp only [Place.hit, SelectorHit.mk.injEq] at same
  obtain ⟨rfl, span⟩ := same
  -- two places with one position have the same text before them
  obtain ⟨_, front', back', shape', offset'⟩ := inside _ listed
  simp only at offset'
  subst offset'
  have start := congrArg SourceSpan.start span
  have texts : front' = before := LineIndex.eq_of_position_eq shape' split start
  rw [← texts]
  exact listed

/-! ## What has been settled -/

/-- A text up to a wall and what has become of it. -/
structure Settles (old new : Text) (places : List Place) : Prop where
  oldEnd : WallEnd old
  newEnd : WallEnd new
  traces : Traces old new places
  inside : ∀ place ∈ places, place.In old

theorem Settles.nil : Settles [] [] [] :=
  ⟨wallEnd_nil, wallEnd_nil, .refl [], by simp⟩

theorem Settles.traces_append {old new : Text} {places : List Place}
    (settles : Settles old new places) (text : Text) :
    Traces (old ++ text) (new ++ text) places := by
  have whole := settles.traces.append (.refl text) (.inl settles.oldEnd) (.inl settles.newEnd)
    settles.inside
  simpa only [List.map_nil, List.append_nil] using whole

theorem wallStart_of_braced {text : Text} (braced : Braced text) : WallStart text := by
  obtain ⟨inner, rfl⟩ := braced
  rintro c ⟨⟩
  decide +kernel

theorem wallEnd_of_braced {text : Text} (braced : Braced text) (front : Text) :
    WallEnd (front ++ text) := by
  obtain ⟨inner, rfl⟩ := braced
  intro c last
  rw [← List.append_assoc, List.getLast?_concat] at last
  cases last
  decide +kernel

theorem Settles.append {old new old' new' : Text} {places places' : List Place}
    (settles : Settles old new places) (text : Text) (oldBraced : Braced old')
    (newBraced : Braced new') (traces : Traces old' new' places')
    (inside : ∀ place ∈ places', place.In old') :
    Settles (old ++ text ++ old') (new ++ text ++ new')
      (places ++ places'.map (Place.shift (old ++ text).size)) where
  oldEnd := wallEnd_of_braced oldBraced _
  newEnd := wallEnd_of_braced newBraced _
  traces := (settles.traces_append text).append traces (.inr (wallStart_of_braced oldBraced))
    (.inr (wallStart_of_braced newBraced))
    fun place member => (settles.inside place member).append_right text
  inside := Place.in_append
    (fun place member => (settles.inside place member).append_right text) inside

end Patch

open Patch

/-! ## Leaf by leaf -/

namespace Tag

variable {pattern : SelectorPattern} {tag : Tag}

theorem Delimited.braced (delimited : tag.Delimited) (printed : tag.print = tag.printParts) :
    Braced tag.print := by
  obtain ⟨⟨more, opened⟩, ⟨front, closed⟩, _⟩ := delimited
  refine ⟨more ++ (tag.body.text ++ front), ?_⟩
  rw [printed, printParts_eq, opened, closed]
  simp

theorem wallStart_rear_append (wellFormed : tag.WellFormed) (delimited : tag.Delimited)
    (rest : Text) : WallStart (tag.rear ++ rest) := by
  have nonempty : tag.rear ≠ [] := by
    obtain ⟨front, closed⟩ := delimited.closer
    simp [rear, closed]
  obtain ⟨d, more, shape⟩ := List.exists_cons_of_ne_nil nonempty
  have wall := wallStart_rear wellFormed delimited
  rw [shape] at wall ⊢
  exact fun c head => wall c head

theorem print_promoted_of_lone {index : LineIndex} {start : Nat} {opener body closer : Text}
    (read : Tag.read index start opener body closer = .ok tag) {candidate : Param}
    (lone : tag.candidates pattern = [candidate]) :
    (tag.promoted ⟨pattern, true⟩).print = tag.print := by
  have source := source_of_read read
  obtain ⟨hash, keywords⟩ :=
    Option.isSome_iff_exists.mp (standsFor_of_read read).wellFormed.keywords
  unfold candidates at lone
  simp [promoted, promote, lone, keywords, print, source]

/-- A tag whose patch, if it is left one, finds the selector that it is meant for: a lone selector
is a needle, it is the last positional argument, and no other text spells it before. -/
structure Patchable (pattern : SelectorPattern) (source : Text) (hits : List SelectorHit)
    (tag : Tag) : Prop where
  needle : ∀ candidate, tag.candidates pattern = [candidate] → Needle candidate.value.print
  last : ∀ candidate, tag.candidates pattern = [candidate] → tag.params.getLast? = some candidate
  leads : (tag.candidates pattern).length = 1 →
    ∀ hit ∈ tag.selectorHits pattern, hit.Leads source hits

theorem patchAll_promoted {index : LineIndex} {start : Nat} {opener body closer : Text}
    (read : Tag.read index start opener body closer = .ok tag) (delimited : tag.Delimited)
    (needle : ∀ candidate, tag.candidates pattern = [candidate] → Needle candidate.value.print)
    (last : ∀ candidate, tag.candidates pattern = [candidate] →
      tag.params.getLast? = some candidate)
    {old new after : Text} {places others : List Place}
    (traces : ∀ text, Traces (old ++ text) (new ++ text) places)
    (beyond : ∀ place ∈ others, old.size + tag.print.size ≤ place.offset)
    (first : (tag.candidates pattern).length = 1 →
      ∀ place ∈ (tag.places pattern).map (Place.shift old.size),
        place.Leads (old ++ (tag.print ++ after))
          (places ++ ((tag.places pattern).map (Place.shift old.size) ++ others)))
    (rest : Text) (selectors : List Text) :
    patchAll (new ++ ((tag.promoted ⟨pattern, true⟩).print ++ rest))
        (tag.patches pattern ++ selectors) =
      patchAll (new ++ ((tag.settled pattern).print ++ rest)) selectors := by
  have stands := standsFor_of_read read
  obtain ⟨hash, keywords⟩ := Option.isSome_iff_exists.mp stands.wellFormed.keywords
  rcases settled_cases pattern keywords with
    ⟨_, patches, promotes, settles⟩ | ⟨candidate, lone, patches, _⟩ |
      ⟨patches, promotes, settles⟩
  · rw [patches, promotes, settles, List.nil_append]
  · obtain ⟨front, wall, text, settledText, place⟩ :=
      exists_around_lone stands lone (last candidate lone)
    have patched : patchOne (new ++ front ++ (candidate.value.print ++ (tag.rear ++ rest)))
        candidate.value.print =
          new ++ front ++ (candidate.value.print ++ (trueSuffix ++ (tag.rear ++ rest))) := by
      rw [place, lone, text] at first
      simp only [List.map_cons, List.map_nil, List.mem_singleton, forall_eq, Place.shift, Place.Leads,
        List.length_singleton, forall_const, ← Text.size_append, List.append_assoc] at first
      simp only [← List.append_assoc old] at first
      rw [text] at beyond
      have reached : ∀ other ∈ [⟨(old ++ front).size, candidate.value.print⟩] ++ others,
          (old ++ front).size ≤ other.offset := by
        rw [List.forall_mem_append, List.forall_mem_singleton]
        refine ⟨Nat.le_refl _, ?_⟩
        intro other listed
        have bound := beyond other listed
        simp only [Text.size_append] at bound ⊢
        omega
      exact patchOne_of_first (needle candidate lone) (wall old) (wall new)
        (wallStart_rear_append stands.wellFormed delimited rest) (traces front) reached first
    rw [print_promoted_of_lone read lone, patches, text, settledText]
    have step := congrArg (patchAll · selectors) patched
    simpa only [patchAll, List.singleton_append, List.foldl_cons, List.append_assoc] using step
  · rw [patches, promotes, settles, List.nil_append]

end Tag

theorem Leaf.Found.settles {index : LineIndex} {start : Nat} {leaf : Leaf}
    (found : leaf.Found index start) (pattern : SelectorPattern) :
    Braced leaf.print ∧ Braced (leaf.mapTag (Tag.settled pattern)).print ∧
      Traces leaf.print (leaf.mapTag (Tag.settled pattern)).print (leaf.places pattern) ∧
      ∀ place ∈ leaf.places pattern, place.In leaf.print := by
  cases found with
  | @words text braced => exact ⟨braced, braced, .refl text, by simp [Leaf.places]⟩
  | @modifier tag braced => exact ⟨braced, braced, .refl tag.print, by simp [Leaf.places]⟩
  | @invocation tag opener body closer read delimited =>
      have stands := Tag.standsFor_of_read read
      have settled := Tag.delimited_settled pattern stands.wellFormed delimited
      exact ⟨delimited.braced stands.printed, settled.braced (Tag.print_settled stands),
        Tag.traces_settled stands delimited, Tag.places_in stands⟩

theorem Leaf.Found.patchAll_promoted {pattern : SelectorPattern} {whole old new after : Text}
    {leaf : Leaf} (found : leaf.Found (LineIndex.ofText whole) old.size)
    {all places others : List Place} (inside : ∀ place ∈ all, place.In whole)
    (patchable : ∀ tag ∈ Leaf.tags [leaf],
      tag.Patchable pattern whole (all.map (Place.hit (LineIndex.ofText whole))))
    (split : whole = old ++ (leaf.print ++ after))
    (listed : all = places ++ ((leaf.places pattern).map (Place.shift old.size) ++ others))
    (traces : ∀ text, Traces (old ++ text) (new ++ text) places)
    (beyond : ∀ place ∈ others, old.size + leaf.print.size ≤ place.offset)
    (rest : Text) (selectors : List Text) :
    patchAll (new ++ ((leaf.mapTag (Tag.promoted ⟨pattern, true⟩)).print ++ rest))
        ((Leaf.tags [leaf]).flatMap (Tag.patches pattern) ++ selectors) =
      patchAll (new ++ ((leaf.mapTag (Tag.settled pattern)).print ++ rest)) selectors := by
  cases found with
  | words braced => rfl
  | modifier braced => rfl
  | @invocation tag opener body closer read delimited =>
      simp only [Leaf.tags_invocation, Leaf.tags_nil, List.forall_mem_singleton, List.flatMap_cons,
        List.flatMap_nil, List.append_nil] at patchable ⊢
      have hits := Tag.hits_of_read pattern read
      have first : (tag.candidates pattern).length = 1 →
          ∀ place ∈ (tag.places pattern).map (Place.shift old.size),
            place.Leads (old ++ (tag.print ++ after))
              (places ++ ((tag.places pattern).map (Place.shift old.size) ++ others)) := by
        intro lone place member
        have here : place ∈ all := by
          rw [listed]
          exact List.mem_append_right _ (List.mem_append_left _ member)
        have found : place.hit (LineIndex.ofText whole) ∈ tag.selectorHits pattern := by
          rw [hits]
          exact List.mem_map_of_mem member
        have leading := Place.leads_of_hit inside (inside place here)
          (patchable.leads lone _ found)
        rw [split, listed] at leading
        exact leading
      exact Tag.patchAll_promoted read delimited patchable.needle patchable.last traces beyond first
        rest selectors

namespace Item

theorem mapTag_ofText (f : Tag → Tag) (index : LineIndex) (start : Nat) (chars : Text) :
    ((ofText index start chars).flatMap leaves).map (Leaf.mapTag f) =
      (ofText index start chars).flatMap leaves := by
  cases chars with
  | nil => rfl
  | cons c chars => rfl

/-- Patching what is printed of the items of a source settles their tags, one after another: what
stands before an item has been settled when its patch is made. -/
theorem Scans.patchAll_promoted {pattern : SelectorPattern} {whole : Text} {all : List Place}
    (inside : ∀ place ∈ all, place.In whole) {markup : Markup} {start : Nat} {source : Text}
    {items : List Item} (scans : Scans (LineIndex.ofText whole) markup start source items)
    (patchable : ∀ tag ∈ Leaf.tags (items.flatMap leaves),
      tag.Patchable pattern whole (all.map (Place.hit (LineIndex.ofText whole))))
    {old new : Text} {places : List Place} (settles : Settles old new places)
    (split : whole = old ++ source) (offset : start = old.size)
    (listed : all = places ++ (leafPlaces pattern (items.flatMap leaves)).map (Place.shift start)) :
    patchAll
        (new ++ Leaf.printAll ((items.flatMap leaves).map
          (Leaf.mapTag (Tag.promoted ⟨pattern, true⟩))))
        ((Leaf.tags (items.flatMap leaves)).flatMap (Tag.patches pattern)) =
      new ++ Leaf.printAll ((items.flatMap leaves).map (Leaf.mapTag (Tag.settled pattern))) := by
  induction scans generalizing old new places with
  | @last markup start source chars run =>
      rw [tags_ofText, mapTag_ofText, mapTag_ofText]
      rfl
  | @lexeme markup markup' start source chars behind rest lexeme item items run read made more
      inductionHypothesis =>
      -- what has been settled grows by the text before the leaf and by the leaf itself
      subst offset
      obtain ⟨leaf, single, print, found⟩ :=
        (ofLexeme_eq_ok_iff.mp made).exists_leaf (Lexeme.reads_of_read read)
      obtain ⟨text, none⟩ := leaves_ofText (LineIndex.ofText whole) old.size chars
      rw [← Text.size_append] at found
      have parts : whole = old ++ chars ++ (leaf.print ++ rest) := by
        have joined := text_of_scans (.lexeme run read made more)
        rw [List.flatMap_append, List.flatMap_cons, text_ofText, text_of_scans more,
          text_of_makes (ofLexeme_eq_ok_iff.mp made), ← print] at joined
        rw [split, ← joined, List.append_assoc]
      have all_leaves : (ofText (LineIndex.ofText whole) old.size chars ++ item :: items).flatMap
          leaves = (ofText (LineIndex.ofText whole) old.size chars).flatMap leaves ++
            ([leaf] ++ items.flatMap leaves) := by
        rw [List.flatMap_append, List.flatMap_cons, single]
      rw [all_leaves, Leaf.tags_append, tags_ofText, List.nil_append, Leaf.tags_append,
        List.forall_mem_append] at patchable
      rw [all_leaves, leafPlaces_append, none, text] at listed
      simp only [List.singleton_append, List.nil_append, leafPlaces, List.map_append,
        Place.map_shift_shift, ← Text.size_append] at listed
      obtain ⟨oldBraced, newBraced, traces, within⟩ := found.settles pattern
      have beyond : ∀ place ∈ (leafPlaces pattern (items.flatMap leaves)).map
          (Place.shift (old ++ (chars ++ leaf.print)).size),
            (old ++ chars).size + leaf.print.size ≤ place.offset := by
        intro place member
        obtain ⟨origin, _, rfl⟩ := List.mem_map.mp member
        simp only [Place.shift, Text.size_append]
        omega
      have unchanged : ∀ text, Traces (old ++ chars ++ text) (new ++ chars ++ text) places := by
        intro text
        simpa only [List.append_assoc] using settles.traces_append (chars ++ text)
      -- the patches of the leaf are made first, and they change nothing else
      have step := found.patchAll_promoted inside patchable.1 parts listed unchanged beyond
        (Leaf.printAll ((items.flatMap leaves).map (Leaf.mapTag (Tag.promoted ⟨pattern, true⟩))))
        ((Leaf.tags (items.flatMap leaves)).flatMap (Tag.patches pattern))
      have onwards := inductionHypothesis patchable.2
        (settles.append chars oldBraced newBraced traces within)
        (by rw [parts]; simp only [List.append_assoc]) (by rw [← print]; simp only [Text.size_append])
        (by rw [listed, ← print]; simp only [Text.size_append, List.append_assoc, Nat.add_assoc])
      rw [all_leaves]
      simp only [List.map_append, mapTag_ofText, Leaf.printAll_append, text, Leaf.tags_append,
        tags_ofText, List.nil_append, List.flatMap_append, List.map_cons, List.map_nil,
        Leaf.printAll_cons, Leaf.printAll_nil, List.append_nil]
      simp only [List.append_assoc] at step onwards ⊢
      rw [step, onwards]

end Item

end TemplateSelectors
