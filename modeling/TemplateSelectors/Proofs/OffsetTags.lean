import TemplateSelectors.Proofs.ErrorPlaces
import TemplateSelectors.Proofs.OffsetLexemes

/-!
# Tags by offsets

The inside of a tag is read off the front of a text, and where reading stopped is the difference
of two sizes.  The parts that were read are then looked up in the source: each stands at its
offset, and the span of keyword arguments grows from the first to the last.
-/

set_option autoImplicit false

namespace TemplateSelectors

namespace ByOffsets

open TagBody (Term Arguments Taken Passed term? arguments blockParams? stuckAt isLayout)

/-! ## The inside of a tag -/

def textTaken (text rest : Text) : Outcome Text := do
  let size ← minus text.size rest.size
  cut text 0 size

theorem textTaken_append (piece rest : Text) : textTaken (piece ++ rest) rest = .reached piece := by
  have used : minus (Text.size (piece ++ rest)) rest.size =
      .reached (Text.size [] + piece.size) := by
    rw [Text.size_append, minus_of_le (Nat.le_add_left _ _), Nat.add_sub_cancel, Text.size_nil,
      Nat.zero_add]
  rw [textTaken, used, Outcome.reached_bind]
  exact @cut_append _ [] piece rest rfl

/-- Reads a whole tag body, as `TagBody.read` does, and gives the offset of a failure as the
difference of the sizes before and after. -/
def bodyFrom (text : Text) : Outcome (Except (Nat × ExpressionFault) TagBody) :=
  let failure : ExpressionFault := if Text.trim text = [] then .empty else .expected
  let stopped (rest : Text) (fault : ExpressionFault) := do
    let offset ← minus text.size rest.size
    return .error (offset, fault)
  match term? (text.dropWhile isLayout) with
  | none => stopped (stuckAt (text.dropWhile isLayout)) failure
  | some callee =>
      match arguments callee.rest with
      | .error rest => stopped rest failure
      | .ok args =>
          let (names, behind) :=
            match blockParams? args.rest with
            | some (names, behind) => (some names, behind)
            | none => (none, args.rest)
          match behind.dropWhile isLayout with
          | [] =>
              .reached (.ok {
                leading := text.takeWhile isLayout
                callee := callee.value
                args := args.value
                blockParams := names
                trailing := behind.takeWhile isLayout })
          | found :: rest => stopped (found :: rest) (.unexpected found)

theorem minus_of_suffix {text rest : Text} (suffix : rest <:+ text) :
    minus text.size rest.size = .reached (text.size - rest.size) := by
  obtain ⟨front, rfl⟩ := suffix
  exact minus_of_le (by rw [Text.size_append]; omega)

theorem bodyFrom_eq (text : Text) : bodyFrom text = .reached (TagBody.read text) := by
  have gap : text.dropWhile isLayout <:+ text := List.dropWhile_suffix isLayout
  unfold bodyFrom TagBody.read
  cases readCallee : term? (text.dropWhile isLayout) with
  | none =>
      simp only [minus_of_suffix ((TagBody.stuckAt_suffix _).trans gap), Outcome.reached_bind,
        Outcome.pure_eq]
  | some callee =>
      have calleeRest := (TagBody.rest_suffix_of_term? readCallee).trans gap
      cases readArgs : arguments callee.rest with
      | error stuck =>
          have stuckRest := (TagBody.suffix_of_arguments_error readArgs).trans calleeRest
          simp only [minus_of_suffix stuckRest, readArgs, Outcome.reached_bind, Outcome.pure_eq]
      | ok args =>
          have argsRest := (TagBody.rest_suffix_of_arguments readArgs).trans calleeRest
          cases names : blockParams? args.rest with
          | none =>
              have spaces := (List.dropWhile_suffix isLayout).trans argsRest
              simp only [readArgs, names]
              cases left : args.rest.dropWhile isLayout with
              | nil => simp only
              | cons found rest =>
                  rw [left] at spaces
                  simp only [minus_of_suffix spaces, Outcome.reached_bind, Outcome.pure_eq]
          | some barred =>
              have barredRest := (TagBody.rest_suffix_of_blockParams? names).trans argsRest
              have spaces := (List.dropWhile_suffix isLayout).trans barredRest
              simp only [readArgs, names]
              cases left : barred.2.dropWhile isLayout with
              | nil => simp only
              | cons found rest =>
                  rw [left] at spaces
                  simp only [minus_of_suffix spaces, Outcome.reached_bind, Outcome.pure_eq]

/-! ## Parts in the source -/

def spanOf (source : Text) (start : Nat) (part : Text) : Outcome Span := do
  let found ← cut source start (start + part.size)
  if found = part then spanBetween start (start + part.size) else .astray

theorem spanOf_append {source front part rest : Text} (whole : source = front ++ (part ++ rest)) :
    spanOf source front.size part = .reached ⟨front.size, front.size + part.size⟩ := by
  rw [spanOf, cut_append whole, Outcome.reached_bind, if_pos rfl,
    spanBetween_of_le (Nat.le_add_right _ _)]

/-- The arguments gathered so far, where the last positional one stops, and from where to where
the keyword arguments reach. -/
structure Gathered where
  params : List Param
  pairs : List HashPair
  paramStop : Nat
  pairsSpan : Option Span

/-- The span of keyword arguments that one more has been added to. -/
def spanAcross (known : Option Span) (span : Span) : Outcome Span :=
  match known with
  | some earlier => spanBetween earlier.start span.stop
  | none => .reached span

def Gathered.hash (source : Text) (gathered : Gathered) : Outcome Hash :=
  match gathered.pairsSpan with
  | some span => do
      let loc ← locationOf source span
      return ⟨gathered.pairs, loc⟩
  | none => do
      let point ← positionOf source gathered.paramStop
      return ⟨gathered.pairs, .point point⟩

def Gathered.empty (stop : Nat) : Gathered :=
  ⟨[], [], stop, none⟩

@[simp]
theorem Gathered.isEmpty_pairs_empty (stop : Nat) :
    (Gathered.empty stop).pairs.isEmpty = true := rfl

def finish (source : Text) (outcome : Outcome Gathered) : Outcome (List Param × Hash) := do
  let gathered ← outcome
  let hash ← gathered.hash source
  return (gathered.params, hash)

mutual

def termAt (source : Text) (start : Nat) : Term → Outcome Expression
  | .path text => do
      let span ← spanOf source start text
      let loc ← locationOf source span
      match literalKind? text with
      | some kind => return .literal ⟨kind, text, loc⟩
      | none => return .path ⟨text, loc⟩
  | .quoted text => do
      let span ← spanOf source start text
      let loc ← locationOf source span
      return .literal ⟨.string, text, loc⟩
  | .call leading callee args trailing => do
      let calleeStart := start + 1 + leading.size
      let calleeExpression ← termAt source calleeStart callee
      let calleeSpan ← spanOf source calleeStart callee.text
      let (params, hash) ←
        finish source (argumentsAt source calleeSpan.stop (.empty calleeSpan.stop) args)
      let span ← spanOf source start (Term.call leading callee args trailing).text
      let loc ← locationOf source span
      return .call ⟨leading, calleeExpression, params, hash, trailing, loc⟩

def argumentsAt (source : Text) (start : Nat) (gathered : Gathered) :
    Arguments → Outcome Gathered
  | .done => .reached gathered
  | .positional leading value more => do
      let span ← spanOf source (start + leading.size) value.text
      if gathered.pairs.isEmpty then do
        let expression ← termAt source (start + leading.size) value
        argumentsAt source span.stop { gathered with
          params := gathered.params ++ [⟨leading, expression⟩]
          paramStop := span.stop } more
      else refuse source (.invalidExpression .positionalAfterKeyword) span.start span.stop
  | .keyword leading key separator value more => do
      let keyStart := start + leading.size
      let valueStart := keyStart + key.size + separator.size
      let keySpan ← spanOf source keyStart key
      let valueSpan ← spanOf source valueStart value.text
      let span ← spanBetween keySpan.start valueSpan.stop
      let pairsSpan ← spanAcross gathered.pairsSpan span
      let expression ← termAt source valueStart value
      let loc ← locationOf source span
      argumentsAt source valueSpan.stop { gathered with
        pairs := gathered.pairs ++ [⟨leading, key, separator, expression, loc⟩]
        pairsSpan := some pairsSpan } more

end

/-- What was gathered agrees with where it was gathered: the keyword arguments reach from the
first to the last, and without any the positional ones stop at `stop`. -/
def Gathered.Fits (index : LineIndex) (stop : Nat) (gathered : Gathered) : Prop :=
  match gathered.pairsSpan with
  | none => gathered.pairs = [] ∧ gathered.paramStop = stop
  | some span =>
      gathered.pairs ≠ [] ∧ span.start ≤ stop ∧
        ∀ point, hashLoc point gathered.pairs = index.sourceSpan span

theorem Gathered.Fits.hash_eq {source : Text} {stop : Nat} {gathered : Gathered}
    (fits : gathered.Fits (.ofText source) stop) :
    gathered.hash source = .reached
      ⟨gathered.pairs, hashLoc ((LineIndex.ofText source).position stop) gathered.pairs⟩ := by
  obtain ⟨params, pairs, paramStop, pairsSpan⟩ := gathered
  cases pairsSpan with
  | none =>
      obtain ⟨rfl, rfl⟩ := fits
      simp only [Gathered.hash, positionOf_eq, Outcome.reached_bind]
      rfl
  | some span =>
      obtain ⟨_, _, reaches⟩ := fits
      simp only [Gathered.hash, locationOf_eq, Outcome.reached_bind, reaches]
      rfl

theorem hashLoc_cons (point : Position) (first : HashPair) (others : List HashPair) :
    hashLoc point (first :: others) =
      ⟨first.loc.start, ((first :: others).getLast (List.cons_ne_nil _ _)).loc.stop⟩ := by
  rw [hashLoc, List.head?_cons, List.getLast?_eq_some_getLast (List.cons_ne_nil _ _)]

/-- One more keyword argument: the span grows up to its end. -/
theorem Gathered.Fits.exists_across {index : LineIndex} {start keyStart valueStop : Nat}
    {gathered : Gathered} (fits : gathered.Fits index start) (starts : start ≤ keyStart)
    (ordered : keyStart ≤ valueStop) :
    ∃ across, spanAcross gathered.pairsSpan ⟨keyStart, valueStop⟩ = .reached across ∧
      ∀ pair : HashPair, pair.loc = index.sourceSpan ⟨keyStart, valueStop⟩ →
        Gathered.Fits index valueStop { gathered with
          pairs := gathered.pairs ++ [pair]
          pairsSpan := some across } := by
  obtain ⟨params, pairs, paramStop, pairsSpan⟩ := gathered
  cases pairsSpan with
  | none =>
      obtain ⟨rfl, _⟩ := fits
      refine ⟨⟨keyStart, valueStop⟩, rfl, ?_⟩
      intro pair place
      exact ⟨List.cons_ne_nil _ _, ordered, fun _ => place⟩
  | some span =>
      obtain ⟨nonempty, started, reaches⟩ := fits
      have before : span.start ≤ valueStop := by
        omega
      refine ⟨⟨span.start, valueStop⟩, spanBetween_of_le before, ?_⟩
      intro pair place
      refine ⟨by simp, before, ?_⟩
      intro point
      obtain ⟨first, others, rfl⟩ := List.exists_cons_of_ne_nil nonempty
      have known := reaches point
      rw [hashLoc_cons] at known
      have start : first.loc.start = index.position span.start := congrArg SourceSpan.start known
      have last : (first :: (others ++ [pair])).getLast (List.cons_ne_nil _ _) = pair := by
        simp
      simp only [List.cons_append, hashLoc_cons, last, start, place]
      rfl

/-- What is gathered from arguments is what they are located as, behind what was gathered. -/
def Gathered.Extends (index : LineIndex) (stop : Nat) (gathered : Gathered)
    (outcome : Outcome Gathered) : Except ParseError (List Param × List HashPair) → Prop
  | .error error => outcome = .refused error
  | .ok (params, pairs) =>
      ∃ extended, outcome = .reached extended ∧ extended.params = gathered.params ++ params ∧
        extended.pairs = gathered.pairs ++ pairs ∧ extended.Fits index stop

section

variable {source : Text}

theorem Gathered.Extends.finish_eq {start stop : Nat} {outcome : Outcome Gathered}
    {located : Except ParseError (List Param × List HashPair)}
    (gathers : (Gathered.empty start).Extends (.ofText source) stop outcome located) :
    finish source outcome = .ofExcept (located.map fun (params, pairs) =>
      (params, ⟨pairs, hashLoc ((LineIndex.ofText source).position stop) pairs⟩)) := by
  cases located with
  | error error =>
      have refused : outcome = .refused error := gathers
      rw [refused]
      rfl
  | ok parts =>
      obtain ⟨extended, reached, params, pairs, fits⟩ := gathers
      rw [Gathered.empty, List.nil_append] at params pairs
      rw [finish, reached, Outcome.reached_bind, fits.hash_eq, Outcome.reached_bind, params, pairs]
      rfl

def Locates (source : Text) (start : Nat) (term : Term) : Prop :=
  termAt source start term = .ofExcept (term.locate (.ofText source) start)

def Gathers (source : Text) (start : Nat) (args : Arguments) : Prop :=
  ∀ gathered : Gathered, gathered.Fits (.ofText source) start →
    gathered.Extends (.ofText source) (start + args.size) (argumentsAt source start gathered args)
      (args.locate (.ofText source) start (!gathered.pairs.isEmpty))

theorem locates_path {start : Nat} {text : Text}
    (span : spanOf source start text = .reached ⟨start, start + text.size⟩) :
    Locates source start (.path text) := by
  simp only [Locates, termAt, span, Outcome.reached_bind, locationOf_eq, Term.locate]
  cases literalKind? text with
  | none => rfl
  | some kind => rfl

theorem locates_call {start : Nat} {leading trailing : Text} {callee : Term} {args : Arguments}
    (span : spanOf source start (Term.call leading callee args trailing).text =
      .reached ⟨start, start + (Term.call leading callee args trailing).size⟩)
    (calleeSpan : spanOf source (start + 1 + leading.size) callee.text =
      .reached ⟨start + 1 + leading.size, start + 1 + leading.size + callee.size⟩)
    (located : Locates source (start + 1 + leading.size) callee)
    (gathers : Gathers source (start + 1 + leading.size + callee.size) args) :
    Locates source start (.call leading callee args trailing) := by
  have finished := (gathers (.empty _) ⟨rfl, rfl⟩).finish_eq
  have stop : start + (Term.call leading callee args trailing).size =
      start + 1 + leading.size + callee.size + args.size + trailing.size + 1 := by
    rw [Term.size]
    omega
  unfold Locates at located ⊢
  simp only [termAt, located, Term.locate]
  cases callee.locate (.ofText source) (start + 1 + leading.size) with
  | error error => rfl
  | ok expression =>
      simp only [Outcome.ofExcept, Outcome.reached_bind, calleeSpan, finished,
        Gathered.isEmpty_pairs_empty, Bool.not_true]
      cases args.locate (.ofText source) (start + 1 + leading.size + callee.size) false with
      | error error => rfl
      | ok parts =>
          simp only [Outcome.reached_bind, span, stop, locationOf_eq]
          rfl

theorem gathers_positional {start : Nat} {leading : Text} {value : Term} {more : Arguments}
    (span : spanOf source (start + leading.size) value.text =
      .reached ⟨start + leading.size, start + leading.size + value.size⟩)
    (located : Locates source (start + leading.size) value)
    (later : Gathers source (start + leading.size + value.size) more) :
    Gathers source start (.positional leading value more) := by
  intro gathered fits
  unfold Locates at located
  simp only [argumentsAt, span, located, Outcome.reached_bind, Arguments.locate]
  cases empty : gathered.pairs.isEmpty with
  | false =>
      simp only [Bool.not_false, if_true, Bool.false_eq_true, if_false]
      exact refuse_eq source _ (Nat.le_add_right _ _)
  | true =>
      simp only [Bool.not_true, if_true, Bool.false_eq_true, if_false]
      cases value.locate (.ofText source) (start + leading.size) with
      | error error => rfl
      | ok expression =>
          obtain ⟨params, pairs, paramStop, pairsSpan⟩ := gathered
          obtain rfl : pairs = [] := List.isEmpty_iff.mp empty
          have fits' : Gathered.Fits (.ofText source) (start + leading.size + value.size)
              ⟨params ++ [⟨leading, expression⟩], [], start + leading.size + value.size,
                pairsSpan⟩ := by
            cases pairsSpan with
            | none => exact ⟨rfl, rfl⟩
            | some span => exact absurd rfl fits.1
          have gathers := later _ fits'
          simp only [List.isEmpty_nil, Bool.not_true] at gathers
          simp only [Outcome.ofExcept, Outcome.reached_bind]
          cases placed : more.locate (.ofText source) (start + leading.size + value.size) false with
          | error error =>
              rw [placed] at gathers
              exact gathers
          | ok parts =>
              rw [placed] at gathers
              obtain ⟨extended, reached, sameParams, samePairs, stops⟩ := gathers
              refine ⟨extended, reached, ?_, samePairs, ?_⟩
              · rw [sameParams, List.append_assoc]
                rfl
              · simp only [Arguments.size, ← Nat.add_assoc]
                exact stops

theorem gathers_keyword {start : Nat} {leading key separator : Text} {value : Term}
    {more : Arguments}
    (keySpan : spanOf source (start + leading.size) key =
      .reached ⟨start + leading.size, start + leading.size + key.size⟩)
    (valueSpan : spanOf source (start + leading.size + key.size + separator.size) value.text =
      .reached ⟨start + leading.size + key.size + separator.size,
        start + leading.size + key.size + separator.size + value.size⟩)
    (located : Locates source (start + leading.size + key.size + separator.size) value)
    (later : Gathers source (start + leading.size + key.size + separator.size + value.size) more) :
    Gathers source start (.keyword leading key separator value more) := by
  intro gathered fits
  have ordered : start + leading.size ≤
      start + leading.size + key.size + separator.size + value.size := by
    omega
  obtain ⟨across, grown, adds⟩ := fits.exists_across (Nat.le_add_right _ _) ordered
  unfold Locates at located
  simp only [argumentsAt, keySpan, valueSpan, spanBetween_of_le ordered, grown,
    Outcome.reached_bind, located, Arguments.locate]
  cases value.locate (.ofText source) (start + leading.size + key.size + separator.size) with
  | error error => rfl
  | ok expression =>
      have filled : ∀ pair : HashPair, (gathered.pairs ++ [pair]).isEmpty = false := by
        simp
      have gathers := later _ (adds ⟨leading, key, separator, expression, _⟩ rfl)
      simp only [filled, Bool.not_false] at gathers
      simp only [Outcome.ofExcept, Outcome.reached_bind, locationOf_eq]
      cases placed : more.locate (.ofText source)
          (start + leading.size + key.size + separator.size + value.size) true with
      | error error =>
          rw [placed] at gathers
          exact gathers
      | ok parts =>
          rw [placed] at gathers
          obtain ⟨extended, reached, sameParams, samePairs, stops⟩ := gathers
          refine ⟨extended, reached, sameParams, ?_, ?_⟩
          · rw [samePairs, List.append_assoc]
            rfl
          · simp only [Arguments.size, ← Nat.add_assoc]
            exact stops

theorem spanOf_term {term : Term} {front rest : Text} {start : Nat}
    (whole : source = front ++ (term.text ++ rest)) (here : start = front.size) :
    spanOf source start term.text = .reached ⟨start, start + term.size⟩ := by
  rw [here, spanOf_append whole, Term.size_text]

mutual

theorem locates (term : Term) {front rest : Text} {start : Nat}
    (whole : source = front ++ (term.text ++ rest)) (here : start = front.size) :
    Locates source start term := by
  have span := spanOf_term whole here
  match term with
  | .path text => exact locates_path span
  | .quoted text =>
      rw [Term.text] at span
      simp only [Locates, termAt, span, Outcome.reached_bind, locationOf_eq, Term.locate]
      rfl
  | .call leading callee args trailing =>
      have opening : Char.utf8Size '(' = 1 := rfl
      have calleeFront : source = (front ++ '(' :: leading) ++
          (callee.text ++ (args.text ++ (trailing ++ ')' :: rest))) := by
        rw [whole]
        simp [Term.text]
      have argsFront : source = (front ++ '(' :: leading ++ callee.text) ++
          (args.text ++ (trailing ++ ')' :: rest)) := by
        rw [whole]
        simp [Term.text]
      have calleeStart : start + 1 + leading.size = (front ++ '(' :: leading).size := by
        simp only [Text.size_append, Text.size_cons, opening, here]
        omega
      have argsStart : start + 1 + leading.size + callee.size =
          (front ++ '(' :: leading ++ callee.text).size := by
        rw [Text.size_append, ← calleeStart, Term.size_text]
      exact locates_call span (spanOf_term calleeFront calleeStart)
        (locates callee calleeFront calleeStart) (gathersAll args argsFront argsStart)

theorem gathersAll (args : Arguments) {front rest : Text} {start : Nat}
    (whole : source = front ++ (args.text ++ rest)) (here : start = front.size) :
    Gathers source start args := by
  match args with
  | .done => exact fun gathered fits => ⟨gathered, rfl, by simp, by simp, fits⟩
  | .positional leading value more =>
      have valueFront : source = (front ++ leading) ++ (value.text ++ (more.text ++ rest)) := by
        rw [whole]
        simp [Arguments.text]
      have moreFront : source = (front ++ leading ++ value.text) ++ (more.text ++ rest) := by
        rw [whole]
        simp [Arguments.text]
      have valueStart : start + leading.size = (front ++ leading).size := by
        rw [Text.size_append, here]
      have moreStart : start + leading.size + value.size =
          (front ++ leading ++ value.text).size := by
        rw [Text.size_append, ← valueStart, Term.size_text]
      exact gathers_positional (spanOf_term valueFront valueStart)
        (locates value valueFront valueStart) (gathersAll more moreFront moreStart)
  | .keyword leading key separator value more =>
      have keyFront : source = (front ++ leading) ++
          (key ++ (separator ++ (value.text ++ (more.text ++ rest)))) := by
        rw [whole]
        simp [Arguments.text]
      have valueFront : source = (front ++ leading ++ key ++ separator) ++
          (value.text ++ (more.text ++ rest)) := by
        rw [whole]
        simp [Arguments.text]
      have moreFront : source = (front ++ leading ++ key ++ separator ++ value.text) ++
          (more.text ++ rest) := by
        rw [whole]
        simp [Arguments.text]
      have keyStart : start + leading.size = (front ++ leading).size := by
        rw [Text.size_append, here]
      have valueStart : start + leading.size + key.size + separator.size =
          (front ++ leading ++ key ++ separator).size := by
        simp only [Text.size_append, here]
      have moreStart : start + leading.size + key.size + separator.size + value.size =
          (front ++ leading ++ key ++ separator ++ value.text).size := by
        rw [Text.size_append, ← valueStart, Term.size_text]
      have keySpan := spanOf_append keyFront
      rw [← keyStart] at keySpan
      exact gathers_keyword keySpan (spanOf_term valueFront valueStart)
        (locates value valueFront valueStart) (gathersAll more moreFront moreStart)

end

/-! ## Tags -/

/-- Reads the tag at `start` whose inside `body` stands at `bodyStart`. -/
def tagFrom (source : Text) (start : Nat) (opener : Text) (bodyStart : Nat)
    (body closer raw : Text) : Outcome Tag := do
  match ← bodyFrom body with
  | .error (offset, fault) =>
      let bodySpan ← spanOf source bodyStart body
      let place := bodySpan.start + offset
      refuse source (.invalidExpression fault) place (min (place + 1) source.size)
  | .ok parts =>
      let calleeStart := bodyStart + parts.leading.size
      let callee ← termAt source calleeStart parts.callee
      let calleeSpan ← spanOf source calleeStart parts.callee.text
      let (params, hash) ←
        finish source (argumentsAt source calleeSpan.stop (.empty calleeSpan.stop) parts.args)
      let span ← spanOf source start raw
      let loc ← locationOf source span
      return {
        opener := opener
        leading := parts.leading
        callee := callee
        params := params
        hash := some hash
        blockParams := parts.blockParams
        trailing := parts.trailing
        closer := closer
        loc := loc
        source := some raw }

theorem tagFrom_eq {front opener body closer raw rest : Text}
    (made : raw = opener ++ body ++ closer) (whole : source = front ++ (raw ++ rest)) :
    tagFrom source front.size opener (front.size + opener.size) body closer raw =
      .ofExcept (Tag.read (.ofText source) front.size opener body closer) := by
  have bodyFront : source = (front ++ opener) ++ (body ++ (closer ++ rest)) := by
    rw [whole, made]
    simp
  have bodySpan := spanOf_append bodyFront
  rw [Text.size_append] at bodySpan
  rw [tagFrom, bodyFrom_eq, Outcome.reached_bind, Tag.read]
  cases inside : TagBody.read body with
  | error fault =>
      obtain ⟨offset, fault⟩ := fault
      obtain ⟨before, left, split, rfl⟩ := TagBody.exists_front_of_read_error inside
      have fits : front.size + opener.size + before.size ≤ source.size := by
        rw [bodyFront, split]
        simp only [Text.size_append]
        omega
      simp only [bodySpan, Outcome.reached_bind]
      exact refuse_eq source _ (by omega)
  | ok parts =>
      obtain ⟨text, _⟩ := TagBody.grammatical_of_read inside
      have calleeFront : source = (front ++ opener ++ parts.leading) ++
          (parts.callee.text ++ (parts.args.text ++ (parts.blockParams.getD [] ++
            (parts.trailing ++ (closer ++ rest))))) := by
        rw [bodyFront, ← text, TagBody.text]
        simp
      have argsFront : source = (front ++ opener ++ parts.leading ++ parts.callee.text) ++
          (parts.args.text ++ (parts.blockParams.getD [] ++
            (parts.trailing ++ (closer ++ rest)))) := by
        rw [bodyFront, ← text, TagBody.text]
        simp
      have calleeStart : front.size + opener.size + parts.leading.size =
          (front ++ opener ++ parts.leading).size := by
        simp only [Text.size_append]
      have argsStart : front.size + opener.size + parts.leading.size + parts.callee.size =
          (front ++ opener ++ parts.leading ++ parts.callee.text).size := by
        rw [Text.size_append, ← calleeStart, Term.size_text]
      have calleeSpan := spanOf_term calleeFront calleeStart
      have located := locates parts.callee calleeFront calleeStart
      have finished := (gathersAll parts.args argsFront argsStart (.empty _) ⟨rfl, rfl⟩).finish_eq
      unfold Locates at located
      simp only [located]
      cases parts.callee.locate (.ofText source)
          (front.size + opener.size + parts.leading.size) with
      | error error => rfl
      | ok callee =>
          simp only [Outcome.ofExcept, Outcome.reached_bind, calleeSpan, finished,
            Gathered.isEmpty_pairs_empty, Bool.not_true]
          cases parts.args.locate (.ofText source)
              (front.size + opener.size + parts.leading.size + parts.callee.size) false with
          | error error => rfl
          | ok located =>
              simp only [Except.map, Outcome.reached_bind, spanOf_append whole, locationOf_eq,
                ← made]
              rfl

/-! ## Items -/

/-- A tag cut out of the source, with the offsets it was cut at. -/
structure Cuts where
  start : Nat
  innerStart : Nat
  stop : Nat
  opener : Text
  inner : Text
  closer : Text
  raw : Text
  span : Span

def tagBehind (source : Text) (cuts : Cuts) (bodyStart : Nat) (body : Text) : Outcome Tag := do
  let opener ← cut source cuts.start bodyStart
  tagFrom source cuts.start opener bodyStart body cuts.closer cuts.raw

def openingAt (source : Text) (markup : Markup) (cuts : Cuts) : Outcome (Item × Markup) := do
  let body ← cutFrom cuts.inner 1
  if body.head? = some '>' then refuse source (.unsupported .partialBlocks) cuts.start cuts.stop
  else if body.head? = some '*' then
    refuse source (.unsupported .decoratorBlocks) cuts.start cuts.stop
  else do
    let tag ← tagBehind source cuts (cuts.innerStart + 1) body
    return (.opening tag cuts.span, markup)

def closingAt (source : Text) (markup : Markup) (cuts : Cuts) : Outcome (Item × Markup) := do
  let path ← cutFrom cuts.inner 1
  let loc ← locationOf source cuts.span
  return (.closing ⟨cuts.raw, Text.trim path, loc⟩ cuts.span, markup)

def otherwiseAt (source : Text) (markup : Markup) (cuts : Cuts) : Outcome (Item × Markup) := do
  let loc ← locationOf source cuts.span
  return (.otherwise ⟨cuts.raw, loc⟩ cuts.span, markup)

def caretAt (source : Text) (markup : Markup) (cuts : Cuts) : Outcome (Item × Markup) := do
  let rest ← cutFrom cuts.inner 1
  if Text.trim rest = [] then otherwiseAt source markup cuts
  else refuse source (.unsupported .inverseSections) cuts.start cuts.stop

def mustacheAt (source : Text) (markup : Markup) (cuts : Cuts) : Outcome (Item × Markup) := do
  let tag ←
    tagFrom source cuts.start cuts.opener cuts.innerStart cuts.inner cuts.closer cuts.raw
  return (Item.ofMustache markup tag, markup.afterTag)

def wordAt (source : Text) (markup : Markup) (cuts : Cuts) : Outcome (Item × Markup) := do
  let spaces ← minus cuts.inner.size (Text.trimStart cuts.inner).size
  match Text.after? Item.elseWord (Text.trimStart cuts.inner) with
  | none => mustacheAt source markup cuts
  | some after =>
      if Text.trim after = [] then otherwiseAt source markup cuts
      else if after.head?.any Text.isSpace then do
        let tag ← tagBehind source cuts (cuts.innerStart + spaces + Item.elseWord.size) after
        return (.chain tag cuts.span, markup)
      else mustacheAt source markup cuts

def doubleItemAt (source : Text) (markup : Markup) (cuts : Cuts) : Outcome (Item × Markup) :=
  match cuts.inner.head? with
  | some '#' => openingAt source markup cuts
  | some '/' => closingAt source markup cuts
  | some '^' => caretAt source markup cuts
  | some '>' => refuse source (.unsupported .partials) cuts.start cuts.stop
  | some '*' => refuse source (.unsupported .decorators) cuts.start cuts.stop
  | _ => wordAt source markup cuts

/-- The item of the lexeme at `start`, and the markup behind it. -/
def itemAt (source : Text) (markup : Markup) (start : Nat) : Marks → Outcome (Item × Markup)
  | .comment valueStart valueStop stop => do
      let raw ← cut source start stop
      let value ← cut source valueStart valueStop
      let span ← spanBetween start stop
      let loc ← locationOf source span
      return (.statement (.comment ⟨raw, value, loc⟩), markup)
  | .tag triple innerStart innerStop stop => do
      let opener ← cut source start innerStart
      let closer ← cut source innerStop stop
      let inner ← cut source innerStart innerStop
      let raw ← cut source start stop
      let span ← spanBetween start stop
      if triple then do
        let tag ← tagFrom source start opener innerStart inner closer raw
        return (.statement (.mustache ⟨tag, true⟩), markup.afterTag)
      else doubleItemAt source markup ⟨start, innerStart, stop, opener, inner, closer, raw, span⟩

/-- The cuts of a tag with these parts at `start`. -/
def Cuts.ofParts (start : Nat) (opener inner closer : Text) : Cuts :=
  let raw := opener ++ inner ++ closer
  ⟨start, start + opener.size, start + raw.size, opener, inner, closer, raw,
    ⟨start, start + raw.size⟩⟩

section

variable {front opener inner closer rest : Text}

theorem mustacheAt_eq (markup : Markup)
    (whole : source = front ++ ((opener ++ inner ++ closer) ++ rest)) :
    mustacheAt source markup (.ofParts front.size opener inner closer) =
      .ofExcept ((Tag.read (.ofText source) front.size opener inner closer).map fun tag =>
        (Item.ofMustache markup tag, markup.afterTag)) := by
  rw [Outcome.ofExcept_map, ← tagFrom_eq rfl whole]
  rfl

theorem tagBehind_eq {more body : Text} (split : inner = more ++ body)
    (whole : source = front ++ ((opener ++ inner ++ closer) ++ rest)) :
    tagBehind source (.ofParts front.size opener inner closer)
        (front.size + opener.size + more.size) body =
      .ofExcept (Tag.read (.ofText source) front.size (opener ++ more) body closer) := by
  have made : opener ++ inner ++ closer = (opener ++ more) ++ body ++ closer := by
    rw [split]
    simp
  have openerFront : source = front ++ ((opener ++ more) ++ (body ++ closer ++ rest)) := by
    rw [whole, made]
    simp
  have opened := cut_append openerFront
  rw [← tagFrom_eq made whole]
  rw [Text.size_append, ← Nat.add_assoc] at opened ⊢
  simp only [tagBehind, Cuts.ofParts, opened, Outcome.reached_bind]

theorem otherwiseAt_eq (source : Text) (markup : Markup) (cuts : Cuts) :
    otherwiseAt source markup cuts =
      .reached (.otherwise ⟨cuts.raw, (LineIndex.ofText source).sourceSpan cuts.span⟩ cuts.span,
        markup) := by
  rw [otherwiseAt, locationOf_eq, Outcome.reached_bind]
  rfl

theorem wordAt_eq (markup : Markup) (form : Item.TagForm.ofInner inner = .ofWord inner)
    (whole : source = front ++ ((opener ++ inner ++ closer) ++ rest)) :
    wordAt source markup (.ofParts front.size opener inner closer) =
      .ofExcept (Item.ofLexeme (.ofText source) markup front.size
        (.tag false opener inner closer)) := by
  have spaces : minus inner.size (Text.trimStart inner).size =
      .reached (Text.size (inner.takeWhile Text.isSpace)) := by
    have parts := congrArg Text.size (@List.takeWhile_append_dropWhile _ Text.isSpace inner)
    rw [Text.size_append] at parts
    rw [minus_of_le (by rw [Text.trimStart]; omega), Text.trimStart]
    congr 1
    omega
  have same : (Cuts.ofParts front.size opener inner closer).inner = inner := rfl
  rw [wordAt, same, spaces, Outcome.reached_bind, Item.ofLexeme]
  simp only [form, Item.TagForm.ofWord]
  cases found : Text.after? Item.elseWord (Text.trimStart inner) with
  | none => exact mustacheAt_eq markup whole
  | some after =>
      simp only
      by_cases bare : Text.trim after = []
      · simp only [bare, if_true]
        exact otherwiseAt_eq source markup _
      · by_cases spaced : after.head?.any Text.isSpace = true
        · simp only [bare, spaced, if_false, if_true]
          have split : inner = inner.takeWhile Text.isSpace ++ Item.elseWord ++ after := by
            rw [List.append_assoc, ← Text.eq_append_of_after? found, Text.trimStart,
              List.takeWhile_append_dropWhile]
          have tag := tagBehind_eq split whole
          rw [Text.size_append, ← Nat.add_assoc, ← List.append_assoc] at tag
          rw [Outcome.ofExcept_map, ← tag]
          rfl
        · simp only [bare, spaced, if_false]
          exact mustacheAt_eq markup whole

theorem openingAt_eq (markup : Markup) {body : Text}
    (whole : source = front ++ ((opener ++ '#' :: body ++ closer) ++ rest)) :
    openingAt source markup (.ofParts front.size opener ('#' :: body) closer) =
      .ofExcept (Item.ofLexeme (.ofText source) markup front.size
        (.tag false opener ('#' :: body) closer)) := by
  have cutOne : cutFrom ('#' :: body) 1 = .reached body := @cutFrom_append _ ['#'] body rfl
  have same : (Cuts.ofParts front.size opener ('#' :: body) closer).inner = '#' :: body := rfl
  rw [openingAt, same, cutOne, Outcome.reached_bind, Item.ofLexeme]
  by_cases partialBlock : body.head? = some '>'
  · obtain ⟨tail, rfl⟩ := List.head?_eq_some_iff.mp partialBlock
    exact refuse_eq source _ (Nat.le_add_right _ _)
  · by_cases decorator : body.head? = some '*'
    · obtain ⟨tail, rfl⟩ := List.head?_eq_some_iff.mp decorator
      exact refuse_eq source _ (Nat.le_add_right _ _)
    · have form : Item.TagForm.ofInner ('#' :: body) = .opening body := by
        rw [Item.TagForm.ofInner]
        · rintro tail rfl
          exact partialBlock rfl
        · rintro tail rfl
          exact decorator rfl
      have tag := @tagBehind_eq source front opener _ closer rest ['#'] body rfl whole
      rw [if_neg partialBlock, if_neg decorator]
      simp only [form, Outcome.ofExcept_map, ← tag]
      rfl

theorem doubleItemAt_eq (markup : Markup)
    (whole : source = front ++ ((opener ++ inner ++ closer) ++ rest)) :
    doubleItemAt source markup (.ofParts front.size opener inner closer) =
      .ofExcept (Item.ofLexeme (.ofText source) markup front.size
        (.tag false opener inner closer)) := by
  have same : (Cuts.ofParts front.size opener inner closer).inner = inner := rfl
  rw [doubleItemAt, same]
  split
  · next head =>
      obtain ⟨body, rfl⟩ := List.head?_eq_some_iff.mp head
      exact openingAt_eq markup whole
  · next head =>
      obtain ⟨path, rfl⟩ := List.head?_eq_some_iff.mp head
      have cutOne : cutFrom ('/' :: path) 1 = .reached path := @cutFrom_append _ ['/'] path rfl
      rw [closingAt, same, cutOne, Outcome.reached_bind, locationOf_eq]
      rfl
  · next head =>
      obtain ⟨tail, rfl⟩ := List.head?_eq_some_iff.mp head
      have cutOne : cutFrom ('^' :: tail) 1 = .reached tail := @cutFrom_append _ ['^'] tail rfl
      rw [caretAt, same, cutOne, Outcome.reached_bind, Item.ofLexeme]
      by_cases bare : Text.trim tail = []
      · simp only [bare, if_true, Item.TagForm.ofInner]
        exact otherwiseAt_eq source markup _
      · simp only [bare, if_false, Item.TagForm.ofInner]
        exact refuse_eq source _ (Nat.le_add_right _ _)
  · next head =>
      obtain ⟨tail, rfl⟩ := List.head?_eq_some_iff.mp head
      exact refuse_eq source _ (Nat.le_add_right _ _)
  · next head =>
      obtain ⟨tail, rfl⟩ := List.head?_eq_some_iff.mp head
      exact refuse_eq source _ (Nat.le_add_right _ _)
  · next noHash noSlash noCaret noGreater noStar =>
      have starts : ∀ {c : Char} {tail : Text}, inner = c :: tail → inner.head? = some c := by
        intro c tail shape
        rw [shape]
        rfl
      apply wordAt_eq markup _ whole
      rw [Item.TagForm.ofInner]
      · exact fun _ shape => noHash (starts shape)
      · exact fun _ shape => noHash (starts shape)
      · exact fun _ shape => noHash (starts shape)
      · exact fun _ shape => noSlash (starts shape)
      · exact fun _ shape => noCaret (starts shape)
      · exact fun _ shape => noGreater (starts shape)
      · exact fun _ shape => noStar (starts shape)

/-- The item of a lexeme that stands in the source is found by offsets as it is read. -/
theorem itemAt_eq (markup : Markup) {lexeme : Lexeme}
    (whole : source = front ++ (lexeme.raw ++ rest)) :
    itemAt source markup front.size (.ofLexeme front.size lexeme) =
      .ofExcept (Item.ofLexeme (.ofText source) markup front.size lexeme) := by
  cases lexeme with
  | comment opener value closer =>
      have valueFront : source = (front ++ opener) ++ (value ++ (closer ++ rest)) := by
        rw [whole, Lexeme.raw]
        simp
      have cutRaw := cut_append whole
      have cutValue := cut_append valueFront
      have ends : front.size + opener.size + value.size + closer.size =
          front.size + (Lexeme.comment opener value closer).raw.size := by
        simp only [Lexeme.raw, Text.size_append, Nat.add_assoc]
      rw [Text.size_append] at cutValue
      simp only [Marks.ofLexeme, itemAt, ends, cutRaw, cutValue, Outcome.reached_bind,
        spanBetween_of_le (Nat.le_add_right _ _), locationOf_eq]
      rfl
  | tag triple opener inner closer =>
      have openerFront : source = front ++ (opener ++ (inner ++ closer ++ rest)) := by
        rw [whole, Lexeme.raw]
        simp
      have innerFront : source = (front ++ opener) ++ (inner ++ (closer ++ rest)) := by
        rw [whole, Lexeme.raw]
        simp
      have closerFront : source = (front ++ opener ++ inner) ++ (closer ++ rest) := by
        rw [whole, Lexeme.raw]
        simp
      have cutOpener := cut_append openerFront
      have cutInner := cut_append innerFront
      have cutCloser := cut_append closerFront
      have cutRaw := cut_append whole
      have ends : front.size + opener.size + inner.size + closer.size =
          front.size + (Lexeme.tag triple opener inner closer).raw.size := by
        simp only [Lexeme.raw, Text.size_append, Nat.add_assoc]
      simp only [Text.size_append] at cutInner cutCloser
      rw [ends] at cutCloser
      simp only [Marks.ofLexeme, itemAt, ends, cutRaw, cutOpener, cutInner, cutCloser,
        Outcome.reached_bind, spanBetween_of_le (Nat.le_add_right _ _)]
      cases triple with
      | true =>
          rw [if_pos rfl, Item.ofLexeme, Outcome.ofExcept_map, ← tagFrom_eq rfl whole]
          rfl
      | false => exact doubleItemAt_eq markup whole

end

end

end ByOffsets

end TemplateSelectors
