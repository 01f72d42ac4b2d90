import TemplateSelectors.LineIndex
import TemplateSelectors.TagBody.Reader
import TemplateSelectors.Template.Tree

/-!
# Tags with their places

What was read between two braces becomes a tag of the tree.  The parts follow one
another without a gap, so the offset of each is the offset of the one before plus
its size.  Here paths that spell a number or a keyword become literals, and a
positional argument after a keyword argument is refused.
-/

set_option autoImplicit false

namespace TemplateSelectors

def isDigits (text : Text) : Bool :=
  !text.isEmpty && text.all Char.isDigit

/-- An optional sign, digits and optionally a point and digits. -/
def isNumber (text : Text) : Bool :=
  let unsigned := if text.head? = some '-' then text.tail else text
  match unsigned.dropWhile (· != '.') with
  | [] => isDigits unsigned
  | _ :: fraction => isDigits (unsigned.takeWhile (· != '.')) && isDigits fraction

def literalKind? (text : Text) : Option LiteralKind :=
  if text = Literal.boolText true ∨ text = Literal.boolText false then some .boolean
  else if text = ['n', 'u', 'l', 'l'] then some .null
  else if text = ['u', 'n', 'd', 'e', 'f', 'i', 'n', 'e', 'd'] then some .undefined
  else if isNumber text then some .number
  else none

/-- Where keyword arguments stand: from the first to the last, or, without any, at
`point`. -/
def hashLoc (point : Position) (pairs : List HashPair) : SourceSpan :=
  match pairs.head?, pairs.getLast? with
  | some first, some last => ⟨first.loc.start, last.loc.stop⟩
  | _, _ => .point point

def LineIndex.errorAt (index : LineIndex) (cause : ParseCause) (span : Span) : ParseError :=
  ⟨cause, span, index.position span.start⟩

namespace TagBody

mutual

def Term.locate (index : LineIndex) (start : Nat) : Term → Except ParseError Expression
  | .path text =>
      let loc := index.sourceSpan ⟨start, start + text.size⟩
      match literalKind? text with
      | some kind => .ok (.literal ⟨kind, text, loc⟩)
      | none => .ok (.path ⟨text, loc⟩)
  | .quoted text =>
      .ok (.literal ⟨.string, text, index.sourceSpan ⟨start, start + text.size⟩⟩)
  | .call leading callee args trailing =>
      let calleeStart := start + 1 + leading.size
      let argsStart := calleeStart + callee.size
      let argsStop := argsStart + args.size
      match callee.locate index calleeStart with
      | .error error => .error error
      | .ok calleeExpression =>
          match args.locate index argsStart false with
          | .error error => .error error
          | .ok (params, pairs) =>
              .ok (.call {
                leading := leading
                callee := calleeExpression
                params := params
                hash := ⟨pairs, hashLoc (index.position argsStop) pairs⟩
                trailing := trailing
                loc := index.sourceSpan ⟨start, argsStop + trailing.size + 1⟩ })

/-- The positional and the keyword arguments of a list that starts at offset
`start`; `afterPair` says whether a keyword argument came before. -/
def Arguments.locate (index : LineIndex) (start : Nat) (afterPair : Bool) :
    Arguments → Except ParseError (List Param × List HashPair)
  | .done => .ok ([], [])
  | .positional leading value more =>
      let valueStart := start + leading.size
      let valueStop := valueStart + value.size
      if afterPair then
        .error (index.errorAt (.invalidExpression .positionalAfterKeyword)
          ⟨valueStart, valueStop⟩)
      else
        match value.locate index valueStart with
        | .error error => .error error
        | .ok expression =>
            match more.locate index valueStop false with
            | .error error => .error error
            | .ok (params, pairs) => .ok (⟨leading, expression⟩ :: params, pairs)
  | .keyword leading key separator value more =>
      let keyStart := start + leading.size
      let valueStart := keyStart + key.size + separator.size
      let valueStop := valueStart + value.size
      match value.locate index valueStart with
      | .error error => .error error
      | .ok expression =>
          match more.locate index valueStop true with
          | .error error => .error error
          | .ok (params, pairs) =>
              let loc := index.sourceSpan ⟨keyStart, valueStop⟩
              .ok (params, ⟨leading, key, separator, expression, loc⟩ :: pairs)

end

/-! ## What was located, rule by rule -/

section

variable {index : LineIndex} {start : Nat}

theorem Term.locate_path {text : Text} {expression : Expression}
    (found : (Term.path text).locate index start = .ok expression) :
    (∃ kind, literalKind? text = some kind ∧ expression =
      .literal ⟨kind, text, index.sourceSpan ⟨start, start + text.size⟩⟩) ∨
    (literalKind? text = none ∧ expression =
      .path ⟨text, index.sourceSpan ⟨start, start + text.size⟩⟩) := by
  unfold Term.locate at found
  cases kind : literalKind? text with
  | none =>
      simp only [kind, Except.ok.injEq] at found
      exact .inr ⟨rfl, found.symm⟩
  | some literal =>
      simp only [kind, Except.ok.injEq] at found
      exact .inl ⟨literal, rfl, found.symm⟩

theorem Term.locate_quoted {text : Text} {expression : Expression}
    (found : (Term.quoted text).locate index start = .ok expression) :
    expression = .literal ⟨.string, text, index.sourceSpan ⟨start, start + text.size⟩⟩ := by
  simp only [Term.locate, Except.ok.injEq] at found
  exact found.symm

theorem Term.locate_call {leading trailing : Text} {callee : Term} {args : Arguments}
    {expression : Expression}
    (found : (Term.call leading callee args trailing).locate index start = .ok expression) :
    ∃ calleeExpression params pairs hashLoc loc,
      callee.locate index (start + 1 + leading.size) = .ok calleeExpression ∧
      args.locate index (start + 1 + leading.size + callee.size) false = .ok (params, pairs) ∧
      hashLoc = TemplateSelectors.hashLoc
        (index.position (start + 1 + leading.size + callee.size + args.size)) pairs ∧
      loc = index.sourceSpan ⟨start, start + (Term.call leading callee args trailing).size⟩ ∧
      expression =
        .call ⟨leading, calleeExpression, params, ⟨pairs, hashLoc⟩, trailing, loc⟩ := by
  unfold Term.locate at found
  simp only at found
  split at found
  · cases found
  · next calleeExpression located =>
      split at found
      · cases found
      · next params pairs arguments =>
          cases found
          refine ⟨calleeExpression, params, pairs, _, _, located, arguments, rfl, ?_, rfl⟩
          simp only [Term.size]
          congr 2
          omega

theorem Arguments.locate_positional {leading : Text} {value : Term} {more : Arguments}
    {afterPair : Bool} {params : List Param} {pairs : List HashPair}
    (found : (Arguments.positional leading value more).locate index start afterPair =
      .ok (params, pairs)) :
    ∃ expression others, afterPair = false ∧
      value.locate index (start + leading.size) = .ok expression ∧
      more.locate index (start + leading.size + value.size) false = .ok (others, pairs) ∧
      params = ⟨leading, expression⟩ :: others := by
  unfold Arguments.locate at found
  simp only at found
  split at found
  · cases found
  · next unpaired =>
      split at found
      · cases found
      · next expression located =>
          split at found
          · cases found
          · next others pairs' later =>
              cases found
              exact ⟨expression, others, by simpa using unpaired, located, later, rfl⟩

theorem Arguments.locate_keyword {leading key separator : Text} {value : Term} {more : Arguments}
    {afterPair : Bool} {params : List Param} {pairs : List HashPair}
    (found : (Arguments.keyword leading key separator value more).locate index start afterPair =
      .ok (params, pairs)) :
    ∃ expression others loc,
      value.locate index (start + leading.size + key.size + separator.size) = .ok expression ∧
      more.locate index (start + leading.size + key.size + separator.size + value.size) true =
        .ok (params, others) ∧
      loc = index.sourceSpan ⟨start + leading.size,
        start + leading.size + key.size + separator.size + value.size⟩ ∧
      pairs = ⟨leading, key, separator, expression, loc⟩ :: others := by
  unfold Arguments.locate at found
  simp only at found
  split at found
  · cases found
  · next expression located =>
      split at found
      · cases found
      · next params' others later =>
          cases found
          exact ⟨expression, others, _, located, later, rfl, rfl⟩

end

end TagBody

def Tag.read (index : LineIndex) (start : Nat) (opener body closer : Text) :
    Except ParseError Tag :=
  let bodyStart := start + opener.size
  match TagBody.read body with
  | .error (offset, fault) =>
      let place := bodyStart + offset
      .error (index.errorAt (.invalidExpression fault)
        ⟨place, min (place + 1) index.size⟩)
  | .ok parts =>
      let calleeStart := bodyStart + parts.leading.size
      let argsStart := calleeStart + parts.callee.size
      match parts.callee.locate index calleeStart with
      | .error error => .error error
      | .ok callee =>
          match parts.args.locate index argsStart false with
          | .error error => .error error
          | .ok (params, pairs) =>
              let raw := opener ++ body ++ closer
              .ok {
                opener := opener
                leading := parts.leading
                callee := callee
                params := params
                hash := some ⟨pairs, hashLoc (index.position (argsStart + parts.args.size)) pairs⟩
                blockParams := parts.blockParams
                trailing := parts.trailing
                closer := closer
                loc := index.sourceSpan ⟨start, start + raw.size⟩
                source := some raw }

/-- What was read between the braces of a tag, and what it was turned into. -/
theorem Tag.exists_of_read {index : LineIndex} {start : Nat} {opener body closer : Text} {tag : Tag}
    (found : Tag.read index start opener body closer = .ok tag) :
    ∃ parts callee params pairs hashLoc, TagBody.read body = .ok parts ∧
      parts.callee.locate index (start + opener.size + parts.leading.size) = .ok callee ∧
      parts.args.locate index (start + opener.size + parts.leading.size + parts.callee.size) false =
        .ok (params, pairs) ∧
      hashLoc = TemplateSelectors.hashLoc (index.position (start + opener.size +
        parts.leading.size + parts.callee.size + parts.args.size)) pairs ∧
      tag = ⟨opener, parts.leading, callee, params, some ⟨pairs, hashLoc⟩, parts.blockParams,
        parts.trailing, closer,
        index.sourceSpan ⟨start, start + (opener ++ body ++ closer).size⟩,
        some (opener ++ body ++ closer)⟩ := by
  unfold Tag.read at found
  cases inside : TagBody.read body with
  | error fault => simp [inside] at found
  | ok parts =>
      simp only [inside] at found
      split at found
      · cases found
      · next callee located =>
          split at found
          · cases found
          · next params pairs arguments =>
              cases found
              exact ⟨parts, callee, params, pairs, _, rfl, located, arguments, rfl, rfl⟩

end TemplateSelectors
