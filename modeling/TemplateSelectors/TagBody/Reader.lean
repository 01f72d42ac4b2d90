import TemplateSelectors.ParseError
import TemplateSelectors.TagBody

/-!
# Reading the inside of a tag

Each reader takes a piece off the front of a text and returns it with what is
left.  A choice is settled by the first character, and a keyword argument is
tried before a positional one.  Every reader shortens the text, which is why the
readers of nested expressions come to an end.
-/

set_option autoImplicit false

namespace TemplateSelectors

namespace TagBody

structure Taken (α : Type) (text : Text) where
  value : α
  rest : Text
  shorter : rest.length < text.length

/-- A value read off the front of `text`, of which nothing need be used. -/
structure Passed (α : Type) (text : Text) where
  value : α
  rest : Text
  notLonger : rest.length ≤ text.length

theorem length_dropWhile_le {α : Type} (p : α → Bool) (xs : List α) :
    (xs.dropWhile p).length ≤ xs.length :=
  (List.dropWhile_sublist p).length_le

theorem length_dropWhile_lt {α : Type} {p : α → Bool} {xs : List α}
    (nonempty : xs.takeWhile p ≠ []) : (xs.dropWhile p).length < xs.length := by
  have whole := congrArg List.length (List.takeWhile_append_dropWhile (p := p) (l := xs))
  have := List.length_pos_iff.mpr nonempty
  rw [List.length_append] at whole
  omega

def segment? : Text → Option (Text × Text)
  | '.' :: '.' :: rest => some (['.', '.'], rest)
  | '[' :: inner =>
      match inner.dropWhile (· != ']') with
      | [] => none
      | close :: rest => some ('[' :: inner.takeWhile (· != ']') ++ [close], rest)
  | text =>
      if text.takeWhile isIdChar = [] then none
      else some (text.takeWhile isIdChar, text.dropWhile isIdChar)

theorem eq_append_of_segment? {text piece rest : Text}
    (found : segment? text = some (piece, rest)) : text = piece ++ rest ∧ piece ≠ [] := by
  unfold segment? at found
  split at found
  · simp only [Option.some.injEq, Prod.mk.injEq] at found
    obtain ⟨rfl, rfl⟩ := found
    simp
  · next inner =>
      split at found
      · simp at found
      · next close after closing =>
          simp only [Option.some.injEq, Prod.mk.injEq] at found
          obtain ⟨rfl, rfl⟩ := found
          have whole := List.takeWhile_append_dropWhile (p := (· != ']')) (l := inner)
          rw [closing] at whole
          simp [whole]
  · split at found
    · simp at found
    · next nonempty =>
        simp only [Option.some.injEq, Prod.mk.injEq] at found
        obtain ⟨rfl, rfl⟩ := found
        exact ⟨List.takeWhile_append_dropWhile.symm, nonempty⟩

theorem length_lt_of_eq_append {text piece rest : Text}
    (split : text = piece ++ rest ∧ piece ≠ []) : rest.length < text.length := by
  have := List.length_pos_iff.mpr split.2
  rw [split.1, List.length_append]
  omega

def moreSegments (text : Text) : Text × Text :=
  match text with
  | [] => ([], [])
  | c :: after =>
      if c = '.' ∨ c = '/' then
        match _found : segment? after with
        | none => ([], c :: after)
        | some (piece, rest) =>
            let more := moreSegments rest
            (c :: piece ++ more.1, more.2)
      else ([], c :: after)
termination_by text.length
decreasing_by
  have := length_lt_of_eq_append (eq_append_of_segment? _found)
  simp only [List.length_cons]
  omega

theorem moreSegments_append (text : Text) :
    (moreSegments text).1 ++ (moreSegments text).2 = text := by
  fun_induction moreSegments text with
  | case1 => rfl
  | case2 => rfl
  | case3 c after separator piece rest found more inductionHypothesis =>
      have := (eq_append_of_segment? found).1
      simp_all [more]
  | case4 => rfl

def path? : Text → Option (Text × Text)
  | '@' :: text =>
      (segment? text).map fun (piece, rest) =>
        let more := moreSegments rest
        ('@' :: piece ++ more.1, more.2)
  | text =>
      (segment? text).map fun (piece, rest) =>
        let more := moreSegments rest
        (piece ++ more.1, more.2)

theorem eq_append_of_path? {text piece rest : Text} (found : path? text = some (piece, rest)) :
    text = piece ++ rest ∧ piece ≠ [] := by
  unfold path? at found
  split at found <;>
    (simp only [Option.map_eq_some_iff, Prod.mk.injEq] at found
     obtain ⟨⟨first, left⟩, segment, rfl, rfl⟩ := found
     have whole := eq_append_of_segment? segment
     have more := moreSegments_append left
     simp_all)

/-- Reads on to the closing `quote`.  A backslash takes the next character along. -/
def closeQuote (quote : Char) : Text → Option (Text × Text)
  | [] => none
  | '\\' :: c :: rest =>
      (closeQuote quote rest).map fun (piece, left) => ('\\' :: c :: piece, left)
  | c :: rest =>
      if c = quote then some ([c], rest)
      else (closeQuote quote rest).map fun (piece, left) => (c :: piece, left)

theorem eq_append_of_closeQuote {quote : Char} {text piece rest : Text}
    (found : closeQuote quote text = some (piece, rest)) : text = piece ++ rest := by
  fun_induction closeQuote quote text generalizing piece rest with
  | case1 => simp at found
  | case2 c after inductionHypothesis =>
      simp only [Option.map_eq_some_iff, Prod.mk.injEq] at found
      obtain ⟨⟨inner, left⟩, closed, rfl, rfl⟩ := found
      simp [inductionHypothesis closed]
  | case3 =>
      simp only [Option.some.injEq, Prod.mk.injEq] at found
      obtain ⟨rfl, rfl⟩ := found
      rfl
  | case4 c after _ _ inductionHypothesis =>
      simp only [Option.map_eq_some_iff, Prod.mk.injEq] at found
      obtain ⟨⟨inner, left⟩, closed, rfl, rfl⟩ := found
      simp [inductionHypothesis closed]

def quoted? : Text → Option (Text × Text)
  | [] => none
  | c :: rest =>
      if c = '"' ∨ c = '\'' then (closeQuote c rest).map fun (piece, left) => (c :: piece, left)
      else none

theorem eq_append_of_quoted? {text piece rest : Text} (found : quoted? text = some (piece, rest)) :
    text = piece ++ rest ∧ piece ≠ [] := by
  cases text with
  | nil => simp [quoted?] at found
  | cons c after =>
      by_cases quote : c = '"' ∨ c = '\''
      · simp only [quoted?, quote, if_true, Option.map_eq_some_iff, Prod.mk.injEq] at found
        obtain ⟨⟨inner, left⟩, closed, rfl, rfl⟩ := found
        simp [eq_append_of_closeQuote closed]
      · simp [quoted?, quote] at found

/-- Whether white space, `as`, white space and a bar come next.  Here any white
space counts, while block parameters are set off by layout only. -/
def startsBlockParams (text : Text) : Bool :=
  text.head?.any Text.isSpace &&
    match Text.trimStart text with
    | 'a' :: 's' :: after =>
        after.head?.any Text.isSpace && (Text.trimStart after).head? == some '|'
    | _ => false

def barred? : Text → Option (Text × Text)
  | '|' :: names =>
      match names.dropWhile (· != '|') with
      | [] => none
      | bar :: rest => some ('|' :: names.takeWhile (· != '|') ++ [bar], rest)
  | _ => none

def blockParams? (text : Text) : Option (Text × Text) :=
  if startsBlockParams text = true ∧ text.takeWhile isLayout ≠ [] then
    match text.dropWhile isLayout with
    | 'a' :: 's' :: after =>
        if after.takeWhile isLayout = [] then none
        else
          (barred? (after.dropWhile isLayout)).map fun (names, rest) =>
            (text.takeWhile isLayout ++ 'a' :: 's' :: after.takeWhile isLayout ++ names, rest)
    | _ => none
  else none

def key? (text : Text) : Option ((Text × Text) × Text) :=
  match (text.dropWhile isIdChar).dropWhile isLayout with
  | '=' :: behind =>
      if text.takeWhile isIdChar = [] then none
      else
        some ((text.takeWhile isIdChar,
          (text.dropWhile isIdChar).takeWhile isLayout ++ '=' :: behind.takeWhile isLayout),
          behind.dropWhile isLayout)
  | _ => none

theorem eq_append_of_key? {text key separator rest : Text}
    (found : key? text = some ((key, separator), rest)) :
    text = key ++ separator ++ rest ∧ key ≠ [] := by
  simp only [key?] at found
  split at found
  · next behind equals =>
      split at found
      · simp at found
      · next nonempty =>
          simp only [Option.some.injEq, Prod.mk.injEq] at found
          obtain ⟨⟨rfl, rfl⟩, rfl⟩ := found
          have h₁ := List.takeWhile_append_dropWhile (p := isIdChar) (l := text)
          have h₂ := List.takeWhile_append_dropWhile (p := isLayout) (l := text.dropWhile isIdChar)
          have h₃ := List.takeWhile_append_dropWhile (p := isLayout) (l := behind)
          rw [equals] at h₂
          refine ⟨?_, nonempty⟩
          simp only [List.append_assoc, List.cons_append, h₃, h₂, h₁]
  · simp at found

theorem length_lt_of_key? {text rest : Text} {key : Text × Text}
    (found : key? text = some (key, rest)) : rest.length < text.length := by
  have whole := eq_append_of_key? found
  rw [List.append_assoc] at whole
  have := length_lt_of_eq_append whole
  rw [List.length_append] at this
  omega

/-- Where reading an expression gives up: at its start, or behind the mark of an
argument. -/
def stuckAt : Text → Text
  | '@' :: rest => rest
  | text => text

mutual

def term? (text : Text) : Option (Taken Term text) :=
  match text with
  | [] => none
  | c :: inside =>
      if c = '(' then
        match term? (inside.dropWhile isLayout) with
        | none => none
        | some callee =>
            match arguments callee.rest with
            | .error _ => none
            | .ok args =>
                match closing : args.rest.dropWhile isLayout with
                | [] => none
                | d :: rest =>
                    if d = ')' then
                      some {
                        value := .call (inside.takeWhile isLayout) callee.value args.value
                          (args.rest.takeWhile isLayout)
                        rest := rest
                        shorter := by
                          have h₁ := length_dropWhile_le isLayout inside
                          have h₂ := callee.shorter
                          have h₃ := args.notLonger
                          have h₄ := length_dropWhile_le isLayout args.rest
                          rw [closing] at h₄
                          simp only [List.length_cons] at *
                          omega }
                    else none
      else
        match string : quoted? (c :: inside) with
        | some (piece, rest) =>
            some ⟨.quoted piece, rest, length_lt_of_eq_append (eq_append_of_quoted? string)⟩
        | none =>
            match path : path? (c :: inside) with
            | some (piece, rest) =>
                some ⟨.path piece, rest, length_lt_of_eq_append (eq_append_of_path? path)⟩
            | none => none
termination_by text.length
decreasing_by
  · have h₁ := length_dropWhile_le isLayout inside
    simp only [List.length_cons]
    omega
  · have h₁ := length_dropWhile_le isLayout inside
    have h₂ := callee.shorter
    simp only [List.length_cons]
    omega

def pair? (text : Text) : Option (Taken ((Text × Text) × Term) text) :=
  match found : key? text with
  | none => none
  | some (key, behind) =>
      match term? behind with
      | none => none
      | some value =>
          some ⟨(key, value.value), value.rest,
            Nat.lt_trans value.shorter (length_lt_of_key? found)⟩
termination_by text.length
decreasing_by exact length_lt_of_key? found

/-- Reads arguments, each with the layout before it, up to the end, a closing
parenthesis or block parameters.  A failure gives the text at which reading
stopped. -/
def arguments (text : Text) : Except Text (Passed Arguments text) :=
  if layout : text.takeWhile isLayout = [] then .ok ⟨.done, text, Nat.le_refl _⟩
  else if text.dropWhile isLayout = [] ∨ (text.dropWhile isLayout).head? = some ')' ∨
      startsBlockParams text = true then
    .ok ⟨.done, text, Nat.le_refl _⟩
  else
    match pair? (text.dropWhile isLayout) with
    | some pair =>
        match arguments pair.rest with
        | .error stuck => .error stuck
        | .ok more =>
            .ok {
              value := .keyword (text.takeWhile isLayout) pair.value.1.1 pair.value.1.2
                pair.value.2 more.value
              rest := more.rest
              notLonger := by
                have h₁ := length_dropWhile_lt layout
                have h₂ := pair.shorter
                have h₃ := more.notLonger
                omega }
    | none =>
        match term? (text.dropWhile isLayout) with
        | none => .error (stuckAt (text.dropWhile isLayout))
        | some value =>
            match arguments value.rest with
            | .error stuck => .error stuck
            | .ok more =>
                .ok {
                  value := .positional (text.takeWhile isLayout) value.value more.value
                  rest := more.rest
                  notLonger := by
                    have h₁ := length_dropWhile_lt layout
                    have h₂ := value.shorter
                    have h₃ := more.notLonger
                    omega }
termination_by text.length
decreasing_by
  · exact length_dropWhile_lt layout
  · exact Nat.lt_trans pair.shorter (length_dropWhile_lt layout)
  · exact length_dropWhile_lt layout
  · exact Nat.lt_trans value.shorter (length_dropWhile_lt layout)

end

/-- Reads a whole tag body.  A failure gives the offset at which reading stopped
and the reason. -/
def read (text : Text) : Except (Nat × ExpressionFault) TagBody :=
  let stopped (rest : Text) : Nat := Text.size text - Text.size rest
  let failure (rest : Text) : Nat × ExpressionFault :=
    (stopped rest, if Text.trim text = [] then .empty else .expected)
  match term? (text.dropWhile isLayout) with
  | none => .error (failure (stuckAt (text.dropWhile isLayout)))
  | some callee =>
      match arguments callee.rest with
      | .error rest => .error (failure rest)
      | .ok args =>
          let (names, behind) :=
            match blockParams? args.rest with
            | some (names, behind) => (some names, behind)
            | none => (none, args.rest)
          match behind.dropWhile isLayout with
          | [] =>
              .ok {
                leading := text.takeWhile isLayout
                callee := callee.value
                args := args.value
                blockParams := names
                trailing := behind.takeWhile isLayout }
          | found :: rest => .error (stopped (found :: rest), .unexpected found)

end TagBody

end TemplateSelectors
