import Mathlib
import TemplateSelectors.Proofs.Derivation
import TemplateSelectors.Proofs.PromotedTag

/-!
# A body between braces

The scanner looks for the end of a tag before its inside is read, and it knows of strings but not
of brackets and bars.  A body that the grammar accepts is read as it stands between two braces
exactly if the scanner gets over it: outside of what looks like a string to it there are no two
closing braces.  A quote in brackets or between bars can look like the start of a string.
-/

set_option autoImplicit false

namespace TemplateSelectors

open TagBody (Quoted QuoteEnd Layout Gap Identifier)

/-! ## What the scanner gets over -/

/-- A text of strings and other characters among which no two closing braces come in a row. -/
inductive Unbroken : Text → Prop where
  | nil : Unbroken []
  | string {piece rest : Text} (quoted : Quoted piece) (more : Unbroken rest) :
      Unbroken (piece ++ rest)
  | char {c : Char} {rest : Text} (unquoted : ¬(c = '"' ∨ c = '\''))
      (single : c = '}' → rest.head? ≠ some '}') (more : Unbroken rest) : Unbroken (c :: rest)

/-- The scanner passes over the text and is outside of strings behind it. -/
def Passes (text : Text) : Prop :=
  Carries ['}', '}'] none text none

theorem Passes.append {front back : Text} (left : Passes front) (right : Passes back) :
    Passes (front ++ back) :=
  Carries.append left right

instance (text : Text) : Decidable (Plain text) :=
  List.decidableBAll (fun c => (c ≠ '"' ∧ c ≠ '\'') ∧ c ≠ '\\' ∧ c ≠ '}') text

theorem passes_of_plain {text : Text} (plain : Plain text) : Passes text :=
  carries_of_plain braces_two quoteState_none plain

theorem carries_of_quoteEnd {quote : Char} (unescaped : quote ≠ '\\') {piece : Text}
    (tail : QuoteEnd quote piece) : Carries ['}', '}'] (some quote) piece none := by
  induction tail with
  | close =>
      refine .cons ?_ (.nil none)
      intro behind
      rw [splitAtClose_inside fun same => absurd same unescaped, if_pos rfl]
  | @escaped c rest more inductionHypothesis =>
      intro behind
      simp only [List.cons_append]
      rw [splitAtClose_escaped, inductionHypothesis]
      cases splitAtClose ['}', '}'] none behind with
      | none => rfl
      | some halves => rfl
  | @plain c rest inside plainChar more inductionHypothesis =>
      refine .cons ?_ inductionHypothesis
      intro behind
      rw [splitAtClose_inside fun same => absurd same plainChar, if_neg inside]

theorem passes_of_quoted {piece : Text} (quoted : Quoted piece) : Passes piece := by
  cases quoted with
  | double tail =>
      have inside := carries_of_quoteEnd (by decide) tail
      exact .cons (fun behind => splitAtClose_opens (.inl rfl)) inside
  | single tail =>
      have inside := carries_of_quoteEnd (by decide) tail
      exact .cons (fun behind => splitAtClose_opens (.inr rfl)) inside

theorem Unbroken.passes {text : Text} (unbroken : Unbroken text)
    (last : text.getLast? ≠ some '}') : Passes text := by
  induction unbroken with
  | nil => exact .nil none
  | @string piece rest quoted more inductionHypothesis =>
      refine (passes_of_quoted quoted).append (inductionHypothesis ?_)
      intro ends
      rw [List.getLast?_append, ends] at last
      exact last rfl
  | @char c rest unquoted single more inductionHypothesis =>
      refine .cons ?_ (inductionHypothesis (getLast?_tail last))
      intro behind
      refine splitAtClose_outside unquoted ?_
      by_cases brace : c = '}'
      · -- another character follows, and it is no brace
        subst brace
        cases rest with
        | nil => exact absurd rfl last
        | cons d rest =>
            have other : d ≠ '}' := by simpa using single rfl
            simp [Text.after?, Ne.symm other]
      · exact braces_two.after?_eq_none brace _

theorem Unbroken.concat {text : Text} (unbroken : Unbroken text) {mark : Char}
    (unquoted : ¬(mark = '"' ∨ mark = '\'')) (other : mark ≠ '}') : Unbroken (text ++ [mark]) := by
  induction unbroken with
  | nil => exact .char unquoted (fun brace => absurd brace other) .nil
  | @string piece rest quoted more inductionHypothesis =>
      rw [List.append_assoc]
      exact .string quoted inductionHypothesis
  | @char c rest unquotedFirst single more inductionHypothesis =>
      refine .char unquotedFirst ?_ inductionHypothesis
      intro brace
      cases rest with
      | nil => simpa using other
      | cons d rest => exact single brace

/-- What is read from `quote` on, if that is the quote that is open. -/
def UnbrokenFrom : (quote : Option Char) → Text → Prop
  | none, text => Unbroken text
  | some quote, text => ∃ piece rest, text = piece ++ rest ∧ QuoteEnd quote piece ∧ Unbroken rest

/-- What the scanner finds up to the end of a tag is unbroken. -/
theorem unbrokenFrom_of_splitAtClose {quote : Option Char} {text front behind : Text}
    (found : splitAtClose ['}', '}'] quote text = some (front, behind)) :
    UnbrokenFrom quote front := by
  fun_induction splitAtClose ['}', '}'] quote text generalizing front with
  | case1 => cases found
  | case2 quote c rest inductionHypothesis =>
      obtain ⟨⟨front', behind'⟩, later, same⟩ := Option.map_eq_some_iff.mp found
      cases same
      obtain ⟨piece, more, rfl, tail, unbroken⟩ := inductionHypothesis later
      exact ⟨_, more, rfl, .escaped c tail, unbroken⟩
  | case3 quote c rest taken inductionHypothesis =>
      obtain ⟨⟨front', behind'⟩, later, same⟩ := Option.map_eq_some_iff.mp found
      cases same
      have others := inductionHypothesis later
      by_cases closes : c = quote
      · subst closes
        rw [if_pos rfl] at others
        exact ⟨[c], _, rfl, .close, others⟩
      · rw [if_neg closes] at others later
        obtain ⟨piece, more, rfl, tail, unbroken⟩ := others
        refine ⟨c :: piece, more, rfl, .plain closes ?_ tail, unbroken⟩
        rintro rfl
        -- a backslash that takes nothing along is the last character
        cases rest with
        | nil => cases later
        | cons d rest => exact taken d rest rfl rfl
  | case4 c rest opens inductionHypothesis =>
      obtain ⟨⟨front', behind'⟩, later, same⟩ := Option.map_eq_some_iff.mp found
      cases same
      obtain ⟨piece, more, rfl, tail, unbroken⟩ := inductionHypothesis later
      have quoted : Quoted (c :: piece) := by
        rcases opens with rfl | rfl
        · exact .double tail
        · exact .single tail
      exact .string quoted unbroken
  | case5 c rest ordinary behind' here =>
      cases found
      exact .nil
  | case6 c rest ordinary absent inductionHypothesis =>
      obtain ⟨⟨front', behind'⟩, later, same⟩ := Option.map_eq_some_iff.mp found
      cases same
      refine .char ordinary ?_ (inductionHypothesis later)
      rintro rfl brace
      obtain ⟨more, rfl⟩ := List.head?_eq_some_iff.mp brace
      rw [eq_append_of_splitAtClose later] at absent
      simp [Text.after?] at absent

theorem Passes.closed {text : Text} (passes : Passes text) :
    splitAtClose ['}', '}'] none (text ++ ['}', '}']) = some (text, []) := by
  have whole := passes.whole (rfl : splitAtClose ['}', '}'] none ['}', '}'] = _)
  rwa [List.append_nil] at whole

theorem Passes.unbroken {text : Text} (passes : Passes text) : Unbroken text :=
  unbrokenFrom_of_splitAtClose passes.closed

/-! ## Derivations -/

namespace TagBody.Tree

/-- The texts between brackets. -/
def Segment.enclosed : Segment → List Text
  | .parent => []
  | .bracketed inner _ => [inner]
  | .name _ _ => []

def Path.enclosed (path : Path) : List Text :=
  path.first.enclosed ++ path.more.flatMap fun (_, segment) => segment.enclosed

mutual

def Term.enclosed : Term → List Text
  | .path path => path.enclosed
  | .quoted _ => []
  | .call _ _ callee args _ _ => callee.enclosed ++ args.enclosed

def Arguments.enclosed : Arguments → List Text
  | .done => []
  | .positional _ _ value more => value.enclosed ++ more.enclosed
  | .keyword _ _ _ _ _ value more => value.enclosed ++ more.enclosed

end

/-- The texts between brackets and bars, of which the grammar takes any. -/
def enclosed (tree : Tree) : List Text :=
  tree.callee.enclosed ++ tree.args.enclosed ++ tree.blockParams.toList.map BlockParams.inner

theorem passes_enclosed {inner : Text} (unbroken : Unbroken inner) {opening closing : Char}
    (plain : Plain [opening]) (unquoted : ¬(closing = '"' ∨ closing = '\''))
    (other : closing ≠ '}') : Passes (opening :: inner ++ [closing]) := by
  refine (passes_of_plain plain).append ((unbroken.concat unquoted other).passes ?_)
  simpa using other

theorem Segment.passes {segment : Segment}
    (unbroken : ∀ inner ∈ segment.enclosed, Unbroken inner) : Passes segment.yield := by
  cases segment with
  | parent => exact passes_of_plain (by decide)
  | bracketed inner closed =>
      exact passes_enclosed (unbroken inner List.mem_cons_self) (by decide) (by decide) (by decide)
  | name text identifier => exact passes_of_plain (plain_of_idChars identifier.1)

theorem passes_segments {more : List (Divider × Segment)}
    (unbroken : ∀ inner ∈ more.flatMap fun (_, segment) => segment.enclosed, Unbroken inner) :
    Passes (yieldSegments more) := by
  induction more with
  | nil => exact .nil none
  | cons first more inductionHypothesis =>
      obtain ⟨divider, segment⟩ := first
      rw [List.flatMap_cons, List.forall_mem_append] at unbroken
      have mark : Passes [divider.char] := by
        cases divider with
        | dot => exact passes_of_plain (by decide)
        | slash => exact passes_of_plain (by decide)
      exact (mark.append (Segment.passes unbroken.1)).append (inductionHypothesis unbroken.2)

theorem Path.passes {path : Path} (unbroken : ∀ inner ∈ path.enclosed, Unbroken inner) :
    Passes path.yield := by
  obtain ⟨data, first, more⟩ := path
  rw [Path.enclosed, List.forall_mem_append] at unbroken
  have segments := (Segment.passes unbroken.1).append (passes_segments unbroken.2)
  cases data with
  | false => exact segments
  | true => exact (passes_of_plain (by decide : Plain ['@'])).append segments

theorem passes_of_layout {layout : Text} (spaces : Layout layout) : Passes layout :=
  passes_of_plain (plain_of_layout spaces)

theorem Separator.passes (separator : Separator) : Passes separator.yield :=
  (passes_of_layout separator.left).append
    ((passes_of_plain (by decide : Plain ['='])).append (passes_of_layout separator.right))

mutual

theorem Term.passes (term : Term) (unbroken : ∀ inner ∈ term.enclosed, Unbroken inner) :
    Passes term.yield := by
  cases term with
  | path path => exact Path.passes unbroken
  | quoted quotation => exact passes_of_quoted quotation.rule
  | call leading left callee args trailing right =>
      rw [Term.enclosed, List.forall_mem_append] at unbroken
      have opening : Passes ('(' :: leading) :=
        (passes_of_plain (by decide : Plain ['('])).append (passes_of_layout left)
      have inside := (opening.append (Term.passes callee unbroken.1)).append
        (Arguments.passes args unbroken.2)
      exact (inside.append (passes_of_layout right)).append (passes_of_plain (by decide))

theorem Arguments.passes (args : Arguments) (unbroken : ∀ inner ∈ args.enclosed, Unbroken inner) :
    Passes args.yield := by
  cases args with
  | done => exact .nil none
  | positional leading gap value more =>
      rw [Arguments.enclosed, List.forall_mem_append] at unbroken
      exact ((passes_of_layout gap.1).append (Term.passes value unbroken.1)).append
        (Arguments.passes more unbroken.2)
  | keyword leading gap key identifier separator value more =>
      rw [Arguments.enclosed, List.forall_mem_append] at unbroken
      have name := (passes_of_layout gap.1).append (passes_of_plain (plain_of_idChars identifier.1))
      exact ((name.append separator.passes).append (Term.passes value unbroken.1)).append
        (Arguments.passes more unbroken.2)

end

theorem BlockParams.passes {names : BlockParams} (unbroken : Unbroken names.inner) :
    Passes names.yield := by
  have word : Passes ['a', 's'] := passes_of_plain (by decide)
  have front := ((passes_of_layout names.left.1).append word).append
    (passes_of_layout names.right.1)
  have whole := front.append (passes_enclosed unbroken (by decide : Plain ['|']) (by decide)
    (by decide : '|' ≠ '}'))
  simpa [BlockParams.yield] using whole

theorem passes_yield {tree : Tree} (unbroken : ∀ inner ∈ tree.enclosed, Unbroken inner) :
    Passes tree.yield := by
  rw [enclosed, List.forall_mem_append, List.forall_mem_append] at unbroken
  obtain ⟨⟨callee, args⟩, names⟩ := unbroken
  have front := ((passes_of_layout tree.left).append (Term.passes tree.callee callee)).append
    (Arguments.passes tree.args args)
  have bars : Passes ((tree.blockParams.map BlockParams.yield).getD []) := by
    cases found : tree.blockParams with
    | none => exact .nil none
    | some block => exact BlockParams.passes (names block.inner (by simp [found]))
  exact (front.append bars).append (passes_of_layout tree.right)

end TagBody.Tree

/-! ## Places in a body -/

namespace TagBody

def Arguments.KeywordsOnly : Arguments → Prop
  | .done => True
  | .positional _ _ _ => False
  | .keyword _ _ _ _ more => more.KeywordsOnly

mutual

/-- In every list of arguments the positional ones come first. -/
def Term.Ordered : Term → Prop
  | .path _ => True
  | .quoted _ => True
  | .call _ callee args _ => callee.Ordered ∧ args.Ordered

def Arguments.Ordered : Arguments → Prop
  | .done => True
  | .positional _ value more => value.Ordered ∧ more.Ordered
  | .keyword _ _ _ value more => value.Ordered ∧ more.KeywordsOnly ∧ more.Ordered

end

def Ordered (body : TagBody) : Prop :=
  body.callee.Ordered ∧ body.args.Ordered

mutual

theorem Term.exists_locate (index : LineIndex) (start : Nat) (term : Term)
    (ordered : term.Ordered) : ∃ expression, term.locate index start = .ok expression := by
  cases term with
  | path text =>
      rw [Term.locate]
      cases literalKind? text with
      | none => exact ⟨_, rfl⟩
      | some kind => exact ⟨_, rfl⟩
  | quoted text => exact ⟨_, rfl⟩
  | call leading callee args trailing =>
      obtain ⟨expression, located⟩ :=
        Term.exists_locate index (start + 1 + leading.size) callee ordered.1
      obtain ⟨params, pairs, arguments⟩ := Arguments.exists_locate index
        (start + 1 + leading.size + callee.size) false args ordered.2 (by simp)
      rw [Term.locate]
      simp only [located, arguments]
      exact ⟨_, rfl⟩

theorem Arguments.exists_locate (index : LineIndex) (start : Nat) (afterPair : Bool)
    (args : Arguments) (ordered : args.Ordered) (named : afterPair = true → args.KeywordsOnly) :
    ∃ params pairs, args.locate index start afterPair = .ok (params, pairs) := by
  cases args with
  | done => exact ⟨_, _, rfl⟩
  | positional leading value more =>
      have unpaired : afterPair = false := by
        cases afterPair with
        | false => rfl
        | true => exact absurd (named rfl) id
      obtain ⟨expression, located⟩ :=
        Term.exists_locate index (start + leading.size) value ordered.1
      obtain ⟨params, pairs, later⟩ := Arguments.exists_locate index
        (start + leading.size + value.size) false more ordered.2 (by simp)
      rw [Arguments.locate]
      simp only [unpaired, located, later, Bool.false_eq_true, if_false]
      exact ⟨_, _, rfl⟩
  | keyword leading key separator value more =>
      obtain ⟨expression, located⟩ := Term.exists_locate index
        (start + leading.size + key.size + separator.size) value ordered.1
      obtain ⟨params, pairs, later⟩ := Arguments.exists_locate index
        (start + leading.size + key.size + separator.size + value.size) true more ordered.2.2
        fun _ => ordered.2.1
      rw [Arguments.locate]
      simp only [located, later]
      exact ⟨_, _, rfl⟩

end

end TagBody

/-- A tag that was read has the parts that were found in its inside. -/
theorem Tag.body_of_read {index : LineIndex} {start : Nat} {opener inside closer : Text} {tag : Tag}
    {body : TagBody} (read : Tag.read index start opener inside closer = .ok tag)
    (found : TagBody.read inside = .ok body) : tag.body = body := by
  obtain ⟨wellFormed, _, text, _⟩ := Tag.wellFormed_of_read read
  have again := TagBody.read_of_grammatical wellFormed.grammatical
  rw [text, found] at again
  exact (Except.ok.inj again).symm

theorem Tag.exists_read (index : LineIndex) (start : Nat) (opener closer : Text) {inside : Text}
    {body : TagBody} (found : TagBody.read inside = .ok body) (ordered : body.Ordered) :
    ∃ tag, Tag.read index start opener inside closer = .ok tag := by
  obtain ⟨callee, located⟩ := TagBody.Term.exists_locate index
    (start + opener.size + body.leading.size) body.callee ordered.1
  obtain ⟨params, pairs, arguments⟩ := TagBody.Arguments.exists_locate index
    (start + opener.size + body.leading.size + body.callee.size) false body.args ordered.2 (by simp)
  rw [Tag.read, found]
  simp only [located, arguments]
  exact ⟨_, rfl⟩

/-! ## Between braces -/

def Text.firstWord (text : Text) : Text :=
  text.trimStart.takeWhile fun c => !isSpace c

def betweenBraces (inside : Text) : Text :=
  ['{', '{'] ++ (inside ++ ['}', '}'])

namespace TagBody.Grammatical

variable {body : TagBody} (rule : body.Grammatical)
include rule

theorem exists_head : ∃ c rest, body.text = c :: rest ∧ (isLayout c = true ∨ isStart c = true) := by
  obtain ⟨first, rest, text, start⟩ := Term.starts rule.callee
  rw [text_eq, text]
  cases front : body.leading with
  | nil => exact ⟨first, rest ++ body.tail, rfl, .inr start⟩
  | cons c more =>
      exact ⟨c, _, rfl, .inl (rule.leading c (by rw [front]; exact List.mem_cons_self))⟩

theorem head?_ne {mark : Char} (other : isLayout mark = false ∧ isStart mark = false)
    (rest : Text) : (body.text ++ rest).head? ≠ some mark := by
  obtain ⟨c, more, text, starts⟩ := rule.exists_head
  rw [text]
  rintro ⟨⟩
  rw [other.1, other.2] at starts
  simp at starts

/-- A body is that of a mustache, unless its first word is the one that divides a block. -/
theorem ofInner_eq_mustache (word : body.text.firstWord ≠ Item.elseWord) :
    Item.TagForm.ofInner body.text = .mustache := by
  have plain : ∀ c, body.text.head? = some c → c ∉ Item.TagForm.marks := by
    intro c head mark
    have unused : (Item.TagForm.marks.all fun d => !isLayout d && !isStart d) = true := by
      decide +kernel
    have other : isLayout c = false ∧ isStart c = false := by
      simpa using List.all_eq_true.mp unused c mark
    have differs := rule.head?_ne other []
    rw [List.append_nil] at differs
    exact differs head
  rw [Item.TagForm.ofInner_eq_ofWord plain, Item.TagForm.ofWord_eq_mustache_iff]
  intro after found
  have visible : ∀ c ∈ Item.elseWord, (!Text.isSpace c) = true :=
    List.all_eq_true.mp (by decide +kernel)
  rw [Text.firstWord, Text.eq_append_of_after? found, List.takeWhile_append_of_pos visible] at word
  cases after with
  | nil => exact absurd (List.append_nil _) word
  | cons c after =>
      cases space : Text.isSpace c with
      | true => simp [space] at word
      | false => exact ⟨Text.trim_ne_nil List.mem_cons_self space, by simp [space]⟩

theorem reads_braced (unbroken : Unbroken body.text) :
    Lexeme.Reads (body.text ++ ['}', '}'])
      (.tag false ['{', '{'] body.text ['}', '}']) [] := by
  have closed := (unbroken.passes (rule.getLast?_ne (by decide))).closed
  have marked : Lexeme.leadingTilde (body.text ++ ['}', '}']) = ([], body.text ++ ['}', '}']) := by
    have other : (body.text ++ ['}', '}']).head? ≠ some '~' := rule.head?_ne (by decide) _
    unfold Lexeme.leadingTilde
    split
    · next same =>
        rw [same] at other
        exact absurd rfl other
    · rfl
  have unmarked : Lexeme.trailingTilde body.text = (body.text, []) :=
    if_neg (rule.getLast?_ne (by decide))
  have reads := Lexeme.Reads.tag (rule.head?_ne (by decide) _) marked
    (rule.head?_ne (by decide) _) closed
  rw [unmarked] at reads
  exact reads

/-- A body between braces is one item, if the scanner gets over it. -/
theorem exists_scans_braced (found : TagBody.read body.text = .ok body) (ordered : body.Ordered)
    (word : body.text.firstWord ≠ Item.elseWord) (unbroken : Unbroken body.text)
    (index : LineIndex) :
    ∃ tag, Tag.read index 0 ['{', '{'] body.text ['}', '}'] = .ok tag ∧
      Item.Scans index .initial 0 (betweenBraces body.text)
        [.statement (.mustache ⟨tag, false⟩)] := by
  obtain ⟨tag, read⟩ := Tag.exists_read index 0 ['{', '{'] ['}', '}'] found ordered
  refine ⟨tag, read, ?_⟩
  have run : textRun false false (betweenBraces body.text) =
      ([], '{' :: '{' :: (body.text ++ ['}', '}'])) := by
    simp [betweenBraces, textRun]
  have made : Item.ofLexeme index .initial 0 (.tag false ['{', '{'] body.text ['}', '}']) =
      .ok (.statement (.mustache ⟨tag, false⟩), Markup.initial.afterTag) :=
    Item.ofLexeme_eq_ok_iff.mpr (.mustache (rule.ofInner_eq_mustache word) read)
  exact .lexeme run (Lexeme.read_of_reads (rule.reads_braced unbroken)) made
    (@Item.Scans.last index _ _ [] [] rfl)

end TagBody.Grammatical

/-- A mustache outside of elements comes from a tag between two braces. -/
theorem exists_lexeme_of_mustache {index : LineIndex} {markup markup' : Markup} {start : Nat}
    {lexeme : Lexeme} {item : Item} {items : List Item} {tag : Tag} {stop : Break}
    (derived : Template.Derives index (item :: items) [.mustache ⟨tag, false⟩] stop)
    (made : Item.ofLexeme index markup start lexeme = .ok (item, markup')) :
    ∃ inner opener closer, lexeme = .tag false opener inner closer ∧
      Tag.read index start opener inner closer = .ok tag := by
  cases derived with
  | statement _ more =>
      have makes := Item.ofLexeme_eq_ok_iff.mp made
      generalize shape : Item.statement (.mustache ⟨tag, false⟩) = item at makes
      cases makes with
      | comment opener value closer => cases shape
      | triple read => cases shape
      | opening form read => cases shape
      | closing opener closer form => cases shape
      | otherwise opener closer form => cases shape
      | chain form read => cases shape
      | mustache form read =>
          unfold Item.ofMustache at shape
          split at shape
          · cases shape
          · cases shape
            exact ⟨_, _, _, rfl, read⟩

/-- A mustache between braces has the inside that the scanner gets over. -/
theorem unbroken_of_parse {body : TagBody} {template : Template} {tag : Tag}
    (parsed : Template.parse (betweenBraces body.text) = .ok template)
    (only : template.body = [.mustache ⟨tag, false⟩]) (opener : tag.opener = ['{', '{'])
    (closer : tag.closer = ['}', '}']) (same : tag.body = body) : Unbroken body.text := by
  obtain ⟨items, scans, derived⟩ := Template.items_of_parse parsed
  rw [only] at derived
  cases scans with
  | @last _ _ _ chars run =>
      simp [betweenBraces, textRun] at run
  | @lexeme _ markup' _ _ chars behind rest lexeme item items run read made more =>
      have split : chars = [] ∧ behind = body.text ++ ['}', '}'] := by
        simpa [betweenBraces, textRun, eq_comm] using run
      obtain ⟨rfl, rfl⟩ := split
      obtain ⟨inner, opening, closing, rfl, found⟩ := exists_lexeme_of_mustache derived made
      obtain ⟨_, openerSame, text, closerSame⟩ := Tag.wellFormed_of_read found
      rw [same] at text
      have reads := Lexeme.reads_of_read read
      generalize whole : body.text ++ ['}', '}'] = behind at reads
      cases reads with
      | @tag _ tilde inside scanned _ first marked plain closed =>
          -- no mark of white space control stands at either end, and the scanner took all of it
          have noneBefore : tilde = [] := by simpa [openerSame] using opener
          have noneBehind : (Lexeme.trailingTilde scanned).2 = [] := by
            simpa [closerSame] using closer
          have front := Lexeme.leadingTilde_append behind
          have back := Lexeme.trailingTilde_append scanned
          rw [marked, noneBefore, List.nil_append] at front
          rw [noneBehind, List.append_nil, ← text] at back
          simp only at front
          rw [front, ← back] at closed
          exact unbrokenFrom_of_splitAtClose closed

/-- A body between braces is read as one mustache with the parts that were found in it, exactly if
the scanner gets over it.  It does where it gets over the texts between brackets and bars. -/
theorem parse_braced_iff {inside : Text} {body : TagBody} (found : TagBody.read inside = .ok body)
    (ordered : body.Ordered) (word : inside.firstWord ≠ Item.elseWord) :
    ((∃ template tag, Template.parse (betweenBraces inside) = .ok template ∧
        template.body = [.mustache ⟨tag, false⟩] ∧ tag.opener = ['{', '{'] ∧
        tag.closer = ['}', '}'] ∧ tag.body = body) ↔ Unbroken inside) ∧
      ∀ tree : TagBody.Tree, tree.yield = inside →
        (∀ inner ∈ tree.enclosed, Unbroken inner) → Unbroken inside := by
  obtain ⟨rfl, rule⟩ := TagBody.grammatical_of_read found
  refine ⟨⟨?_, ?_⟩, ?_⟩
  · rintro ⟨template, tag, parsed, only, opener, closer, same⟩
    exact unbroken_of_parse parsed only opener closer same
  · intro unbroken
    obtain ⟨tag, read, scans⟩ := rule.exists_scans_braced found ordered word unbroken
      (.ofText (betweenBraces body.text))
    obtain ⟨_, opener, _, closer⟩ := Tag.wellFormed_of_read read
    exact ⟨_, tag, Template.parse_of_items scans (.statement _ .finish), rfl, opener, closer,
      Tag.body_of_read read found⟩
  · intro tree derived unbroken
    rw [← derived]
    exact (TagBody.Tree.passes_yield unbroken).unbroken

/-- Closing braces in a string, and in what looks like one between brackets. -/
def quotedBraces : Text :=
  "f [\"\x7d\x7d\"] k='\x7d\x7d'".toList

theorem parse_braced_iff_quotedBraces :
    ∃ body template tag, TagBody.read quotedBraces = .ok body ∧
      Template.parse (betweenBraces quotedBraces) = .ok template ∧
      template.body = [.mustache ⟨tag, false⟩] ∧ tag.opener = ['{', '{'] ∧
      tag.closer = ['}', '}'] ∧ tag.body = body := by
  have found : TagBody.read quotedBraces = .ok {
      leading := []
      callee := .path ['f']
      args := .positional [' '] (.path "[\"\x7d\x7d\"]".toList)
        (.keyword [' '] ['k'] ['='] (.quoted "'\x7d\x7d'".toList) .done)
      blockParams := none
      trailing := [] } := by
    cbv
  have unbroken : Unbroken quotedBraces :=
    unbrokenFrom_of_splitAtClose (rfl : splitAtClose ['}', '}'] none
      (quotedBraces ++ ['}', '}']) = some (quotedBraces, []))
  obtain ⟨reads, _⟩ :=
    parse_braced_iff found ⟨trivial, trivial, trivial, trivial, trivial⟩ (by decide)
  obtain ⟨template, tag, parsed, only, opener, closer, same⟩ := reads.mpr unbroken
  exact ⟨_, template, tag, found, parsed, only, opener, closer, same⟩

/-- A quote in brackets. -/
def bracketedQuote : Text :=
  "[']".toList

/-- The scanner takes the quote for the start of a string and finds no end of the tag. -/
theorem parse_braced_bracketedQuote :
    ¬∀ (inside : Text) (body : TagBody), TagBody.read inside = .ok body → body.Ordered →
      inside.firstWord ≠ Item.elseWord →
      ∃ template tag, Template.parse (betweenBraces inside) = .ok template ∧
        template.body = [.mustache ⟨tag, false⟩] ∧ tag.body = body := by
  intro reads
  have found : TagBody.read bracketedQuote = .ok ⟨[], .path bracketedQuote, .done, none, []⟩ := by
    cbv
  have refused : (Template.parse (betweenBraces bracketedQuote)).toOption = none := by
    cbv
  obtain ⟨template, tag, parsed, _⟩ := reads _ _ found ⟨trivial, trivial⟩ (by decide)
  rw [parsed] at refused
  cases refused

end TemplateSelectors
