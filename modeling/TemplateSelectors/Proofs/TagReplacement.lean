import TemplateSelectors.Proofs.Lexing
import TemplateSelectors.Proofs.Scanning
import TemplateSelectors.Proofs.TagParts

/-!
# Replacing a tag

A tag that differs from another one only behind its callee can be put in its place: it is found
as a tag of the same form with the same braces, and it is read as what it is.
-/

set_option autoImplicit false

namespace TemplateSelectors

namespace Text

theorem trim_ne_nil {text : Text} {c : Char} (member : c ∈ text) (visible : isSpace c = false) :
    trim text ≠ [] := by
  have kept : ∀ {text : Text}, c ∈ text → c ∈ text.dropWhile isSpace := by
    intro text member
    rw [← List.takeWhile_append_dropWhile (p := isSpace) (l := text), List.mem_append] at member
    refine member.resolve_left ?_
    intro early
    have space := List.all_eq_true.mp List.all_takeWhile c early
    rw [visible] at space
    cases space
  have last : c ∈ trim text := by
    rw [trim, trimEnd, List.mem_reverse]
    exact kept (List.mem_reverse.mpr (kept member))
  exact List.ne_nil_of_mem last

/-- A word that is not continued is found in the front or not at all. -/
theorem after?_append_of_stops {word rest : Text}
    (stops : ∀ c, rest.head? = some c → c ∉ word) (text : Text) :
    after? word (text ++ rest) = (after? word text).map (· ++ rest) := by
  induction word generalizing text with
  | nil => rfl
  | cons c word inductionHypothesis =>
      cases text with
      | nil =>
          cases rest with
          | nil => rfl
          | cons d rest =>
              have different := stops d rfl
              simp only [List.mem_cons, not_or] at different
              simp [after?, Ne.symm different.1]
      | cons d text =>
          have others := inductionHypothesis (fun c head member =>
            stops c head (List.mem_cons_of_mem _ member)) text
          by_cases same : c = d
          · simp [after?, same, others]
          · simp [after?, same]

end Text

/-! ## Forms of tags -/

namespace Item.TagForm

/-- The characters that settle the form of a tag at once. -/
def marks : Text :=
  ['#', '/', '^', '>', '*']

theorem ofInner_eq_ofWord {inner : Text} (plain : ∀ c, inner.head? = some c → c ∉ marks) :
    ofInner inner = ofWord inner := by
  have other : ∀ {c : Char} {after : Text}, c ∈ marks → inner ≠ c :: after := by
    rintro c after mark rfl
    exact plain c rfl mark
  unfold ofInner
  split
  case h_8 => rfl
  all_goals exact absurd rfl (other (by decide))

theorem plain_of_ofInner {inner : Text}
    (form : ofInner inner = .mustache ∨ ∃ spaces body, ofInner inner = .chain spaces body) :
    ∀ c, inner.head? = some c → c ∉ marks := by
  intro c head
  obtain ⟨rest, rfl⟩ := List.head?_eq_some_iff.mp head
  intro mark
  simp only [marks, List.mem_cons, List.not_mem_nil, or_false] at mark
  rcases mark with rfl | rfl | rfl | rfl | rfl
  · unfold ofInner at form
    split at form
    all_goals simp_all
  · simp [ofInner] at form
  · simp only [ofInner] at form
    split at form
    all_goals simp at form
  · simp [ofInner] at form
  · simp [ofInner] at form

theorem opening_congr {body other : Text} (form : ofInner ('#' :: body) = .opening body)
    (same : other.head? = body.head?) : ofInner ('#' :: other) = .opening other := by
  have plain : ∀ after, other ≠ '>' :: after ∧ other ≠ '*' :: after := by
    intro after
    constructor
    · rintro rfl
      obtain ⟨rest, rfl⟩ := List.head?_eq_some_iff.mp same.symm
      simp [ofInner] at form
    · rintro rfl
      obtain ⟨rest, rfl⟩ := List.head?_eq_some_iff.mp same.symm
      simp [ofInner] at form
  rw [ofInner]
  · exact fun after => (plain after).1
  · exact fun after => (plain after).2

theorem ofWord_eq_chain_iff {inner spaces body : Text} :
    ofWord inner = .chain spaces body ↔
      Text.after? elseWord (Text.trimStart inner) = some body ∧ Text.trim body ≠ [] ∧
        body.head?.any Text.isSpace = true ∧ spaces = inner.takeWhile Text.isSpace := by
  unfold ofWord
  constructor
  · intro form
    split at form
    · cases form
    · next after found =>
        split at form
        · cases form
        · next visible =>
            split at form
            · next space =>
                cases form
                exact ⟨found, visible, space, rfl⟩
            · cases form
  · rintro ⟨found, visible, space, rfl⟩
    rw [found]
    simp [visible, space]

theorem ofWord_eq_mustache_iff {inner : Text} :
    ofWord inner = .mustache ↔
      ∀ after, Text.after? elseWord (Text.trimStart inner) = some after →
        Text.trim after ≠ [] ∧ after.head?.any Text.isSpace = false := by
  unfold ofWord
  constructor
  · intro form after found
    rw [found] at form
    simp only at form
    split at form
    · cases form
    · next visible =>
        split at form
        · cases form
        · next word => exact ⟨visible, by simpa using word⟩
  · intro word
    split
    · rfl
    · next after found =>
        obtain ⟨visible, inside⟩ := word after found
        simp [visible, inside]

theorem chain_congr {spaces body other : Text}
    (form : ofInner (spaces ++ elseWord ++ body) = .chain spaces body)
    (same : other.head? = body.head?) (visible : Text.trim other ≠ []) :
    ofInner (spaces ++ elseWord ++ other) = .chain spaces other := by
  have plain := plain_of_ofInner (.inr ⟨_, _, form⟩)
  rw [ofInner_eq_ofWord plain, ofWord_eq_chain_iff] at form
  obtain ⟨_, _, space, front⟩ := form
  have all : ∀ c ∈ spaces, Text.isSpace c = true := by
    rw [front]
    exact List.all_eq_true.mp List.all_takeWhile
  have word : ∀ rest, TagBody.StopsAt Text.isSpace (elseWord ++ rest) := fun rest =>
    TagBody.stopsAt_cons rfl
  have head : ∀ rest, (spaces ++ elseWord ++ rest).head? = (spaces ++ elseWord ++ body).head? := by
    intro rest
    cases spaces with
    | nil => rfl
    | cons c spaces => rfl
  rw [ofInner_eq_ofWord (by rw [head]; exact plain), ofWord_eq_chain_iff, List.append_assoc]
  refine ⟨?_, visible, by rw [same]; exact space, ?_⟩
  · rw [Text.trimStart, TagBody.dropWhile_append_of_stopsAt all (word other)]
    exact Text.after?_append elseWord other
  · exact (TagBody.takeWhile_append_of_stopsAt all (word other)).symm

/-- The callee alone settles that a tag is a mustache: behind it stands white space or nothing. -/
theorem mustache_congr {leading callee tail other : Text} (spaces : TagBody.Layout leading)
    (visible : TagBody.StopsAt Text.isSpace callee) (nonempty : callee ≠ [])
    (space : ∀ c, tail.head? = some c → Text.isSpace c = true)
    (space' : ∀ c, other.head? = some c → Text.isSpace c = true)
    (form : ofInner (leading ++ (callee ++ tail)) = .mustache) :
    ofInner (leading ++ (callee ++ other)) = .mustache := by
  obtain ⟨first, more, rfl⟩ := List.exists_cons_of_ne_nil nonempty
  have head : (leading ++ (first :: more ++ other)).head? =
      (leading ++ (first :: more ++ tail)).head? := by
    cases leading with
    | nil => rfl
    | cons c leading => rfl
  have plain := plain_of_ofInner (.inl form)
  have stops : ∀ {rest : Text}, (∀ c, rest.head? = some c → Text.isSpace c = true) →
      ∀ c, rest.head? = some c → c ∉ elseWord := by
    intro rest spaces c head member
    have space := spaces c head
    simp only [elseWord, List.mem_cons, List.not_mem_nil, or_false] at member
    rcases member with rfl | rfl | rfl | rfl
    all_goals cases space
  have trimmed : ∀ rest, Text.trimStart (leading ++ (first :: more ++ rest)) =
      first :: more ++ rest := fun rest =>
    TagBody.trimStart_append spaces (TagBody.stopsAt_cons (visible first rfl))
  rw [ofInner_eq_ofWord plain, ofWord_eq_mustache_iff, trimmed,
    Text.after?_append_of_stops (stops space)] at form
  rw [ofInner_eq_ofWord (by rw [head]; exact plain), ofWord_eq_mustache_iff, trimmed,
    Text.after?_append_of_stops (stops space')]
  intro after found
  obtain ⟨rest, word, rfl⟩ := Option.map_eq_some_iff.mp found
  obtain ⟨shown, inside⟩ := form (rest ++ tail) (by rw [word]; rfl)
  cases rest with
  | nil =>
      -- the callee is the keyword itself, so the tag was no mustache
      cases tail with
      | nil => exact absurd rfl shown
      | cons c tail => simp [space c rfl] at inside
  | cons c rest =>
      have letter : Text.isSpace c = false := by simpa using inside
      exact ⟨Text.trim_ne_nil List.mem_cons_self letter, by simp [letter]⟩

end Item.TagForm

/-! ## Behind the callee -/

namespace TagBody

/-- What stands behind the callee. -/
def tail (body : TagBody) : Text :=
  body.args.text ++ (body.blockParams.getD [] ++ body.trailing)

theorem text_eq (body : TagBody) : body.text = body.leading ++ (body.callee.text ++ body.tail) := by
  simp [text, tail]

theorem gap_head {layout : Text} (gap : Gap layout) (rest : Text) :
    ∀ c, (layout ++ rest).head? = some c → isLayout c = true := by
  obtain ⟨first, more, rfl⟩ := List.exists_cons_of_ne_nil gap.2
  rintro c ⟨⟩
  exact gap.1 _ List.mem_cons_self

theorem Grammatical.tail_head {body : TagBody} (rule : body.Grammatical) :
    ∀ c, body.tail.head? = some c → isLayout c = true := by
  obtain ⟨leading, callee, args, names, trailing⟩ := body
  obtain ⟨_, _, argsRule, namesRule, right⟩ := rule
  simp only at argsRule namesRule right
  unfold tail
  cases args with
  | positional leading value more =>
      simp only [Arguments.text, List.append_assoc]
      exact gap_head argsRule.1 _
  | keyword leading key separator value more =>
      simp only [Arguments.text, List.append_assoc]
      exact gap_head argsRule.1 _
  | done =>
      cases names with
      | some names =>
          cases namesRule names rfl with
          | names left _ _ =>
              simp only [Arguments.text, Option.getD_some, List.nil_append, List.append_assoc]
              exact gap_head left _
      | none =>
          intro c head
          exact right c (List.mem_of_head? head)

def isEnd (c : Char) : Bool :=
  isLayout c || isFinish c || c == '|'

def Ends (text : Text) : Prop :=
  ∀ c, text.getLast? = some c → isEnd c = true

theorem Ends.append {front back : Text} (left : Ends front) (right : Ends back) :
    Ends (front ++ back) := by
  intro c last
  rw [List.getLast?_append] at last
  cases ends : back.getLast? with
  | none =>
      rw [ends, Option.none_or] at last
      exact left c last
  | some d =>
      rw [ends, Option.some_or] at last
      exact right c (ends.trans last)

theorem Layout.ends {layout : Text} (spaces : Layout layout) : Ends layout := by
  intro c last
  simp [isEnd, spaces c (List.mem_of_getLast? last)]

theorem Finishes.getLast? {text : Text} (finishes : Finishes text) {mark : Char}
    (other : isFinish mark = false) : text.getLast? ≠ some mark := by
  obtain ⟨front, c, rfl, finish⟩ := finishes
  rw [List.getLast?_concat]
  rintro ⟨⟩
  rw [finish] at other
  cases other

theorem Finishes.ends {text : Text} (finishes : Finishes text) : Ends text := by
  obtain ⟨front, c, rfl, finish⟩ := finishes
  intro d last
  rw [List.getLast?_concat, Option.some.injEq] at last
  simp [isEnd, ← last, finish]

theorem Arguments.ends {args : Arguments} (rule : args.Grammatical) : Ends args.text := by
  match args with
  | .done => simp [Arguments.text, Ends]
  | .positional leading value more =>
      obtain ⟨gap, valueRule, moreRule⟩ := rule
      exact (gap.1.ends.append (Term.finishes valueRule).ends).append (Arguments.ends moreRule)
  | .keyword leading key separator value more =>
      obtain ⟨_, _, _, valueRule, moreRule⟩ := rule
      exact ((Term.finishes valueRule).append (leading ++ key ++ separator)).ends.append
        (Arguments.ends moreRule)

theorem Grammatical.ends {body : TagBody} (rule : body.Grammatical) : Ends body.text := by
  have names : Ends (body.blockParams.getD []) := by
    cases same : body.blockParams with
    | none => simp [Ends]
    | some names =>
        cases rule.blockParams names same with
        | names left right barless =>
            intro c last
            rw [Option.getD_some, List.getLast?_concat, Option.some.injEq] at last
            subst last
            rfl
  have front := rule.leading.ends.append (Term.finishes rule.callee).ends
  exact ((front.append (Arguments.ends rule.args)).append names).append rule.trailing.ends

theorem Grammatical.getLast?_ne {body : TagBody} (rule : body.Grammatical) {mark : Char}
    (other : isEnd mark = false) : body.text.getLast? ≠ some mark := by
  intro last
  rw [rule.ends mark last] at other
  cases other

end TagBody

/-! ## Tags in the place of others -/

namespace Tag

/-- A tag that can be put in place of another: only what stands behind the callee differs, and
the tag ends behind it. -/
structure StandsFor (other tag : Tag) : Prop where
  opener : other.opener = tag.opener
  leading : other.leading = tag.leading
  callee : other.callee = tag.callee
  closer : other.closer = tag.closer
  wellFormed : other.WellFormed
  printed : other.print = other.printParts
  tail : Replaces tag.body.tail other.body.tail

theorem StandsFor.refl {tag : Tag} (wellFormed : tag.WellFormed)
    (printed : tag.print = tag.printParts) : tag.StandsFor tag :=
  ⟨rfl, rfl, rfl, rfl, wellFormed, printed, Replaces.refl _⟩

/-- A tag that was read stands for itself. -/
theorem standsFor_of_read {index : LineIndex} {start : Nat} {opener body closer : Text} {tag : Tag}
    (found : Tag.read index start opener body closer = .ok tag) : tag.StandsFor tag := by
  obtain ⟨wellFormed, opened, text, closed⟩ := wellFormed_of_read found
  refine .refl wellFormed ?_
  rw [print_of_read found, printParts_eq, opened, text, closed]

variable {tag other : Tag}

theorem StandsFor.text_eq (stands : other.StandsFor tag) :
    tag.body.text = tag.leading ++ (tag.callee.term.text ++ tag.body.tail) ∧
      other.body.text = tag.leading ++ (tag.callee.term.text ++ other.body.tail) := by
  refine ⟨TagBody.text_eq _, ?_⟩
  rw [TagBody.text_eq]
  simp only [body, stands.leading, stands.callee]

theorem StandsFor.head_eq (stands : other.StandsFor tag) (wellFormed : tag.WellFormed) :
    other.body.text.head? = tag.body.text.head? := by
  obtain ⟨left, right⟩ := stands.text_eq
  obtain ⟨c, rest, text, _⟩ := TagBody.Term.starts wellFormed.grammatical.callee
  simp only [body] at text
  rw [left, right, text]
  cases tag.leading with
  | nil => rfl
  | cons d leading => rfl

theorem StandsFor.replaces (stands : other.StandsFor tag) (wellFormed : tag.WellFormed)
    (front : Text) : Replaces (front ++ tag.body.text) (front ++ other.body.text) := by
  obtain ⟨left, right⟩ := stands.text_eq
  have finishes : TagBody.Finishes (front ++ (tag.leading ++ tag.callee.term.text)) :=
    ((TagBody.Term.finishes wellFormed.grammatical.callee).append tag.leading).append front
  have replaced := stands.tail.append_left (finishes.getLast? (by decide))
    (finishes.getLast? (by decide))
  rw [left, right]
  simpa only [List.append_assoc] using replaced

/-- The tag that stands for another is read in its place. -/
theorem StandsFor.reads (stands : other.StandsFor tag) (wellFormed : tag.WellFormed)
    {triple : Bool} {opener front closer behind rest : Text} (opened : tag.opener = opener ++ front)
    (closed : tag.closer = closer)
    (reads : Lexeme.Reads behind (.tag triple opener (front ++ tag.body.text) closer) rest)
    (rest' : Text) :
    ∃ behind', other.print ++ rest' = '{' :: '{' :: behind' ∧
      Lexeme.Reads behind' (.tag triple opener (front ++ other.body.text) closer) rest' := by
  have head : (front ++ other.body.text).head? = (front ++ tag.body.text).head? := by
    cases front with
    | nil => exact stands.head_eq wellFormed
    | cons c front => rfl
  have last : (front ++ other.body.text).getLast? ≠ some '~' := by
    have unmarked : other.body.text.getLast? ≠ some '~' :=
      stands.wellFormed.grammatical.getLast?_ne (by decide)
    obtain ⟨c, after, text, _⟩ := TagBody.Term.starts stands.wellFormed.grammatical.callee
    rw [List.getLast?_append]
    cases final : other.body.text.getLast? with
    | some c => rwa [final] at unmarked
    | none =>
        rw [List.getLast?_eq_none_iff, TagBody.text_eq, text] at final
        simp at final
  obtain ⟨behind', whole, again⟩ :=
    reads.replace (stands.replaces wellFormed front) head (fun _ => last) rest'
  refine ⟨behind', ?_, again⟩
  rw [stands.printed, printParts_eq, stands.opener, stands.closer, opened, closed, ← whole]
  simp

end Tag

end TemplateSelectors
