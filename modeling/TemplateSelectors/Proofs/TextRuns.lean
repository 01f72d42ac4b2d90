import Mathlib
import TemplateSelectors.Proofs.BlockStructure

/-!
# Runs of text

A run of text reaches up to the next tag, so no run is empty and no two of them stand side by
side, in whatever list of the tree they end up.  Nothing in a run opens a tag, not even without
what stood before it: read alone, a run is a template of that one run.
-/

set_option autoImplicit false

namespace TemplateSelectors

/-! ## A run alone -/

/-- A run of text that is cut off from what follows it is still one run. -/
theorem textRun_alone (beforeLast last : Bool) (text : Text) :
    textRun beforeLast last (textRun beforeLast last text).1 =
      ((textRun beforeLast last text).1, []) := by
  fun_induction textRun beforeLast last text with
  | case1 beforeLast last rest escaped run inductionHypothesis =>
      simp only [textRun, if_pos escaped, run, inductionHypothesis]
  | case2 beforeLast last rest unescaped => rfl
  | case3 beforeLast last c rest single run inductionHypothesis =>
      have whole := textRun_append last (c == '\\') rest
      have step : textRun beforeLast last (c :: run.1) =
          (c :: (textRun last (c == '\\') run.1).1, (textRun last (c == '\\') run.1).2) := by
        rw [textRun]
        -- a second brace in the run would have been one in the text
        rintro after rfl braces
        rw [show (textRun last ('{' == '\\') rest).1 = '{' :: after from braces] at whole
        exact single _ rfl whole.symm
      rw [step, inductionHypothesis]
  | case4 => rfl

def Template.ofRun (chars : Text) : Template :=
  let loc := (LineIndex.ofText chars).sourceSpan ⟨0, chars.size⟩
  ⟨[.text ⟨chars, loc⟩], loc⟩

theorem Template.parse_of_textRun {chars : Text} (nonempty : chars ≠ [])
    (run : textRun false false chars = (chars, [])) : parse chars = .ok (ofRun chars) := by
  have scans : Item.Scans (.ofText chars) .initial 0 chars (Item.ofText (.ofText chars) 0 chars) :=
    .last run
  rw [Item.ofText, if_neg (by simpa using nonempty), Nat.zero_add] at scans
  exact parse_of_items scans (.statement _ .finish)

/-! ## The lists of a tree -/

mutual

/-- The lists of statements inside a statement, at every depth. -/
def Statement.lists : Statement → List (List Statement)
  | .text _ | .comment _ | .mustache _ | .modifier _ => []
  | .block b => b.lists

def Block.lists : Block → List (List Statement)
  | ⟨_, program, inverse, _, _⟩ => program :: (innerLists program ++ inverseLists inverse)

def Inverse.lists : Inverse → List (List Statement)
  | .otherwise _ body => body :: innerLists body
  | .chained b => b.lists

def innerLists : List Statement → List (List Statement)
  | [] => []
  | statement :: statements => statement.lists ++ innerLists statements

def inverseLists : Option Inverse → List (List Statement)
  | none => []
  | some inverse => inverse.lists

end

/-- The lists of statements of a template, at every depth. -/
def Template.lists (template : Template) : List (List Statement) :=
  template.body :: innerLists template.body

def Statement.isText : Statement → Bool
  | .text _ => true
  | .comment _ | .mustache _ | .modifier _ | .block _ => false

def Statement.Apart (first second : Statement) : Prop :=
  ¬(first.isText = true ∧ second.isText = true)

def Item.isText : Item → Bool
  | .statement s => s.isText
  | .opening _ _ | .otherwise _ _ | .chain _ _ | .closing _ _ => false

def Item.Apart (first second : Item) : Prop :=
  ¬(first.isText = true ∧ second.isText = true)

/-- No two items in a row are text, and the statements among them hold no lists. -/
structure Item.Separate (items : List Item) : Prop where
  apart : items.IsChain Apart
  flat : ∀ statement, .statement statement ∈ items → statement.lists = []

theorem Item.Separate.suffix {items back : List Item} (separate : Separate items)
    (behind : back <:+ items) : Separate back where
  apart := separate.apart.suffix behind
  flat statement member := separate.flat statement (behind.subset member)

/-- A list of the tree with no two runs of text side by side, all of whose runs are items. -/
structure Item.Keeps (items : List Item) (list : List Statement) : Prop where
  apart : list.IsChain Statement.Apart
  runs : ∀ run, .text run ∈ list → .statement (.text run) ∈ items

theorem Item.Keeps.suffix {items back : List Item} {list : List Statement}
    (keeps : Keeps back list) (behind : back <:+ items) : Keeps items list where
  apart := keeps.apart
  runs run member := behind.subset (keeps.runs run member)

namespace Template

variable {index : LineIndex} {items behind rest : List Item} {program second : List Statement}
  {inverse : Option Inverse} {stop : Break}

/-- What holds of statements that were read off the front of items. -/
structure KeepsBody (items : List Item) (statements : List Statement) (stop : Break) : Prop where
  back : stop.items <:+ items
  front : ∀ run, statements.head? = some (.text run) → items.head? = some (.statement (.text run))
  lists : Item.Separate items → ∀ list ∈ statements :: innerLists statements, Item.Keeps items list

structure KeepsSection (items : List Item) (program : List Statement) (inverse : Option Inverse)
    (rest : List Item) : Prop where
  back : rest <:+ items
  lists : Item.Separate items →
    ∀ list ∈ program :: (innerLists program ++ inverseLists inverse), Item.Keeps items list

theorem keepsBody_nil (stop : Break) : KeepsBody stop.items [] stop where
  back := List.suffix_refl _
  front run first := by cases first
  lists separate list member := by
    rw [innerLists, List.mem_singleton] at member
    subst member
    exact ⟨.nil, fun run inside => by cases inside⟩

theorem KeepsBody.statement (statement : Statement) {statements : List Statement}
    (more : KeepsBody rest statements stop) :
    KeepsBody (.statement statement :: rest) (statement :: statements) stop where
  back := more.back.trans (List.suffix_cons _ _)
  front run first := by
    cases first
    rfl
  lists separate list member := by
    have behind : rest <:+ .statement statement :: rest := List.suffix_cons _ _
    have later := more.lists (separate.suffix behind)
    have inside := separate.flat statement List.mem_cons_self
    rw [innerLists, inside, List.nil_append, List.mem_cons] at member
    rcases member with rfl | member
    · have tail := later statements List.mem_cons_self
      refine ⟨tail.apart.cons ?_, ?_⟩
      · -- a run at the head of the list is the item at the head of the items
        rintro next first ⟨left, right⟩
        cases next with
        | text run =>
            have item := more.front run first
            exact (List.isChain_cons.mp separate.apart).1 _ item ⟨left, rfl⟩
        | comment c => cases right
        | mustache m => cases right
        | modifier m => cases right
        | block b => cases right
      · intro run here
        rcases List.mem_cons.mp here with rfl | here
        · exact List.mem_cons_self
        · exact List.mem_cons_of_mem _ (tail.runs run here)
    · exact (later list (List.mem_cons_of_mem _ member)).suffix behind

theorem KeepsBody.block (block : Block) (tag : Tag) (span : Span) {statements : List Statement}
    (inner : KeepsSection items block.program block.inverse rest)
    (more : KeepsBody rest statements stop) :
    KeepsBody (.opening tag span :: items) (.block block :: statements) stop where
  back := (more.back.trans inner.back).trans (List.suffix_cons _ _)
  front run first := by cases first
  lists separate list member := by
    have within : items <:+ .opening tag span :: items := List.suffix_cons _ _
    have behind : rest <:+ .opening tag span :: items := inner.back.trans within
    have halves := inner.lists (separate.suffix within)
    have later := more.lists (separate.suffix behind)
    obtain ⟨opening, program, inverse, close, loc⟩ := block
    rw [innerLists, Statement.lists, Block.lists, List.mem_cons, List.mem_append] at member
    rcases member with rfl | member | member
    · have tail := later statements List.mem_cons_self
      have apart : (Statement.block ⟨opening, program, inverse, close, loc⟩ ::
          statements).IsChain Statement.Apart := tail.apart.cons fun _ _ both => nomatch both.1
      refine ⟨apart, ?_⟩
      intro run here
      rcases List.mem_cons.mp here with impossible | here
      · cases impossible
      · exact behind.subset (tail.runs run here)
    · exact (halves list member).suffix within
    · exact (later list (List.mem_cons_of_mem _ member)).suffix behind

theorem KeepsSection.plain {close : CloseTag} {closeSpan : Span}
    (body : KeepsBody items program (.closing close closeSpan rest)) :
    KeepsSection items program none rest where
  back := (List.suffix_cons _ _).trans body.back
  lists separate list member := by
    rw [inverseLists, List.append_nil] at member
    exact body.lists separate list member

theorem KeepsSection.otherwise {elseTag : ElseTag} {elseSpan closeSpan : Span} {close : CloseTag}
    (body : KeepsBody items program (.otherwise elseTag elseSpan behind))
    (half : KeepsBody behind second (.closing close closeSpan rest)) :
    KeepsSection items program (some (.otherwise elseTag second)) rest := by
  have back : behind <:+ items := (List.suffix_cons _ _).trans body.back
  refine ⟨((List.suffix_cons _ _).trans half.back).trans back, ?_⟩
  intro separate list member
  rw [inverseLists, Inverse.lists, ← List.cons_append, List.mem_append] at member
  rcases member with first | later
  · exact body.lists separate list first
  · exact (half.lists (separate.suffix back) list later).suffix back

theorem KeepsSection.chain (block : Block) {chainTag : Tag} {chainSpan : Span}
    (body : KeepsBody items program (.chain chainTag chainSpan behind))
    (inner : KeepsSection behind block.program block.inverse rest) :
    KeepsSection items program (some (.chained block)) rest := by
  have back : behind <:+ items := (List.suffix_cons _ _).trans body.back
  refine ⟨inner.back.trans back, ?_⟩
  intro separate list member
  obtain ⟨opening, second, inverse, close, loc⟩ := block
  rw [inverseLists, Inverse.lists, Block.lists, ← List.cons_append, List.mem_append] at member
  rcases member with first | later
  · exact body.lists separate list first
  · exact (inner.lists (separate.suffix back) list later).suffix back

/-- Items that are apart stay apart in every list of the tree. -/
theorem keepsBody_of_derives {statements : List Statement}
    (derived : Derives index items statements stop) : KeepsBody items statements stop := by
  induction derived using Derives.induction
    (Q := fun items program inverse _ _ rest => KeepsSection items program inverse rest) with
  | finish => exact keepsBody_nil .finish
  | closing tag span rest => exact keepsBody_nil (.closing tag span rest)
  | otherwise tag span rest => exact keepsBody_nil (.otherwise tag span rest)
  | chain tag span rest => exact keepsBody_nil (.chain tag span rest)
  | statement statement rest statements stop more => exact more.statement statement
  | block tag span items rest program statements inverse close closeSpan stop inner named more =>
      exact .block _ tag span inner more
  | plainSection items rest program close closeSpan body => exact .plain body
  | elseSection items behind rest program second elseTag elseSpan closeSpan close body half =>
      exact .otherwise body half
  | chainSection items behind rest program second inverse chainTag chainSpan closeSpan close body
      inner => exact .chain _ body inner

end Template

/-! ## The runs of a source -/

theorem Statement.lists_of_blocks {statement : Statement} (none : statement.blocks = []) :
    statement.lists = [] := by
  cases statement with
  | text run => rfl
  | comment c => rfl
  | mustache m => rfl
  | modifier m => rfl
  | block b => cases none

namespace Item

variable {index : LineIndex} {markup : Markup} {start : Nat} {text : Text} {items : List Item}

theorem isText_of_makes {markup' : Markup} {lexeme : Lexeme} {item : Item}
    (made : Makes index markup start lexeme item markup') : item.isText = false := by
  cases made with
  | comment opener value closer => rfl
  | triple read => rfl
  | opening form read => rfl
  | closing opener closer form => rfl
  | otherwise opener closer form => rfl
  | chain form read => rfl
  | mustache form read =>
      unfold ofMustache
      split
      · rfl
      · rfl

theorem eq_of_mem_ofText {chars : Text} {item : Item} (member : item ∈ ofText index start chars) :
    chars ≠ [] ∧ ∃ loc, item = .statement (.text ⟨chars, loc⟩) := by
  unfold ofText at member
  split at member
  · cases member
  · next nonempty =>
      rw [List.mem_singleton] at member
      exact ⟨by simpa using nonempty, _, member⟩

/-- Between two runs of text there is a lexeme, which is no text. -/
theorem separate_of_scans (scans : Scans index markup start text items) : Separate items := by
  refine ⟨?_, fun statement member =>
    Statement.lists_of_blocks (Template.blocks_of_scans scans statement member)⟩
  have single : ∀ (start : Nat) (chars : Text), (ofText index start chars).IsChain Apart := by
    intro start chars
    unfold ofText
    split
    · exact .nil
    · exact .singleton _
  induction scans with
  | last run => exact single _ _
  | lexeme run read made more inductionHypothesis =>
      have other := isText_of_makes (ofLexeme_eq_ok_iff.mp made)
      refine List.isChain_append.mpr ⟨single _ _, inductionHypothesis.cons ?_, ?_⟩
      · rintro next _ ⟨left, _⟩
        rw [other] at left
        cases left
      · rintro last _ next first ⟨_, right⟩
        cases first
        rw [other] at right
        cases right

/-- A run of text among the items of a source is not empty, and still one run when it is read
alone. -/
theorem run_of_scans (scans : Scans index markup start text items) {run : TextRun}
    (member : .statement (.text run) ∈ items) :
    run.chars ≠ [] ∧ textRun false false run.chars = (run.chars, []) := by
  have ofRun : ∀ {start : Nat} {text chars rest : Text},
      textRun false false text = (chars, rest) →
      .statement (.text run) ∈ ofText index start chars →
      run.chars ≠ [] ∧ textRun false false run.chars = (run.chars, []) := by
    intro start text chars rest found inside
    obtain ⟨nonempty, loc, same⟩ := eq_of_mem_ofText inside
    cases same
    have alone := textRun_alone false false text
    rw [found] at alone
    exact ⟨nonempty, alone⟩
  induction scans with
  | last found => exact ofRun found member
  | lexeme found read made more inductionHypothesis =>
      rcases List.mem_append.mp member with before | behind
      · exact ofRun found before
      · rcases List.mem_cons.mp behind with rfl | later
        · cases isText_of_makes (ofLexeme_eq_ok_iff.mp made)
        · exact inductionHypothesis later

end Item

namespace Template

/-- In no list of a template that was read do two runs of text stand side by side.  No run is
empty, and each of them, read alone, is a template of that one run. -/
theorem runs_maximal_and_inert {source : Text} {template : Template}
    (parsed : parse source = .ok template) :
    ∀ list ∈ template.lists, list.IsChain Statement.Apart ∧
      ∀ run, .text run ∈ list → run.chars ≠ [] ∧ parse run.chars = .ok (ofRun run.chars) := by
  intro list member
  obtain ⟨items, scans, derived⟩ := items_of_parse parsed
  have keeps := (keepsBody_of_derives derived).lists (Item.separate_of_scans scans) list member
  refine ⟨keeps.apart, ?_⟩
  intro run inside
  obtain ⟨nonempty, alone⟩ := Item.run_of_scans scans (keeps.runs run inside)
  exact ⟨nonempty, parse_of_textRun nonempty alone⟩

/-- Escaped braces before braces, a single brace, two backslashes and closing braces, in and around
a block. -/
def bracedRuns : Text :=
  ("\\\x7b\x7b\x7b\x7b\x7ba\x7d\x7d\x7d\x7b\x7b#if b\x7d\x7d\x7b \\\x7b\x7b\x7b\x7belse\x7d\x7d" ++
    "\\\\\x7b\x7b!c\x7d\x7dd\x7b\x7b/if\x7d\x7d\x7d\x7d").toList

theorem runs_maximal_and_inert_bracedRuns :
    ∃ template, parse bracedRuns = .ok template ∧
      template.lists.map (·.map Statement.isText) =
        [[true, false, false, true], [true], [true, false, true]] ∧
      ∀ list ∈ template.lists, list.IsChain Statement.Apart ∧
        ∀ run, .text run ∈ list → run.chars ≠ [] ∧ parse run.chars = .ok (ofRun run.chars) := by
  have shapes : ((parse bracedRuns).toOption.map fun template =>
      template.lists.map (·.map Statement.isText)) =
      some [[true, false, false, true], [true], [true, false, true]] := by
    cbv
  obtain ⟨template, parsed, told⟩ := exists_parse_of_map shapes
  exact ⟨template, parsed, told, runs_maximal_and_inert parsed⟩

end Template

end TemplateSelectors
