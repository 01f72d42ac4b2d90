import TemplateSelectors.Lexeme
import TemplateSelectors.Markup
import TemplateSelectors.TagBody.Located

/-!
# Items

The items of a source, in order: whole statements, and the tags that open, divide
and close blocks.  An item remembers the bytes that it covers, so that a block can
be placed once both of its ends are known.
-/

set_option autoImplicit false

namespace TemplateSelectors

inductive Item where
  | statement (statement : Statement)
  | opening (tag : Tag) (span : Span)
  | otherwise (tag : ElseTag) (span : Span)
  | chain (tag : Tag) (span : Span)
  | closing (tag : CloseTag) (span : Span)

namespace Item

def text : Item → Text
  | .statement s => s.print
  | .opening tag _ => tag.print
  | .otherwise tag _ => tag.raw
  | .chain tag _ => tag.print
  | .closing tag _ => tag.raw

def elseWord : Text :=
  ['e', 'l', 's', 'e']

/-- What a tag between two braces is, with the text that is read as its inside. -/
inductive TagForm where
  | opening (body : Text)
  | closing (path : Text)
  | otherwise
  | chain (spaces body : Text)
  | mustache
  | refused (form : UnsupportedForm)
deriving DecidableEq, Repr

/-- What a tag is whose first character says nothing: the keyword divides a block. -/
def TagForm.ofWord (inner : Text) : TagForm :=
  match Text.after? elseWord (Text.trimStart inner) with
  | none => .mustache
  | some after =>
      if Text.trim after = [] then .otherwise
      else if after.head?.any Text.isSpace then .chain (inner.takeWhile Text.isSpace) after
      else .mustache

def TagForm.ofInner : (inner : Text) → TagForm
  | '#' :: '>' :: _ => .refused .partialBlocks
  | '#' :: '*' :: _ => .refused .decoratorBlocks
  | '#' :: body => .opening body
  | '/' :: path => .closing path
  | '^' :: rest => if Text.trim rest = [] then .otherwise else .refused .inverseSections
  | '>' :: _ => .refused .partials
  | '*' :: _ => .refused .decorators
  | inner => .ofWord inner

def ofMustache (markup : Markup) (tag : Tag) : Item :=
  if markup.atAttribute then .statement (.modifier ⟨tag, false⟩)
  else .statement (.mustache ⟨tag, false⟩)

/-- The item that a lexeme at offset `start` stands for, and the markup behind it. -/
def ofLexeme (index : LineIndex) (markup : Markup) (start : Nat) (lexeme : Lexeme) :
    Except ParseError (Item × Markup) :=
  let raw := lexeme.raw
  let span : Span := ⟨start, start + raw.size⟩
  let loc := index.sourceSpan span
  match lexeme with
  | .comment _ value _ => .ok (.statement (.comment ⟨raw, value, loc⟩), markup)
  | .tag true opener inner closer =>
      (Tag.read index start opener inner closer).map fun tag =>
        (.statement (.mustache ⟨tag, true⟩), markup.afterTag)
  | .tag false opener inner closer =>
      match TagForm.ofInner inner with
      | .opening body =>
          (Tag.read index start (opener ++ ['#']) body closer).map fun tag =>
            (.opening tag span, markup)
      | .closing path => .ok (.closing ⟨raw, Text.trim path, loc⟩ span, markup)
      | .otherwise => .ok (.otherwise ⟨raw, loc⟩ span, markup)
      | .chain spaces body =>
          (Tag.read index start (opener ++ spaces ++ elseWord) body closer).map fun tag =>
            (.chain tag span, markup)
      | .mustache =>
          (Tag.read index start opener inner closer).map fun tag =>
            (ofMustache markup tag, markup.afterTag)
      | .refused form => .error (index.errorAt (.unsupported form) span)

def ofText (index : LineIndex) (start : Nat) (chars : Text) : List Item :=
  if chars.isEmpty then []
  else [.statement (.text ⟨chars, index.sourceSpan ⟨start, start + chars.size⟩⟩)]

theorem length_lt_of_read {text chars behind rest : Text} {lexeme : Lexeme}
    (run : textRun false false text = (chars, '{' :: '{' :: behind))
    (found : Lexeme.read behind = .ok (lexeme, rest)) : rest.length < text.length := by
  have whole := textRun_append false false text
  rw [run, Lexeme.append_eq_of_read found] at whole
  have total := congrArg List.length whole
  have := List.length_pos_iff.mpr (Lexeme.raw_ne_nil_of_read found)
  simp only [List.length_append] at total
  omega

/-- The items of `text`, which begins at offset `start` of the indexed source. -/
def scan (index : LineIndex) (markup : Markup) (start : Nat) (text : Text) :
    Except ParseError (List Item) :=
  match _run : textRun false false text with
  | (chars, '{' :: '{' :: behind) =>
      let lexemeStart := start + chars.size
      match _found : Lexeme.read behind with
      | .error (cause, size) =>
          .error (index.errorAt cause ⟨lexemeStart, lexemeStart + size⟩)
      | .ok (lexeme, rest) =>
          match ofLexeme index (markup.advance chars) lexemeStart lexeme with
          | .error error => .error error
          | .ok (item, markup') =>
              (scan index markup' (lexemeStart + lexeme.raw.size) rest).map fun items =>
                ofText index start chars ++ item :: items
  | (chars, _) => .ok (ofText index start chars)
termination_by text.length
decreasing_by exact length_lt_of_read _run _found

end Item

end TemplateSelectors
