import TemplateSelectors.Item

/-!
# Reading templates

Items become a tree: an opening tag, the statements behind it, an optional second
half and the matching close tag make a block.

    body    := (statement | opening section closing)*
    section := body | body else body | body chain section

A block that is opened by a chain shares the close tag of the block around it and
ends where that tag begins.
-/

set_option autoImplicit false

namespace TemplateSelectors

/-- Where a list of statements breaks off: at the end of the items, or at a tag
that divides or closes the block around it, with the items behind that tag. -/
inductive Break where
  | finish
  | closing (tag : CloseTag) (span : Span) (rest : List Item)
  | otherwise (tag : ElseTag) (span : Span) (rest : List Item)
  | chain (tag : Tag) (span : Span) (rest : List Item)

def Break.remaining : Break → Nat
  | .finish => 0
  | .closing _ _ rest => rest.length + 1
  | .otherwise _ _ rest => rest.length + 1
  | .chain _ _ rest => rest.length + 1

structure Body (items : List Item) where
  statements : List Statement
  stop : Break
  notLonger : stop.remaining ≤ items.length

/-- What stands between an opening tag and its close tag, with that tag and the
items behind it. -/
structure Section (items : List Item) where
  program : List Statement
  inverse : Option Inverse
  close : CloseTag
  closeSpan : Span
  rest : List Item
  shorter : rest.length < items.length

namespace Template

def unclosedBlock (index : LineIndex) (tag : Tag) (span : Span) : ParseError :=
  index.errorAt (.unclosed (.block tag.name)) span

def secondElse (index : LineIndex) (raw : Text) (span : Span) : ParseError :=
  index.errorAt (.misplaced (.elseAfterElse raw)) span

mutual

def readBody (index : LineIndex) (items : List Item) : Except ParseError (Body items) :=
  match items with
  | [] => .ok ⟨[], .finish, Nat.zero_le _⟩
  | .closing tag span :: rest => .ok ⟨[], .closing tag span rest, Nat.le_refl _⟩
  | .otherwise tag span :: rest => .ok ⟨[], .otherwise tag span rest, Nat.le_refl _⟩
  | .chain tag span :: rest => .ok ⟨[], .chain tag span rest, Nat.le_refl _⟩
  | .statement statement :: rest =>
      match readBody index rest with
      | .error error => .error error
      | .ok body =>
          .ok ⟨statement :: body.statements, body.stop, Nat.le_succ_of_le body.notLonger⟩
  | .opening tag span :: rest =>
      match readSection index tag span rest with
      | .error error => .error error
      | .ok inner =>
          if inner.close.path = tag.name then
            match readBody index inner.rest with
            | .error error => .error error
            | .ok body =>
                let block : Block := {
                  opening := tag
                  program := inner.program
                  inverse := inner.inverse
                  close := some inner.close
                  loc := index.sourceSpan ⟨span.start, inner.closeSpan.stop⟩ }
                .ok {
                  statements := .block block :: body.statements
                  stop := body.stop
                  notLonger := by
                    have h₁ := inner.shorter
                    have h₂ := body.notLonger
                    simp only [List.length_cons]
                    omega }
          else
            .error (index.errorAt (.mismatchedClose tag.name inner.close.raw) inner.closeSpan)
termination_by (items.length, 0)
decreasing_by
  · exact Prod.Lex.left _ _ (Nat.lt_succ_self _)
  · exact Prod.Lex.left _ _ (Nat.lt_succ_self _)
  · exact Prod.Lex.left _ _ (Nat.lt_succ_of_lt inner.shorter)

/-- Reads what stands between the opening `tag` and its close tag. -/
def readSection (index : LineIndex) (tag : Tag) (span : Span) (items : List Item) :
    Except ParseError (Section items) :=
  match readBody index items with
  | .error error => .error error
  | .ok body =>
      match break₁ : body.stop with
      | .finish => .error (unclosedBlock index tag span)
      | .closing close closeSpan rest =>
          .ok {
            program := body.statements
            inverse := none
            close := close
            closeSpan := closeSpan
            rest := rest
            shorter := by
              have h₁ := body.notLonger
              rw [break₁] at h₁
              exact h₁ }
      | .otherwise elseTag _ rest₁ =>
          match readBody index rest₁ with
          | .error error => .error error
          | .ok second =>
              match break₂ : second.stop with
              | .finish => .error (unclosedBlock index tag span)
              | .otherwise again againSpan _ => .error (secondElse index again.raw againSpan)
              | .chain again againSpan _ =>
                  .error (secondElse index (again.source.getD []) againSpan)
              | .closing close closeSpan rest =>
                  .ok {
                    program := body.statements
                    inverse := some (.otherwise elseTag second.statements)
                    close := close
                    closeSpan := closeSpan
                    rest := rest
                    shorter := by
                      have h₁ := body.notLonger
                      have h₂ := second.notLonger
                      rw [break₁] at h₁
                      rw [break₂] at h₂
                      simp only [Break.remaining] at h₁ h₂
                      omega }
      | .chain chainTag chainSpan rest₁ =>
          match readSection index chainTag chainSpan rest₁ with
          | .error error => .error error
          | .ok inner =>
              let block : Block := {
                opening := chainTag
                program := inner.program
                inverse := inner.inverse
                close := none
                loc := index.sourceSpan ⟨chainSpan.start, inner.closeSpan.start⟩ }
              .ok {
                program := body.statements
                inverse := some (.chained block)
                close := inner.close
                closeSpan := inner.closeSpan
                rest := inner.rest
                shorter := by
                  have h₁ := body.notLonger
                  have h₂ := inner.shorter
                  rw [break₁] at h₁
                  simp only [Break.remaining] at h₁
                  omega }
termination_by (items.length, 1)
decreasing_by
  · exact Prod.Lex.right _ Nat.zero_lt_one
  · have h₁ := body.notLonger
    rw [break₁] at h₁
    exact Prod.Lex.left _ _ h₁
  · have h₁ := body.notLonger
    rw [break₁] at h₁
    exact Prod.Lex.left _ _ h₁

end

def ofItems (index : LineIndex) (items : List Item) : Except ParseError (List Statement) :=
  match readBody index items with
  | .error error => .error error
  | .ok body =>
      match body.stop with
      | .finish => .ok body.statements
      | .closing tag span _ => .error (index.errorAt (.misplaced (.closeOutside tag.raw)) span)
      | .otherwise tag span _ => .error (index.errorAt (.misplaced (.elseOutside tag.raw)) span)
      | .chain tag span _ =>
          .error (index.errorAt (.misplaced (.elseOutside (tag.source.getD []))) span)

def parse (source : Text) : Except ParseError Template :=
  let index := LineIndex.ofText source
  match Item.scan index .initial 0 source with
  | .error error => .error error
  | .ok items =>
      match ofItems index items with
      | .error error => .error error
      | .ok body => .ok ⟨body, index.sourceSpan ⟨0, source.size⟩⟩

end Template

end TemplateSelectors
