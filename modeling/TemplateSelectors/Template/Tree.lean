import TemplateSelectors.Template.Expression

/-!
# Templates

A template is a list of statements: runs of text, comments, mustaches, element
modifiers and blocks.  A tag that was read from a source keeps its text and
prints it unchanged until it is marked dirty; from then on it prints from its
parts.
-/

set_option autoImplicit false

namespace TemplateSelectors

structure Tag where
  /-- The opening braces with what belongs to them, such as `~`, `#` or `else`. -/
  opener : Text
  leading : Text
  callee : Expression
  params : List Param
  hash : Option Hash
  /-- The names given to a block, such as ` as |a b|`, with the space before. -/
  blockParams : Option Text
  trailing : Text
  closer : Text
  loc : SourceSpan
  /-- The text that the tag was read from, while it is untouched. -/
  source : Option Text

namespace Tag

/-- A tag made of its parts; it is dirty from the start. -/
def ofCallee (opener : Text) (callee : Expression) (closer : Text) : Tag where
  opener := opener
  leading := []
  callee := callee
  params := []
  hash := some .empty
  blockParams := none
  trailing := []
  closer := closer
  loc := .nowhere
  source := none

def markDirty (tag : Tag) : Tag :=
  { tag with source := none }

def isDirty (tag : Tag) : Bool :=
  tag.source.isNone

/-- The callee as text: `if`, `my-component`, `this.helper`. -/
def name (tag : Tag) : Text :=
  tag.callee.print

def printParts (tag : Tag) : Text :=
  tag.opener ++ tag.leading ++ tag.callee.print ++ printParams tag.params ++
    (tag.hash.map Hash.print).getD [] ++ tag.blockParams.getD [] ++ tag.trailing ++ tag.closer

def print (tag : Tag) : Text :=
  tag.source.getD tag.printParts

end Tag

structure TextRun where
  chars : Text
  loc : SourceSpan
deriving DecidableEq, Repr, Inhabited

structure Comment where
  raw : Text
  value : Text
  loc : SourceSpan
deriving DecidableEq, Repr, Inhabited

structure Mustache where
  tag : Tag
  /-- Whether the value is inserted without escaping. -/
  trusting : Bool

structure ElseTag where
  raw : Text
  loc : SourceSpan
deriving DecidableEq, Repr, Inhabited

structure CloseTag where
  raw : Text
  path : Text
  loc : SourceSpan
deriving DecidableEq, Repr, Inhabited

mutual

inductive Statement where
  | text (run : TextRun)
  | comment (comment : Comment)
  | mustache (mustache : Mustache)
  | modifier (mustache : Mustache)
  | block (block : Block)

/-- A block.  One that was reached through `else` has no close tag of its own: it
shares that of the block around it. -/
structure Block where
  opening : Tag
  program : List Statement
  inverse : Option Inverse
  close : Option CloseTag
  loc : SourceSpan

inductive Inverse where
  | otherwise (tag : ElseTag) (body : List Statement)
  | chained (block : Block)

end

structure Template where
  body : List Statement
  loc : SourceSpan

def Mustache.print (mustache : Mustache) : Text :=
  mustache.tag.print

def printClose : Option CloseTag → Text
  | none => []
  | some close => close.raw

mutual

def Statement.print : Statement → Text
  | .text run => run.chars
  | .comment c => c.raw
  | .mustache m => m.print
  | .modifier m => m.print
  | .block b => b.print

def Block.print : Block → Text
  | ⟨opening, program, inverse, close, _⟩ =>
      opening.print ++ printStatements program ++ printInverse inverse ++ printClose close

def Inverse.print : Inverse → Text
  | .otherwise tag body => tag.raw ++ printStatements body
  | .chained b => b.print

def printStatements : List Statement → Text
  | [] => []
  | statement :: statements => statement.print ++ printStatements statements

def printInverse : Option Inverse → Text
  | none => []
  | some inverse => inverse.print

end

def Template.print (template : Template) : Text :=
  printStatements template.body

def Block.isChained (block : Block) : Bool :=
  block.close.isNone

inductive StatementKind where
  | invocation
  | blockInvocation
  | other
deriving DecidableEq, Repr, Inhabited

def Statement.kind : Statement → StatementKind
  | .mustache _ => .invocation
  | .block _ => .blockInvocation
  | .text _ | .comment _ | .modifier _ => .other

def Statement.loc : Statement → SourceSpan
  | .text run => run.loc
  | .comment c => c.loc
  | .mustache m => m.tag.loc
  | .modifier m => m.tag.loc
  | .block b => b.loc

end TemplateSelectors
