import TemplateSelectors.Proofs.BlockGrammar

/-!
# Templates as sequences

Read from left to right, a template is a sequence of leaves: words that are copied as they are,
the tags of modifiers, and the tags of invocations, which are mustaches, blocks and the chains
behind them.  Printing a template is printing its leaves in a row, and building the tree of a
list of items neither loses nor adds nor moves a leaf.
-/

set_option autoImplicit false

namespace TemplateSelectors

/-- A part of a template that has no statements inside. -/
inductive Leaf where
  /-- Text, a comment, an else tag or a close tag. -/
  | words (text : Text)
  | modifier (tag : Tag)
  /-- The tag of a mustache or of a block. -/
  | invocation (tag : Tag)

namespace Leaf

def print : Leaf → Text
  | .words text => text
  | .modifier tag => tag.print
  | .invocation tag => tag.print

def tag? : Leaf → Option Tag
  | .words _ => none
  | .modifier _ => none
  | .invocation tag => some tag

/-- The tag of a leaf that has one, be it of an invocation or of a modifier. -/
def anyTag? : Leaf → Option Tag
  | .words _ => none
  | .modifier tag => some tag
  | .invocation tag => some tag

/-- Puts another tag in place of the tag of an invocation. -/
def mapTag (f : Tag → Tag) : Leaf → Leaf
  | .words text => .words text
  | .modifier tag => .modifier tag
  | .invocation tag => .invocation (f tag)

/-- Leaves in a row as text. -/
def printAll (leaves : List Leaf) : Text :=
  leaves.flatMap print

/-- The tags of the invocations, in order. -/
def tags (leaves : List Leaf) : List Tag :=
  leaves.filterMap tag?

/-- The tags of invocations and modifiers, in order. -/
def everyTag (leaves : List Leaf) : List Tag :=
  leaves.filterMap anyTag?

@[simp]
theorem printAll_nil : printAll [] = [] := rfl

@[simp]
theorem printAll_cons (leaf : Leaf) (leaves : List Leaf) :
    printAll (leaf :: leaves) = leaf.print ++ printAll leaves := rfl

@[simp]
theorem printAll_append (front back : List Leaf) :
    printAll (front ++ back) = printAll front ++ printAll back := by
  simp [printAll]

@[simp]
theorem tags_nil : tags [] = [] := rfl

@[simp]
theorem tags_words (text : Text) (leaves : List Leaf) :
    tags (.words text :: leaves) = tags leaves := rfl

@[simp]
theorem tags_modifier (tag : Tag) (leaves : List Leaf) :
    tags (.modifier tag :: leaves) = tags leaves := rfl

@[simp]
theorem tags_invocation (tag : Tag) (leaves : List Leaf) :
    tags (.invocation tag :: leaves) = tag :: tags leaves := rfl

@[simp]
theorem tags_append (front back : List Leaf) : tags (front ++ back) = tags front ++ tags back := by
  simp [tags]

@[simp]
theorem everyTag_append (front back : List Leaf) :
    everyTag (front ++ back) = everyTag front ++ everyTag back := by
  simp [everyTag]

theorem mem_everyTag_of_mem_tags {leaves : List Leaf} {tag : Tag} (member : tag ∈ tags leaves) :
    tag ∈ everyTag leaves := by
  obtain ⟨leaf, inside, found⟩ := List.mem_filterMap.mp member
  refine List.mem_filterMap.mpr ⟨leaf, inside, ?_⟩
  cases leaf with
  | words text => cases found
  | modifier tag => cases found
  | invocation tag => exact found

theorem tags_map (f : Tag → Tag) (leaves : List Leaf) :
    tags (leaves.map (mapTag f)) = (tags leaves).map f := by
  induction leaves with
  | nil => rfl
  | cons leaf leaves inductionHypothesis =>
      cases leaf <;> simp [mapTag, inductionHypothesis]

end Leaf

/-- The leaf of an optional close tag. -/
def closeLeaves : Option CloseTag → List Leaf
  | none => []
  | some close => [.words close.raw]

mutual

def Statement.leaves : Statement → List Leaf
  | .text run => [.words run.chars]
  | .comment c => [.words c.raw]
  | .mustache m => [.invocation m.tag]
  | .modifier m => [.modifier m.tag]
  | .block b => b.leaves

def Block.leaves : Block → List Leaf
  | ⟨opening, program, inverse, close, _⟩ =>
      .invocation opening :: (statementLeaves program ++ inverseLeaves inverse ++ closeLeaves close)

def Inverse.leaves : Inverse → List Leaf
  | .otherwise tag body => .words tag.raw :: statementLeaves body
  | .chained b => b.leaves

/-- The leaves of statements in a row. -/
def statementLeaves : List Statement → List Leaf
  | [] => []
  | statement :: statements => statement.leaves ++ statementLeaves statements

def inverseLeaves : Option Inverse → List Leaf
  | none => []
  | some inverse => inverse.leaves

end

def Template.leaves (template : Template) : List Leaf :=
  statementLeaves template.body

/-- The tags of the mustaches and blocks of a template, in document order. -/
def Template.tags (template : Template) : List Tag :=
  Leaf.tags template.leaves

/-- The tags of a template, those of modifiers included, in document order. -/
def Template.everyTag (template : Template) : List Tag :=
  Leaf.everyTag template.leaves

mutual

theorem Statement.print_leaves (statement : Statement) :
    Leaf.printAll statement.leaves = statement.print := by
  cases statement with
  | text run => simp [Statement.leaves, Statement.print, Leaf.print]
  | comment c => simp [Statement.leaves, Statement.print, Leaf.print]
  | mustache m => simp [Statement.leaves, Statement.print, Leaf.print, Mustache.print]
  | modifier m => simp [Statement.leaves, Statement.print, Leaf.print, Mustache.print]
  | block b => simp only [Statement.leaves, Statement.print, Block.print_leaves b]

theorem Block.print_leaves (block : Block) : Leaf.printAll block.leaves = block.print := by
  obtain ⟨opening, program, inverse, close, loc⟩ := block
  cases close <;>
    simp [Block.leaves, Block.print, Leaf.print, closeLeaves, printClose,
      print_statementLeaves program, print_inverseLeaves inverse]

theorem Inverse.print_leaves (inverse : Inverse) :
    Leaf.printAll inverse.leaves = inverse.print := by
  cases inverse with
  | otherwise tag body =>
      simp [Inverse.leaves, Inverse.print, Leaf.print, print_statementLeaves body]
  | chained b => simp only [Inverse.leaves, Inverse.print, Block.print_leaves b]

theorem print_statementLeaves (statements : List Statement) :
    Leaf.printAll (statementLeaves statements) = printStatements statements := by
  cases statements with
  | nil => rfl
  | cons statement statements =>
      simp [statementLeaves, printStatements, Statement.print_leaves statement,
        print_statementLeaves statements]

theorem print_inverseLeaves (inverse : Option Inverse) :
    Leaf.printAll (inverseLeaves inverse) = printInverse inverse := by
  cases inverse with
  | none => rfl
  | some inverse => simp only [inverseLeaves, printInverse, Inverse.print_leaves inverse]

end

theorem Template.print_leaves (template : Template) :
    Leaf.printAll template.leaves = template.print :=
  print_statementLeaves template.body

/-! ## Other tags in the same tree -/

mutual

/-- Puts another tag in place of the tag of every mustache and block. -/
def Statement.mapTags (f : Tag → Tag) : Statement → Statement
  | .text run => .text run
  | .comment c => .comment c
  | .mustache m => .mustache { m with tag := f m.tag }
  | .modifier m => .modifier m
  | .block b => .block (b.mapTags f)

def Block.mapTags (f : Tag → Tag) : Block → Block
  | ⟨opening, program, inverse, close, loc⟩ =>
      ⟨f opening, mapStatements f program, mapInverse f inverse, close, loc⟩

def Inverse.mapTags (f : Tag → Tag) : Inverse → Inverse
  | .otherwise tag body => .otherwise tag (mapStatements f body)
  | .chained b => .chained (b.mapTags f)

def mapStatements (f : Tag → Tag) : List Statement → List Statement
  | [] => []
  | statement :: statements => statement.mapTags f :: mapStatements f statements

def mapInverse (f : Tag → Tag) : Option Inverse → Option Inverse
  | none => none
  | some inverse => some (inverse.mapTags f)

end

def Template.mapTags (f : Tag → Tag) (template : Template) : Template :=
  { template with body := mapStatements f template.body }

mutual

theorem Statement.leaves_mapTags (f : Tag → Tag) (statement : Statement) :
    (statement.mapTags f).leaves = statement.leaves.map (Leaf.mapTag f) := by
  cases statement with
  | text run => rfl
  | comment c => rfl
  | mustache m => rfl
  | modifier m => rfl
  | block b => simp only [Statement.mapTags, Statement.leaves, Block.leaves_mapTags f b]

theorem Block.leaves_mapTags (f : Tag → Tag) (block : Block) :
    (block.mapTags f).leaves = block.leaves.map (Leaf.mapTag f) := by
  obtain ⟨opening, program, inverse, close, loc⟩ := block
  cases close <;>
    simp [Block.mapTags, Block.leaves, closeLeaves, Leaf.mapTag, leaves_mapStatements f program,
      leaves_mapInverse f inverse]

theorem Inverse.leaves_mapTags (f : Tag → Tag) (inverse : Inverse) :
    (inverse.mapTags f).leaves = inverse.leaves.map (Leaf.mapTag f) := by
  cases inverse with
  | otherwise tag body =>
      simp [Inverse.mapTags, Inverse.leaves, Leaf.mapTag, leaves_mapStatements f body]
  | chained b => simp only [Inverse.mapTags, Inverse.leaves, Block.leaves_mapTags f b]

theorem leaves_mapStatements (f : Tag → Tag) (statements : List Statement) :
    statementLeaves (mapStatements f statements) =
      (statementLeaves statements).map (Leaf.mapTag f) := by
  cases statements with
  | nil => rfl
  | cons statement statements =>
      simp [mapStatements, statementLeaves, Statement.leaves_mapTags f statement,
        leaves_mapStatements f statements]

theorem leaves_mapInverse (f : Tag → Tag) (inverse : Option Inverse) :
    inverseLeaves (mapInverse f inverse) = (inverseLeaves inverse).map (Leaf.mapTag f) := by
  cases inverse with
  | none => rfl
  | some inverse => simp only [mapInverse, inverseLeaves, Inverse.leaves_mapTags f inverse]

end

theorem Template.leaves_mapTags (f : Tag → Tag) (template : Template) :
    (template.mapTags f).leaves = template.leaves.map (Leaf.mapTag f) :=
  leaves_mapStatements f template.body

theorem Template.print_mapTags_leaves (f : Tag → Tag) (template : Template) :
    (template.mapTags f).print = Leaf.printAll (template.leaves.map (Leaf.mapTag f)) := by
  rw [← Template.print_leaves, Template.leaves_mapTags]

theorem Template.tags_mapTags (f : Tag → Tag) (template : Template) :
    (template.mapTags f).tags = template.tags.map f := by
  rw [Template.tags, Template.leaves_mapTags, Leaf.tags_map, Template.tags]

mutual

theorem Statement.mapTags_eq_self {f : Tag → Tag} (statement : Statement)
    (fixed : ∀ tag ∈ Leaf.tags statement.leaves, f tag = tag) : statement.mapTags f = statement := by
  cases statement with
  | text run => rfl
  | comment c => rfl
  | mustache m => simp [Statement.mapTags, fixed m.tag (by simp [Statement.leaves])]
  | modifier m => rfl
  | block b => simp only [Statement.mapTags, Block.mapTags_eq_self b fixed]

theorem Block.mapTags_eq_self {f : Tag → Tag} (block : Block)
    (fixed : ∀ tag ∈ Leaf.tags block.leaves, f tag = tag) : block.mapTags f = block := by
  obtain ⟨opening, program, inverse, close, loc⟩ := block
  have first : f opening = opening := fixed opening (by simp [Block.leaves])
  have inProgram : ∀ tag ∈ Leaf.tags (statementLeaves program), f tag = tag := by
    intro tag member
    exact fixed tag (by simp [Block.leaves, member])
  have inInverse : ∀ tag ∈ Leaf.tags (inverseLeaves inverse), f tag = tag := by
    intro tag member
    exact fixed tag (by simp [Block.leaves, member])
  simp only [Block.mapTags, first, mapStatements_eq_self program inProgram,
    mapInverse_eq_self inverse inInverse]

theorem Inverse.mapTags_eq_self {f : Tag → Tag} (inverse : Inverse)
    (fixed : ∀ tag ∈ Leaf.tags inverse.leaves, f tag = tag) : inverse.mapTags f = inverse := by
  cases inverse with
  | otherwise tag body =>
      have inBody : ∀ tag ∈ Leaf.tags (statementLeaves body), f tag = tag := by
        intro tag member
        exact fixed tag (by simp [Inverse.leaves, member])
      simp only [Inverse.mapTags, mapStatements_eq_self body inBody]
  | chained b => simp only [Inverse.mapTags, Block.mapTags_eq_self b fixed]

theorem mapStatements_eq_self {f : Tag → Tag} (statements : List Statement)
    (fixed : ∀ tag ∈ Leaf.tags (statementLeaves statements), f tag = tag) :
    mapStatements f statements = statements := by
  cases statements with
  | nil => rfl
  | cons statement statements =>
      have inFirst : ∀ tag ∈ Leaf.tags statement.leaves, f tag = tag := by
        intro tag member
        exact fixed tag (by simp [statementLeaves, member])
      have inRest : ∀ tag ∈ Leaf.tags (statementLeaves statements), f tag = tag := by
        intro tag member
        exact fixed tag (by simp [statementLeaves, member])
      simp only [mapStatements, Statement.mapTags_eq_self statement inFirst,
        mapStatements_eq_self statements inRest]

theorem mapInverse_eq_self {f : Tag → Tag} (inverse : Option Inverse)
    (fixed : ∀ tag ∈ Leaf.tags (inverseLeaves inverse), f tag = tag) :
    mapInverse f inverse = inverse := by
  cases inverse with
  | none => rfl
  | some inverse => simp only [mapInverse, Inverse.mapTags_eq_self inverse fixed]

end

theorem Template.mapTags_eq_self {f : Tag → Tag} (template : Template)
    (fixed : ∀ tag ∈ template.tags, f tag = tag) : template.mapTags f = template := by
  simp only [Template.mapTags, mapStatements_eq_self template.body fixed]

/-! ## The leaves of items -/

def Item.leaves : Item → List Leaf
  | .statement s => s.leaves
  | .opening tag _ => [.invocation tag]
  | .otherwise tag _ => [.words tag.raw]
  | .chain tag _ => [.invocation tag]
  | .closing tag _ => [.words tag.raw]

theorem Item.print_leaves (item : Item) : Leaf.printAll item.leaves = item.text := by
  cases item with
  | statement s => exact s.print_leaves
  | opening tag span => simp [Item.leaves, Item.text, Leaf.print]
  | otherwise tag span => simp [Item.leaves, Item.text, Leaf.print]
  | chain tag span => simp [Item.leaves, Item.text, Leaf.print]
  | closing tag span => simp [Item.leaves, Item.text, Leaf.print]

/-- The leaves from a break on. -/
def Break.leaves : Break → List Leaf
  | .finish => []
  | .closing tag _ rest => .words tag.raw :: rest.flatMap Item.leaves
  | .otherwise tag _ rest => .words tag.raw :: rest.flatMap Item.leaves
  | .chain tag _ rest => .invocation tag :: rest.flatMap Item.leaves

/-- Building a tree keeps every leaf in its place: those of the statements, and those from the
break on, are the leaves of the items. -/
theorem Template.leaves_of_derives {index : LineIndex} {items : List Item}
    {statements : List Statement} {stop : Break} (derived : Derives index items statements stop) :
    statementLeaves statements ++ stop.leaves = items.flatMap Item.leaves := by
  induction derived using Derives.induction
    (Q := fun items program inverse close _ rest =>
      statementLeaves program ++ inverseLeaves inverse ++
        .words close.raw :: rest.flatMap Item.leaves = items.flatMap Item.leaves) with
  | finish => rfl
  | closing tag span rest => rfl
  | otherwise tag span rest => rfl
  | chain tag span rest => rfl
  | statement statement rest statements stop more =>
      simp [statementLeaves, Item.leaves, ← more]
  | block tag span items rest program statements inverse close closeSpan stop inner named more =>
      simp [statementLeaves, Statement.leaves, Block.leaves, closeLeaves, Item.leaves, ← inner,
        ← more]
  | plainSection items rest program close closeSpan body =>
      simpa [inverseLeaves, Break.leaves] using body
  | elseSection items behind rest program second elseTag elseSpan closeSpan close body half =>
      simp [inverseLeaves, Inverse.leaves, ← body, Break.leaves, ← half]
  | chainSection items behind rest program second inverse chainTag chainSpan closeSpan close body
      inner =>
      simp [inverseLeaves, Inverse.leaves, Block.leaves, closeLeaves, ← body, Break.leaves, ← inner]

end TemplateSelectors
