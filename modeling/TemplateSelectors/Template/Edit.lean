import TemplateSelectors.Walk.Editor

/-!
# Edits

Changes to a tree that is already there: another name for a path wherever it
occurs, a change to one tag, one more statement.  A tag that is changed without
being marked dirty still prints as it was read.
-/

set_option autoImplicit false

namespace TemplateSelectors

namespace Tag

/-- Keeps the positional arguments at these places, in this order. -/
def keepParams (places : List Nat) (tag : Tag) : Tag :=
  { tag with params := places.filterMap fun place => tag.params[place]? }

def pushParam (param : Param) (tag : Tag) : Tag :=
  { tag with params := tag.params ++ [param] }

/-- Adds a keyword argument at the end; refused without a list of them. -/
def pushPair? (pair : HashPair) (tag : Tag) : Option Tag :=
  tag.hash.map fun hash => { tag with hash := some { hash with pairs := hash.pairs ++ [pair] } }

def getPair? (key : Text) (tag : Tag) : Option HashPair :=
  tag.hash.bind fun hash => hash.get? key

def dropHash (tag : Tag) : Tag :=
  { tag with hash := none }

def newHash (tag : Tag) : Tag :=
  { tag with hash := some .empty }

def setCallee (callee : Expression) (tag : Tag) : Tag :=
  { tag with callee := callee }

def setBlockParams (blockParams : Option Text) (tag : Tag) : Tag :=
  { tag with blockParams := blockParams }

end Tag

/-- Puts `target` in place of every path that reads `name`, and counts them; with
`dirty` every tag is marked dirty. -/
def renameEditor (name target : Text) (dirty : Bool) : Editor Nat :=
  let mark (tag : Tag) (count : Nat) : Verdict × Tag × Nat :=
    (.proceed, if dirty then tag.markDirty else tag, count)
  { visit _ count := (.proceed, count)
    mustache m count := mark m.tag count
    modifier m count := mark m.tag count
    block b count := mark b.opening count
    path p count :=
      if p.text = name then (.proceed, { p with text := target }, count + 1)
      else (.proceed, p, count)
    leave _ count := count }

def Template.renamePaths (name target : Text) (dirty : Bool) (template : Template) :
    Template × Nat :=
  let edited := template.edit (renameEditor name target dirty) 0
  (edited.value, edited.state)

/-- The search for a tag: how many are still to be passed, and what became of it. -/
structure TagSearch (α : Type) where
  left : Nat
  result : Option (Tag × α)

def TagSearch.apply {α : Type} (change : Tag → Tag × α) (tag : Tag) (search : TagSearch α) :
    Verdict × Tag × TagSearch α :=
  if search.left = 0 then
    let changed := change tag
    (.stop, changed.1, { search with result := some changed })
  else (.proceed, tag, { search with left := search.left - 1 })

def tagEditor {α : Type} (change : Tag → Tag × α) : Editor (TagSearch α) where
  visit _ search := (.proceed, search)
  mustache m search := search.apply change m.tag
  modifier m search := search.apply change m.tag
  block b search := search.apply change b.opening
  path p search := (.proceed, p, search)
  leave _ search := search

/-- Changes one tag, counted from zero in visiting order.  Returns the template, the
tag and what else came out; none if there is no such tag. -/
def Template.updateTag? {α : Type} (place : Nat) (change : Tag → Tag × α) (template : Template) :
    Option (Template × Tag × α) :=
  let edited := template.edit (tagEditor change) ⟨place, none⟩
  edited.state.result.map fun (tag, value) => (edited.value, tag, value)

def Template.push (statement : Statement) (template : Template) : Template :=
  { template with body := template.body ++ [statement] }

end TemplateSelectors
