import TemplateSelectors.Proofs.OffsetTags

/-!
# Blocks on a stack

Items make a tree in one pass: open blocks wait on a stack for their close tags, and a close tag
takes the chained blocks above its own block along.  The stack is looked up by its size, and a
block is placed from its opening tag up to its close tag.  For items in the order of the source
this is the tree that is read by recursion.
-/

set_option autoImplicit false

namespace TemplateSelectors

namespace ByOffsets

open Outcome (check)

/-! ## Open blocks -/

structure Frame where
  opening : Tag
  span : Span
  program : List Statement
  inverse : Option (ElseTag × List Statement)
  /-- Opened by a chain, so that it closes with the block below. -/
  chained : Bool
  /-- A chained block stands above. -/
  hasChain : Bool

namespace Frame

def fresh (opening : Tag) (span : Span) (chained : Bool) : Frame :=
  ⟨opening, span, [], none, chained, false⟩

def push (frame : Frame) (statement : Statement) : Frame :=
  match frame.inverse with
  | some (tag, body) => { frame with inverse := some (tag, body ++ [statement]) }
  | none => { frame with program := frame.program ++ [statement] }

def inverseWith (frame : Frame) (chain : Option Block) : Option Inverse :=
  match chain, frame.inverse with
  | some block, _ => some (.chained block)
  | none, some (tag, body) => some (.otherwise tag body)
  | none, none => none

def finish (source : Text) (frame : Frame) (chain : Option Block) (close : Option CloseTag)
    (stop : Nat) : Outcome Block := do
  let span ← spanBetween frame.span.start stop
  let loc ← locationOf source span
  return ⟨frame.opening, frame.program, frame.inverseWith chain, close, loc⟩

theorem finish_eq (source : Text) (frame : Frame) (chain : Option Block) (close : Option CloseTag)
    {stop : Nat} (ordered : frame.span.start ≤ stop) :
    frame.finish source chain close stop =
      .reached ⟨frame.opening, frame.program, frame.inverseWith chain, close,
        (LineIndex.ofText source).sourceSpan ⟨frame.span.start, stop⟩⟩ := by
  rw [finish, spanBetween_of_le ordered, Outcome.reached_bind, locationOf_eq, Outcome.reached_bind]
  rfl

end Frame

/-- The tree so far: the statements outside of blocks, and the open blocks, the innermost first. -/
structure Tower where
  root : List Statement
  stack : List Frame

def openFrame (source : Text) (stack : List Frame) (raw : Text) (span : Span) : Outcome Frame :=
  match stack.head?.map fun frame => frame.inverse.isSome || frame.hasChain with
  | none => refuseAt source (.misplaced (.elseOutside raw)) span
  | some true => refuseAt source (.misplaced (.elseAfterElse raw)) span
  | some false => do
      let top ← minus stack.length 1
      check stack.reverse[top]?

/-- The block that a close tag closes, with the open blocks below it. -/
def closeFrames (source : Text) (close : CloseTag) (span : Span) (chain : Option Block) :
    List Frame → Outcome (Block × List Frame)
  | [] => refuseAt source (.misplaced (.closeOutside close.raw)) span
  | frame :: below =>
      if frame.chained then do
        let block ← frame.finish source chain none span.start
        closeFrames source close span (some block) below
      else if frame.opening.name = close.path then do
        let block ← frame.finish source chain (some close) span.stop
        return (block, below)
      else refuseAt source (.mismatchedClose frame.opening.name close.raw) span

namespace Tower

def push (tower : Tower) (statement : Statement) : Tower :=
  match tower.stack with
  | frame :: below => { tower with stack := frame.push statement :: below }
  | [] => { tower with root := tower.root ++ [statement] }

def step (source : Text) (tower : Tower) : Item → Outcome Tower
  | .statement statement => return tower.push statement
  | .opening tag span => return { tower with stack := .fresh tag span false :: tower.stack }
  | .otherwise tag span => do
      let frame ← openFrame source tower.stack tag.raw span
      return { tower with stack := { frame with inverse := some (tag, []) } :: tower.stack.tail }
  | .chain tag span => do
      let frame ← openFrame source tower.stack (tag.source.getD []) span
      return { tower with
        stack := .fresh tag span true :: { frame with hasChain := true } :: tower.stack.tail }
  | .closing tag span => do
      let (block, below) ← closeFrames source tag span none tower.stack
      return push ⟨tower.root, below⟩ (.block block)

def grow (source : Text) (tower : Tower) : List Item → Outcome (List Statement)
  | [] =>
      match tower.stack with
      | frame :: _ => refuseAt source (.unclosed (.block frame.opening.name)) frame.span
      | [] => .reached tower.root
  | item :: items => do
      let tower ← tower.step source item
      grow source tower items

end Tower

/-! ## Steps on the stack -/

theorem openFrame_fresh (source : Text) {frame : Frame} (below : List Frame) (raw : Text)
    (span : Span) (half : frame.inverse = none) (last : frame.hasChain = false) :
    openFrame source (frame :: below) raw span = .reached frame := by
  have top : minus (frame :: below).length 1 = .reached below.length :=
    minus_of_le (by simp)
  have found : (frame :: below).reverse[below.length]? = some frame := by
    simp
  simp only [openFrame, List.head?_cons, Option.map_some, half, last, Option.isSome_none,
    Bool.or_false, top, Outcome.reached_bind, found, Outcome.check_some]

theorem openFrame_second (source : Text) {frame : Frame} (below : List Frame) (raw : Text)
    (span : Span) (half : frame.inverse.isSome = true) :
    openFrame source (frame :: below) raw span =
      .refused (Template.secondElse (.ofText source) raw span) := by
  simp only [openFrame, List.head?_cons, Option.map_some, half, Bool.true_or, refuseAt_eq]
  rfl

namespace Tower

theorem foldl_push_root (root statements : List Statement) :
    statements.foldl push ⟨root, []⟩ = ⟨root ++ statements, []⟩ := by
  induction statements generalizing root with
  | nil => rw [List.foldl_nil, List.append_nil]
  | cons statement statements inductionHypothesis =>
      rw [List.foldl_cons]
      exact (inductionHypothesis (root ++ [statement])).trans (by simp)

theorem foldl_push_program (root statements : List Statement) {frame : Frame} (below : List Frame)
    (half : frame.inverse = none) :
    statements.foldl push ⟨root, frame :: below⟩ =
      ⟨root, { frame with program := frame.program ++ statements } :: below⟩ := by
  induction statements generalizing frame with
  | nil => simp
  | cons statement statements inductionHypothesis =>
      have pushed : push ⟨root, frame :: below⟩ statement =
          ⟨root, { frame with program := frame.program ++ [statement] } :: below⟩ := by
        simp only [push, Frame.push, half]
      rw [List.foldl_cons, pushed]
      have later := @inductionHypothesis { frame with program := frame.program ++ [statement] } half
      exact later.trans (by simp)

theorem foldl_push_inverse (root statements : List Statement) (frame : Frame) (below : List Frame)
    (tag : ElseTag) (body : List Statement) :
    statements.foldl push ⟨root, { frame with inverse := some (tag, body) } :: below⟩ =
      ⟨root, { frame with inverse := some (tag, body ++ statements) } :: below⟩ := by
  induction statements generalizing body with
  | nil => simp
  | cons statement statements inductionHypothesis =>
      rw [List.foldl_cons]
      exact (inductionHypothesis (body ++ [statement])).trans (by simp)

end Tower

/-! ## Both ways to build a tree -/

structure InOrder (items : List Item) : Prop where
  ascending : items.Pairwise fun first second =>
    ∀ span later, first.span? = some span → second.span? = some later → span.start ≤ later.start
  ordered : ∀ item ∈ items, ∀ span, item.span? = some span → span.start ≤ span.stop

theorem InOrder.of_suffix {few many : List Item} (order : InOrder many) (suffix : few <:+ many) :
    InOrder few where
  ascending := order.ascending.sublist suffix.sublist
  ordered := fun item member => order.ordered item (suffix.subset member)

def StartFrom (start : Nat) (items : List Item) : Prop :=
  ∀ item ∈ items, ∀ span, item.span? = some span → start ≤ span.start

theorem InOrder.startFrom {item : Item} {items : List Item} {span : Span}
    (order : InOrder (item :: items)) (here : item.span? = some span) :
    StartFrom span.start items := by
  intro other member later there
  exact List.rel_of_pairwise_cons order.ascending member span later here there

/-- A close tag stands behind the tag that opens its block. -/
theorem InOrder.closing {items rest : List Item} {start : Nat} {close : CloseTag} {span : Span}
    (order : InOrder items) (starts : StartFrom start items)
    (suffix : .closing close span :: rest <:+ items) :
    start ≤ span.start ∧ span.start ≤ span.stop := by
  have member := suffix.subset List.mem_cons_self
  exact ⟨starts _ member span rfl, order.ordered _ member span rfl⟩

section

variable {source : Text}

/-- Goes on behind a close tag that closes the innermost of some open blocks. -/
def growBehind (source : Text) (root : List Statement) (close : CloseTag) (span : Span)
    (chain : Option Block) (stack : List Frame) (rest : List Item) : Outcome (List Statement) := do
  let (block, below) ← closeFrames source close span chain stack
  (Tower.push ⟨root, below⟩ (.block block)).grow source rest

theorem grow_closing (root : List Statement) (close : CloseTag) (span : Span) (stack : List Frame)
    (rest : List Item) :
    Tower.grow source ⟨root, stack⟩ (.closing close span :: rest) =
      growBehind source root close span none stack rest := by
  rw [Tower.grow, Tower.step, growBehind]
  cases closeFrames source close span none stack with
  | astray => rfl
  | refused error => rfl
  | reached closed => rfl

section

variable {frame : Frame}

theorem grow_otherwise (half : frame.inverse = none) (last : frame.hasChain = false)
    (root : List Statement) (below : List Frame) (tag : ElseTag) (span : Span) (rest : List Item) :
    Tower.grow source ⟨root, frame :: below⟩ (.otherwise tag span :: rest) =
      Tower.grow source ⟨root, { frame with inverse := some (tag, []) } :: below⟩ rest := by
  rw [Tower.grow, Tower.step, openFrame_fresh source below _ _ half last]
  rfl

theorem grow_chain (half : frame.inverse = none) (last : frame.hasChain = false)
    (root : List Statement) (below : List Frame) (tag : Tag) (span : Span) (rest : List Item) :
    Tower.grow source ⟨root, frame :: below⟩ (.chain tag span :: rest) =
      Tower.grow source
        ⟨root, .fresh tag span true :: { frame with hasChain := true } :: below⟩ rest := by
  rw [Tower.grow, Tower.step, openFrame_fresh source below _ _ half last]
  rfl

end

def growBlock (source : Text) (root : List Statement) (below : List Frame) (chained : Bool)
    (tag : Tag) (span : Span) (program : List Statement) (inverse : Option Inverse)
    (close : CloseTag) (closeSpan : Span) (rest : List Item) : Outcome (List Statement) :=
  let index := LineIndex.ofText source
  if chained then
    growBehind source root close closeSpan
      (some ⟨tag, program, inverse, none, index.sourceSpan ⟨span.start, closeSpan.start⟩⟩) below
      rest
  else if tag.name = close.path then
    (Tower.push ⟨root, below⟩ (.block ⟨tag, program, inverse, some close,
      index.sourceSpan ⟨span.start, closeSpan.stop⟩⟩)).grow source rest
  else .refused (index.errorAt (.mismatchedClose tag.name close.raw) closeSpan)

theorem growBehind_cons (root : List Statement) (close : CloseTag) {closeSpan : Span}
    (chain : Option Block) {frame : Frame} (below : List Frame) (rest : List Item)
    (started : frame.span.start ≤ closeSpan.start) (ordered : closeSpan.start ≤ closeSpan.stop) :
    growBehind source root close closeSpan chain (frame :: below) rest =
      growBlock source root below frame.chained frame.opening frame.span frame.program
        (frame.inverseWith chain) close closeSpan rest := by
  rw [growBehind, growBlock, closeFrames, frame.finish_eq source chain none started,
    frame.finish_eq source chain (some close) (Nat.le_trans started ordered)]
  split
  · rfl
  · split
    · rfl
    · rw [refuseAt_eq]
      rfl

/-- How the tree goes on from statements that were read by recursion. -/
def growBody (source : Text) (tower : Tower) {items : List Item} :
    Except ParseError (Body items) → Outcome (List Statement)
  | .error error => .refused error
  | .ok body => (body.statements.foldl Tower.push tower).grow source body.stop.items

/-- How the tree goes on from a section that was read by recursion. -/
def growSection (source : Text) (root : List Statement) (below : List Frame) (chained : Bool)
    (tag : Tag) (span : Span) {items : List Item} :
    Except ParseError (Section items) → Outcome (List Statement)
  | .error error => .refused error
  | .ok inner =>
      growBlock source root below chained tag span inner.program inner.inverse inner.close
        inner.closeSpan inner.rest

def GrowsBody (source : Text) (items : List Item) : Prop :=
  ∀ tower : Tower,
    tower.grow source items = growBody source tower (Template.readBody (.ofText source) items)

def GrowsSection (source : Text) (items : List Item) : Prop :=
  ∀ (tag : Tag) (span : Span), StartFrom span.start items →
    ∀ (root : List Statement) (below : List Frame) (chained : Bool),
      Tower.grow source ⟨root, .fresh tag span chained :: below⟩ items =
        growSection source root below chained tag span
          (Template.readSection (.ofText source) tag span items)

theorem growsBody_step {items : List Item} (order : InOrder items)
    (bodies : ∀ few : List Item, few.length < items.length → few <:+ items → GrowsBody source few)
    (sections : ∀ few : List Item, few.length < items.length → few <:+ items →
      GrowsSection source few) : GrowsBody source items := by
  intro tower
  cases items with
  | nil =>
      unfold Template.readBody
      rfl
  | cons item items =>
      have behind : items <:+ item :: items := List.suffix_cons _ _
      have fewer : items.length < (item :: items).length := Nat.lt_succ_self _
      cases item with
      | closing tag span =>
          unfold Template.readBody
          rfl
      | otherwise tag span =>
          unfold Template.readBody
          rfl
      | chain tag span =>
          unfold Template.readBody
          rfl
      | statement statement =>
          have later := bodies items fewer behind (tower.push statement)
          have steps : tower.grow source (.statement statement :: items) =
              (tower.push statement).grow source items := rfl
          unfold Template.readBody
          rw [steps, later]
          cases Template.readBody (.ofText source) items with
          | error error => rfl
          | ok body => rfl
      | opening tag span =>
          have inside := sections items fewer behind tag span (order.startFrom rfl) tower.root
            tower.stack false
          have steps : tower.grow source (.opening tag span :: items) =
              Tower.grow source ⟨tower.root, .fresh tag span false :: tower.stack⟩ items := rfl
          unfold Template.readBody
          rw [steps, inside]
          cases between : Template.readSection (.ofText source) tag span items with
          | error error => rfl
          | ok inner =>
              have closes := Template.suffix_of_derivesSection
                (Template.derivesSection_of_readSection between)
              have rest : inner.rest <:+ .opening tag span :: items :=
                ((List.suffix_cons _ _).trans closes).trans behind
              simp only [growSection, growBlock, Bool.false_eq_true, if_false]
              by_cases named : inner.close.path = tag.name
              · rw [if_pos named.symm, if_pos named,
                  bodies inner.rest (Nat.lt_succ_of_lt inner.shorter) rest]
                cases Template.readBody (.ofText source) inner.rest with
                | error error => rfl
                | ok body => rfl
              · rw [if_neg (Ne.symm named), if_neg named]
                rfl

/-- How the tree goes on from the second half of a block that was read by recursion. -/
def growSecond (source : Text) (root : List Statement) (below : List Frame) (chained : Bool)
    (tag : Tag) (span : Span) (program : List Statement) (elseTag : ElseTag) {items : List Item} :
    Except ParseError (Body items) → Outcome (List Statement)
  | .error error => .refused error
  | .ok second =>
      let index := LineIndex.ofText source
      match second.stop with
      | .finish => .refused (Template.unclosedBlock index tag span)
      | .otherwise again againSpan _ => .refused (Template.secondElse index again.raw againSpan)
      | .chain again againSpan _ =>
          .refused (Template.secondElse index (again.source.getD []) againSpan)
      | .closing close closeSpan rest =>
          growBlock source root below chained tag span program
            (some (.otherwise elseTag second.statements)) close closeSpan rest

theorem grow_second {items : List Item} {tag : Tag} {span : Span} (grows : GrowsBody source items)
    (order : InOrder items) (starts : StartFrom span.start items) (root : List Statement)
    (below : List Frame) (chained : Bool) (program : List Statement) (elseTag : ElseTag) :
    Tower.grow source ⟨root, ⟨tag, span, program, some (elseTag, []), chained, false⟩ :: below⟩
        items =
      growSecond source root below chained tag span program elseTag
        (Template.readBody (.ofText source) items) := by
  rw [grows]
  cases read : Template.readBody (.ofText source) items with
  | error error => rfl
  | ok second =>
      have suffix := Template.suffix_of_readBody read
      obtain ⟨statements, stop, notLonger⟩ := second
      have pushed : statements.foldl Tower.push
          ⟨root, ⟨tag, span, program, some (elseTag, []), chained, false⟩ :: below⟩ =
            ⟨root, ⟨tag, span, program, some (elseTag, statements), chained, false⟩ :: below⟩ :=
        Tower.foldl_push_inverse root statements ⟨tag, span, program, none, chained, false⟩ below
          elseTag []
      simp only [growBody, pushed]
      cases stop with
      | finish => exact refuseAt_eq source _ span
      | closing close closeSpan rest =>
          obtain ⟨started, ordered⟩ := order.closing starts suffix
          rw [Break.items, grow_closing, growBehind_cons root close none below rest started ordered]
          rfl
      | otherwise again againSpan rest =>
          rw [Break.items, Tower.grow, Tower.step, openFrame_second source below _ _ rfl]
          rfl
      | chain again againSpan rest =>
          rw [Break.items, Tower.grow, Tower.step, openFrame_second source below _ _ rfl]
          rfl

theorem growsSection_step {items : List Item} (order : InOrder items)
    (bodies : ∀ few : List Item, few.length ≤ items.length → few <:+ items → GrowsBody source few)
    (sections : ∀ few : List Item, few.length < items.length → few <:+ items →
      GrowsSection source few) : GrowsSection source items := by
  intro tag span starts root below chained
  rw [bodies items (Nat.le_refl _) (List.suffix_refl _), Template.readSection]
  cases front : Template.readBody (.ofText source) items with
  | error error => rfl
  | ok body =>
      have suffix := Template.suffix_of_readBody front
      obtain ⟨statements, stop, notLonger⟩ := body
      have pushed : statements.foldl Tower.push ⟨root, .fresh tag span chained :: below⟩ =
          ⟨root, ⟨tag, span, statements, none, chained, false⟩ :: below⟩ :=
        Tower.foldl_push_program root statements below rfl
      simp only [growBody, pushed]
      cases stop with
      | finish => exact refuseAt_eq source _ span
      | closing close closeSpan rest =>
          obtain ⟨started, ordered⟩ := order.closing starts suffix
          rw [Break.items, grow_closing, growBehind_cons root close none below rest started ordered]
          rfl
      | otherwise elseTag elseSpan rest =>
          have inside : rest <:+ items := (List.suffix_cons _ _).trans suffix
          have starts' : StartFrom span.start rest :=
            fun item member => starts item (inside.subset member)
          rw [Break.items, grow_otherwise rfl rfl, grow_second (bodies rest inside.length_le inside)
            (order.of_suffix inside) starts']
          cases second : Template.readBody (.ofText source) rest with
          | error error =>
              simp only [second]
              rfl
          | ok more =>
              obtain ⟨others, stop, notLonger⟩ := more
              simp only [second]
              cases stop with
              | finish => rfl
              | closing close closeSpan rest => rfl
              | otherwise again againSpan rest => rfl
              | chain again againSpan rest => rfl
      | chain chainTag chainSpan rest =>
          have inside : rest <:+ items := (List.suffix_cons _ _).trans suffix
          have shorter : rest.length < items.length := suffix.length_le
          have order' := order.of_suffix suffix
          rw [Break.items, grow_chain rfl rfl,
            sections rest shorter inside chainTag chainSpan (order'.startFrom rfl)]
          cases between : Template.readSection (.ofText source) chainTag chainSpan rest with
          | error error =>
              simp only [between]
              rfl
          | ok inner =>
              have closes := (Template.suffix_of_derivesSection
                (Template.derivesSection_of_readSection between)).trans inside
              obtain ⟨started, ordered⟩ := order.closing starts closes
              simp only [between, growSection]
              rw [growBlock, if_pos rfl,
                growBehind_cons root inner.close _ below inner.rest started ordered]
              rfl

theorem grows_below (bound : Nat) :
    (∀ items : List Item, items.length < bound → InOrder items → GrowsBody source items) ∧
      ∀ items : List Item, items.length < bound → InOrder items → GrowsSection source items := by
  induction bound with
  | zero =>
      refine ⟨?_, ?_⟩
      · intro items below
        omega
      · intro items below
        omega
  | succ bound inductionHypothesis =>
      obtain ⟨bodies, sections⟩ := inductionHypothesis
      have next : ∀ items : List Item, items.length < bound + 1 → InOrder items →
          GrowsBody source items := by
        intro items below order
        apply growsBody_step order
        · intro few less suffix
          exact bodies few (by omega) (order.of_suffix suffix)
        · intro few less suffix
          exact sections few (by omega) (order.of_suffix suffix)
      refine ⟨next, ?_⟩
      intro items below order
      apply growsSection_step order
      · intro few less suffix
        exact next few (by omega) (order.of_suffix suffix)
      · intro few less suffix
        exact sections few (by omega) (order.of_suffix suffix)

/-- Items that stand in a row in the source are in order. -/
theorem inOrder_of_placed {front : Text} {items : List Item}
    (placed : Item.Placed source front items) : InOrder items ∧ StartFrom front.size items := by
  induction items generalizing front with
  | nil => exact ⟨⟨.nil, fun _ member => nomatch member⟩, fun _ member => nomatch member⟩
  | cons item items inductionHypothesis =>
      obtain ⟨here, behind⟩ := placed
      obtain ⟨order, starts⟩ := inductionHypothesis behind
      have place := here.spans
      rw [Text.size_append] at starts
      refine ⟨⟨.cons ?_ order.ascending, ?_⟩, ?_⟩
      · intro other member span later given found
        have further := starts other member later found
        rw [place span given]
        simp only
        omega
      · intro other member span given
        rcases List.mem_cons.mp member with rfl | later
        · rw [place span given]
          simp
        · exact order.ordered other later span given
      · intro other member span given
        rcases List.mem_cons.mp member with rfl | later
        · rw [place span given]
        · have further := starts other later span given
          omega

/-- The tree that grows on a stack is the one that is read by recursion. -/
theorem grow_eq {items : List Item} (order : InOrder items) :
    Tower.grow source ⟨[], []⟩ items =
      .ofExcept (Template.ofItems (.ofText source) items) := by
  have grows : GrowsBody source items :=
    (grows_below (items.length + 1)).1 items (Nat.lt_succ_self _) order
  rw [grows, Template.ofItems]
  cases Template.readBody (.ofText source) items with
  | error error => rfl
  | ok body =>
      obtain ⟨statements, stop, notLonger⟩ := body
      simp only [growBody, Tower.foldl_push_root, List.nil_append]
      cases stop with
      | finish => rfl
      | closing tag span rest =>
          rw [Break.items, grow_closing, growBehind, closeFrames, refuseAt_eq]
          rfl
      | otherwise tag span rest =>
          rw [Break.items, Tower.grow, Tower.step, openFrame]
          simp only [List.head?_nil, Option.map_none, refuseAt_eq]
          rfl
      | chain tag span rest =>
          rw [Break.items, Tower.grow, Tower.step, openFrame]
          simp only [List.head?_nil, Option.map_none, refuseAt_eq]
          rfl

end

end ByOffsets

end TemplateSelectors
