import TemplateSelectors.Proofs.Scanning

/-!
# The structure of blocks

Which lists of items make a tree.  The rules

    body := (statement | opening body tail closing)*
    tail := nothing | else body | chain body tail

speak of items alone: an opening tag and the tag that closes it give the same path, and a chain
is closed together with the block around it.  A list of items has a tree exactly when it is a
body.  In the tree each block has the close tag that its place asks for, and the pieces of the
tree, from left to right, are the items.
-/

set_option autoImplicit false

namespace TemplateSelectors

mutual

inductive Item.IsBody : List Item → Prop where
  | nil : IsBody []
  | statement (statement : Statement) {rest : List Item} (more : IsBody rest) :
      IsBody (.statement statement :: rest)
  | block (tag : Tag) (span : Span) (close : CloseTag) (closeSpan : Span)
      {program tail rest : List Item} (inside : IsBody program) (second : IsTail tail)
      (named : close.path = tag.name) (more : IsBody rest) :
      IsBody (.opening tag span :: (program ++ tail ++ .closing close closeSpan :: rest))

/-- What may stand between the first half of a block and its close tag. -/
inductive Item.IsTail : List Item → Prop where
  | nil : IsTail []
  | otherwise (tag : ElseTag) (span : Span) {body : List Item} (inside : IsBody body) :
      IsTail (.otherwise tag span :: body)
  | chain (tag : Tag) (span : Span) {program tail : List Item} (inside : IsBody program)
      (second : IsTail tail) : IsTail (.chain tag span :: (program ++ tail))

end

/-! ## Blocks and their places -/

/-- A block with its place: among statements, or behind a chain in the second half of a block. -/
inductive PlacedBlock where
  | listed (block : Block)
  | chained (block : Block)

/-- Among statements a block has a close tag that names it; behind a chain it has none. -/
def PlacedBlock.Fits : PlacedBlock → Prop
  | .listed block => ∃ close, block.close = some close ∧ close.path = block.opening.name
  | .chained block => block.close = none

mutual

def Statement.blocks : Statement → List PlacedBlock
  | .text _ | .comment _ | .mustache _ | .modifier _ => []
  | .block b => .listed b :: b.innerBlocks

def Block.innerBlocks : Block → List PlacedBlock
  | ⟨_, program, inverse, _, _⟩ => statementBlocks program ++ inverseBlocks inverse

def Inverse.blocks : Inverse → List PlacedBlock
  | .otherwise _ body => statementBlocks body
  | .chained b => .chained b :: b.innerBlocks

def statementBlocks : List Statement → List PlacedBlock
  | [] => []
  | statement :: statements => statement.blocks ++ statementBlocks statements

def inverseBlocks : Option Inverse → List PlacedBlock
  | none => []
  | some inverse => inverse.blocks

end

/-! ## Pieces -/

/-- An item without its span. -/
inductive Piece where
  | statement (statement : Statement)
  | opening (tag : Tag)
  | otherwise (tag : ElseTag)
  | chain (tag : Tag)
  | closing (tag : CloseTag)

def closePieces : Option CloseTag → List Piece
  | none => []
  | some close => [.closing close]

mutual

def Statement.pieces : Statement → List Piece
  | .text run => [.statement (.text run)]
  | .comment c => [.statement (.comment c)]
  | .mustache m => [.statement (.mustache m)]
  | .modifier m => [.statement (.modifier m)]
  | .block b => .opening b.opening :: b.innerPieces

def Block.innerPieces : Block → List Piece
  | ⟨_, program, inverse, close, _⟩ =>
      statementPieces program ++ inversePieces inverse ++ closePieces close

def Inverse.pieces : Inverse → List Piece
  | .otherwise tag body => .otherwise tag :: statementPieces body
  | .chained b => .chain b.opening :: b.innerPieces

def statementPieces : List Statement → List Piece
  | [] => []
  | statement :: statements => statement.pieces ++ statementPieces statements

def inversePieces : Option Inverse → List Piece
  | none => []
  | some inverse => inverse.pieces

end

def Item.pieces : Item → List Piece
  | .statement s => s.pieces
  | .opening tag _ => [.opening tag]
  | .otherwise tag _ => [.otherwise tag]
  | .chain tag _ => [.chain tag]
  | .closing tag _ => [.closing tag]

namespace Template

variable {index : LineIndex}

/-! ## Trees of bodies -/

theorem isBody_of_derives {items : List Item} {statements : List Statement} {stop : Break}
    (derived : Derives index items statements stop) :
    ∃ front, Item.IsBody front ∧ items = front ++ stop.items := by
  induction derived using Derives.induction
    (Q := fun items _ _ close closeSpan rest => ∃ program tail, Item.IsBody program ∧
      Item.IsTail tail ∧ items = program ++ tail ++ .closing close closeSpan :: rest) with
  | finish => exact ⟨[], .nil, rfl⟩
  | closing tag span rest => exact ⟨[], .nil, rfl⟩
  | otherwise tag span rest => exact ⟨[], .nil, rfl⟩
  | chain tag span rest => exact ⟨[], .nil, rfl⟩
  | statement statement rest statements stop more =>
      obtain ⟨front, body, rfl⟩ := more
      exact ⟨.statement statement :: front, .statement statement body, rfl⟩
  | block tag span items rest program statements inverse close closeSpan stop inner named more =>
      obtain ⟨half, tail, inside, second, rfl⟩ := inner
      obtain ⟨front, body, rfl⟩ := more
      refine ⟨_, .block tag span close closeSpan inside second named body, ?_⟩
      simp
  | plainSection items rest program close closeSpan body =>
      obtain ⟨front, body, rfl⟩ := body
      exact ⟨front, [], body, .nil, by simp [Break.items]⟩
  | elseSection items behind rest program second elseTag elseSpan closeSpan close body half =>
      obtain ⟨front, body, rfl⟩ := body
      obtain ⟨half, inside, rfl⟩ := half
      exact ⟨front, .otherwise elseTag elseSpan :: half, body, .otherwise elseTag elseSpan inside,
        by simp [Break.items]⟩
  | chainSection items behind rest program second inverse chainTag chainSpan closeSpan close body
      inner =>
      obtain ⟨front, body, rfl⟩ := body
      obtain ⟨half, tail, inside, further, rfl⟩ := inner
      exact ⟨front, .chain chainTag chainSpan :: (half ++ tail), body,
        .chain chainTag chainSpan inside further, by simp [Break.items]⟩

/-- Statements can be put before all that is derived: what a body offers to what follows. -/
def Extends (index : LineIndex) (front : List Item) : Prop :=
  ∀ (rest : List Item) (statements : List Statement) (stop : Break),
    Derives index rest statements stop →
      ∃ more, Derives index (front ++ rest) more stop

/-- The first half of a block can be completed up to a close tag: what a tail offers. -/
def Completes (index : LineIndex) (tail : List Item) : Prop :=
  ∀ (program : List Item), Extends index program →
    ∀ (close : CloseTag) (closeSpan : Span) (rest : List Item), ∃ statements inverse,
      DerivesSection index (program ++ tail ++ .closing close closeSpan :: rest) statements inverse
        close closeSpan rest

theorem completes_nil : Completes index [] := by
  intro program before close closeSpan rest
  obtain ⟨statements, derived⟩ := before _ _ _ (.closing close closeSpan rest)
  refine ⟨statements, none, .plain ?_⟩
  simpa using derived

theorem completes_otherwise (tag : ElseTag) (span : Span) {body : List Item}
    (inside : Extends index body) : Completes index (.otherwise tag span :: body) := by
  intro program before close closeSpan rest
  obtain ⟨half, derivedHalf⟩ := inside _ _ _ (.closing close closeSpan rest)
  obtain ⟨statements, derived⟩ :=
    before _ _ _ (.otherwise tag span (body ++ .closing close closeSpan :: rest))
  rw [List.append_assoc]
  exact ⟨statements, _, .otherwise derived derivedHalf⟩

theorem completes_chain (tag : Tag) (span : Span) {program tail : List Item}
    (inside : Extends index program) (second : Completes index tail) :
    Completes index (.chain tag span :: (program ++ tail)) := by
  intro first before close closeSpan rest
  obtain ⟨half, inverse, derivedHalf⟩ := second program inside close closeSpan rest
  obtain ⟨statements, derived⟩ :=
    before _ _ _ (.chain tag span (program ++ tail ++ .closing close closeSpan :: rest))
  rw [List.append_assoc]
  exact ⟨statements, _, .chain derived derivedHalf⟩

theorem extends_block (tag : Tag) (span : Span) {close : CloseTag} (closeSpan : Span)
    {program tail rest : List Item} (inside : Extends index program)
    (second : Completes index tail) (named : close.path = tag.name)
    (more : Extends index rest) :
    Extends index (.opening tag span :: (program ++ tail ++ .closing close closeSpan :: rest)) := by
  intro behind statements stop derived
  obtain ⟨later, derivedLater⟩ := more behind statements stop derived
  obtain ⟨half, inverse, derivedHalf⟩ := second program inside close closeSpan (rest ++ behind)
  rw [List.cons_append, List.append_assoc]
  exact ⟨_, .block tag span derivedHalf named derivedLater⟩

theorem extends_of_isBody {front : List Item} (body : Item.IsBody front) : Extends index front := by
  refine @Item.IsBody.rec (fun front _ => Extends index front)
    (fun tail _ => Completes index tail) ?nil ?statement ?block completes_nil ?otherwise ?chain
    front body
  case nil =>
    intro rest statements stop derived
    exact ⟨statements, derived⟩
  case statement =>
    intro statement rest _ more behind statements stop derived
    obtain ⟨later, derivedLater⟩ := more behind statements stop derived
    exact ⟨statement :: later, .statement statement derivedLater⟩
  case block =>
    intro tag span close closeSpan program tail rest _ _ named _ inside second more
    exact extends_block tag span closeSpan inside second named more
  case otherwise =>
    intro tag span body _ inside
    exact completes_otherwise tag span inside
  case chain =>
    intro tag span program tail _ _ inside second
    exact completes_chain tag span inside second

theorem exists_ofItems_iff (items : List Item) :
    (∃ statements, ofItems index items = .ok statements) ↔ Item.IsBody items := by
  constructor
  · rintro ⟨statements, built⟩
    obtain ⟨front, body, rfl⟩ := isBody_of_derives (derives_of_ofItems built)
    simpa [Break.items] using body
  · intro body
    have extended : Extends index items := extends_of_isBody body
    obtain ⟨statements, derived⟩ := extended [] [] .finish .finish
    rw [List.append_nil] at derived
    exact ⟨statements, ofItems_of_derives derived⟩

/-! ## What the tree holds -/

/-- Where a block of the tree comes from: it was built, and has the close tag that its place asks
for, or it was there in a statement that is an item. -/
def Accounted (items : List Item) (placed : PlacedBlock) : Prop :=
  placed.Fits ∨ ∃ statement, Item.statement statement ∈ items ∧ placed ∈ statement.blocks

theorem Accounted.mono {few many : List Item} {placed : PlacedBlock}
    (accounted : Accounted few placed) (more : few ⊆ many) : Accounted many placed := by
  rcases accounted with fits | ⟨statement, member, inside⟩
  · exact .inl fits
  · exact .inr ⟨statement, more member, inside⟩

theorem accounted_of_derives {items : List Item} {statements : List Statement} {stop : Break}
    (derived : Derives index items statements stop) :
    stop.items ⊆ items ∧ ∀ placed ∈ statementBlocks statements, Accounted items placed := by
  induction derived using Derives.induction
    (Q := fun items program inverse _ _ rest => rest ⊆ items ∧
      ∀ placed ∈ statementBlocks program ++ inverseBlocks inverse, Accounted items placed) with
  | finish => simp [Break.items, statementBlocks]
  | closing tag span rest => simp [Break.items, statementBlocks]
  | otherwise tag span rest => simp [Break.items, statementBlocks]
  | chain tag span rest => simp [Break.items, statementBlocks]
  | statement statement rest statements stop more =>
      obtain ⟨kept, blocks⟩ := more
      refine ⟨List.subset_cons_of_subset _ kept, ?_⟩
      intro placed member
      rw [statementBlocks, List.mem_append] at member
      rcases member with inside | later
      · exact .inr ⟨statement, List.mem_cons_self, inside⟩
      · exact (blocks placed later).mono (List.subset_cons_self _ _)
  | block tag span items rest program statements inverse close closeSpan stop inner named more =>
      obtain ⟨kept, inside⟩ := inner
      obtain ⟨keptLater, later⟩ := more
      have behind : rest ⊆ .opening tag span :: items := List.subset_cons_of_subset _ kept
      refine ⟨List.Subset.trans keptLater behind, ?_⟩
      intro placed member
      simp only [statementBlocks, Statement.blocks, Block.innerBlocks, List.cons_append,
        List.mem_cons] at member
      rcases member with rfl | member
      · exact .inl ⟨close, rfl, named⟩
      · rcases List.mem_append.mp member with within | outside
        · exact (inside placed within).mono (List.subset_cons_self _ _)
        · exact (later placed outside).mono behind
  | plainSection items rest program close closeSpan body =>
      obtain ⟨kept, blocks⟩ := body
      refine ⟨fun item member => kept (List.mem_cons_of_mem _ member), ?_⟩
      simpa [inverseBlocks] using blocks
  | elseSection items behind rest program second elseTag elseSpan closeSpan close body half =>
      obtain ⟨kept, blocks⟩ := body
      obtain ⟨keptHalf, later⟩ := half
      have back : behind ⊆ items := fun item member => kept (List.mem_cons_of_mem _ member)
      refine ⟨fun item member => back (keptHalf (List.mem_cons_of_mem _ member)), ?_⟩
      intro placed member
      rcases List.mem_append.mp member with first | second
      · exact blocks placed first
      · exact (later placed second).mono back
  | chainSection items behind rest program second inverse chainTag chainSpan closeSpan close body
      inner =>
      obtain ⟨kept, blocks⟩ := body
      obtain ⟨keptHalf, later⟩ := inner
      have back : behind ⊆ items := fun item member => kept (List.mem_cons_of_mem _ member)
      refine ⟨fun item member => back (keptHalf member), ?_⟩
      intro placed member
      simp only [inverseBlocks, Inverse.blocks, Block.innerBlocks, List.mem_append,
        List.mem_cons] at member
      rcases member with first | rfl | second
      · exact blocks placed first
      · exact .inl rfl
      · exact (later placed (List.mem_append.mpr second)).mono back

theorem pieces_of_derives {items : List Item} {statements : List Statement} {stop : Break}
    (derived : Derives index items statements stop) :
    statementPieces statements ++ stop.items.flatMap Item.pieces = items.flatMap Item.pieces := by
  induction derived using Derives.induction
    (Q := fun items program inverse close _ rest =>
      statementPieces program ++ inversePieces inverse ++
        .closing close :: rest.flatMap Item.pieces = items.flatMap Item.pieces) with
  | finish => rfl
  | closing tag span rest => rfl
  | otherwise tag span rest => rfl
  | chain tag span rest => rfl
  | statement statement rest statements stop more =>
      simp [statementPieces, Item.pieces, ← more]
  | block tag span items rest program statements inverse close closeSpan stop inner named more =>
      simp [statementPieces, Statement.pieces, Block.innerPieces, closePieces, Item.pieces, ← inner,
        ← more]
  | plainSection items rest program close closeSpan body =>
      simpa [inversePieces, Break.items, Item.pieces] using body
  | elseSection items behind rest program second elseTag elseSpan closeSpan close body half =>
      simp only [Break.items, List.flatMap_cons, Item.pieces] at body half
      simp [inversePieces, Inverse.pieces, ← body, ← half]
  | chainSection items behind rest program second inverse chainTag chainSpan closeSpan close body
      inner =>
      simp only [Break.items, List.flatMap_cons, Item.pieces] at body
      simp [inversePieces, Inverse.pieces, Block.innerPieces, closePieces, ← body, ← inner]

theorem blocks_of_scans {markup : Markup} {start : Nat} {text : Text} {items : List Item}
    (scans : Item.Scans index markup start text items) :
    ∀ statement, Item.statement statement ∈ items → statement.blocks = [] := by
  have ofRun : ∀ (start : Nat) (chars : Text) (statement : Statement),
      Item.statement statement ∈ Item.ofText index start chars → statement.blocks = [] := by
    intro start chars statement member
    unfold Item.ofText at member
    split at member
    · cases member
    · simp only [List.mem_singleton, Item.statement.injEq] at member
      subst member
      rfl
  induction scans with
  | last run => exact ofRun _ _
  | lexeme run read made more inductionHypothesis =>
      intro statement member
      rw [List.mem_append, List.mem_cons] at member
      rcases member with before | here | later
      · exact ofRun _ _ statement before
      · rw [Item.ofLexeme_eq_ok_iff] at made
        cases made with
        | mustache form found =>
            unfold Item.ofMustache at here
            split at here
            · cases here
              rfl
            · cases here
              rfl
        | comment => cases here; rfl
        | triple found => cases here; rfl
        | opening form found => cases here
        | closing opener closer form => cases here
        | otherwise opener closer form => cases here
        | chain form found => cases here
      · exact inductionHypothesis statement later

/-- In a template that was read, every block has the close tag that its place asks for. -/
theorem fits_of_parse {source : Text} {template : Template}
    (parsed : parse source = .ok template) :
    ∀ placed ∈ statementBlocks template.body, placed.Fits := by
  intro placed member
  obtain ⟨items, scans, derived⟩ := items_of_parse parsed
  rcases (accounted_of_derives derived).2 placed member with fits | ⟨statement, found, inside⟩
  · exact fits
  · rw [blocks_of_scans scans statement found] at inside
    cases inside

/-- A list of items has a tree exactly when it is a body.  Every block that was built then has the
close tag that its place asks for, and no item is lost, added or moved. -/
theorem ofItems_recognizes_bodies (index : LineIndex) (items : List Item) :
    ((∃ statements, ofItems index items = .ok statements) ↔ Item.IsBody items) ∧
      ∀ statements, ofItems index items = .ok statements →
        (∀ placed ∈ statementBlocks statements,
          placed.Fits ∨ ∃ s, Item.statement s ∈ items ∧ placed ∈ s.blocks) ∧
        statementPieces statements = items.flatMap Item.pieces := by
  refine ⟨exists_ofItems_iff items, ?_⟩
  intro statements built
  have derived := derives_of_ofItems built
  refine ⟨(accounted_of_derives derived).2, ?_⟩
  simpa [Break.items] using pieces_of_derives derived

def namedTag (name : Text) : Tag :=
  .ofCallee ['{', '{'] (.path (.ofText name)) ['}', '}']

def closeTagOf (name : Text) : CloseTag :=
  ⟨['{', '{', '/'] ++ name ++ ['}', '}'], name, .nowhere⟩

/-- A block `a` with a chain of another name, which has an else tag of its own behind an inner
block; more text follows. -/
def chainOfHalves : List Item :=
  .opening (namedTag ['a']) ⟨0, 1⟩ ::
    ([] ++ .chain (namedTag ['b']) ⟨1, 2⟩ ::
      ([.opening (namedTag ['c']) ⟨2, 3⟩, .closing (closeTagOf ['c']) ⟨3, 4⟩] ++
        [.otherwise ⟨['^'], .nowhere⟩ ⟨4, 5⟩, .statement (.text ⟨['t'], .nowhere⟩)]) ++
      .closing (closeTagOf ['a']) ⟨6, 7⟩ :: [.statement (.text ⟨['u'], .nowhere⟩)])

theorem isBody_chainOfHalves : Item.IsBody chainOfHalves := by
  have inner : Item.IsBody
      [.opening (namedTag ['c']) ⟨2, 3⟩, .closing (closeTagOf ['c']) ⟨3, 4⟩] :=
    .block _ _ _ _ .nil .nil rfl .nil
  have half : Item.IsTail
      [.otherwise ⟨['^'], .nowhere⟩ ⟨4, 5⟩, .statement (.text ⟨['t'], .nowhere⟩)] :=
    .otherwise _ _ (.statement _ .nil)
  exact .block _ _ _ _ .nil (.chain _ _ inner half) rfl (.statement _ .nil)

theorem ofItems_recognizes_bodies_chainOfHalves :
    ∃ statements, ofItems (.ofText []) chainOfHalves = .ok statements ∧
      (∀ placed ∈ statementBlocks statements,
        placed.Fits ∨ ∃ s, Item.statement s ∈ chainOfHalves ∧ placed ∈ s.blocks) ∧
      statementPieces statements = chainOfHalves.flatMap Item.pieces := by
  obtain ⟨recognized, holds⟩ := ofItems_recognizes_bodies (.ofText []) chainOfHalves
  obtain ⟨statements, built⟩ := recognized.mpr isBody_chainOfHalves
  exact ⟨statements, built, holds statements built⟩

end Template

end TemplateSelectors
