import TemplateSelectors.Template.Parser

/-!
# The grammar of blocks

Which statements a list of items stands for, as rules: one rule for each way in which a list
of statements goes on or breaks off, and one for each shape of what stands between an opening
tag and its close tag.  The reader of blocks finds a tree exactly when the rules derive it.
-/

set_option autoImplicit false

namespace TemplateSelectors

def Break.items : Break → List Item
  | .finish => []
  | .closing tag span rest => .closing tag span :: rest
  | .otherwise tag span rest => .otherwise tag span :: rest
  | .chain tag span rest => .chain tag span :: rest

namespace Template

mutual

/-- `Derives index items statements stop`: the items begin with `statements` and break off at
`stop`. -/
inductive Derives (index : LineIndex) : List Item → List Statement → Break → Prop where
  | finish : Derives index [] [] .finish
  | closing (tag : CloseTag) (span : Span) (rest : List Item) :
      Derives index (.closing tag span :: rest) [] (.closing tag span rest)
  | otherwise (tag : ElseTag) (span : Span) (rest : List Item) :
      Derives index (.otherwise tag span :: rest) [] (.otherwise tag span rest)
  | chain (tag : Tag) (span : Span) (rest : List Item) :
      Derives index (.chain tag span :: rest) [] (.chain tag span rest)
  | statement (statement : Statement) {rest : List Item} {statements : List Statement}
      {stop : Break} (more : Derives index rest statements stop) :
      Derives index (.statement statement :: rest) (statement :: statements) stop
  | block (tag : Tag) (span : Span) {items rest : List Item} {program statements : List Statement}
      {inverse : Option Inverse} {close : CloseTag} {closeSpan : Span} {stop : Break}
      (inner : DerivesSection index items program inverse close closeSpan rest)
      (named : close.path = tag.name) (more : Derives index rest statements stop) :
      Derives index (.opening tag span :: items)
        (.block ⟨tag, program, inverse, some close,
          index.sourceSpan ⟨span.start, closeSpan.stop⟩⟩ :: statements) stop

/-- `DerivesSection index items program inverse close closeSpan rest`: the items begin with a
program and a second half up to the close tag, and `rest` stands behind that tag. -/
inductive DerivesSection (index : LineIndex) : List Item → List Statement → Option Inverse →
    CloseTag → Span → List Item → Prop where
  | plain {items rest : List Item} {program : List Statement} {close : CloseTag}
      {closeSpan : Span} (body : Derives index items program (.closing close closeSpan rest)) :
      DerivesSection index items program none close closeSpan rest
  | otherwise {items behind rest : List Item} {program second : List Statement}
      {elseTag : ElseTag} {elseSpan closeSpan : Span} {close : CloseTag}
      (body : Derives index items program (.otherwise elseTag elseSpan behind))
      (half : Derives index behind second (.closing close closeSpan rest)) :
      DerivesSection index items program (some (.otherwise elseTag second)) close closeSpan rest
  | chain {items behind rest : List Item} {program second : List Statement}
      {inverse : Option Inverse} {chainTag : Tag} {chainSpan closeSpan : Span} {close : CloseTag}
      (body : Derives index items program (.chain chainTag chainSpan behind))
      (inner : DerivesSection index behind second inverse close closeSpan rest) :
      DerivesSection index items program
        (some (.chained ⟨chainTag, second, inverse, none,
          index.sourceSpan ⟨chainSpan.start, closeSpan.start⟩⟩)) close closeSpan rest

end

variable {index : LineIndex}

/-- Induction on derivations: what every rule preserves holds of all that is derived. -/
theorem Derives.induction
    {P : ∀ (items : List Item) (statements : List Statement) (stop : Break),
      Derives index items statements stop → Prop}
    {Q : List Item → List Statement → Option Inverse → CloseTag → Span → List Item → Prop}
    (finish : P [] [] .finish .finish)
    (closing : ∀ (tag : CloseTag) (span : Span) (rest : List Item),
      P _ _ _ (.closing tag span rest))
    (otherwise : ∀ (tag : ElseTag) (span : Span) (rest : List Item),
      P _ _ _ (.otherwise tag span rest))
    (chain : ∀ (tag : Tag) (span : Span) (rest : List Item), P _ _ _ (.chain tag span rest))
    (statement : ∀ (statement : Statement) (rest : List Item) (statements : List Statement)
      (stop : Break) {derived : Derives index rest statements stop},
      P rest statements stop derived → P _ _ _ (.statement statement derived))
    (block : ∀ (tag : Tag) (span : Span) (items rest : List Item)
      (program statements : List Statement) (inverse : Option Inverse) (close : CloseTag)
      (closeSpan : Span) (stop : Break)
      {between : DerivesSection index items program inverse close closeSpan rest}
      {derived : Derives index rest statements stop},
      Q items program inverse close closeSpan rest → (named : close.path = tag.name) →
      P rest statements stop derived → P _ _ _ (.block tag span between named derived))
    (plainSection : ∀ (items rest : List Item) (program : List Statement) (close : CloseTag)
      (closeSpan : Span) {derived : Derives index items program (.closing close closeSpan rest)},
      P _ _ _ derived → Q items program none close closeSpan rest)
    (elseSection : ∀ (items behind rest : List Item) (program second : List Statement)
      (elseTag : ElseTag) (elseSpan closeSpan : Span) (close : CloseTag)
      {derived : Derives index items program (.otherwise elseTag elseSpan behind)}
      {derivedHalf : Derives index behind second (.closing close closeSpan rest)},
      P _ _ _ derived → P _ _ _ derivedHalf →
        Q items program (some (.otherwise elseTag second)) close closeSpan rest)
    (chainSection : ∀ (items behind rest : List Item) (program second : List Statement)
      (inverse : Option Inverse) (chainTag : Tag) (chainSpan closeSpan : Span) (close : CloseTag)
      {derived : Derives index items program (.chain chainTag chainSpan behind)},
      P _ _ _ derived → Q behind second inverse close closeSpan rest →
        Q items program
          (some (.chained ⟨chainTag, second, inverse, none,
            index.sourceSpan ⟨chainSpan.start, closeSpan.start⟩⟩)) close closeSpan rest)
    {items : List Item} {statements : List Statement} {stop : Break}
    (derived : Derives index items statements stop) : P items statements stop derived := by
  refine @Derives.rec index (fun items statements stop derived => P items statements stop derived)
    (fun items program inverse close closeSpan rest _ => Q items program inverse close closeSpan rest)
    finish closing otherwise chain ?statement ?block ?plain ?otherwise ?chain items statements stop
    derived
  case statement =>
    intro single rest statements stop _ more
    exact statement single rest statements stop more
  case block =>
    intro tag span items rest program statements inverse close closeSpan stop between named derived
      inner more
    exact @block tag span items rest program statements inverse close closeSpan stop between derived
      inner named more
  case plain =>
    intro items rest program close closeSpan _ body
    exact plainSection items rest program close closeSpan body
  case otherwise =>
    intro items behind rest program second elseTag elseSpan closeSpan close _ _ body half
    exact elseSection items behind rest program second elseTag elseSpan closeSpan close body half
  case chain =>
    intro items behind rest program second inverse chainTag chainSpan closeSpan close _ _ body inner
    exact chainSection items behind rest program second inverse chainTag chainSpan closeSpan close
      body inner

theorem derives_of_readBody_step {items : List Item}
    (bodies : ∀ shorter : List Item, shorter.length < items.length →
      ∀ body : Body shorter, readBody index shorter = .ok body →
        Derives index shorter body.statements body.stop)
    (sections : ∀ (tag : Tag) (span : Span) (shorter : List Item),
      shorter.length < items.length →
      ∀ inner : Section shorter, readSection index tag span shorter = .ok inner →
        DerivesSection index shorter inner.program inner.inverse inner.close inner.closeSpan
          inner.rest)
    (body : Body items) (found : readBody index items = .ok body) :
    Derives index items body.statements body.stop := by
  unfold readBody at found
  split at found
  · cases found
    exact .finish
  · cases found
    exact .closing ..
  · cases found
    exact .otherwise ..
  · cases found
    exact .chain ..
  · next statement rest =>
      cases later : readBody index rest with
      | error error => simp [later] at found
      | ok more =>
          simp only [later, Except.ok.injEq] at found
          subst found
          exact .statement statement (bodies rest (by simp) more later)
  · next tag span rest =>
      cases between : readSection index tag span rest with
      | error error => simp [between] at found
      | ok inner =>
          simp only [between] at found
          split at found
          · next named =>
              cases later : readBody index inner.rest with
              | error error => simp [later] at found
              | ok more =>
                  simp only [later, Except.ok.injEq] at found
                  subst found
                  have shorter : inner.rest.length < (Item.opening tag span :: rest).length :=
                    Nat.lt_succ_of_lt inner.shorter
                  exact .block tag span (sections tag span rest (by simp) inner between) named
                    (bodies inner.rest shorter more later)
          · cases found

theorem derivesSection_of_readSection_step {tag : Tag} {span : Span} {items : List Item}
    (bodies : ∀ shorter : List Item, shorter.length ≤ items.length →
      ∀ body : Body shorter, readBody index shorter = .ok body →
        Derives index shorter body.statements body.stop)
    (sections : ∀ (tag : Tag) (span : Span) (shorter : List Item),
      shorter.length < items.length →
      ∀ inner : Section shorter, readSection index tag span shorter = .ok inner →
        DerivesSection index shorter inner.program inner.inverse inner.close inner.closeSpan
          inner.rest)
    (inner : Section items) (found : readSection index tag span items = .ok inner) :
    DerivesSection index items inner.program inner.inverse inner.close inner.closeSpan
      inner.rest := by
  unfold readSection at found
  cases front : readBody index items with
  | error error => simp [front] at found
  | ok body =>
      have derived := bodies items (Nat.le_refl _) body front
      have bound := body.notLonger
      simp only [front] at found
      split at found
      · cases found
      · next close closeSpan rest stop =>
          simp only [Except.ok.injEq] at found
          subst found
          rw [stop] at derived
          exact .plain derived
      · next elseTag elseSpan behind stop =>
          rw [stop] at derived bound
          cases half : readBody index behind with
          | error error => simp [half] at found
          | ok second =>
              have derivedHalf := bodies behind (Nat.le_of_lt bound) second half
              simp only [half] at found
              split at found
              · cases found
              · cases found
              · cases found
              · next close closeSpan rest stopHalf =>
                  simp only [Except.ok.injEq] at found
                  subst found
                  rw [stopHalf] at derivedHalf
                  exact .otherwise derived derivedHalf
      · next chainTag chainSpan behind stop =>
          rw [stop] at derived bound
          cases further : readSection index chainTag chainSpan behind with
          | error error => simp [further] at found
          | ok second =>
              simp only [further, Except.ok.injEq] at found
              subst found
              exact .chain derived (sections chainTag chainSpan behind bound second further)

theorem derives_of_read_below (bound : Nat) :
    (∀ items : List Item, items.length < bound → ∀ body : Body items,
      readBody index items = .ok body → Derives index items body.statements body.stop) ∧
    (∀ (tag : Tag) (span : Span) (items : List Item), items.length < bound →
      ∀ inner : Section items, readSection index tag span items = .ok inner →
        DerivesSection index items inner.program inner.inverse inner.close inner.closeSpan
          inner.rest) := by
  induction bound with
  | zero =>
      refine ⟨?_, ?_⟩
      · intro items below
        omega
      · intro tag span items below
        omega
  | succ bound inductionHypothesis =>
      obtain ⟨bodies, sections⟩ := inductionHypothesis
      have next : ∀ items : List Item, items.length < bound + 1 → ∀ body : Body items,
          readBody index items = .ok body → Derives index items body.statements body.stop := by
        intro items below
        refine derives_of_readBody_step ?_ ?_
        · intro shorter less
          exact bodies shorter (by omega)
        · intro tag span shorter less
          exact sections tag span shorter (by omega)
      refine ⟨next, ?_⟩
      intro tag span items below
      refine derivesSection_of_readSection_step ?_ ?_
      · intro shorter less
        exact next shorter (by omega)
      · intro tag span shorter less
        exact sections tag span shorter (by omega)

theorem derives_of_readBody {items : List Item} {body : Body items}
    (found : readBody index items = .ok body) :
    Derives index items body.statements body.stop :=
  (derives_of_read_below (items.length + 1)).1 items (Nat.lt_succ_self _) body found

theorem derives_of_ofItems {items : List Item} {statements : List Statement}
    (found : ofItems index items = .ok statements) :
    Derives index items statements .finish := by
  unfold ofItems at found
  cases read : readBody index items with
  | error error => simp [read] at found
  | ok body =>
      have derived := derives_of_readBody read
      simp only [read] at found
      split at found
      · next stop =>
          cases found
          rw [stop] at derived
          exact derived
      all_goals cases found

/-! ## The reader finds what is derived -/

/-- The reader finds the statements, and breaks off where they do. -/
def FindsBody (index : LineIndex) (items : List Item) (statements : List Statement)
    (stop : Break) : Prop :=
  ∃ body : Body items, readBody index items = .ok body ∧ body.statements = statements ∧
    body.stop = stop

/-- The reader finds both halves, whatever tag stands before them. -/
def FindsSection (index : LineIndex) (items : List Item) (program : List Statement)
    (inverse : Option Inverse) (close : CloseTag) (closeSpan : Span) (rest : List Item) : Prop :=
  ∀ (tag : Tag) (span : Span), ∃ inner : Section items,
    readSection index tag span items = .ok inner ∧ inner.program = program ∧
      inner.inverse = inverse ∧ inner.close = close ∧ inner.closeSpan = closeSpan ∧
      inner.rest = rest

variable {items behind rest : List Item} {program second statements : List Statement}
  {inverse : Option Inverse} {close : CloseTag} {closeSpan : Span} {stop : Break}

theorem findsBody_block {tag : Tag} (span : Span)
    (inner : FindsSection index items program inverse close closeSpan rest)
    (named : close.path = tag.name) (more : FindsBody index rest statements stop) :
    FindsBody index (.opening tag span :: items)
      (.block ⟨tag, program, inverse, some close,
        index.sourceSpan ⟨span.start, closeSpan.stop⟩⟩ :: statements) stop := by
  obtain ⟨between, readBetween, rfl, rfl, rfl, rfl, rfl⟩ := inner tag span
  obtain ⟨body, read, rfl, rfl⟩ := more
  have shorter := between.shorter
  have notLonger := body.notLonger
  have bound : body.stop.remaining ≤ (Item.opening tag span :: items).length := by
    simp only [List.length_cons]
    omega
  refine ⟨⟨.block ⟨tag, between.program, between.inverse, some between.close,
    index.sourceSpan ⟨span.start, between.closeSpan.stop⟩⟩ :: body.statements, body.stop, bound⟩,
    ?_, rfl, rfl⟩
  rw [readBody, readBetween]
  simp only [named, if_true, read]

theorem findsSection_plain (first : FindsBody index items program (.closing close closeSpan rest)) :
    FindsSection index items program none close closeSpan rest := by
  obtain ⟨body, read, rfl, stop⟩ := first
  intro tag span
  have bound := body.notLonger
  rw [stop] at bound
  refine ⟨⟨body.statements, none, close, closeSpan, rest, bound⟩, ?_, rfl, rfl, rfl, rfl, rfl⟩
  rw [readSection, read]
  simp only
  split <;> simp_all

theorem findsSection_otherwise {elseTag : ElseTag} {elseSpan : Span}
    (first : FindsBody index items program (.otherwise elseTag elseSpan behind))
    (half : FindsBody index behind second (.closing close closeSpan rest)) :
    FindsSection index items program (some (.otherwise elseTag second)) close closeSpan rest := by
  obtain ⟨body, read, rfl, stop⟩ := first
  obtain ⟨second, readSecond, rfl, stopSecond⟩ := half
  intro tag span
  have bound := body.notLonger
  have boundSecond := second.notLonger
  rw [stop] at bound
  rw [stopSecond] at boundSecond
  simp only [Break.remaining] at bound boundSecond
  refine ⟨⟨body.statements, some (.otherwise elseTag second.statements), close, closeSpan, rest,
    by omega⟩, ?_, rfl, rfl, rfl, rfl, rfl⟩
  rw [readSection, read]
  simp only
  split
  case h_3 here =>
    rw [stop] at here
    cases here
    simp only [readSecond]
    split <;> simp_all
  all_goals simp_all

theorem findsSection_chain {chainTag : Tag} {chainSpan : Span}
    (first : FindsBody index items program (.chain chainTag chainSpan behind))
    (inner : FindsSection index behind second inverse close closeSpan rest) :
    FindsSection index items program
      (some (.chained ⟨chainTag, second, inverse, none,
        index.sourceSpan ⟨chainSpan.start, closeSpan.start⟩⟩)) close closeSpan rest := by
  obtain ⟨body, read, rfl, stop⟩ := first
  obtain ⟨further, readFurther, rfl, rfl, rfl, rfl, rfl⟩ := inner chainTag chainSpan
  intro tag span
  have bound := body.notLonger
  have shorter := further.shorter
  rw [stop] at bound
  simp only [Break.remaining] at bound
  refine ⟨⟨body.statements, some (.chained ⟨chainTag, further.program, further.inverse, none,
    index.sourceSpan ⟨chainSpan.start, further.closeSpan.start⟩⟩), further.close,
    further.closeSpan, further.rest, by omega⟩, ?_, rfl, rfl, rfl, rfl, rfl⟩
  rw [readSection, read]
  simp only
  split
  case h_4 here =>
    rw [stop] at here
    cases here
    simp only [readFurther]
  all_goals simp_all

theorem findsBody_of_derives (derived : Derives index items statements stop) :
    FindsBody index items statements stop := by
  induction derived using Derives.induction (Q := FindsSection index) with
  | finish => exact ⟨_, by rw [readBody], rfl, rfl⟩
  | closing tag span rest => exact ⟨_, by rw [readBody], rfl, rfl⟩
  | otherwise tag span rest => exact ⟨_, by rw [readBody], rfl, rfl⟩
  | chain tag span rest => exact ⟨_, by rw [readBody], rfl, rfl⟩
  | statement statement rest statements stop more =>
      obtain ⟨body, read, rfl, rfl⟩ := more
      exact ⟨_, by rw [readBody, read], rfl, rfl⟩
  | block tag span items rest program statements inverse close closeSpan stop inner named more =>
      exact findsBody_block span inner named more
  | plainSection items rest program close closeSpan body => exact findsSection_plain body
  | elseSection items behind rest program second elseTag elseSpan closeSpan close body half =>
      exact findsSection_otherwise body half
  | chainSection items behind rest program second inverse chainTag chainSpan closeSpan close body
      inner => exact findsSection_chain body inner

theorem ofItems_of_derives (derived : Derives index items statements .finish) :
    ofItems index items = .ok statements := by
  obtain ⟨body, read, rfl, stop⟩ := findsBody_of_derives derived
  simp only [ofItems, read, stop]

end Template

end TemplateSelectors
