import TemplateSelectors.Proofs.TagReplacement

/-!
# Reading a template with other tags

When the tags of a template that was read are replaced by tags that stand for them, the text of
the new template is read as the new template, places apart.  The items of the text are found one
after another, each in the place of the old one, and the blocks close where they closed.
-/

set_option autoImplicit false

namespace TemplateSelectors

namespace Item

def mapTags (f : Tag → Tag) : Item → Item
  | .statement s => .statement (s.mapTags f)
  | .opening tag span => .opening (f tag) span
  | .otherwise tag span => .otherwise tag span
  | .chain tag span => .chain (f tag) span
  | .closing tag span => .closing tag span

/-- An item that tells neither its place nor the text of its tag. -/
def bare : Item → Item
  | .statement s => .statement s.bare
  | .opening tag _ => .opening tag.bare ⟨0, 0⟩
  | .otherwise tag _ => .otherwise tag.bare ⟨0, 0⟩
  | .chain tag _ => .chain tag.bare ⟨0, 0⟩
  | .closing tag _ => .closing tag.bare ⟨0, 0⟩

theorem leaves_mapTags (f : Tag → Tag) (item : Item) :
    (item.mapTags f).leaves = item.leaves.map (Leaf.mapTag f) := by
  cases item with
  | statement s => exact s.leaves_mapTags f
  | opening tag span => rfl
  | otherwise tag span => rfl
  | chain tag span => rfl
  | closing tag span => rfl

end Item

theorem Tag.WellFormed.trim_ne_nil {tag : Tag} (wellFormed : tag.WellFormed) :
    Text.trim tag.body.text ≠ [] := by
  obtain ⟨c, after, text, start⟩ := TagBody.Term.starts wellFormed.grammatical.callee
  refine Text.trim_ne_nil (c := c) ?_ (TagBody.isSpace_of_isStart start)
  rw [TagBody.text_eq, text]
  simp

theorem Tag.StandsFor.mustache {tag other : Tag} (stands : other.StandsFor tag)
    (wellFormed : tag.WellFormed) (form : Item.TagForm.ofInner tag.body.text = .mustache) :
    Item.TagForm.ofInner other.body.text = .mustache := by
  obtain ⟨left, right⟩ := stands.text_eq
  obtain ⟨c, after, text, start⟩ := TagBody.Term.starts wellFormed.grammatical.callee
  simp only [Tag.body] at text
  rw [left] at form
  rw [right]
  refine Item.TagForm.mustache_congr wellFormed.grammatical.leading ?_ ?_ ?_ ?_ form
  · rw [text]
    exact TagBody.stopsAt_cons (TagBody.isSpace_of_isStart start)
  · simp [text]
  · exact fun c head => TagBody.isSpace_of_isLayout (wellFormed.grammatical.tail_head c head)
  · exact fun c head =>
      TagBody.isSpace_of_isLayout (stands.wellFormed.grammatical.tail_head c head)

/-- A tag that stands for another is read in its place, and as what it is. -/
theorem Tag.StandsFor.reread {tag other : Tag} (stands : other.StandsFor tag)
    (wellFormed : tag.WellFormed) {triple : Bool} {opener closer behind rest : Text}
    (front : Text) (opened : tag.opener = opener ++ front) (closed : tag.closer = closer)
    (reads : Lexeme.Reads behind (.tag triple opener (front ++ tag.body.text) closer) rest)
    (index : LineIndex) (start : Nat) (rest' : Text) :
    ∃ behind' tag', other.print ++ rest' = '{' :: '{' :: behind' ∧
      Lexeme.Reads behind' (.tag triple opener (front ++ other.body.text) closer) rest' ∧
      Tag.read index start (opener ++ front) other.body.text closer = .ok tag' ∧
      tag'.bare = other.bare := by
  obtain ⟨behind', whole, again⟩ := stands.reads wellFormed opened closed reads rest'
  obtain ⟨tag', found, same⟩ := Tag.read_of_wellFormed stands.wellFormed index start
  rw [stands.opener, stands.closer, opened, closed] at found
  exact ⟨behind', tag', whole, again, found, same⟩

namespace Item

variable {index : LineIndex} {markup markup' : Markup} {start : Nat} {f : Tag → Tag}

theorem bare_ofMustache {markup : Markup} {tag other : Tag} (same : other.bare = tag.bare) :
    (ofMustache markup other).bare = (ofMustache markup tag).bare := by
  unfold ofMustache
  split
  · simp [bare, Statement.bare, Mustache.bare, same]
  · simp [bare, Statement.bare, Mustache.bare, same]

theorem standsFor_ofMustache {markup : Markup} {tag : Tag} (itself : tag.StandsFor tag)
    (stands : ∀ other ∈ Leaf.tags (ofMustache markup tag).leaves, (f other).StandsFor other) :
    ∃ other, other.StandsFor tag ∧ (ofMustache markup tag).mapTags f = ofMustache markup other := by
  unfold ofMustache at stands ⊢
  split
  · exact ⟨tag, itself, rfl⟩
  · next outside =>
      rw [if_neg outside] at stands
      exact ⟨f tag, stands tag (by simp [leaves, Statement.leaves]), rfl⟩

/-- An item with another tag is made from its lexeme in the place of the old one. -/
theorem Makes.replace {lexeme : Lexeme} {item : Item} {behind rest : Text}
    (made : Makes index markup start lexeme item markup') (reads : Lexeme.Reads behind lexeme rest)
    (stands : ∀ tag ∈ Leaf.tags item.leaves, (f tag).StandsFor tag)
    (index' : LineIndex) (start' : Nat) (rest' : Text) :
    ∃ behind' lexeme' item', (item.mapTags f).text ++ rest' = '{' :: '{' :: behind' ∧
      Lexeme.Reads behind' lexeme' rest' ∧ Makes index' markup start' lexeme' item' markup' ∧
      item'.bare = (item.mapTags f).bare := by
  cases made with
  | comment opener value closer =>
      obtain ⟨behind', whole, again⟩ := reads.comment_behind rest'
      exact ⟨behind', _, _, whole, again, .comment opener value closer, rfl⟩
  | @triple opener inner closer tag read =>
      obtain ⟨wellFormed, opened, rfl, closed⟩ := Tag.wellFormed_of_read read
      have other := stands tag (by simp [leaves, Statement.leaves])
      obtain ⟨behind', tag', whole, again, found, same⟩ :=
        other.reread wellFormed [] (by simp [opened]) closed reads index' start' rest'
      rw [List.append_nil] at found
      refine ⟨behind', _, _, whole, again, .triple found, ?_⟩
      simp [bare, mapTags, Statement.bare, Statement.mapTags, Mustache.bare, same]
  | @opening opener inner closer body tag form read =>
      obtain ⟨wellFormed, opened, rfl, closed⟩ := Tag.wellFormed_of_read read
      have inside := TagForm.eq_of_opening form
      subst inside
      have other := stands tag (by simp [leaves])
      obtain ⟨behind', tag', whole, again, found, same⟩ :=
        other.reread wellFormed ['#'] opened closed reads index' start' rest'
      have form' := TagForm.opening_congr form (other.head_eq wellFormed)
      refine ⟨behind', _, _, whole, again, .opening form' found, ?_⟩
      simp [bare, mapTags, same]
  | closing opener closer form =>
      obtain ⟨behind', whole, again⟩ := reads.replace (.refl _) rfl id rest'
      exact ⟨behind', _, _, whole, again, .closing opener closer form, rfl⟩
  | otherwise opener closer form =>
      obtain ⟨behind', whole, again⟩ := reads.replace (.refl _) rfl id rest'
      exact ⟨behind', _, _, whole, again, .otherwise opener closer form, rfl⟩
  | @chain opener inner closer spaces body tag form read =>
      obtain ⟨wellFormed, opened, rfl, closed⟩ := Tag.wellFormed_of_read read
      have inside := TagForm.eq_of_chain form
      subst inside
      have other := stands tag (by simp [leaves])
      rw [List.append_assoc] at opened
      obtain ⟨behind', tag', whole, again, found, same⟩ :=
        other.reread wellFormed (spaces ++ elseWord) opened closed reads index' start' rest'
      have form' := TagForm.chain_congr form (other.head_eq wellFormed)
        other.wellFormed.trim_ne_nil
      rw [← List.append_assoc] at found
      refine ⟨behind', _, _, whole, again, .chain form' found, ?_⟩
      simp [bare, mapTags, same]
  | @mustache opener inner closer tag form read =>
      obtain ⟨wellFormed, opened, rfl, closed⟩ := Tag.wellFormed_of_read read
      obtain ⟨other, place, mapped⟩ := standsFor_ofMustache (Tag.standsFor_of_read read) stands
      obtain ⟨behind', tag', whole, again, found, same⟩ :=
        place.reread wellFormed [] (by simp [opened]) closed reads index' start' rest'
      rw [List.append_nil] at found
      have form' := place.mustache wellFormed form
      rw [mapped]
      refine ⟨behind', _, _, ?_, again, .mustache form' found, bare_ofMustache same⟩
      rw [text_ofMustache, whole]

theorem mapTags_ofText (f : Tag → Tag) (index : LineIndex) (start : Nat) (chars : Text) :
    (ofText index start chars).map (mapTags f) = ofText index start chars := by
  cases chars with
  | nil => rfl
  | cons c chars => rfl

theorem bare_ofText (index index' : LineIndex) (start start' : Nat) (chars : Text) :
    (ofText index' start' chars).map bare = (ofText index start chars).map bare := by
  cases chars with
  | nil => rfl
  | cons c chars => rfl

theorem Scans.replace {source : Text} {items : List Item}
    (scans : Scans index markup start source items)
    (stands : ∀ tag ∈ Leaf.tags (items.flatMap leaves), (f tag).StandsFor tag)
    (index' : LineIndex) (start' : Nat) :
    ∃ items', Scans index' markup start' ((items.map (mapTags f)).flatMap text) items' ∧
      items'.map bare = (items.map (mapTags f)).map bare := by
  induction scans generalizing start' with
  | @last markup start source chars run =>
      have whole := textRun_append false false source
      rw [run, List.append_nil] at whole
      simp only at whole
      subst whole
      rw [mapTags_ofText, text_ofText]
      exact ⟨_, .last run, bare_ofText index index' start start' chars⟩
  | @lexeme markup markup' start source chars behind rest lexeme item items run read made more
      inductionHypothesis =>
      simp only [List.flatMap_append, List.flatMap_cons, Leaf.tags_append, List.mem_append] at stands
      have here : ∀ tag ∈ Leaf.tags item.leaves, (f tag).StandsFor tag := fun tag member =>
        stands tag (.inr (.inl member))
      have later : ∀ tag ∈ Leaf.tags (items.flatMap leaves), (f tag).StandsFor tag :=
        fun tag member => stands tag (.inr (.inr member))
      have whole := textRun_append false false source
      rw [run] at whole
      subst whole
      obtain ⟨behind', lexeme', item', text', reads', made', same⟩ :=
        (ofLexeme_eq_ok_iff.mp made).replace (Lexeme.reads_of_read read) here index'
          (start' + chars.size) ((items.map (mapTags f)).flatMap text)
      obtain ⟨items', more', others⟩ :=
        inductionHypothesis later (start' + chars.size + lexeme'.raw.size)
      refine ⟨ofText index' start' chars ++ item' :: items', ?_, ?_⟩
      · rw [List.map_append, List.map_cons, List.flatMap_append, List.flatMap_cons, mapTags_ofText,
          text_ofText, text']
        exact .lexeme (textRun_behind run behind') (Lexeme.read_of_reads reads')
          (ofLexeme_eq_ok_iff.mpr made') more'
      · simp only [List.map_append, List.map_cons, mapTags_ofText, same, others,
          bare_ofText index index' start start' chars]

theorem exists_read_of_makes {lexeme : Lexeme} {item : Item}
    (made : Makes index markup start lexeme item markup') {tag : Tag}
    (member : tag ∈ Leaf.everyTag item.leaves) :
    ∃ opener body closer, lexeme.raw = opener ++ body ++ closer ∧
      Tag.read index start opener body closer = .ok tag := by
  cases made with
  | comment opener value closer => cases member
  | triple read =>
      rw [List.mem_singleton.mp member]
      exact ⟨_, _, _, rfl, read⟩
  | opening form read =>
      rw [List.mem_singleton.mp member]
      refine ⟨_, _, _, ?_, read⟩
      rw [Lexeme.raw, TagForm.eq_of_opening form]
      simp
  | closing opener closer form => cases member
  | otherwise opener closer form => cases member
  | chain form read =>
      rw [List.mem_singleton.mp member]
      refine ⟨_, _, _, ?_, read⟩
      rw [Lexeme.raw, TagForm.eq_of_chain form]
      simp
  | mustache form read =>
      unfold ofMustache at member
      split at member
      · rw [List.mem_singleton.mp member]
        exact ⟨_, _, _, rfl, read⟩
      · rw [List.mem_singleton.mp member]
        exact ⟨_, _, _, rfl, read⟩

theorem tags_ofText (index : LineIndex) (start : Nat) (chars : Text) :
    Leaf.tags ((ofText index start chars).flatMap leaves) = [] := by
  cases chars with
  | nil => rfl
  | cons c chars => rfl

theorem everyTag_ofText (index : LineIndex) (start : Nat) (chars : Text) :
    Leaf.everyTag ((ofText index start chars).flatMap leaves) = [] := by
  cases chars with
  | nil => rfl
  | cons c chars => rfl

theorem exists_read_of_scans {source : Text} {items : List Item}
    (scans : Scans index markup start source items) {tag : Tag}
    (member : tag ∈ Leaf.everyTag (items.flatMap leaves)) :
    ∃ before opener body closer after, source = before ++ (opener ++ body ++ closer) ++ after ∧
      Tag.read index (start + before.size) opener body closer = .ok tag := by
  induction scans with
  | last run =>
      rw [everyTag_ofText] at member
      cases member
  | @lexeme markup markup' start source chars behind rest lexeme item items run read made more
      inductionHypothesis =>
      have whole := textRun_append false false source
      rw [run, Lexeme.append_eq_of_read read] at whole
      rw [List.flatMap_append, List.flatMap_cons, Leaf.everyTag_append, Leaf.everyTag_append,
        everyTag_ofText, List.nil_append, List.mem_append] at member
      rcases member with here | later
      · obtain ⟨opener, body, closer, raw, found⟩ :=
          exists_read_of_makes (ofLexeme_eq_ok_iff.mp made) here
        exact ⟨chars, opener, body, closer, rest, by simp [← whole, raw], found⟩
      · obtain ⟨before, opener, body, closer, after, text, found⟩ := inductionHypothesis later
        refine ⟨chars ++ lexeme.raw ++ before, opener, body, closer, after, ?_, ?_⟩
        · rw [← whole, text]
          simp
        · simpa [Nat.add_assoc] using found

end Item

/-! ## Blocks -/

def Break.mapTags (f : Tag → Tag) : Break → Break
  | .finish => .finish
  | .closing tag span rest => .closing tag span (rest.map (Item.mapTags f))
  | .otherwise tag span rest => .otherwise tag span (rest.map (Item.mapTags f))
  | .chain tag span rest => .chain (f tag) span (rest.map (Item.mapTags f))

def Break.bare : Break → Break
  | .finish => .finish
  | .closing tag _ rest => .closing tag.bare ⟨0, 0⟩ (rest.map Item.bare)
  | .otherwise tag _ rest => .otherwise tag.bare ⟨0, 0⟩ (rest.map Item.bare)
  | .chain tag _ rest => .chain tag.bare ⟨0, 0⟩ (rest.map Item.bare)

namespace Template

theorem cons_of_map_bare {items others : List Item} {item : Item}
    (same : others.map Item.bare = item.bare :: items.map Item.bare) :
    ∃ other more, others = other :: more ∧ other.bare = item.bare ∧
      more.map Item.bare = items.map Item.bare := by
  cases others with
  | nil => cases same
  | cons other more =>
      simp only [List.map_cons, List.cons.injEq] at same
      exact ⟨other, more, rfl, same.1, same.2⟩

/-- From items that tell the same about the other tags, statements are built that tell the same. -/
def RebuildsBody (index' : LineIndex) (f : Tag → Tag) (items : List Item)
    (statements : List Statement) (stop : Break) : Prop :=
  ∀ others, others.map Item.bare = (items.map (Item.mapTags f)).map Item.bare →
    ∃ statements' stop', Derives index' others statements' stop' ∧
      bareStatements statements' = bareStatements (mapStatements f statements) ∧
      stop'.bare = (stop.mapTags f).bare

/-- So are the two halves of a block, up to a close tag that tells the same. -/
def RebuildsSection (index' : LineIndex) (f : Tag → Tag) (items : List Item)
    (program : List Statement) (inverse : Option Inverse) (close : CloseTag)
    (rest : List Item) : Prop :=
  ∀ others, others.map Item.bare = (items.map (Item.mapTags f)).map Item.bare →
    ∃ program' inverse' close' closeSpan' rest',
      DerivesSection index' others program' inverse' close' closeSpan' rest' ∧
      bareStatements program' = bareStatements (mapStatements f program) ∧
      bareInverse inverse' = bareInverse (mapInverse f inverse) ∧ close'.bare = close.bare ∧
      rest'.map Item.bare = (rest.map (Item.mapTags f)).map Item.bare

section

variable {index index' : LineIndex} {f : Tag → Tag} {items behind rest : List Item}
  {program second statements : List Statement} {inverse : Option Inverse} {close : CloseTag}
  {stop : Break}

theorem rebuildsBody_nil (stop : Break) : RebuildsBody index' f stop.items [] stop := by
  intro others same
  cases stop with
  | finish =>
      rw [Break.items, List.map_nil, List.map_nil, List.map_eq_nil_iff] at same
      subst same
      exact ⟨[], .finish, .finish, rfl, rfl⟩
  | closing tag span rest =>
      obtain ⟨other, more, rfl, first, later⟩ := cons_of_map_bare same
      cases other with
      | closing tag' span' =>
          simp only [Item.mapTags, Item.bare, Item.closing.injEq, and_true] at first
          refine ⟨[], _, .closing tag' span' more, rfl, ?_⟩
          simp only [Break.bare, Break.mapTags, first, later]
      | _ => cases first
  | otherwise tag span rest =>
      obtain ⟨other, more, rfl, first, later⟩ := cons_of_map_bare same
      cases other with
      | otherwise tag' span' =>
          simp only [Item.mapTags, Item.bare, Item.otherwise.injEq, and_true] at first
          refine ⟨[], _, .otherwise tag' span' more, rfl, ?_⟩
          simp only [Break.bare, Break.mapTags, first, later]
      | _ => cases first
  | chain tag span rest =>
      obtain ⟨other, more, rfl, first, later⟩ := cons_of_map_bare same
      cases other with
      | chain tag' span' =>
          simp only [Item.mapTags, Item.bare, Item.chain.injEq, and_true] at first
          refine ⟨[], _, .chain tag' span' more, rfl, ?_⟩
          simp only [Break.bare, Break.mapTags, first, later]
      | _ => cases first

theorem rebuildsBody_statement (statement : Statement)
    (more : RebuildsBody index' f rest statements stop) :
    RebuildsBody index' f (.statement statement :: rest) (statement :: statements) stop := by
  intro others same
  obtain ⟨other, behind, rfl, first, later⟩ := cons_of_map_bare same
  cases other with
  | statement statement' =>
      simp only [Item.mapTags, Item.bare, Item.statement.injEq] at first
      obtain ⟨statements', stop', derived', body, stopped⟩ := more behind later
      refine ⟨_, _, .statement statement' derived', ?_, stopped⟩
      simp only [bareStatements, mapStatements, first, body]
  | _ => cases first

/-- The close tag of a block still fits, because the names are kept. -/
theorem rebuildsBody_block (names : ∀ tag, (f tag).name = tag.name) {tag : Tag} (span : Span)
    (loc : SourceSpan) (inner : RebuildsSection index' f items program inverse close rest)
    (named : close.path = tag.name) (more : RebuildsBody index' f rest statements stop) :
    RebuildsBody index' f (.opening tag span :: items)
      (.block ⟨tag, program, inverse, some close, loc⟩ :: statements) stop := by
  intro others same
  obtain ⟨other, behind, rfl, first, later⟩ := cons_of_map_bare same
  cases other with
  | opening tag' span' =>
      simp only [Item.mapTags, Item.bare, Item.opening.injEq, and_true] at first
      obtain ⟨program', inverse', close', closeSpan', rest', inner', sameProgram, sameInverse,
        sameClose, sameRest⟩ := inner behind later
      obtain ⟨statements', stop', more', sameStatements, sameStop⟩ := more rest' sameRest
      have samePath : close'.path = close.path := by
        simpa [CloseTag.bare] using congrArg CloseTag.path sameClose
      have sameName : tag'.name = tag.name := by
        rw [← Tag.name_bare, first, Tag.name_bare, names]
      refine ⟨_, _, .block tag' span' inner' ?_ more', ?_, sameStop⟩
      · rw [samePath, sameName, named]
      · simp only [bareStatements, mapStatements, Statement.bare, Statement.mapTags, Block.bare,
          Block.mapTags, Option.map_some, first, sameProgram, sameInverse, sameClose,
          sameStatements]
  | _ => cases first

theorem rebuildsSection_plain {closeSpan : Span}
    (body : RebuildsBody index' f items program (.closing close closeSpan rest)) :
    RebuildsSection index' f items program none close rest := by
  intro others same
  obtain ⟨program', stop', body', sameProgram, sameStop⟩ := body others same
  cases stop' with
  | closing close' closeSpan' rest' =>
      simp only [Break.bare, Break.mapTags, Break.closing.injEq, true_and] at sameStop
      exact ⟨_, _, _, _, _, .plain body', sameProgram, rfl, sameStop.1, sameStop.2⟩
  | _ => cases sameStop

theorem rebuildsSection_otherwise {elseTag : ElseTag} {elseSpan closeSpan : Span}
    (body : RebuildsBody index' f items program (.otherwise elseTag elseSpan behind))
    (half : RebuildsBody index' f behind second (.closing close closeSpan rest)) :
    RebuildsSection index' f items program (some (.otherwise elseTag second)) close rest := by
  intro others same
  obtain ⟨program', stop', body', sameProgram, sameStop⟩ := body others same
  cases stop' with
  | otherwise elseTag' elseSpan' behind' =>
      simp only [Break.bare, Break.mapTags, Break.otherwise.injEq, true_and] at sameStop
      obtain ⟨second', stop', half', sameSecond, sameEnd⟩ := half behind' sameStop.2
      cases stop' with
      | closing close' closeSpan' rest' =>
          simp only [Break.bare, Break.mapTags, Break.closing.injEq, true_and] at sameEnd
          refine ⟨_, _, _, _, _, .otherwise body' half', sameProgram, ?_, sameEnd.1, sameEnd.2⟩
          simp only [bareInverse, mapInverse, Inverse.bare, Inverse.mapTags, sameStop.1, sameSecond]
      | _ => cases sameEnd
  | _ => cases sameStop

theorem rebuildsSection_chain {chainTag : Tag} {chainSpan : Span} (loc : SourceSpan)
    (body : RebuildsBody index' f items program (.chain chainTag chainSpan behind))
    (inner : RebuildsSection index' f behind second inverse close rest) :
    RebuildsSection index' f items program (some (.chained ⟨chainTag, second, inverse, none, loc⟩))
      close rest := by
  intro others same
  obtain ⟨program', stop', body', sameProgram, sameStop⟩ := body others same
  cases stop' with
  | chain chainTag' chainSpan' behind' =>
      simp only [Break.bare, Break.mapTags, Break.chain.injEq, true_and] at sameStop
      obtain ⟨second', inverse', close', closeSpan', rest', inner', sameSecond, sameInverse,
        sameClose, sameRest⟩ := inner behind' sameStop.2
      refine ⟨_, _, _, _, _, .chain body' inner', sameProgram, ?_, sameClose, sameRest⟩
      simp only [bareInverse, mapInverse, Inverse.bare, Inverse.mapTags, Block.bare, Block.mapTags,
        Option.map_none, sameStop.1, sameSecond, sameInverse]
  | _ => cases sameStop

/-- Blocks are built alike from items with other tags, as long as the tags keep their names. -/
theorem rebuildsBody_of_derives (names : ∀ tag, (f tag).name = tag.name)
    (derived : Derives index items statements stop) :
    RebuildsBody index' f items statements stop := by
  induction derived using Derives.induction
    (Q := fun items program inverse close _ rest =>
      RebuildsSection index' f items program inverse close rest) with
  | finish => exact rebuildsBody_nil .finish
  | closing tag span rest => exact rebuildsBody_nil (.closing tag span rest)
  | otherwise tag span rest => exact rebuildsBody_nil (.otherwise tag span rest)
  | chain tag span rest => exact rebuildsBody_nil (.chain tag span rest)
  | statement statement rest statements stop more => exact rebuildsBody_statement statement more
  | block tag span items rest program statements inverse close closeSpan stop inner named more =>
      exact rebuildsBody_block names span _ inner named more
  | plainSection items rest program close closeSpan body => exact rebuildsSection_plain body
  | elseSection items behind rest program second elseTag elseSpan closeSpan close body half =>
      exact rebuildsSection_otherwise body half
  | chainSection items behind rest program second inverse chainTag chainSpan closeSpan close body
      inner => exact rebuildsSection_chain _ body inner

end

theorem exists_read_of_parse {source : Text} {template : Template}
    (parsed : parse source = .ok template) : ∀ tag ∈ template.everyTag,
      ∃ index start opener body closer, Tag.read index start opener body closer = .ok tag := by
  intro tag member
  obtain ⟨items, scans, derived⟩ := items_of_parse parsed
  rw [Template.everyTag, leaves_of_items derived] at member
  obtain ⟨_, _, _, _, _, _, found⟩ := Item.exists_read_of_scans scans member
  exact ⟨_, _, _, _, _, found⟩

theorem standsFor_of_parse {source : Text} {template : Template}
    (parsed : parse source = .ok template) : ∀ tag ∈ template.tags, tag.StandsFor tag := by
  intro tag member
  obtain ⟨_, _, _, _, _, found⟩ :=
    exists_read_of_parse parsed tag (Leaf.mem_everyTag_of_mem_tags member)
  exact Tag.standsFor_of_read found

theorem print_mapTags {index : LineIndex} {items : List Item} {template : Template}
    (derived : Derives index items template.body .finish) (f : Tag → Tag) :
    (template.mapTags f).print = (items.map (Item.mapTags f)).flatMap Item.text := by
  have leaves : (items.map (Item.mapTags f)).flatMap Item.leaves =
      template.leaves.map (Leaf.mapTag f) := by
    rw [leaves_of_items derived, List.flatMap_map, List.map_flatMap]
    exact congrArg (items.flatMap ·) (funext (Item.leaves_mapTags f))
  rw [print_mapTags_leaves, ← leaves, printAll_items]

/-- A template whose tags are replaced by tags that stand for them is read back from its text,
places apart. -/
theorem parse_of_standsFor {source : Text} {template : Template}
    (parsed : parse source = .ok template) {f : Tag → Tag}
    (stands : ∀ tag ∈ template.tags, (f tag).StandsFor tag)
    (names : ∀ tag, (f tag).name = tag.name) :
    ∃ reparsed, parse (template.mapTags f).print = .ok reparsed ∧
      reparsed.bare = (template.mapTags f).bare := by
  obtain ⟨items, scans, derived⟩ := items_of_parse parsed
  have tags : template.tags = Leaf.tags (items.flatMap Item.leaves) := by
    rw [Template.tags, leaves_of_items derived]
  rw [tags] at stands
  obtain ⟨items', scans', same⟩ :=
    scans.replace stands (LineIndex.ofText (template.mapTags f).print) 0
  obtain ⟨body', stop', derived', sameBody, sameStop⟩ :=
    rebuildsBody_of_derives names derived _ same
  cases stop' with
  | finish =>
      rw [← print_mapTags derived f] at scans'
      refine ⟨_, parse_of_items scans' derived', ?_⟩
      simp only [Template.bare, Template.mapTags, sameBody]
  | _ => cases sameStop

end Template

end TemplateSelectors
