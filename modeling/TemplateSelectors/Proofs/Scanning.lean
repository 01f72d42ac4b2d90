import TemplateSelectors.Proofs.Leaves

/-!
# The items of a source

Scanning as a relation between a source and its items.  A tag that was read keeps its text, an
item keeps the text of its lexeme, the items of a source follow one another without a gap, and
the tree keeps the leaves of its items in their order.
-/

set_option autoImplicit false

namespace TemplateSelectors

theorem eq_ok_of_map {ε α β : Type} {f : α → β} {result : Except ε α} {value : β}
    (found : result.map f = .ok value) : ∃ inner, result = .ok inner ∧ f inner = value := by
  cases result with
  | error error => cases found
  | ok inner =>
      cases found
      exact ⟨inner, rfl, rfl⟩

/-- A run of text reaches to the end or to two opening braces. -/
theorem textRun_stop (beforeLast last : Bool) (text : Text) :
    (textRun beforeLast last text).2 = [] ∨
      ∃ behind, (textRun beforeLast last text).2 = '{' :: '{' :: behind := by
  fun_induction textRun beforeLast last text with
  | case1 beforeLast last rest escaped run inductionHypothesis => exact inductionHypothesis
  | case2 beforeLast last rest unescaped => exact .inr ⟨rest, rfl⟩
  | case3 beforeLast last c rest _ run inductionHypothesis => exact inductionHypothesis
  | case4 => exact .inl rfl

namespace Item

/-- `Scans index markup start text items`: the items of `text`, which begins at offset `start`
with the markup before it. -/
inductive Scans (index : LineIndex) : Markup → Nat → Text → List Item → Prop where
  | last {markup : Markup} {start : Nat} {text chars : Text}
      (run : textRun false false text = (chars, [])) :
      Scans index markup start text (ofText index start chars)
  | lexeme {markup markup' : Markup} {start : Nat} {text chars behind rest : Text}
      {lexeme : Lexeme} {item : Item} {items : List Item}
      (run : textRun false false text = (chars, '{' :: '{' :: behind))
      (read : Lexeme.read behind = .ok (lexeme, rest))
      (made : ofLexeme index (markup.advance chars) (start + chars.size) lexeme =
        .ok (item, markup'))
      (more : Scans index markup' (start + chars.size + lexeme.raw.size) rest items) :
      Scans index markup start text (ofText index start chars ++ item :: items)

theorem scans_of_scan {index : LineIndex} {markup : Markup} {start : Nat} {text : Text}
    {items : List Item} (found : scan index markup start text = .ok items) :
    Scans index markup start text items := by
  fun_induction scan index markup start text generalizing items with
  | case1 => cases found
  | case2 => cases found
  | case3 =>
      rename_i chars behind run lexemeStart lexeme rest read item markup' made inductionHypothesis
      cases later : scan index markup' (lexemeStart + lexeme.raw.size) rest with
      | error error => simp [later, Except.map] at found
      | ok more =>
          simp only [later, Except.map, Except.ok.injEq] at found
          subst found
          exact .lexeme run read made (inductionHypothesis later)
  | case4 markup start text chars rest other run =>
      cases found
      have stop := textRun_stop false false text
      rw [run] at stop
      rcases stop with rfl | ⟨behind, rfl⟩
      · exact .last run
      · exact absurd rfl (other behind)

theorem scan_of_scans {index : LineIndex} {markup : Markup} {start : Nat} {text : Text}
    {items : List Item} (scans : Scans index markup start text items) :
    scan index markup start text = .ok items := by
  induction scans with
  | last run =>
      rw [scan]
      split
      · next _ _ here =>
          rw [run] at here
          cases here
      · next _ _ _ here =>
          rw [run] at here
          cases here
          rfl
  | lexeme run read made more inductionHypothesis =>
      rw [scan]
      split
      · next _ _ here =>
          rw [run] at here
          cases here
          split
          · next _ _ refused =>
              rw [read] at refused
              cases refused
          · next _ _ found =>
              rw [read] at found
              cases found
              simp only [made, inductionHypothesis, Except.map]
      · next _ _ other here =>
          rw [run] at here
          cases here
          exact absurd rfl (other _)

/-- `Makes index markup start lexeme item markup'`: the item that a lexeme at offset `start`
stands for, with the markup before and behind it. -/
inductive Makes (index : LineIndex) (markup : Markup) (start : Nat) :
    Lexeme → Item → Markup → Prop where
  | comment (opener value closer : Text) :
      Makes index markup start (.comment opener value closer)
        (.statement (.comment ⟨opener ++ value ++ closer, value,
          index.sourceSpan ⟨start, start + (opener ++ value ++ closer).size⟩⟩)) markup
  | triple {opener inner closer : Text} {tag : Tag}
      (read : Tag.read index start opener inner closer = .ok tag) :
      Makes index markup start (.tag true opener inner closer) (.statement (.mustache ⟨tag, true⟩))
        markup.afterTag
  | opening {opener inner closer body : Text} {tag : Tag}
      (form : TagForm.ofInner inner = .opening body)
      (read : Tag.read index start (opener ++ ['#']) body closer = .ok tag) :
      Makes index markup start (.tag false opener inner closer)
        (.opening tag ⟨start, start + (opener ++ inner ++ closer).size⟩) markup
  | closing {inner path : Text} (opener closer : Text)
      (form : TagForm.ofInner inner = .closing path) :
      Makes index markup start (.tag false opener inner closer)
        (.closing ⟨opener ++ inner ++ closer, Text.trim path,
          index.sourceSpan ⟨start, start + (opener ++ inner ++ closer).size⟩⟩
          ⟨start, start + (opener ++ inner ++ closer).size⟩) markup
  | otherwise {inner : Text} (opener closer : Text) (form : TagForm.ofInner inner = .otherwise) :
      Makes index markup start (.tag false opener inner closer)
        (.otherwise ⟨opener ++ inner ++ closer,
          index.sourceSpan ⟨start, start + (opener ++ inner ++ closer).size⟩⟩
          ⟨start, start + (opener ++ inner ++ closer).size⟩) markup
  | chain {opener inner closer spaces body : Text} {tag : Tag}
      (form : TagForm.ofInner inner = .chain spaces body)
      (read : Tag.read index start (opener ++ spaces ++ elseWord) body closer = .ok tag) :
      Makes index markup start (.tag false opener inner closer)
        (.chain tag ⟨start, start + (opener ++ inner ++ closer).size⟩) markup
  | mustache {opener inner closer : Text} {tag : Tag} (form : TagForm.ofInner inner = .mustache)
      (read : Tag.read index start opener inner closer = .ok tag) :
      Makes index markup start (.tag false opener inner closer) (ofMustache markup tag)
        markup.afterTag

theorem ofLexeme_eq_ok_iff {index : LineIndex} {markup markup' : Markup} {start : Nat}
    {lexeme : Lexeme} {item : Item} :
    ofLexeme index markup start lexeme = .ok (item, markup') ↔
      Makes index markup start lexeme item markup' := by
  constructor
  · intro found
    unfold ofLexeme at found
    split at found
    · cases found
      exact .comment ..
    · obtain ⟨tag, read, same⟩ := eq_ok_of_map found
      cases same
      exact .triple read
    · split at found
      · next form =>
          obtain ⟨tag, read, same⟩ := eq_ok_of_map found
          cases same
          exact .opening form read
      · next form =>
          cases found
          exact .closing _ _ form
      · next form =>
          cases found
          exact .otherwise _ _ form
      · next form =>
          obtain ⟨tag, read, same⟩ := eq_ok_of_map found
          cases same
          exact .chain form read
      · next form =>
          obtain ⟨tag, read, same⟩ := eq_ok_of_map found
          cases same
          exact .mustache form read
      · cases found
  · intro made
    cases made with
    | comment opener value closer => rfl
    | triple read => simp only [ofLexeme, read, Except.map]
    | opening form read => simp only [ofLexeme, form, read, Except.map, Lexeme.raw]
    | closing opener closer form => simp only [ofLexeme, form, Lexeme.raw]
    | otherwise opener closer form => simp only [ofLexeme, form, Lexeme.raw]
    | chain form read => simp only [ofLexeme, form, read, Except.map, Lexeme.raw]
    | mustache form read => simp only [ofLexeme, form, read, Except.map]

end Item

/-! ## Texts -/

theorem Tag.source_of_read {index : LineIndex} {start : Nat} {opener body closer : Text} {tag : Tag}
    (found : Tag.read index start opener body closer = .ok tag) :
    tag.source = some (opener ++ body ++ closer) := by
  obtain ⟨_, _, _, _, _, _, _, _, _, rfl⟩ := Tag.exists_of_read found
  rfl

theorem Tag.print_of_read {index : LineIndex} {start : Nat} {opener body closer : Text} {tag : Tag}
    (found : Tag.read index start opener body closer = .ok tag) :
    tag.print = opener ++ body ++ closer := by
  rw [Tag.print, Tag.source_of_read found, Option.getD_some]

namespace Item

theorem TagForm.eq_of_opening {inner body : Text} (form : ofInner inner = .opening body) :
    inner = '#' :: body := by
  unfold ofInner at form
  split at form
  case h_3 => simp_all
  case h_5 => split at form <;> cases form
  case h_8 =>
    unfold ofWord at form
    split at form
    · cases form
    · split at form
      · cases form
      · split at form <;> cases form
  all_goals cases form

theorem TagForm.eq_of_chain {inner spaces body : Text} (form : ofInner inner = .chain spaces body) :
    inner = spaces ++ elseWord ++ body := by
  unfold ofInner at form
  split at form
  case h_5 => split at form <;> cases form
  case h_8 =>
    unfold ofWord at form
    split at form
    · cases form
    · next after found =>
        split at form
        · cases form
        · split at form
          · cases form
            rw [List.append_assoc, ← Text.eq_append_of_after? found]
            exact List.takeWhile_append_dropWhile.symm
          · cases form
  all_goals cases form

theorem text_ofMustache (markup : Markup) (tag : Tag) :
    (ofMustache markup tag).text = tag.print := by
  unfold ofMustache
  split <;> rfl

theorem text_of_makes {index : LineIndex} {markup markup' : Markup} {start : Nat}
    {lexeme : Lexeme} {item : Item} (made : Makes index markup start lexeme item markup') :
    item.text = lexeme.raw := by
  cases made with
  | comment opener value closer => rfl
  | triple read => exact Tag.print_of_read read
  | opening form read =>
      rw [text, Tag.print_of_read read, Lexeme.raw, TagForm.eq_of_opening form]
      simp
  | closing opener closer form => rfl
  | otherwise opener closer form => rfl
  | chain form read =>
      rw [text, Tag.print_of_read read, Lexeme.raw, TagForm.eq_of_chain form]
      simp
  | mustache form read => rw [text_ofMustache, Tag.print_of_read read, Lexeme.raw]

theorem text_ofText (index : LineIndex) (start : Nat) (chars : Text) :
    (ofText index start chars).flatMap text = chars := by
  cases chars with
  | nil => rfl
  | cons c rest => simp [ofText, text, Statement.print]

/-- The items of a source follow one another without a gap. -/
theorem text_of_scans {index : LineIndex} {markup : Markup} {start : Nat} {source : Text}
    {items : List Item} (scans : Scans index markup start source items) :
    items.flatMap text = source := by
  induction scans with
  | @last markup start source chars run =>
      have whole := textRun_append false false source
      rw [run, List.append_nil] at whole
      rw [text_ofText]
      exact whole
  | @lexeme markup markup' start source _ _ _ _ _ _ run read made more inductionHypothesis =>
      have whole := textRun_append false false source
      rw [run, Lexeme.append_eq_of_read read] at whole
      rw [List.flatMap_append, List.flatMap_cons, text_ofText, inductionHypothesis,
        text_of_makes (ofLexeme_eq_ok_iff.mp made), whole]

end Item

namespace Template

/-- A template that was read is the tree of the items of its source. -/
theorem items_of_parse {source : Text} {template : Template}
    (parsed : parse source = .ok template) :
    ∃ items, Item.Scans (.ofText source) .initial 0 source items ∧
      Derives (.ofText source) items template.body .finish := by
  unfold parse at parsed
  cases scanned : Item.scan (LineIndex.ofText source) Markup.initial 0 source with
  | error error => simp [scanned] at parsed
  | ok items =>
      simp only [scanned] at parsed
      cases built : ofItems (LineIndex.ofText source) items with
      | error error => simp [built] at parsed
      | ok body =>
          simp only [built, Except.ok.injEq] at parsed
          subst parsed
          exact ⟨items, Item.scans_of_scan scanned, derives_of_ofItems built⟩

theorem parse_of_items {source : Text} {items : List Item} {body : List Statement}
    (scans : Item.Scans (.ofText source) .initial 0 source items)
    (derived : Derives (.ofText source) items body .finish) :
    parse source = .ok ⟨body, (LineIndex.ofText source).sourceSpan ⟨0, source.size⟩⟩ := by
  simp only [parse, Item.scan_of_scans scans, ofItems_of_derives derived]

theorem leaves_of_items {index : LineIndex} {items : List Item} {template : Template}
    (derived : Derives index items template.body .finish) :
    template.leaves = items.flatMap Item.leaves := by
  simpa [Break.leaves, leaves] using leaves_of_derives derived

theorem printAll_items (items : List Item) :
    Leaf.printAll (items.flatMap Item.leaves) = items.flatMap Item.text := by
  simp only [Leaf.printAll, List.flatMap_assoc]
  exact congrArg (items.flatMap ·) (funext Item.print_leaves)

theorem printAll_leaves_of_parse {source : Text} {template : Template}
    (parsed : parse source = .ok template) : Leaf.printAll template.leaves = source := by
  obtain ⟨items, scans, derived⟩ := items_of_parse parsed
  calc
    Leaf.printAll template.leaves
      = Leaf.printAll (items.flatMap Item.leaves) := by rw [leaves_of_items derived]
    _ = items.flatMap Item.text := printAll_items items
    _ = source := Item.text_of_scans scans

/-- A source about which something can be told has a template. -/
theorem exists_parse_of_map {α : Type} {source : Text} {f : Template → α} {value : α}
    (facts : (parse source).toOption.map f = some value) :
    ∃ template, parse source = .ok template ∧ f template = value := by
  cases parsed : parse source with
  | error error =>
      rw [parsed] at facts
      cases facts
  | ok template =>
      rw [parsed] at facts
      exact ⟨template, rfl, Option.some.inj facts⟩

end Template

end TemplateSelectors
