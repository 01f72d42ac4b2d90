import TemplateSelectors.Proofs.ExactPlaces

/-!
# Where errors stand

An error about a source is either over some of its characters or over the first byte of one.  The
second form is that of a failure inside a tag: reading stops between two characters, and what is
marked is the byte that follows.
-/

set_option autoImplicit false

namespace TemplateSelectors

/-- Between two characters, reading from the start finds the position behind the text before. -/
theorem positionFrom_append (here : Position) (front rest : Text) :
    positionFrom here front.size (front ++ rest) = here.advance front := by
  induction front generalizing here with
  | nil =>
      cases rest with
      | nil => rfl
      | cons c rest => rfl
  | cons c front inductionHypothesis =>
      have positive : 0 < c.utf8Size := Char.utf8Size_pos c
      rw [List.cons_append, positionFrom, Text.size_cons, if_neg (by omega),
        Nat.add_sub_cancel_left, inductionHypothesis]
      rfl

theorem LineIndex.position_eq_positionAt {source front rest : Text}
    (whole : source = front ++ rest) :
    (LineIndex.ofText source).position front.size = positionAt source front.size := by
  rw [whole, LineIndex.position_append, positionAt, positionFrom_append]

/-- An error about a part of the source. -/
inductive ParseError.StandsIn (source : Text) : ParseError → Prop where
  | across (cause : ParseCause) {front marked rest : Text} (nonempty : marked ≠ [])
      (whole : source = front ++ (marked ++ rest)) :
      StandsIn source ((LineIndex.ofText source).errorAt cause
        ⟨front.size, front.size + marked.size⟩)
  | firstByte (fault : ExpressionFault) (c : Char) {front rest : Text}
      (whole : source = front ++ c :: rest) :
      StandsIn source ((LineIndex.ofText source).errorAt (.invalidExpression fault)
        ⟨front.size, front.size + 1⟩)

variable {source : Text}

theorem ParseError.StandsIn.position_eq {error : ParseError} (stands : error.StandsIn source) :
    error.position = positionAt source error.span.start := by
  cases stands with
  | across cause nonempty whole => exact LineIndex.position_eq_positionAt whole
  | firstByte fault c whole => exact LineIndex.position_eq_positionAt whole

theorem ParseError.StandsIn.isBoundary_start {error : ParseError} (stands : error.StandsIn source) :
    source.isBoundary error.span.start = true := by
  cases stands with
  | across cause nonempty whole =>
      rw [whole]
      exact Text.isBoundary_append _ _
  | firstByte fault c whole =>
      rw [whole]
      exact Text.isBoundary_append _ _

theorem ParseError.StandsIn.ordered {error : ParseError} (stands : error.StandsIn source) :
    error.span.start ≤ error.span.stop ∧ error.span.stop ≤ source.size := by
  cases stands with
  | across cause nonempty whole =>
      rw [whole]
      simp only [LineIndex.errorAt, Text.size_append]
      omega
  | firstByte fault c whole =>
      have positive : 0 < c.utf8Size := Char.utf8Size_pos c
      rw [whole]
      simp only [LineIndex.errorAt, Text.size_append, Text.size_cons]
      omega

/-! ## Inside a tag -/

namespace TagBody

theorem stuckAt_suffix (text : Text) : stuckAt text <:+ text := by
  unfold stuckAt
  split
  · exact List.suffix_cons _ _
  · exact List.suffix_refl _

theorem rest_suffix_of_term? {text : Text} {taken : Taken Term text}
    (found : term? text = some taken) : taken.rest <:+ text :=
  ⟨taken.value.text, (soundTerm text taken found).1.symm⟩

theorem rest_suffix_of_pair? {text : Text} {taken : Taken ((Text × Text) × Term) text}
    (found : pair? text = some taken) : taken.rest <:+ text := by
  have sound := (sound_below (text.length + 1) text (Nat.lt_succ_self _)).2.1
  exact ⟨_, (sound taken found).1.symm⟩

theorem rest_suffix_of_arguments {text : Text} {passed : Passed Arguments text}
    (found : arguments text = .ok passed) : passed.rest <:+ text :=
  ⟨passed.value.text, (soundArguments text passed found).1.symm⟩

/-- Reading arguments gives up at a place of the text. -/
theorem suffix_of_arguments_error {text stuck : Text} (failed : arguments text = .error stuck) :
    stuck <:+ text := by
  induction bound : text.length using Nat.strongRecOn generalizing text with
  | ind length inductionHypothesis =>
  have gap : text.dropWhile isLayout <:+ text := List.dropWhile_suffix isLayout
  unfold arguments at failed
  split at failed
  · cases failed
  · next layout =>
      have shorter := length_dropWhile_lt layout
      split at failed
      · cases failed
      · split at failed
        · next pair readPair =>
            have pairRest := pair.shorter
            split at failed
            · next later =>
                cases failed
                have inside := inductionHypothesis _ (by omega) later rfl
                exact (inside.trans (rest_suffix_of_pair? readPair)).trans gap
            · cases failed
        · split at failed
          · cases failed
            exact (stuckAt_suffix _).trans gap
          · next value readValue =>
              have valueRest := value.shorter
              split at failed
              · next later =>
                  cases failed
                  have inside := inductionHypothesis _ (by omega) later rfl
                  exact (inside.trans (rest_suffix_of_term? readValue)).trans gap
              · cases failed

theorem rest_suffix_of_blockParams? {text names rest : Text}
    (found : blockParams? text = some (names, rest)) : rest <:+ text :=
  ⟨names, (blockParams_of_blockParams? found).1.symm⟩

theorem exists_front_of_suffix {rest text : Text} (suffix : rest <:+ text) :
    ∃ front : Text, text = front ++ rest ∧ text.size - rest.size = front.size := by
  obtain ⟨front, rfl⟩ := suffix
  refine ⟨front, rfl, ?_⟩
  rw [Text.size_append]
  omega

/-- The inside of a tag is refused at a place between two characters. -/
theorem exists_front_of_read_error {text : Text} {offset : Nat} {fault : ExpressionFault}
    (failed : read text = .error (offset, fault)) :
    ∃ front rest : Text, text = front ++ rest ∧ offset = front.size := by
  suffices stopped : ∃ rest : Text, rest <:+ text ∧ offset = text.size - rest.size by
    obtain ⟨rest, suffix, rfl⟩ := stopped
    obtain ⟨front, whole, size⟩ := exists_front_of_suffix suffix
    exact ⟨front, rest, whole, size⟩
  have gap : text.dropWhile isLayout <:+ text := List.dropWhile_suffix isLayout
  unfold read at failed
  simp only at failed
  split at failed
  · cases failed
    exact ⟨_, (stuckAt_suffix _).trans gap, rfl⟩
  · next callee readCallee =>
      have calleeRest := (rest_suffix_of_term? readCallee).trans gap
      split at failed
      · next stuck readArgs =>
          cases failed
          exact ⟨_, (suffix_of_arguments_error readArgs).trans calleeRest, rfl⟩
      · next args readArgs =>
          have argsRest := (rest_suffix_of_arguments readArgs).trans calleeRest
          cases names : blockParams? args.rest with
          | none =>
              simp only [names] at failed
              split at failed
              · cases failed
              · next found left behind =>
                  cases failed
                  have spaces : found :: left <:+ args.rest := by
                    rw [← behind]
                    exact List.dropWhile_suffix isLayout
                  exact ⟨_, spaces.trans argsRest, rfl⟩
          | some barred =>
              simp only [names] at failed
              split at failed
              · cases failed
              · next found left behind =>
                  cases failed
                  have spaces : found :: left <:+ barred.2 := by
                    rw [← behind]
                    exact List.dropWhile_suffix isLayout
                  have barredRest := rest_suffix_of_blockParams? names
                  exact ⟨_, (spaces.trans barredRest).trans argsRest, rfl⟩

theorem Term.text_ne_nil {term : Term} (rule : term.Grammatical) : term.text ≠ [] := by
  obtain ⟨c, rest, text, _⟩ := Term.starts rule
  rw [text]
  exact List.cons_ne_nil c rest

mutual

theorem Term.standsIn_of_locate (term : Term) (rule : term.Grammatical) {start : Nat}
    {error : ParseError} (stands : source.StandsAt start term.text)
    (failed : term.locate (.ofText source) start = .error error) : error.StandsIn source := by
  match term with
  | .path text =>
      unfold Term.locate at failed
      cases kind : literalKind? text with
      | none => simp [kind] at failed
      | some literal => simp [kind] at failed
  | .quoted text =>
      unfold Term.locate at failed
      cases failed
  | .call leading callee args trailing =>
      obtain ⟨_, calleeRule, argsRule, _⟩ := rule
      obtain ⟨calleeStands, argsStand⟩ := Term.standsAt_call stands
      unfold Term.locate at failed
      simp only at failed
      split at failed
      · next located =>
          cases failed
          exact Term.standsIn_of_locate callee calleeRule calleeStands located
      · split at failed
        · next located =>
            cases failed
            exact Arguments.standsIn_of_locate args argsRule argsStand located
        · cases failed

theorem Arguments.standsIn_of_locate (args : Arguments) (rule : args.Grammatical) {start : Nat}
    {afterPair : Bool} {error : ParseError} (stands : source.StandsAt start args.text)
    (failed : args.locate (.ofText source) start afterPair = .error error) :
    error.StandsIn source := by
  match args with
  | .done => cases failed
  | .positional leading value more =>
      obtain ⟨_, valueRule, moreRule⟩ := rule
      obtain ⟨valueStands, moreStands⟩ := Arguments.standsAt_positional stands
      unfold Arguments.locate at failed
      simp only at failed
      split at failed
      · cases failed
        obtain ⟨front, rest, whole, place⟩ := valueStands
        rw [place, ← Term.size_text]
        exact .across _ (Term.text_ne_nil valueRule) whole
      · split at failed
        · next located =>
            cases failed
            exact Term.standsIn_of_locate value valueRule valueStands located
        · split at failed
          · next located =>
              cases failed
              exact Arguments.standsIn_of_locate more moreRule moreStands located
          · cases failed
  | .keyword leading key separator value more =>
      obtain ⟨_, _, _, valueRule, moreRule⟩ := rule
      obtain ⟨valueStands, moreStands⟩ := Arguments.standsAt_keyword stands
      unfold Arguments.locate at failed
      simp only at failed
      split at failed
      · next located =>
          cases failed
          exact Term.standsIn_of_locate value valueRule valueStands located
      · split at failed
        · next located =>
            cases failed
            exact Arguments.standsIn_of_locate more moreRule moreStands located
        · cases failed

end

end TagBody

theorem Tag.standsIn_of_read {front opener body closer rest : Text} {start : Nat}
    {error : ParseError} (whole : source = front ++ (opener ++ body ++ closer ++ rest))
    (here : start = front.size) (closed : closer ≠ [])
    (failed : Tag.read (.ofText source) start opener body closer = .error error) :
    error.StandsIn source := by
  unfold Tag.read at failed
  cases inside : TagBody.read body with
  | error fault =>
      obtain ⟨offset, fault⟩ := fault
      simp only [inside] at failed
      cases failed
      obtain ⟨before, left, split, rfl⟩ := TagBody.exists_front_of_read_error inside
      obtain ⟨c, behind, shape⟩ : ∃ c behind, left ++ (closer ++ rest) = c :: behind :=
        List.exists_cons_of_ne_nil (by simp [closed])
      have around : source = (front ++ opener ++ before) ++ c :: behind := by
        rw [whole, split, ← shape]
        simp
      have place : start + opener.size + before.size = (front ++ opener ++ before).size := by
        simp only [Text.size_append, here]
      have fits : min ((front ++ opener ++ before).size + 1) (LineIndex.ofText source).size =
          (front ++ opener ++ before).size + 1 := by
        have positive : 0 < c.utf8Size := Char.utf8Size_pos c
        simp only [LineIndex.ofText]
        rw [around, Text.size_append _ (c :: behind), Text.size_cons]
        omega
      rw [place, fits]
      exact .firstByte fault c around
  | ok parts =>
      obtain ⟨text, rule⟩ := TagBody.grammatical_of_read inside
      have stands : source.StandsAt start (opener ++ parts.text ++ closer) :=
        ⟨front, rest, by rw [text]; exact whole, here⟩
      obtain ⟨calleeStands, argsStand⟩ := TagBody.standsAt_parts stands
      simp only [inside] at failed
      split at failed
      · next located =>
          cases failed
          exact TagBody.Term.standsIn_of_locate parts.callee rule.callee calleeStands located
      · split at failed
        · next located =>
            cases failed
            exact TagBody.Arguments.standsIn_of_locate parts.args rule.args argsStand located
        · cases failed

/-! ## Around tags -/

namespace Lexeme

/-- The text of a lexeme that is not closed starts with what is marked. -/
theorem exists_marked_of_readTag {triple : Bool} {opener close inside : Text} {fault : Fault}
    (failed : readTag triple opener close inside = .error fault) : fault.2 = opener.size := by
  unfold readTag at failed
  split at failed
  · cases failed
    rfl
  · cases failed

theorem exists_marked_of_readComment {opener inside : Text} {fault : Fault}
    (failed : readComment opener inside = .error fault) :
    ∃ dashes rest : Text, inside = dashes ++ rest ∧ fault.2 = (opener ++ dashes).size := by
  unfold readComment at failed
  split at failed
  · split at failed
    · cases failed
      exact ⟨['-', '-'], _, rfl, rfl⟩
    · cases failed
  · split at failed
    · cases failed
      exact ⟨[], _, rfl, by rw [List.append_nil]⟩
    · cases failed

theorem exists_marked_of_read {behind : Text} {cause : ParseCause} {size : Nat}
    (failed : read behind = .error (cause, size)) :
    ∃ marked rest : Text, '{' :: '{' :: behind = marked ++ rest ∧ marked ≠ [] ∧
      size = marked.size := by
  unfold read at failed
  split at failed
  · next rest =>
      cases failed
      exact ⟨['{', '{', '{', '{'], rest, rfl, by simp, rfl⟩
  · next rest _ =>
      have whole := leadingTilde_append rest
      refine ⟨['{', '{', '{'] ++ (leadingTilde rest).1, (leadingTilde rest).2, ?_, by simp,
        exists_marked_of_readTag failed⟩
      rw [List.append_assoc, whole]
      rfl
  · have whole := leadingTilde_append behind
    split at failed
    · next inside bang =>
        obtain ⟨dashes, rest, rfl, sized⟩ := exists_marked_of_readComment failed
        rw [bang] at whole
        refine ⟨['{', '{'] ++ (leadingTilde behind).1 ++ ['!'] ++ dashes, rest, ?_, by simp, sized⟩
        simp [whole]
    · refine ⟨['{', '{'] ++ (leadingTilde behind).1, (leadingTilde behind).2, ?_, by simp,
        exists_marked_of_readTag failed⟩
      rw [List.append_assoc, whole]
      rfl

theorem closer_ne_nil_of_read {behind rest opener inner closer : Text} {triple : Bool}
    (found : read behind = .ok (.tag triple opener inner closer, rest)) : closer ≠ [] := by
  generalize shape : Lexeme.tag triple opener inner closer = lexeme at found
  have reads := reads_of_read found
  cases reads with
  | triple first marked closed =>
      cases shape
      simp
  | tag first marked plain closed =>
      cases shape
      simp
  | shortComment first marked short closed => cases shape
  | longComment first marked closed => cases shape

end Lexeme

theorem eq_error_of_map {ε α β : Type} {f : α → β} {result : Except ε α} {error : ε}
    (failed : result.map f = .error error) : result = .error error := by
  cases result with
  | error inner =>
      cases failed
      rfl
  | ok inner => cases failed

namespace Item

theorem standsIn_of_ofLexeme {markup : Markup} {front rest : Text} {lexeme : Lexeme}
    {error : ParseError} (whole : source = front ++ (lexeme.raw ++ rest))
    (nonempty : lexeme.raw ≠ [])
    (closed : ∀ triple opener inner closer, lexeme = .tag triple opener inner closer → closer ≠ [])
    (failed : ofLexeme (.ofText source) markup front.size lexeme = .error error) :
    error.StandsIn source := by
  unfold ofLexeme at failed
  split at failed
  · cases failed
  · next opener inner closer =>
      exact Tag.standsIn_of_read whole rfl (closed _ _ _ _ rfl) (eq_error_of_map failed)
  · next opener inner closer =>
      have ends := closed _ _ _ _ rfl
      split at failed
      · next body form =>
          have around : source = front ++ (opener ++ ['#'] ++ body ++ closer ++ rest) := by
            rw [whole, Lexeme.raw, TagForm.eq_of_opening form]
            simp
          exact Tag.standsIn_of_read around rfl ends (eq_error_of_map failed)
      · cases failed
      · cases failed
      · next spaces body form =>
          have around : source =
              front ++ (opener ++ spaces ++ elseWord ++ body ++ closer ++ rest) := by
            rw [whole, Lexeme.raw, TagForm.eq_of_chain form]
            simp
          exact Tag.standsIn_of_read around rfl ends (eq_error_of_map failed)
      · exact Tag.standsIn_of_read whole rfl ends (eq_error_of_map failed)
      · cases failed
        exact .across _ nonempty whole

/-- A source that cannot be cut into items is refused at one of its lexemes. -/
theorem standsIn_of_scan {markup : Markup} {start : Nat} {front text : Text} {error : ParseError}
    (whole : source = front ++ text) (here : start = front.size)
    (failed : scan (.ofText source) markup start text = .error error) :
    error.StandsIn source := by
  fun_induction scan (.ofText source) markup start text generalizing front with
  | case1 =>
      rename_i markup start text chars behind run lexemeStart cause size unread
      cases failed
      have split := textRun_append false false text
      obtain ⟨marked, rest, inside, nonempty, rfl⟩ := Lexeme.exists_marked_of_read unread
      rw [run, inside] at split
      have around : source = (front ++ chars) ++ (marked ++ rest) := by
        rw [whole, ← split, List.append_assoc]
      have place : lexemeStart = (front ++ chars).size := by
        rw [Text.size_append, ← here]
      rw [place]
      exact .across _ nonempty around
  | case2 =>
      rename_i markup start text chars behind run lexemeStart lexeme rest found error' unmade
      cases failed
      have split := textRun_append false false text
      rw [run, Lexeme.append_eq_of_read found] at split
      have around : source = (front ++ chars) ++ (lexeme.raw ++ rest) := by
        rw [whole, ← split, List.append_assoc]
      have place : lexemeStart = (front ++ chars).size := by
        rw [Text.size_append, ← here]
      rw [place] at unmade
      refine standsIn_of_ofLexeme around (Lexeme.raw_ne_nil_of_read found) ?_ unmade
      rintro triple opener inner closer rfl
      exact Lexeme.closer_ne_nil_of_read found
  | case3 =>
      rename_i markup start text chars behind run lexemeStart lexeme rest found item markup' made
        inductionHypothesis
      have split := textRun_append false false text
      rw [run, Lexeme.append_eq_of_read found] at split
      refine @inductionHypothesis (front ++ chars ++ lexeme.raw) ?_ ?_ (eq_error_of_map failed)
      · rw [whole, ← split]
        simp
      · simp only [Text.size_append, ← here]
        rfl
  | case4 => cases failed

end Item

/-! ## Blocks -/

namespace Template

variable {index : LineIndex}

/-- The close tag of a section is one of its items. -/
theorem suffix_of_derivesSection {items rest : List Item} {program : List Statement}
    {inverse : Option Inverse} {close : CloseTag} {closeSpan : Span}
    (derived : DerivesSection index items program inverse close closeSpan rest) :
    Item.closing close closeSpan :: rest <:+ items := by
  induction bound : items.length using Nat.strongRecOn
    generalizing items program inverse with
  | ind length inductionHypothesis =>
  cases derived with
  | plain body =>
      obtain ⟨front, _, rfl⟩ := isBody_of_derives body
      exact List.suffix_append _ _
  | otherwise body half =>
      obtain ⟨front, _, rfl⟩ := isBody_of_derives body
      obtain ⟨middle, _, rfl⟩ := isBody_of_derives half
      refine List.IsSuffix.trans ?_ (List.suffix_append _ _)
      exact (List.suffix_append _ _).trans (List.suffix_cons _ _)
  | chain body inner =>
      obtain ⟨front, _, rfl⟩ := isBody_of_derives body
      simp only [Break.items, List.length_append, List.length_cons] at bound
      have inside := inductionHypothesis _ (by omega) inner rfl
      refine (inside.trans ?_).trans (List.suffix_append _ _)
      exact List.suffix_cons _ _

theorem derivesSection_of_readSection {tag : Tag} {span : Span} {items : List Item}
    {inner : Section items} (found : readSection index tag span items = .ok inner) :
    DerivesSection index items inner.program inner.inverse inner.close inner.closeSpan inner.rest :=
  (derives_of_read_below (items.length + 1)).2 tag span items (Nat.lt_succ_self _) inner found

theorem suffix_of_readBody {items : List Item} {body : Body items}
    (found : readBody index items = .ok body) : body.stop.items <:+ items := by
  obtain ⟨front, _, whole⟩ := isBody_of_derives (derives_of_readBody found)
  exact ⟨front, whole.symm⟩

/-- An error about one of some items. -/
def IsAbout (index : LineIndex) (error : ParseError) (items : List Item) : Prop :=
  ∃ item ∈ items, ∃ span cause, item.span? = some span ∧ error = index.errorAt cause span

theorem IsAbout.mono {error : ParseError} {items more : List Item}
    (about : IsAbout index error items) (subset : items ⊆ more) : IsAbout index error more := by
  obtain ⟨item, member, rest⟩ := about
  exact ⟨item, subset member, rest⟩

/-- An error about the tag that opens a section, or about an item behind it. -/
def IsAboutSection (index : LineIndex) (error : ParseError) (span : Span) (items : List Item) :
    Prop :=
  (∃ cause, error = index.errorAt cause span) ∨ IsAbout index error items

theorem isAbout_of_readBody_step {items : List Item}
    (bodies : ∀ shorter : List Item, shorter.length < items.length → ∀ error,
      readBody index shorter = .error error → IsAbout index error shorter)
    (sections : ∀ (tag : Tag) (span : Span) (shorter : List Item),
      shorter.length < items.length → ∀ error,
        readSection index tag span shorter = .error error →
          IsAboutSection index error span shorter)
    (error : ParseError) (failed : readBody index items = .error error) :
    IsAbout index error items := by
  unfold readBody at failed
  split at failed
  · cases failed
  · cases failed
  · cases failed
  · cases failed
  · next statement rest =>
      split at failed
      · next later =>
          cases failed
          exact (bodies rest (by simp) _ later).mono (List.subset_cons_self _ _)
      · cases failed
  · next tag span rest =>
      split at failed
      · next between =>
          cases failed
          rcases sections tag span rest (by simp) _ between with ⟨cause, rfl⟩ | about
          · exact ⟨_, List.mem_cons_self, span, cause, rfl, rfl⟩
          · exact about.mono (List.subset_cons_self _ _)
      · next inner between =>
          have suffix := suffix_of_derivesSection (derivesSection_of_readSection between)
          have shorter := inner.shorter
          split at failed
          · split at failed
            · next later =>
                cases failed
                have about := bodies inner.rest (by simp only [List.length_cons]; omega) _ later
                refine about.mono fun item member => List.mem_cons_of_mem _ ?_
                exact suffix.subset (List.mem_cons_of_mem _ member)
            · cases failed
          · cases failed
            have member := suffix.subset List.mem_cons_self
            exact ⟨_, List.mem_cons_of_mem _ member, inner.closeSpan, _, rfl, rfl⟩

theorem isAboutSection_of_readSection_step {tag : Tag} {span : Span} {items : List Item}
    (bodies : ∀ shorter : List Item, shorter.length ≤ items.length → ∀ error,
      readBody index shorter = .error error → IsAbout index error shorter)
    (sections : ∀ (tag : Tag) (span : Span) (shorter : List Item),
      shorter.length < items.length → ∀ error,
        readSection index tag span shorter = .error error →
          IsAboutSection index error span shorter)
    (error : ParseError) (failed : readSection index tag span items = .error error) :
    IsAboutSection index error span items := by
  unfold readSection at failed
  split at failed
  · next early =>
      cases failed
      exact .inr (bodies items (Nat.le_refl _) _ early)
  · next body front =>
      have suffix := suffix_of_readBody front
      split at failed
      · cases failed
        exact .inl ⟨_, rfl⟩
      · cases failed
      · next elseTag elseSpan behind stop =>
          rw [stop] at suffix
          have inside : behind <:+ items := (List.suffix_cons _ _).trans suffix
          split at failed
          · next later =>
              cases failed
              exact .inr ((bodies behind inside.length_le _ later).mono inside.subset)
          · next second half =>
              have further := (suffix_of_readBody half).trans inside
              split at failed
              · cases failed
                exact .inl ⟨_, rfl⟩
              · next again againSpan _ stop =>
                  cases failed
                  rw [stop] at further
                  exact .inr ⟨_, further.subset List.mem_cons_self, againSpan, _, rfl, rfl⟩
              · next again againSpan _ stop =>
                  cases failed
                  rw [stop] at further
                  exact .inr ⟨_, further.subset List.mem_cons_self, againSpan, _, rfl, rfl⟩
              · cases failed
      · next chainTag chainSpan behind stop =>
          rw [stop] at suffix
          have inside : behind <:+ items := (List.suffix_cons _ _).trans suffix
          have shorter : behind.length < items.length := suffix.length_le
          split at failed
          · next later =>
              cases failed
              rcases sections chainTag chainSpan behind shorter _ later with ⟨cause, rfl⟩ | about
              · exact .inr ⟨_, suffix.subset List.mem_cons_self, chainSpan, cause, rfl, rfl⟩
              · exact .inr (about.mono inside.subset)
          · cases failed

/-- Both readers at once, by induction on a bound for the number of items. -/
theorem isAbout_of_read_below (bound : Nat) :
    (∀ items : List Item, items.length < bound → ∀ error,
      readBody index items = .error error → IsAbout index error items) ∧
    ∀ (tag : Tag) (span : Span) (items : List Item), items.length < bound → ∀ error,
      readSection index tag span items = .error error →
        IsAboutSection index error span items := by
  induction bound with
  | zero =>
      refine ⟨?_, ?_⟩
      · intro items below
        omega
      · intro tag span items below
        omega
  | succ bound inductionHypothesis =>
      obtain ⟨bodies, sections⟩ := inductionHypothesis
      have next : ∀ items : List Item, items.length < bound + 1 → ∀ error,
          readBody index items = .error error → IsAbout index error items := by
        intro items below
        apply isAbout_of_readBody_step
        · intro shorter less
          exact bodies shorter (by omega)
        · intro tag span shorter less
          exact sections tag span shorter (by omega)
      refine ⟨next, ?_⟩
      intro tag span items below
      apply isAboutSection_of_readSection_step
      · intro shorter less
        exact next shorter (by omega)
      · intro tag span shorter less
        exact sections tag span shorter (by omega)

theorem isAbout_of_ofItems {items : List Item} {error : ParseError}
    (failed : ofItems index items = .error error) : IsAbout index error items := by
  unfold ofItems at failed
  split at failed
  · next early =>
      cases failed
      exact (isAbout_of_read_below (items.length + 1)).1 items (Nat.lt_succ_self _) _ early
  · next body found =>
      have suffix := suffix_of_readBody found
      split at failed
      · cases failed
      · next tag span rest stop =>
          cases failed
          rw [stop] at suffix
          exact ⟨_, suffix.subset List.mem_cons_self, span, _, rfl, rfl⟩
      · next tag span rest stop =>
          cases failed
          rw [stop] at suffix
          exact ⟨_, suffix.subset List.mem_cons_self, span, _, rfl, rfl⟩
      · next tag span rest stop =>
          cases failed
          rw [stop] at suffix
          exact ⟨_, suffix.subset List.mem_cons_self, span, _, rfl, rfl⟩

end Template

/-- An item in a row stands where its span says. -/
theorem Item.Placed.exists_of_mem {front : Text} {items : List Item} {item : Item} {span : Span}
    (placed : Placed source front items) (member : item ∈ items) (given : item.span? = some span) :
    ∃ before rest : Text, source = before ++ (item.text ++ rest) ∧
      span = ⟨before.size, before.size + item.text.size⟩ := by
  induction items generalizing front with
  | nil => cases member
  | cons first items inductionHypothesis =>
      have whole := placed.whole
      obtain ⟨here, behind⟩ := placed
      rcases List.mem_cons.mp member with rfl | later
      · rw [List.flatMap_cons] at whole
        exact ⟨front, _, whole, here.spans span given⟩
      · exact inductionHypothesis behind later

theorem Item.text_ne_nil_of_scans {index : LineIndex} {markup : Markup} {start : Nat} {text : Text}
    {items : List Item} (scans : Scans index markup start text items) :
    ∀ item ∈ items, item.text ≠ [] := by
  have run : ∀ (start : Nat) (chars : Text), ∀ item ∈ ofText index start chars, item.text ≠ [] := by
    intro start chars item member
    unfold ofText at member
    split at member
    · cases member
    · next nonempty =>
        rw [List.mem_singleton.mp member]
        simpa [Item.text, Statement.print] using nonempty
  induction scans with
  | last stop => exact run _ _
  | lexeme stop found made more inductionHypothesis =>
      intro item member
      simp only [List.mem_append, List.mem_cons] at member
      rcases member with early | rfl | later
      · exact run _ _ item early
      · rw [text_of_makes (ofLexeme_eq_ok_iff.mp made)]
        exact Lexeme.raw_ne_nil_of_read found
      · exact inductionHypothesis item later

/-- Every error about a source is about a part of it. -/
theorem Template.standsIn_of_parse {error : ParseError} (failed : parse source = .error error) :
    error.StandsIn source := by
  unfold parse at failed
  simp only at failed
  split at failed
  · next early =>
      cases failed
      exact Item.standsIn_of_scan (List.nil_append source).symm rfl early
  · next items scanned =>
      have scans := Item.scans_of_scan scanned
      have placed : Item.Placed source [] items := Item.placed_of_scans scans rfl rfl
      split at failed
      · next late =>
          cases failed
          obtain ⟨item, member, span, cause, given, rfl⟩ := isAbout_of_ofItems late
          obtain ⟨before, rest, whole, rfl⟩ := placed.exists_of_mem member given
          exact .across cause (Item.text_ne_nil_of_scans scans item member) whole
      · cases failed

end TemplateSelectors
