import Mathlib
import TemplateSelectors.Proofs.IndexedPositions
import TemplateSelectors.Proofs.VisitedNodes

/-!
# Document order

The items of a source stand one behind the other, and so do the paths and literals of a tag: the
callee, the positional arguments, the keyword arguments.  To build blocks from items moves none of
them.  Hence a walk of a template that was read meets its statements, and its paths and literals,
in the order in which they start in the source.
-/

set_option autoImplicit false

namespace TemplateSelectors

open TagBody (Term Arguments)

variable {source : Text}

/-! ## Ascending positions -/

/-- `Ascending source lower upper starts`: positions of offsets that lie between characters and
grow from each to the next, from `lower` on and before `upper`. -/
inductive Ascending (source : Text) : Nat → Nat → List Position → Prop where
  | nil {lower upper : Nat} (bound : lower ≤ upper) : Ascending source lower upper []
  | cons {lower offset upper : Nat} {starts : List Position} (behind : lower ≤ offset)
      (boundary : source.isBoundary offset = true)
      (more : Ascending source (offset + 1) upper starts) :
      Ascending source lower upper ((LineIndex.ofText source).position offset :: starts)

namespace Ascending

variable {lower middle upper : Nat} {starts : List Position}

theorem mono {lower' upper' : Nat} (ascending : Ascending source lower upper starts)
    (below : lower' ≤ lower) (above : upper ≤ upper') :
    Ascending source lower' upper' starts := by
  induction ascending generalizing lower' with
  | nil bound => exact .nil (by omega)
  | cons behind boundary _ inductionHypothesis =>
      exact .cons (by omega) boundary (inductionHypothesis (Nat.le_refl _) above)

theorem append {others : List Position} (first : Ascending source lower middle starts)
    (second : Ascending source middle upper others) :
    Ascending source lower upper (starts ++ others) := by
  induction first with
  | nil bound => exact second.mono bound (Nat.le_refl _)
  | cons behind boundary _ inductionHypothesis =>
      exact .cons behind boundary (inductionHypothesis second)

theorem exists_offset (ascending : Ascending source lower upper starts) :
    ∀ start ∈ starts, ∃ offset, lower ≤ offset ∧ source.isBoundary offset = true ∧
      start = (LineIndex.ofText source).position offset := by
  induction ascending with
  | nil => simp
  | @cons lower offset upper starts behind boundary _ inductionHypothesis =>
      intro start member
      rcases List.mem_cons.mp member with rfl | later
      · exact ⟨offset, behind, boundary, rfl⟩
      · obtain ⟨other, beyond, fits, rfl⟩ := inductionHypothesis start later
        exact ⟨other, by omega, fits, rfl⟩

theorem atMost (ascending : Ascending source lower upper starts) :
    ∀ start ∈ starts, start.AtMost (source.size + 1) := by
  intro start member
  obtain ⟨offset, _, boundary, rfl⟩ := ascending.exists_offset start member
  obtain ⟨front, rest, whole, rfl⟩ := Text.isBoundary_iff.mp boundary
  exact LineIndex.position_atMost whole

theorem pairwise (ascending : Ascending source lower upper starts) :
    starts.Pairwise Position.Before := by
  induction ascending with
  | nil => exact .nil
  | cons behind boundary more inductionHypothesis =>
      refine .cons ?_ inductionHypothesis
      intro start member
      obtain ⟨other, beyond, fits, rfl⟩ := more.exists_offset start member
      exact LineIndex.before_position_of_lt boundary fits beyond

end Ascending

theorem ascending_start {front written rest : Text} (nonempty : written ≠ [])
    (whole : source = front ++ (written ++ rest)) :
    Ascending source front.size (front.size + written.size)
      [(LineIndex.ofText source).position front.size] := by
  have length := List.length_pos_iff.mpr nonempty
  have size := Text.length_le_size written
  refine .cons (Nat.le_refl _) ?_ (.nil (by omega))
  rw [whole]
  exact Text.isBoundary_append front _

/-! ## The paths and literals of a tag -/

def Node.start? : Node → Option Position
  | .text run => some run.loc.start
  | .comment c => some c.loc.start
  | .mustache m => some m.tag.loc.start
  | .modifier m => some m.tag.loc.start
  | .block b => some b.loc.start
  | .path p => some p.loc.start
  | .literal l => some l.loc.start
  | _ => none

def landmarkStarts (nodes : List Node) : List Position :=
  nodes.filterMap Node.start?

theorem landmarkStarts_append (front back : List Node) :
    landmarkStarts (front ++ back) = landmarkStarts front ++ landmarkStarts back :=
  List.filterMap_append

def leafStarts (parts : List Part) : List Position :=
  landmarkStarts (parts.filterMap Part.leaf?)

theorem leafStarts_append (front back : List Part) :
    leafStarts (front ++ back) = leafStarts front ++ leafStarts back := by
  rw [leafStarts, List.filterMap_append, landmarkStarts_append]
  rfl

theorem leafStarts_hash (hash : Hash) :
    leafStarts hash.parts = leafStarts (pairParts hash.pairs) := by
  obtain ⟨pairs, loc⟩ := hash
  rw [Hash.parts, leafStarts, List.filterMap_append, leaf?_ownParts, List.nil_append]
  rfl

def argumentStarts (params : List Param) (pairs : List HashPair) : List Position :=
  leafStarts (paramParts params) ++ leafStarts (pairParts pairs)

theorem argumentStarts_param (leading : Text) (value : Expression) (params : List Param)
    (pairs : List HashPair) :
    argumentStarts (⟨leading, value⟩ :: params) pairs =
      leafStarts value.parts ++ argumentStarts params pairs := by
  rw [argumentStarts, paramParts, Param.parts, leafStarts_append, List.append_assoc,
    argumentStarts]

theorem argumentStarts_pair (leading key separator : Text) (value : Expression) (loc : SourceSpan)
    (pairs : List HashPair) :
    argumentStarts [] (⟨leading, key, separator, value, loc⟩ :: pairs) =
      leafStarts value.parts ++ argumentStarts [] pairs := by
  rw [argumentStarts, pairParts, HashPair.parts, List.cons_append]
  exact leafStarts_append value.parts (pairParts pairs)

theorem leafStarts_call (call : SubExpression) :
    leafStarts (Expression.call call).parts =
      leafStarts call.callee.parts ++ argumentStarts call.params call.hash.pairs := by
  obtain ⟨leading, callee, params, hash, trailing, loc⟩ := call
  have self (parts : List Part) (call : SubExpression) :
      leafStarts (.expression (.call call) :: parts) = leafStarts parts := rfl
  rw [Expression.parts, SubExpression.parts, self, leafStarts_append, leafStarts_append,
    leafStarts_hash, List.append_assoc, argumentStarts]

theorem leafStarts_tag {tag : Tag} {hash : Hash} (given : tag.hash = some hash) :
    leafStarts tag.parts =
      leafStarts tag.callee.parts ++ argumentStarts tag.params hash.pairs := by
  have self (parts : List Part) : leafStarts (.tag tag :: parts) = leafStarts parts := rfl
  rw [Tag.parts, self, given, Option.map_some, Option.getD_some, leafStarts_append,
    leafStarts_append, leafStarts_hash, List.append_assoc, argumentStarts]

mutual

theorem Term.ascending_of_locate (term : Term) (rule : term.Grammatical) {start : Nat}
    {expression : Expression} (stands : source.StandsAt start term.text)
    (found : term.locate (.ofText source) start = .ok expression) :
    Ascending source start (start + term.size) (leafStarts expression.parts) := by
  have self : Ascending source start (start + term.size)
      [(LineIndex.ofText source).position start] := by
    obtain ⟨front, rest, whole, rfl⟩ := stands
    rw [← Term.size_text]
    exact ascending_start (Term.text_ne_nil rule) whole
  match term with
  | .path text =>
      rcases Term.locate_path found with ⟨_, _, rfl⟩ | ⟨_, rfl⟩
      · exact self
      · exact self
  | .quoted text =>
      cases Term.locate_quoted found
      exact self
  | .call leading callee args trailing =>
      obtain ⟨_, calleeRule, argsRule, _⟩ := rule
      obtain ⟨calleeStands, argsStand⟩ := Term.standsAt_call stands
      obtain ⟨_, _, _, _, _, located, arguments, -, -, rfl⟩ := Term.locate_call found
      have first := Term.ascending_of_locate callee calleeRule calleeStands located
      have second := Arguments.ascending_of_locate args argsRule argsStand arguments
      rw [leafStarts_call]
      apply (first.append second).mono
      · omega
      · simp only [Term.size]
        omega

theorem Arguments.ascending_of_locate (args : Arguments) (rule : args.Grammatical) {start : Nat}
    {afterPair : Bool} {params : List Param} {pairs : List HashPair}
    (stands : source.StandsAt start args.text)
    (found : args.locate (.ofText source) start afterPair = .ok (params, pairs)) :
    Ascending source start (start + args.size) (argumentStarts params pairs) := by
  match args with
  | .done =>
      cases found
      exact .nil (Nat.le_add_right _ _)
  | .positional leading value more =>
      obtain ⟨_, valueRule, moreRule⟩ := rule
      obtain ⟨valueStands, moreStands⟩ := Arguments.standsAt_positional stands
      obtain ⟨_, _, _, located, later, rfl⟩ := Arguments.locate_positional found
      have first := Term.ascending_of_locate value valueRule valueStands located
      have second := Arguments.ascending_of_locate more moreRule moreStands later
      rw [argumentStarts_param]
      apply (first.append second).mono
      · omega
      · simp only [Arguments.size]
        omega
  | .keyword leading key separator value more =>
      obtain ⟨_, _, _, valueRule, moreRule⟩ := rule
      obtain ⟨valueStands, moreStands⟩ := Arguments.standsAt_keyword stands
      obtain ⟨_, _, _, located, later, -, rfl⟩ := Arguments.locate_keyword found
      cases Arguments.params_eq_nil_of_locate later
      have first := Term.ascending_of_locate value valueRule valueStands located
      have second := Arguments.ascending_of_locate more moreRule moreStands later
      rw [argumentStarts_pair]
      apply (first.append second).mono
      · omega
      · simp only [Arguments.size]
        omega

end

/-- A tag that was read starts where it stands, before its paths and literals. -/
theorem Tag.ascending_of_read {front opener body closer rest : Text} {tag : Tag}
    (opened : opener ≠ []) (whole : source = front ++ (opener ++ body ++ closer ++ rest))
    (found : Tag.read (.ofText source) front.size opener body closer = .ok tag) :
    tag.loc.start = (LineIndex.ofText source).position front.size ∧
      Ascending source front.size (front.size + (opener ++ body ++ closer).size)
        (tag.loc.start :: landmarkStarts tag.leaves) := by
  obtain ⟨parts, _, _, _, _, inside, located, arguments, -, rfl⟩ := Tag.exists_of_read found
  obtain ⟨rfl, rule⟩ := TagBody.grammatical_of_read inside
  obtain ⟨calleeStands, argsStand⟩ := TagBody.standsAt_parts ⟨front, rest, whole, rfl⟩
  have first := Term.ascending_of_locate parts.callee rule.callee calleeStands located
  have second := Arguments.ascending_of_locate parts.args rule.args argsStand arguments
  have openerFront : source = front ++ (opener ++ (parts.text ++ closer ++ rest)) := by
    rw [whole]
    simp
  have starts := (ascending_start opened openerFront).append
    ((first.append second).mono (Nat.le_add_right _ _) (Nat.le_refl _))
  refine ⟨rfl, ?_⟩
  rw [Tag.leaves, ← leafStarts, leafStarts_tag rfl]
  apply starts.mono (Nat.le_refl _)
  simp only [TagBody.text, Text.size_append, Term.size_text, Arguments.size_text]
  omega

/-! ## Items in a row -/

namespace Item

/-- Where the landmarks of an item start.  A tag that opens a block, or divides it and opens
another, stands for the start of that block. -/
def starts (index : LineIndex) : Item → List Position
  | .statement s => landmarkStarts s.landmarks
  | .opening tag span | .chain tag span => index.position span.start :: landmarkStarts tag.leaves
  | .otherwise _ _ | .closing _ _ => []

theorem starts_ofMustache (index : LineIndex) (markup : Markup) (tag : Tag) :
    (ofMustache markup tag).starts index = tag.loc.start :: landmarkStarts tag.leaves := by
  unfold ofMustache
  split <;> rfl

theorem ascending_of_makes {markup markup' : Markup} {front behind rest : Text} {lexeme : Lexeme}
    {item : Item} (read : Lexeme.read behind = .ok (lexeme, rest))
    (whole : source = front ++ (lexeme.raw ++ rest))
    (made : Makes (.ofText source) markup front.size lexeme item markup') :
    Ascending source front.size (front.size + lexeme.raw.size)
      (item.starts (.ofText source)) := by
  have nonempty := Lexeme.raw_ne_nil_of_read read
  have reads := Lexeme.reads_of_read read
  cases made with
  | comment opener value closer => exact ascending_start nonempty whole
  | triple found =>
      obtain ⟨⟨more, rfl⟩, -⟩ := reads.delimiters
      exact (Tag.ascending_of_read (by simp) whole found).2
  | @opening opener inner closer body tag form found =>
      have raw : (Lexeme.tag false opener inner closer).raw =
          opener ++ ['#'] ++ body ++ closer := by
        rw [Lexeme.raw, TagForm.eq_of_opening form]
        simp
      rw [raw] at whole ⊢
      obtain ⟨start, ascending⟩ := Tag.ascending_of_read (by simp) whole found
      rw [start] at ascending
      exact ascending
  | closing opener closer form => exact .nil (Nat.le_add_right _ _)
  | otherwise opener closer form => exact .nil (Nat.le_add_right _ _)
  | @chain opener inner closer spaces body tag form found =>
      have raw : (Lexeme.tag false opener inner closer).raw =
          opener ++ spaces ++ elseWord ++ body ++ closer := by
        rw [Lexeme.raw, TagForm.eq_of_chain form]
        simp
      rw [raw] at whole ⊢
      obtain ⟨start, ascending⟩ := Tag.ascending_of_read (by simp [elseWord]) whole found
      rw [start] at ascending
      exact ascending
  | mustache form found =>
      obtain ⟨⟨more, rfl⟩, -⟩ := reads.delimiters
      rw [starts_ofMustache]
      exact (Tag.ascending_of_read (by simp) whole found).2

theorem ascending_ofText {front chars : Text} (rest : Text)
    (whole : source = front ++ (chars ++ rest)) :
    Ascending source front.size (front.size + chars.size)
      ((ofText (.ofText source) front.size chars).flatMap (starts (.ofText source))) := by
  cases chars with
  | nil => exact .nil (Nat.le_add_right _ _)
  | cons c chars => exact ascending_start (List.cons_ne_nil c chars) whole

theorem ascending_of_scans {markup : Markup} {start : Nat} {front text : Text} {items : List Item}
    (scans : Scans (.ofText source) markup start text items) (here : start = front.size)
    (whole : source = front ++ text) :
    Ascending source start source.size (items.flatMap (starts (.ofText source))) := by
  induction scans generalizing front with
  | @last markup start text chars run =>
      have split := textRun_append false false text
      rw [run, List.append_nil] at split
      subst here split
      have size : source.size = front.size + chars.size := by
        rw [whole, Text.size_append]
      rw [size]
      exact ascending_ofText [] (by simpa using whole)
  | @lexeme markup markup' start text chars behind rest lexeme item items run read made more
      inductionHypothesis =>
      have split := textRun_append false false text
      rw [run, Lexeme.append_eq_of_read read] at split
      subst here
      have inside : source = (front ++ chars) ++ (lexeme.raw ++ rest) := by
        rw [whole, ← split]
        simp
      have made' := ofLexeme_eq_ok_iff.mp made
      rw [← Text.size_append] at made' inductionHypothesis
      have before : Ascending source front.size (front ++ chars).size
          ((ofText (.ofText source) front.size chars).flatMap (starts (.ofText source))) := by
        rw [Text.size_append]
        exact ascending_ofText (lexeme.raw ++ rest) (by simpa using inside)
      have between := ascending_of_makes read inside made'
      have next : source = (front ++ chars ++ lexeme.raw) ++ rest := by
        rw [inside]
        simp
      have after := inductionHypothesis (Text.size_append _ _).symm next
      rw [List.flatMap_append, List.flatMap_cons]
      exact before.append (between.append after)

end Item

/-! ## Blocks -/

namespace Template

theorem landmarkStarts_block (tag : Tag) (program : List Statement) (inverse : Option Inverse)
    (close : Option CloseTag) (loc : SourceSpan) :
    landmarkStarts (Block.landmarks ⟨tag, program, inverse, close, loc⟩) =
      loc.start :: landmarkStarts tag.leaves ++ landmarkStarts (statementLandmarks program) ++
        landmarkStarts (inverseLandmarks inverse) := by
  rw [Block.landmarks, ← List.cons_append, ← List.cons_append, landmarkStarts_append,
    landmarkStarts_append]
  rfl

/-- To build blocks from items moves no landmark. -/
theorem starts_of_derives {index : LineIndex} {items : List Item} {statements : List Statement}
    {stop : Break} (derived : Derives index items statements stop) :
    items.flatMap (Item.starts index) =
      landmarkStarts (statementLandmarks statements) ++
        stop.items.flatMap (Item.starts index) := by
  induction derived using Derives.induction
    (Q := fun items program inverse _ _ rest => items.flatMap (Item.starts index) =
      landmarkStarts (statementLandmarks program) ++ landmarkStarts (inverseLandmarks inverse) ++
        rest.flatMap (Item.starts index)) with
  | finish => rfl
  | closing tag span rest => rfl
  | otherwise tag span rest => rfl
  | chain tag span rest => rfl
  | statement statement rest statements stop more =>
      rw [List.flatMap_cons, more, statementLandmarks, landmarkStarts_append, List.append_assoc]
      rfl
  | block tag span items rest program statements inverse close closeSpan stop inner named more =>
      rw [List.flatMap_cons, inner, more, statementLandmarks, landmarkStarts_append,
        Statement.landmarks, landmarkStarts_block]
      simp only [Item.starts, LineIndex.sourceSpan, List.append_assoc]
  | plainSection items rest program close closeSpan body =>
      rw [body, inverseLandmarks]
      simp [landmarkStarts, Break.items, Item.starts]
  | elseSection items behind rest program second elseTag elseSpan closeSpan close body half =>
      rw [body, inverseLandmarks, Inverse.landmarks, Break.items, List.flatMap_cons, half,
        Break.items, List.flatMap_cons]
      simp only [Item.starts, List.nil_append, List.append_assoc]
  | chainSection items behind rest program second inverse chainTag chainSpan closeSpan close body
      inner =>
      rw [body, inverseLandmarks, Inverse.landmarks, landmarkStarts_block, Break.items,
        List.flatMap_cons, inner]
      simp only [Item.starts, LineIndex.sourceSpan, List.append_assoc]

theorem ascending_landmarkStarts {template : Template} (parsed : parse source = .ok template) :
    Ascending source 0 source.size (landmarkStarts template.landmarks) := by
  obtain ⟨items, scans, derived⟩ := items_of_parse parsed
  have here : 0 = Text.size [] := rfl
  have ascending := Item.ascending_of_scans scans here rfl
  rwa [starts_of_derives derived, Break.items, List.flatMap_nil, List.append_nil] at ascending

end Template

theorem Node.start?_of_statement? {node : Node} {statement : Statement}
    (told : node.statement? = some statement) : node.start? = some statement.loc.start := by
  cases node <;> cases told <;> rfl

theorem Node.start?_of_atom? {node : Node} {atom : Expression} (told : node.atom? = some atom) :
    node.start? = some atom.loc.start := by
  cases node <;> cases told <;> rfl

/-- What is told of landmarks, with places where they start, is told in the order of the starts. -/
theorem pairwise_told {α : Type} {told : Node → Option α} {loc : α → SourceSpan}
    (starts : ∀ node value, told node = some value → node.start? = some (loc value).start)
    {nodes : List Node} (ordered : (landmarkStarts nodes).Pairwise Position.Before) :
    (nodes.filterMap told).Pairwise fun first second =>
      (loc first).start.compare (loc second).start = .lt := by
  rw [landmarkStarts, List.pairwise_filterMap] at ordered
  rw [List.pairwise_filterMap]
  refine ordered.imp ?_
  intro node other before first firstTold second secondTold
  rw [Position.compare_eq_lt_iff]
  exact before _ (starts node first firstTold) _ (starts other second secondTold)

namespace Template

/-- A walk that is not held back comes to its end.  It visits each statement of a template that
was read once, chained blocks included, and each path and each literal once; each statement starts
behind the one visited before it, and so does each path or literal. -/
theorem visits_in_document_order {source : Text} {template : Template}
    (parsed : parse source = .ok template) :
    (template.recorded alwaysProceed).isOk = true ∧
      template.visited.filterMap Node.statement? = template.everyStatement ∧
      (template.visited.filterMap Node.statement?).Pairwise (fun first second =>
        first.loc.start.compare second.loc.start = .lt) ∧
      template.visited.filterMap Node.atom? = template.everyAtom ∧
      (template.visited.filterMap Node.atom?).Pairwise (fun first second =>
        first.loc.start.compare second.loc.start = .lt) := by
  have ordered := (ascending_landmarkStarts parsed).pairwise
  refine ⟨?_, template.statement?_visited, ?_, template.atom?_visited, ?_⟩
  · rw [recorded_alwaysProceed]
    rfl
  · rw [statement?_visited]
    exact pairwise_told (fun _ _ => Node.start?_of_statement?) ordered
  · rw [atom?_visited]
    exact pairwise_told (fun _ _ => Node.start?_of_atom?) ordered

/-- A modifier, a comment, and a block with a call, a chained block and literals over two lines. -/
def scatteredVisits : Text :=
  ("<p \x7b\x7bon \"x\" a=1\x7d\x7d>\x7b\x7b!c\x7d\x7d\x7b\x7b#if (f x k='v')\x7d\x7d" ++
    "\x7b\x7by\x7d\x7d\n\x7b\x7belse if z\x7d\x7d\x7b\x7bnull\x7d\x7d\x7b\x7b/if\x7d\x7d").toList

theorem visits_in_document_order_scatteredVisits :
    ∃ template, parse scatteredVisits = .ok template ∧ template.everyStatement.length = 9 ∧
      template.everyAtom.length = 11 ∧
      (template.recorded alwaysProceed).isOk = true ∧
      template.visited.filterMap Node.statement? = template.everyStatement ∧
      (template.visited.filterMap Node.statement?).Pairwise (fun first second =>
        first.loc.start.compare second.loc.start = .lt) ∧
      template.visited.filterMap Node.atom? = template.everyAtom ∧
      (template.visited.filterMap Node.atom?).Pairwise (fun first second =>
        first.loc.start.compare second.loc.start = .lt) := by
  have counts : ((parse scatteredVisits).toOption.map fun template =>
      (template.everyStatement.length, template.everyAtom.length)) = some (9, 11) := by
    cbv
  obtain ⟨template, parsed, lengths⟩ := exists_parse_of_map counts
  obtain ⟨statements, atoms⟩ := Prod.mk.inj lengths
  exact ⟨template, parsed, statements, atoms, visits_in_document_order parsed⟩

/-- The numbers by which visits are put in order are bounded by the size of the source.  So as long
as this size is below `Position.lastColumn`, the order is that of numbers kept in 32 bits. -/
theorem visits_atMost_of_parse {source : Text} {template : Template}
    (parsed : parse source = .ok template) :
    (∀ statement ∈ template.visited.filterMap Node.statement?,
      statement.loc.start.AtMost (source.size + 1)) ∧
    ∀ atom ∈ template.visited.filterMap Node.atom?, atom.loc.start.AtMost (source.size + 1) := by
  have bounded := (ascending_landmarkStarts parsed).atMost
  rw [statement?_visited, atom?_visited]
  constructor
  · intro statement member
    obtain ⟨node, landmark, told⟩ := List.mem_filterMap.mp member
    exact bounded _ (List.mem_filterMap.mpr ⟨node, landmark, Node.start?_of_statement? told⟩)
  · intro atom member
    obtain ⟨node, landmark, told⟩ := List.mem_filterMap.mp member
    exact bounded _ (List.mem_filterMap.mpr ⟨node, landmark, Node.start?_of_atom? told⟩)

end Template

end TemplateSelectors
