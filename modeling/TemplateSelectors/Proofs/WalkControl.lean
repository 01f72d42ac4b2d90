import Mathlib.Logic.Function.Basic
import TemplateSelectors.Proofs.WalkEvents

/-!
# How answers control a walk

A visitor may answer each visit at each place of a template as it likes.  As long as it never says
stop, every visit has its leave, with all that happens inside the node in between.  To say stop at
one of these visits ends the record there; to say skip takes out what lies between the visit and
its leave, and nothing else.
-/

set_option autoImplicit false

namespace TemplateSelectors

section

variable {verdict : Address → Node → Verdict}

/-! ## Another answer at one address -/

/-- The same answers, but for one address. -/
def changedAt (verdict : Address → Node → Verdict) (place : Address) (answer : Verdict) :
    Address → Node → Verdict :=
  Function.update verdict place fun _ => answer

theorem changedAt_self (place : Address) (answer : Verdict) (node : Node) :
    changedAt verdict place answer place node = answer := by
  rw [changedAt, Function.update_self]

theorem changedAt_of_ne {place address : Address} (answer : Verdict) (elsewhere : address ≠ place) :
    changedAt verdict place answer address = verdict address :=
  Function.update_of_ne elsewhere _ _

mutual

/-- An answer matters only to the outline in which its node stands. -/
theorem Outline.events_changedAt (outline : Outline) {address place : Address} (answer : Verdict)
    (elsewhere : ¬address <:+ place) :
    outline.events (changedAt verdict place answer) address = outline.events verdict address := by
  obtain ⟨root, inside⟩ := outline
  have here : address ≠ place := fun same => elsewhere (same ▸ List.suffix_rfl)
  have deeper : ∀ number, 0 ≤ number → ¬number :: address <:+ place :=
    fun number _ below => elsewhere ((List.suffix_cons number address).trans below)
  rw [Outline.events, Outline.events, changedAt_of_ne answer here,
    insideEvents_changedAt inside answer deeper]

theorem insideEvents_changedAt (outlines : List Outline) {outer place : Address} {start : Nat}
    (answer : Verdict) (elsewhere : ∀ number, start ≤ number → ¬number :: outer <:+ place) :
    insideEvents (changedAt verdict place answer) outer start outlines =
      insideEvents verdict outer start outlines := by
  cases outlines with
  | nil => rw [insideEvents, insideEvents]
  | cons outline outlines =>
      have later : ∀ number, start + 1 ≤ number → ¬number :: outer <:+ place :=
        fun number behind => elsewhere number (by omega)
      rw [insideEvents, insideEvents,
        outline.events_changedAt answer (elsewhere start (Nat.le_refl start)),
        insideEvents_changedAt outlines answer later]

end

/-- Among `events`, the visit to a node and its leave with what is recorded in between, which is
all that is recorded inside the node. -/
structure Encloses (events : List WalkEvent) (place : Address) (node : Node)
    (before inner after : List WalkEvent) : Prop where
  split : events = before ++ .visit place node :: (inner ++ .leave place node :: after)
  inside : ∀ event ∈ inner, place <:+ event.address ∧ event.address ≠ place
  outside : ∀ event ∈ before ++ after, ¬place <:+ event.address

section

variable {events before inner after : List WalkEvent} {place : Address} {node : Node}

theorem Encloses.append_right (encloses : Encloses events place node before inner after)
    {back : List WalkEvent} (apart : ∀ event ∈ back, ¬place <:+ event.address) :
    Encloses (events ++ back) place node before inner (after ++ back) where
  split := by
    rw [encloses.split]
    simp
  inside := encloses.inside
  outside event member := by
    rw [← List.append_assoc, List.mem_append] at member
    rcases member with near | far
    · exact encloses.outside event near
    · exact apart event far

theorem Encloses.append_left (encloses : Encloses events place node before inner after)
    {front : List WalkEvent} (apart : ∀ event ∈ front, ¬place <:+ event.address) :
    Encloses (front ++ events) place node (front ++ before) inner after where
  split := by
    rw [encloses.split]
    simp
  inside := encloses.inside
  outside event member := by
    rw [List.append_assoc, List.mem_append] at member
    rcases member with far | near
    · exact apart event far
    · exact encloses.outside event near

mutual

/-- A visit that is recorded is enclosed with its leave, and an answer other than to proceed takes
out what is in between. -/
theorem Outline.exists_encloses (outline : Outline) (address : Address)
    (visited : .visit place node ∈ outline.events verdict address) :
    ∃ before inner after, Encloses (outline.events verdict address) place node before inner after ∧
      ∀ answer, answer ≠ .proceed → outline.events (changedAt verdict place answer) address =
        before ++ .visit place node :: .leave place node :: after := by
  obtain ⟨root, inside⟩ := outline
  by_cases here : place = address
  · -- the visit to the root itself, which encloses everything
    subst here
    have same : node = root := by
      rw [Outline.events, List.mem_cons, List.mem_append] at visited
      rcases visited with first | inner | last
      · cases first
        rfl
      · split at inner
        · exact absurd List.suffix_rfl (not_suffix_of_mem_insideEvents inner)
        · cases inner
      · simp at last
    subst same
    refine ⟨[], _, [], ⟨by rw [Outline.events, List.nil_append], ?_, by simp⟩, ?_⟩
    · intro event member
      split at member
      · obtain ⟨number, -, below⟩ := suffix_of_mem_insideEvents inside place 0 member
        refine ⟨(List.suffix_cons number place).trans below, ?_⟩
        intro same
        exact not_suffix_of_mem_insideEvents member (same ▸ List.suffix_rfl)
      · cases member
    · intro answer other
      rw [Outline.events, changedAt_self, if_neg other]
      rfl
  · -- a visit to a node inside, around which the root has its visit and its leave
    have below : address <:+ place := Outline.suffix_of_mem_events _ address visited
    have apart : ¬place <:+ address := fun above =>
      here (above.eq_of_length (Nat.le_antisymm above.length_le below.length_le))
    rw [Outline.events, List.mem_cons, List.mem_append] at visited
    rcases visited with first | inner | last
    · cases first
      exact absurd rfl here
    · split at inner
      · next proceeds =>
          obtain ⟨before, inner, after, encloses, passed⟩ :=
            exists_encloses_inside inside address 0 inner
          refine ⟨.visit address root :: before, inner, after ++ [.leave address root], ?_, ?_⟩
          · have first : ∀ event ∈ [WalkEvent.visit address root], ¬place <:+ event.address := by
              simpa [WalkEvent.address] using apart
            have last : ∀ event ∈ [WalkEvent.leave address root], ¬place <:+ event.address := by
              simpa [WalkEvent.address] using apart
            rw [Outline.events, if_pos proceeds]
            exact (encloses.append_right last).append_left first
          · intro answer other
            rw [Outline.events, changedAt_of_ne answer (Ne.symm here), if_pos proceeds,
              passed answer other]
            simp
      · cases inner
    · simp at last

theorem exists_encloses_inside (outlines : List Outline) (outer : Address) (start : Nat)
    (visited : .visit place node ∈ insideEvents verdict outer start outlines) :
    ∃ before inner after,
      Encloses (insideEvents verdict outer start outlines) place node before inner after ∧
      ∀ answer, answer ≠ .proceed →
        insideEvents (changedAt verdict place answer) outer start outlines =
          before ++ .visit place node :: .leave place node :: after := by
  cases outlines with
  | nil => cases visited
  | cons outline outlines =>
      rw [insideEvents, List.mem_append] at visited
      rcases visited with first | later
      · -- siblings have other numbers, so none of their events is inside the node
        have mine : start :: outer <:+ place := outline.suffix_of_mem_events _ first
        have elsewhere : ∀ number, start + 1 ≤ number → ¬number :: outer <:+ place := by
          intro number behind below
          have := sibling_eq_of_suffix mine below
          omega
        obtain ⟨before, inner, after, encloses, passed⟩ :=
          outline.exists_encloses (start :: outer) first
        refine ⟨before, inner, after ++ insideEvents verdict outer (start + 1) outlines, ?_, ?_⟩
        · rw [insideEvents]
          apply encloses.append_right
          intro event member above
          obtain ⟨number, behind, below⟩ := suffix_of_mem_insideEvents outlines outer _ member
          have := sibling_eq_of_suffix (mine.trans above) below
          omega
        · intro answer other
          rw [insideEvents, passed answer other, insideEvents_changedAt outlines answer elsewhere]
          simp
      · obtain ⟨number, behind, mine⟩ := suffix_of_mem_insideEvents outlines outer _ later
        have elsewhere : ¬start :: outer <:+ place := by
          intro below
          have := sibling_eq_of_suffix mine below
          omega
        obtain ⟨before, inner, after, encloses, passed⟩ :=
          exists_encloses_inside outlines outer (start + 1) later
        refine ⟨outline.events verdict (start :: outer) ++ before, inner, after, ?_, ?_⟩
        · rw [insideEvents]
          apply encloses.append_left
          intro event member above
          have below := outline.suffix_of_mem_events _ member
          have := sibling_eq_of_suffix (mine.trans above) below
          omega
        · intro answer other
          rw [insideEvents, passed answer other, outline.events_changedAt answer elsewhere]
          simp

end

end

/-! ## Nesting -/

/-- Every visit is closed by its own leave, and what is visited in between is closed before. -/
inductive Nested : List WalkEvent → Prop where
  | nil : Nested []
  | around {place : Address} {node : Node} {inner rest : List WalkEvent} :
      Nested inner → Nested rest →
        Nested (.visit place node :: (inner ++ .leave place node :: rest))

theorem Nested.append {front back : List WalkEvent} (first : Nested front) (second : Nested back) :
    Nested (front ++ back) := by
  induction first with
  | nil => exact second
  | around inner _ _ more =>
      rw [List.cons_append, List.append_assoc, List.cons_append]
      exact .around inner more

mutual

theorem Outline.nested_events (outline : Outline) (address : Address) :
    Nested (outline.events verdict address) := by
  obtain ⟨root, inside⟩ := outline
  rw [Outline.events]
  apply Nested.around _ Nested.nil
  split
  · exact nested_insideEvents inside address 0
  · exact .nil

theorem nested_insideEvents (outlines : List Outline) (outer : Address) (start : Nat) :
    Nested (insideEvents verdict outer start outlines) := by
  cases outlines with
  | nil =>
      rw [insideEvents]
      exact .nil
  | cons outline outlines =>
      rw [insideEvents]
      exact (outline.nested_events (start :: outer)).append
        (nested_insideEvents outlines outer (start + 1))

end

/-! ## Which nodes are met -/

/-- A walk meets the root, and what is inside a node that it meets if the answer there is to
proceed. -/
inductive Outline.Meets (verdict : Address → Node → Verdict) (whole : Outline) :
    Address → Outline → Prop where
  | root : Outline.Meets verdict whole [] whole
  | inside {address : Address} {outline child : Outline} {number : Nat} :
      Outline.Meets verdict whole address outline → verdict address outline.root = .proceed →
        outline.inside[number]? = some child →
          Outline.Meets verdict whole (number :: address) child

section

variable {whole : Outline}

mutual

theorem Outline.meets_of_mem_events {event : WalkEvent} (outline : Outline) {address : Address}
    (met : whole.Meets verdict address outline)
    (member : event ∈ outline.events verdict address) :
    ∃ found, whole.Meets verdict event.address found ∧ found.root = event.node := by
  obtain ⟨root, inside⟩ := outline
  rw [Outline.events, List.mem_cons, List.mem_append, List.mem_singleton] at member
  rcases member with rfl | inner | rfl
  · exact ⟨_, met, rfl⟩
  · split at inner
    · next proceeds =>
        refine meets_of_mem_insideEvents inside (fun number child there => ?_) inner
        rw [Nat.zero_add]
        exact .inside met proceeds there
    · cases inner
  · exact ⟨_, met, rfl⟩

theorem meets_of_mem_insideEvents {event : WalkEvent} (outlines : List Outline) {outer : Address}
    {start : Nat}
    (met : ∀ number child, outlines[number]? = some child →
      whole.Meets verdict ((start + number) :: outer) child)
    (member : event ∈ insideEvents verdict outer start outlines) :
    ∃ found, whole.Meets verdict event.address found ∧ found.root = event.node := by
  cases outlines with
  | nil => cases member
  | cons outline outlines =>
      rw [insideEvents, List.mem_append] at member
      rcases member with first | later
      · exact outline.meets_of_mem_events (met 0 outline rfl) first
      · refine meets_of_mem_insideEvents outlines (fun number child there => ?_) later
        rw [Nat.add_right_comm]
        exact met (number + 1) child there

end

theorem events_isInfix_insideEvents {outlines : List Outline} {child : Outline} {number : Nat}
    (there : outlines[number]? = some child) (outer : Address) (start : Nat) :
    child.events verdict ((start + number) :: outer) <:+:
      insideEvents verdict outer start outlines := by
  induction outlines generalizing start number with
  | nil => cases there
  | cons outline outlines inductionHypothesis =>
      rw [insideEvents]
      cases number with
      | zero =>
          cases there
          exact (List.prefix_append _ _).isInfix
      | succ number =>
          have later := inductionHypothesis there (start + 1)
          rw [Nat.add_right_comm] at later
          exact later.trans (List.suffix_append _ _).isInfix

/-- What is recorded inside a node that is met is recorded in one piece. -/
theorem Outline.Meets.events_isInfix {address : Address} {outline : Outline}
    (met : whole.Meets verdict address outline) :
    outline.events verdict address <:+: whole.events verdict [] := by
  induction met with
  | root => exact List.infix_rfl
  | @inside address outline child number _ proceeds there inductionHypothesis =>
      obtain ⟨root, inside⟩ := outline
      refine List.IsInfix.trans ?_ inductionHypothesis
      have among : child.events verdict ((0 + number) :: address) <:+:
          insideEvents verdict address 0 inside := events_isInfix_insideEvents there address 0
      have answer : verdict address root = .proceed := proceeds
      rw [Nat.zero_add] at among
      rw [Outline.events, if_pos answer]
      exact among.trans ⟨[.visit address root], [.leave address root], rfl⟩

theorem Outline.mem_events_iff {place : Address} {node : Node} :
    .visit place node ∈ whole.events verdict [] ↔
      ∃ outline, whole.Meets verdict place outline ∧ outline.root = node := by
  constructor
  · intro member
    exact Outline.meets_of_mem_events whole Meets.root member
  · rintro ⟨⟨root, inside⟩, met, rfl⟩
    refine met.events_isInfix.subset ?_
    rw [Outline.events]
    exact List.mem_cons_self

end

/-! ## Whole templates -/

theorem stops_changedAt {event : WalkEvent} {place : Address} (answer : Verdict)
    (elsewhere : ¬place <:+ event.address) :
    event.stops (changedAt verdict place answer) = event.stops verdict := by
  cases event with
  | visit address node =>
      have apart : address ≠ place := fun same => elsewhere (same ▸ List.suffix_rfl)
      rw [WalkEvent.stops, WalkEvent.stops, changedAt_of_ne answer apart]
  | leave address node => rfl

section

variable {events before inner after : List WalkEvent} {place : Address} {node : Node}

/-- Where nothing was answered by stop, another answer at one address is not met elsewhere. -/
theorem Encloses.calm_outside (encloses : Encloses events place node before inner after)
    (calm : upToStop verdict events = none) (answer : Verdict) :
    ∀ event ∈ before ++ after, event.stops (changedAt verdict place answer) = false := by
  intro event member
  rw [stops_changedAt answer (encloses.outside event member)]
  apply upToStop_eq_none_iff.mp calm
  rw [encloses.split]
  rcases List.mem_append.mp member with front | back
  · simp [front]
  · simp [back]

theorem Encloses.upToStop_stopped (encloses : Encloses events place node before inner after)
    (calm : upToStop verdict events = none) (rest : List WalkEvent) :
    upToStop (changedAt verdict place .stop) (before ++ .visit place node :: rest) =
      some (before ++ [.visit place node]) := by
  have first : upToStop (changedAt verdict place .stop) before = none := by
    rw [upToStop_eq_none_iff]
    intro event member
    exact encloses.calm_outside calm .stop event (List.mem_append_left _ member)
  rw [upToStop_append, first, upToStop, WalkEvent.stops, changedAt_self]
  rfl

theorem Encloses.upToStop_skipped (encloses : Encloses events place node before inner after)
    (calm : upToStop verdict events = none) :
    upToStop (changedAt verdict place .skip)
      (before ++ .visit place node :: .leave place node :: after) = none := by
  rw [upToStop_eq_none_iff]
  intro event member
  rw [List.mem_append, List.mem_cons, List.mem_cons] at member
  rcases member with front | rfl | rfl | back
  · exact encloses.calm_outside calm .skip event (List.mem_append_left _ front)
  · rw [WalkEvent.stops, changedAt_self]
    rfl
  · rfl
  · exact encloses.calm_outside calm .skip event (List.mem_append_right _ back)

end

namespace Template

variable {template : Template}

theorem records_recorded (verdict : Address → Node → Verdict) (template : Template) :
    Walk.Records verdict (template.walk (.recorder verdict)) [] []
      (template.outline.events verdict []) := by
  rw [← Template.walk_outline]
  exact template.outline.records_walk []

theorem recorded_of_calm (calm : upToStop verdict (template.outline.events verdict []) = none) :
    template.recorded verdict = .ok ⟨[], template.outline.events verdict []⟩ :=
  (records_recorded verdict template).whole calm []

theorem recorded_of_cut {seen : List WalkEvent}
    (cut : upToStop verdict (template.outline.events verdict []) = some seen) :
    ∃ next, template.recorded verdict = .error ⟨next, seen⟩ :=
  (records_recorded verdict template).cut seen cut []

theorem upToStop_of_calm
    (calm : ∀ place node, .visit place node ∈ template.trace verdict →
      verdict place node ≠ .stop) :
    upToStop verdict (template.outline.events verdict []) = none := by
  cases cut : upToStop verdict (template.outline.events verdict []) with
  | none => rfl
  | some seen =>
      obtain ⟨next, recorded⟩ := recorded_of_cut cut
      obtain ⟨place, node, member, stop⟩ := exists_stop_of_upToStop cut
      refine absurd stop (calm place node ?_)
      rw [trace, recorded]
      exact member

/-- A walk in which no visit is answered by stop comes to its end, closes every visit by its own
leave behind all that is recorded inside the node, and visits the nodes to which the answers let it
through.  With stop for an answer it ends at that visit; with skip it leaves out what lay between
the visit and its leave. -/
theorem walk_obeys (verdict : Address → Node → Verdict) (template : Template)
    (calm : ∀ place node, .visit place node ∈ template.trace verdict →
      verdict place node ≠ .stop) :
    (template.recorded verdict).isOk = true ∧ Nested (template.trace verdict) ∧
      (∀ place node, .visit place node ∈ template.trace verdict ↔
        ∃ outline, template.outline.Meets verdict place outline ∧ outline.root = node) ∧
      ∀ place node, .visit place node ∈ template.trace verdict →
        ∃ before inner after, Encloses (template.trace verdict) place node before inner after ∧
          ((template.recorded (changedAt verdict place .stop)).isOk = false ∧
            template.trace (changedAt verdict place .stop) = before ++ [.visit place node]) ∧
          (verdict place node = .proceed →
            (template.recorded (changedAt verdict place .skip)).isOk = true ∧
              template.trace (changedAt verdict place .skip) =
                before ++ .visit place node :: .leave place node :: after) := by
  have quiet := upToStop_of_calm calm
  have recorded := recorded_of_calm quiet
  have events : template.trace verdict = template.outline.events verdict [] := by
    rw [trace, recorded]
    rfl
  rw [recorded, events]
  refine ⟨rfl, template.outline.nested_events [], fun _ _ => Outline.mem_events_iff, ?_⟩
  intro place node visited
  obtain ⟨before, inner, after, encloses, passed⟩ := template.outline.exists_encloses [] visited
  refine ⟨before, inner, after, encloses, ?_, ?_⟩
  · have cut := encloses.upToStop_stopped quiet (.leave place node :: after)
    rw [← passed .stop (by decide)] at cut
    obtain ⟨next, stopped⟩ := recorded_of_cut cut
    rw [trace, stopped]
    exact ⟨rfl, rfl⟩
  · intro _
    have whole := encloses.upToStop_skipped quiet
    rw [← passed .skip (by decide)] at whole
    rw [trace, recorded_of_calm whole]
    exact ⟨rfl, passed .skip (by decide)⟩

/-- A block with a call and a keyword argument, and a mustache in the chain behind it. -/
def chainWithCall : Template :=
  let path (name : String) : Expression := .path (.ofText name.toList)
  let call : Expression := .call ⟨[], path "f", [.ofValue (path "a")], .empty, [], .nowhere⟩
  let tag (params : List Param) : Tag :=
    { Tag.ofCallee [] (path "if") [] with params := params }
  { body := [.block {
      opening := { tag [.ofValue call] with hash := some ⟨[.ofValue ['k'] (path "v")], .nowhere⟩ }
      program := [.text ⟨['x'], .nowhere⟩]
      inverse := some (.chained {
        opening := tag []
        program := [.mustache ⟨tag [], false⟩]
        inverse := none
        close := none
        loc := .nowhere })
      close := none
      loc := .nowhere }]
    loc := .nowhere }

/-- Passes by the call. -/
def skipsCall (place : Address) (_ : Node) : Verdict :=
  if place = [1, 0, 0] then .skip else .proceed

theorem walk_obeys_chainWithCall :
    (∀ place node, .visit place node ∈ chainWithCall.trace skipsCall →
      skipsCall place node ≠ .stop) ∧
    ∃ node before inner after, .visit [4, 0, 0] node ∈ chainWithCall.trace skipsCall ∧
      Encloses (chainWithCall.trace skipsCall) [4, 0, 0] node before inner after ∧
      chainWithCall.trace (changedAt skipsCall [4, 0, 0] .stop) =
        before ++ [.visit [4, 0, 0] node] ∧
      chainWithCall.trace (changedAt skipsCall [4, 0, 0] .skip) =
        before ++ .visit [4, 0, 0] node :: .leave [4, 0, 0] node :: after ∧
      (chainWithCall.trace skipsCall).length = 44 ∧ before.length = 21 := by
  have calm : ∀ place node, .visit place node ∈ chainWithCall.trace skipsCall →
      skipsCall place node ≠ .stop := by
    intro place node _
    rw [skipsCall]
    split <;> decide
  obtain ⟨-, -, visits, encloses⟩ := walk_obeys skipsCall chainWithCall calm
  -- down to the second half of the block
  have visited := (visits [4, 0, 0] _).mpr
    ⟨_, .inside (.inside (.inside .root rfl rfl) rfl rfl) rfl rfl, rfl⟩
  obtain ⟨before, inner, after, split, ⟨-, stopped⟩, skipped⟩ := encloses _ _ visited
  refine ⟨calm, _, before, inner, after, visited, split, stopped, (skipped rfl).2, ?_, ?_⟩
  · decide +kernel
  · have count : (chainWithCall.trace (changedAt skipsCall [4, 0, 0] .stop)).length = 22 := by
      decide +kernel
    rw [stopped, List.length_append, List.length_singleton] at count
    omega

end Template

end

end TemplateSelectors
