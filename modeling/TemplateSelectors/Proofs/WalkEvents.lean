import Mathlib.Data.List.Infix
import TemplateSelectors.Proofs.Outline

/-!
# What a walk records

The answers to the visits fix what a walk records.  As long as none of them is stop, that can be
read off the outline, node by node; and a stop cuts the record short at the first visit that has it
for an answer.
-/

set_option autoImplicit false

namespace TemplateSelectors

/-! ## The events of an outline -/

section

variable (verdict : Address → Node → Verdict)

mutual

/-- The events of a walk in which a stop is taken for a skip. -/
def Outline.events (address : Address) : Outline → List WalkEvent
  | .node root inside =>
      .visit address root ::
        ((if verdict address root = .proceed then insideEvents address 0 inside else []) ++
          [.leave address root])

/-- The events of nodes that stand inside another one, from `number` on. -/
def insideEvents (outer : Address) (number : Nat) : List Outline → List WalkEvent
  | [] => []
  | outline :: outlines =>
      outline.events (number :: outer) ++ insideEvents outer (number + 1) outlines

end

def WalkEvent.stops : WalkEvent → Bool
  | .visit address node => verdict address node == .stop
  | .leave _ _ => false

/-- The events up to the first visit that is answered by stop, if there is one. -/
def upToStop : List WalkEvent → Option (List WalkEvent)
  | [] => none
  | event :: events =>
      if event.stops verdict then some [event] else (upToStop events).map (event :: ·)

end

section

variable {verdict : Address → Node → Verdict}

theorem upToStop_eq_none_iff {events : List WalkEvent} :
    upToStop verdict events = none ↔ ∀ event ∈ events, event.stops verdict = false := by
  induction events with
  | nil => simp [upToStop]
  | cons event events inductionHypothesis =>
      rw [upToStop, List.forall_mem_cons, ← inductionHypothesis]
      cases event.stops verdict <;> simp

theorem upToStop_append (front back : List WalkEvent) :
    upToStop verdict (front ++ back) =
      (upToStop verdict front).or ((upToStop verdict back).map (front ++ ·)) := by
  induction front with
  | nil => simp [upToStop]
  | cons event front inductionHypothesis =>
      rw [List.cons_append, upToStop, upToStop, inductionHypothesis]
      cases event.stops verdict with
      | true => rfl
      | false =>
          cases upToStop verdict front with
          | none => simp [Function.comp_def]
          | some seen => rfl

theorem exists_stop_of_upToStop {events seen : List WalkEvent}
    (cut : upToStop verdict events = some seen) :
    ∃ address node, .visit address node ∈ seen ∧ verdict address node = .stop := by
  induction events generalizing seen with
  | nil => cases cut
  | cons event events inductionHypothesis =>
      rw [upToStop] at cut
      split at cut
      · next stops =>
          cases cut
          cases event with
          | visit address node =>
              have answer : verdict address node = .stop := by
                simpa [WalkEvent.stops] using stops
              exact ⟨address, node, List.mem_singleton_self _, answer⟩
          | leave address node => cases stops
      · obtain ⟨later, found, rfl⟩ := Option.map_eq_some_iff.mp cut
        obtain ⟨address, node, member, stop⟩ := inductionHypothesis found
        exact ⟨address, node, List.mem_cons_of_mem _ member, stop⟩

/-! ## What a walk records -/

/-- From `before` to `after` a walk records `events`, or as many of them as there are up to a
stop. -/
structure Walk.Records (verdict : Address → Node → Verdict) (walk : Walk Recording)
    (before after : Address) (events : List WalkEvent) : Prop where
  whole : upToStop verdict events = none →
    ∀ past, walk ⟨before, past⟩ = .ok ⟨after, past ++ events⟩
  cut : ∀ seen, upToStop verdict events = some seen →
    ∀ past, ∃ next, walk ⟨before, past⟩ = .error ⟨next, past ++ seen⟩

namespace Walk

theorem records_done (address : Address) : Records verdict done address address [] where
  whole _ past := by
    rw [List.append_nil]
    rfl
  cut _ impossible := by cases impossible

theorem Records.andThen {first second : Walk Recording} {before between after : Address}
    {front back : List WalkEvent} (one : Records verdict first before between front)
    (two : Records verdict second between after back) :
    Records verdict (Walk.andThen first second) before after (front ++ back) where
  whole calm past := by
    rw [upToStop_append, Option.or_eq_none_iff, Option.map_eq_none_iff] at calm
    rw [Walk.andThen, one.whole calm.1]
    simp only [two.whole calm.2, List.append_assoc]
  cut seen found past := by
    rw [upToStop_append] at found
    cases early : upToStop verdict front with
    | some cut =>
        rw [early] at found
        cases found
        obtain ⟨next, stopped⟩ := one.cut _ early past
        exact ⟨next, by rw [Walk.andThen, stopped]⟩
    | none =>
        rw [early, Option.none_or] at found
        obtain ⟨late, stop, rfl⟩ := Option.map_eq_some_iff.mp found
        obtain ⟨next, stopped⟩ := two.cut late stop (past ++ front)
        refine ⟨next, ?_⟩
        rw [Walk.andThen, one.whole early]
        simp only [stopped, List.append_assoc]

/-- Around what is recorded inside a node stand its visit and its leave, unless the visit says
otherwise. -/
theorem Records.around {children : Walk Recording} {address : Address} {number : Nat} {node : Node}
    {inner : List WalkEvent}
    (inside : Records verdict children (0 :: address) (number :: address) inner) :
    Records verdict (Walk.around (.recorder verdict) node children) address (nextSibling address)
      (.visit address node ::
        ((if verdict address node = .proceed then inner else []) ++ [.leave address node])) := by
  have last : upToStop verdict [.leave address node] = none := rfl
  constructor
  · intro calm past
    rw [upToStop] at calm
    cases answer : verdict address node with
    | stop => simp [WalkEvent.stops, answer] at calm
    | skip => simp [Walk.around, Visitor.recorder, answer]
    | proceed =>
        have quiet : upToStop verdict inner = none := by
          simpa [WalkEvent.stops, answer, upToStop_append, last] using calm
        simp [Walk.around, Visitor.recorder, answer, inside.whole quiet]
  · intro seen found past
    rw [upToStop] at found
    cases answer : verdict address node with
    | stop =>
        simp only [WalkEvent.stops, answer, BEq.rfl, if_true, Option.some.injEq] at found
        subst found
        exact ⟨0 :: address, by simp [Walk.around, Visitor.recorder, answer]⟩
    | skip => simp [WalkEvent.stops, answer, last] at found
    | proceed =>
        have early : ∃ cut, upToStop verdict inner = some cut ∧
            .visit address node :: cut = seen := by
          simpa [WalkEvent.stops, answer, upToStop_append, last] using found
        obtain ⟨cut, stop, rfl⟩ := early
        obtain ⟨next, stopped⟩ := inside.cut cut stop (past ++ [.visit address node])
        refine ⟨next, ?_⟩
        simp [Walk.around, Visitor.recorder, answer, stopped]

end Walk

mutual

theorem Outline.records_walk (outline : Outline) (address : Address) :
    Walk.Records verdict (outline.walk (.recorder verdict)) address (nextSibling address)
      (outline.events verdict address) := by
  obtain ⟨root, inside⟩ := outline
  rw [Outline.walk, Outline.events]
  exact (walkOutlines_records inside address 0).around

theorem walkOutlines_records (outlines : List Outline) (outer : Address) (number : Nat) :
    Walk.Records verdict (walkOutlines (.recorder verdict) outlines) (number :: outer)
      ((number + outlines.length) :: outer) (insideEvents verdict outer number outlines) := by
  cases outlines with
  | nil =>
      rw [walkOutlines, insideEvents]
      exact Walk.records_done _
  | cons outline outlines =>
      rw [walkOutlines, insideEvents, List.length_cons, Nat.add_comm outlines.length,
        ← Nat.add_assoc]
      exact (Outline.records_walk outline (number :: outer)).andThen
        (walkOutlines_records outlines outer (number + 1))

end

/-! ## Addresses -/

theorem sibling_eq_of_suffix {first second : Nat} {outer address : Address}
    (one : first :: outer <:+ address) (two : second :: outer <:+ address) : first = second := by
  have same : first :: outer = second :: outer :=
    (List.suffix_of_suffix_length_le one two (by simp)).eq_of_length (by simp)
  exact (List.cons.inj same).1

mutual

theorem Outline.suffix_of_mem_events {event : WalkEvent} (outline : Outline) (address : Address)
    (member : event ∈ outline.events verdict address) : address <:+ event.address := by
  obtain ⟨root, inside⟩ := outline
  rw [Outline.events, List.mem_cons, List.mem_append, List.mem_singleton] at member
  rcases member with rfl | inner | rfl
  · exact List.suffix_rfl
  · split at inner
    · obtain ⟨number, -, below⟩ := suffix_of_mem_insideEvents inside address 0 inner
      exact (List.suffix_cons number address).trans below
    · cases inner
  · exact List.suffix_rfl

theorem suffix_of_mem_insideEvents {event : WalkEvent} (outlines : List Outline) (outer : Address)
    (start : Nat) (member : event ∈ insideEvents verdict outer start outlines) :
    ∃ number, start ≤ number ∧ number :: outer <:+ event.address := by
  cases outlines with
  | nil => cases member
  | cons outline outlines =>
      rw [insideEvents, List.mem_append] at member
      rcases member with here | later
      · exact ⟨start, Nat.le_refl start, outline.suffix_of_mem_events (start :: outer) here⟩
      · obtain ⟨number, behind, below⟩ :=
          suffix_of_mem_insideEvents outlines outer (start + 1) later
        exact ⟨number, by omega, below⟩

end

theorem not_suffix_of_mem_insideEvents {event : WalkEvent} {outlines : List Outline}
    {outer : Address} {start : Nat}
    (member : event ∈ insideEvents verdict outer start outlines) :
    ¬event.address <:+ outer := by
  intro above
  obtain ⟨number, -, below⟩ := suffix_of_mem_insideEvents outlines outer start member
  have shorter := below.length_le
  have longer := above.length_le
  rw [List.length_cons] at shorter
  omega

end

end TemplateSelectors
