import TemplateSelectors.Regex

/-!
# The language of a regular expression

Which words an expression stands for, by the shape of the expression.  The two flags say whether
the word begins where the whole text begins and whether it ends where the whole text ends.
Stepping from symbol to symbol accepts exactly these words.
-/

set_option autoImplicit false

namespace TemplateSelectors

namespace Regex

inductive Accepts : (atStart atEnd : Bool) → Regex → List Nat → Prop where
  | empty (atStart atEnd : Bool) : Accepts atStart atEnd .empty []
  | symbol (atStart atEnd : Bool) {set : SymbolSet} {n : Nat} (member : set.contains n = true) :
      Accepts atStart atEnd (.symbol set) [n]
  | start (atEnd : Bool) : Accepts true atEnd .start []
  | finish (atStart : Bool) : Accepts atStart true .finish []
  | seq {atStart atEnd : Bool} {first second : Regex} {front back : List Nat}
      (left : Accepts atStart (atEnd && back.isEmpty) first front)
      (right : Accepts (atStart && front.isEmpty) atEnd second back) :
      Accepts atStart atEnd (.seq first second) (front ++ back)
  | altLeft {atStart atEnd : Bool} {first : Regex} (second : Regex) {word : List Nat}
      (left : Accepts atStart atEnd first word) : Accepts atStart atEnd (.alt first second) word
  | altRight {atStart atEnd : Bool} (first : Regex) {second : Regex} {word : List Nat}
      (right : Accepts atStart atEnd second word) : Accepts atStart atEnd (.alt first second) word
  | starNone (atStart atEnd : Bool) (inner : Regex) : Accepts atStart atEnd (.star inner) []
  | starMore {atStart atEnd : Bool} {inner : Regex} {n : Nat} {front back : List Nat}
      (one : Accepts atStart (atEnd && back.isEmpty) inner (n :: front))
      (more : Accepts false atEnd (.star inner) back) :
      Accepts atStart atEnd (.star inner) (n :: front ++ back)

theorem accepts_empty_iff {atStart atEnd : Bool} {word : List Nat} :
    Accepts atStart atEnd .empty word ↔ word = [] := by
  constructor
  · intro accepted
    cases accepted
    rfl
  · rintro rfl
    exact .empty _ _

theorem accepts_seq_iff {atStart atEnd : Bool} {first second : Regex} {word : List Nat} :
    Accepts atStart atEnd (.seq first second) word ↔
      ∃ front back, word = front ++ back ∧ Accepts atStart (atEnd && back.isEmpty) first front ∧
        Accepts (atStart && front.isEmpty) atEnd second back := by
  constructor
  · intro accepted
    cases accepted with
    | seq left right => exact ⟨_, _, rfl, left, right⟩
  · rintro ⟨front, back, rfl, left, right⟩
    exact .seq left right

theorem accepts_alt_iff {atStart atEnd : Bool} {first second : Regex} {word : List Nat} :
    Accepts atStart atEnd (.alt first second) word ↔
      Accepts atStart atEnd first word ∨ Accepts atStart atEnd second word := by
  constructor
  · intro accepted
    cases accepted with
    | altLeft _ left => exact .inl left
    | altRight _ right => exact .inr right
  · rintro (left | right)
    · exact .altLeft _ left
    · exact .altRight _ right

theorem accepts_symbol_iff {atStart atEnd : Bool} {set : SymbolSet} {word : List Nat} :
    Accepts atStart atEnd (.symbol set) word ↔ ∃ n, word = [n] ∧ set.contains n = true := by
  constructor
  · intro accepted
    cases accepted with
    | symbol _ _ member => exact ⟨_, rfl, member⟩
  · rintro ⟨n, rfl, member⟩
    exact .symbol _ _ member

/-- A repetition of what any symbol satisfies accepts every word. -/
theorem accepts_star_symbol {set : SymbolSet} (every : ∀ n, set.contains n = true)
    (atStart atEnd : Bool) (word : List Nat) :
    Accepts atStart atEnd (.star (.symbol set)) word := by
  induction word generalizing atStart with
  | nil => exact .starNone _ _ _
  | cons n word inductionHypothesis =>
      exact .starMore (.symbol _ _ (every n)) (inductionHypothesis false)

theorem nullable_iff (regex : Regex) (atStart atEnd : Bool) :
    regex.nullable atStart atEnd = true ↔ Accepts atStart atEnd regex [] := by
  induction regex generalizing atStart atEnd with
  | empty => exact ⟨fun _ => .empty _ _, fun _ => rfl⟩
  | symbol set => simp [nullable, accepts_symbol_iff]
  | start =>
      constructor
      · rintro rfl
        exact .start _
      · intro accepted
        cases accepted
        rfl
  | finish =>
      constructor
      · rintro rfl
        exact .finish _
      · intro accepted
        cases accepted
        rfl
  | seq first second firstHypothesis secondHypothesis =>
      rw [nullable, Bool.and_eq_true, firstHypothesis, secondHypothesis, accepts_seq_iff]
      constructor
      · rintro ⟨left, right⟩
        exact ⟨[], [], rfl, by simpa using left, by simpa using right⟩
      · rintro ⟨front, back, whole, left, right⟩
        obtain ⟨rfl, rfl⟩ := List.append_eq_nil_iff.mp whole.symm
        exact ⟨by simpa using left, by simpa using right⟩
  | alt first second firstHypothesis secondHypothesis =>
      rw [nullable, Bool.or_eq_true, firstHypothesis, secondHypothesis, accepts_alt_iff]
  | star inner => exact ⟨fun _ => .starNone _ _ _, fun _ => rfl⟩

/-- The expressions that a symbol leads to accept what may follow it. -/
def Follows (n : Nat) (regex : Regex) : Prop :=
  ∀ (atStart atEnd : Bool) (word : List Nat),
    (∃ next ∈ regex.steps atStart n, Accepts false atEnd next word) ↔
      Accepts atStart atEnd regex (n :: word)

/-- The symbol belongs to the second expression only where the first one accepts the empty word. -/
theorem follows_seq {n : Nat} {first second : Regex} (firstFollows : Follows n first)
    (secondFollows : Follows n second) : Follows n (.seq first second) := by
  intro atStart atEnd word
  rw [accepts_seq_iff]
  constructor
  · rintro ⟨next, member, accepted⟩
    rw [steps, List.mem_append] at member
    rcases member with inFirst | inSecond
    · obtain ⟨state, reached, rfl⟩ := List.mem_map.mp inFirst
      obtain ⟨front, back, rfl, left, right⟩ := accepts_seq_iff.mp accepted
      refine ⟨n :: front, back, rfl, (firstFollows _ _ _).mp ⟨state, reached, left⟩, ?_⟩
      simpa using right
    · split at inSecond
      · next skipped =>
          refine ⟨[], n :: word, rfl, ?_, ?_⟩
          · simpa using (nullable_iff _ _ _).mp skipped
          · simpa using (secondFollows _ _ _).mp ⟨next, inSecond, accepted⟩
      · cases inSecond
  · rintro ⟨front, back, whole, left, right⟩
    cases front with
    | nil =>
        rw [List.nil_append] at whole
        subst whole
        have skipped : first.nullable atStart false = true :=
          (nullable_iff _ _ _).mpr (by simpa using left)
        obtain ⟨next, member, accepted⟩ := (secondFollows _ _ _).mpr (by simpa using right)
        refine ⟨next, ?_, accepted⟩
        rw [steps, if_pos skipped]
        exact List.mem_append_right _ member
    | cons m front =>
        rw [List.cons_append, List.cons.injEq] at whole
        obtain ⟨rfl, rfl⟩ := whole
        obtain ⟨state, reached, accepted⟩ := (firstFollows _ _ _).mpr left
        refine ⟨.seq state second, ?_, .seq accepted (by simpa using right)⟩
        exact List.mem_append_left _ (List.mem_map.mpr ⟨state, reached, rfl⟩)

theorem follows_star {n : Nat} {inner : Regex} (innerFollows : Follows n inner) :
    Follows n (.star inner) := by
  intro atStart atEnd word
  constructor
  · rintro ⟨next, member, accepted⟩
    obtain ⟨state, reached, rfl⟩ := List.mem_map.mp member
    obtain ⟨front, back, rfl, left, right⟩ := accepts_seq_iff.mp accepted
    exact .starMore ((innerFollows _ _ _).mp ⟨state, reached, left⟩) (by simpa using right)
  · intro accepted
    cases accepted with
    | @starMore _ _ _ _ front back one more =>
        obtain ⟨state, reached, found⟩ := (innerFollows _ _ _).mpr one
        refine ⟨.seq state (.star inner), List.mem_map.mpr ⟨state, reached, rfl⟩, ?_⟩
        exact .seq found (by simpa using more)

/-- What may follow a symbol. -/
theorem steps_iff (regex : Regex) (atStart atEnd : Bool) (n : Nat) (word : List Nat) :
    (∃ next ∈ regex.steps atStart n, Accepts false atEnd next word) ↔
      Accepts atStart atEnd regex (n :: word) := by
  induction regex generalizing atStart atEnd word with
  | empty =>
      simp only [steps, List.not_mem_nil, false_and, exists_false, false_iff]
      intro accepted
      cases accepted
  | symbol set =>
      rw [accepts_symbol_iff, steps]
      constructor
      · rintro ⟨next, member, accepted⟩
        split at member
        · next inside =>
            rw [List.mem_singleton] at member
            subst member
            cases accepted
            exact ⟨n, rfl, inside⟩
        · cases member
      · rintro ⟨m, same, inside⟩
        cases same
        rw [if_pos inside]
        exact ⟨.empty, List.mem_singleton_self _, .empty _ _⟩
  | start =>
      simp only [steps, List.not_mem_nil, false_and, exists_false, false_iff]
      intro accepted
      cases accepted
  | finish =>
      simp only [steps, List.not_mem_nil, false_and, exists_false, false_iff]
      intro accepted
      cases accepted
  | seq first second firstHypothesis secondHypothesis =>
      exact follows_seq firstHypothesis secondHypothesis atStart atEnd word
  | alt first second firstHypothesis secondHypothesis =>
      rw [accepts_alt_iff, ← firstHypothesis, ← secondHypothesis, steps]
      simp only [List.mem_append, or_and_right, exists_or]
  | star inner innerHypothesis => exact follows_star innerHypothesis atStart atEnd word

theorem matchesFrom_iff (atStart : Bool) (states : List Regex) (word : List Nat) :
    matchesFrom atStart states word = true ↔ ∃ regex ∈ states, Accepts atStart true regex word := by
  induction word generalizing atStart states with
  | nil =>
      rw [matchesFrom, List.any_eq_true]
      simp only [nullable_iff]
  | cons n word inductionHypothesis =>
      rw [matchesFrom, inductionHypothesis]
      constructor
      · rintro ⟨next, member, accepted⟩
        rw [stepAll, List.mem_eraseDups, List.mem_flatMap] at member
        obtain ⟨regex, inside, reached⟩ := member
        exact ⟨regex, inside, (steps_iff _ _ _ _ _).mp ⟨next, reached, accepted⟩⟩
      · rintro ⟨regex, inside, accepted⟩
        obtain ⟨next, reached, found⟩ := (steps_iff _ _ _ _ _).mpr accepted
        refine ⟨next, ?_, found⟩
        rw [stepAll, List.mem_eraseDups, List.mem_flatMap]
        exact ⟨regex, inside, reached⟩

/-- An expression matches the words of its language. -/
theorem isMatch_iff (regex : Regex) (word : List Nat) :
    regex.isMatch word = true ↔ Accepts true true regex word := by
  rw [isMatch, matchesFrom_iff]
  simp

theorem isEmpty_append (front back : List Nat) :
    (front ++ back).isEmpty = (front.isEmpty && back.isEmpty) := by
  cases front <;> rfl

/-- The last of several expressions in a row accepts the end of the word. -/
theorem accepts_seqAll_concat_iff {atStart atEnd : Bool} {regexes : List Regex} {last : Regex}
    {word : List Nat} :
    Accepts atStart atEnd (seqAll (regexes ++ [last])) word ↔
      ∃ front back, word = front ++ back ∧
        Accepts atStart (atEnd && back.isEmpty) (seqAll regexes) front ∧
        Accepts (atStart && front.isEmpty) atEnd last back := by
  induction regexes generalizing atStart word with
  | nil =>
      constructor
      · intro accepted
        exact ⟨[], word, rfl, .empty _ _, by simpa [seqAll] using accepted⟩
      · rintro ⟨front, back, rfl, none, accepted⟩
        rw [seqAll, accepts_empty_iff] at none
        subst none
        simpa [seqAll] using accepted
  | cons regex regexes inductionHypothesis =>
      have unfolded : seqAll (regex :: regexes ++ [last]) =
          .seq regex (seqAll (regexes ++ [last])) := by
        cases regexes with
        | nil => rfl
        | cons next others => rfl
      rw [unfolded, accepts_seq_iff]
      cases regexes with
      | nil => rfl
      | cons next others =>
          simp only [seqAll, List.cons_append] at inductionHypothesis ⊢
          constructor
          · rintro ⟨front, back, rfl, left, right⟩
            obtain ⟨middle, back', rfl, center, accepted⟩ := inductionHypothesis.mp right
            rw [isEmpty_append, Bool.and_comm middle.isEmpty, ← Bool.and_assoc] at left
            refine ⟨front ++ middle, back', by simp, .seq left center, ?_⟩
            rw [isEmpty_append, ← Bool.and_assoc]
            exact accepted
          · rintro ⟨front, back, rfl, row, accepted⟩
            obtain ⟨front', middle, rfl, left, center⟩ := accepts_seq_iff.mp row
            rw [isEmpty_append, ← Bool.and_assoc] at accepted
            refine ⟨front', middle ++ back, by simp, ?_, ?_⟩
            · rw [isEmpty_append, Bool.and_comm middle.isEmpty, ← Bool.and_assoc]
              exact left
            · exact inductionHypothesis.mpr ⟨middle, back, rfl, center, accepted⟩

end Regex

end TemplateSelectors
