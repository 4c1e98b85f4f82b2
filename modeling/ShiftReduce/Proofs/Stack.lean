import ShiftReduce.Calculator.Eval
import ShiftReduce.Proofs.Reach
import ShiftReduce.Proofs.Step
import ShiftReduce.Proofs.Tables

/-! Whatever a driver and a lexer do, the stack of a run is a path of the automaton that starts in
state 0, and the first entry is never popped. A step can therefore not look up a state or a rule
that does not exist, nor read or pop entries that are not there. -/

namespace ShiftReduce

variable {V ε γ σ : Type}

/-- The stack is a path along the edges of the tables, up from state 0. -/
inductive Stands (t : Tables) : List (Entry V) → Prop where
  | bottom : Stands t [⟨0, none⟩]
  | push {e below : Entry V} {rest : List (Entry V)} (edge : t.Edge below.state e.state)
      (stands : Stands t (below :: rest)) : Stands t (e :: below :: rest)

namespace Stands

variable {t : Tables} {stack : List (Entry V)}

theorem ne_nil (stands : Stands t stack) : stack ≠ [] := by
  cases stands <;> simp

theorem bottom_eq (stands : Stands t stack) : ∃ above, stack = above ++ [⟨0, none⟩] := by
  induction stands with
  | bottom => exact ⟨[], rfl⟩
  | @push e _ _ _ _ ih =>
    obtain ⟨above, same⟩ := ih
    exact ⟨e :: above, by rw [same, List.cons_append]⟩

theorem suffix {above : List (Entry V)} {top : Entry V} {rest : List (Entry V)}
    (stands : Stands t (above ++ top :: rest)) : Stands t (top :: rest) := by
  induction above with
  | nil => exact stands
  | cons e above ih =>
    apply ih
    rw [List.cons_append] at stands
    generalize same : above ++ top :: rest = below at stands
    cases stands with
    | bottom => simp at same
    | push _ stands => exact stands

theorem edge_of_adjacent {above below : List (Entry V)} {upper lower : Entry V}
    (stands : Stands t (above ++ upper :: lower :: below)) : t.Edge lower.state upper.state := by
  cases stands.suffix with
  | push edge _ => exact edge

theorem state_lt (sound : t.Sound) (stands : Stands t stack) :
    ∀ e ∈ stack, e.state < t.states.size := by
  induction stands with
  | bottom => simpa using sound.states
  | push edge _ ih =>
    intro e member
    rcases List.mem_cons.mp member with rfl | member
    · exact edge.target_lt sound
    · exact ih e member

theorem state_known (sound : t.Sound) (stands : Stands t stack) {e : Entry V} (member : e ∈ stack) :
    t.states[e.state]? ≠ none := by
  have bound := stands.state_lt sound e member
  simp [bound]

theorem drop {n : Nat} {top : Entry V} {rest : List (Entry V)} (stands : Stands t stack)
    (uncovered : stack.drop n = top :: rest) : Stands t (top :: rest) := by
  have split := List.take_append_drop n stack
  rw [uncovered] at split
  exact suffix (split ▸ stands)

end Stands

namespace Parser

variable {p : Parser V ε γ} {lexer : Lexer V ε σ} {b c d : Config V γ σ}

/-- A run of these tables breaks off neither for want of a state or a rule nor with a stack that it
has already popped: an underflow leaves a stack of the height that was too low, and so does an
overflow, for a rule that is too long to tell what it needs. -/
def Orderly (t : Tables) (result : Result V ε) (final : Config V γ σ) : Prop :=
  (∀ defect, result ≠ .error (.defect defect)) ∧
  (∀ index needed available, result = .error (.stackUnderflow index needed available) →
    available = final.stack.length ∧ available < needed) ∧
  (result = .error .overflow → ∃ rule ∈ t.rules, rule.needed? = none ∧
    rule.exceeds final.stack.length)

/-- The stack on which the search for an error shift begins. -/
theorem discard_next_stack (discard : p.discard lexer (p.entered b) = .next d) :
    d.stack = b.stack := by
  simpa [discard, Step.config] using (p.discard_frame lexer (p.entered b)).stack

theorem recover_stands (stands : Stands p.tables b.stack) (recovers : p.recover lexer b = .next d) :
    Stands p.tables d.stack := by
  have cases := p.recover_cases lexer b
  rw [recovers] at cases
  cases cases with
  | resumed => exact stands
  | @unwound b' _ _ discard unwound =>
    have unwinding := p.unwind_cases (b'.setErrorStatus 3) b'.stack
    rw [unwound] at unwinding
    cases unwinding with
    | shifted split _ found shifts stack_eq _ =>
      rw [stack_eq]
      rw [← discard_next_stack discard, split] at stands
      exact .push (.of_errorShift found shifts) stands.suffix

theorem recover_orderly (sound : p.tables.Sound) (stands : Stands p.tables b.stack)
    {result : Result V ε} (recovers : p.recover lexer b = .stop result d) :
    Orderly p.tables result d := by
  have cases := p.recover_cases lexer b
  rw [recovers] at cases
  cases cases with
  | stopped _ discard =>
    rcases p.discard_stop lexer discard with rfl | ⟨e, rfl⟩ <;> simp [Orderly]
  | @unwound b' _ _ discard unwound =>
    have unwinding := p.unwind_cases (b'.setErrorStatus 3) b'.stack
    rw [unwound] at unwinding
    cases unwinding with
    | exhausted => simp [Orderly]
    | unknownState member missing =>
      exact absurd missing (stands.state_known sound (discard_next_stack discard ▸ member))

theorem reduce_stands {index : Nat} (stands : Stands p.tables b.stack) :
    (∀ d, p.reduce index b = .next d → Stands p.tables d.stack) ∧
    (∀ d, p.reduce index b = .recover d → Stands p.tables d.stack) := by
  constructor
  · intro d reduced
    have cases := p.reduce_cases index b
    rw [reduced] at cases
    cases cases with
    | continued _ _ _ uncovered found goes =>
      simp only [Config.push_stack, closeBracket_stack, told_stack, uncovered]
      exact .push ⟨_, found, .inr (.inr ⟨_, goes⟩)⟩ (stands.drop uncovered)
  · intro d reduced
    have cases := p.reduce_cases index b
    rw [reduced] at cases
    cases cases with
    | @forced rule _ _ ready _ _ =>
      rw [told_stack]
      cases uncovered : b.stack.drop rule.length with
      | nil =>
        have empty := List.drop_eq_nil_iff.mp uncovered
        have height := ready.length_lt
        omega
      | cons top rest => exact stands.drop uncovered

theorem reduce_orderly (sound : p.tables.Sound) {index : Nat} (known : index < p.tables.rules.size)
    (stands : Stands p.tables b.stack) {result : Result V ε}
    (reduced : p.reduce index b = .stop result d) : Orderly p.tables result d := by
  have cases := p.reduce_cases index b
  rw [reduced] at cases
  cases cases with
  | unknownRule missing => simp [known] at missing
  | underflow _ low told => simp [Orderly, (Rule.exceeds_iff_lt told).mp low]
  | overflow found low untold =>
    simpa [Orderly] using ⟨_, Array.mem_of_getElem? found, untold, low⟩
  | raised | accepted | aborted | missingGoto => simp [Orderly]
  | unknownState _ _ _ uncovered missing =>
    exact absurd missing ((stands.drop uncovered).state_known sound (by simp))

theorem Reduces.known (sound : p.tables.Sound) {index : Nat} (reduces : p.Reduces lexer c index b) :
    index < p.tables.rules.size := by
  rcases reduces with ⟨_, _, state, _, found, _, selected⟩ | ⟨_, _, rfl, _⟩
  · exact sound.select found selected
  · exact sound.rules

theorem Recovers.stands (stands : Stands p.tables c.stack) (recovers : p.Recovers lexer c b) :
    Stands p.tables b.stack := by
  rcases recovers with performs | ⟨index, before, reduces, forced⟩
  · exact performs.frame.stack ▸ stands
  · exact (reduce_stands (reduces.stack ▸ stands)).2 _ forced

theorem step_stands (stands : Stands p.tables c.stack) (step : p.step lexer c = .next d) :
    Stands p.tables d.stack := by
  have cases := p.step_cases lexer c
  rw [step] at cases
  cases cases with
  | @shifted target b performs =>
    have frame := performs.frame.stack
    obtain ⟨top, rest, state, stack, found, _, selected⟩ := performs
    rw [shift_stack, frame]
    rw [stack] at stands ⊢
    exact .push (.of_select found selected) stands
  | reduced reduces reduced => exact (reduce_stands (reduces.stack ▸ stands)).1 _ reduced
  | recovered recovers recovered => exact recover_stands (recovers.stands stands) recovered

theorem step_orderly (sound : p.tables.Sound) (stands : Stands p.tables c.stack)
    {result : Result V ε} (step : p.step lexer c = .stop result d) :
    Orderly p.tables result d := by
  have cases := p.step_cases lexer c
  rw [step] at cases
  cases cases with
  | empty empty => exact absurd empty stands.ne_nil
  | unknownState stack missing =>
    exact absurd missing (stands.state_known sound (by simp [stack]))
  | unfetched => simp [Orderly]
  | ended reduces reduced =>
    exact reduce_orderly sound (reduces.known sound) (reduces.stack ▸ stands) reduced
  | recovered recovers recovered =>
    exact recover_orderly sound (recovers.stands stands) recovered

theorem Reaches.stands {source : σ} {context : γ}
    (reached : p.Reaches lexer (.start source context) c) : Stands p.tables c.stack :=
  reached.invariant .bottom fun _ stands step => step_stands stands step

/-- A run gives up for want of an error shift in recovery only, never at the top of its loop. -/
theorem step_exhausted (stands : Stands p.tables c.stack)
    (step : p.step lexer c = .stop (.ok (.fail .stackExhausted)) d) :
    ∃ b, p.Recovers lexer c b ∧ p.recover lexer b = .stop (.ok (.fail .stackExhausted)) d := by
  have cases := p.step_cases lexer c
  rw [step] at cases
  cases cases with
  | empty empty => exact absurd empty stands.ne_nil
  | @ended index b _ _ reduces reduced =>
    have cases := p.reduce_cases index b
    rw [reduced] at cases
    contradiction
  | recovered recovers recovered => exact ⟨_, recovers, recovered⟩

/-- A reduction of a reachable configuration looks up a rule that exists, and then either stops at
once or reads and pops no more than the stack holds above an entry that stays. -/
theorem Reduces.fits (sound : p.tables.Sound) {index : Nat} (reduces : p.Reduces lexer c index b) :
    ∃ rule, p.tables.rules[index]? = some rule ∧
      (rule.exceeds b.stack.length ∧
          p.reduce index b = .stop (.error (.tooLow index rule.needed? b.stack.length)) b ∨
        rule.dot ≤ b.stack.length ∧ rule.length < b.stack.length) := by
  obtain ⟨rule, found⟩ : ∃ rule, p.tables.rules[index]? = some rule :=
    ⟨_, Array.getElem?_eq_getElem (reduces.known sound)⟩
  refine ⟨rule, found, ?_⟩
  by_cases low : rule.exceeds b.stack.length
  · exact .inl ⟨low, reduce_too_low found low⟩
  · have ready := Ready.of_high found low
    exact .inr ⟨ready.dot_le, ready.length_lt⟩

/-- Over validated tables, and with any driver and any lexer, the stack of a run is a path of the
automaton up from state 0. No state, rule or entry that does not exist is ever asked for, and the
first entry is popped by recovery only, when it gives up. -/
theorem run_keeps_stack {definition : TablesDefinition} (p : Parser V ε γ)
    (valid : Tables.ofDefinition definition = .ok p.tables) (lexer : Lexer V ε σ) (source : σ)
    (context : γ) :
    (∀ c, p.Reaches lexer (.start source context) c →
      (∃ above, c.stack = above ++ [⟨0, none⟩]) ∧
      (∀ e ∈ c.stack, e.state < p.tables.states.size) ∧
      (∀ above upper lower below, c.stack = above ++ upper :: lower :: below →
        p.tables.Edge lower.state upper.state) ∧
      ∀ index b, p.Reduces lexer c index b → ∃ rule, p.tables.rules[index]? = some rule ∧
        (rule.exceeds b.stack.length ∧
            p.reduce index b = .stop (.error (.tooLow index rule.needed? b.stack.length)) b ∨
          rule.dot ≤ b.stack.length ∧ rule.length < b.stack.length)) ∧
    ∀ steps r, p.run lexer steps source context = some r →
      (∀ defect, r.result ≠ .error (.defect defect)) ∧
      (∀ index needed available, r.result = .error (.stackUnderflow index needed available) →
        available = r.final.stack.length ∧ available < needed) ∧
      (r.result = .error .overflow → ∃ rule ∈ p.tables.rules, rule.needed? = none ∧
        rule.exceeds r.final.stack.length) ∧
      (r.result = .ok (.fail .stackExhausted) → ∃ c b, p.Reaches lexer (.start source context) c ∧
        p.Recovers lexer c b ∧ p.recover lexer b = .stop r.result r.final) := by
  have sound := Tables.sound_of_ofDefinition valid
  constructor
  · intro c reached
    have stands := reached.stands
    refine ⟨stands.bottom_eq, stands.state_lt sound, ?_, fun index b reduces => reduces.fits sound⟩
    intro above upper lower below split
    exact (split ▸ stands).edge_of_adjacent
  · intro steps r ended
    obtain ⟨c, reached, stopped⟩ := runFrom_origin ended
    obtain ⟨known, underflow, overflow⟩ := step_orderly sound reached.stands stopped
    refine ⟨known, underflow, overflow, fun exhausted => ?_⟩
    rw [exhausted] at stopped ⊢
    obtain ⟨b, recovers, gaveUp⟩ := step_exhausted reached.stands stopped
    exact ⟨c, b, reached, recovers, gaveUp⟩

/-- The calculator never pops its first entry, whatever a line of it divides by. -/
theorem calculator_keeps_bottom :
    Tables.ofDefinition Calculator.definition = .ok (Calculator.parser).tables ∧
    ∀ c, (Calculator.parser).Reaches Calculator.lexer (.start (.ofSource "1/0\n") {}) c →
      ∃ above, c.stack = above ++ [⟨0, none⟩] :=
  ⟨Calculator.ofDefinition_definition, fun c reached =>
    ((run_keeps_stack Calculator.parser Calculator.ofDefinition_definition Calculator.lexer
      (.ofSource "1/0\n") {}).1 c reached).1⟩

end Parser

end ShiftReduce
