import ShiftReduce.Proofs.Reach
import ShiftReduce.Proofs.Recording
import ShiftReduce.Proofs.Step

/-! A reduction takes the control flag as soon as its action has returned. The error hook may set
the flag as well, and nobody takes it then: it stays until some later reduction. -/

namespace ShiftReduce.Parser

variable {V ε γ σ : Type}

section

variable (p : Parser V ε γ) (lexer : Lexer V ε σ)

/-- No hook call after which the run goes on asks for acceptance, abortion or an error. -/
def HookQuiet (start : Config V γ σ) : Prop :=
  ∀ c d b, p.Reaches lexer start c → p.step lexer c = .next d → p.Recovers lexer c b →
    b.status.errorStatus = 0 → lastControl? (p.hookReply b).requests = none

def Obeys (control : Control) (value : Option V) (move : Move V ε γ σ) : Prop :=
  match control with
  | .normal => False
  | .accept => ∃ d, move = .stop (.ok (.accept value)) d
  | .abort => ∃ d, move = .stop (.ok .abort) d
  | .error => ∃ d, move = .recover d

/-- The step of `c` accepts, aborts or forces recovery because of the tables or of its own action
alone, and does whatever that action asks for. -/
structure Prompt (c : Config V γ σ) : Prop where
  accept : ∀ value d, p.step lexer c = .stop (.ok (.accept value)) d →
    ∃ index rule b, p.Reduces lexer c index b ∧ p.tables.rules[index]? = some rule ∧
      (p.asked index rule b = some .accept ∨
        p.asked index rule b = none ∧ ∃ before, p.Performs lexer c (some .accept) before)
  abort : ∀ d, p.step lexer c = .stop (.ok .abort) d →
    ∃ index rule b, p.Reduces lexer c index b ∧ p.tables.rules[index]? = some rule ∧
      p.asked index rule b = some .abort
  forced : ∀ index b d, p.Reduces lexer c index b → p.reduce index b = .recover d →
    ∃ rule, p.tables.rules[index]? = some rule ∧ p.asked index rule b = some .error
  obeyed : ∀ index rule b value control, p.Reduces lexer c index b → p.Ready index rule b →
    (p.acted index rule b).1 = .ok value → p.asked index rule b = some control →
    Obeys control value (p.reduce index b)

end

variable {p : Parser V ε γ} {lexer : Lexer V ε σ} {b c d : Config V γ σ}

theorem asked_ne_normal {index : Nat} {rule : Rule} : p.asked index rule b ≠ some .normal := by
  unfold asked
  split
  · exact fun last => Control.ne_normal_of_lastControl? last rfl
  · simp

theorem recover_control (recovers : p.recover lexer b = .next d) : d.status.control =
    (if b.status.errorStatus = 0 then lastControl? (p.hookReply b).requests
      else none).getD b.status.control := by
  have cases := p.recover_cases lexer b
  rw [recovers] at cases
  cases cases with
  | resumed fresh _ =>
    rw [if_pos fresh]
    exact p.report_control b
  | @unwound b' _ _ discard unwound =>
    have unwinding := p.unwind_cases (b'.setErrorStatus 3) b'.stack
    rw [unwound] at unwinding
    cases unwinding with
    | shifted _ _ _ _ _ status =>
      have discarded : b'.status.control = (p.entered b).status.control := by
        simpa [discard, Step.config] using (p.discard_frame lexer (p.entered b)).control
      rw [status, Config.setErrorStatus_control, discarded, entered_control]

theorem Recovers.control (normal : c.status.control = .normal) (recovers : p.Recovers lexer c b) :
    b.status.control = .normal := by
  rcases recovers with performs | ⟨index, before, _, forced⟩
  · exact performs.frame.control.trans normal
  · have cases := p.reduce_cases index before
    rw [forced] at cases
    cases cases with
    | forced => exact told_control ..

/-- A step that finds the flag clear leaves it clear, unless it calls a hook that sets it. -/
theorem step_control (normal : c.status.control = .normal) (step : p.step lexer c = .next d)
    (quiet : ∀ b, p.Recovers lexer c b → b.status.errorStatus = 0 →
      lastControl? (p.hookReply b).requests = none) : d.status.control = .normal := by
  have cases := p.step_cases lexer c
  rw [step] at cases
  cases cases with
  | @shifted target b performs => rw [shift_control, performs.frame.control, normal]
  | @reduced index b _ _ reduced =>
    have cases := p.reduce_cases index b
    rw [reduced] at cases
    cases cases with
    | continued => simp
  | @recovered b _ recovers recovered =>
    rw [recover_control recovered]
    split
    · next fresh =>
      rw [quiet b recovers fresh]
      exact recovers.control normal
    · exact recovers.control normal

variable (p lexer) in
/-- The flag is clear at the top of the loop exactly if the hook is quiet. -/
theorem control_normal_iff (start : Config V γ σ) (normal : start.status.control = .normal) :
    (∀ c, p.Reaches lexer start c → c.status.control = .normal) ↔ p.HookQuiet lexer start := by
  constructor
  · intro clear c d b reached step recovers fresh
    -- the flag that the hook leaves is still there at the top of the next iteration
    have left := clear d (reached.next step)
    rw [p.step_of_recovers lexer recovers] at step
    rw [recover_control step, if_pos fresh] at left
    cases last : lastControl? (p.hookReply b).requests with
    | none => rfl
    | some control =>
      rw [last] at left
      exact absurd left (Control.ne_normal_of_lastControl? last)
  · intro quiet c reached
    exact reached.invariant normal fun reached normal step =>
      step_control normal step fun b recovers fresh => quiet _ _ b reached step recovers fresh

theorem Reduces.control (normal : c.status.control = .normal) {index : Nat}
    (reduces : p.Reduces lexer c index b) : b.status.control = .normal ∨
      b.status.control = .accept ∧ ∃ before, p.Performs lexer c (some .accept) before := by
  rcases reduces with performs | ⟨before, performs, _, rfl⟩
  · exact .inl (performs.frame.control.trans normal)
  · exact .inr ⟨rfl, before, performs⟩

/-- The flag that a reduction acts on comes from its action or else from the accept action. -/
theorem Reduces.acted_control (normal : c.status.control = .normal) {index : Nat} {rule : Rule}
    {control : Control} (reduces : p.Reduces lexer c index b)
    (acted : (p.acted index rule b).2.status.control = control) (set : control ≠ .normal) :
    p.asked index rule b = some control ∨ p.asked index rule b = none ∧ control = .accept ∧
      ∃ before, p.Performs lexer c (some .accept) before := by
  rw [Parser.acted_control] at acted
  cases asked : p.asked index rule b with
  | some own => exact .inl (by simpa [asked] using acted)
  | none =>
    rw [asked, Option.getD_none] at acted
    rcases reduces.control normal with clear | ⟨accept, performs⟩
    · exact absurd (acted.symm.trans clear) set
    · exact .inr ⟨rfl, acted.symm.trans accept, performs⟩

theorem reduce_obeys {index : Nat} {rule : Rule} {value : Option V} {control : Control}
    (ready : p.Ready index rule b) (result : (p.acted index rule b).1 = .ok value)
    (asked : p.asked index rule b = some control) : Obeys control value (p.reduce index b) := by
  have acted := p.acted_control index rule b
  rw [asked, Option.getD_some] at acted
  have known {other : Rule} (found : p.tables.rules[index]? = some other) : other = rule :=
    Option.some.inj (found.symm.trans ready.found)
  have cases := p.reduce_cases index b
  generalize p.reduce index b = move at cases
  have normal : control ≠ .normal := fun same => asked_ne_normal (same ▸ asked)
  cases cases with
  | unknownRule missing => simp [ready.found] at missing
  | underflow found low | overflow found low =>
    cases known found
    exact absurd low ready.high
  | raised ready' raised =>
    cases known ready'.found
    rw [result] at raised
    contradiction
  | accepted ready' result' control' | aborted ready' result' control' =>
    cases known ready'.found
    rw [control'] at acted
    rw [result] at result'
    cases result'
    exact acted ▸ ⟨_, rfl⟩
  | forced ready' _ control' =>
    cases known ready'.found
    rw [control'] at acted
    exact acted ▸ ⟨_, rfl⟩
  | unknownState ready' _ control' | missingGoto ready' _ control' | continued ready' _ control' =>
    cases known ready'.found
    exact absurd (acted.symm.trans control') normal

theorem recover_stop {result : Result V ε} (recovers : p.recover lexer b = .stop result d) :
    (∃ reason, result = .ok (.fail reason)) ∨ ∃ fault, result = .error fault := by
  have cases := p.recover_cases lexer b
  rw [recovers] at cases
  cases cases with
  | stopped _ discard =>
    rcases p.discard_stop lexer discard with rfl | ⟨e, rfl⟩
    · exact .inl ⟨_, rfl⟩
    · exact .inr ⟨_, rfl⟩
  | @unwound b' _ _ discard unwound =>
    have unwinding := p.unwind_cases (b'.setErrorStatus 3) b'.stack
    rw [unwound] at unwinding
    cases unwinding with
    | exhausted => exact .inl ⟨_, rfl⟩
    | unknownState => exact .inr ⟨_, rfl⟩

theorem step_ended {outcome : Outcome V} (step : p.step lexer c = .stop (.ok outcome) d)
    (gaveUp : ∀ reason, outcome ≠ .fail reason) :
    ∃ index b, p.Reduces lexer c index b ∧ p.reduce index b = .stop (.ok outcome) d := by
  have cases := p.step_cases lexer c
  rw [step] at cases
  cases cases with
  | empty => exact absurd rfl (gaveUp _)
  | ended reduces reduced => exact ⟨_, _, reduces, reduced⟩
  | recovered _ recovered =>
    rcases recover_stop recovered with ⟨reason, same⟩ | ⟨fault, same⟩
    · cases same
      exact absurd rfl (gaveUp reason)
    · contradiction

/-- A step that finds the flag clear is moved by the tables and its own action alone. -/
theorem prompt_of_normal (normal : c.status.control = .normal) : p.Prompt lexer c where
  accept := by
    intro value d step
    obtain ⟨index, b, reduces, reduced⟩ := step_ended step (by simp)
    have cases := p.reduce_cases index b
    rw [reduced] at cases
    cases cases with
    | @accepted rule _ ready _ control =>
      refine ⟨index, rule, b, reduces, ready.found, ?_⟩
      rcases reduces.acted_control normal control (by decide) with own | ⟨silent, _, performs⟩
      · exact .inl own
      · exact .inr ⟨silent, performs⟩
  abort := by
    intro d step
    obtain ⟨index, b, reduces, reduced⟩ := step_ended step (by simp)
    have cases := p.reduce_cases index b
    rw [reduced] at cases
    cases cases with
    | @aborted rule _ ready _ control =>
      rcases reduces.acted_control normal control (by decide) with own | ⟨_, accept, _⟩
      · exact ⟨index, rule, b, reduces, ready.found, own⟩
      · contradiction
  forced := by
    intro index b d reduces forced
    have cases := p.reduce_cases index b
    rw [forced] at cases
    cases cases with
    | @forced rule _ _ ready _ control =>
      rcases reduces.acted_control normal control (by decide) with own | ⟨_, accept, _⟩
      · exact ⟨rule, ready.found, own⟩
      · contradiction
  obeyed := fun _ _ _ _ _ _ ready result asked => reduce_obeys ready result asked

section Shown

/-- All statuses that the lexer was shown had a clear flag. -/
def ShownNormal (c : Config V γ (σ × List (Status V))) : Prop :=
  ∀ status ∈ c.source.2, status.control = .normal

variable {before after : Config V γ (σ × List (Status V))}

theorem ShownNormal.called (shown : ShownNormal before) (normal : before.status.control = .normal)
    (moved : after.source = before.source ∨
      after.source = (lexer.recording before.status before.source).2) : ShownNormal after := by
  unfold ShownNormal
  rcases moved with same | called
  · rw [same]
    exact shown
  · rw [called]
    intro status member
    rcases List.mem_cons.mp member with rfl | member
    · exact normal
    · exact shown status member

theorem recover_shown (shown : ShownNormal before) (normal : before.status.control = .normal) :
    ShownNormal (p.recover lexer.recording before).config :=
  shown.called normal ((p.recover_source lexer.recording before).imp id fun moved => moved.2.2)

variable (p lexer) in
theorem lookahead_shown (state : State) (number : Nat) (shown : ShownNormal before)
    (normal : before.status.control = .normal) :
    ShownNormal (p.lookahead lexer.recording state (p.announced before number)).config := by
  refine ShownNormal.called shown normal (?_ : _ ∨ _ = (lexer.recording _ _).2)
  simpa using (p.lookahead_source lexer.recording state (p.announced before number)).imp id
    fun moved => moved.2.2

theorem Performs.shown {action : Option Action} (shown : ShownNormal before)
    (normal : before.status.control = .normal)
    (performs : p.Performs lexer.recording before action after) : ShownNormal after := by
  obtain ⟨top, rest, state, _, _, looked, _⟩ := performs
  have shown := lookahead_shown p lexer state top.state shown normal
  rwa [looked] at shown

theorem Reduces.shown {index : Nat} (shown : ShownNormal before)
    (normal : before.status.control = .normal)
    (reduces : p.Reduces lexer.recording before index after) : ShownNormal after := by
  rcases reduces with performs | ⟨looked, performs, _, rfl⟩
  · exact performs.shown shown normal
  · have shown : ShownNormal looked := performs.shown shown normal
    exact shown

variable (p) in
theorem reduce_shown (index : Nat) (shown : ShownNormal before) :
    ShownNormal (p.reduce index before).config := by
  unfold ShownNormal
  rw [reduce_source]
  exact shown

theorem Recovers.shown (shown : ShownNormal before) (normal : before.status.control = .normal)
    (recovers : p.Recovers lexer.recording before after) : ShownNormal after := by
  rcases recovers with performs | ⟨index, middle, reduces, forced⟩
  · exact performs.shown shown normal
  · have shown := reduce_shown p index (reduces.shown shown normal)
    rwa [forced] at shown

variable (p lexer) in
theorem step_shown (shown : ShownNormal before) (normal : before.status.control = .normal) :
    ShownNormal (p.step lexer.recording before).config := by
  have cases := p.step_cases lexer.recording before
  generalize p.step lexer.recording before = step at cases
  cases cases with
  | empty | unknownState => exact shown
  | @unfetched top state e b looked =>
    have shown := lookahead_shown p lexer state top.state shown normal
    rwa [looked] at shown
  | @shifted target b performs =>
    unfold ShownNormal
    rw [Step.config, shift_source]
    exact performs.shown shown normal
  | @reduced index b d reduces reduced =>
    have shown := reduce_shown p index (reduces.shown shown normal)
    rwa [reduced] at shown
  | @ended index b d result reduces reduced =>
    have shown := reduce_shown p index (reduces.shown shown normal)
    rwa [reduced] at shown
  | @recovered b _ recovers recovered =>
    rw [← recovered]
    exact recover_shown (recovers.shown shown normal) (recovers.control normal)

end Shown

/-- The control flag is clear at the top of the loop exactly if no hook call that the run survives
sets it. In that case every status that the lexer is shown has a clear flag, and every step is
moved by the tables and by the requests of its own action alone. -/
theorem control_clear_iff_hook_quiet (p : Parser V ε γ) (lexer : Lexer V ε σ) (source : σ)
    (context : γ) :
    ((∀ c, p.Reaches lexer.recording (.start (source, []) context) c →
        c.status.control = .normal) ↔
      p.HookQuiet lexer.recording (.start (source, []) context)) ∧
    (p.HookQuiet lexer.recording (.start (source, []) context) →
      ∀ c, p.Reaches lexer.recording (.start (source, []) context) c →
        ShownNormal (p.step lexer.recording c).config ∧ p.Prompt lexer.recording c) := by
  have clear := control_normal_iff p lexer.recording (.start (source, []) context) rfl
  refine ⟨clear, fun quiet c reached => ?_⟩
  have normal := clear.mpr quiet
  have shown : ShownNormal c := reached.invariant (by simp [ShownNormal, Config.start])
    fun {b b'} reached shown step => by
      have shown := step_shown p lexer shown (normal b reached)
      rwa [step] at shown
  exact ⟨step_shown p lexer shown (normal c reached), prompt_of_normal (normal c reached)⟩

/-- Tables for one symbol that only the error token yields. -/
def placeholderTables : Tables where
  rules := #[⟨"$start", 2, none⟩, ⟨"S", 1, none⟩]
  states := #[
    { actions := some ⟨[(errorToken, .shift 1)]⟩, gotos := ⟨[("S", 2)]⟩ },
    { default := some (.reduce 1) },
    { actions := some ⟨[(endToken, .shift 3)]⟩ },
    { default := some .accept }]

/-- The driver without actions, with a hook that asks for an error. -/
def insistentDriver : Driver Unit Unit Unit :=
  { Driver.plain with onError := fun _ context => { result := (), context, requests := [.error] } }

/-- A driver without a hook of its own keeps the flag clear. -/
theorem placeholder_control_clear :
    HookQuiet ⟨placeholderTables, (Driver.plain : Driver Unit Unit Unit), .none⟩
      LexemeQueue.lexer.recording (.start (⟨[], 0⟩, []) ()) ∧
    ∀ c, Reaches ⟨placeholderTables, (Driver.plain : Driver Unit Unit Unit), .none⟩
      LexemeQueue.lexer.recording (.start (⟨[], 0⟩, []) ()) c → c.status.control = .normal :=
  have quiet := fun _ _ _ _ _ _ _ => rfl
  ⟨quiet, (control_clear_iff_hook_quiet _ _ _ _).1.mpr quiet⟩

/-- The flag that a hook sets outlives the hook: the next reduction, whose rule has no action,
is forced into recovery by it. Without the request the same input is accepted. -/
theorem hook_request_outlives_hook :
    ¬ (∀ c, Reaches ⟨placeholderTables, insistentDriver, .none⟩ LexemeQueue.lexer
      (.start ⟨[], 0⟩ ()) c → c.status.control = .normal) ∧
    (run ⟨placeholderTables, insistentDriver, .none⟩ LexemeQueue.lexer 5 ⟨[], 0⟩ ()).map
      Run.result = some (.ok (.fail .endOfInput)) ∧
    (run ⟨placeholderTables, (Driver.plain : Driver Unit Unit Unit), .none⟩ LexemeQueue.lexer 5
      ⟨[], 0⟩ ()).map Run.result = some (.ok (.accept none)) := by
  refine ⟨fun clear => ?_, rfl, rfl⟩
  have flagged := clear _ (.single rfl)
  contradiction

end ShiftReduce.Parser
