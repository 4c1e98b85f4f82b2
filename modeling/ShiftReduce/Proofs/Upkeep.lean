import ShiftReduce.Proofs.Reach
import ShiftReduce.Proofs.Step

/-! Take a property of values and one of contexts. If lexer and callbacks hand on no value and no
context without them, then no run that begins so comes to lose them. -/

namespace ShiftReduce

variable {V ε γ σ : Type} {P : V → Prop} {Q : γ → Prop}

/-- All values that a configuration holds have the property `P`, and its context has `Q`. -/
structure Config.Sound (P : V → Prop) (Q : γ → Prop) (c : Config V γ σ) : Prop where
  stack : ∀ e ∈ c.stack, ∀ v ∈ e.value, P v
  lookahead : ∀ v ∈ c.status.value, P v
  context : Q c.context

/-- What a callback leaves behind has the properties. -/
structure Reply.Sound {α : Type} (P : V → Prop) (Q : γ → Prop) (reply : Reply V γ α) : Prop where
  context : Q reply.context
  requests : ∀ value, .setValue value ∈ reply.requests → ∀ v ∈ value, P v

structure Driver.Upholds (P : V → Prop) (Q : γ → Prop) (d : Driver V ε γ) : Prop where
  reduce : ∀ rule values view context, (∀ value ∈ values, ∀ v ∈ value, P v) → Q context →
    (d.reduce rule values view context).Sound P Q ∧
      ∀ v, (d.reduce rule values view context).result = .ok (some v) → P v
  onError : ∀ view context, Q context → (d.onError view context).Sound P Q

def Lexer.Upholds (P : V → Prop) (lexer : Lexer V ε σ) : Prop :=
  ∀ status source lexeme, (lexer status source).1 = .ok lexeme → ∀ v ∈ lexeme.value, P v

theorem Status.applyAll_value {s : Status V} {requests : List (Request V)}
    (known : ∀ v ∈ s.value, P v)
    (asked : ∀ value, Request.setValue value ∈ requests → ∀ v ∈ value, P v) :
    ∀ v ∈ (s.applyAll requests).value, P v := by
  induction requests generalizing s with
  | nil => exact known
  | cons request rest ih =>
    refine ih ?_ fun value member => asked value (by simp [member])
    cases request with
    | setValue value => exact asked value (by simp)
    | accept | abort | error | errok | setToken => exact known

namespace Config.Sound

variable {b c d : Config V γ σ}

theorem of_same (sound : c.Sound P Q) (stack : d.stack ⊆ c.stack)
    (lookahead : d.status.value = c.status.value) (context : d.context = c.context) :
    d.Sound P Q where
  stack e member := sound.stack e (stack member)
  lookahead := lookahead ▸ sound.lookahead
  context := context ▸ sound.context

theorem push (sound : c.Sound P Q) (state : Nat) {value : Option V} (known : ∀ v ∈ value, P v) :
    (c.push state value).Sound P Q where
  stack := List.forall_mem_cons.mpr ⟨known, sound.stack⟩
  lookahead := sound.lookahead
  context := sound.context

theorem absorb {α : Type} (sound : c.Sound P Q) {reply : Reply V γ α} (replied : reply.Sound P Q) :
    (c.absorb reply).Sound P Q where
  stack := sound.stack
  lookahead := Status.applyAll_value sound.lookahead replied.requests
  context := replied.context

theorem lastValues (sound : c.Sound P Q) (count : Nat) :
    ∀ value ∈ c.lastValues count, ∀ v ∈ value, P v := by
  intro value member
  obtain ⟨e, taken, rfl⟩ := List.mem_map.mp (List.mem_reverse.mp member)
  exact sound.stack e (List.mem_of_mem_take taken)

end Config.Sound

namespace Parser

variable {p : Parser V ε γ} {lexer : Lexer V ε σ} {b c d : Config V γ σ}

section Lookahead

variable (delivers : lexer.Upholds P) (sound : c.Sound P Q)
include delivers sound

theorem fetch_sound : (p.fetch lexer c).config.Sound P Q := by
  have frame := p.fetch_frame lexer c
  refine ⟨fun e member => ?_, ?_, frame.context ▸ sound.context⟩
  · rw [frame.stack] at member
    exact sound.stack e member
  · have delivered := delivers c.status c.source
    unfold fetch
    cases given : lexer c.status c.source with
    | mk answer source =>
      rw [given] at delivered
      cases answer with
      | error => exact sound.lookahead
      | ok lexeme =>
        simp only [Step.config, Config.emit_status]
        exact delivered lexeme rfl

theorem fetchMissing_sound : (p.fetchMissing lexer c).config.Sound P Q := by
  unfold fetchMissing
  split
  · exact fetch_sound delivers sound
  · exact sound

theorem lookahead_sound (state : State) : (p.lookahead lexer state c).config.Sound P Q := by
  unfold lookahead
  split
  · exact fetchMissing_sound delivers sound
  · exact sound.of_same (by simp [Step.config]) (by simp [Step.config]) (by simp [Step.config])

theorem discard_sound : (p.discard lexer c).config.Sound P Q := by
  unfold discard
  split
  · have fetched := fetchMissing_sound (p := p) delivers sound
    cases missing : p.fetchMissing lexer c with
    | stop result b =>
      rw [missing] at fetched
      exact fetched
    | next b =>
      rw [missing] at fetched
      have fetched : b.Sound P Q := fetched
      rw [Step.andThen_next]
      split
      · exact fetched.of_same (by simp [Step.config]) (by simp [Step.config]) (by simp [Step.config])
      · exact ⟨by simpa [Step.config] using fetched.stack,
          by simp [Step.config, Status.dropToken], by simpa [Step.config] using fetched.context⟩
  · exact sound

theorem performs_sound {action : Option Action} (performs : p.Performs lexer c action b) :
    b.Sound P Q := by
  obtain ⟨top, _, state, _, _, looked, _⟩ := performs
  have frame := p.announced_frame c top.state
  have announced : (p.announced c top.state).Sound P Q :=
    sound.of_same (by simp [frame.stack]) (by simp) frame.context
  have looks := lookahead_sound delivers announced state (p := p)
  rw [looked] at looks
  exact looks

theorem reduces_sound {index : Nat} (reduces : p.Reduces lexer c index b) : b.Sound P Q := by
  rcases reduces with performs | ⟨before, performs, _, rfl⟩
  · exact performs_sound delivers sound performs
  · have before := performs_sound delivers sound performs
    exact before.of_same (List.Subset.refl _) rfl rfl

end Lookahead

theorem shift_sound (sound : c.Sound P Q) (target : Nat) : (p.shift target c).Sound P Q where
  stack := by
    rw [p.shift_stack]
    exact List.forall_mem_cons.mpr ⟨sound.lookahead, sound.stack⟩
  lookahead := by
    rw [p.shift_status, Status.consume]
    split
    · exact sound.lookahead
    · simp [Status.dropToken]
  context := by
    rw [p.shift_context]
    exact sound.context

theorem unwind_sound (sound : c.Sound P Q) (stack : List (Entry V)) (within : stack ⊆ c.stack) :
    (p.unwind (ε := ε) c stack).config.Sound P Q := by
  induction stack generalizing c with
  | nil =>
    unfold unwind
    exact sound.of_same (by simp [Step.config]) (by simp [Step.config]) (by simp [Step.config])
  | cons top rest ih =>
    unfold unwind
    split
    · exact sound.of_same within rfl rfl
    · split
      · next target _ =>
        have kept : (({ c with stack := top :: rest } : Config V γ σ).emit p.flags
            (.errorShift target)).Sound P Q :=
          sound.of_same (by simpa using within) (by simp) (by simp)
        exact kept.push target (by simp)
      · refine ih (sound.of_same (by simp) (by simp) (by simp)) ?_
        simpa using List.Subset.trans (List.subset_cons_self top rest) within

section Callbacks

variable (upholds : p.driver.Upholds P Q) (sound : c.Sound P Q)
include upholds sound

theorem acted_sound (index : Nat) (rule : Rule) : (p.acted index rule c).2.Sound P Q ∧
    ∀ v, (p.acted index rule c).1 = .ok (some v) → P v := by
  have dotted : ({ c with status := { c.status with dot := rule.dot } } : Config V γ σ).Sound P Q :=
    sound.of_same (List.Subset.refl _) rfl rfl
  have values := sound.lastValues rule.dot
  unfold acted evaluate
  split
  · obtain ⟨replied, result⟩ := upholds.reduce index _ _ _ values sound.context
    exact ⟨dotted.absorb replied, result⟩
  · refine ⟨dotted, fun v first => ?_⟩
    have first : firstValue (c.lastValues rule.dot) = some v := Except.ok.inj first
    unfold firstValue at first
    exact values (some v) (List.mem_of_head? (Option.join_eq_some_iff.mp first)) v rfl

theorem told_sound (index : Nat) (rule : Rule) (next : Trace.Aftermath) :
    (p.told index rule c next).Sound P Q :=
  (acted_sound upholds sound index rule).1.of_same
    (by simp [acted_stack, List.drop_subset]) (by simp) (by simp)

theorem reduce_sound (index : Nat) : (p.reduce index c).config.Sound P Q := by
  have cases := p.reduce_cases index c
  generalize p.reduce index c = move at cases
  cases cases with
  | unknownRule | underflow | overflow => exact sound
  | raised => exact (acted_sound upholds sound index _).1
  | accepted | aborted | forced => exact told_sound upholds sound index _ _
  | unknownState | missingGoto =>
    exact (acted_sound upholds sound index _).1.of_same
      (by simp [Move.config, acted_stack, List.drop_subset]) rfl rfl
  | @continued rule value top _ _ target _ result =>
    obtain ⟨_, produced⟩ := acted_sound upholds sound index rule
    have closed : (p.closeBracket (p.told index rule c (.goto top.state target))).Sound P Q :=
      (told_sound upholds sound index rule (.goto top.state target)).of_same (by simp) (by simp)
        (by simp)
    refine closed.push target fun v made => ?_
    obtain rfl := Option.mem_def.mp made
    exact produced v result

theorem report_sound : (p.report c).Sound P Q := by
  have entered : (c.setErrorStatus 1).Sound P Q := sound.of_same (List.Subset.refl _) rfl rfl
  exact entered.absorb (upholds.onError _ _ sound.context)

theorem entered_sound : (p.entered c).Sound P Q := by
  unfold entered
  split
  · exact (report_sound upholds sound).of_same (by simp [enterRecovery]) (by simp [enterRecovery])
      (by simp [enterRecovery])
  · exact sound

theorem recover_sound (delivers : lexer.Upholds P) : (p.recover lexer c).config.Sound P Q := by
  have discarded := discard_sound (p := p) delivers (entered_sound upholds sound)
  have cases := p.recover_cases lexer c
  generalize p.recover lexer c = step at cases
  cases cases with
  | resumed => exact report_sound upholds sound
  | stopped _ discard =>
    rw [discard] at discarded
    exact discarded
  | @unwound b _ _ discard unwound =>
    rw [discard] at discarded
    have kept : (b.setErrorStatus 3).Sound P Q := discarded.of_same (List.Subset.refl _) rfl rfl
    rw [← unwound]
    exact unwind_sound kept _ (List.Subset.refl _)

/-- One step keeps what the callbacks and the lexer keep up. -/
theorem step_sound (delivers : lexer.Upholds P) : (p.step lexer c).config.Sound P Q := by
  have cases := p.step_cases lexer c
  generalize p.step lexer c = step at cases
  cases cases with
  | empty | unknownState => exact sound
  | @unfetched top state _ _ looked =>
    have frame := p.announced_frame c top.state
    have announced : (p.announced c top.state).Sound P Q :=
      sound.of_same (by simp [frame.stack]) (by simp) frame.context
    have looks := lookahead_sound (p := p) delivers announced state
    rw [looked] at looks
    exact looks
  | shifted performs => exact shift_sound (performs_sound delivers sound performs) _
  | @reduced index _ _ reduces reduced | @ended index _ _ _ reduces reduced =>
    have kept := reduce_sound upholds (reduces_sound delivers sound reduces) index
    rw [reduced] at kept
    exact kept
  | recovered recovers recovered =>
    rw [← recovered]
    refine recover_sound upholds ?_ delivers
    rcases recovers with performs | ⟨index, before, reduces, forced⟩
    · exact performs_sound delivers sound performs
    · have kept := reduce_sound upholds (reduces_sound delivers sound reduces) index
      rw [forced] at kept
      exact kept

end Callbacks

/-- So does a run, to its end. -/
theorem run_upholds {steps : Nat} {source : σ} {context : γ} {r : Run V ε γ σ}
    (upholds : p.driver.Upholds P Q) (delivers : lexer.Upholds P)
    (ended : p.run lexer steps source context = some r) (initial : Q context) :
    Q r.final.context := by
  have start : (Config.start source context : Config V γ σ).Sound P Q :=
    ⟨by simp [Config.start], by simp [Config.start], initial⟩
  have final : r.final.Sound P Q := runFrom_invariant (Config.Sound P Q) ended start
    fun _ _ before => step_sound upholds before delivers
  exact final.context

end Parser

end ShiftReduce
