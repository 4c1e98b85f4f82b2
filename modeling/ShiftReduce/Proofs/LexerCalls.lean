import ShiftReduce.Proofs.Consumption

/-! The lexer is called for want of a lookahead: where none is pending and the state on top of the
stack asks for one, or where an error repeats and there is nothing to discard. -/

namespace ShiftReduce

variable {V ε γ σ : Type}

/-- A call of the lexer: what it was shown and what it answered. -/
structure Exchange (V ε : Type) where
  shown : Status V
  answer : Except ε (Lexeme V)

def Exchange.endsInput (call : Exchange V ε) : Bool :=
  match call.answer with
  | .ok lexeme => lexeme.isEnd
  | .error _ => false

namespace Lexer

variable (lexer : Lexer V ε σ)

/-- The same lexer, which also keeps its calls, the latest first. -/
def transcribing : Lexer V ε (σ × List (Exchange V ε)) :=
  fun status source =>
    ((lexer status source.1).1,
      ((lexer status source.1).2, ⟨status, (lexer status source.1).1⟩ :: source.2))

theorem transcribing_projects : lexer.transcribing.Projects lexer Prod.fst := fun _ _ => rfl

end Lexer

/-- The calls of a run, the latest first. None was shown a lookahead, and none but the latest was
answered by the end of the input. -/
structure Disciplined (calls : List (Exchange V ε)) : Prop where
  blank : ∀ call ∈ calls, call.shown.token = none ∧ call.shown.value = none
  unended : ∀ call ∈ calls.tail, call.endsInput = false

theorem Disciplined.nil : Disciplined ([] : List (Exchange V ε)) := ⟨by simp, by simp⟩

theorem Disciplined.ends_once {calls : List (Exchange V ε)} (disciplined : Disciplined calls) :
    calls.countP Exchange.endsInput ≤ 1 := by
  cases calls with
  | nil => simp
  | cons call earlier =>
    have none : earlier.countP Exchange.endsInput = 0 :=
      List.countP_eq_zero.mpr fun call member => by simp [disciplined.unended call member]
    rw [List.countP_cons, none]
    split <;> omega

namespace Parser

section

variable (p : Parser V ε γ) (lexer : Lexer V ε σ)

/-- A lookahead is missing: the state on top of the stack wants one, or an error repeats. -/
inductive Wants : Moment V γ σ → Prop where
  | top {c : Config V γ σ} {top : Entry V} {rest : List (Entry V)} {state : State}
      (stack : c.stack = top :: rest) (found : p.tables.states[top.state]? = some state)
      (needs : state.needsToken = true) (missing : c.status.token = none) : Wants (.top c)
  | entry {b : Config V γ σ} (repeated : b.status.errorStatus = 3)
      (missing : b.status.token = none) : Wants (.entry b)

/-- On the way from a moment, the lexer is called once for want of a lookahead and shown the status
of that moment, or it is not called. -/
def Polls (m : Moment V γ σ) (d : Config V γ σ) : Prop :=
  d.source = m.config.source ∨
    p.Wants m ∧ d.source = (lexer m.config.status m.config.source).2

end

variable {p : Parser V ε γ} {lexer : Lexer V ε σ} {b c d : Config V γ σ} {m m' : Moment V γ σ}
  {acts : List (Act V)}

theorem Wants.missing (wants : p.Wants m) : m.config.status.token = none := by
  cases wants with
  | top _ _ _ missing => exact missing
  | entry _ missing => exact missing

variable (lexer) in
theorem looked_polls {top : Entry V} {rest : List (Entry V)} {state : State}
    (stack : c.stack = top :: rest) (found : p.tables.states[top.state]? = some state) :
    p.Polls lexer (.top c) (p.lookahead lexer state (p.announced c top.state)).config := by
  refine (p.lookahead_source lexer state (p.announced c top.state)).imp ?_ ?_
  · exact fun same => same.trans (p.announced_source c top.state)
  · rintro ⟨needs, missing, called⟩
    rw [announced_status] at missing called
    rw [announced_source] at called
    exact ⟨.top stack found needs missing, called⟩

theorem Performs.polls {action : Option Action} (performs : p.Performs lexer c action b) :
    p.Polls lexer (.top c) b := by
  obtain ⟨top, rest, state, stack, found, looked, _⟩ := performs
  have polls := looked_polls lexer stack found
  rwa [looked] at polls

theorem Reduces.polls {index : Nat} (reduces : p.Reduces lexer c index b) :
    p.Polls lexer (.top c) b := by
  rcases reduces with performs | ⟨before, performs, _, rfl⟩
  · exact performs.polls
  · exact performs.polls

theorem Polls.of_source (polls : p.Polls lexer m b) (same : d.source = b.source) :
    p.Polls lexer m d := by
  unfold Polls
  rw [same]
  exact polls

variable (p lexer) in
theorem recover_polls (b : Config V γ σ) : p.Polls lexer (.entry b) (p.recover lexer b).config :=
  (p.recover_source lexer b).imp id fun ⟨repeated, missing, called⟩ =>
    ⟨.entry repeated missing, called⟩

theorem Goes.polls (goes : p.Goes lexer m acts m') : p.Polls lexer m m'.config := by
  cases goes with
  | shifted performs => exact performs.polls.of_source (p.shift_source _ _)
  | reduced reduces _ reduced => exact reduces.polls.of_source (reduce_leaves (.inl reduced)).1
  | forced reduces _ forced => exact reduces.polls.of_source (reduce_leaves (.inr forced)).1
  | missed performs => exact performs.polls
  | @recovered b _ recovered =>
    have polls := recover_polls p lexer b
    rwa [recovered] at polls

theorem Ends.polls {result : Result V ε} (ends : p.Ends lexer m result d) : p.Polls lexer m d := by
  cases ends with
  | @top c _ _ stopped direct =>
    have cases := p.step_cases lexer c
    rw [stopped] at cases
    cases cases with
    | empty | unknownState => exact .inl rfl
    | @unfetched top state _ b looked _ stack found =>
      have polls := looked_polls lexer stack found
      rwa [looked] at polls
    | @ended index b _ _ reduces reduced =>
      have source := p.reduce_source index b
      rw [reduced] at source
      exact reduces.polls.of_source source
    | recovered recovers => exact absurd recovers (direct _)
  | @entry b _ _ stopped =>
    have polls := recover_polls p lexer b
    rwa [stopped] at polls

/-- What the calls so far say of the lookahead: it is without a value if it is missing, and it is
the end of the input once that was an answer. -/
structure Transcribed (c : Config V γ (σ × List (Exchange V ε))) : Prop where
  bare : c.status.token = none → c.status.value = none
  ended : ∀ call ∈ c.source.2, call.endsInput = true → c.status.atEnd = true
  calls : Disciplined c.source.2

namespace Transcribed

variable {b c d : Config V γ (σ × List (Exchange V ε))} {m : Moment V γ (σ × List (Exchange V ε))}

theorem start (source : σ) (context : γ) :
    Transcribed (.start (source, []) context : Config V γ (σ × List (Exchange V ε))) :=
  ⟨fun _ => rfl, by simp [Config.start], .nil⟩

/-- While no lookahead is pending, the input has not ended. -/
theorem unended (transcribed : Transcribed c) (inside : c.status.atEnd = false) :
    ∀ call ∈ c.source.2, call.endsInput = false := by
  intro call member
  refine Bool.eq_false_iff.mpr fun ends => ?_
  rw [transcribed.ended call member ends] at inside
  contradiction

theorem of_same (transcribed : Transcribed b) (token : d.status.token = b.status.token)
    (value : d.status.value = b.status.value) (source : d.source = b.source) : Transcribed d where
  bare missing := value.trans (transcribed.bare (token.symm.trans missing))
  ended call member ends := by
    rw [source] at member
    rw [Status.atEnd, token]
    exact transcribed.ended call member ends
  calls := by
    rw [source]
    exact transcribed.calls

/-- The lookahead is used up, which the end of the input never is. -/
theorem dropped (transcribed : Transcribed b) (inside : b.status.atEnd = false)
    (value : d.status.value = none) (source : d.source = b.source) : Transcribed d where
  bare _ := value
  ended call member ends := by
    rw [source] at member
    rw [transcribed.unended inside call member] at ends
    contradiction
  calls := by
    rw [source]
    exact transcribed.calls

theorem called (transcribed : Transcribed c) (missing : c.status.token = none)
    (answer : Except ε (Lexeme V)) : Disciplined (⟨c.status, answer⟩ :: c.source.2) where
  blank := List.forall_mem_cons.mpr ⟨⟨missing, transcribed.bare missing⟩, transcribed.calls.blank⟩
  unended := transcribed.unended (by simp [Status.atEnd, missing])

theorem polled (transcribed : Transcribed m.config) (polls : p.Polls lexer.transcribing m d) :
    Disciplined d.source.2 := by
  rcases polls with same | ⟨wants, called⟩
  · rw [same]
    exact transcribed.calls
  · rw [called]
    exact transcribed.called wants.missing _

theorem supplied (transcribed : Transcribed c) (supply : lexer.transcribing.Supply c b) :
    Transcribed b := by
  cases supply with
  | idle token value source => exact transcribed.of_same token value source
  | @delivered lexeme missing answer token value source =>
    have inside : c.status.atEnd = false := by simp [Status.atEnd, missing]
    refine ⟨by simp [token], ?_, ?_⟩
    · rw [source]
      refine List.forall_mem_cons.mpr ⟨fun ends => ?_, fun call member ends => ?_⟩
      · rw [Exchange.endsInput, show (lexer c.status c.source.1).1 = .ok lexeme from answer] at ends
        simpa [Status.atEnd, token, Lexeme.isEnd] using ends
      · rw [transcribed.unended inside call member] at ends
        contradiction
    · rw [source]
      exact transcribed.called missing _

theorem shifted (transcribed : Transcribed b) (target : Nat) :
    Transcribed (p.shift target b) := by
  obtain ⟨token, value⟩ := shift_lookahead (p := p) target b
  cases inside : b.status.atEnd with
  | true =>
    simp only [inside, if_true] at token value
    exact transcribed.of_same token value (p.shift_source target b)
  | false =>
    simp only [inside, Bool.false_eq_true, if_false] at value
    exact transcribed.dropped inside value (p.shift_source target b)

variable (steady : p.driver.Never Request.setsToken) (faithful : p.driver.Never Request.setsValue)
include steady faithful

theorem reduced {index : Nat} (transcribed : Transcribed c)
    (reduces : p.Reduces lexer.transcribing c index b)
    (going : p.reduce index b = .next d ∨ p.reduce index b = .recover d) : Transcribed d :=
  (transcribed.supplied reduces.supply).of_same (reduce_keeps steady Status.token_changedBy going)
    (reduce_keeps faithful Status.value_changedBy going) (reduce_leaves going).1

theorem recovered (transcribed : Transcribed b)
    (recovered : p.recover lexer.transcribing b = .next d) : Transcribed d := by
  by_cases repeated : b.status.errorStatus = 3
  · have consumes := p.recover_consumes lexer.transcribing repeated
    rw [recovered] at consumes
    cases consumes with
    | discarded supply pending inside _ _ value source =>
      rw [← Status.atEnd_of_lookahead pending] at inside
      exact (transcribed.supplied supply).dropped inside value source
  · have kept := p.recover_spares lexer.transcribing repeated
    rw [recovered] at kept
    obtain ⟨token, value, source, _, _⟩ := kept
    exact transcribed.of_same (token.trans (entered_token steady b))
      (value.trans (entered_value faithful b)) source

theorem goes {m' : Moment V γ (σ × List (Exchange V ε))} (transcribed : Transcribed m.config)
    (goes : p.Goes lexer.transcribing m acts m') : Transcribed m'.config := by
  cases goes with
  | shifted performs => exact (transcribed.supplied performs.supply).shifted _
  | reduced reduces _ reduced => exact transcribed.reduced steady faithful reduces (.inl reduced)
  | forced reduces _ forced => exact transcribed.reduced steady faithful reduces (.inr forced)
  | missed performs => exact transcribed.supplied performs.supply
  | recovered recovered => exact transcribed.recovered steady faithful recovered

theorem of_trail {legs : List (Leg V γ (σ × List (Exchange V ε)))} {source : σ} {context : γ}
    (trail : p.Trail lexer.transcribing (.top (.start (source, []) context)) legs m) :
    Transcribed m.config := by
  induction trail with
  | here => exact start source context
  | next _ goes ih => exact ih.goes steady faithful goes

end Transcribed

/-- The lexer is called for want of a lookahead only. A run is the same with a lexer that keeps its
calls. From one moment to the next, and to the end of the run, there is one call at most: none is
pending then, and either the state on top of the stack wants one or an error repeats that has none
to discard. If no callback touches the lookahead, no call is shown a value either, and the first one
that is answered by the end of the input is the last, so that no run is given the end twice. -/
theorem lexer_called_for_want (p : Parser V ε γ) (lexer : Lexer V ε σ) (source : σ) (context : γ) :
    (∀ steps, p.run lexer steps source context =
      (p.run lexer.transcribing steps (source, []) context).map (Run.project id Prod.fst id)) ∧
    (∀ c, p.Reaches lexer (.start source context) c ↔
      ∃ d, p.Reaches lexer.transcribing (.start (source, []) context) d ∧
        c = d.project id Prod.fst id) ∧
    (∀ steps r, p.run lexer.transcribing steps (source, []) context = some r →
      ∃ legs m, p.Trail lexer.transcribing (.top (.start (source, []) context)) legs m ∧
        p.Ends lexer.transcribing m r.result r.final) ∧
    ∀ legs m, p.Trail lexer.transcribing (.top (.start (source, []) context)) legs m →
      (∀ acts m', p.Goes lexer.transcribing m acts m' → p.Polls lexer.transcribing m m'.config) ∧
      (∀ result d, p.Ends lexer.transcribing m result d → p.Polls lexer.transcribing m d) ∧
      (p.driver.Never Request.setsToken → p.driver.Never Request.setsValue →
        Disciplined m.config.source.2 ∧ m.config.source.2.countP Exchange.endsInput ≤ 1 ∧
        ∀ result d, p.Ends lexer.transcribing m result d →
          Disciplined d.source.2 ∧ d.source.2.countP Exchange.endsInput ≤ 1) := by
  have projects : Projects p p id id := .of_driver (.refl p.driver) p.flags
  refine ⟨fun steps => ?_, fun c => ?_, fun steps r => run_trail, fun legs m trail => ⟨?_, ?_, ?_⟩⟩
  · exact projects.runFrom lexer.transcribing_projects steps (.start (source, []) context)
  · exact projects.reaches_iff lexer.transcribing_projects (c := .start (source, []) context)
  · exact fun acts m' goes => goes.polls
  · exact fun result d ends => ends.polls
  · intro steady faithful
    have transcribed := Transcribed.of_trail steady faithful trail
    refine ⟨transcribed.calls, transcribed.calls.ends_once, fun result d ends => ?_⟩
    have calls := transcribed.polled ends.polls
    exact ⟨calls, calls.ends_once⟩

/-- A queue of a stray `b` and an `a` is called three times, and supplies the end of the input once,
although the run shifts it and goes on to reduce. -/
theorem end_supplied_once :
    (Driver.plain : Driver Nat Unit Unit).Never Request.setsToken ∧
    (Driver.plain : Driver Nat Unit Unit).Never Request.setsValue ∧
    ∃ r, listParser.run LexemeQueue.lexer.transcribing 8 (⟨[⟨"b", some 1⟩, ⟨"a", some 2⟩], 0⟩, []) ()
        = some r ∧
      r.final.stats.shifts = 2 ∧ r.final.source.2.length = 3 ∧ Disciplined r.final.source.2 ∧
      r.final.source.2.countP Exchange.endsInput ≤ 1 := by
  obtain ⟨-, -, ended, disciplined⟩ := lexer_called_for_want listParser LexemeQueue.lexer
    ⟨[⟨"b", some 1⟩, ⟨"a", some 2⟩], 0⟩ ()
  obtain ⟨legs, m, trail, ends⟩ := ended 8 _ rfl
  obtain ⟨calls, once⟩ :=
    ((disciplined legs m trail).2.2 (plain_never _) (plain_never _)).2.2 _ _ ends
  exact ⟨plain_never _, plain_never _, _, rfl, rfl, rfl, calls, once⟩

end Parser

end ShiftReduce
