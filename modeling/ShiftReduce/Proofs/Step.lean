import ShiftReduce.Parser.Run

/-! Each operation of the parser, told once: what it leaves alone, and the ways in which it can end.
Properties of runs are read off from here and not from the definitions of the operations. -/

namespace ShiftReduce

variable {V ε γ σ : Type}

def Request.control? : Request V → Option Control
  | .accept => some .accept
  | .abort => some .abort
  | .error => some .error
  | _ => none

/-- The last control flag that was asked for. -/
def lastControl? (requests : List (Request V)) : Option Control :=
  (requests.filterMap Request.control?).getLast?

theorem Status.applyAll_control (s : Status V) (requests : List (Request V)) :
    (s.applyAll requests).control = (lastControl? requests).getD s.control := by
  induction requests generalizing s with
  | nil => rfl
  | cons request rest ih =>
    rw [Status.applyAll_cons, ih]
    cases request <;> simp [lastControl?, Request.control?, Status.apply, List.getLast?_cons]

theorem Status.applyAll_errorStatus (s : Status V) (requests : List (Request V)) :
    (s.applyAll requests).errorStatus = s.errorStatus ∨ (s.applyAll requests).errorStatus = 0 := by
  induction requests generalizing s with
  | nil => exact .inl rfl
  | cons request rest ih =>
    rw [Status.applyAll_cons]
    cases request with
    | errok => exact .inr ((ih _).elim id id)
    | accept | abort | error | setToken | setValue => exact ih _

theorem Status.consume_control (s : Status V) : s.consume.control = s.control := by
  unfold Status.consume
  split <;> rfl

theorem Control.ne_normal_of_lastControl? {requests : List (Request V)} {control : Control}
    (last : lastControl? requests = some control) : control ≠ .normal := by
  obtain ⟨request, _, asked⟩ := List.mem_filterMap.mp (List.mem_of_getLast? last)
  cases request <;> simp only [Request.control?, Option.some.injEq, reduceCtorEq] at asked <;>
    subst asked <;> decide

namespace Config

variable (c : Config V γ σ)

@[simp] theorem push_stack (state : Nat) (value : Option V) :
    (c.push state value).stack = ⟨state, value⟩ :: c.stack := rfl

@[simp] theorem push_status (state : Nat) (value : Option V) :
    (c.push state value).status = c.status := rfl

@[simp] theorem setControl_stack (control : Control) :
    (c.setControl control).stack = c.stack := rfl

@[simp] theorem setErrorStatus_control (n : Nat) :
    (c.setErrorStatus n).status.control = c.status.control := rfl

@[simp] theorem emitStack_status (flags : Trace.Flags) :
    (c.emitStack flags).status = c.status := by
  simp [emitStack_eq]

/-- Between the two configurations a lookahead may have been fetched, and nothing else was done
than to record events. -/
structure Fetch (c b : Config V γ σ) : Prop where
  stack : b.stack = c.stack
  control : b.status.control = c.status.control
  errorStatus : b.status.errorStatus = c.status.errorStatus
  context : b.context = c.context
  stats : b.stats = { c.stats with tokens := b.stats.tokens }

theorem Fetch.refl : Fetch c c := ⟨rfl, rfl, rfl, rfl, rfl⟩

theorem Fetch.trans {c b d : Config V γ σ} (first : Fetch c b) (second : Fetch b d) :
    Fetch c d where
  stack := second.stack.trans first.stack
  control := second.control.trans first.control
  errorStatus := second.errorStatus.trans first.errorStatus
  context := second.context.trans first.context
  stats := by rw [second.stats, first.stats]

theorem emit_fetch (flags : Trace.Flags) (event : Trace.Event) : Fetch c (c.emit flags event) := by
  constructor <;> simp

/-- A token may have been fetched, too, and thrown away. -/
structure Discard (c b : Config V γ σ) : Prop where
  stack : b.stack = c.stack
  control : b.status.control = c.status.control
  context : b.context = c.context
  stats : b.stats = { c.stats with tokens := b.stats.tokens, discarded := b.stats.discarded }

theorem Fetch.discard {c b : Config V γ σ} (frame : Fetch c b) : Discard c b where
  stack := frame.stack
  control := frame.control
  context := frame.context
  stats := by rw [frame.stats]

end Config

def Move.config : Move V ε γ σ → Config V γ σ
  | .next c => c
  | .recover c => c
  | .stop _ c => c

open Config

namespace Parser

variable (p : Parser V ε γ) (lexer : Lexer V ε σ)

theorem fetch_frame (c : Config V γ σ) : Fetch c (p.fetch lexer c).config := by
  unfold fetch
  split
  · exact ⟨rfl, rfl, rfl, rfl, rfl⟩
  · constructor <;> simp [Step.config]

theorem fetch_stop {c b : Config V γ σ} {result : Result V ε}
    (stopped : p.fetch lexer c = .stop result b) : ∃ e, result = .error (.lexer e) := by
  unfold fetch at stopped
  split at stopped
  · next e _ _ =>
    cases stopped
    exact ⟨e, rfl⟩
  · contradiction

theorem fetchMissing_frame (c : Config V γ σ) : Fetch c (p.fetchMissing lexer c).config := by
  unfold fetchMissing
  split
  · exact p.fetch_frame lexer c
  · exact Fetch.refl c

theorem fetchMissing_stop {c b : Config V γ σ} {result : Result V ε}
    (stopped : p.fetchMissing lexer c = .stop result b) : ∃ e, result = .error (.lexer e) := by
  unfold fetchMissing at stopped
  split at stopped
  · exact p.fetch_stop lexer stopped
  · contradiction

theorem lookahead_frame (state : State) (c : Config V γ σ) :
    Fetch c (p.lookahead lexer state c).config := by
  unfold lookahead
  split
  · exact p.fetchMissing_frame lexer c
  · exact emit_fetch c _ _

theorem lookahead_stop {state : State} {c b : Config V γ σ} {result : Result V ε}
    (stopped : p.lookahead lexer state c = .stop result b) : ∃ e, result = .error (.lexer e) := by
  unfold lookahead at stopped
  split at stopped
  · exact p.fetchMissing_stop lexer stopped
  · contradiction

@[simp] theorem closeBracket_stack (c : Config V γ σ) : (p.closeBracket c).stack = c.stack := by
  unfold closeBracket; split <;> simp

@[simp] theorem closeBracket_source (c : Config V γ σ) : (p.closeBracket c).source = c.source := by
  unfold closeBracket; split <;> simp

@[simp] theorem closeBracket_context (c : Config V γ σ) :
    (p.closeBracket c).context = c.context := by
  unfold closeBracket; split <;> simp

@[simp] theorem closeBracket_stats (c : Config V γ σ) : (p.closeBracket c).stats = c.stats := by
  unfold closeBracket; split <;> simp

@[simp] theorem closeBracket_status (c : Config V γ σ) : (p.closeBracket c).status = c.status := by
  unfold closeBracket; split <;> simp

theorem shift_stack (target : Nat) (c : Config V γ σ) :
    (p.shift target c).stack = ⟨target, c.status.value⟩ :: c.stack := by
  unfold shift
  dsimp only
  split <;> simp [setErrorStatus]

theorem shift_control (target : Nat) (c : Config V γ σ) :
    (p.shift target c).status.control = c.status.control := by
  unfold shift
  dsimp only
  split <;> simp [Status.consume_control]

theorem shift_status (target : Nat) (c : Config V γ σ) : (p.shift target c).status =
    ({ c.status with errorStatus := c.status.errorStatus - 1 } : Status V).consume := by
  unfold shift
  dsimp only
  split
  · simp [setErrorStatus]
  · next zero =>
    have same : c.status.errorStatus - 1 = c.status.errorStatus := by simp at zero; omega
    simp [same]

theorem shift_context (target : Nat) (c : Config V γ σ) :
    (p.shift target c).context = c.context := by
  unfold shift
  dsimp only
  split <;> simp [setErrorStatus, push]

theorem shift_stats (target : Nat) (c : Config V γ σ) :
    (p.shift target c).stats = { c.stats with shifts := c.stats.shifts + 1 } := by
  unfold shift
  dsimp only
  split <;> simp [setErrorStatus, push]

theorem shift_source (target : Nat) (c : Config V γ σ) : (p.shift target c).source = c.source := by
  unfold shift
  dsimp only
  split <;> simp [setErrorStatus, push]

section Reduction

variable (index : Nat) (rule : Rule) (c : Config V γ σ)

/-- The result of the action and the configuration that it leaves, its entries not yet popped. -/
def acted : Except ε (Option V) × Config V γ σ :=
  p.evaluate index (c.lastValues rule.dot) { c with status := { c.status with dot := rule.dot } }

def reply : Reply V γ (Except ε (Option V)) :=
  p.driver.reduce index (c.lastValues rule.dot)
    (({ c with status := { c.status with dot := rule.dot } } : Config V γ σ).view p.tables index)
    c.context

def asked : Option Control :=
  if p.driver.hasAction index then lastControl? (p.reply index rule c).requests else none

/-- The entries of the rule are popped and the control flag is cleared. -/
def popped : Config V γ σ :=
  let c := (p.acted index rule c).2
  ({ c with
    stack := c.stack.drop rule.length
    stats.reductions := c.stats.reductions + 1 } : Config V γ σ).setControl .normal

def told (next : Trace.Aftermath) : Config V γ σ :=
  (p.popped index rule c).emit p.flags (.reduced index rule.lhs rule.length next)

theorem acted_stack : (p.acted index rule c).2.stack = c.stack := by
  unfold acted evaluate
  split <;> rfl

/-- The flag that a reduction acts on: what its action asked for last, or else the flag that it
was entered with. -/
theorem acted_control : (p.acted index rule c).2.status.control =
    (p.asked index rule c).getD c.status.control := by
  unfold acted asked evaluate
  split
  · exact Status.applyAll_control _ _
  · rfl

theorem acted_source : (p.acted index rule c).2.source = c.source := by
  unfold acted evaluate
  split <;> rfl

theorem acted_stats : (p.acted index rule c).2.stats = c.stats := by
  unfold acted evaluate
  split <;> rfl

@[simp] theorem popped_stack : (p.popped index rule c).stack = c.stack.drop rule.length := by
  simp [popped, acted_stack]

@[simp] theorem popped_control : (p.popped index rule c).status.control = .normal := rfl

@[simp] theorem told_stack (next : Trace.Aftermath) :
    (p.told index rule c next).stack = c.stack.drop rule.length := by
  simp [told]

@[simp] theorem told_control (next : Trace.Aftermath) :
    (p.told index rule c next).status.control = .normal := by
  simp [told]

@[simp] theorem told_status (next : Trace.Aftermath) : (p.told index rule c next).status =
    { (p.acted index rule c).2.status with control := .normal } := by
  simp [told, popped, setControl]

@[simp] theorem told_context (next : Trace.Aftermath) :
    (p.told index rule c next).context = (p.acted index rule c).2.context := by
  simp [told, popped, setControl]

@[simp] theorem told_stats (next : Trace.Aftermath) :
    (p.told index rule c next).stats = { c.stats with reductions := c.stats.reductions + 1 } := by
  simp [told, popped, setControl, acted_stats]

@[simp] theorem told_source (next : Trace.Aftermath) :
    (p.told index rule c next).source = c.source := by
  simp [told, popped, setControl, acted_source]

structure Ready : Prop where
  found : p.tables.rules[index]? = some rule
  dot_le : rule.dot ≤ c.stack.length
  length_lt : rule.length < c.stack.length

variable {p index rule c} in
theorem Ready.of_high (found : p.tables.rules[index]? = some rule)
    (high : ¬ rule.exceeds c.stack.length) : p.Ready index rule c := by
  rw [Rule.exceeds_iff] at high
  exact ⟨found, by omega, by omega⟩

variable {p index rule c} in
theorem Ready.of_whole (found : p.tables.rules[index]? = some rule) (whole : rule.marker = none)
    (length_lt : rule.length < c.stack.length) : p.Ready index rule c := by
  refine ⟨found, ?_, length_lt⟩
  rw [Rule.dot, whole]
  exact Nat.le_of_lt length_lt

variable {p index rule c} in
theorem Ready.high (ready : p.Ready index rule c) : ¬ rule.exceeds c.stack.length := by
  have dot_le := ready.dot_le
  have length_lt := ready.length_lt
  rw [Rule.exceeds_iff]
  omega

inductive Reduction (index : Nat) (c : Config V γ σ) : Move V ε γ σ → Prop where
  | unknownRule (missing : p.tables.rules[index]? = none) :
      Reduction index c (.stop (.error (.defect (.unknownRule index))) c)
  | underflow {rule : Rule} {needed : Nat} (found : p.tables.rules[index]? = some rule)
      (low : rule.exceeds c.stack.length) (told : rule.needed? = some needed) :
      Reduction index c (.stop (.error (.stackUnderflow index needed c.stack.length)) c)
  | overflow {rule : Rule} (found : p.tables.rules[index]? = some rule)
      (low : rule.exceeds c.stack.length) (untold : rule.needed? = none) :
      Reduction index c (.stop (.error .overflow) c)
  | raised {rule : Rule} {e : ε} (ready : p.Ready index rule c)
      (result : (p.acted index rule c).1 = .error e) :
      Reduction index c (.stop (.error (.action index e)) (p.acted index rule c).2)
  | accepted {rule : Rule} {value : Option V} (ready : p.Ready index rule c)
      (result : (p.acted index rule c).1 = .ok value)
      (control : (p.acted index rule c).2.status.control = .accept) :
      Reduction index c (.stop (.ok (.accept value)) (p.told index rule c .accept))
  | aborted {rule : Rule} {value : Option V} (ready : p.Ready index rule c)
      (result : (p.acted index rule c).1 = .ok value)
      (control : (p.acted index rule c).2.status.control = .abort) :
      Reduction index c (.stop (.ok .abort) (p.told index rule c .abort))
  | forced {rule : Rule} {value : Option V} {uncovered : Nat} (ready : p.Ready index rule c)
      (result : (p.acted index rule c).1 = .ok value)
      (control : (p.acted index rule c).2.status.control = .error) :
      Reduction index c (.recover (p.told index rule c (.recover uncovered)))
  | unknownState {rule : Rule} {value : Option V} {top : Entry V} {rest : List (Entry V)}
      (ready : p.Ready index rule c) (result : (p.acted index rule c).1 = .ok value)
      (control : (p.acted index rule c).2.status.control = .normal)
      (uncovered : c.stack.drop rule.length = top :: rest)
      (missing : p.tables.states[top.state]? = none) :
      Reduction index c (.stop (.error (.defect (.unknownState top.state))) (p.popped index rule c))
  | missingGoto {rule : Rule} {value : Option V} {top : Entry V} {rest : List (Entry V)}
      {state : State} (ready : p.Ready index rule c)
      (result : (p.acted index rule c).1 = .ok value)
      (control : (p.acted index rule c).2.status.control = .normal)
      (uncovered : c.stack.drop rule.length = top :: rest)
      (found : p.tables.states[top.state]? = some state) (absent : state.goto? rule.lhs = none) :
      Reduction index c (.stop (.error (.missingGoto top.state rule.lhs)) (p.popped index rule c))
  | continued {rule : Rule} {value : Option V} {top : Entry V} {rest : List (Entry V)}
      {state : State} {target : Nat} (ready : p.Ready index rule c)
      (result : (p.acted index rule c).1 = .ok value)
      (control : (p.acted index rule c).2.status.control = .normal)
      (uncovered : c.stack.drop rule.length = top :: rest)
      (found : p.tables.states[top.state]? = some state)
      (goes : state.goto? rule.lhs = some target) :
      Reduction index c
        (.next ((p.closeBracket (p.told index rule c (.goto top.state target))).push target value))

variable {p index rule c} in
/-- Nothing is done on a stack that is too low, whatever the driver is. -/
theorem reduce_too_low (found : p.tables.rules[index]? = some rule)
    (low : rule.exceeds c.stack.length) :
    p.reduce index c = .stop (.error (.tooLow index rule.needed? c.stack.length)) c := by
  simp only [reduce, Tables.rule, found, low, if_true]

variable {index rule c} in
theorem reduce_raises {e : ε} (ready : p.Ready index rule c)
    (result : (p.acted index rule c).1 = .error e) :
    p.reduce index c = .stop (.error (.action index e)) (p.acted index rule c).2 := by
  have pair : p.acted index rule c = (.error e, (p.acted index rule c).2) := Prod.ext result rfl
  unfold acted at pair
  simp only [reduce, Tables.rule, ready.found, ready.high]
  exact pair ▸ rfl

variable {index rule c} in
/-- A reduction that can be made runs the action and settles what comes of it. -/
theorem reduce_settles {value : Option V} (ready : p.Ready index rule c)
    (result : (p.acted index rule c).1 = .ok value) : p.reduce index c =
      p.settle index rule value c.stack.length (p.acted index rule c).2 := by
  have pair : p.acted index rule c = (.ok value, (p.acted index rule c).2) := Prod.ext result rfl
  unfold acted at pair
  simp only [reduce, Tables.rule, ready.found, ready.high]
  exact pair ▸ rfl

variable {index rule c} in
/-- A reduction that nothing is asked of pops its entries and looks for a goto. -/
theorem reduce_goes {value : Option V} (ready : p.Ready index rule c)
    (result : (p.acted index rule c).1 = .ok value)
    (control : (p.acted index rule c).2.status.control = .normal) :
    p.reduce index c = p.goto index rule value c.stack.length (p.popped index rule c) := by
  rw [p.reduce_settles ready result]
  simp only [settle, control]
  rfl

variable {index rule c} in
theorem reduce_continues {value : Option V} {top : Entry V} {rest : List (Entry V)} {state : State}
    {target : Nat} (ready : p.Ready index rule c) (result : (p.acted index rule c).1 = .ok value)
    (control : (p.acted index rule c).2.status.control = .normal)
    (uncovered : c.stack.drop rule.length = top :: rest)
    (found : p.tables.states[top.state]? = some state)
    (goes : state.goto? rule.lhs = some target) : p.reduce index c =
      .next ((p.closeBracket (p.told index rule c (.goto top.state target))).push target value) := by
  rw [p.reduce_goes ready result control]
  simp only [goto, popped_stack, uncovered, Tables.state, found, goes]
  rfl

variable {index rule c} in
theorem reduce_accepts {value : Option V} (ready : p.Ready index rule c)
    (result : (p.acted index rule c).1 = .ok value)
    (control : (p.acted index rule c).2.status.control = .accept) :
    p.reduce index c = .stop (.ok (.accept value)) (p.told index rule c .accept) := by
  rw [p.reduce_settles ready result]
  simp only [settle, control]
  rfl

variable {index rule c} in
theorem reduce_forces {value : Option V} (ready : p.Ready index rule c)
    (result : (p.acted index rule c).1 = .ok value)
    (control : (p.acted index rule c).2.status.control = .error) :
    ∃ uncovered, p.reduce index c = .recover (p.told index rule c (.recover uncovered)) := by
  rw [p.reduce_settles ready result]
  simp only [settle, control]
  exact ⟨_, rfl⟩

/-- Every reduction ends in one of these ways; the stack is never empty behind one. -/
theorem reduce_cases : p.Reduction index c (p.reduce index c) := by
  cases found : p.tables.rules[index]? with
  | none =>
    simp only [reduce, Tables.rule, found]
    exact .unknownRule found
  | some rule =>
    by_cases low : rule.exceeds c.stack.length
    · rw [reduce_too_low found low]
      cases told : rule.needed? with
      | some needed => exact .underflow found low told
      | none => exact .overflow found low told
    have ready := Ready.of_high found low
    cases result : (p.acted index rule c).1 with
    | error e =>
      rw [p.reduce_raises ready result]
      exact .raised ready result
    | ok value =>
      cases control : (p.acted index rule c).2.status.control with
      | accept =>
        rw [p.reduce_accepts ready result control]
        exact .accepted ready result control
      | abort =>
        rw [p.reduce_settles ready result]
        simp only [settle, control]
        exact .aborted ready result control
      | error =>
        obtain ⟨uncovered, forced⟩ := p.reduce_forces ready result control
        rw [forced]
        exact .forced ready result control
      | normal =>
        obtain ⟨top, rest, uncovered⟩ : ∃ top rest, c.stack.drop rule.length = top :: rest := by
          apply List.exists_cons_of_ne_nil
          have height := ready.length_lt
          simpa using height
        cases found : p.tables.states[top.state]? with
        | none =>
          rw [p.reduce_goes ready result control]
          simp only [goto, popped_stack, uncovered, Tables.state, found]
          exact .unknownState ready result control uncovered found
        | some state =>
          cases goes : state.goto? rule.lhs with
          | none =>
            rw [p.reduce_goes ready result control]
            simp only [goto, popped_stack, uncovered, Tables.state, found, goes]
            exact .missingGoto ready result control uncovered found goes
          | some target =>
            rw [p.reduce_continues ready result control uncovered found goes]
            exact .continued ready result control uncovered found goes

end Reduction

section Recovery

def hookReply (c : Config V γ σ) : Reply V γ Unit :=
  p.driver.onError ((c.setErrorStatus 1).view p.tables none) c.context

@[simp] theorem report_stack (c : Config V γ σ) : (p.report c).stack = c.stack := rfl

theorem report_control (c : Config V γ σ) : (p.report c).status.control =
    (lastControl? (p.hookReply c).requests).getD c.status.control :=
  Status.applyAll_control _ _

/-- Recovery is entered by telling of the error, unless one was told of before. -/
def entered (c : Config V γ σ) : Config V γ σ :=
  if c.status.errorStatus = 0 then p.enterRecovery (p.report c) else c

@[simp] theorem entered_stack (c : Config V γ σ) : (p.entered c).stack = c.stack := by
  unfold entered
  split <;> simp [enterRecovery]

theorem entered_control (c : Config V γ σ) : (p.entered c).status.control =
    (if c.status.errorStatus = 0 then lastControl? (p.hookReply c).requests
      else none).getD c.status.control := by
  unfold entered
  split
  · simpa [enterRecovery] using p.report_control c
  · rfl

theorem discard_frame (c : Config V γ σ) : Discard c (p.discard lexer c).config := by
  unfold discard
  split
  · have frame := p.fetchMissing_frame lexer c
    cases fetched : p.fetchMissing lexer c with
    | stop result b =>
      rw [fetched] at frame
      exact frame.discard
    | next b =>
      rw [fetched] at frame
      have frame : Fetch c b := frame
      simp only [Step.andThen_next]
      split
      · exact (frame.trans (emit_fetch b _ _)).discard
      · constructor
        · simpa [Step.config] using frame.stack
        · simpa [Step.config, Status.dropToken] using frame.control
        · simpa [Step.config] using frame.context
        · simp only [Step.config, emit_stats]
          rw [frame.stats]
  · exact ⟨rfl, rfl, rfl, rfl⟩

theorem discard_stop {c b : Config V γ σ} {result : Result V ε}
    (stopped : p.discard lexer c = .stop result b) :
    result = .ok (.fail .endOfInput) ∨ ∃ e, result = .error (.lexer e) := by
  unfold discard at stopped
  split at stopped
  · cases fetched : p.fetchMissing lexer c with
    | stop result' b' =>
      rw [fetched] at stopped
      cases stopped
      exact .inr (p.fetchMissing_stop lexer fetched)
    | next b' =>
      simp only [fetched, Step.andThen_next] at stopped
      split at stopped
      · cases stopped
        exact .inl rfl
      · contradiction
  · contradiction

def Lacks (e : Entry V) : Prop :=
  ∃ state, p.tables.states[e.state]? = some state ∧ state.errorShift? = none

theorem unwind_context (c : Config V γ σ) (stack : List (Entry V)) :
    (p.unwind (ε := ε) c stack).config.context = c.context := by
  induction stack generalizing c with
  | nil => simp [unwind, Step.config]
  | cons top rest ih =>
    unfold unwind
    split
    · rfl
    · split
      · simp [Step.config, push]
      · simp [ih]

theorem unwind_status (c : Config V γ σ) (stack : List (Entry V)) :
    (p.unwind (ε := ε) c stack).config.status = c.status := by
  induction stack generalizing c with
  | nil => simp [unwind, Step.config]
  | cons top rest ih =>
    unfold unwind
    split
    · rfl
    · split
      · simp [Step.config]
      · simp [ih]

theorem unwind_stats (c : Config V γ σ) (stack : List (Entry V)) :
    (p.unwind (ε := ε) c stack).config.stats =
      { c.stats with popped := (p.unwind (ε := ε) c stack).config.stats.popped } := by
  induction stack generalizing c with
  | nil => simp [unwind, Step.config]
  | cons top rest ih =>
    unfold unwind
    split
    · rfl
    · split
      · simp [Step.config, push]
      · dsimp only
        rw [ih]
        simp

theorem unwind_append (above rest : List (Entry V)) (lacking : ∀ e ∈ above, p.Lacks e)
    (c : Config V γ σ) : ∃ d : Config V γ σ, p.unwind c (above ++ rest) = p.unwind d rest ∧
      d.status = c.status ∧ d.context = c.context ∧ d.source = c.source ∧
      d.stats = { c.stats with popped := c.stats.popped + above.length } := by
  induction above generalizing c with
  | nil => exact ⟨c, rfl, rfl, rfl, rfl, rfl⟩
  | cons top above ih =>
    obtain ⟨state, found, shiftless⟩ := lacking top (by simp)
    obtain ⟨d, same, status, context, source, stats⟩ :=
      ih (fun e inside => lacking e (by simp [inside]))
      { c.emit p.flags (.popped top.state) with
        stats.popped := (c.emit p.flags (.popped top.state)).stats.popped + 1 }
    refine ⟨d, ?_, by simpa using status, by simpa using context, by simpa using source, ?_⟩
    · rw [← same]
      simp [unwind, Tables.state, found, shiftless]
    · simp only [stats, emit_stats, List.length_cons]
      congr 1
      omega

/-- The first entry from the top that shifts the error token has it pushed on itself. -/
theorem unwind_shift {above : List (Entry V)} {top : Entry V} {state : State} {target : Nat}
    (lacking : ∀ e ∈ above, p.Lacks e) (found : p.tables.states[top.state]? = some state)
    (shifts : state.errorShift? = some target) (rest : List (Entry V)) (c : Config V γ σ) :
    ∃ d : Config V γ σ, p.unwind c (above ++ top :: rest) = .next d ∧
      d.stack = ⟨target, none⟩ :: top :: rest ∧ d.status = c.status ∧ d.context = c.context ∧
      d.source = c.source ∧
      d.stats = { c.stats with popped := c.stats.popped + above.length } := by
  obtain ⟨d, same, status, context, source, stats⟩ :=
    p.unwind_append above (top :: rest) lacking c
  rw [same]
  simp only [unwind, Tables.state, found, shifts]
  exact ⟨_, rfl, by simp [push], by simpa [push] using status, by simpa [push] using context,
    by simpa [push] using source, by simpa [push] using stats⟩

/-- Seen from the top, the states of a stack lack the error shift until one has it, is unknown,
or the stack ends. -/
theorem lacking_split (stack : List (Entry V)) : ∃ above rest, stack = above ++ rest ∧
    (∀ e ∈ above, p.Lacks e) ∧ ∀ top below, rest = top :: below →
      ∀ state, p.tables.states[top.state]? = some state →
        ∃ target, state.errorShift? = some target := by
  induction stack with
  | nil => exact ⟨[], [], rfl, by simp, by simp⟩
  | cons top below ih =>
    by_cases lacks : p.Lacks top
    · obtain ⟨above, rest, rfl, lacking, next⟩ := ih
      exact ⟨top :: above, rest, rfl, by simpa [lacks] using lacking, next⟩
    · refine ⟨[], top :: below, rfl, by simp, ?_⟩
      rintro _ _ ⟨⟩ state found
      cases shifts : state.errorShift? with
      | none => exact absurd ⟨state, found, shifts⟩ lacks
      | some target => exact ⟨target, rfl⟩

inductive Unwinding (c : Config V γ σ) (stack : List (Entry V)) : Step V ε γ σ → Prop where
  | shifted {above rest : List (Entry V)} {top : Entry V} {state : State} {target : Nat}
      {d : Config V γ σ} (split : stack = above ++ top :: rest)
      (lacking : ∀ e ∈ above, p.Lacks e) (found : p.tables.states[top.state]? = some state)
      (shifts : state.errorShift? = some target) (stack_eq : d.stack = ⟨target, none⟩ :: top :: rest)
      (status : d.status = c.status)
      (stats : d.stats = { c.stats with popped := c.stats.popped + above.length }) :
      Unwinding c stack (.next d)
  | exhausted {d : Config V γ σ} (lacking : ∀ e ∈ stack, p.Lacks e) (stack_eq : d.stack = [])
      (status : d.status = c.status)
      (stats : d.stats = { c.stats with popped := c.stats.popped + stack.length }) :
      Unwinding c stack (.stop (.ok (.fail .stackExhausted)) d)
  | unknownState {top : Entry V} {d : Config V γ σ} (member : top ∈ stack)
      (missing : p.tables.states[top.state]? = none) (status : d.status = c.status) :
      Unwinding c stack (.stop (.error (.defect (.unknownState top.state))) d)

theorem unwind_cases (c : Config V γ σ) (stack : List (Entry V)) :
    p.Unwinding c stack (p.unwind c stack) := by
  obtain ⟨above, rest, rfl, lacking, next⟩ := p.lacking_split stack
  cases rest with
  | nil =>
    obtain ⟨d, same, status, _, _, stats⟩ := p.unwind_append above [] lacking c
    rw [same]
    exact .exhausted (by simpa using lacking) (by simp) (by simpa using status)
      (by simpa using stats)
  | cons top rest =>
    cases found : p.tables.states[top.state]? with
    | none =>
      obtain ⟨d, same, status, _⟩ := p.unwind_append above (top :: rest) lacking c
      rw [same]
      simp only [unwind, Tables.state, found]
      exact .unknownState (by simp) found status
    | some state =>
      obtain ⟨target, shifts⟩ := next top rest rfl state found
      obtain ⟨d, same, stack_eq, status, _, _, stats⟩ := p.unwind_shift lacking found shifts rest c
      rw [same]
      exact .shifted rfl lacking found shifts stack_eq status stats

inductive Recovery (c : Config V γ σ) : Step V ε γ σ → Prop where
  | resumed (fresh : c.status.errorStatus = 0) (cleared : (p.report c).status.errorStatus = 0) :
      Recovery c (.next (p.report c))
  | stopped {result : Result V ε} {b : Config V γ σ}
      (uncleared : c.status.errorStatus = 0 → (p.report c).status.errorStatus ≠ 0)
      (discard : p.discard lexer (p.entered c) = .stop result b) : Recovery c (.stop result b)
  | unwound {b : Config V γ σ} {step : Step V ε γ σ}
      (uncleared : c.status.errorStatus = 0 → (p.report c).status.errorStatus ≠ 0)
      (discard : p.discard lexer (p.entered c) = .next b)
      (unwound : p.unwind (b.setErrorStatus 3) b.stack = step) : Recovery c step

theorem resynchronize_entered {c : Config V γ σ}
    (uncleared : c.status.errorStatus = 0 → (p.report c).status.errorStatus ≠ 0) :
    p.Recovery lexer c (p.resynchronize lexer (p.entered c)) := by
  unfold resynchronize
  cases discard : p.discard lexer (p.entered c) with
  | stop result b => exact .stopped uncleared discard
  | next b => exact .unwound uncleared discard rfl

theorem recover_cases (c : Config V γ σ) : p.Recovery lexer c (p.recover lexer c) := by
  unfold recover
  split
  · next fresh =>
    dsimp only
    split
    · next cleared => exact .resumed fresh cleared
    · next uncleared =>
      simpa [entered, fresh] using p.resynchronize_entered lexer (c := c) (fun _ => uncleared)
  · next repeated =>
    simpa [entered, repeated] using
      p.resynchronize_entered lexer (c := c) (fun fresh => absurd fresh repeated)

theorem entered_context (c : Config V γ σ) : (p.entered c).context =
    if c.status.errorStatus = 0 then (p.hookReply c).context else c.context := by
  unfold entered
  split
  · simp [enterRecovery, report, absorb, hookReply, setErrorStatus]
  · rfl

/-- Of all that recovery calls, only the hook touches the context. -/
theorem recover_context (c : Config V γ σ) : (p.recover lexer c).config.context =
    if c.status.errorStatus = 0 then (p.hookReply c).context else c.context := by
  have discarded := (p.discard_frame lexer (p.entered c)).context
  rw [entered_context] at discarded
  have cases := p.recover_cases lexer c
  generalize p.recover lexer c = step at cases
  cases cases with
  | resumed fresh =>
    rw [if_pos fresh]
    rfl
  | stopped _ discard =>
    rw [discard] at discarded
    exact discarded
  | unwound _ discard unwound =>
    rw [discard] at discarded
    rw [← unwound, unwind_context]
    exact discarded

theorem entered_stats (c : Config V γ σ) :
    (p.entered c).stats = { c.stats with errors := (p.entered c).stats.errors } := by
  unfold entered
  split
  · simp [enterRecovery, report, absorb, setErrorStatus]
  · rfl

theorem entered_errors (c : Config V γ σ) : (p.entered c).stats.errors =
    c.stats.errors + if c.status.errorStatus = 0 then 1 else 0 := by
  unfold entered
  split
  · simp [enterRecovery, report, absorb, setErrorStatus]
  · rfl

/-- Recovery shifts nothing but the error token, which is not counted. -/
theorem recover_shifts (c : Config V γ σ) :
    (p.recover lexer c).config.stats.shifts = c.stats.shifts := by
  have entered : (p.entered c).stats.shifts = c.stats.shifts := by rw [entered_stats]
  have discarded : (p.discard lexer (p.entered c)).config.stats.shifts = c.stats.shifts := by
    rw [(p.discard_frame lexer (p.entered c)).stats, entered]
  have cases := p.recover_cases lexer c
  generalize p.recover lexer c = step at cases
  cases cases with
  | resumed => rfl
  | stopped _ discard => rwa [discard] at discarded
  | unwound _ discard unwound =>
    rw [discard] at discarded
    rw [← unwound, unwind_stats]
    exact discarded

/-- Recovery counts an error that the hook is told of and does not clear. -/
theorem recover_errors (c : Config V γ σ) : (p.recover lexer c).config.stats.errors =
    c.stats.errors +
      if c.status.errorStatus = 0 ∧ (p.report c).status.errorStatus ≠ 0 then 1 else 0 := by
  have counted := p.entered_errors c
  have discarded := congrArg Stats.errors (p.discard_frame lexer (p.entered c)).stats
  have cases := p.recover_cases lexer c
  generalize p.recover lexer c = step at cases
  have uncounted (uncleared : c.status.errorStatus = 0 → (p.report c).status.errorStatus ≠ 0) :
      (c.status.errorStatus = 0 ∧ (p.report c).status.errorStatus ≠ 0) ↔ c.status.errorStatus = 0 :=
    ⟨And.left, fun fresh => ⟨fresh, uncleared fresh⟩⟩
  cases cases with
  | resumed fresh cleared =>
    rw [if_neg fun both => both.2 cleared]
    rfl
  | stopped uncleared discard =>
    rw [discard] at discarded
    simp only [uncounted uncleared]
    exact discarded.trans counted
  | unwound uncleared discard unwound =>
    rw [discard] at discarded
    simp only [uncounted uncleared]
    rw [← unwound, unwind_stats]
    exact discarded.trans counted

end Recovery

section Sources

theorem fetch_source (c : Config V γ σ) :
    (p.fetch lexer c).config.source = (lexer c.status c.source).2 := by
  unfold fetch
  cases lexer c.status c.source with
  | mk lexeme source => cases lexeme <;> simp [Step.config]

/-- The lexer is called where a state wants a lookahead and none is pending. -/
theorem lookahead_source (state : State) (c : Config V γ σ) :
    (p.lookahead lexer state c).config.source = c.source ∨
      state.needsToken = true ∧ c.status.token = none ∧
        (p.lookahead lexer state c).config.source = (lexer c.status c.source).2 := by
  unfold lookahead fetchMissing
  split
  · next needs =>
    split
    · next missing =>
      exact .inr ⟨needs, Option.isNone_iff_eq_none.mp missing, p.fetch_source lexer c⟩
    · exact .inl rfl
  · exact .inl (by simp [Step.config])

/-- The lexer is called where a repeated error has no lookahead to discard. -/
theorem discard_source (c : Config V γ σ) :
    (p.discard lexer c).config.source = c.source ∨
      c.status.errorStatus = 3 ∧ c.status.token = none ∧
        (p.discard lexer c).config.source = (lexer c.status c.source).2 := by
  unfold discard fetchMissing
  split
  · next repeated =>
    split
    · next missing =>
      refine .inr ⟨repeated, Option.isNone_iff_eq_none.mp missing, ?_⟩
      rw [← p.fetch_source lexer c]
      cases p.fetch lexer c with
      | stop result b => rfl
      | next b =>
        rw [Step.andThen_next]
        split <;> simp [Step.config]
    · refine .inl ?_
      rw [Step.andThen_next]
      split <;> simp [Step.config]
  · exact .inl rfl

theorem unwind_source (c : Config V γ σ) (stack : List (Entry V)) :
    (p.unwind (ε := ε) c stack).config.source = c.source := by
  induction stack generalizing c with
  | nil => simp [unwind, Step.config]
  | cons top rest ih =>
    unfold unwind
    split
    · rfl
    · split
      · simp [Step.config, push]
      · simp [ih]

theorem reduce_source (index : Nat) (c : Config V γ σ) :
    (p.reduce index c).config.source = c.source := by
  have cases := p.reduce_cases index c
  generalize p.reduce index c = move at cases
  cases cases with
  | unknownRule | underflow | overflow => rfl
  | raised => exact p.acted_source ..
  | accepted | aborted | forced => simp [Move.config]
  | unknownState | missingGoto => simp [Move.config, popped, setControl, acted_source]
  | continued => simp [Move.config, push]

/-- A reduction counts nothing but itself. -/
theorem reduce_stats (index : Nat) (c : Config V γ σ) : (p.reduce index c).config.stats =
    { c.stats with reductions := (p.reduce index c).config.stats.reductions } := by
  have cases := p.reduce_cases index c
  generalize p.reduce index c = move at cases
  cases cases with
  | unknownRule | underflow | overflow => rfl
  | raised => simp [Move.config, acted_stats]
  | accepted | aborted | forced => simp [Move.config]
  | unknownState | missingGoto => simp [Move.config, popped, setControl, acted_stats]
  | continued => simp [Move.config, push]

/-- Nothing but recovery counts an error. -/
theorem reduce_errors (index : Nat) (c : Config V γ σ) :
    (p.reduce index c).config.stats.errors = c.stats.errors := by
  rw [reduce_stats]

theorem entered_source (c : Config V γ σ) : (p.entered c).source = c.source := by
  unfold entered
  split
  · simp [enterRecovery, report, absorb, setErrorStatus]
  · rfl

/-- An error that is met for the first time has nothing discarded. -/
theorem entered_errorStatus {c : Config V γ σ} (repeated : (p.entered c).status.errorStatus = 3) :
    p.entered c = c ∧ c.status.errorStatus = 3 := by
  unfold entered at repeated ⊢
  split
  · next fresh =>
    rw [if_pos fresh] at repeated
    -- during the hook the error status is 1, and requests can only clear it
    have cleared := Status.applyAll_errorStatus (c.setErrorStatus 1).status (p.hookReply c).requests
    change (p.report c).status.errorStatus = 1 ∨ (p.report c).status.errorStatus = 0 at cleared
    have reported : (p.report c).status.errorStatus = 3 := by simpa [enterRecovery] using repeated
    omega
  · next known =>
    rw [if_neg known] at repeated
    exact ⟨rfl, repeated⟩

theorem recover_source (c : Config V γ σ) :
    (p.recover lexer c).config.source = c.source ∨
      c.status.errorStatus = 3 ∧ c.status.token = none ∧
        (p.recover lexer c).config.source = (lexer c.status c.source).2 := by
  have discarded := p.discard_source lexer (p.entered c)
  rw [p.entered_source c] at discarded
  have cases := p.recover_cases lexer c
  generalize p.recover lexer c = step at cases
  have called : step.config.source = (p.discard lexer (p.entered c)).config.source →
      step.config.source = c.source ∨ c.status.errorStatus = 3 ∧ c.status.token = none ∧
        step.config.source = (lexer c.status c.source).2 := by
    intro same
    rw [same]
    rcases discarded with kept | ⟨repeated, missing, called⟩
    · exact .inl kept
    · obtain ⟨unchanged, repeated⟩ := p.entered_errorStatus repeated
      rw [unchanged] at missing called ⊢
      exact .inr ⟨repeated, missing, called⟩
  cases cases with
  | resumed => exact .inl rfl
  | stopped _ discard =>
    apply called
    rw [discard]
  | unwound _ discard unwound =>
    apply called
    rw [← unwound, unwind_source, discard]
    rfl

end Sources

section Loop

def announced (c : Config V γ σ) (number : Nat) : Config V γ σ :=
  (c.emit p.flags (.state number)).emitStack p.flags

theorem announced_frame (c : Config V γ σ) (number : Nat) : Fetch c (p.announced c number) := by
  unfold announced
  rw [emitStack_eq]
  exact (emit_fetch c _ _).trans (emit_fetch _ _ _)

@[simp] theorem announced_status (c : Config V γ σ) (number : Nat) :
    (p.announced c number).status = c.status := by
  simp [announced]

@[simp] theorem announced_source (c : Config V γ σ) (number : Nat) :
    (p.announced c number).source = c.source := by
  simp [announced, emitStack_eq]

@[simp] theorem announced_stats (c : Config V γ σ) (number : Nat) :
    (p.announced c number).stats = c.stats := by
  simp [announced, emitStack_eq]

/-- The step of `c` takes `action`, and `b` is the configuration with the lookahead that the state
on top wanted. -/
def Performs (c : Config V γ σ) (action : Option Action) (b : Config V γ σ) : Prop :=
  ∃ top rest state, c.stack = top :: rest ∧ p.tables.states[top.state]? = some state ∧
    p.lookahead lexer state (p.announced c top.state) = .next b ∧
    state.select b.status.token = action

/-- The step of `c` reduces by a rule in configuration `b`: because of a reduce action, or by rule
0 because of the accept action, which sets the flag first. -/
def Reduces (c : Config V γ σ) (index : Nat) (b : Config V γ σ) : Prop :=
  p.Performs lexer c (some (.reduce index)) b ∨
    ∃ before, p.Performs lexer c (some .accept) before ∧ index = 0 ∧
      b = before.setControl .accept

theorem Performs.frame {p : Parser V ε γ} {lexer : Lexer V ε σ} {c b : Config V γ σ}
    {action : Option Action} (performs : p.Performs lexer c action b) : Fetch c b := by
  obtain ⟨top, rest, state, _, _, looked, _⟩ := performs
  have frame := p.lookahead_frame lexer state (p.announced c top.state)
  rw [looked] at frame
  exact (p.announced_frame c top.state).trans frame

theorem Reduces.stack {p : Parser V ε γ} {lexer : Lexer V ε σ} {c b : Config V γ σ} {index : Nat}
    (reduces : p.Reduces lexer c index b) : b.stack = c.stack := by
  rcases reduces with performs | ⟨before, performs, _, rfl⟩
  · exact performs.frame.stack
  · exact performs.frame.stack

theorem Reduces.stats {p : Parser V ε γ} {lexer : Lexer V ε σ} {c b : Config V γ σ} {index : Nat}
    (reduces : p.Reduces lexer c index b) : b.stats = { c.stats with tokens := b.stats.tokens } := by
  rcases reduces with performs | ⟨before, performs, _, rfl⟩
  · exact performs.frame.stats
  · exact performs.frame.stats

/-- The step of `c` enters recovery in configuration `b`, because its state has no action for the
lookahead or because a reduction asked for it. -/
def Recovers (c b : Config V γ σ) : Prop :=
  p.Performs lexer c none b ∨
    ∃ index before, p.Reduces lexer c index before ∧ p.reduce index before = .recover b

inductive Stepping (c : Config V γ σ) : Step V ε γ σ → Prop where
  | empty (empty : c.stack = []) : Stepping c (.stop (.ok (.fail .stackExhausted)) c)
  | unknownState {top : Entry V} {rest : List (Entry V)} (stack : c.stack = top :: rest)
      (missing : p.tables.states[top.state]? = none) :
      Stepping c (.stop (.error (.defect (.unknownState top.state))) c)
  | unfetched {top : Entry V} {state : State} {e : ε} {b : Config V γ σ}
      (looked : p.lookahead lexer state (p.announced c top.state) = .stop (.error (.lexer e)) b)
      {rest : List (Entry V)} (stack : c.stack = top :: rest)
      (found : p.tables.states[top.state]? = some state) : Stepping c (.stop (.error (.lexer e)) b)
  | shifted {target : Nat} {b : Config V γ σ}
      (performs : p.Performs lexer c (some (.shift target)) b) :
      Stepping c (.next (p.shift target b))
  | reduced {index : Nat} {b d : Config V γ σ} (reduces : p.Reduces lexer c index b)
      (reduced : p.reduce index b = .next d) : Stepping c (.next d)
  | ended {index : Nat} {b d : Config V γ σ} {result : Result V ε}
      (reduces : p.Reduces lexer c index b) (reduced : p.reduce index b = .stop result d) :
      Stepping c (.stop result d)
  | recovered {b : Config V γ σ} {step : Step V ε γ σ} (recovers : p.Recovers lexer c b)
      (recovered : p.recover lexer b = step) : Stepping c step

theorem step_of_reduces {c b : Config V γ σ} {index : Nat} (reduces : p.Reduces lexer c index b) :
    p.step lexer c = (p.reduce index b).resolve (p.recover lexer) := by
  rcases reduces with ⟨top, rest, state, stack, found, looked, selected⟩ |
    ⟨before, ⟨top, rest, state, stack, found, looked, selected⟩, rfl, rfl⟩
  all_goals
    rw [announced] at looked
    simp [step, stack, Tables.state, found, looked, selected, perform]

theorem step_of_recovers {c b : Config V γ σ} (recovers : p.Recovers lexer c b) :
    p.step lexer c = p.recover lexer b := by
  rcases recovers with ⟨top, rest, state, stack, found, looked, selected⟩ |
    ⟨index, before, reduces, forced⟩
  · rw [announced] at looked
    simp [step, stack, Tables.state, found, looked, selected, perform, Move.resolve]
  · rw [p.step_of_reduces lexer reduces, forced]
    rfl

theorem step_of_shift {c b : Config V γ σ} {target : Nat}
    (performs : p.Performs lexer c (some (.shift target)) b) :
    p.step lexer c = .next (p.shift target b) := by
  obtain ⟨top, rest, state, stack, found, looked, selected⟩ := performs
  rw [announced] at looked
  simp [step, stack, Tables.state, found, looked, selected, perform, Move.resolve]

theorem stepping_of_reduces {c b : Config V γ σ} {index : Nat}
    (reduces : p.Reduces lexer c index b) : p.Stepping lexer c (p.step lexer c) := by
  rw [p.step_of_reduces lexer reduces]
  cases reduced : p.reduce index b with
  | next d => exact .reduced reduces reduced
  | recover d => exact .recovered (.inr ⟨index, b, reduces, reduced⟩) rfl
  | stop result d => exact .ended reduces reduced

theorem step_cases (c : Config V γ σ) : p.Stepping lexer c (p.step lexer c) := by
  cases stack : c.stack with
  | nil =>
    simp only [step, stack]
    exact .empty stack
  | cons top rest =>
    cases found : p.tables.states[top.state]? with
    | none =>
      simp only [step, stack, Tables.state, found]
      exact .unknownState stack found
    | some state =>
      cases looked : p.lookahead lexer state (p.announced c top.state) with
      | stop result b =>
        obtain ⟨e, rfl⟩ := p.lookahead_stop lexer looked
        have stopped : p.step lexer c = .stop (.error (.lexer e)) b := by
          rw [announced] at looked
          simp only [step, stack, Tables.state, found, looked, Step.andThen_stop]
        rw [stopped]
        exact .unfetched looked stack found
      | next b =>
        have performs : p.Performs lexer c (state.select b.status.token) b :=
          ⟨top, rest, state, stack, found, looked, rfl⟩
        cases selected : state.select b.status.token with
        | none =>
          have recovers : p.Recovers lexer c b := .inl (selected ▸ performs)
          rw [p.step_of_recovers lexer recovers]
          exact .recovered recovers rfl
        | some action =>
          rw [selected] at performs
          cases action with
          | shift target =>
            rw [p.step_of_shift lexer performs]
            exact .shifted performs
          | reduce index => exact p.stepping_of_reduces lexer (.inl performs)
          | accept => exact p.stepping_of_reduces lexer (.inr ⟨b, performs, rfl, rfl⟩)

end Loop

end Parser

end ShiftReduce
