import ShiftReduce.Proofs.Calculator.Situation

/-! What one step does in a situation, whichever its state: it shifts the next token, reduces,
spoils the line by a reduction that fails, meets a token that the state has no action for, discards
a token of a spoilt line, or breaks off at a number that is too large. -/

namespace ShiftReduce.Calculator

def stateAt (n : Nat) : State := (tables.states[n]?).getD {}

theorem states_size : tables.states.size = 26 := by decide

theorem stateAt_found {n : Nat} (known : n < 26) : tables.states[n]? = some (stateAt n) := by
  have bound : n < tables.states.size := by rw [states_size]; exact known
  simp [stateAt, bound]

/-- The state looks for a token, and shifts the one with this name. -/
def Shifts (n : Nat) (name : String) (target : Nat) : Prop :=
  n < 26 ∧ (stateAt n).needsToken = true ∧
    (stateAt n).select (some name) = some (.shift target)

instance (n : Nat) (name : String) (target : Nat) : Decidable (Shifts n name target) :=
  inferInstanceAs (Decidable (_ ∧ _))

/-- The state looks for no token, and does the same whatever comes. -/
def Blind (n : Nat) (action : Option Action) : Prop :=
  n < 26 ∧ (stateAt n).needsToken = false ∧ (stateAt n).default = action

instance (n : Nat) (action : Option Action) : Decidable (Blind n action) :=
  inferInstanceAs (Decidable (_ ∧ _))

/-- What a state does with the tokens to come: with the next one, or with any if it does not look
at it. -/
structure Chooses (n : Nat) (input : List Token) (action : Option Action) : Prop where
  known : n < 26
  looks : (stateAt n).needsToken = true → ∃ t ts, input = t :: ts ∧ t.Fits
  selected : (stateAt n).select (input.head?.map Token.name) = action

theorem State.select_blind {state : State} (blind : state.needsToken = false)
    (token : Option String) : state.select token = state.default := by
  have absent : state.actions = none := by simpa [State.needsToken] using blind
  cases token <;> simp [State.select, State.action?, absent]

theorem Chooses.before {n : Nat} {input : List Token} {action : Option Action}
    (chooses : Chooses n input action) (more : List Token) : Chooses n (input ++ more) action := by
  obtain ⟨known, looks, selected⟩ := chooses
  cases blind : (stateAt n).needsToken with
  | true =>
    obtain ⟨t, ts, rfl, fits⟩ := looks blind
    exact ⟨known, fun _ => ⟨t, ts ++ more, rfl, fits⟩, selected⟩
  | false =>
    refine ⟨known, fun looks => absurd looks (by simp [blind]), ?_⟩
    rw [State.select_blind blind] at selected ⊢
    exact selected

/-- A state takes its default with a token that it does not list. -/
theorem State.select_of_unexpected {state : State} {token : String}
    (unexpected : token ∉ state.expected) : state.select (some token) = state.default := by
  have absent : state.action? token = none := by
    unfold State.action?
    unfold State.expected at unexpected
    cases actions : state.actions with
    | none => rfl
    | some map =>
      rw [actions] at unexpected
      cases got : Association.find? token map.entries with
      | none => exact got
      | some action =>
        exact absurd (Association.find?_isSome_iff.mp (by simp [got])) unexpected
  simp [State.select, absent]

theorem Token.name_eq_singleton_iff {t : Token} {c : Char} :
    t.name = String.singleton c ↔ t = .mark c := by
  rw [← String.toList_inj]
  cases t with
  | number | ident => simp [Token.name, Terminal.name]
  | mark d => simp [Token.name]

section

variable (flags : Trace.Flags) {c : CalculatorConfig} {s : Situation} {n : Nat}
  {value : Option Value} {below : Stack} {action : Option Action}

theorem lookahead_looked (looks : (stateAt n).needsToken = true) (shown : Shows c s) :
    Looked s ((parser flags).lookahead lexer (stateAt n) c) := by
  simp only [Parser.lookahead, looks, if_true]
  exact fetchMissing_looked flags shown

/-- Where a state looks at the next token, the step has it for its lookahead. -/
theorem performs_token {t : Token} {ts : List Token} (shown : Shows c s) (known : n < 26)
    (top : s.stack = ⟨n, value⟩ :: below) (looks : (stateAt n).needsToken = true)
    (input : s.input = t :: ts) (fits : t.Fits) :
    ∃ b, (parser flags).Performs lexer c ((stateAt n).select (some t.name)) b ∧ Shows b s ∧
      b.status.token = some t.name ∧ b.status.value = t.value ∧ b.source.tokens = ts := by
  have looked := lookahead_looked flags looks (announced_shows flags shown n)
  generalize step : (parser flags).lookahead lexer (stateAt n) _ = step at looked
  cases looked with
  | @token u us b input' _ shown' token value' left =>
    obtain ⟨rfl, rfl⟩ := List.cons.inj (input.symm.trans input')
    refine ⟨b, ⟨⟨n, value⟩, below, stateAt n, shown.stack.trans top, stateAt_found known, step, ?_⟩,
      shown', token, value', left⟩
    rw [token]
  | atEnd input' => simp [input] at input'
  | tooLarge input' large =>
    obtain ⟨rfl, _⟩ := List.cons.inj (input.symm.trans input')
    exact absurd fits large

theorem performs_of_chooses (shown : Shows c s) (top : s.stack = ⟨n, value⟩ :: below)
    (chooses : Chooses n s.input action) :
    ∃ b, (parser flags).Performs lexer c action b ∧ Shows b s := by
  obtain ⟨known, looks, selected⟩ := chooses
  cases blind : (stateAt n).needsToken with
  | true =>
    obtain ⟨t, ts, input, fits⟩ := looks blind
    obtain ⟨b, performs, shown', _⟩ := performs_token flags shown known top blind input fits
    rw [input] at selected
    exact ⟨b, selected ▸ performs, shown'⟩
  | false =>
    -- nothing is fetched, so the lookahead may be any or none
    rw [State.select_blind blind] at selected
    refine ⟨((parser flags).announced c n).emit flags .noTokenNeeded, ⟨⟨n, value⟩, below, stateAt n,
      shown.stack.trans top, stateAt_found known, ?_, ?_⟩, ?_⟩
    · simp [Parser.lookahead, blind, parser]
    · rw [State.select_blind blind, selected]
    · have announced := announced_shows flags shown n
      exact announced.of_fetch (Config.emit_fetch _ _ _) (by simpa using announced.input)

end

theorem Token.lexeme?_shift (t : Token) :
    (Act.shift (some t.name) t.value).lexeme? = some t.lexeme := by
  simp [Act.lexeme?, t.name_ne_end, Token.lexeme]

theorem moves_shift {n target : Nat} {value : Option Value} {below : Stack} {t : Token}
    {ts : List Token} (shifts : Shifts n t.name target) (fits : t.Fits) (errorStatus : Nat)
    (session : Session) :
    Moves [t] ⟨⟨n, value⟩ :: below, errorStatus, session, t :: ts⟩
      ⟨⟨target, t.value⟩ :: ⟨n, value⟩ :: below, errorStatus - 1, session, ts⟩ := by
  obtain ⟨known, looks, selected⟩ := shifts
  intro more flags c shown
  obtain ⟨b, performs, shown, token, value_eq, left⟩ :=
    performs_token flags shown known rfl looks rfl fits
  rw [selected] at performs
  refine ⟨_, _, .shifted performs, ?_, ?_⟩
  · rw [token, value_eq]
    simp [ShiftReduce.shifts, t.lexeme?_shift]
  have unended : b.status.atEnd = false := by simpa [Status.atEnd, token] using t.name_ne_end
  have status : ((parser flags).shift target b).status =
      ({ b.status with errorStatus := b.status.errorStatus - 1 } : Status Value).dropToken := by
    rw [Parser.shift_status, Status.consume, if_neg]
    simpa [Status.atEnd] using unended
  constructor
  · rw [Parser.shift_stack, shown.stack, value_eq]
    rfl
  · rw [status]
    exact congrArg (· - 1) shown.errorStatus
  · rw [Parser.shift_control, shown.control]
  · rw [Parser.shift_context, shown.session]
    rfl
  · exact .unread (by rw [status]; rfl) (by rw [Parser.shift_source, left]; rfl)

/-- Behind the last line the end of the input is shifted. -/
theorem goes_end {n target : Nat} {value : Option Value} {below : Stack} {session : Session}
    (shifts : Shifts n endToken target) (flags : Trace.Flags) {c : CalculatorConfig}
    (shown : Shows c ⟨⟨n, value⟩ :: below, 0, session, []⟩) :
    ∃ acts c', (parser flags).Goes lexer (.top c) acts (.top c') ∧ ShiftReduce.shifts acts = [] ∧
      Shows c' ⟨⟨target, none⟩ :: ⟨n, value⟩ :: below, 0, session, []⟩ := by
  obtain ⟨known, looks, selected⟩ := shifts
  have looked := lookahead_looked flags looks (announced_shows flags shown n)
  generalize step : (parser flags).lookahead lexer (stateAt n) _ = step at looked
  cases looked with
  | token input | tooLarge input => simp at input
  | @atEnd b _ shown' token value_eq left =>
    have performs : (parser flags).Performs lexer c (some (.shift target)) b :=
      ⟨⟨n, value⟩, below, stateAt n, shown.stack, stateAt_found known, step, token ▸ selected⟩
    have status : ((parser flags).shift target b).status = b.status := by
      have zero : b.status.errorStatus - 1 = b.status.errorStatus := by simp [shown'.errorStatus]
      rw [Parser.shift_status, zero, Status.consume, if_pos]
      simp [Status.atEnd, token]
    refine ⟨_, _, .shifted performs, ?_, ?_⟩
    · rw [token]
      rfl
    constructor
    · rw [Parser.shift_stack, shown'.stack, value_eq]
    · rw [status, shown'.errorStatus]
    · rw [status, shown'.control]
    · rw [Parser.shift_context, shown'.session]
    · rw [status]
      exact .atEnd token value_eq (by rw [Parser.shift_source, left])

theorem ends_end {n target bound : Nat} {value : Option Value} {below : Stack} {session : Session}
    {result : Result Value Error} {after : Session} (shifts : Shifts n endToken target)
    (ends : Ends bound ⟨⟨target, none⟩ :: ⟨n, value⟩ :: below, 0, session, []⟩ result after) :
    Ends (bound + 1) ⟨⟨n, value⟩ :: below, 0, session, []⟩ result after := by
  intro flags c shown
  obtain ⟨acts, c', goes, _, shown'⟩ := goes_end shifts flags shown
  obtain ⟨r, ended, agrees⟩ := ends flags c' shown'
  rcases goes.step with ⟨d, same, step⟩ | ⟨b, same, _⟩
  · cases same
    exact ⟨r, (Parser.runFrom_next step).trans ended, agrees⟩
  · contradiction

section TooLarge

variable {n errorStatus : Nat} {value : Option Value} {below : Stack} {t : Token} {ts : List Token}
  {session : Session}

theorem lookahead_tooLarge (looks : (stateAt n).needsToken = true) (large : ¬ t.Fits)
    (flags : Trace.Flags) {c : CalculatorConfig}
    (shown : Shows c ⟨⟨n, value⟩ :: below, errorStatus, session, t :: ts⟩) :
    ∃ b : CalculatorConfig, (parser flags).lookahead lexer (stateAt n)
        ((parser flags).announced c n) = .stop (.error (.lexer .numberTooLarge)) b ∧
      b.context = session := by
  have looked := lookahead_looked flags looks (announced_shows flags shown n)
  generalize (parser flags).lookahead lexer (stateAt n) _ = step at looked
  cases looked with
  | token input fits =>
    obtain ⟨rfl, _⟩ := List.cons.inj input
    exact absurd fits large
  | atEnd input => simp at input
  | @tooLarge _ _ b _ _ kept => exact ⟨b, rfl, kept⟩

/-- A number that is too large breaks the run off where it is looked at. -/
theorem ends_tooLarge (known : n < 26) (looks : (stateAt n).needsToken = true) (large : ¬ t.Fits)
    (errorStatus : Nat) (session : Session) :
    Ends 1 ⟨⟨n, value⟩ :: below, errorStatus, session, t :: ts⟩
      (.error (.lexer .numberTooLarge)) session := by
  intro flags c shown
  obtain ⟨b, step, kept⟩ := lookahead_tooLarge looks large flags shown
  refine ⟨⟨_, b⟩, Parser.runFrom_stop ?_, rfl, kept⟩
  rw [Parser.announced] at step
  have found : (parser flags).tables.states[n]? = some (stateAt n) := stateAt_found known
  simp [Parser.step, shown.stack, Tables.state, found, step]

theorem stuck_tooLarge (known : n < 26) (looks : (stateAt n).needsToken = true) (large : ¬ t.Fits) :
    Stuck ⟨⟨n, value⟩ :: below, errorStatus, session, t :: ts⟩ := by
  intro flags c shown acts m goes
  obtain ⟨action, b, top, rest, state, stack, found, looked, _⟩ := goes.performs
  obtain ⟨rfl, _⟩ := List.cons.inj (stack.symm.trans shown.stack)
  obtain rfl : state = stateAt n := Option.some.inj (found.symm.trans (stateAt_found known))
  obtain ⟨b', stopped, _⟩ := lookahead_tooLarge looks large flags shown
  exact absurd (looked.symm.trans stopped) (by simp)

end TooLarge

section Reductions

def values (popped : Stack) : List (Option Value) := (popped.map Entry.value).reverse

variable {flags : Trace.Flags} {b c : CalculatorConfig} {s : Situation} {r : Nat} {rule : Rule}
  {production : Production}

theorem act_of_not_hasAction (passive : production.hasAction = false)
    (values : List (Option Value)) (session : Session) :
    production.act values session = session.produce (firstValue values) := by
  cases production <;> first | rfl | simp [Production.hasAction] at passive

/-- A reduction runs the action of its production, on the values that it will pop. -/
theorem acted_reply (found : Production.ofRule? r = some production) (session : Session)
    (same : b.context = session) {reply : ActionReply}
    (replies : production.act (b.lastValues rule.dot) session = reply) :
    ((parser flags).acted r rule b).1 = reply.result ∧
      ((parser flags).acted r rule b).2.context = reply.context ∧
      ((parser flags).acted r rule b).2.status =
        ({ b.status with dot := rule.dot } : Status Value).applyAll reply.requests := by
  subst same replies
  unfold Parser.acted Parser.evaluate
  cases active : production.hasAction with
  | true =>
    have has : (parser flags).driver.hasAction r = true := by
      simp [parser, driver, found, active]
    have replies (values : List (Option Value)) (view : View Value) (session : Session) :
        (parser flags).driver.reduce r values view session = production.act values session := by
      simp [parser, driver, found]
    simp only [has, if_true, replies]
    exact ⟨trivial, rfl, rfl⟩
  | false =>
    have has : (parser flags).driver.hasAction r = false := by
      simp [parser, driver, found, active]
    simp only [has, Bool.false_eq_true, if_false]
    rw [act_of_not_hasAction active]
    exact ⟨rfl, rfl, rfl⟩

/-- The entries of a rule stand on top of the stack, and its action answers with this reply. -/
structure Replies (s : Situation) (r : Nat) (lhs : String) (popped : Stack) (below : Entry Value)
    (rest : Stack) (reply : ActionReply) : Prop where
  stack : s.stack = popped ++ below :: rest
  rule : tables.rules[r]? = some ⟨lhs, popped.length, none⟩
  replies : ∃ production, Production.ofRule? r = some production ∧
    production.act (values popped) s.session = reply

variable {lhs : String} {popped rest : Stack} {below : Entry Value} {reply : ActionReply}
  {value : Option Value}

theorem Replies.before (replies : Replies s r lhs popped below rest reply) (more : List Token) :
    Replies (s.before more) r lhs popped below rest reply :=
  ⟨replies.stack, replies.rule, replies.replies⟩

variable (flags) in
theorem Replies.acted (replies : Replies s r lhs popped below rest reply)
    (same : b.stack = s.stack) (session : b.context = s.session) :
    (parser flags).Ready r ⟨lhs, popped.length, none⟩ b ∧
    b.stack.drop popped.length = below :: rest ∧
    ((parser flags).acted r ⟨lhs, popped.length, none⟩ b).1 = reply.result ∧
    ((parser flags).acted r ⟨lhs, popped.length, none⟩ b).2.context = reply.context ∧
    ((parser flags).acted r ⟨lhs, popped.length, none⟩ b).2.status =
      ({ b.status with dot := popped.length } : Status Value).applyAll reply.requests := by
  obtain ⟨stack, rule, production, found, answers⟩ := replies
  replace stack := same.trans stack
  refine ⟨.of_whole rule rfl (by simp [stack]), ?_, ?_⟩
  · simp [stack]
  · refine acted_reply found s.session session ?_
    simpa [Config.lastValues, Rule.dot, stack, values] using answers

/-- A reduction whose action asks for nothing, or for the end of recovery only. -/
theorem Replies.moves {stack under : Stack} {errorStatus errorStatus' n target : Nat}
    {session : Session} {input : List Token} {v : Option Value}
    (replies : Replies ⟨stack, errorStatus, session, input⟩ r lhs popped below rest reply)
    (top : stack = ⟨n, value⟩ :: under) (chooses : Chooses n input (some (.reduce r)))
    (result : reply.result = .ok v) (known : below.state < 26)
    (goes : (stateAt below.state).goto? lhs = some target)
    (requests : reply.requests = [] ∧ errorStatus' = errorStatus ∨
      reply.requests = [.errok] ∧ errorStatus' = 0) :
    Moves [] ⟨stack, errorStatus, session, input⟩
      ⟨⟨target, v⟩ :: below :: rest, errorStatus', reply.context, input⟩ := by
  intro more flags c shown
  obtain ⟨b, performs, shown⟩ := performs_of_chooses flags shown top (chooses.before more)
  obtain ⟨ready, uncovered, ok, context, status⟩ :=
    (replies.before more).acted flags shown.stack shown.session
  have quiet : (reply.requests = [] ∨ reply.requests = [.errok]) :=
    requests.imp And.left And.left
  have control : ((parser flags).acted r ⟨lhs, popped.length, none⟩ b).2.status.control =
      .normal := by
    rw [status]
    rcases quiet with none | errok
    · simpa [none] using shown.control
    · simpa [errok, Status.apply] using shown.control
  have reduced := Parser.reduce_continues (parser flags) ready (ok.trans result) control uncovered
    (stateAt_found known) goes
  refine ⟨_, _, .reduced (.inl performs) ready reduced, by simp, ?_⟩
  constructor
  · simp [uncovered]
  · rcases requests with ⟨none, rfl⟩ | ⟨errok, rfl⟩
    · simpa [status, none] using shown.errorStatus
    · simp [status, errok, Status.apply]
  · simp
  · simp [Config.push, context]
  · simp only [Config.push, Parser.closeBracket_source, Parser.told_source,
      Parser.closeBracket_status, Parser.told_status, status]
    rcases quiet with none | errok
    · rw [none]
      exact shown.input.of_same rfl rfl
    · rw [errok]
      exact shown.input.of_same rfl rfl

variable {n : Nat} {v : Option Value} {under : Stack}

variable (flags) in
theorem Replies.accepted (replies : Replies s 0 lhs popped below rest (s.session.produce v))
    (top : s.stack = ⟨n, value⟩ :: under) (chooses : Chooses n s.input (some .accept))
    (shown : Shows c s) : ∃ e d, (parser flags).Reduces lexer c 0 e ∧
      (parser flags).reduce 0 e = .stop (.ok (.accept v)) d ∧ d.context = s.session := by
  obtain ⟨b, performs, shown⟩ := performs_of_chooses flags shown top chooses
  let e := b.setControl .accept
  have reduces : (parser flags).Reduces lexer c 0 e := .inr ⟨b, performs, rfl, rfl⟩
  obtain ⟨ready, _, ok, context, status⟩ :=
    replies.acted flags (b := e) shown.stack shown.session
  have control : ((parser flags).acted 0 ⟨lhs, popped.length, none⟩ e).2.status.control =
      .accept := by
    rw [status]
    rfl
  exact ⟨e, _, reduces, Parser.reduce_accepts (parser flags) ready ok control,
    (Parser.told_context ..).trans context⟩

/-- The accept action ends the run with the value of rule 0. -/
theorem Replies.accepts (replies : Replies s 0 lhs popped below rest (s.session.produce v))
    (top : s.stack = ⟨n, value⟩ :: under) (chooses : Chooses n s.input (some .accept)) :
    Ends 1 s (.ok (.accept v)) s.session := by
  intro flags c shown
  obtain ⟨e, d, reduces, reduced, context⟩ := replies.accepted flags top chooses shown
  have stepped := (parser flags).step_of_reduces lexer reduces
  rw [reduced] at stepped
  exact ⟨_, Parser.runFrom_stop stepped, rfl, context⟩

theorem Replies.stuck (replies : Replies s 0 lhs popped below rest (s.session.produce v))
    (top : s.stack = ⟨n, value⟩ :: under) (chooses : Chooses n s.input (some .accept)) :
    Stuck s := by
  intro flags c shown acts m
  obtain ⟨e, d, reduces, reduced, _⟩ := replies.accepted flags top chooses shown
  exact Parser.Goes.not_stopped reduces reduced

end Reductions

/-- The stack between two lines. -/
def base : Stack := [⟨1, none⟩, ⟨0, none⟩]

def spoiltStack : Stack := ⟨4, none⟩ :: base

/-- The stack is one of a line: nothing above its base can take up an error. -/
def Grounded (stack : Stack) : Prop :=
  ∃ above, stack = above ++ base ∧ ∀ e ∈ above, 1 < e.state ∧ e.state < 26

theorem Grounded.base : Grounded base := ⟨[], rfl, by simp⟩

theorem Grounded.push {stack : Stack} (grounded : Grounded stack) {n : Nat} (value : Option Value)
    (inside : 1 < n ∧ n < 26) : Grounded (⟨n, value⟩ :: stack) := by
  obtain ⟨above, rfl, lacking⟩ := grounded
  exact ⟨⟨n, value⟩ :: above, rfl, by simpa using ⟨inside, lacking⟩⟩

theorem Grounded.spoilt : Grounded spoiltStack := Grounded.base.push none (n := 4) (by decide)

def Session.reported (s : Session) (message : String) : Session :=
  { s with pending := none, errors := s.errors.push (s!"line {s.lines + 1}: " ++ message) }

def complaint (n : Nat) (t : Token) : String :=
  "syntax error near " ++ describe t.name ++ ", expected one of: " ++
    ", ".intercalate (((stateAt n).expected.filter (· != errorToken)).map describe)

theorem syntaxMessage_eq {b : CalculatorConfig} {n : Nat} {value : Option Value} {below : Stack}
    {t : Token} (stack : b.stack = ⟨n, value⟩ :: below) (token : b.status.token = some t.name) :
    syntaxMessage ((b.setErrorStatus 1).view tables none) = complaint n t := by
  have top : (b.setErrorStatus 1).stack = ⟨n, value⟩ :: below := stack
  have pending : (b.setErrorStatus 1).status.token = some t.name := token
  have expected : ((tables.states[n]?).map State.expected).getD [] = (stateAt n).expected := by
    unfold stateAt
    cases tables.states[n]? <;> rfl
  unfold syntaxMessage complaint View.expected Config.view
  rw [pending, top]
  dsimp only
  rw [expected]

/-- What is said where a state has no action for a token: an older error takes precedence. -/
def missMessage (n : Nat) (t : Token) (session : Session) : String :=
  (session.pending.map LineError.message).getD (complaint n t)

section Recovery

variable (flags : Trace.Flags) {b : CalculatorConfig} {stack : Stack} {session : Session}
  {input : List Token}

/-- The search for an error shift leads back to the base of the stack. -/
theorem unwind_grounded (grounded : Grounded stack) (c : CalculatorConfig) :
    ∃ d : CalculatorConfig, (parser flags).unwind (ε := Error) c stack = .next d ∧
      d.stack = spoiltStack ∧ d.status = c.status ∧ d.context = c.context ∧ d.source = c.source := by
  obtain ⟨above, rfl, inside⟩ := grounded
  have lacking : ∀ e ∈ above, (parser flags).Lacks e := by
    intro e member
    obtain ⟨low, high⟩ := inside e member
    have errorless : ∀ n < 26, 1 < n → (stateAt n).errorShift? = none := by decide
    exact ⟨stateAt e.state, stateAt_found high, errorless e.state high low⟩
  have found : (parser flags).tables.states[(⟨1, none⟩ : Entry Value).state]? = some (stateAt 1) :=
    stateAt_found (by decide)
  have shifts : (stateAt 1).errorShift? = some 4 := by decide
  obtain ⟨d, same, stack, status, context, source, _⟩ :=
    (parser flags).unwind_shift lacking found shifts [⟨0, none⟩] c
  exact ⟨d, same, stack, status, context, source⟩

/-- An error that was not reported yet is reported, and nothing of the input is lost. -/
theorem recover_fresh (shown : Shows b ⟨stack, 0, session, input⟩) (grounded : Grounded stack) :
    ∃ d, (parser flags).recover lexer b = .next d ∧
      Shows d ⟨spoiltStack, 3, session.reported ((session.pending.map LineError.message).getD
        (syntaxMessage (((b.setErrorStatus 1).view tables none)))), input⟩ := by
  obtain rfl : b.context = session := shown.session
  have fresh : b.status.errorStatus = 0 := shown.errorStatus
  have status : ((parser flags).report b).status = { b.status with errorStatus := 1 } := rfl
  let e := (parser flags).enterRecovery ((parser flags).report b)
  have recovers : (parser flags).recover lexer b =
      (parser flags).unwind (e.setErrorStatus 3) e.stack := by
    simp [e, Parser.recover, Parser.resynchronize, Parser.discard, fresh, status,
      Parser.enterRecovery]
  have e_stack : e.stack = stack := by simpa [e, Parser.enterRecovery] using shown.stack
  have e_status : e.status =
      { b.status with errorStatus := 1, errorCount := b.status.errorCount + 1 } := by
    simp [e, Parser.enterRecovery, status]
  have e_context : e.context = ((parser flags).report b).context := by simp [e, Parser.enterRecovery]
  have e_source : e.source = b.source := by
    simp [e, Parser.enterRecovery, Parser.report, Config.absorb, Config.setErrorStatus]
  obtain ⟨d, unwound, d_stack, d_status, d_context, d_source⟩ :=
    unwind_grounded flags grounded (e.setErrorStatus 3)
  rw [e_stack, unwound] at recovers
  refine ⟨d, recovers, ⟨d_stack, ?_, ?_, ?_, ?_⟩⟩
  · rw [d_status]
    rfl
  · rw [d_status]
    exact (congrArg Status.control e_status).trans shown.control
  · rw [d_context]
    exact e_context
  · rw [d_status, d_source]
    change Awaits (e.setErrorStatus 3).status e.source input
    rw [e_source]
    refine shown.input.of_same ?_ ?_
    all_goals simp [Config.setErrorStatus, e_status]

theorem errs_discard {t : Token} {ts : List Token} (fits : t.Fits) (inside : t ≠ .newline)
    (session : Session) :
    Errs .skipped ⟨spoiltStack, 3, session, t :: ts⟩ ⟨spoiltStack, 3, session, ts⟩ := by
  intro more flags c shown
  obtain ⟨b, performs, shown, token, _, left⟩ :=
    performs_token flags shown (n := 4) (by decide) rfl (by decide) rfl fits
  have expected : (stateAt 4).expected = [String.singleton '\n'] := by decide
  have unexpected : t.name ∉ (stateAt 4).expected := by
    rw [expected, List.mem_singleton, Token.name_eq_singleton_iff]
    exact inside
  rw [State.select_of_unexpected unexpected] at performs
  have repeated : b.status.errorStatus = 3 := shown.errorStatus
  have unended : b.status.atEnd = false := by simpa [Status.atEnd, token] using t.name_ne_end
  let e : CalculatorConfig := { b.emit (parser flags).flags (.discarded (b.status.token.getD "")) with
    status := b.status.dropToken
    stats := { b.stats with discarded := b.stats.discarded + 1 } }
  have recovered : (parser flags).recover lexer b =
      (parser flags).unwind (e.setErrorStatus 3) e.stack := by
    simp [Parser.recover, Parser.resynchronize, Parser.discard, Parser.fetchMissing, repeated,
      token, unended, e]
  obtain ⟨d, unwound, d_stack, d_status, d_context, d_source⟩ :=
    unwind_grounded flags Grounded.spoilt (e.setErrorStatus 3)
  have e_stack : e.stack = spoiltStack := by simpa [e] using shown.stack
  rw [e_stack, unwound] at recovered
  refine ⟨_, b, _, d, .missed performs, by simp [Cause.Of, repeated],
    congrArg Session.lines shown.session, .recovered recovered, rfl, by simp,
    ⟨d_stack, ?_, ?_, ?_, ?_⟩⟩
  · rw [d_status]
    rfl
  · rw [d_status]
    exact shown.control
  · rw [d_context]
    exact (b.emit_context _ _).trans shown.session
  · rw [d_status, d_source]
    exact .unread rfl ((congrArg Scanner.tokens (b.emit_source _ _)).trans left)

/-- A token that the state has no action for spoils the line. -/
theorem errs_miss {n : Nat} {value : Option Value} {below : Stack} {t : Token} {ts : List Token}
    (known : n < 26) (looks : (stateAt n).needsToken = true)
    (selected : (stateAt n).select (some t.name) = none) (fits : t.Fits)
    (grounded : Grounded (⟨n, value⟩ :: below)) (session : Session) :
    Errs (.missed n t) ⟨⟨n, value⟩ :: below, 0, session, t :: ts⟩
      ⟨spoiltStack, 3, session.reported (missMessage n t session), t :: ts⟩ := by
  intro more flags c shown
  obtain ⟨b, performs, shown, token, _, left⟩ :=
    performs_token flags shown known rfl looks rfl fits
  rw [selected] at performs
  obtain ⟨d, recovered, shown'⟩ := recover_fresh flags shown grounded
  rw [syntaxMessage_eq shown.stack token] at shown'
  exact ⟨_, b, _, d, .missed performs, ⟨⟨value, below, shown.stack⟩, token⟩,
    congrArg Session.lines shown.session, .recovered recovered, rfl, by simp, shown'⟩

theorem errs_fail {s : Situation} {n r : Nat} {value : Option Value} {under popped rest : Stack}
    {below : Entry Value} {lhs : String} {e : LineError}
    (replies : Replies s r lhs popped below rest (s.session.spoil e))
    (fresh : s.errorStatus = 0) (top : s.stack = ⟨n, value⟩ :: under)
    (chooses : Chooses n s.input (some (.reduce r))) (grounded : Grounded (below :: rest)) :
    Errs (.failed e) s ⟨spoiltStack, 3, s.session.reported e.message, s.input⟩ := by
  intro more flags c shown
  obtain ⟨b, performs, shown⟩ := performs_of_chooses flags shown top (chooses.before more)
  obtain ⟨ready, uncovered, ok, context, status⟩ :=
    (replies.before more).acted flags shown.stack shown.session
  have control : ((parser flags).acted r ⟨lhs, popped.length, none⟩ b).2.status.control =
      .error := by
    rw [status]
    rfl
  obtain ⟨number, forced⟩ := Parser.reduce_forces (parser flags) ready ok control
  have told : Shows ((parser flags).told r ⟨lhs, popped.length, none⟩ b (.recover number))
      ⟨below :: rest, 0, { s.session with pending := some e }, s.input ++ more⟩ := by
    constructor
    · simp [uncovered]
    · simpa [status, Session.spoil, Status.apply] using shown.errorStatus.trans fresh
    · simp
    · simp [context, Session.spoil]
    · rw [Parser.told_source, Parser.told_status, status]
      exact shown.input.of_same rfl rfl
  obtain ⟨d, recovered, shown'⟩ := recover_fresh flags told grounded
  exact ⟨_, _, _, d, .forced (.inl performs) ready forced, congrArg Session.pending told.session,
    by rw [told.session], .recovered recovered, by simp, by simp, shown'⟩

end Recovery

end ShiftReduce.Calculator
