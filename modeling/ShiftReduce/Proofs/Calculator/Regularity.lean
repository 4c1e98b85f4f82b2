import ShiftReduce.Proofs.Consumption
import ShiftReduce.Proofs.Control
import ShiftReduce.Proofs.Calculator.Paths

/-! The calculator's tables and driver under a lexer of any kind. Whatever tokens and values have
been read, a configuration is regular, and a step leaves it so or ends the run. A step either uses
the pending token or makes less of what there is to do before the next one. -/

namespace ShiftReduce

variable {V ε δ γ σ : Type}

/-- The driver among whose errors there may be others than its own. -/
def Driver.mapError (wrap : ε → δ) (d : Driver V ε γ) : Driver V δ γ where
  hasAction := d.hasAction
  reduce rule values view context :=
    let reply := d.reduce rule values view context
    { reply with result := reply.result.mapError wrap }
  onError := d.onError

namespace Calculator

/-- The calculator behind a lexer whose errors may be of any kind. -/
def streamParser (wrap : Error → δ) (flags : Trace.Flags) : Parser Value δ Session :=
  ⟨tables, driver.mapError wrap, flags⟩

abbrev StreamConfig (σ : Type) := Config Value Session (σ × List (Lexeme Value))

/-- A number comes with its value, and a variable with its name. -/
def WellFormed (lexeme : Lexeme Value) : Prop := Carries (tokenContent lexeme.token) lexeme.value

def Apt (e : Entry Value) : Prop := Carries (stateContent e.state) e.value

def topState (stack : Stack) : Nat := (stack.head?.map Entry.state).getD 0

/-- In a spoilt line there is nothing on the stack but the error token, and the newline that ends
the line. -/
def Phase (errorStatus : Nat) (states : List Nat) : Prop :=
  errorStatus = 0 ∨ errorStatus = 3 ∧ states = [4, 1, 0] ∨ errorStatus = 2 ∧ states = [11, 4, 1, 0]

structure Regular (c : StreamConfig σ) : Prop where
  stands : Stands tables c.stack
  control : c.status.control = .normal
  phase : Phase c.status.errorStatus (c.stack.map Entry.state)
  /-- The symbol for the input so far carries nothing. -/
  blank : ∀ e ∈ c.stack, e.state = 1 → e.value = none
  logged : ∀ lexeme, c.status.lookahead? = some lexeme → lexeme ∈ c.source.2
  apt : (∀ lexeme ∈ c.source.2, WellFormed lexeme) → ∀ e ∈ c.stack, Apt e

/-- What bounds the steps until the next token is used. -/
def weight (c : StreamConfig σ) : Nat :=
  2 * c.stack.length + bonus (topState c.stack) + if c.status.errorStatus = 0 then 3 else 0

/-- How a run may end. -/
inductive Verdict (d : StreamConfig σ) : Result Value δ → Prop where
  | accepted (cleared : d.stack = [⟨0, none⟩]) : Verdict d (.ok (.accept none))
  | endOfInput : Verdict d (.ok (.fail .endOfInput))
  | lexer (e : δ) : Verdict d (.error (.lexer e))
  | action (rule : Nat) (e : δ) {lexeme : Lexeme Value} (delivered : lexeme ∈ d.source.2)
      (malformed : ¬ WellFormed lexeme) : Verdict d (.error (.action rule e))

section

variable {wrap : Error → δ} {flags : Trace.Flags} {lexer : Lexer Value δ σ} {b c d : StreamConfig σ}

variable (wrap flags) in
theorem acted_eq {r : Nat} (rule : Rule) {p : Production} (found : Production.ofRule? r = some p)
    (b : StreamConfig σ) :
    ((streamParser wrap flags).acted r rule b).1 =
        (p.act (b.lastValues rule.dot) b.context).result.mapError wrap ∧
      ((streamParser wrap flags).acted r rule b).2.status =
        ({ b.status with dot := rule.dot } : Status Value).applyAll
          (p.act (b.lastValues rule.dot) b.context).requests := by
  unfold Parser.acted Parser.evaluate
  cases active : p.hasAction with
  | true =>
    have has : (streamParser wrap flags).driver.hasAction r = true := by
      simp [streamParser, Driver.mapError, driver, found, active]
    simp only [has, if_true]
    simp only [streamParser, Driver.mapError, driver, found]
    exact ⟨trivial, rfl⟩
  | false =>
    have has : (streamParser wrap flags).driver.hasAction r = false := by
      simp [streamParser, Driver.mapError, driver, found, active]
    simp only [has, Bool.false_eq_true, if_false]
    rw [act_of_not_hasAction active]
    exact ⟨rfl, rfl⟩

/-- Looking for the next token keeps a configuration regular. -/
theorem Regular.supplied (regular : Regular c) (frame : Config.Fetch c b)
    (supply : lexer.logging.Supply c b) : Regular b := by
  have kept : ∀ lexeme ∈ c.source.2, lexeme ∈ b.source.2 := by
    cases supply with
    | idle _ _ source => simp [source]
    | delivered _ _ _ _ source =>
      intro lexeme member
      rw [source]
      exact List.mem_append_right _ member
  refine ⟨frame.stack ▸ regular.stands, frame.control.trans regular.control, ?_, ?_, ?_, ?_⟩
  · rw [frame.stack, frame.errorStatus]
    exact regular.phase
  · rw [frame.stack]
    exact regular.blank
  · cases supply with
    | idle token value source =>
      rw [Status.lookahead?, token, value, source]
      exact regular.logged
    | @delivered lexeme missing answer token value source =>
      have answer : (lexer c.status c.source.1).1 = .ok lexeme := answer
      intro pending same
      rw [Status.lookahead?, token, value] at same
      obtain rfl := Option.some.inj same
      simp [source, Lexer.logging, answer, Except.toOption]
  · rw [frame.stack]
    exact fun wellFormed => regular.apt fun lexeme member => wellFormed lexeme (kept lexeme member)

theorem weight_of_fetch (frame : Config.Fetch c b) : weight b = weight c := by
  rw [weight, weight, frame.stack, frame.errorStatus]

theorem Regular.top (regular : Regular c) : ∃ e rest, c.stack = e :: rest ∧ e.state < 26 := by
  obtain ⟨e, rest, same⟩ := List.exists_cons_of_ne_nil regular.stands.ne_nil
  refine ⟨e, rest, same, ?_⟩
  rw [← states_size]
  exact regular.stands.state_lt tables_sound e (by simp [same])

theorem weight_cons {e : Entry Value} {rest : Stack} (stack : c.stack = e :: rest) :
    weight c = 2 * (rest.length + 1) + bonus e.state +
      if c.status.errorStatus = 0 then 3 else 0 := by
  simp [weight, stack, topState]

/-- The phases and the states that take a token. -/
theorem phase_shift {errorStatus target : Nat} {t : String} {e : Entry Value} {rest : Stack}
    (phase : Phase errorStatus ((e :: rest).map Entry.state))
    (shifted : Shifted e.state (t, .shift target)) :
    Phase (errorStatus - 1) (target :: (e :: rest).map Entry.state) ∧
      (errorStatus - 1 = 0 ↔ errorStatus = 0) := by
  obtain ⟨_, _, _, _, _, spoilt, unspoilt⟩ := shifted
  rcases phase with rfl | ⟨rfl, states⟩ | ⟨rfl, states⟩
  · exact ⟨.inl rfl, by simp⟩
  · have four : e.state = 4 := (List.cons.inj states).1
    rw [states, spoilt four]
    exact ⟨.inr (.inr ⟨rfl, rfl⟩), by simp⟩
  · exact absurd (List.cons.inj states).1 unspoilt

/-- Entries that take the place of others leave a configuration regular, if they carry what they
should and no other token is pending. -/
theorem Regular.replace (regular : Regular b) {popped above under : Stack}
    (split : b.stack = popped ++ under) (stack : d.stack = above ++ under)
    (stands : Stands tables d.stack) (control : d.status.control = .normal)
    (phase : Phase d.status.errorStatus (d.stack.map Entry.state)) (source : d.source = b.source)
    (pending : ∀ lexeme, d.status.lookahead? = some lexeme → b.status.lookahead? = some lexeme)
    (blank : ∀ e ∈ above, e.state = 1 → e.value = none)
    (apt : (∀ lexeme ∈ b.source.2, WellFormed lexeme) → ∀ e ∈ above, Apt e) : Regular d where
  stands := stands
  control := control
  phase := phase
  blank := by
    have below := regular.blank
    rw [split] at below
    rw [stack]
    exact List.forall_mem_append.mpr ⟨blank, (List.forall_mem_append.mp below).2⟩
  logged := by
    rw [source]
    exact fun lexeme seen => regular.logged lexeme (pending lexeme seen)
  apt := by
    rw [source, stack]
    intro wellFormed
    have below := regular.apt wellFormed
    rw [split] at below
    exact List.forall_mem_append.mpr ⟨apt wellFormed, (List.forall_mem_append.mp below).2⟩

section Shift

variable (wrap flags) {e : Entry Value} {rest : Stack} (stack : b.stack = e :: rest) {target : Nat}
  {t : String} (shifted : Shifted e.state (t, .shift target))
include stack shifted

theorem Regular.shift (regular : Regular b) (token : b.status.token = some t)
    (edge : tables.Edge e.state target) :
    Regular ((streamParser wrap flags).shift target b) := by
  have stack' := (streamParser wrap flags).shift_stack target b
  obtain ⟨token', value'⟩ := Parser.shift_lookahead (p := streamParser wrap flags) target b
  have atEnd : b.status.atEnd = (t == endToken) := by simp [Status.atEnd, token]
  have phase := regular.phase
  rw [stack] at stack' phase
  obtain ⟨phase, _⟩ := phase_shift phase shifted
  obtain ⟨_, lineless, content, _⟩ := shifted
  refine regular.replace (show b.stack = [] ++ (e :: rest) from stack)
    (show _ = [⟨target, b.status.value⟩] ++ (e :: rest) from stack') ?_ ?_ ?_
    ((streamParser wrap flags).shift_source target b) ?_ ?_ ?_
  · rw [stack']
    exact .push edge (stack ▸ regular.stands)
  · rw [Parser.shift_control, regular.control]
  · rw [Parser.shift_status, Status.consume_errorStatus, stack']
    exact phase
  · intro lexeme pending
    by_cases ended : t = endToken
    · simp only [atEnd, ended, beq_self_eq_true, if_true] at token' value'
      rwa [Status.lookahead?, token', value'] at pending
    · simp [Status.lookahead?, token', atEnd, ended] at pending
  · simp [lineless]
  · intro wellFormed entry member
    obtain rfl := List.mem_singleton.mp member
    have pending : b.status.lookahead? = some ⟨t, b.status.value⟩ := by
      rw [Status.lookahead?, token]
      rfl
    rw [Apt, content]
    exact wellFormed _ (regular.logged _ pending)

theorem Regular.weight_shift (regular : Regular b) :
    if t = endToken then weight ((streamParser wrap flags).shift target b) < weight b
    else weight ((streamParser wrap flags).shift target b) ≤ weight b + 6 := by
  have stack' := (streamParser wrap flags).shift_stack target b
  have phase := regular.phase
  rw [stack] at stack' phase
  obtain ⟨_, steady⟩ := phase_shift phase shifted
  obtain ⟨_, _, _, rise, ending, _⟩ := shifted
  rw [weight_cons stack', weight_cons stack, Parser.shift_status, Status.consume_errorStatus]
  simp only [steady, List.length_cons]
  split
  · next ended =>
    have lower := ending ended
    omega
  · omega

end Shift

/-- What a reduction by a rule finds on the stack. -/
structure Handle (b : StreamConfig σ) (r : Nat) (rule : Rule) (p : Production) (popped : Stack)
    (u : Entry Value) (under : Stack) (target : Nat) : Prop where
  found : tables.rules[r]? = some rule
  production : Production.ofRule? r = some p
  whole : rule.marker = none
  stack : b.stack = popped ++ u :: under
  length : popped.length = rule.length
  stands : Stands tables (u :: under)
  goes : (stateAt u.state).goto? rule.lhs = some target
  lower : 2 + bonus target + (if p = .spoiltLine then 3 else 0) <
    2 * rule.length + bonus (topState b.stack)
  content : stateContent target = if p.isExpression then some .number else none
  above : p.isExpression = true → u.state ≠ 0
  served : (∀ e ∈ b.stack, Apt e) → p.Served (b.lastValues rule.dot)
  blank : target = 1 → p.hasAction = false ∧ firstValue (b.lastValues rule.dot) = none
  fresh : b.status.errorStatus = 0 ∨ p = .spoiltLine

/-- The entry of the symbol that is `i` symbols behind the first one of a rule. -/
theorem symbol_popped {popped : Stack} (u : Entry Value) {i : Nat} (inside : i < popped.length) :
    ∃ e ∈ popped, ((popped ++ [u]).map Entry.state).getD (popped.length - 1 - i) 0 = e.state ∧
      Production.valueAt (popped.map Entry.value).reverse i = e.value := by
  have bound : popped.length - 1 - i < popped.length := by omega
  refine ⟨popped[popped.length - 1 - i], List.getElem_mem bound, ?_, ?_⟩
  · rw [List.getD_eq_getElem?_getD, List.getElem?_map, List.getElem?_append_left bound,
      List.getElem?_eq_getElem bound]
    rfl
  · rw [Production.valueAt, List.getElem?_reverse (by simpa using inside)]
    simp [bound]

/-- Where a reduction is possible on every path, it finds one of the paths on the stack. -/
theorem Regular.handle (regular : Regular b) {e : Entry Value} {rest : Stack}
    (stack : b.stack = e :: rest) {r : Nat} (usual : e.state ≠ 4) (reducible : Reducible e.state r) :
    ∃ rule p popped u under target, Handle b r rule p popped u under target := by
  obtain ⟨rule, found, p, production, whole, deep, spoilt, uncovers⟩ := reducible
  obtain ⟨popped, u, under, split, length, stands, path⟩ := pops (stack ▸ regular.stands) deep
  obtain ⟨target, goes, lower, content, above, needs, one⟩ := uncovers _ path
  have last : ((popped ++ [u]).map Entry.state).getLastD 0 = u.state := by simp
  have values : b.lastValues rule.dot = (popped.map Entry.value).reverse := by
    rw [Config.lastValues, Rule.dot, whole, Option.getD_none, stack, split, ← length,
      List.take_left]
  have inside {entry : Entry Value} (member : entry ∈ popped) : entry ∈ b.stack := by
    rw [stack, split]
    exact List.mem_append_left _ member
  rw [last] at goes above
  refine ⟨rule, p, popped, u, under, target, found, production, whole, stack.trans split, length,
    stands, goes, ?_, content, above, ?_, ?_, ?_⟩
  · simpa [topState, stack] using lower
  · intro apt need member
    obtain ⟨bound, carries⟩ := needs need member
    rw [← length] at bound carries
    obtain ⟨entry, popped', state, value⟩ := symbol_popped u bound
    rw [state] at carries
    rw [values, value]
    exact apt entry (inside popped') _ carries
  · intro same
    obtain ⟨passive, first⟩ := one same
    rw [← length] at first
    refine ⟨passive, ?_⟩
    rw [values, firstValue, List.head?_eq_getElem?]
    rcases Nat.eq_zero_or_pos popped.length with empty | bound
    · obtain rfl := List.length_eq_zero_iff.mp empty
      rfl
    · obtain ⟨entry, popped', state, value⟩ := symbol_popped u bound
      have input := first.resolve_left (Nat.ne_of_gt bound)
      exact value.trans (regular.blank entry (inside popped') (state.symm.trans input))
  · rcases regular.phase with zero | ⟨_, states⟩ | ⟨_, states⟩
    · exact .inl zero
    · rw [stack] at states
      exact absurd (List.cons.inj states).1 usual
    · rw [stack] at states
      exact .inr (spoilt (List.cons.inj states).1)

/-- What a reduction comes to. -/
inductive Reduced (b : StreamConfig σ) : Move Value δ Session (σ × List (Lexeme Value)) → Prop where
  | next {d : StreamConfig σ} (regular : Regular d) (token : d.status.token = b.status.token)
      (source : d.source = b.source) (lower : weight d < weight b) : Reduced b (.next d)
  | recover {d : StreamConfig σ} (regular : Regular d) (fresh : d.status.errorStatus = 0)
      (above : topState d.stack ≠ 0) (token : d.status.token = b.status.token)
      (source : d.source = b.source) (heavy : 6 < weight b) : Reduced b (.recover d)
  | stop {d : StreamConfig σ} {result : Result Value δ} (verdict : Verdict d result) :
      Reduced b (.stop result d)

section Handles

variable {r : Nat} {rule : Rule} {p : Production} {popped under : Stack} {u : Entry Value}
  {target : Nat} (handle : Handle b r rule p popped u under target)
include handle

variable (wrap flags) in
theorem Handle.ready : (streamParser wrap flags).Ready r rule b := by
  refine .of_whole handle.found handle.whole ?_
  rw [handle.stack, List.length_append, List.length_cons, handle.length]
  omega

theorem Handle.uncovered : b.stack.drop rule.length = u :: under := by
  rw [handle.stack, ← handle.length, List.drop_left]

variable (regular : Regular b)
include regular

/-- An action fails only if some token was malformed. -/
theorem Handle.raises {e : Error}
    (result : (p.act (b.lastValues rule.dot) b.context).result = .error e) :
    ∃ lexeme ∈ b.source.2, ¬ WellFormed lexeme := by
  by_cases wellFormed : ∀ lexeme ∈ b.source.2, WellFormed lexeme
  · obtain ⟨v, given, _⟩ :=
      Production.act_served b.context (handle.served (regular.apt wellFormed))
    rw [result] at given
    contradiction
  · simpa using wellFormed

/-- A reduction that nothing is asked of but the end of recovery. -/
theorem Handle.continues {v : Option Value}
    (result : ((streamParser wrap flags).acted r rule b).1 = .ok v)
    (control : ((streamParser wrap flags).acted r rule b).2.status.control = .normal)
    (errorStatus : ((streamParser wrap flags).acted r rule b).2.status.errorStatus = 0)
    (token : ((streamParser wrap flags).acted r rule b).2.status.token = b.status.token)
    (value : ((streamParser wrap flags).acted r rule b).2.status.value = b.status.value)
    (blank : target = 1 → v = none)
    (number : (∀ lexeme ∈ b.source.2, WellFormed lexeme) → p.isExpression = true →
      Content.number.Of v) : Reduced b ((streamParser wrap flags).reduce r b) := by
  have found : tables.states[u.state]? = some (stateAt u.state) :=
    stateAt_found (states_size ▸ handle.stands.state_lt tables_sound u (by simp))
  rw [Parser.reduce_continues _ (handle.ready wrap flags) result control handle.uncovered found
    handle.goes]
  generalize moved : ((streamParser wrap flags).closeBracket
    ((streamParser wrap flags).told r rule b (.goto u.state target))).push target v = d
  have stack : d.stack = ⟨target, v⟩ :: u :: under := by
    rw [← moved]
    simp [handle.uncovered]
  have status : d.status =
      { ((streamParser wrap flags).acted r rule b).2.status with control := .normal } := by
    rw [← moved]
    simp
  have source : d.source = b.source := by
    rw [← moved]
    simp [Config.push]
  refine .next ?_ (by rw [status, token]) source ?_
  · refine regular.replace handle.stack (show d.stack = [⟨target, v⟩] ++ (u :: under) from stack)
      ?_ ?_ (.inl (by rw [status, errorStatus])) source ?_ ?_ ?_
    · rw [stack]
      exact .push ⟨_, found, .inr (.inr ⟨_, handle.goes⟩)⟩ handle.stands
    · rw [status]
    · rw [status, Status.lookahead?]
      dsimp only
      rw [token, value]
      exact fun _ => id
    · simpa using blank
    · intro wellFormed entry member content needed
      obtain rfl := List.mem_singleton.mp member
      rw [handle.content] at needed
      cases expression : p.isExpression with
      | false => simp [expression] at needed
      | true =>
        rw [expression, if_pos rfl] at needed
        cases needed
        exact number wellFormed expression
  · have lower := handle.lower
    have height : b.stack.length = rule.length + (under.length + 1) := by
      rw [handle.stack, List.length_append, handle.length, List.length_cons]
    rw [weight_cons stack, status, weight, height, List.length_cons, if_pos errorStatus]
    dsimp only
    rcases handle.fresh with fresh | spoilt
    · rw [if_pos fresh]
      omega
    · rw [if_pos spoilt] at lower
      split <;> omega

/-- A reduction that is asked for an error. -/
theorem Handle.forces (expression : p.isExpression = true) {v : Option Value}
    (result : ((streamParser wrap flags).acted r rule b).1 = .ok v)
    (status : ((streamParser wrap flags).acted r rule b).2.status =
      { b.status with dot := rule.dot, control := .error }) :
    Reduced b ((streamParser wrap flags).reduce r b) := by
  have fresh : b.status.errorStatus = 0 := by
    rcases handle.fresh with fresh | rfl
    · exact fresh
    · contradiction
  obtain ⟨uncovered, forced⟩ :=
    Parser.reduce_forces _ (handle.ready wrap flags) result (by rw [status])
  rw [forced]
  generalize moved : (streamParser wrap flags).told r rule b (.recover uncovered) = d
  have stack : d.stack = u :: under := by
    rw [← moved, Parser.told_stack, handle.uncovered]
  have status : d.status = { b.status with dot := rule.dot, control := .normal } := by
    rw [← moved, Parser.told_status, status]
  have source : d.source = b.source := by
    rw [← moved, Parser.told_source]
  refine .recover ?_ (by rw [status, fresh]) ?_ (by rw [status]) source ?_
  · refine regular.replace handle.stack (show d.stack = [] ++ (u :: under) from stack) ?_ ?_
      (.inl (by rw [status, fresh])) source ?_ (by simp) (by simp)
    · rw [stack]
      exact handle.stands
    · rw [status]
    · rw [status]
      exact fun _ => id
  · rw [stack]
    exact handle.above expression
  · have lower := handle.lower
    rw [weight, if_pos fresh, handle.stack, List.length_append, handle.length, List.length_cons,
      ← handle.stack]
    omega

end Handles

theorem Regular.reduced (regular : Regular b) {e : Entry Value} {rest : Stack}
    (stack : b.stack = e :: rest) {r : Nat} (usual : e.state ≠ 4) (reducible : Reducible e.state r) :
    Reduced b ((streamParser wrap flags).reduce r b) := by
  obtain ⟨rule, p, popped, u, under, target, handle⟩ := regular.handle stack usual reducible
  have ready := handle.ready wrap flags
  obtain ⟨result, status⟩ := acted_eq wrap flags rule handle.production b
  cases acted : (p.act (b.lastValues rule.dot) b.context).result with
  | error e =>
    obtain ⟨lexeme, delivered, malformed⟩ := handle.raises regular acted
    rw [Parser.reduce_raises _ ready (result.trans (by rw [acted]; rfl))]
    exact .stop (.action r _ (by rwa [Parser.acted_source]) malformed)
  | ok v =>
    replace result := result.trans (by rw [acted]; rfl : _ = Except.ok v)
    rcases p.act_requests (b.lastValues rule.dot) b.context with
      ⟨requests, other⟩ | ⟨requests, expression⟩ | ⟨requests, spoilt⟩
    · rw [requests] at status
      have fresh := handle.fresh.resolve_right other
      refine handle.continues regular result (by rw [status]; exact regular.control)
        (by rw [status]; exact fresh) (by rw [status]; rfl) (by rw [status]; rfl) ?_ ?_
      · intro same
        obtain ⟨passive, none⟩ := handle.blank same
        rw [act_of_not_hasAction passive] at acted
        cases acted
        exact none
      · intro wellFormed expression
        obtain ⟨v', given, number⟩ :=
          Production.act_served b.context (handle.served (regular.apt wellFormed))
        cases acted.symm.trans given
        exact number expression requests
    · rw [requests] at status
      exact handle.forces regular expression result status
    · rw [requests] at status
      refine handle.continues regular result (by rw [status]; exact regular.control)
        (by rw [status]; rfl) (by rw [status]; rfl) (by rw [status]; rfl) ?_ ?_
      · intro same
        have active := (handle.blank same).1
        simp [spoilt, Production.hasAction] at active
      · intro _ expression
        simp [spoilt, Production.isExpression] at expression

/-- Behind the end of the input, nothing but the first entry is below the rule that accepts. -/
theorem Regular.accepts (regular : Regular b) {e : Entry Value} {rest : Stack}
    (stack : b.stack = e :: rest) (two : e.state = 2) :
    Reduced b ((streamParser wrap flags).reduce 0 (b.setControl .accept)) := by
  obtain ⟨popped, u, under, split, length, stands, path⟩ :=
    pops (k := 2) (stack ▸ regular.stands) (by rw [two]; decide)
  rw [two, show paths 2 2 = [[2, 1, 0]] by decide, List.mem_singleton] at path
  match popped, length with
  | [top, input], _ =>
    obtain ⟨_, one, zero⟩ : top.state = 2 ∧ input.state = 1 ∧ u.state = 0 := by simpa using path
    obtain ⟨rfl, rfl⟩ := bottom_of_zero stands zero
    have stack : b.stack = [top, input, ⟨0, none⟩] := stack.trans split
    have blank : input.value = none := regular.blank input (by simp [stack]) one
    let before := b.setControl .accept
    have ready : (streamParser wrap flags).Ready 0 ⟨"$start", 2, none⟩ before :=
      .of_whole (by rfl) rfl (by simp [before, stack])
    obtain ⟨result, status⟩ := acted_eq wrap flags ⟨"$start", 2, none⟩
      (show Production.ofRule? 0 = some .start from rfl) before
    have values : before.lastValues 2 = [none, top.value] := by
      simp [before, Config.lastValues, stack, blank]
    have given : ((streamParser wrap flags).acted 0 ⟨"$start", 2, none⟩ before).1 = .ok none := by
      rw [result]
      simp only [Rule.dot, Option.getD_none, values]
      rfl
    rw [Parser.reduce_accepts _ ready given (by rw [status]; rfl)]
    exact .stop (.accepted (by simp [before, stack]))

section Recovery

variable (wrap flags) in
/-- The hook leaves the lookahead alone, and the error uncleared. -/
theorem entered_lookahead (b : StreamConfig σ) :
    ((streamParser wrap flags).entered b).status.token = b.status.token ∧
      ((streamParser wrap flags).entered b).status.value = b.status.value := by
  unfold Parser.entered Parser.enterRecovery
  split
  · simp only [Config.emit_status]
    exact ⟨rfl, rfl⟩
  · exact ⟨rfl, rfl⟩

/-- Recovery goes back to the input so far, and shifts the error token on it. -/
theorem Regular.lands (regular : Regular b) (above : topState b.stack ≠ 0) :
    (∀ result d, (streamParser wrap flags).recover lexer.logging b = .stop result d →
      Verdict d result) ∧
    ∀ d, (streamParser wrap flags).recover lexer.logging b = .next d →
      ∃ v, d.stack = [⟨4, none⟩, ⟨1, v⟩, ⟨0, none⟩] ∧ ⟨1, v⟩ ∈ b.stack ∧
        d.status.errorStatus = 3 := by
  have cases := (streamParser wrap flags).recover_cases lexer.logging b
  generalize (streamParser wrap flags).recover lexer.logging b = step at cases
  cases cases with
  | resumed _ cleared =>
    have uncleared : ((streamParser wrap flags).report b).status.errorStatus = 1 := rfl
    omega
  | stopped _ discard =>
    refine ⟨?_, by simp⟩
    rintro _ _ ⟨⟩
    rcases (streamParser wrap flags).discard_stop lexer.logging discard with rfl | ⟨e, rfl⟩
    · exact .endOfInput
    · exact .lexer e
  | @unwound b' _ _ discard unwound =>
    have same := Parser.discard_next_stack discard
    have stands := same ▸ regular.stands
    have unwinding := (streamParser wrap flags).unwind_cases (b'.setErrorStatus 3) b'.stack
    rw [unwound] at unwinding
    cases unwinding with
    | @shifted _ rest top state target d split _ found shifts stack_eq status =>
      refine ⟨by simp, ?_⟩
      rintro _ ⟨⟩
      obtain ⟨known, rfl⟩ := known_of_found found
      rw [errorShifts _ known] at shifts
      split at shifts
      · next one =>
        cases shifts
        have bottom := rest_of_one (split ▸ stands).suffix one
        obtain ⟨_, v⟩ := top
        cases one
        exact ⟨v, by rw [stack_eq, bottom], by rw [← same, split]; simp, by rw [status]; rfl⟩
      · contradiction
    | exhausted lacking =>
      rcases one_mem_of_stands stands with ⟨v, lone⟩ | ⟨entry, member, one⟩
      · rw [same] at lone
        exact absurd (by rw [lone]; rfl) above
      · obtain ⟨state, found, shiftless⟩ := lacking entry member
        obtain ⟨known, rfl⟩ := known_of_found found
        rw [errorShifts _ known, if_pos one] at shiftless
        contradiction
    | unknownState member missing =>
      exact absurd missing (stands.state_known tables_sound member)

/-- Behind recovery there is nothing on the stack but the error token, which carries nothing. -/
theorem Regular.resumes (regular : Regular b) (above : topState b.stack ≠ 0)
    (recovered : (streamParser wrap flags).recover lexer.logging b = .next d)
    (logged : ∀ lexeme, d.status.lookahead? = some lexeme → lexeme ∈ d.source.2) :
    Regular d ∧ weight d = 6 := by
  obtain ⟨v, stack, inside, errorStatus⟩ := (regular.lands above).2 d recovered
  refine ⟨⟨Parser.recover_stands regular.stands recovered, ?_, ?_, ?_, logged, ?_⟩, ?_⟩
  · rw [Parser.recover_control recovered]
    split
    · exact regular.control
    · exact regular.control
  · rw [errorStatus, stack]
    exact .inr (.inl ⟨rfl, rfl⟩)
  · rw [stack]
    simpa using regular.blank _ inside
  · rw [stack]
    simp [Apt, Carries, stateContent]
  · rw [weight_cons stack, errorStatus]
    rfl

theorem Regular.heavy (regular : Regular b) (above : topState b.stack ≠ 0)
    (fresh : b.status.errorStatus = 0) : 6 < weight b := by
  obtain ⟨e, rest, stack, _⟩ := regular.top
  have higher : e.state ≠ 0 := by simpa [topState, stack] using above
  obtain ⟨under, more, rfl, _⟩ := below_top (stack ▸ regular.stands) higher
  rw [weight_cons stack, fresh, List.length_cons]
  simp only [if_true]
  omega

/-- An error that is new leaves the token pending. -/
theorem Regular.spares (regular : Regular b) (above : topState b.stack ≠ 0)
    (fresh : b.status.errorStatus = 0)
    (recovered : (streamParser wrap flags).recover lexer.logging b = .next d) :
    Regular d ∧ d.status.token = b.status.token ∧ d.source = b.source ∧ weight d = 6 := by
  have kept := (streamParser wrap flags).recover_spares lexer.logging (b := b) (by omega)
  rw [recovered] at kept
  simp only [Step.config] at kept
  obtain ⟨token, value, source, _⟩ := kept
  obtain ⟨token', value'⟩ := entered_lookahead wrap flags b
  obtain ⟨regular', light⟩ := regular.resumes above recovered (by
    rw [Status.lookahead?, token.trans token', value.trans value', source]
    exact regular.logged)
  exact ⟨regular', token.trans token', source, light⟩

/-- An error that repeats uses up the token. -/
theorem Regular.discards (regular : Regular b) (above : topState b.stack ≠ 0)
    (repeated : b.status.errorStatus = 3) {t : String} (token : b.status.token = some t)
    (recovered : (streamParser wrap flags).recover lexer.logging b = .next d) :
    Regular d ∧ t ≠ endToken ∧ d.status.token = none ∧ d.source = b.source ∧
      weight d ≤ weight b + 6 := by
  have consumes := (streamParser wrap flags).recover_consumes lexer.logging repeated
  rw [recovered] at consumes
  cases consumes with
  | @discarded _ b' lexeme supply pending inside _ missing _ source =>
    cases supply with
    | delivered absent => simp [token] at absent
    | idle token' value' source' =>
      obtain ⟨regular', light⟩ := regular.resumes above recovered (by
        have missing : d.status.token = none := missing
        simp [Status.lookahead?, missing])
      refine ⟨regular', ?_, missing, source.trans source', by omega⟩
      rw [Status.lookahead?, token', token] at pending
      obtain rfl := Option.some.inj pending
      simpa [Lexeme.isEnd] using inside

end Recovery

/-- What a step comes to. Either it uses the pending token, or it makes less of what is there. -/
inductive Ways (lexer : Lexer Value δ σ) (c : StreamConfig σ) :
    Step Value δ Session (σ × List (Lexeme Value)) → Prop where
  | ended {d : StreamConfig σ} {result : Result Value δ} (verdict : Verdict d result) :
      Ways lexer c (.stop result d)
  | kept {b d : StreamConfig σ} (regular : Regular d) (supply : lexer.logging.Supply c b)
      (token : d.status.token = b.status.token) (source : d.source = b.source)
      (lower : weight d < weight c) : Ways lexer c (.next d)
  | used {b d : StreamConfig σ} {t : String} (regular : Regular d)
      (supply : lexer.logging.Supply c b) (pending : b.status.token = some t) (inside : t ≠ endToken)
      (token : d.status.token = none) (source : d.source = b.source)
      (risen : weight d ≤ weight c + 6) : Ways lexer c (.next d)

theorem Regular.performed (regular : Regular c) {action : Option Action}
    (performs : (streamParser wrap flags).Performs lexer.logging c action b) :
    Regular b ∧ weight b = weight c ∧ ∃ e rest, b.stack = e :: rest ∧ e.state < 26 ∧
      tables.states[e.state]? = some (stateAt e.state) ∧
      (stateAt e.state).select b.status.token = action := by
  have regular' := regular.supplied performs.frame performs.supply
  refine ⟨regular', weight_of_fetch performs.frame, ?_⟩
  have same := performs.frame.stack
  obtain ⟨e, rest, state, stack, found, _, selected⟩ := performs
  obtain ⟨known, rfl⟩ := known_of_found found
  exact ⟨e, rest, same.trans stack, known, found, selected⟩

theorem Regular.reduces (regular : Regular c) {r : Nat}
    (reduces : (streamParser wrap flags).Reduces lexer.logging c r b) :
    ∃ b', weight b' = weight c ∧ lexer.logging.Supply c b' ∧
      b'.status.errorStatus = c.status.errorStatus ∧
      Reduced b' ((streamParser wrap flags).reduce r b) := by
  rcases reduces with performs | ⟨before, performs, rfl, rfl⟩
  · obtain ⟨regular', same, e, rest, stack, known, _, selected⟩ := regular.performed performs
    refine ⟨b, same, performs.supply, performs.frame.errorStatus, ?_⟩
    rcases select_cases known selected with ⟨_, _, _, other, _⟩ | default
    · simp at other
    · have done := defaults e.state known
      rw [default] at done
      exact regular'.reduced stack done.1 done.2
  · obtain ⟨regular', same, e, rest, stack, known, _, selected⟩ := regular.performed performs
    refine ⟨before, same, performs.supply, performs.frame.errorStatus, ?_⟩
    rcases select_cases known selected with ⟨_, _, _, other, _⟩ | default
    · simp at other
    · have done := defaults e.state known
      rw [default] at done
      exact regular'.accepts stack done

/-- A state without a default has a token to choose by. -/
theorem performed_token {action : Option Action}
    (performs : (streamParser wrap flags).Performs lexer.logging c action b) {e : Entry Value}
    {rest : Stack} (same : b.stack = e :: rest) (known : e.state < 26)
    (default : (stateAt e.state).default = none) : ∃ t, b.status.token = some t := by
  have frame := performs.frame.stack
  obtain ⟨top, more, state, stack, found, looked, _⟩ := performs
  rw [same, stack] at frame
  obtain ⟨rfl, rfl⟩ := List.cons.inj frame
  obtain ⟨_, rfl⟩ := known_of_found found
  rw [Parser.lookahead, if_pos (asks _ known default)] at looked
  obtain ⟨_, lexeme, pending⟩ := Parser.fetchMissing_supply looked
  obtain ⟨t, token, _⟩ := Option.map_eq_some_iff.mp pending
  exact ⟨t, token⟩

variable (wrap flags lexer) in
theorem Regular.step (regular : Regular c) :
    Ways lexer c ((streamParser wrap flags).step lexer.logging c) := by
  have cases := (streamParser wrap flags).step_cases lexer.logging c
  generalize (streamParser wrap flags).step lexer.logging c = step at cases
  cases cases with
  | empty empty => exact absurd empty regular.stands.ne_nil
  | unknownState stack missing =>
    exact absurd missing (regular.stands.state_known tables_sound (by simp [stack]))
  | unfetched => exact .ended (.lexer _)
  | @shifted target b performs =>
    obtain ⟨regular', same, e, rest, stack, known, found, selected⟩ := regular.performed performs
    rcases select_cases known selected with ⟨t, _, token, ⟨⟩, shifted⟩ | default
    · have after := regular'.shift wrap flags stack shifted token (.of_select found selected)
      have light := regular'.weight_shift wrap flags stack shifted
      obtain ⟨token', _⟩ := Parser.shift_lookahead (p := streamParser wrap flags) target b
      have source := (streamParser wrap flags).shift_source target b
      rw [same] at light
      by_cases ended : t = endToken
      · rw [if_pos ended] at light
        exact .kept after performs.supply (by simp [token', Status.atEnd, token, ended]) source light
      · rw [if_neg ended] at light
        exact .used after performs.supply token ended (by simp [token', Status.atEnd, token, ended])
          source light
    · have done := defaults e.state known
      rw [default] at done
      exact done.elim
  | reduced reduces reduced =>
    obtain ⟨b', same, supply, _, ways⟩ := regular.reduces reduces
    rw [reduced] at ways
    cases ways with
    | next after token source lower => exact .kept after supply token source (same ▸ lower)
  | ended reduces reduced =>
    obtain ⟨_, _, _, _, ways⟩ := regular.reduces reduces
    rw [reduced] at ways
    cases ways with
    | stop verdict => exact .ended verdict
  | @recovered b step recovers recovered =>
    rcases recovers with performs | ⟨r, before, reduces, forced⟩
    · obtain ⟨regular', same, e, rest, stack, known, _, selected⟩ := regular.performed performs
      have default : (stateAt e.state).default = none :=
        (select_cases known selected).resolve_left (by simp)
      have done := defaults e.state known
      rw [default] at done
      have above : topState b.stack ≠ 0 := by simpa [topState, stack] using done.1
      cases step with
      | stop result d => exact .ended ((regular'.lands above).1 result d recovered)
      | next d =>
        rcases regular'.phase with fresh | ⟨repeated, _⟩ | ⟨_, states⟩
        · obtain ⟨after, token, source, light⟩ := regular'.spares above fresh recovered
          exact .kept after performs.supply token source
            (by rw [light, ← same]; exact regular'.heavy above fresh)
        · obtain ⟨t, token⟩ := performed_token performs stack known default
          obtain ⟨after, inside, token', source, risen⟩ :=
            regular'.discards above repeated token recovered
          exact .used after performs.supply token inside token' source (same ▸ risen)
        · rw [stack] at states
          exact absurd (List.cons.inj states).1 done.2
    · obtain ⟨b', same, supply, _, ways⟩ := regular.reduces reduces
      rw [forced] at ways
      cases ways with
      | recover regular' fresh above token source heavy =>
        cases step with
        | stop result d => exact .ended ((regular'.lands above).1 result d recovered)
        | next d =>
          obtain ⟨after, token', source', light⟩ := regular'.spares above fresh recovered
          exact .kept after supply (token'.trans token) (source'.trans source) (by omega)

end

end Calculator

end ShiftReduce
