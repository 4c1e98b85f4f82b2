import ShiftReduce.Parser.Config

/-! A step looks at the state on top of the stack, fetches a lookahead if the state wants one, and
then shifts, reduces or recovers from an error. Recovery reports the error, discards the lookahead
if the error repeats, pops entries down to a state that shifts the error token, and shifts it. -/

namespace ShiftReduce

variable {V ε γ σ : Type}

structure Parser (V ε γ : Type) where
  tables : Tables
  driver : Driver V ε γ
  flags : Trace.Flags := .none

inductive Move (V ε γ σ : Type) where
  | next (config : Config V γ σ)
  | recover (config : Config V γ σ)
  | stop (result : Result V ε) (config : Config V γ σ)

def Move.resolve (m : Move V ε γ σ) (recover : Config V γ σ → Step V ε γ σ) : Step V ε γ σ :=
  match m with
  | .next c => .next c
  | .recover c => recover c
  | .stop result c => .stop result c

namespace Parser

variable (p : Parser V ε γ) (lexer : Lexer V ε σ)

def fetch (c : Config V γ σ) : Step V ε γ σ :=
  match lexer c.status c.source with
  | (.error e, source) => .stop (.error (.lexer e)) { c with source }
  | (.ok lexeme, source) =>
    let c := { c with source, stats.tokens := c.stats.tokens + 1 }
    let c := c.emit p.flags (.fetched lexeme.token)
    .next { c with status := { c.status with token := some lexeme.token, value := lexeme.value } }

def fetchMissing (c : Config V γ σ) : Step V ε γ σ :=
  if c.status.token.isNone then p.fetch lexer c else .next c

def lookahead (state : State) (c : Config V γ σ) : Step V ε γ σ :=
  if state.needsToken then p.fetchMissing lexer c
  else .next (c.emit p.flags .noTokenNeeded)

/-- Tells the end of error recovery once the error status is back at zero. -/
def closeBracket (c : Config V γ σ) : Config V γ σ :=
  if c.bracketOpen && c.status.errorStatus == 0 then
    { c.emit p.flags .recoveryEnded with bracketOpen := false }
  else c

/-- Shifts the lookahead, which brings the end of recovery one step nearer. -/
def shift (target : Nat) (c : Config V γ σ) : Config V γ σ :=
  let c := c.emit p.flags (.shift target)
  let c :=
    if 0 < c.status.errorStatus then
      p.closeBracket (c.setErrorStatus (c.status.errorStatus - 1))
    else c
  let value := c.status.value
  let c := { c with status := c.status.consume, stats.shifts := c.stats.shifts + 1 }
  c.push target value

/-- The value of a reduction: what the rule's action makes of the values, or the first of them. -/
def evaluate (rule : Nat) (values : List (Option V)) (c : Config V γ σ) :
    Except ε (Option V) × Config V γ σ :=
  if p.driver.hasAction rule then
    let reply := p.driver.reduce rule values (c.view p.tables (some rule)) c.context
    (reply.result, c.absorb reply)
  else (.ok (firstValue values), c)

def goto (index : Nat) (rule : Rule) (value : Option V) (available : Nat) (c : Config V γ σ) :
    Move V ε γ σ :=
  match c.stack with
  | [] => .stop (.error (.tooLow index (Word.next? rule.length) available)) c
  | top :: _ =>
    match p.tables.state top.state with
    | .error defect => .stop (.error (.defect defect)) c
    | .ok state =>
      match state.goto? rule.lhs with
      | none => .stop (.error (.missingGoto top.state rule.lhs)) c
      | some target =>
        let c := c.emit p.flags (.reduced index rule.lhs rule.length (.goto top.state target))
        .next ((p.closeBracket c).push target value)

/-- Pops the entries of a rule and does what the control flag says, which is cleared by that. -/
def settle (index : Nat) (rule : Rule) (value : Option V) (available : Nat) (c : Config V γ σ) :
    Move V ε γ σ :=
  let control := c.status.control
  let c := { c with
    stack := c.stack.drop rule.length
    stats.reductions := c.stats.reductions + 1 }
  let c := c.setControl .normal
  let told (next : Trace.Aftermath) := c.emit p.flags (.reduced index rule.lhs rule.length next)
  match control with
  | .accept => .stop (.ok (.accept value)) (told .accept)
  | .abort => .stop (.ok .abort) (told .abort)
  | .error => .recover (told (.recover ((c.stack.head?.map Entry.state).getD 0)))
  | .normal => p.goto index rule value available c

/-- Reduces by a rule. Nothing is done on a stack that is too low for it. -/
def reduce (index : Nat) (c : Config V γ σ) : Move V ε γ σ :=
  match p.tables.rule index with
  | .error defect => .stop (.error (.defect defect)) c
  | .ok rule =>
    let available := c.stack.length
    if rule.exceeds available then
      .stop (.error (.tooLow index rule.needed? available)) c
    else
      let c := { c with status := { c.status with dot := rule.dot } }
      match p.evaluate index (c.lastValues rule.dot) c with
      | (.error e, c) => .stop (.error (.action index e)) c
      | (.ok value, c) => p.settle index rule value available c

/-- Carries out an action; with none, the lookahead is a syntax error. -/
def perform (action : Option Action) (c : Config V γ σ) : Move V ε γ σ :=
  match action with
  | some (.shift target) => .next (p.shift target c)
  | some (.reduce rule) => p.reduce rule c
  | some .accept => p.reduce 0 (c.setControl .accept)
  | none => .recover c

/-- Calls the error hook, during which the error status is 1. -/
def report (c : Config V γ σ) : Config V γ σ :=
  let c := c.setErrorStatus 1
  c.absorb (p.driver.onError (c.view p.tables none) c.context)

/-- Counts an error that the hook did not clear. -/
def enterRecovery (c : Config V γ σ) : Config V γ σ :=
  let c := c.emit p.flags .recoveryEntered
  { c with
    bracketOpen := true
    status := { c.status with errorCount := c.status.errorCount + 1 }
    stats.errors := c.stats.errors + 1 }

/-- Throws away the lookahead of an error that repeats before anything was shifted. -/
def discard (c : Config V γ σ) : Step V ε γ σ :=
  if c.status.errorStatus = 3 then
    (p.fetchMissing lexer c).andThen fun c =>
      if c.status.atEnd then .stop (.ok (.fail .endOfInput)) (c.emit p.flags .inputExhausted)
      else
        let c := c.emit p.flags (.discarded (c.status.token.getD ""))
        .next { c with
          status := c.status.dropToken
          stats.discarded := c.stats.discarded + 1 }
  else .next c

/-- Pops entries until the state on top shifts the error token, and shifts it. -/
def unwind (c : Config V γ σ) : List (Entry V) → Step V ε γ σ
  | [] => .stop (.ok (.fail .stackExhausted)) ({ c with stack := [] }.emit p.flags .stackExhausted)
  | top :: rest =>
    match p.tables.state top.state with
    | .error defect => .stop (.error (.defect defect)) { c with stack := top :: rest }
    | .ok state =>
      match state.errorShift? with
      | some target =>
        .next (({ c with stack := top :: rest }.emit p.flags (.errorShift target)).push target none)
      | none =>
        let c := c.emit p.flags (.popped top.state)
        unwind { c with stats.popped := c.stats.popped + 1 } rest

def resynchronize (c : Config V γ σ) : Step V ε γ σ :=
  (p.discard lexer c).andThen fun c => p.unwind (c.setErrorStatus 3) c.stack

/-- Error recovery. A hook that clears the error status cancels it. -/
def recover (c : Config V γ σ) : Step V ε γ σ :=
  if c.status.errorStatus = 0 then
    let c := p.report c
    if c.status.errorStatus = 0 then .next c else p.resynchronize lexer (p.enterRecovery c)
  else p.resynchronize lexer c

/-- One step: the action that the state on top of the stack takes, and recovery if it fails. -/
def step (c : Config V γ σ) : Step V ε γ σ :=
  match c.stack with
  | [] => .stop (.ok (.fail .stackExhausted)) c
  | top :: _ =>
    match p.tables.state top.state with
    | .error defect => .stop (.error (.defect defect)) c
    | .ok state =>
      let c := (c.emit p.flags (.state top.state)).emitStack p.flags
      (p.lookahead lexer state c).andThen fun c =>
        (p.perform (state.select c.status.token) c).resolve (p.recover lexer)

end Parser

end ShiftReduce
