import ShiftReduce.Proofs.Reach

/-! Two parsers that agree on what they are told take the same steps. Here the second one may work
on other values, as long as they are translations of those of the first one, and on contexts,
sources and records that only have to belong to each other. -/

namespace ShiftReduce

variable {V W ε δ γ κ σ τ : Type}

namespace Trace.Flags

/-- The record with an event added, if its category is shown. -/
def record (flags : Flags) (event : Event) (records : List Record) : List Record :=
  if flags.shows event.category then .event event :: records else records

end Trace.Flags

theorem Config.emit_records (c : Config V γ σ) (flags : Trace.Flags) (event : Trace.Event) :
    (c.emit flags event).records = flags.record event c.records := by
  unfold Config.emit Trace.Flags.record
  split <;> rfl

def Entry.map (f : V → W) (e : Entry V) : Entry W := ⟨e.state, e.value.map f⟩

def Lexeme.map (f : V → W) (l : Lexeme V) : Lexeme W := ⟨l.token, l.value.map f⟩

def Status.map (f : V → W) (s : Status V) : Status W :=
  { token := s.token, value := s.value.map f, errorStatus := s.errorStatus
    errorCount := s.errorCount, control := s.control, dot := s.dot }

def View.map (f : V → W) (v : View V) : View W :=
  { status := v.status.map f, stack := v.stack.map (Entry.map f), tables := v.tables, rule := v.rule }

def Request.map (f : V → W) : Request V → Request W
  | .accept => .accept
  | .abort => .abort
  | .error => .error
  | .errok => .errok
  | .setToken token => .setToken token
  | .setValue value => .setValue (value.map f)

def Outcome.map (f : V → W) : Outcome V → Outcome W
  | .accept value => .accept (value.map f)
  | .abort => .abort
  | .fail reason => .fail reason

section
variable (f : V → W) (s : Status V)

@[simp] theorem Entry.map_state (e : Entry V) : (e.map f).state = e.state := rfl

@[simp] theorem Status.map_token : (s.map f).token = s.token := rfl

@[simp] theorem Status.map_value : (s.map f).value = s.value.map f := rfl

@[simp] theorem Status.map_errorStatus : (s.map f).errorStatus = s.errorStatus := rfl

@[simp] theorem Status.map_control : (s.map f).control = s.control := rfl

theorem Status.map_consume : s.consume.map f = (s.map f).consume := by
  unfold consume
  change _ = if s.atEnd then _ else _
  split <;> rfl

theorem Status.map_applyAll (requests : List (Request V)) :
    (s.applyAll requests).map f = (s.map f).applyAll (requests.map (Request.map f)) := by
  induction requests generalizing s with
  | nil => rfl
  | cons request rest ih =>
    rw [applyAll_cons, ih, List.map_cons, applyAll_cons]
    cases request <;> rfl

theorem firstValue_map (values : List (Option V)) :
    firstValue (values.map (Option.map f)) = (firstValue values).map f := by
  cases values <;> rfl

@[simp] theorem Entry.map_id : Entry.map (id : V → V) = id := by
  funext e
  simp [Entry.map]

@[simp] theorem Lexeme.map_id (l : Lexeme V) : l.map id = l := by
  simp [Lexeme.map]

@[simp] theorem Status.map_id (s : Status V) : s.map id = s := by
  simp [Status.map]

@[simp] theorem View.map_id (v : View V) : v.map id = v := by
  simp [View.map]

@[simp] theorem Request.map_id : Request.map (id : V → V) = id := by
  funext request
  cases request <;> simp [Request.map]

@[simp] theorem Outcome.map_id (o : Outcome V) : o.map id = o := by
  cases o <;> simp [Outcome.map]

end

/-- How the values of one run translate into those of another one, and what else of the two belongs
to each other. -/
structure Likeness (V W ε δ γ κ σ τ : Type) where
  value : V → W
  error : ε → δ → Prop
  context : γ → κ → Prop
  source : σ → τ → Prop
  warnings : List String → List String → Prop
  records : List Trace.Record → List Trace.Record → Prop

namespace Likeness

section

variable (L : Likeness V W ε δ γ κ σ τ)

structure Configs (c : Config V γ σ) (d : Config W κ τ) : Prop where
  stack : d.stack = c.stack.map (Entry.map L.value)
  status : d.status = c.status.map L.value
  stats : d.stats = c.stats
  bracketOpen : d.bracketOpen = c.bracketOpen
  context : L.context c.context d.context
  source : L.source c.source d.source
  records : L.records c.records d.records

inductive Faults : Fault ε → Fault δ → Prop where
  | defect (defect : Defect) : Faults (.defect defect) (.defect defect)
  | missingGoto (state : Nat) (lhs : String) : Faults (.missingGoto state lhs) (.missingGoto state lhs)
  | stackUnderflow (rule needed available : Nat) :
      Faults (.stackUnderflow rule needed available) (.stackUnderflow rule needed available)
  | lexer {e : ε} {e' : δ} (errors : L.error e e') : Faults (.lexer e) (.lexer e')
  | action (rule : Nat) {e : ε} {e' : δ} (errors : L.error e e') :
      Faults (.action rule e) (.action rule e')
  | overflow : Faults .overflow .overflow

variable {L} in
theorem Faults.tooLow (rule : Nat) (needed? : Option Nat) (available : Nat) :
    L.Faults (.tooLow rule needed? available) (.tooLow rule needed? available) := by
  cases needed? with
  | some needed => exact .stackUnderflow rule needed available
  | none => exact .overflow

inductive Results : Result V ε → Result W δ → Prop where
  | ok (outcome : Outcome V) : Results (.ok outcome) (.ok (outcome.map L.value))
  | error {fault : Fault ε} {fault' : Fault δ} (faults : L.Faults fault fault') :
      Results (.error fault) (.error fault')

/-- Both go on, or both stop. -/
inductive Steps : Step V ε γ σ → Step W δ κ τ → Prop where
  | next {c : Config V γ σ} {d : Config W κ τ} (alike : L.Configs c d) : Steps (.next c) (.next d)
  | stop {r : Result V ε} {r' : Result W δ} {c : Config V γ σ} {d : Config W κ τ}
      (results : L.Results r r') (alike : L.Configs c d) : Steps (.stop r c) (.stop r' d)

inductive Moves : Move V ε γ σ → Move W δ κ τ → Prop where
  | next {c : Config V γ σ} {d : Config W κ τ} (alike : L.Configs c d) : Moves (.next c) (.next d)
  | recover {c : Config V γ σ} {d : Config W κ τ} (alike : L.Configs c d) :
      Moves (.recover c) (.recover d)
  | stop {r : Result V ε} {r' : Result W δ} {c : Config V γ σ} {d : Config W κ τ}
      (results : L.Results r r') (alike : L.Configs c d) : Moves (.stop r c) (.stop r' d)

structure Runs (r : Run V ε γ σ) (r' : Run W δ κ τ) : Prop where
  result : L.Results r.result r'.result
  final : L.Configs r.final r'.final

inductive Answers : Except ε (Lexeme V) × σ → Except δ (Lexeme W) × τ → Prop where
  | ok (lexeme : Lexeme V) {s : σ} {s' : τ} (sources : L.source s s') :
      Answers (.ok lexeme, s) (.ok (lexeme.map L.value), s')
  | error {e : ε} {e' : δ} {s : σ} {s' : τ} (errors : L.error e e') (sources : L.source s s') :
      Answers (.error e, s) (.error e', s')

inductive Values : Except ε (Option V) → Except δ (Option W) → Prop where
  | ok (value : Option V) : Values (.ok value) (.ok (value.map L.value))
  | error {e : ε} {e' : δ} (errors : L.error e e') : Values (.error e) (.error e')

structure Replies {α β : Type} (results : α → β → Prop) (r : Reply V γ α) (r' : Reply W κ β) :
    Prop where
  result : results r.result r'.result
  context : L.context r.context r'.context
  requests : r'.requests = r.requests.map (Request.map L.value)
  warnings : L.warnings r.warnings r'.warnings

/-- Shown the same status, the lexers give the same answer. -/
def Lexers (lexer : Lexer V ε σ) (lexer' : Lexer W δ τ) : Prop :=
  ∀ status {s s'}, L.source s s' →
    L.Answers (lexer status s) (lexer' (status.map L.value) s')

/-- Shown the same, the drivers give the same replies, where they have actions at all. -/
structure Drivers (driver : Driver V ε γ) (driver' : Driver W δ κ) : Prop where
  hasAction : ∀ rule, driver'.hasAction rule = driver.hasAction rule
  reduce : ∀ rule values view {g k}, driver.hasAction rule = true → L.context g k →
    L.Replies L.Values (driver.reduce rule values view g)
      (driver'.reduce rule (values.map (Option.map L.value)) (view.map L.value) k)
  onError : ∀ view {g k}, L.context g k →
    L.Replies Eq (driver.onError view g) (driver'.onError (view.map L.value) k)

/-- The parsers have the same tables and drivers that reply alike, and what they record belongs to
each other. -/
structure Parsers (p : Parser V ε γ) (q : Parser W δ κ) : Prop where
  tables : q.tables = p.tables
  drivers : L.Drivers p.driver q.driver
  emits : ∀ event {r r'}, L.records r r' →
    L.records (p.flags.record event r) (q.flags.record event r')
  warns : ∀ {texts texts' : List String} {r r'}, L.warnings texts texts' → L.records r r' →
    L.records ((texts.map Trace.Record.warning).reverse ++ r)
      ((texts'.map Trace.Record.warning).reverse ++ r')

end

variable {L : Likeness V W ε δ γ κ σ τ} {c : Config V γ σ} {d : Config W κ τ}

theorem Configs.errorStatus (alike : L.Configs c d) :
    d.status.errorStatus = c.status.errorStatus := by
  rw [alike.status, Status.map_errorStatus]

theorem Configs.token (alike : L.Configs c d) : d.status.token = c.status.token := by
  rw [alike.status, Status.map_token]

theorem Configs.control (alike : L.Configs c d) : d.status.control = c.status.control := by
  rw [alike.status, Status.map_control]

theorem Configs.atEnd (alike : L.Configs c d) : d.status.atEnd = c.status.atEnd := by
  rw [Status.atEnd, alike.token, Status.atEnd]

theorem Configs.states (alike : L.Configs c d) : d.states = c.states := by
  simp [Config.states, alike.stack, Function.comp_def]

theorem Configs.view (alike : L.Configs c d) (tables : Tables) (rule : Option Nat) :
    d.view tables rule = (c.view tables rule).map L.value := by
  rw [Config.view, alike.stack, alike.status]
  rfl

theorem Configs.push (alike : L.Configs c d) (state : Nat) (value : Option V) :
    L.Configs (c.push state value) (d.push state (value.map L.value)) :=
  { alike with stack := by simp [Config.push, alike.stack, Entry.map] }

theorem Configs.setErrorStatus (alike : L.Configs c d) (n : Nat) :
    L.Configs (c.setErrorStatus n) (d.setErrorStatus n) :=
  { alike with status := by rw [Config.setErrorStatus, alike.status]; rfl }

theorem Configs.setControl (alike : L.Configs c d) (control : Control) :
    L.Configs (c.setControl control) (d.setControl control) :=
  { alike with status := by rw [Config.setControl, alike.status]; rfl }

theorem Configs.lastValues (alike : L.Configs c d) (count : Nat) :
    d.lastValues count = (c.lastValues count).map (Option.map L.value) := by
  simp only [Config.lastValues, alike.stack, List.map_reverse, ← List.map_take, List.map_map]
  rfl

theorem Steps.andThen {step : Step V ε γ σ} {step' : Step W δ κ τ} (steps : L.Steps step step')
    {next : Config V γ σ → Step V ε γ σ} {next' : Config W κ τ → Step W δ κ τ}
    (alike : ∀ {c d}, L.Configs c d → L.Steps (next c) (next' d)) :
    L.Steps (step.andThen next) (step'.andThen next') := by
  cases steps with
  | next configs => exact alike configs
  | stop results configs => exact .stop results configs

theorem Moves.resolve {move : Move V ε γ σ} {move' : Move W δ κ τ} (moves : L.Moves move move')
    {recover : Config V γ σ → Step V ε γ σ} {recover' : Config W κ τ → Step W δ κ τ}
    (alike : ∀ {c d}, L.Configs c d → L.Steps (recover c) (recover' d)) :
    L.Steps (move.resolve recover) (move'.resolve recover') := by
  cases moves with
  | next configs => exact .next configs
  | recover configs => exact alike configs
  | stop results configs => exact .stop results configs

namespace Parsers

variable {p : Parser V ε γ} {q : Parser W δ κ} (parsers : L.Parsers p q)
include parsers

theorem emit (event : Trace.Event) (alike : L.Configs c d) :
    L.Configs (c.emit p.flags event) (d.emit q.flags event) where
  stack := by simpa using alike.stack
  status := by simpa using alike.status
  stats := by simpa using alike.stats
  bracketOpen := by simpa using alike.bracketOpen
  context := by simpa using alike.context
  source := by simpa using alike.source
  records := by
    rw [Config.emit_records, Config.emit_records]
    exact parsers.emits event alike.records

theorem absorb {α β : Type} {results : α → β → Prop} {r : Reply V γ α} {r' : Reply W κ β}
    (alike : L.Configs c d) (replies : L.Replies results r r') :
    L.Configs (c.absorb r) (d.absorb r') :=
  { alike with
    status := by
      simp only [Config.absorb]
      rw [alike.status, replies.requests, Status.map_applyAll]
    context := replies.context
    records := parsers.warns replies.warnings alike.records }

theorem emitStack (alike : L.Configs c d) :
    L.Configs (c.emitStack p.flags) (d.emitStack q.flags) := by
  rw [Config.emitStack_eq, Config.emitStack_eq, alike.states]
  exact parsers.emit _ alike

theorem closeBracket (alike : L.Configs c d) :
    L.Configs (p.closeBracket c) (q.closeBracket d) := by
  unfold Parser.closeBracket
  rw [alike.bracketOpen, alike.errorStatus]
  split
  · exact { parsers.emit .recoveryEnded alike with bracketOpen := rfl }
  · exact alike

theorem shift (target : Nat) (alike : L.Configs c d) :
    L.Configs (p.shift target c) (q.shift target d) := by
  have told := parsers.emit (.shift target) alike
  unfold Parser.shift
  dsimp only
  generalize c.emit p.flags (.shift target) = c₁ at told ⊢
  generalize d.emit q.flags (.shift target) = d₁ at told ⊢
  have closed : L.Configs
      (if 0 < c₁.status.errorStatus then
        p.closeBracket (c₁.setErrorStatus (c₁.status.errorStatus - 1)) else c₁)
      (if 0 < d₁.status.errorStatus then
        q.closeBracket (d₁.setErrorStatus (d₁.status.errorStatus - 1)) else d₁) := by
    rw [told.errorStatus]
    split
    · exact parsers.closeBracket (told.setErrorStatus _)
    · exact told
  generalize (if 0 < c₁.status.errorStatus then _ else c₁) = c₂ at closed ⊢
  generalize (if 0 < d₁.status.errorStatus then _ else d₁) = d₂ at closed ⊢
  have value : d₂.status.value = c₂.status.value.map L.value := by
    rw [closed.status, Status.map_value]
  have shifted : L.Configs
      { c₂ with status := c₂.status.consume, stats.shifts := c₂.stats.shifts + 1 }
      { d₂ with status := d₂.status.consume, stats.shifts := d₂.stats.shifts + 1 } :=
    { closed with
      status := by rw [closed.status, Status.map_consume]
      stats := by rw [closed.stats] }
  rw [value]
  exact shifted.push target c₂.status.value

theorem goto (index : Nat) (rule : Rule) (value : Option V) (available : Nat)
    (alike : L.Configs c d) :
    L.Moves (p.goto index rule value available c)
      (q.goto index rule (value.map L.value) available d) := by
  unfold Parser.goto
  rw [alike.stack, parsers.tables]
  cases c.stack with
  | nil => exact .stop (.error (.tooLow ..)) alike
  | cons top rest =>
    simp only [List.map_cons, Entry.map_state]
    cases p.tables.state top.state with
    | error defect => exact .stop (.error (.defect defect)) alike
    | ok state =>
      dsimp only
      cases state.goto? rule.lhs with
      | none => exact .stop (.error (.missingGoto ..)) alike
      | some target =>
        exact .next ((parsers.closeBracket (parsers.emit _ alike)).push target value)

theorem settle (index : Nat) (rule : Rule) (value : Option V) (available : Nat)
    (alike : L.Configs c d) :
    L.Moves (p.settle index rule value available c)
      (q.settle index rule (value.map L.value) available d) := by
  unfold Parser.settle
  dsimp only
  rw [alike.control]
  have dropped : L.Configs
      { c with
        stack := c.stack.drop rule.length
        stats.reductions := c.stats.reductions + 1 }
      { d with
        stack := d.stack.drop rule.length
        stats.reductions := d.stats.reductions + 1 } :=
    { alike with
      stack := by rw [alike.stack, List.map_drop]
      stats := by rw [alike.stats] }
  have popped := dropped.setControl .normal
  have uncovered : (d.stack.drop rule.length).head?.map Entry.state =
      (c.stack.drop rule.length).head?.map Entry.state := by
    rw [alike.stack, ← List.map_drop, List.head?_map, Option.map_map]
    rfl
  cases c.status.control with
  | accept => exact .stop (.ok (.accept value)) (parsers.emit _ popped)
  | abort => exact .stop (.ok .abort) (parsers.emit _ popped)
  | error =>
    simp only [Config.setControl, uncovered]
    exact .recover (parsers.emit _ popped)
  | normal => exact parsers.goto index rule value available popped

theorem evaluate (rule : Nat) (values : List (Option V)) (alike : L.Configs c d) :
    L.Values (p.evaluate rule values c).1
        (q.evaluate rule (values.map (Option.map L.value)) d).1 ∧
      L.Configs (p.evaluate rule values c).2
        (q.evaluate rule (values.map (Option.map L.value)) d).2 := by
  unfold Parser.evaluate
  rw [parsers.drivers.hasAction, parsers.tables, alike.view]
  split
  · next acts =>
    have replies :=
      parsers.drivers.reduce rule values (c.view p.tables (some rule)) acts alike.context
    exact ⟨replies.result, parsers.absorb alike replies⟩
  · rw [firstValue_map]
    exact ⟨.ok _, alike⟩

theorem report (alike : L.Configs c d) : L.Configs (p.report c) (q.report d) := by
  have alike := alike.setErrorStatus 1
  unfold Parser.report
  dsimp only
  rw [parsers.tables, alike.view]
  exact parsers.absorb alike (parsers.drivers.onError _ alike.context)

theorem reduce (index : Nat) (alike : L.Configs c d) :
    L.Moves (p.reduce index c) (q.reduce index d) := by
  have height : d.stack.length = c.stack.length := by rw [alike.stack, List.length_map]
  unfold Parser.reduce
  rw [parsers.tables, height]
  cases p.tables.rule index with
  | error defect => exact .stop (.error (.defect defect)) alike
  | ok rule =>
    dsimp only
    split
    · exact .stop (.error (.tooLow ..)) alike
    · have given : L.Configs { c with status := { c.status with dot := rule.dot } }
          { d with status := { d.status with dot := rule.dot } } :=
        { alike with status := by rw [alike.status]; rfl }
      dsimp only at given
      -- from here on it only counts that the two are alike, not how they came about
      generalize Config.mk c.stack _ _ _ _ _ _ = c₁ at given ⊢
      generalize Config.mk d.stack _ _ _ _ _ _ = d₁ at given ⊢
      have evaluated := parsers.evaluate index (c₁.lastValues rule.dot) given
      rw [← given.lastValues] at evaluated
      generalize p.evaluate index _ _ = pair at evaluated ⊢
      generalize q.evaluate index _ _ = pair' at evaluated ⊢
      obtain ⟨result, c₂⟩ := pair
      obtain ⟨result', d₂⟩ := pair'
      obtain ⟨values, after⟩ := evaluated
      cases values with
      | ok value => exact parsers.settle index rule value c.stack.length after
      | error errors => exact .stop (.error (.action index errors)) after

theorem perform (action : Option Action) (alike : L.Configs c d) :
    L.Moves (p.perform action c) (q.perform action d) := by
  cases action with
  | none => exact .recover alike
  | some action =>
    cases action with
    | shift target => exact .next (parsers.shift target alike)
    | reduce index => exact parsers.reduce index alike
    | accept => exact parsers.reduce 0 (alike.setControl .accept)

theorem enterRecovery (alike : L.Configs c d) :
    L.Configs (p.enterRecovery c) (q.enterRecovery d) := by
  have told := parsers.emit .recoveryEntered alike
  unfold Parser.enterRecovery
  refine { told with status := ?_, stats := ?_, bracketOpen := rfl }
  · dsimp only
    rw [told.status]
    rfl
  · dsimp only
    rw [told.stats]

theorem unwind (stack : List (Entry V)) (alike : L.Configs c d) :
    L.Steps (p.unwind c stack) (q.unwind d (stack.map (Entry.map L.value))) := by
  -- the stacks of `c` and `d` are left as they are until the end, so the induction is on the entries
  induction stack generalizing c d with
  | nil =>
    exact .stop (.ok (.fail .stackExhausted)) (parsers.emit _ { alike with stack := rfl })
  | cons top rest ih =>
    simp only [List.map_cons, Parser.unwind, Entry.map_state, parsers.tables]
    cases p.tables.state top.state with
    | error defect => exact .stop (.error (.defect defect)) { alike with stack := rfl }
    | ok state =>
      dsimp only
      cases state.errorShift? with
      | none =>
        have told := parsers.emit (.popped top.state) alike
        refine ih { told with stats := ?_ }
        dsimp only
        rw [told.stats]
      | some target =>
        have uncovered : L.Configs { c with stack := top :: rest }
            { d with stack := (top :: rest).map (Entry.map L.value) } := { alike with stack := rfl }
        exact .next ((parsers.emit (.errorShift target) uncovered).push target none)

variable {lexer : Lexer V ε σ} {lexer' : Lexer W δ τ} (lexers : L.Lexers lexer lexer')
include lexers

theorem fetch (alike : L.Configs c d) : L.Steps (p.fetch lexer c) (q.fetch lexer' d) := by
  have answers := lexers c.status alike.source
  rw [← alike.status] at answers
  unfold Parser.fetch
  generalize lexer c.status c.source = answer at answers ⊢
  generalize lexer' d.status d.source = answer' at answers ⊢
  cases answers with
  | error errors sources => exact .stop (.error (.lexer errors)) { alike with source := sources }
  | @ok lexeme s s' sources =>
    have counted : L.Configs { c with source := s, stats.tokens := c.stats.tokens + 1 }
        { d with source := s', stats.tokens := d.stats.tokens + 1 } :=
      { alike with source := sources, stats := by rw [alike.stats] }
    have told := parsers.emit (.fetched lexeme.token) counted
    refine .next { told with status := ?_ }
    dsimp only [Lexeme.map]
    rw [told.status]
    rfl

theorem fetchMissing (alike : L.Configs c d) :
    L.Steps (p.fetchMissing lexer c) (q.fetchMissing lexer' d) := by
  unfold Parser.fetchMissing
  rw [alike.token]
  split
  · exact parsers.fetch lexers alike
  · exact .next alike

theorem lookahead (state : State) (alike : L.Configs c d) :
    L.Steps (p.lookahead lexer state c) (q.lookahead lexer' state d) := by
  unfold Parser.lookahead
  split
  · exact parsers.fetchMissing lexers alike
  · exact .next (parsers.emit .noTokenNeeded alike)

theorem discard (alike : L.Configs c d) :
    L.Steps (p.discard lexer c) (q.discard lexer' d) := by
  unfold Parser.discard
  rw [alike.errorStatus]
  split
  · refine (parsers.fetchMissing lexers alike).andThen fun {c d} alike => ?_
    rw [alike.atEnd, alike.token]
    split
    · exact .stop (.ok (.fail .endOfInput)) (parsers.emit _ alike)
    · have told := parsers.emit (.discarded (c.status.token.getD "")) alike
      refine .next { told with status := ?_, stats := ?_ }
      · dsimp only
        rw [told.status]
        rfl
      · dsimp only
        rw [told.stats]
  · exact .next alike

theorem resynchronize (alike : L.Configs c d) :
    L.Steps (p.resynchronize lexer c) (q.resynchronize lexer' d) := by
  refine (parsers.discard lexers alike).andThen fun {c d} alike => ?_
  rw [alike.stack]
  exact parsers.unwind c.stack (alike.setErrorStatus 3)

theorem recover (alike : L.Configs c d) :
    L.Steps (p.recover lexer c) (q.recover lexer' d) := by
  have told := parsers.report alike
  unfold Parser.recover
  dsimp only
  rw [alike.errorStatus, told.errorStatus]
  split
  · split
    · exact .next told
    · exact parsers.resynchronize lexers (parsers.enterRecovery told)
  · exact parsers.resynchronize lexers alike

/-- From configurations that are alike, the steps are alike. -/
theorem step (alike : L.Configs c d) : L.Steps (p.step lexer c) (q.step lexer' d) := by
  unfold Parser.step
  rw [alike.stack, parsers.tables]
  cases c.stack with
  | nil => exact .stop (.ok (.fail .stackExhausted)) alike
  | cons top rest =>
    simp only [List.map_cons, Entry.map_state]
    cases p.tables.state top.state with
    | error defect => exact .stop (.error (.defect defect)) alike
    | ok state =>
      have announced := parsers.emitStack (parsers.emit (.state top.state) alike)
      refine (parsers.lookahead lexers state announced).andThen fun {c d} alike => ?_
      rw [alike.token]
      exact (parsers.perform _ alike).resolve (parsers.recover lexers)

/-- Runs that start alike go on alike, end after the same number of steps, and end alike. -/
theorem runFrom (steps : Nat) (alike : L.Configs c d) :
    Option.Rel L.Runs (p.runFrom lexer steps c) (q.runFrom lexer' steps d) := by
  induction steps generalizing c d with
  | zero => exact .none
  | succ steps ih =>
    have alike := parsers.step lexers alike
    unfold Parser.runFrom
    generalize p.step lexer c = step at alike ⊢
    generalize q.step lexer' d = step' at alike ⊢
    cases alike with
    | next configs => exact ih configs
    | stop results configs => exact .some ⟨results, configs⟩

/-- What the first run reaches has its like in the second one. -/
theorem reaches {c₀ : Config V γ σ} {d₀ : Config W κ τ} (alike : L.Configs c₀ d₀)
    (reached : p.Reaches lexer c₀ c) : ∃ d, q.Reaches lexer' d₀ d ∧ L.Configs c d := by
  induction reached with
  | refl => exact ⟨d₀, .refl, alike⟩
  | @next b c _ step ih =>
    obtain ⟨d, reached, alike⟩ := ih
    have steps := parsers.step lexers alike
    rw [step] at steps
    generalize step' : q.step lexer' d = next at steps
    cases steps with
    | next configs => exact ⟨_, reached.next step', configs⟩

theorem reached {c₀ : Config V γ σ} {d₀ : Config W κ τ} (alike : L.Configs c₀ d₀)
    (reached : q.Reaches lexer' d₀ d) : ∃ c, p.Reaches lexer c₀ c ∧ L.Configs c d := by
  induction reached with
  | refl => exact ⟨c₀, .refl, alike⟩
  | @next b d _ step ih =>
    obtain ⟨c, reached, alike⟩ := ih
    have steps := parsers.step lexers alike
    rw [step] at steps
    generalize step' : p.step lexer c = next at steps
    cases steps with
    | next configs => exact ⟨_, reached.next step', configs⟩

end Parsers

end Likeness

end ShiftReduce
