import ShiftReduce.Proofs.Consumption
import ShiftReduce.Proofs.Tracing

/-! A state without an action map does not ask for a lookahead; with an empty map it asks for one
and makes no use of it. A run with all its lookaheads fetched ahead of their time is the run in
which they are fetched on demand, as far as no state shifts by default. -/

namespace ShiftReduce

variable {V ε γ σ : Type}

/-- The state asks for a lookahead, if only to make no use of it. -/
def State.asking (s : State) : State := { s with actions := some (s.actions.getD {}) }

namespace State

@[simp] theorem asking_default (s : State) : s.asking.default = s.default := rfl

@[simp] theorem asking_goto? (s : State) (lhs : String) : s.asking.goto? lhs = s.goto? lhs := rfl

@[simp] theorem asking_action? (s : State) (token : String) :
    s.asking.action? token = s.action? token := by
  cases actions : s.actions <;> simp [asking, action?, actions, OrderedMap.get?]

@[simp] theorem asking_select (s : State) (token : Option String) :
    s.asking.select token = s.select token := by
  have same : s.asking.action? = s.action? := funext s.asking_action?
  rw [select, select, same, asking_default]

@[simp] theorem asking_errorShift? (s : State) : s.asking.errorShift? = s.errorShift? := by
  simp [errorShift?]

/-- A state that wants no lookahead takes its default. -/
theorem select_of_not_needsToken {s : State} (unasked : s.needsToken = false)
    (token : Option String) : s.select token = s.default := by
  have absent : s.actions = none := by simpa [needsToken] using unasked
  cases token <;> simp [select, action?, absent]

end State

namespace Tables

/-- The tables in which the chosen states ask for a lookahead. -/
def asking (t : Tables) (chosen : Nat → Bool) : Tables :=
  { t with states := t.states.mapIdx fun number s => if chosen number then s.asking else s }

def Shiftless (t : Tables) : Prop :=
  ∀ s ∈ t.states, ∀ target, s.default ≠ some (.shift target)

variable (t : Tables) (chosen : Nat → Bool)

theorem asking_state (number : Nat) : (t.asking chosen).state number =
    (t.state number).map fun s => if chosen number then s.asking else s := by
  simp only [asking, state, Array.getElem?_mapIdx]
  cases t.states[number]? <;> rfl

@[simp] theorem asking_rule (index : Nat) : (t.asking chosen).rule index = t.rule index := rfl

theorem Shiftless.asking {t : Tables} (shiftless : t.Shiftless) :
    (t.asking chosen).Shiftless := by
  intro s member target
  obtain ⟨number, inside, rfl⟩ := Array.mem_mapIdx.mp member
  have kept := shiftless t.states[number] (Array.getElem_mem _) target
  split
  · exact kept
  · exact kept

end Tables

/-- What a configuration has of the input: the lookahead, if there is one, and the rest. -/
structure Sight (V σ : Type) where
  token : Option String
  value : Option V
  source : σ
  tokens : Nat

/-- The next lexeme is fetched, unless one is pending. -/
def Sight.ahead (next : σ → Lexeme V × σ) (s : Sight V σ) : Sight V σ :=
  match s.token with
  | some _ => s
  | none => ⟨some (next s.source).1.token, (next s.source).1.value, (next s.source).2, s.tokens + 1⟩

theorem Sight.ahead_ahead (next : σ → Lexeme V × σ) (s : Sight V σ) :
    (s.ahead next).ahead next = s.ahead next := by
  obtain ⟨token, value, source, tokens⟩ := s
  cases token <;> rfl

/-- The lexer that reads on in its source whatever the status is, and never fails. -/
def Lexer.reading (next : σ → Lexeme V × σ) : Lexer V ε σ :=
  fun _ source => (.ok (next source).1, (next source).2)

namespace Config

variable (c : Config V γ σ)

def sight : Sight V σ := ⟨c.status.token, c.status.value, c.source, c.stats.tokens⟩

def seeing (s : Sight V σ) : Config V γ σ :=
  { c with
    status := { c.status with token := s.token, value := s.value }
    source := s.source
    stats := { c.stats with tokens := s.tokens } }

def ahead (next : σ → Lexeme V × σ) : Config V γ σ := c.seeing (c.sight.ahead next)

theorem seeing_sight : c.seeing c.sight = c := rfl

section
variable (s : Sight V σ)

theorem seeing_stack : (c.seeing s).stack = c.stack := rfl

theorem seeing_control : (c.seeing s).status.control = c.status.control := rfl

theorem seeing_errorStatus : (c.seeing s).status.errorStatus = c.status.errorStatus := rfl

theorem seeing_bracketOpen : (c.seeing s).bracketOpen = c.bracketOpen := rfl

end

theorem ahead_ahead (next : σ → Lexeme V × σ) : (c.ahead next).ahead next = c.ahead next :=
  congrArg c.seeing (c.sight.ahead_ahead next)

theorem ahead_of_pending {next : σ → Lexeme V × σ} {token : String}
    (pending : c.status.token = some token) : c.ahead next = c := by
  simp only [ahead, Sight.ahead, sight, pending]
  rw [← pending]
  rfl

theorem emit_none (event : Trace.Event) : c.emit .none event = c := by
  have hidden : Trace.Flags.none.shows event.category = false := by
    cases event.category <;> decide
  simp [emit, hidden]

end Config

def Step.map (f : Config V γ σ → Config V γ σ) : Step V ε γ σ → Step V ε γ σ
  | .next c => .next (f c)
  | .stop result c => .stop result (f c)

def Move.map (f : Config V γ σ → Config V γ σ) : Move V ε γ σ → Move V ε γ σ
  | .next c => .next (f c)
  | .recover c => .recover (f c)
  | .stop result c => .stop result (f c)

theorem Config.ahead_of_kept {c : Config V γ σ} {s : Sight V σ} (kept : c.seeing s = c)
    (next : σ → Lexeme V × σ) : c.ahead next = c.seeing (s.ahead next) := by
  have sight : c.sight = s := by rw [← kept]; rfl
  rw [ahead, sight]

theorem Move.map_ahead {move : Move V ε γ σ} {s : Sight V σ}
    (kept : move.map (·.seeing s) = move) (next : σ → Lexeme V × σ) :
    move.map (·.ahead next) = move.map (·.seeing (s.ahead next)) := by
  cases move <;> simpa [map] using Config.ahead_of_kept (by simpa [map] using kept) next

theorem Step.map_ahead {step : Step V ε γ σ} {s : Sight V σ}
    (kept : step.map (·.seeing s) = step) (next : σ → Lexeme V × σ) :
    step.map (·.ahead next) = step.map (·.seeing (s.ahead next)) := by
  cases step <;> simpa [map] using Config.ahead_of_kept (by simpa [map] using kept) next

theorem Step.map_ahead_map (step : Step V ε γ σ) (next : σ → Lexeme V × σ) :
    (step.map (·.ahead next)).map (·.ahead next) = step.map (·.ahead next) := by
  cases step <;> simp [map, Config.ahead_ahead]

def Run.ahead (next : σ → Lexeme V × σ) (r : Run V ε γ σ) : Run V ε γ σ :=
  ⟨r.result, r.final.ahead next⟩

/-- What a run comes to, and its counters apart from that of the lexemes fetched. -/
def Run.tally (r : Run V ε γ σ) : Result V ε × Stats :=
  (r.result, { r.final.stats with tokens := 0 })

namespace Parser

/-- The parser with the plain driver that records nothing. -/
def mute (t : Tables) : Parser V ε γ := ⟨t, .plain, .none⟩

@[simp] theorem mute_flags (t : Tables) : (mute t : Parser V ε γ).flags = .none := rfl

@[simp] theorem mute_tables (t : Tables) : (mute t : Parser V ε γ).tables = t := rfl

theorem mute_evaluate (t : Tables) (rule : Nat) (values : List (Option V)) (c : Config V γ σ) :
    (mute t : Parser V ε γ).evaluate rule values c = (.ok (firstValue values), c) := rfl

/-- The default hook clears no error. -/
theorem mute_recover (t : Tables) (lexer : Lexer V ε σ) (c : Config V γ σ) :
    (mute t).recover lexer c =
      (mute t).resynchronize lexer ((mute t : Parser V ε γ).entered c) := by
  unfold recover entered
  split <;> rfl

section

variable (t : Tables) (s : Sight V σ) (c : Config V γ σ)

theorem closeBracket_seeing : (mute t : Parser V ε γ).closeBracket (c.seeing s) =
    ((mute t : Parser V ε γ).closeBracket c).seeing s := by
  simp only [closeBracket, mute, Config.emit_none]
  rw [Config.seeing_bracketOpen, Config.seeing_errorStatus]
  split <;> rfl

theorem goto_seeing (index : Nat) (rule : Rule) (value : Option V) (available : Nat) :
    (mute t : Parser V ε γ).goto index rule value available (c.seeing s) =
      ((mute t).goto index rule value available c).map (·.seeing s) := by
  unfold goto
  rw [Config.seeing_stack]
  cases c.stack with
  | nil => rfl
  | cons top rest =>
    dsimp only
    cases (mute t : Parser V ε γ).tables.state top.state with
    | error defect => rfl
    | ok state =>
      dsimp only
      cases state.goto? rule.lhs with
      | none => rfl
      | some target =>
        simp only [mute_flags, Config.emit_none, closeBracket_seeing]
        rfl

theorem settle_seeing (index : Nat) (rule : Rule) (value : Option V) (available : Nat) :
    (mute t : Parser V ε γ).settle index rule value available (c.seeing s) =
      ((mute t).settle index rule value available c).map (·.seeing s) := by
  unfold settle
  simp only [mute_flags, Config.emit_none]
  rw [Config.seeing_control]
  cases c.status.control with
  | accept | abort | error => rfl
  | normal =>
    exact goto_seeing t s
      (Config.setControl
        { c with
          stack := c.stack.drop rule.length
          stats.reductions := c.stats.reductions + 1 } .normal) index rule value available

theorem reduce_seeing (index : Nat) : (mute t : Parser V ε γ).reduce index (c.seeing s) =
    ((mute t).reduce index c).map (·.seeing s) := by
  unfold reduce
  rw [Config.seeing_stack]
  cases (mute t : Parser V ε γ).tables.rule index with
  | error defect => rfl
  | ok rule =>
    simp only [mute_evaluate]
    split
    · rfl
    · exact settle_seeing t s { c with status := { c.status with dot := rule.dot } } index rule
        (firstValue (c.lastValues rule.dot)) c.stack.length

theorem unwind_seeing (stack : List (Entry V)) :
    (mute t : Parser V ε γ).unwind (c.seeing s) stack =
      ((mute t).unwind c stack).map (·.seeing s) := by
  induction stack generalizing c with
  | nil => simp only [unwind, mute_flags, Config.emit_none]; rfl
  | cons top rest ih =>
    unfold unwind
    simp only [mute_flags, Config.emit_none]
    cases (mute t : Parser V ε γ).tables.state top.state with
    | error defect => rfl
    | ok state =>
      dsimp only
      cases state.errorShift? with
      | some target => rfl
      | none => exact ih { c with stats.popped := c.stats.popped + 1 }

/-- The plain driver hears of an error without a look at the lookahead. -/
theorem entered_seeing : (mute t : Parser V ε γ).entered (c.seeing s) =
    ((mute t : Parser V ε γ).entered c).seeing s := by
  unfold entered enterRecovery
  simp only [mute_flags, Config.emit_none]
  rw [Config.seeing_errorStatus]
  split <;> rfl

end

section

variable {t : Tables} (next : σ → Lexeme V × σ) (c : Config V γ σ)

theorem fetchMissing_ahead : (mute t : Parser V ε γ).fetchMissing (.reading next) c =
    .next (c.ahead next) := by
  unfold fetchMissing
  cases pending : c.status.token with
  | some token =>
    rw [c.ahead_of_pending pending]
    rfl
  | none =>
    simp only [fetch, Lexer.reading, mute_flags, Config.emit_none]
    simp [Config.ahead, Config.seeing, Sight.ahead, Config.sight, pending]

theorem reduce_ahead (index : Nat) : (mute t : Parser V ε γ).reduce index (c.ahead next) =
    ((mute t).reduce index c).map (·.ahead next) := by
  have kept := reduce_seeing (ε := ε) t c.sight c index
  rw [c.seeing_sight] at kept
  rw [Move.map_ahead kept.symm]
  exact reduce_seeing t (c.sight.ahead next) c index

theorem unwind_ahead (stack : List (Entry V)) : (mute t : Parser V ε γ).unwind (c.ahead next) stack =
    ((mute t).unwind c stack).map (·.ahead next) := by
  have kept := unwind_seeing (ε := ε) t c.sight c stack
  rw [c.seeing_sight] at kept
  rw [Step.map_ahead kept.symm]
  exact unwind_seeing t (c.sight.ahead next) c stack

theorem entered_ahead : (mute t : Parser V ε γ).entered (c.ahead next) =
    ((mute t : Parser V ε γ).entered c).ahead next := by
  have kept := entered_seeing (ε := ε) t c.sight c
  rw [c.seeing_sight] at kept
  rw [Config.ahead_of_kept kept.symm]
  exact entered_seeing t (c.sight.ahead next) c

/-- A repeated error fetches the lookahead that it discards, and any other error leaves it. -/
theorem recover_ahead : ((mute t : Parser V ε γ).recover (.reading next) (c.ahead next)).map
    (·.ahead next) = ((mute t).recover (.reading next) c).map (·.ahead next) := by
  rw [mute_recover, mute_recover, entered_ahead]
  generalize (mute t : Parser V ε γ).entered c = d
  unfold resynchronize discard
  rw [Config.ahead, Config.seeing_errorStatus, ← Config.ahead]
  split
  · rw [fetchMissing_ahead, fetchMissing_ahead, d.ahead_ahead]
  · exact (congrArg (Step.map _) (unwind_ahead next (d.setErrorStatus 3) d.stack)).trans
      (Step.map_ahead_map _ next)

theorem resolve_ahead (move : Move V ε γ σ) :
    ((move.map (·.ahead next)).resolve ((mute t).recover (.reading next))).map (·.ahead next) =
      (move.resolve ((mute t).recover (.reading next))).map (·.ahead next) := by
  cases move with
  | next d | stop _ d => simp [Move.map, Move.resolve, Step.map, d.ahead_ahead]
  | recover d => exact recover_ahead next d

/-- A default that is no shift does not look at the lookahead. -/
theorem perform_ahead {action : Option Action} (shiftless : ∀ target, action ≠ some (.shift target)) :
    (((mute t : Parser V ε γ).perform action (c.ahead next)).resolve
        ((mute t).recover (.reading next))).map (·.ahead next) =
      (((mute t).perform action c).resolve ((mute t).recover (.reading next))).map
        (·.ahead next) := by
  cases action with
  | none => exact recover_ahead next c
  | some action =>
    cases action with
    | shift target => exact absurd rfl (shiftless target)
    | reduce index =>
      simp only [perform, reduce_ahead]
      exact resolve_ahead next _
    | accept =>
      have set := reduce_ahead (ε := ε) (t := t) next (c.setControl .accept) 0
      change (mute t).reduce 0 ((c.ahead next).setControl .accept) = _ at set
      simp only [perform, set]
      exact resolve_ahead next _

/-- It makes no difference to a step whether the lookahead is fetched before it. -/
theorem step_ahead (shiftless : t.Shiftless) :
    ((mute t : Parser V ε γ).step (.reading next) (c.ahead next)).map (·.ahead next) =
      ((mute t).step (.reading next) c).map (·.ahead next) := by
  unfold step
  rw [Config.ahead, Config.seeing_stack, ← Config.ahead]
  cases c.stack with
  | nil => simp [Step.map, c.ahead_ahead]
  | cons top rest =>
    dsimp only
    cases found : (mute t : Parser V ε γ).tables.state top.state with
    | error defect => simp [Step.map, c.ahead_ahead]
    | ok state =>
      simp only [Config.emitStack_eq, mute_flags, Config.emit_none, lookahead]
      split
      · rw [fetchMissing_ahead, fetchMissing_ahead, c.ahead_ahead]
      · next unasked =>
        have unasked : state.needsToken = false := by simpa using unasked
        have member : state ∈ t.states := Array.mem_of_getElem? (Tables.state_eq_ok_iff.mp found)
        simp only [Step.andThen_next, State.select_of_not_needsToken unasked]
        exact perform_ahead next c (shiftless state member)

end

section

variable (t : Tables) (chosen : Nat → Bool) (next : σ → Lexeme V × σ) (c : Config V γ σ)

theorem reduce_asking (index : Nat) : (mute (t.asking chosen) : Parser V ε γ).reduce index c =
    (mute t).reduce index c := by
  have goes (rule : Rule) (value : Option V) (available : Nat) (c : Config V γ σ) :
      (mute (t.asking chosen) : Parser V ε γ).goto index rule value available c =
        (mute t).goto index rule value available c := by
    unfold goto
    cases c.stack with
    | nil => rfl
    | cons top rest =>
      dsimp only [mute]
      rw [Tables.asking_state]
      cases t.state top.state with
      | error defect => rfl
      | ok state => cases chosen top.state <;> simp [Except.map, closeBracket]
  unfold reduce settle
  simp only [mute_evaluate, goes]
  rfl

theorem unwind_asking (stack : List (Entry V)) :
    (mute (t.asking chosen) : Parser V ε γ).unwind c stack = (mute t).unwind c stack := by
  induction stack generalizing c with
  | nil => rfl
  | cons top rest ih =>
    unfold unwind
    dsimp only [mute] at ih ⊢
    rw [Tables.asking_state]
    cases t.state top.state with
    | error defect => rfl
    | ok state => cases chosen top.state <;> simp [Except.map, ih]

theorem recover_asking (lexer : Lexer V ε σ) :
    (mute (t.asking chosen)).recover lexer c = (mute t).recover lexer c := by
  rw [mute_recover, mute_recover]
  unfold resynchronize
  simp only [unwind_asking]
  rfl

/-- With a lookahead pending, it makes no difference which states ask for one. -/
theorem step_asking : (mute (t.asking chosen) : Parser V ε γ).step (.reading next) (c.ahead next) =
    (mute t).step (.reading next) (c.ahead next) := by
  have performs (action : Option Action) (c : Config V γ σ) :
      (mute (t.asking chosen) : Parser V ε γ).perform action c = (mute t).perform action c := by
    cases action with
    | none => rfl
    | some action =>
      cases action with
      | shift target => rfl
      | reduce index | accept => simp only [perform, reduce_asking]
  have looked (u : Tables) (state : State) :
      (mute u : Parser V ε γ).lookahead (.reading next) state (c.ahead next) =
        .next (c.ahead next) := by
    unfold lookahead
    simp [fetchMissing_ahead, c.ahead_ahead, Config.emit_none]
  unfold step
  cases (c.ahead next).stack with
  | nil => rfl
  | cons top rest =>
    simp only [Config.emitStack_eq, mute_flags, mute_tables, Config.emit_none, looked,
      Step.andThen_next, performs, Tables.asking_state]
    have recovers : (mute (t.asking chosen)).recover (.reading next) =
        ((mute t).recover (.reading next) : Config V γ σ → Step V ε γ σ) :=
      funext fun c => recover_asking t chosen c (.reading next)
    cases t.state top.state with
    | error defect => rfl
    | ok state => cases chosen top.state <;> simp [Except.map, recovers]

variable {t} in
/-- From configurations that come to the same with their lookaheads fetched, the runs come to the
same, whichever states ask for a lookahead. -/
theorem runFrom_asking (shiftless : t.Shiftless) (steps : Nat) {c d : Config V γ σ}
    (same : d.ahead next = c.ahead next) :
    ((mute (t.asking chosen) : Parser V ε γ).runFrom (.reading next) steps d).map (Run.ahead next) =
      ((mute t).runFrom (.reading next) steps c).map (Run.ahead next) := by
  induction steps generalizing c d with
  | zero => rfl
  | succ steps ih =>
    have stepped : ((mute (t.asking chosen) : Parser V ε γ).step (.reading next) d).map
        (·.ahead next) = ((mute t).step (.reading next) c).map (·.ahead next) := by
      rw [← step_ahead next d (shiftless.asking chosen), same, step_asking,
        step_ahead next c shiftless]
    unfold runFrom
    generalize (mute (t.asking chosen) : Parser V ε γ).step (.reading next) d = after at stepped ⊢
    generalize (mute t : Parser V ε γ).step (.reading next) c = after' at stepped ⊢
    cases after with
    | next d' =>
      cases after' with
      | next c' => exact ih (Step.next.inj stepped)
      | stop result' c' => simp [Step.map] at stepped
    | stop result d' =>
      cases after' with
      | next c' => simp [Step.map] at stepped
      | stop result' c' =>
        obtain ⟨rfl, final⟩ := Step.stop.inj stepped
        simp [Run.ahead, final]

end

/-- The record of a run has no part in its tally. -/
theorem run_tally (t : Tables) (f : Trace.Flags) (lexer : Lexer V ε σ) (steps : Nat) (source : σ)
    (context : γ) : (run ⟨t, .plain, f⟩ lexer steps source context).map Run.tally =
      (run (mute t) lexer steps source context).map Run.tally := by
  have within : Trace.Flags.none.Within f := fun category shown => by
    cases category <;> exact absurd shown (by decide)
  have silenced : run (mute t) lexer steps source context =
      (run ⟨t, .plain, f⟩ lexer steps source context).map (Run.restrict .none) :=
    (Projects.of_within within t .plain).runFrom (.refl lexer) steps (.start source context)
  rw [silenced, Option.map_map]
  rfl

/-- Fetching lookaheads on demand does not change the parse. Where no state shifts by default, any
states may ask for a lookahead of which they make no use: a run on a list of lexemes with the
plain driver ends in the same step, with the same result, and with the same counters but for that
of the lexemes fetched, or neither run ends. -/
theorem lookaheads_on_demand (t : Tables) (chosen : Nat → Bool) (shiftless : t.Shiftless)
    (f g : Trace.Flags) (lexemes : List (Lexeme V)) (context : γ) :
    (∀ steps,
      (run ⟨t.asking chosen, (.plain : Driver V ε γ), g⟩ LexemeQueue.lexer steps ⟨lexemes, 0⟩
          context).map Run.tally =
        (run ⟨t, (.plain : Driver V ε γ), f⟩ LexemeQueue.lexer steps ⟨lexemes, 0⟩
          context).map Run.tally) ∧
    ((∃ steps, (run ⟨t.asking chosen, (.plain : Driver V ε γ), g⟩ LexemeQueue.lexer steps
        ⟨lexemes, 0⟩ context).isSome) ↔
      ∃ steps, (run ⟨t, (.plain : Driver V ε γ), f⟩ LexemeQueue.lexer steps ⟨lexemes, 0⟩
        context).isSome) := by
  have tallies (steps : Nat) :
      (run ⟨t.asking chosen, (.plain : Driver V ε γ), g⟩ LexemeQueue.lexer steps ⟨lexemes, 0⟩
          context).map Run.tally =
        (run ⟨t, (.plain : Driver V ε γ), f⟩ LexemeQueue.lexer steps ⟨lexemes, 0⟩
          context).map Run.tally := by
    have same := congrArg (Option.map Run.tally)
      (runFrom_asking (ε := ε) chosen LexemeQueue.next shiftless steps
        (c := .start ⟨lexemes, 0⟩ context) rfl)
    rw [Option.map_map, Option.map_map] at same
    rw [run_tally, run_tally]
    exact same
  refine ⟨tallies, exists_congr fun steps => ?_⟩
  rw [← Option.isSome_map (f := Run.tally), tallies, Option.isSome_map]

/-- A stray `b` and an `a` behind it, read with and without asking for lookaheads in every state. -/
theorem stray_lexeme_on_demand :
    listTables.Shiftless ∧
    (run ⟨listTables.asking fun _ => true, (.plain : Driver Nat Unit Unit), .none⟩
        LexemeQueue.lexer 8 ⟨[⟨"b", some 1⟩, ⟨"a", some 2⟩], 0⟩ ()).map Run.tally =
      (run listParser LexemeQueue.lexer 8 ⟨[⟨"b", some 1⟩, ⟨"a", some 2⟩], 0⟩ ()).map Run.tally ∧
    (run listParser LexemeQueue.lexer 8 ⟨[⟨"b", some 1⟩, ⟨"a", some 2⟩], 0⟩ ()).map Run.tally =
      some (.ok (.accept none), ⟨0, 2, 4, 1, 1, 1⟩) := by
  have shiftless : listTables.Shiftless := by simp [Tables.Shiftless, listTables]
  refine ⟨shiftless, ?_, by rfl⟩
  exact (lookaheads_on_demand listTables (fun _ => true) shiftless .none .none
    [⟨"b", some 1⟩, ⟨"a", some 2⟩] ()).1 8

end Parser

end ShiftReduce
