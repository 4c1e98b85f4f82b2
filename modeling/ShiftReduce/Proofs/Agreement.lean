import ShiftReduce.Proofs.Ledger
import ShiftReduce.Proofs.LexerCalls
import ShiftReduce.Proofs.Stack

/-! With all categories shown, the trace of a run has as many lines of each kind as the counters of
the run say, wherever it stops. The errors that are counted are the calls of the error hook that
were not taken back. -/

namespace ShiftReduce

variable {V ε γ σ : Type}

namespace Trace

/-- Every step opens with its state and then with the stack, at whose top this state is. -/
inductive Announced : List Event → Prop where
  | nil : Announced []
  | other {e : Event} {es : List Event} (inside : e.category ≠ .state) (rest : Announced es) :
      Announced (e :: es)
  | step {n : Nat} {states : List Nat} {es : List Event} (top : states.getLast? = some n)
      (rest : Announced es) : Announced (.state n :: .stack states :: es)

namespace Announced

variable {es more : List Event}

theorem append (first : Announced es) (second : Announced more) : Announced (es ++ more) := by
  induction first with
  | nil => exact second
  | other inside _ ih => exact .other inside ih
  | step top _ ih => exact .step top ih

theorem of_inside (inside : ∀ e ∈ es, e.category ≠ .state) : Announced es := by
  induction es with
  | nil => exact .nil
  | cons e es ih =>
    obtain ⟨head, tail⟩ := List.forall_mem_cons.mp inside
    exact .other head (ih tail)

theorem of_plain (plain : ∀ e ∈ es, e.isPlain) : Announced es :=
  of_inside fun e member => Event.category_of_isPlain (plain e member)

theorem followed (announced : Announced es) {before after : List Event} {n : Nat}
    (split : es = before ++ .state n :: after) :
    ∃ states rest, after = .stack states :: rest ∧ states.getLast? = some n := by
  induction announced generalizing before with
  | nil => simp at split
  | @other e es inside _ ih =>
    cases before with
    | nil =>
      obtain ⟨rfl, _⟩ := List.cons.inj split
      exact absurd rfl inside
    | cons e' before => exact ih (List.cons.inj split).2
  | @step m states es top rest ih =>
    cases before with
    | nil =>
      obtain ⟨same, rfl⟩ := List.cons.inj split
      cases same
      exact ⟨states, es, rfl, top⟩
    | cons e' before =>
      have split := (List.cons.inj split).2
      cases before with
      | nil => simp at split
      | cons e'' before => exact ih (List.cons.inj split).2

end Announced

/-- Every line that names the state of a step is followed by one that lists the stack up to it. -/
def Announcing (lines : List String) : Prop :=
  ∀ before after (n : Nat), lines = before ++ s!"In state {n}:" :: after →
    ∃ (states : List Nat) (rest : List String),
      after = ("Stack:[" ++ ",".intercalate (states.map toString) ++ "]") :: rest ∧
        states.getLast? = some n

theorem Announced.announcing {es : List Event} (announced : Announced es) :
    Announcing (es.map Event.text) := by
  intro before after n split
  obtain ⟨earlier, later, rfl, rfl, same⟩ := List.map_eq_append_iff.mp split
  obtain ⟨e, later, rfl, named, rfl⟩ := List.map_eq_cons_iff.mp same
  obtain rfl := Event.state_of_text named
  obtain ⟨states, rest, rfl, top⟩ := announced.followed rfl
  exact ⟨states, rest.map Event.text, rfl, top⟩

end Trace

open Trace

/-- A call of the hook that leaves an error status other than zero. -/
def Act.upholds : Act V → Bool
  | .hook requests => (({ errorStatus := 1 } : Status V).applyAll requests).errorStatus != 0
  | _ => false

namespace Config

variable {flags : Flags} {told : List Event} {c d : Config V γ σ}

/-- What was recorded accounts for the books, and every step was announced. -/
structure Agrees (c : Config V γ σ) : Prop where
  ledger : c.ledger = c.events.foldl Ledger.enter {}
  announced : Announced c.events

theorem Agrees.start (source : σ) (context : γ) :
    (Config.start source context : Config V γ σ).Agrees :=
  ⟨rfl, .nil⟩

theorem Agrees.reports (agrees : c.Agrees) (shown : ∀ category, flags.shows category = true)
    (announced : Announced told) (reports : Reports flags told c d) : d.Agrees := by
  have all : told.filter (flags.shows ·.category) = told := by simp [shown]
  have events : d.events = c.events ++ told := by rw [reports.events, all]
  constructor
  · rw [reports.ledger, agrees.ledger, events, List.foldl_append]
  · rw [events]
    exact agrees.announced.append announced

theorem Agrees.passes (agrees : c.Agrees) (shown : ∀ category, flags.shows category = true)
    (passes : Passes flags c d) : d.Agrees := by
  obtain ⟨told, plain, reports⟩ := passes
  exact agrees.reports shown (.of_plain plain) reports

theorem Agrees.begins (agrees : c.Agrees) (shown : ∀ category, flags.shows category = true)
    (begins : Begins flags c d) : d.Agrees := by
  obtain ⟨number, told, top, plain, reports⟩ := begins
  exact agrees.reports shown (.step top (.of_plain plain)) reports

theorem Agrees.count (agrees : c.Agrees) (k : Counter) :
    c.sent.countP (Counts k ·) = k.of c.stats := by
  have books := congrArg (k.of ·.stats) agrees.ledger
  have none : k.of ({} : Stats) = 0 := by cases k <;> rfl
  rw [Ledger.of_foldl, none, Nat.zero_add] at books
  rw [sent_eq, List.countP_map]
  refine Eq.trans ?_ books.symm
  congr 1
  funext e
  simp [Event.counts_iff]

/-- The reduction that is not told is the only line that is missing. -/
theorem Agrees.count_untold (agrees : c.Agrees) (untold : Parser.Untold c d) (k : Counter) :
    d.sent.countP (Counts k ·) + (if k = .reductions then 1 else 0) = k.of d.stats := by
  have raised : d.stats = Counter.reductions.raise c.stats := congrArg Ledger.stats untold.ledger
  rw [raised, Counter.of_raise, sent_eq, untold.events, ← sent_eq, agrees.count]
  simp only [eq_comm]

theorem Agrees.errorCount (agrees : c.Agrees) : c.status.errorCount = c.stats.errors := by
  have count := congrArg Ledger.errorCount agrees.ledger
  have errors := congrArg (Counter.errors.of ·.stats) agrees.ledger
  simp only [Ledger.errorCount_foldl, Ledger.of_foldl] at count errors
  exact count.trans errors.symm

theorem Agrees.announcing (agrees : c.Agrees) : Announcing c.traceLines := by
  rw [traceLines_eq_events]
  exact agrees.announced.announcing

end Config

open Config

namespace Parser

variable {p : Parser V ε γ} {lexer : Lexer V ε σ} {start b c d : Config V γ σ}
  {m m' : Moment V γ σ} {acts past : List (Act V)} {result : Result V ε}

theorem announced_closing (bracketOpen : Bool) (errorStatus : Nat) :
    Announced (closing bracketOpen errorStatus) := by
  apply Announced.of_inside
  intro e member
  rw [eq_of_mem_closing member]
  decide

theorem announced_opening (b : Config V γ σ) : Announced (p.opening b) := by
  apply Announced.of_inside
  intro e member
  rw [eq_of_mem_opening member]
  decide

section

variable (shown : ∀ category, p.flags.shows category = true)
include shown

variable (lexer) in
theorem recover_agrees (agrees : b.Agrees) : (p.recover lexer b).config.Agrees := by
  obtain ⟨more, plain, reports⟩ := p.recover_reported lexer b
  exact agrees.reports shown ((announced_opening b).append (.of_plain plain)) reports

theorem Goes.agrees (goes : p.Goes lexer m acts m') (agrees : m.config.Agrees) :
    m'.config.Agrees := by
  cases goes with
  | @shifted c b target performs =>
    apply (agrees.begins shown performs.begins).reports shown _ (p.shift_reported target b)
    exact .other (by simp [Event.category]) (announced_closing _ _)
  | @reduced c b d index rule reduces ready reduced =>
    obtain ⟨lhs, length, next, reports⟩ := p.reduce_next_reported index reduced
    apply (agrees.begins shown reduces.begins).reports shown _ reports
    exact .other (by simp [Event.category]) (announced_closing _ _)
  | forced reduces _ forced =>
    exact (agrees.begins shown reduces.begins).passes shown (p.reduce_recover_reported _ forced)
  | missed performs => exact agrees.begins shown performs.begins
  | @recovered b d recovered =>
    have after : (p.recover lexer b).config.Agrees := recover_agrees lexer shown agrees
    rwa [recovered] at after

omit shown in
theorem recover_lacksGoto (stopped : p.recover lexer b = .stop result d) :
    result.lacksGoto = false := by
  have cases := p.recover_cases lexer b
  rw [stopped] at cases
  cases cases with
  | stopped _ discard =>
    rcases p.discard_stop lexer discard with rfl | ⟨e, rfl⟩ <;> rfl
  | @unwound b' _ _ _ unwound =>
    have unwinding := p.unwind_cases (b'.setErrorStatus 3) b'.stack
    rw [unwound] at unwinding
    cases unwinding <;> rfl

/-- A run that stops agrees to the end, unless it stops for want of a goto. -/
theorem Ends.agrees (ends : p.Ends lexer m result d) (agrees : m.config.Agrees)
    (known : ∀ defect, result ≠ .error (.defect defect)) :
    (d.Agrees ∧ result.lacksGoto = false) ∨
      ∃ b : Config V γ σ, b.Agrees ∧ Untold b d ∧ result.lacksGoto = true := by
  cases ends with
  | @top c _ _ stopped direct =>
    have cases := p.step_cases lexer c
    rw [stopped] at cases
    cases cases with
    | empty | unknownState => exact .inl ⟨agrees, rfl⟩
    | @unfetched top state _ _ looked _ stack =>
      have after : (p.lookahead lexer state (p.announced c top.state)).config.Agrees :=
        agrees.begins shown (p.looked_begins lexer state stack)
      rw [looked] at after
      exact .inl ⟨after, rfl⟩
    | @ended index b _ _ reduces reduced =>
      have before := agrees.begins shown reduces.begins
      rcases p.reduce_stop_reported index reduced with ⟨passes, found⟩ | ⟨untold, missing⟩
      · exact .inl ⟨before.passes shown passes, found⟩
      -- it is counted before its goto is looked up, and no line is left to tell of it
      · rcases missing with lacking | ⟨defect, same⟩
        · exact .inr ⟨b, before, untold, lacking⟩
        · exact absurd same (known defect)
    | recovered recovers => exact absurd recovers (direct _)
  | @entry b _ _ stopped =>
    have after : (p.recover lexer b).config.Agrees := recover_agrees lexer shown agrees
    rw [stopped] at after
    exact .inl ⟨after, recover_lacksGoto stopped⟩

end

theorem upholds_hookReply (b : Config V γ σ) :
    (Act.hook (p.hookReply b).requests).upholds = ((p.report b).status.errorStatus != 0) := by
  rw [report_errorStatus, Act.upholds, Status.applyAll_errorStatus_eq]

theorem called_upholds (index : Nat) (rule : Rule) (b : Config V γ σ) :
    (p.called index rule b).countP Act.upholds = 0 := by
  unfold called
  split <;> rfl

theorem recovering_upholds (b : Config V γ σ) : (p.recovering b).countP Act.upholds =
    if b.status.errorStatus = 0 ∧ (p.report b).status.errorStatus ≠ 0 then 1 else 0 := by
  have hook := p.upholds_hookReply b
  unfold recovering
  by_cases fresh : b.status.errorStatus = 0
  · by_cases cleared : (p.report b).status.errorStatus = 0
    · simp [fresh, cleared, hook]
    · have shifts : (Act.errorShift : Act V).upholds = false := rfl
      simp [fresh, cleared, hook, shifts]
  · simp [fresh, Act.upholds]

/-- A reduction counts no error. -/
theorem Reduces.errors {index : Nat} (rule : Rule) (reduces : p.Reduces lexer c index b)
    (left : (p.reduce index b).config = d) :
    d.stats.errors = c.stats.errors + (p.called index rule b).countP Act.upholds := by
  have counted := p.reduce_errors index b
  rw [left, reduces.stats] at counted
  rw [called_upholds]
  exact counted

/-- Errors are counted as the hook upholds them. -/
theorem Goes.errors (goes : p.Goes lexer m acts m') :
    m'.config.stats.errors = m.config.stats.errors + acts.countP Act.upholds := by
  cases goes with
  | @shifted c b target performs =>
    have kept : (p.shift target b).stats.errors = c.stats.errors := by
      rw [shift_stats, performs.frame.stats]
    exact kept
  | @reduced c b d index rule reduces _ reduced => exact reduces.errors rule (by rw [reduced]; rfl)
  | @forced c b d index rule reduces _ forced => exact reduces.errors rule (by rw [forced]; rfl)
  | @missed c b performs =>
    have kept : b.stats.errors = c.stats.errors := by rw [performs.frame.stats]
    exact kept
  | @recovered b d recovered =>
    have counted := p.recover_errors lexer b
    rw [recovered] at counted
    rw [recovering_upholds]
    exact counted

theorem Past.errors (fresh : start.stats.errors = 0) (passed : p.Past lexer start past m) :
    m.config.stats.errors = past.countP Act.upholds := by
  induction passed with
  | start => exact fresh
  | @next acts more _ _ _ goes ih =>
    rw [goes.errors, ih, List.countP_append]
    omega

theorem Past.agrees (shown : ∀ category, p.flags.shows category = true) (agrees : start.Agrees)
    (passed : p.Past lexer start past m) : m.config.Agrees := by
  induction passed with
  | start => exact agrees
  | next _ goes ih => exact goes.agrees shown ih

/-- The trace of a run and its counters agree, with all categories shown. Over validated tables,
whatever the driver and the lexer do, the sink is given as many lines of each kind as the counter
of this kind says, whenever the run comes to the top of its loop and at its end, be it an outcome or
an error; only a reduction that ends the run for want of a goto is counted without a line. Every
line that names a state is followed at once by the stack that ends in it. The number of errors in
the status is the one that is counted, and that of the calls of the hook so far which were not taken
back. So it is at each moment, whose status is what the lexer is shown if it is called, and in what
each action sees. -/
theorem trace_agrees_with_counters {definition : TablesDefinition} (p : Parser V ε γ)
    (valid : Tables.ofDefinition definition = .ok p.tables)
    (shown : ∀ category, p.flags.shows category = true) (lexer : Lexer V ε σ) (source : σ)
    (context : γ) :
    (∀ c, p.Reaches lexer (.start source context) c →
      (∀ k, c.sent.countP (Counts k ·) = k.of c.stats) ∧ Announcing c.traceLines) ∧
    (∀ steps r, p.run lexer steps source context = some r →
      (∀ k, r.final.sent.countP (Counts k ·) +
        (if k = .reductions ∧ r.result.lacksGoto = true then 1 else 0) = k.of r.final.stats) ∧
      Announcing r.final.traceLines ∧
      ∃ past m, p.Past lexer (.start source context) past m ∧ p.Ends lexer m r.result r.final) ∧
    ∀ past m, p.Past lexer (.start source context) past m →
      m.config.status.errorCount = m.config.stats.errors ∧
      m.config.stats.errors = past.countP Act.upholds ∧
      (∀ acts m', p.Goes lexer m acts m' → p.Polls lexer m m'.config) ∧
      (∀ result d, p.Ends lexer m result d → p.Polls lexer m d) ∧
      ∀ c index b rule, m = .top c → p.Reduces lexer c index b → p.Ready index rule b →
        (p.sight index rule b).status.errorCount = b.stats.errors ∧
        b.stats.errors = past.countP Act.upholds := by
  have agreeing {past m} (passed : p.Past lexer (.start source context) past m) :=
    passed.agrees shown (.start source context)
  refine ⟨fun c reached => ?_, fun steps r ended => ?_, fun past m passed => ?_⟩
  · obtain ⟨past, passed⟩ := reached.past
    exact ⟨(agreeing passed).count, (agreeing passed).announcing⟩
  · obtain ⟨past, m, passed, ends⟩ := run_past ended
    have known : ∀ defect, r.result ≠ .error (.defect defect) := by
      obtain ⟨c, reached, stopped⟩ := runFrom_origin ended
      exact (step_orderly (Tables.sound_of_ofDefinition valid) reached.stands stopped).1
    have final := ends.agrees shown (agreeing passed) known
    refine ⟨fun k => ?_, ?_, past, m, passed, ends⟩
    · rcases final with ⟨agrees, found⟩ | ⟨b, agrees, untold, lacking⟩
      · simp [agrees.count, found]
      · simpa [lacking] using agrees.count_untold untold k
    · rcases final with ⟨agrees, _⟩ | ⟨b, agrees, untold, _⟩
      · exact agrees.announcing
      · rw [traceLines_eq_events, untold.events, ← traceLines_eq_events]
        exact agrees.announcing
  · have count := passed.errors rfl
    refine ⟨(agreeing passed).errorCount, count, fun acts m' goes => goes.polls,
      fun result d ends => ends.polls, ?_⟩
    rintro c index b rule rfl reduces _
    have kept : b.stats.errors = c.stats.errors := by rw [reduces.stats]
    exact ⟨((agreeing passed).begins shown reduces.begins).errorCount, kept.trans count⟩

/-- State 0 shifts the error token, and has no goto for the rule that follows. -/
def gotolessDefinition : TablesDefinition where
  rules := [⟨"$start", 1⟩, ⟨"line", 1⟩]
  states := [{ actions := some [("error", 1)] }, { default := some (-1) }]

def gotoless : Parser Nat Unit Unit where
  tables :=
    { rules := #[⟨"$start", 1, none⟩, ⟨"line", 1, none⟩]
      states := #[{ actions := some ⟨[("error", .shift 1)]⟩ }, { default := some (.reduce 1) }] }
  driver := Driver.plain
  flags := .all

/-- A stray token is an error that is told; the reduction behind it is counted and has no line. -/
theorem gotoless_counted :
    Tables.ofDefinition gotolessDefinition = .ok gotoless.tables ∧
    (∀ category, gotoless.flags.shows category = true) ∧
    ∃ r, gotoless.run LexemeQueue.lexer 3 ⟨[⟨"b", none⟩], 0⟩ () = some r ∧
      r.result = .error (.missingGoto 0 "line") ∧
      r.final.stats = { tokens := 1, reductions := 1, errors := 1 } ∧
      r.final.sent.countP (Counts .errors ·) = 1 ∧
      r.final.sent.countP (Counts .reductions ·) = 0 ∧ Announcing r.final.traceLines := by
  have valid : Tables.ofDefinition gotolessDefinition = .ok gotoless.tables := rfl
  have shown : ∀ category, gotoless.flags.shows category = true := by
    intro category
    cases category <;> rfl
  obtain ⟨-, ended, -⟩ := trace_agrees_with_counters gotoless valid shown LexemeQueue.lexer
    ⟨[⟨"b", none⟩], 0⟩ ()
  obtain ⟨counts, announcing, -⟩ := ended 3 _ rfl
  have errors := counts .errors
  have reductions := counts .reductions
  refine ⟨valid, shown, _, rfl, rfl, rfl, errors, ?_, announcing⟩
  exact Nat.succ.inj reductions

end Parser

end ShiftReduce
