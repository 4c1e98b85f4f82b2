import ShiftReduce.Proofs.Recovery
import ShiftReduce.Proofs.TraceText

/-! A run keeps books beside its trace: its counters, and whether the end of a recovery has still to
be told. For each operation of the parser it is said here which events it reports, whether they are
shown or not. What it does to the books follows from these events alone. -/

namespace ShiftReduce

variable {V ε γ σ : Type}

namespace Trace

def Record.event? : Record → Option Event
  | .event e => some e
  | .warning _ => none

/-- The event is reported in passing: it opens no step, and it is none of the brackets. -/
def Event.isPlain (e : Event) : Bool := e.category != .state && e.bracket?.isNone

theorem Event.bracket?_of_isPlain {e : Event} (plain : e.isPlain) : e.bracket? = none := by
  unfold isPlain at plain
  simp_all

theorem Event.category_of_isPlain {e : Event} (plain : e.isPlain) : e.category ≠ .state := by
  unfold isPlain at plain
  simp_all

end Trace

open Trace

theorem Status.consume_errorCount (s : Status V) : s.consume.errorCount = s.errorCount := by
  unfold consume
  split <;> rfl

/-- The run ends for want of a goto. -/
def Result.lacksGoto : Result V ε → Bool
  | .error (.missingGoto ..) => true
  | _ => false

/-- The books of a run. -/
structure Ledger where
  stats : Stats := {}
  errorCount : Nat := 0
  bracketOpen : Bool := false

namespace Ledger

/-- The books after an event. -/
def enter (l : Ledger) (e : Event) : Ledger where
  stats := e.counter?.elim l.stats (·.raise l.stats)
  errorCount := l.errorCount + if e.counter? = some .errors then 1 else 0
  bracketOpen := e.bracket?.elim l.bracketOpen (· = .entering)

theorem of_enter (l : Ledger) (e : Event) (k : Counter) :
    k.of (l.enter e).stats = k.of l.stats + if e.counter? = some k then 1 else 0 := by
  unfold enter
  cases e.counter? with
  | none => rfl
  | some raised => simpa using k.of_raise raised l.stats

/-- A counter goes up as often as its events are entered. -/
theorem of_foldl (told : List Event) (l : Ledger) (k : Counter) :
    k.of (told.foldl enter l).stats = k.of l.stats + told.countP (·.counter? = some k) := by
  induction told generalizing l with
  | nil => rfl
  | cons e told ih =>
    rw [List.foldl_cons, ih, of_enter, List.countP_cons]
    simp only [decide_eq_true_eq]
    omega

theorem errorCount_foldl (told : List Event) (l : Ledger) : (told.foldl enter l).errorCount =
    l.errorCount + told.countP (·.counter? = some .errors) := by
  induction told generalizing l with
  | nil => rfl
  | cons e told ih =>
    rw [List.foldl_cons, ih, List.countP_cons]
    simp only [enter, decide_eq_true_eq]
    omega

end Ledger

namespace Config

/-- The events that were recorded, in order. -/
def events (c : Config V γ σ) : List Event := c.records.reverse.filterMap Record.event?

def ledger (c : Config V γ σ) : Ledger := ⟨c.stats, c.status.errorCount, c.bracketOpen⟩

theorem sent_eq (c : Config V γ σ) : c.sent = c.events.map fun e => (e.category, e.text) := by
  rw [sent, events, List.map_filterMap]
  congr 1
  funext record
  cases record <;> rfl

theorem traceLines_eq_events (c : Config V γ σ) : c.traceLines = c.events.map Event.text := by
  rw [traceLines_eq, sent_eq, List.map_map]
  rfl

/-- From `c` to `b` these events are reported: those that the flags show are recorded, and all of
them are entered in the books. -/
structure Reports (flags : Flags) (told : List Event) (c b : Config V γ σ) : Prop where
  events : b.events = c.events ++ told.filter (flags.shows ·.category)
  ledger : b.ledger = told.foldl Ledger.enter c.ledger

namespace Reports

variable {flags : Flags} {told more : List Event} {c b d : Config V γ σ}

theorem refl (flags : Flags) (c : Config V γ σ) : Reports flags [] c c := ⟨by simp, rfl⟩

theorem trans (first : Reports flags told c b) (second : Reports flags more b d) :
    Reports flags (told ++ more) c d where
  events := by rw [second.events, first.events, List.filter_append, List.append_assoc]
  ledger := by rw [second.ledger, first.ledger, List.foldl_append]

theorem of_same (records : b.records = c.records) (ledger : b.ledger = c.ledger) :
    Reports flags [] c b :=
  ⟨by simp [Config.events, records], ledger⟩

theorem congr (reports : Reports flags told c b) (records : d.records = b.records)
    (ledger : d.ledger = b.ledger) : Reports flags told c d := by
  simpa using reports.trans (of_same records ledger)

theorem of_event {e : Event} (records : b.records = flags.record e c.records)
    (ledger : b.ledger = c.ledger.enter e) : Reports flags [e] c b where
  events := by
    unfold Config.events
    rw [records, Flags.record]
    cases shown : flags.shows e.category with
    | true => simp [Record.event?, shown]
    | false => simp [shown]
  ledger := ledger

/-- Most events are recorded only. -/
theorem of_emit {e : Event} (uncounted : e.counter? = none) (inside : e.bracket? = none)
    (flags : Flags) (c : Config V γ σ) : Reports flags [e] c (c.emit flags e) := by
  apply of_event (emit_records c flags e)
  simp [Config.ledger, Ledger.enter, uncounted, inside]

end Reports

/-- From `c` to `b` events are reported in passing only. -/
def Passes (flags : Flags) (c b : Config V γ σ) : Prop :=
  ∃ told, (∀ e ∈ told, e.isPlain) ∧ Reports flags told c b

namespace Passes

variable {flags : Flags} {c b d : Config V γ σ}

theorem of_reports_nil (reports : Reports flags [] c b) : Passes flags c b := ⟨[], by simp, reports⟩

theorem of_reports {e : Event} (plain : e.isPlain) (reports : Reports flags [e] c b) :
    Passes flags c b :=
  ⟨[e], by simpa using plain, reports⟩

theorem refl (flags : Flags) (c : Config V γ σ) : Passes flags c c := of_reports_nil (.refl flags c)

theorem trans (first : Passes flags c b) (second : Passes flags b d) : Passes flags c d := by
  obtain ⟨told, plain, reports⟩ := first
  obtain ⟨more, plain', reports'⟩ := second
  refine ⟨told ++ more, ?_, reports.trans reports'⟩
  intro e member
  exact (List.mem_append.mp member).elim (plain e) (plain' e)

theorem of_event {e : Event} (plain : e.isPlain) (records : b.records = flags.record e c.records)
    (ledger : b.ledger = c.ledger.enter e) : Passes flags c b :=
  of_reports plain (.of_event records ledger)

end Passes

/-- From `c` to `b` a step begins: its state and the stack up to it are reported, and what else is,
is so in passing. -/
def Begins (flags : Flags) (c b : Config V γ σ) : Prop :=
  ∃ number told, c.states.getLast? = some number ∧ (∀ e ∈ told, e.isPlain) ∧
    Reports flags (.state number :: .stack c.states :: told) c b

end Config

open Config

namespace Parser

variable (p : Parser V ε γ) (lexer : Lexer V ε σ)

theorem emit_passes {e : Event} (plain : e.isPlain) (still : e.counter? = none) (flags : Flags)
    (c : Config V γ σ) : Passes flags c (c.emit flags e) :=
  .of_reports plain (.of_emit still (Event.bracket?_of_isPlain plain) flags c)

theorem fetch_passes (c : Config V γ σ) : Passes p.flags c (p.fetch lexer c).config := by
  unfold fetch
  split
  · exact .of_reports_nil (.of_same rfl rfl)
  · next lexeme source _ =>
    apply Passes.of_event (e := .fetched lexeme.token) rfl
    · exact emit_records _ _ _
    · simp [ledger, Ledger.enter, Event.counter?, Event.bracket?, Counter.raise, Step.config]

theorem fetchMissing_passes (c : Config V γ σ) :
    Passes p.flags c (p.fetchMissing lexer c).config := by
  unfold fetchMissing
  split
  · exact p.fetch_passes lexer c
  · exact .refl _ c

theorem lookahead_passes (state : State) (c : Config V γ σ) :
    Passes p.flags c (p.lookahead lexer state c).config := by
  unfold lookahead
  split
  · exact p.fetchMissing_passes lexer c
  · exact emit_passes rfl rfl p.flags c

theorem discard_passes (c : Config V γ σ) : Passes p.flags c (p.discard lexer c).config := by
  unfold discard
  split
  · have fetched := p.fetchMissing_passes lexer c
    cases looked : p.fetchMissing lexer c with
    | stop result b =>
      rw [looked] at fetched
      exact fetched
    | next b =>
      rw [looked] at fetched
      rw [Step.andThen_next]
      split
      · exact fetched.trans (emit_passes rfl rfl p.flags b)
      · apply fetched.trans
        apply Passes.of_event (e := .discarded (b.status.token.getD "")) rfl
        · exact emit_records _ _ _
        · simp [ledger, Ledger.enter, Event.counter?, Event.bracket?, Counter.raise, Step.config,
            Status.dropToken]
  · exact .refl _ c

theorem unwind_passes (c : Config V γ σ) (stack : List (Entry V)) :
    Passes p.flags c (p.unwind (ε := ε) c stack).config := by
  induction stack generalizing c with
  | nil =>
    have emptied : Passes p.flags c { c with stack := [] } := .of_reports_nil (.of_same rfl rfl)
    exact emptied.trans (emit_passes rfl rfl p.flags _)
  | cons top rest ih =>
    have kept : Passes p.flags c { c with stack := top :: rest } :=
      .of_reports_nil (.of_same rfl rfl)
    unfold unwind
    split
    · exact kept
    · split
      · next target _ =>
        apply kept.trans
        have told := emit_passes (e := .errorShift target) rfl rfl p.flags
          { c with stack := top :: rest }
        exact told.trans (.of_reports_nil (.of_same rfl rfl))
      · apply Passes.trans _ (ih _)
        apply Passes.of_event (e := .popped top.state) rfl
        · exact emit_records _ _ _
        · simp [ledger, Ledger.enter, Event.counter?, Event.bracket?, Counter.raise]

theorem announced_reported (c : Config V γ σ) (number : Nat) :
    Reports p.flags [.state number, .stack c.states] c (p.announced c number) := by
  have same : (c.emit p.flags (.state number)).states = c.states := by simp [states]
  unfold announced
  rw [emitStack_eq, same]
  have opened : Reports p.flags [.state number] c (c.emit p.flags (.state number)) :=
    .of_emit rfl rfl p.flags c
  exact opened.trans (.of_emit rfl rfl p.flags _)

theorem looked_begins {c : Config V γ σ} {top : Entry V} {rest : List (Entry V)} (state : State)
    (stack : c.stack = top :: rest) :
    Begins p.flags c (p.lookahead lexer state (p.announced c top.state)).config := by
  obtain ⟨told, plain, reports⟩ := p.lookahead_passes lexer state (p.announced c top.state)
  refine ⟨top.state, told, by simp [states, stack], plain, ?_⟩
  exact (p.announced_reported c top.state).trans reports

section

variable {p lexer}
variable {c b : Config V γ σ}

theorem Performs.begins {action : Option Action} (performs : p.Performs lexer c action b) :
    Begins p.flags c b := by
  obtain ⟨top, rest, state, stack, _, looked, _⟩ := performs
  have begins := p.looked_begins lexer state stack
  rwa [looked] at begins

theorem Reduces.begins {index : Nat} (reduces : p.Reduces lexer c index b) :
    Begins p.flags c b := by
  rcases reduces with performs | ⟨before, performs, _, rfl⟩
  · exact performs.begins
  · obtain ⟨number, told, top, plain, reports⟩ := performs.begins
    exact ⟨number, told, top, plain, reports.congr rfl rfl⟩

end

/-- The end of a recovery is told once the error status is zero. -/
def closing (bracketOpen : Bool) (errorStatus : Nat) : List Event :=
  if bracketOpen && errorStatus == 0 then [.recoveryEnded] else []

theorem eq_of_mem_closing {bracketOpen : Bool} {errorStatus : Nat} {e : Event}
    (member : e ∈ closing bracketOpen errorStatus) : e = .recoveryEnded := by
  unfold closing at member
  split at member
  · exact List.mem_singleton.mp member
  · contradiction

theorem closeBracket_reported (c : Config V γ σ) :
    Reports p.flags (closing c.bracketOpen c.status.errorStatus) c (p.closeBracket c) := by
  unfold closing closeBracket
  split
  · apply Reports.of_event
    · exact emit_records _ _ _
    · simp [ledger, Ledger.enter, Event.counter?, Event.bracket?]
  · exact .refl _ c

theorem shift_reported (target : Nat) (c : Config V γ σ) :
    Reports p.flags (.shift target ::
        closing (c.bracketOpen && c.status.errorStatus != 0) (c.status.errorStatus - 1))
      c (p.shift target c) := by
  let b : Config V γ σ :=
    { c.emit p.flags (.shift target) with stats.shifts := c.stats.shifts + 1 }
  have told : Reports p.flags [.shift target] c b := by
    apply Reports.of_event
    · exact emit_records _ _ _
    · simp [b, ledger, Ledger.enter, Event.counter?, Event.bracket?, Counter.raise]
  -- the bracket is closed before the shift is counted, which makes no difference
  suffices closed : Reports p.flags
      (closing (c.bracketOpen && c.status.errorStatus != 0) (c.status.errorStatus - 1)) b
      (p.shift target c) from told.trans closed
  cases status : c.status.errorStatus with
  | zero =>
    have nothing : closing (c.bracketOpen && 0 != 0) (0 - 1) = [] := by simp [closing]
    rw [nothing]
    apply Reports.of_same
    · simp [shift, status, b, push]
    · simp [shift, status, b, push, ledger, Status.consume_errorCount]
  | succ n =>
    have closed := p.closeBracket_reported (b.setErrorStatus n)
    have same : (p.shift target c).records = (p.closeBracket (b.setErrorStatus n)).records ∧
        (p.shift target c).ledger = (p.closeBracket (b.setErrorStatus n)).ledger := by
      by_cases ends : (c.bracketOpen && n == 0) = true
      · simp [shift, status, closeBracket, b, push, setErrorStatus, ends, ledger,
          Status.consume_errorCount, emit_records]
      · simp [shift, status, closeBracket, b, push, setErrorStatus, ends, ledger,
          Status.consume_errorCount, emit_records]
    have counted : closing (c.bracketOpen && n + 1 != 0) (n + 1 - 1) =
        closing (b.setErrorStatus n).bracketOpen (b.setErrorStatus n).status.errorStatus := by
      simp [closing, b, setErrorStatus]
    rw [counted]
    have still : Reports p.flags [] b (b.setErrorStatus n) := .of_same rfl rfl
    exact still.trans (closed.congr same.1 same.2)

/-- A callback adds warnings to the record, and no events. -/
theorem absorb_reported {α : Type} (flags : Flags) (c : Config V γ σ) (reply : Reply V γ α) :
    Reports flags [] c (c.absorb reply) where
  events := by simp [events, absorb, List.filterMap_append, Function.comp_def, Record.event?]
  ledger := by simp [ledger, absorb, Status.applyAll_errorCount]

section Reduction

variable (index : Nat) (rule : Rule) (c : Config V γ σ)

theorem acted_reported : Reports p.flags [] c (p.acted index rule c).2 := by
  have handed : Reports p.flags [] c { c with status := { c.status with dot := rule.dot } } :=
    .of_same rfl rfl
  unfold acted evaluate
  split
  · exact handed.trans (absorb_reported p.flags _ _)
  · exact handed

theorem told_reported (next : Aftermath) :
    Reports p.flags [.reduced index rule.lhs rule.length next] c (p.told index rule c next) := by
  apply (p.acted_reported index rule c).trans
  apply Reports.of_event
  · exact emit_records _ _ _
  · simp [told, popped, setControl, ledger, Ledger.enter, Event.counter?, Event.bracket?,
      Counter.raise]

/-- A reduction that goes on is told, and so is the end of a recovery if its action asked for it. -/
theorem reduce_next_reported {b d : Config V γ σ} (reduced : p.reduce index b = .next d) :
    ∃ lhs length next, Reports p.flags
      (.reduced index lhs length next :: closing b.bracketOpen d.status.errorStatus) b d := by
  have cases := p.reduce_cases index b
  rw [reduced] at cases
  cases cases with
  | @continued rule value top _ _ target =>
    have told := p.told_reported index rule b (.goto top.state target)
    have closed := p.closeBracket_reported (p.told index rule b (.goto top.state target))
    have open_eq : (p.told index rule b (.goto top.state target)).bracketOpen = b.bracketOpen :=
      congrArg Ledger.bracketOpen told.ledger
    rw [open_eq] at closed
    refine ⟨rule.lhs, rule.length, .goto top.state target, ?_⟩
    simpa using (told.trans closed).congr (d := (p.closeBracket
      (p.told index rule b (.goto top.state target))).push target value) rfl rfl

/-- A reduction that forces recovery is told, and nothing else. -/
theorem reduce_recover_reported {b d : Config V γ σ} (reduced : p.reduce index b = .recover d) :
    Passes p.flags b d := by
  have cases := p.reduce_cases index b
  rw [reduced] at cases
  cases cases with
  | forced => exact .of_reports rfl (p.told_reported ..)

/-- A reduction was counted and is not told. -/
structure Untold (c b : Config V γ σ) : Prop where
  events : b.events = c.events
  ledger : b.ledger = { c.ledger with stats := Counter.reductions.raise c.stats }

/-- Every reduction that ends the run is told, unless it is for want of a goto or of the state that
it uncovers. -/
theorem reduce_stop_reported {b d : Config V γ σ} {result : Result V ε}
    (reduced : p.reduce index b = .stop result d) :
    (Passes p.flags b d ∧ result.lacksGoto = false) ∨
      Untold b d ∧ (result.lacksGoto = true ∨ ∃ defect, result = .error (.defect defect)) := by
  have untold (rule : Rule) : Untold b (p.popped index rule b) := by
    obtain ⟨events, ledger⟩ := p.acted_reported index rule b
    constructor
    · calc (p.popped index rule b).events
        _ = (p.acted index rule b).2.events := rfl
        _ = b.events := by simpa using events
    · calc (p.popped index rule b).ledger
        _ = { (p.acted index rule b).2.ledger with
              stats := Counter.reductions.raise (p.acted index rule b).2.ledger.stats } := rfl
        _ = { b.ledger with stats := Counter.reductions.raise b.stats } := by rw [ledger]; rfl
  have cases := p.reduce_cases index b
  rw [reduced] at cases
  cases cases with
  | unknownRule | underflow | overflow => exact .inl ⟨.refl _ b, rfl⟩
  | raised => exact .inl ⟨.of_reports_nil (p.acted_reported ..), rfl⟩
  | accepted | aborted => exact .inl ⟨.of_reports rfl (p.told_reported ..), rfl⟩
  | unknownState => exact .inr ⟨untold _, .inr ⟨_, rfl⟩⟩
  | missingGoto => exact .inr ⟨untold _, .inl rfl⟩

end Reduction

/-- An error that is new is told of, unless the hook takes it back. -/
def opening (c : Config V γ σ) : List Event :=
  if c.status.errorStatus = 0 ∧ (p.report c).status.errorStatus ≠ 0 then [.recoveryEntered] else []

variable {p} in
theorem eq_of_mem_opening {c : Config V γ σ} {e : Event} (member : e ∈ p.opening c) :
    e = .recoveryEntered := by
  unfold opening at member
  split at member
  · exact List.mem_singleton.mp member
  · contradiction

theorem report_reported (c : Config V γ σ) : Reports p.flags [] c (p.report c) := by
  have still : Reports p.flags [] c (c.setErrorStatus 1) := .of_same rfl rfl
  exact still.trans (absorb_reported p.flags _ _)

theorem entered_reported {c : Config V γ σ}
    (uncleared : c.status.errorStatus = 0 → (p.report c).status.errorStatus ≠ 0) :
    Reports p.flags (p.opening c) c (p.entered c) := by
  unfold opening entered
  by_cases fresh : c.status.errorStatus = 0
  · rw [if_pos ⟨fresh, uncleared fresh⟩, if_pos fresh]
    apply (p.report_reported c).trans
    apply Reports.of_event
    · exact emit_records _ _ _
    · simp [enterRecovery, ledger, Ledger.enter, Event.counter?, Event.bracket?, Counter.raise]
  · rw [if_neg fun both => fresh both.1, if_neg fresh]
    exact .refl _ c

/-- Recovery tells first of an error that is new, and of all else in passing. -/
theorem recover_reported (c : Config V γ σ) : ∃ more, (∀ e ∈ more, e.isPlain) ∧
    Reports p.flags (p.opening c ++ more) c (p.recover lexer c).config := by
  have cases := p.recover_cases lexer c
  generalize p.recover lexer c = step at cases
  have discarded := p.discard_passes lexer (p.entered c)
  cases cases with
  | resumed _ cleared =>
    have nothing : p.opening c = [] := if_neg fun both => both.2 cleared
    rw [nothing]
    exact ⟨[], by simp, p.report_reported c⟩
  | stopped uncleared discard =>
    rw [discard] at discarded
    obtain ⟨more, plain, reports⟩ := discarded
    exact ⟨more, plain, (p.entered_reported uncleared).trans reports⟩
  | @unwound b _ uncleared discard unwound =>
    rw [discard] at discarded
    have still : Passes p.flags b (b.setErrorStatus 3) := .of_reports_nil (.of_same rfl rfl)
    have unwinds := p.unwind_passes (ε := ε) (b.setErrorStatus 3) b.stack
    rw [unwound] at unwinds
    obtain ⟨more, plain, reports⟩ := (discarded.trans still).trans unwinds
    exact ⟨more, plain, (p.entered_reported uncleared).trans reports⟩

end Parser

end ShiftReduce
