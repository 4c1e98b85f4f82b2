import ShiftReduce.Proofs.Control
import ShiftReduce.Proofs.Ledger
import ShiftReduce.Proofs.Trail

/-! The trace tells where the recovery from an error is entered and where it ends. One invariant
keeps the two in step: a recovery that was told of and is still open is one whose error status is
not zero. An action that clears the status and forces an error all the same would break it. -/

namespace ShiftReduce

variable {V ε γ σ : Type}

namespace Trace

/-- So many brackets, where each recovery ends before the next one is entered. -/
def alternation (n : Nat) : List Bracket :=
  (List.range n).map fun i => if i % 2 = 0 then .entering else .ending

section

variable {n : Nat}

theorem alternation_entering (even : n % 2 = 0) :
    alternation n ++ [.entering] = alternation (n + 1) := by
  simp [alternation, List.range_succ, even]

theorem alternation_ending (odd : n % 2 = 1) :
    alternation n ++ [.ending] = alternation (n + 1) := by
  simp [alternation, List.range_succ, odd]

theorem getLast?_alternation : (alternation n).getLast? = some .entering ↔ n % 2 = 1 := by
  cases n with
  | zero => simp [alternation]
  | succ n =>
    rw [alternation, List.range_succ, List.map_append, List.map_singleton, List.getLast?_concat]
    by_cases even : n % 2 = 0
    · simp only [if_pos even, true_iff]
      omega
    · simp only [if_neg even, reduceCtorEq, Option.some.injEq, false_iff]
      omega

end

theorem silent_of_plain {told : List Event} (plain : ∀ e ∈ told, e.isPlain) :
    ∀ e ∈ told, e.bracket? = none := by
  intro e member
  exact Event.bracket?_of_isPlain (plain e member)

/-- The lines of a trace that are brackets. -/
def bracketLines (lines : List String) : List String :=
  lines.filter fun line => line = "**Entering error recovery." ∨ line = "**End of error recovery."

/-- Recovery is entered and ended by turns, beginning with an entry. -/
def AlternatingLines (lines : List String) : Prop :=
  ∃ n, bracketLines lines = (List.range n).map fun i =>
    if i % 2 = 0 then "**Entering error recovery." else "**End of error recovery."

theorem bracketLines_text (es : List Event) :
    bracketLines (es.map Event.text) = (es.filterMap Event.bracket?).map Bracket.line := by
  induction es with
  | nil => rfl
  | cons e es ih =>
    have told (b : Bracket) := Event.text_eq_line_iff b e
    unfold bracketLines at ih ⊢
    rw [List.map_cons, List.filter_cons, ih, List.filterMap_cons]
    cases bracket : e.bracket? with
    | none =>
      have silent (b : Bracket) : e.text ≠ b.line := by simp [told, bracket]
      rw [if_neg]
      simp only [decide_eq_true_eq, not_or]
      exact ⟨silent .entering, silent .ending⟩
    | some b =>
      have spoken : e.text = b.line := (told b).mpr bracket
      rw [if_pos, List.map_cons, spoken]
      rw [spoken]
      cases b <;> rfl

end Trace

open Trace

/-- The last bracket tells whether a recovery is open. -/
theorem Ledger.bracketOpen_foldl (told : List Event) (l : Ledger) :
    (told.foldl enter l).bracketOpen =
      (told.filterMap Event.bracket?).getLast?.elim l.bracketOpen (· = .entering) := by
  induction told generalizing l with
  | nil => rfl
  | cons e told ih =>
    rw [List.foldl_cons, ih, List.filterMap_cons]
    cases bracket : e.bracket? with
    | none => simp [enter, bracket]
    | some b =>
      rw [List.getLast?_cons]
      cases (told.filterMap Event.bracket?).getLast? <;> simp [enter, bracket]

namespace Config

/-- The brackets that were recorded, in order. -/
def brackets (c : Config V γ σ) : List Bracket := c.events.filterMap Event.bracket?

theorem bracketLines_traceLines (c : Config V γ σ) :
    bracketLines c.traceLines = c.brackets.map Bracket.line := by
  rw [traceLines_eq_events]
  exact bracketLines_text c.events

variable {flags : Flags} {told : List Event} {b c d : Config V γ σ}

/-- Brackets belong to recovery, whose events are shown. -/
theorem Reports.brackets (shown : flags.shows .recovery = true) (reports : Reports flags told c d) :
    d.brackets = c.brackets ++ told.filterMap Event.bracket? := by
  unfold Config.brackets
  rw [reports.events, List.filterMap_append]
  congr 1
  rw [List.filterMap_filter]
  congr 1
  funext e
  cases e with
  | recoveryEntered | discarded | inputExhausted | popped | stackExhausted | errorShift
  | recoveryEnded => simp [Event.category, Event.bracket?, shown]
  | state | stack | fetched | noTokenNeeded | shift | reduced => exact ite_self none

theorem Reports.bracketOpen (reports : Reports flags told c d) : d.bracketOpen =
    (told.filterMap Event.bracket?).getLast?.elim c.bracketOpen (· = .entering) :=
  (congrArg Ledger.bracketOpen reports.ledger).trans (Ledger.bracketOpen_foldl told c.ledger)

/-- Between the two configurations no recovery was entered or ended. -/
structure Quiet (c d : Config V γ σ) : Prop where
  brackets : d.brackets = c.brackets
  bracketOpen : d.bracketOpen = c.bracketOpen

namespace Quiet

theorem refl (c : Config V γ σ) : Quiet c c := ⟨rfl, rfl⟩

theorem trans (first : Quiet c b) (second : Quiet b d) : Quiet c d :=
  ⟨second.brackets.trans first.brackets, second.bracketOpen.trans first.bracketOpen⟩

theorem of_reports (shown : flags.shows .recovery = true) (silent : ∀ e ∈ told, e.bracket? = none)
    (reports : Reports flags told c d) : Quiet c d where
  brackets := by
    rw [reports.brackets shown, List.filterMap_eq_nil_iff.mpr silent, List.append_nil]
  bracketOpen := by
    rw [reports.bracketOpen, List.filterMap_eq_nil_iff.mpr silent]
    rfl

theorem of_passes (shown : flags.shows .recovery = true) (passes : Passes flags c d) :
    Quiet c d := by
  obtain ⟨told, plain, reports⟩ := passes
  exact of_reports shown (silent_of_plain plain) reports

/-- What a step begins with is told outside of recovery. -/
theorem of_begins (shown : flags.shows .recovery = true) (begins : Begins flags c d) :
    Quiet c d := by
  obtain ⟨number, told, _, plain, reports⟩ := begins
  apply of_reports shown _ reports
  simpa [Event.bracket?] using silent_of_plain plain

theorem of_untold (untold : Parser.Untold c d) : Quiet c d :=
  ⟨congrArg (List.filterMap Event.bracket?) untold.events,
    congrArg Ledger.bracketOpen untold.ledger⟩

end Quiet

theorem alternatingLines_of_brackets {n : Nat} (same : c.brackets = alternation n) :
    AlternatingLines c.traceLines := by
  refine ⟨n, ?_⟩
  rw [bracketLines_traceLines, same, alternation, List.map_map]
  congr 1
  funext i
  by_cases even : i % 2 = 0
  · simp [even, Bracket.line]
  · simp [even, Bracket.line]

/-- The brackets alternate, and the last recovery is open as long as the error status is not
zero. -/
structure Bracketed (c : Config V γ σ) : Prop where
  alternating : ∃ n, c.brackets = alternation n ∧ (c.bracketOpen = true ↔ n % 2 = 1)
  status : c.bracketOpen = true ↔ c.status.errorStatus ≠ 0

namespace Bracketed

theorem start (source : σ) (context : γ) :
    (Config.start source context : Config V γ σ).Bracketed :=
  ⟨⟨0, rfl, by simp [Config.start]⟩, by simp [Config.start]⟩

theorem last_iff (bracketed : c.Bracketed) :
    (bracketLines c.traceLines).getLast? = some "**Entering error recovery." ↔
      c.status.errorStatus ≠ 0 := by
  obtain ⟨n, same, parity⟩ := bracketed.alternating
  rw [← bracketed.status, parity, ← getLast?_alternation, bracketLines_traceLines, same,
    List.getLast?_map]
  constructor
  · intro last
    obtain ⟨b, stands, line⟩ := Option.map_eq_some_iff.mp last
    cases b with
    | entering => exact stands
    | ending => exact absurd line (by decide)
  · intro last
    rw [last]
    rfl

theorem quiet (bracketed : c.Bracketed) (quiet : Quiet c d)
    (status : d.status.errorStatus = c.status.errorStatus) : d.Bracketed :=
  ⟨by rw [quiet.brackets, quiet.bracketOpen]; exact bracketed.alternating,
    by rw [quiet.bracketOpen, status]; exact bracketed.status⟩

/-- A recovery that is open ends where the error status comes down to zero. -/
theorem closes (bracketed : c.Bracketed) (shown : flags.shows .recovery = true) {e : Event}
    (plain : e.isPlain)
    (reports : Reports flags (e :: Parser.closing c.bracketOpen d.status.errorStatus) c d)
    (lower : d.status.errorStatus ≠ 0 → c.status.errorStatus ≠ 0) : d.Bracketed := by
  have silent := Event.bracket?_of_isPlain plain
  by_cases ends : c.bracketOpen = true ∧ d.status.errorStatus = 0
  · obtain ⟨isOpen, zero⟩ := ends
    have told : Parser.closing c.bracketOpen d.status.errorStatus = [.recoveryEnded] := by
      simp [Parser.closing, isOpen, zero]
    have turned : [e, .recoveryEnded].filterMap Event.bracket? = [.ending] := by
      rw [List.filterMap_cons, silent]
      rfl
    have brackets := reports.brackets shown
    have closed := reports.bracketOpen
    rw [told, turned] at brackets closed
    change d.bracketOpen = false at closed
    obtain ⟨n, same, parity⟩ := bracketed.alternating
    have odd := parity.mp isOpen
    refine ⟨⟨n + 1, ?_, ?_⟩, by simp [closed, zero]⟩
    · rw [brackets, same, alternation_ending odd]
    · simp only [closed, Bool.false_eq_true, false_iff]
      omega
  · have told : Parser.closing c.bracketOpen d.status.errorStatus = [] := by
      simpa [Parser.closing] using ends
    rw [told] at reports
    have quiet : Quiet c d := .of_reports shown (by simpa using silent) reports
    refine ⟨by rw [quiet.brackets, quiet.bracketOpen]; exact bracketed.alternating, ?_⟩
    rw [quiet.bracketOpen]
    constructor
    · exact fun isOpen zero => ends ⟨isOpen, zero⟩
    · exact fun set => bracketed.status.mpr (lower set)

/-- No recovery is open where the error status is zero, so that one can be entered. -/
theorem opens (bracketed : c.Bracketed) (shown : flags.shows .recovery = true)
    (plain : ∀ e ∈ told, e.isPlain) (reports : Reports flags (.recoveryEntered :: told) c d)
    (fresh : c.status.errorStatus = 0) :
    d.bracketOpen = true ∧ ∃ n, d.brackets = alternation n ∧ n % 2 = 1 := by
  have silent : told.filterMap Event.bracket? = [] :=
    List.filterMap_eq_nil_iff.mpr (silent_of_plain plain)
  have turned : (Event.recoveryEntered :: told).filterMap Event.bracket? = [.entering] := by
    rw [List.filterMap_cons, silent]
    rfl
  have brackets := reports.brackets shown
  have isOpen := reports.bracketOpen
  rw [turned] at brackets isOpen
  change d.bracketOpen = true at isOpen
  obtain ⟨n, same, parity⟩ := bracketed.alternating
  have even : n % 2 = 0 := by
    have closed : ¬ n % 2 = 1 := fun odd => bracketed.status.mp (parity.mpr odd) fresh
    omega
  refine ⟨isOpen, n + 1, ?_, by omega⟩
  rw [brackets, same, alternation_entering even]

end Bracketed

end Config

open Config

namespace Parser

section

variable (p : Parser V ε γ) (lexer : Lexer V ε σ)

/-- No action that asks for the end of recovery returns with the control flag at error. -/
def SettlesErrok (start : Config V γ σ) : Prop :=
  ∀ c index b rule, p.Reaches lexer start c → p.Reduces lexer c index b → p.Ready index rule b →
    (p.called index rule b).any Act.clears = true →
    (p.acted index rule b).2.status.control ≠ .error

end

variable {p : Parser V ε γ} {lexer : Lexer V ε σ} {start b c d : Config V γ σ}
  {m m' : Moment V γ σ} {acts past : List (Act V)} {result : Result V ε}

section

variable (shown : p.flags.shows .recovery = true)
include shown

theorem Performs.bracketed {action : Option Action} (performs : p.Performs lexer c action b)
    (bracketed : c.Bracketed) : b.Bracketed :=
  bracketed.quiet (.of_begins shown performs.begins) performs.frame.errorStatus

theorem Reduces.bracketed {index : Nat} (reduces : p.Reduces lexer c index b)
    (bracketed : c.Bracketed) : b.Bracketed :=
  bracketed.quiet (.of_begins shown reduces.begins) reduces.errorStatus

variable (lexer) in
/-- Behind recovery a bracket is open, unless the hook has taken the error back. -/
theorem recover_alternating (bracketed : b.Bracketed) (left : (p.recover lexer b).config = d) :
    (∃ n, d.brackets = alternation n ∧ (d.bracketOpen = true ↔ n % 2 = 1)) ∧
      (d.bracketOpen = true ↔
        ¬ (b.status.errorStatus = 0 ∧ (p.report b).status.errorStatus = 0)) := by
  obtain ⟨more, plain, reports⟩ := p.recover_reported lexer b
  rw [left] at reports
  unfold opening at reports
  by_cases upheld : b.status.errorStatus = 0 ∧ (p.report b).status.errorStatus ≠ 0
  · rw [if_pos upheld] at reports
    obtain ⟨isOpen, n, same, odd⟩ := bracketed.opens shown plain reports upheld.1
    exact ⟨⟨n, same, by simp [isOpen, odd]⟩, by simp [isOpen, upheld]⟩
  · rw [if_neg upheld] at reports
    have quiet : Quiet b d := .of_passes shown ⟨more, plain, reports⟩
    rw [quiet.brackets, quiet.bracketOpen]
    refine ⟨bracketed.alternating, ?_⟩
    rw [bracketed.status]
    constructor
    · exact fun known cancelled => known cancelled.1
    · exact fun kept fresh => upheld ⟨fresh, fun cleared => kept ⟨fresh, cleared⟩⟩

omit shown in
theorem recover_next_status (recovered : p.recover lexer b = .next d) : d.status.errorStatus =
    if b.status.errorStatus = 0 ∧ (p.report b).status.errorStatus = 0 then 0 else 3 := by
  have status : d.status.errorStatus = dueStatus (p.recovering b ++ []) :=
    recover_errorStatus recovered
  unfold recovering at status
  by_cases fresh : b.status.errorStatus = 0
  · by_cases cleared : (p.report b).status.errorStatus = 0
    · rw [if_pos fresh, if_pos cleared] at status
      rw [if_pos ⟨fresh, cleared⟩]
      exact status
    · rw [if_pos fresh, if_neg cleared] at status
      rw [if_neg fun cancelled => cleared cancelled.2]
      exact status
  · rw [if_neg fresh] at status
    rw [if_neg fun cancelled => fresh cancelled.1]
    exact status

theorem recover_bracketed (bracketed : b.Bracketed) (recovered : p.recover lexer b = .next d) :
    d.Bracketed := by
  obtain ⟨alternating, isOpen⟩ :=
    recover_alternating lexer (d := d) shown bracketed (by rw [recovered]; rfl)
  refine ⟨alternating, ?_⟩
  rw [isOpen, recover_next_status recovered]
  split <;> simp_all

theorem Goes.bracketed (goes : p.Goes lexer m acts m') (bracketed : m.config.Bracketed)
    (settles : ∀ c index b rule, m = .top c → p.Reduces lexer c index b → p.Ready index rule b →
      (p.called index rule b).any Act.clears = true →
      (p.acted index rule b).2.status.control ≠ .error) : m'.config.Bracketed := by
  cases goes with
  | @shifted c b target performs =>
    have before : b.Bracketed := performs.bracketed shown bracketed
    have status : (p.shift target b).status.errorStatus = b.status.errorStatus - 1 := by
      rw [shift_status, Status.consume_errorStatus]
    have reports := p.shift_reported target b
    -- a shift looks for an open recovery only if it has an error status to count down
    have isOpen : (b.bracketOpen && b.status.errorStatus != 0) = b.bracketOpen := by
      by_cases bracket : b.bracketOpen = true
      · simp [bracket, before.status.mp bracket]
      · simp [bracket]
    rw [isOpen, ← status] at reports
    apply before.closes shown (e := .shift target) rfl reports
    rw [status]
    omega
  | @reduced c b d index rule reduces ready reduced =>
    have before : b.Bracketed := reduces.bracketed shown bracketed
    obtain ⟨lhs, length, next, reports⟩ := p.reduce_next_reported index reduced
    have status := reduce_errorStatus ready (.inl reduced)
    apply before.closes shown (e := .reduced index lhs length next) rfl reports
    intro set fresh
    rw [status, fresh, ite_self] at set
    exact set rfl
  | @forced c b d index rule reduces ready forced =>
    have before : b.Bracketed := reduces.bracketed shown bracketed
    have status := reduce_errorStatus ready (.inr forced)
    -- no end is told here, so that the action must not have cleared the error status
    have control : (p.acted index rule b).2.status.control = .error := by
      have cases := p.reduce_cases index b
      rw [forced] at cases
      cases cases with
      | forced ready' _ control =>
        obtain rfl := ready.rule_unique ready'
        exact control
    rw [if_neg fun clears => settles c index b rule rfl reduces ready clears control] at status
    exact before.quiet (.of_passes shown (p.reduce_recover_reported index forced)) status
  | missed performs => exact performs.bracketed shown bracketed
  | recovered recovered => exact recover_bracketed shown bracketed recovered

theorem Past.bracketed (bracketed : start.Bracketed) (settles : p.SettlesErrok lexer start)
    (passed : p.Past lexer start past m) : m.config.Bracketed := by
  induction passed with
  | start => exact bracketed
  | next passed goes ih =>
    apply goes.bracketed shown ih
    intro c index b rule same
    exact settles c index b rule (passed.reaches.1 c same)

theorem Ends.alternating (ends : p.Ends lexer m result d) (bracketed : m.config.Bracketed) :
    AlternatingLines d.traceLines := by
  have of_quiet {c : Config V γ σ} (bracketed : c.Bracketed) (quiet : Quiet c d) :
      AlternatingLines d.traceLines := by
    obtain ⟨n, same, _⟩ := bracketed.alternating
    exact alternatingLines_of_brackets (quiet.brackets.trans same)
  cases ends with
  | @top c _ _ stopped direct =>
    have cases := p.step_cases lexer c
    rw [stopped] at cases
    cases cases with
    | empty | unknownState => exact of_quiet bracketed (.refl _)
    | @unfetched top state _ _ looked _ stack =>
      have begins := p.looked_begins lexer state stack
      rw [looked] at begins
      exact of_quiet bracketed (.of_begins shown begins)
    | @ended index b _ _ reduces reduced =>
      have before : Quiet c b := .of_begins shown reduces.begins
      rcases p.reduce_stop_reported index reduced with ⟨passes, _⟩ | ⟨untold, _⟩
      · exact of_quiet bracketed (before.trans (.of_passes shown passes))
      · exact of_quiet bracketed (before.trans (.of_untold untold))
    | recovered recovers => exact absurd recovers (direct _)
  | @entry b _ _ stopped =>
    obtain ⟨⟨n, same, _⟩, _⟩ :=
      recover_alternating lexer shown bracketed (congrArg Step.config stopped)
    exact alternatingLines_of_brackets same

end

/-- It can be read off a driver whose hook leaves the control flag alone: no reply that asks for the
end of recovery asks for an error last. -/
theorem settlesErrok_of_replies (normal : start.status.control = .normal)
    (quiet : ∀ view context, lastControl? (p.driver.onError view context).requests = none)
    (settled : ∀ rule values view context,
      (p.driver.reduce rule values view context).requests.any Request.isErrok = true →
      lastControl? (p.driver.reduce rule values view context).requests ≠ some .error) :
    p.SettlesErrok lexer start := by
  intro c index b rule reached reduces _ clears forced
  have clear := (p.control_normal_iff lexer start normal).mpr (fun _ _ _ _ _ _ _ => quiet _ _)
  rcases reduces.acted_control (clear c reached) forced (by decide) with last | ⟨_, accept, _⟩
  · unfold asked at last
    unfold called at clears
    by_cases acts : p.driver.hasAction index = true
    · rw [if_pos acts] at last clears
      have errok : (p.reply index rule b).requests.any Request.isErrok = true := by
        simpa [Act.clears] using clears
      exact settled _ _ _ _ errok last
    · rw [if_neg acts] at last
      contradiction
  · contradiction

/-- The brackets of recovery alternate. Let no action that asks for the end of recovery return with
the control flag at error. In every run that shows what recovery does, over any tables and whatever
else the driver and the lexer do, recovery is entered and ended by turns, beginning with an entry,
whenever the run comes to the top of its loop and at its end. At the top of the loop the last of
these lines is an entry exactly if the error status is not zero. -/
theorem recovery_brackets_alternate (p : Parser V ε γ) (shown : p.flags.shows .recovery = true)
    (lexer : Lexer V ε σ) (source : σ) (context : γ)
    (settles : p.SettlesErrok lexer (.start source context)) :
    (∀ c, p.Reaches lexer (.start source context) c →
      AlternatingLines c.traceLines ∧
      ((bracketLines c.traceLines).getLast? = some "**Entering error recovery." ↔
        c.status.errorStatus ≠ 0)) ∧
    ∀ steps r, p.run lexer steps source context = some r → AlternatingLines r.final.traceLines := by
  have bracketed {past m} (passed : p.Past lexer (.start source context) past m) :=
    passed.bracketed shown (.start source context) settles
  constructor
  · intro c reached
    obtain ⟨past, passed⟩ := reached.past
    obtain ⟨n, same, _⟩ := (bracketed passed).alternating
    exact ⟨alternatingLines_of_brackets same, (bracketed passed).last_iff⟩
  · intro steps r ended
    obtain ⟨past, m, passed, ends⟩ := run_past ended
    exact ends.alternating shown (bracketed passed)

/-- A stray token is taken for a line, whose action ends the recovery. -/
def forgiving : Parser Nat Unit Unit where
  tables :=
    { rules := #[⟨"$start", 1, none⟩, ⟨"line", 1, none⟩]
      states := #[
        { actions := some ⟨[("error", .shift 1)]⟩, gotos := ⟨[("line", 2)]⟩ },
        { default := some (.reduce 1) }, { default := some .accept }] }
  driver :=
    { hasAction rule := rule == 1
      reduce _ _ _ context := { result := .ok none, context, requests := [.errok] }
      onError := Driver.defaultHook }
  flags := .only .recovery

theorem forgiving_alternates :
    forgiving.flags.shows .recovery = true ∧
    forgiving.SettlesErrok LexemeQueue.lexer (.start ⟨[⟨"b", none⟩], 0⟩ ()) ∧
    ∃ r, forgiving.run LexemeQueue.lexer 4 ⟨[⟨"b", none⟩], 0⟩ () = some r ∧
      r.final.traceLines = ["**Entering error recovery.",
        "**Shift $error token and go to state 1.", "**End of error recovery."] ∧
      AlternatingLines r.final.traceLines := by
  have settles : forgiving.SettlesErrok LexemeQueue.lexer (.start ⟨[⟨"b", none⟩], 0⟩ ()) :=
    settlesErrok_of_replies rfl (fun _ _ => rfl) (fun _ _ _ _ _ => nofun)
  obtain ⟨-, ended⟩ :=
    recovery_brackets_alternate forgiving rfl LexemeQueue.lexer ⟨[⟨"b", none⟩], 0⟩ () settles
  exact ⟨rfl, settles, _, rfl, by decide, ended 4 _ rfl⟩

end Parser

end ShiftReduce
