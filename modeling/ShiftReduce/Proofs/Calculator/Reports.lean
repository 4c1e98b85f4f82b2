import ShiftReduce.Proofs.Calculator.Situation

namespace ShiftReduce.Calculator

/-- What the error hook reports at an entry into recovery. -/
def reportAt (b : CalculatorConfig) : String :=
  s!"line {b.context.lines + 1}: " ++ (b.context.pending.map LineError.message).getD
    (syntaxMessage ((b.setErrorStatus 1).view tables none))

section Actions

variable (s : Session)

theorem Session.compute_errors (result : Except LineError Int) :
    (s.compute result).context.errors = s.errors := by
  cases result <;> rfl

theorem Production.binary_errors (p : Production) (op : Int → Int → Except LineError Int)
    (values : List (Option Value)) : (p.binary op values s).context.errors = s.errors := by
  unfold binary
  split
  · rfl
  · rfl
  · exact s.compute_errors _

/-- Actions report nothing. -/
theorem Production.act_errors (p : Production) (values : List (Option Value)) :
    (p.act values s).context.errors = s.errors := by
  cases p with
  | start | noLine | nextLine | number | blankLine | spoiltLine | parenthesized => rfl
  | sum | difference | product | quotient => exact binary_errors s _ _ _
  | resultLine =>
    simp only [act]
    split <;> rfl
  | «variable» =>
    simp only [act]
    split
    · rfl
    · split <;> rfl
  | assignment =>
    simp only [act]
    split <;> rfl
  | negation =>
    simp only [act]
    split
    · rfl
    · exact s.compute_errors _

end Actions

/-- Between the two configurations nothing was reported and no error counted. -/
structure Silent (c b : CalculatorConfig) : Prop where
  errors : b.context.errors = c.context.errors
  count : b.stats.errors = c.stats.errors

theorem Silent.trans {c b d : CalculatorConfig} (first : Silent c b) (second : Silent b d) :
    Silent c d :=
  ⟨second.errors.trans first.errors, second.count.trans first.count⟩

theorem Silent.of_fetch {c b : CalculatorConfig} (frame : Config.Fetch c b) : Silent c b :=
  ⟨by rw [frame.context], by rw [frame.stats]⟩

section Steps

variable (flags : Trace.Flags) (c : CalculatorConfig)

theorem acted_errors (r : Nat) (rule : Rule) :
    ((parser flags).acted r rule c).2.context.errors = c.context.errors := by
  unfold Parser.acted Parser.evaluate
  split
  · simp only [Config.absorb, parser, driver]
    split
    · exact Production.act_errors ..
    · rfl
  · rfl

theorem reduce_silent (r : Nat) : Silent c ((parser flags).reduce r c).config := by
  refine ⟨?_, (parser flags).reduce_errors r c⟩
  have cases := (parser flags).reduce_cases r c
  generalize (parser flags).reduce r c = move at cases
  cases cases with
  | unknownRule | underflow | overflow => rfl
  | raised => exact acted_errors ..
  | accepted | aborted | forced => simp [Move.config, acted_errors]
  | unknownState | missingGoto =>
    simp [Move.config, Parser.popped, Config.setControl, acted_errors]
  | continued => simp [Move.config, Config.push, acted_errors]

/-- Recovery reports an error that is new, and counts it. -/
theorem recover_reports (b : CalculatorConfig) :
    let d := ((parser flags).recover lexer b).config
    if b.status.errorStatus = 0 then
      d.context.errors = b.context.errors.push (reportAt b) ∧ d.stats.errors = b.stats.errors + 1
    else Silent b d := by
  have context := (parser flags).recover_context lexer b
  have count := (parser flags).recover_errors lexer b
  have uncleared : ((parser flags).report b).status.errorStatus = 1 := rfl
  dsimp only
  rw [uncleared] at count
  split
  · next fresh =>
    rw [if_pos fresh] at context
    rw [if_pos ⟨fresh, Nat.one_ne_zero⟩] at count
    exact ⟨congrArg Session.errors context, count⟩
  · next known =>
    rw [if_neg known] at context
    rw [if_neg fun both => known both.1] at count
    exact ⟨congrArg Session.errors context, count⟩

variable {flags c} {b : CalculatorConfig}

theorem Reduces.silent {r : Nat} (reduces : (parser flags).Reduces lexer c r b) : Silent c b := by
  rcases reduces with performs | ⟨before, performs, _, rfl⟩
  · exact .of_fetch performs.frame
  · have silent := Silent.of_fetch performs.frame
    exact ⟨silent.errors, silent.count⟩

theorem Recovers.silent (recovers : (parser flags).Recovers lexer c b) : Silent c b := by
  rcases recovers with performs | ⟨r, before, reduces, forced⟩
  · exact .of_fetch performs.frame
  · have silent := reduce_silent flags before r
    rw [forced] at silent
    exact (Reduces.silent reduces).trans silent

end Steps

/-- What a step tells of errors: nothing, or it reports the one for which it enters recovery. -/
inductive Tells (flags : Trace.Flags) (c d : CalculatorConfig) : Prop where
  | silent (silent : Silent c d)
  | report {b : CalculatorConfig} (recovers : (parser flags).Recovers lexer c b)
      (fresh : b.status.errorStatus = 0)
      (errors : d.context.errors = c.context.errors.push (reportAt b))
      (count : d.stats.errors = c.stats.errors + 1)

theorem step_tells (flags : Trace.Flags) (c : CalculatorConfig) :
    Tells flags c ((parser flags).step lexer c).config := by
  have cases := (parser flags).step_cases lexer c
  generalize (parser flags).step lexer c = step at cases
  cases cases with
  | empty | unknownState => exact .silent ⟨rfl, rfl⟩
  | @unfetched top state _ _ looked =>
    have frame := (parser flags).lookahead_frame lexer state ((parser flags).announced c top.state)
    rw [looked] at frame
    exact .silent (.of_fetch (((parser flags).announced_frame c top.state).trans frame))
  | @shifted target b performs =>
    refine .silent ((Silent.of_fetch performs.frame).trans ⟨?_, ?_⟩)
    · exact congrArg Session.errors ((parser flags).shift_context target b)
    · simp only [Step.config]
      rw [Parser.shift_stats]
  | @reduced r b d reduces reduced | @ended r b d _ reduces reduced =>
    have silent := reduce_silent flags b r
    rw [reduced] at silent
    exact .silent ((Reduces.silent reduces).trans silent)
  | @recovered b _ recovers recovered =>
    have before := Recovers.silent recovers
    have told := recover_reports flags b
    rw [recovered] at told
    by_cases fresh : b.status.errorStatus = 0
    · rw [if_pos fresh] at told
      rw [before.errors, before.count] at told
      exact .report recovers fresh told.1 told.2
    · rw [if_neg fresh] at told
      exact .silent (before.trans told)

/-- The reports that a run adds to the session are as many as the errors that it counts. -/
theorem eval_counted {source : String} {session : Session} {flags : Trace.Flags} {r : CalculatorRun}
    (ended : eval source session flags = some r) :
    r.final.context.errors.size = session.errors.size + r.final.stats.errors := by
  refine Parser.runFrom_invariant
    (fun c => c.context.errors.size = session.errors.size + c.stats.errors) ended rfl ?_
  intro c _ before
  cases step_tells flags c with
  | silent silent => rw [silent.errors, silent.count, before]
  | report _ _ errors count => rw [errors, count, Array.size_push, before, Nat.add_assoc]

end ShiftReduce.Calculator
