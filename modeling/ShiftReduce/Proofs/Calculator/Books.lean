import Mathlib.Data.List.Forall2
import ShiftReduce.Proofs.Calculator.Evaluation
import ShiftReduce.Proofs.Calculator.Reports
import ShiftReduce.Proofs.Calculator.SourceLines

/-! What a source adds to a session, it adds line by line. Nothing but the session goes over from
one line to the next, so the lines of a source may as well be evaluated one source after the other.
-/

namespace ShiftReduce.Calculator

/-- What a line comes to. -/
inductive LineOutcome where
  | blank
  | value (v : Int)
  | failure (message : String)
  deriving DecidableEq, Repr

namespace LineOutcome

/-- The entry among the results, if there is one. -/
def entry? : LineOutcome → Option (Option Int)
  | .blank => none
  | .value v => some (some v)
  | .failure _ => some none

/-- The report on line `number`, if there is one. -/
def report? (number : Nat) : LineOutcome → Option String
  | .failure message => some (s!"line {number}: " ++ message)
  | .blank | .value _ => none

def failed : LineOutcome → Bool
  | .failure _ => true
  | .blank | .value _ => false

end LineOutcome

/-- The reports on lines that are numbered from `first` on. -/
def reports (first : Nat) (outcomes : List LineOutcome) : List String :=
  (outcomes.zipIdx first).filterMap fun line => line.1.report? line.2

theorem reports_append (first : Nat) (outcomes more : List LineOutcome) :
    reports first (outcomes ++ more) =
      reports first outcomes ++ reports (first + outcomes.length) more := by
  simp [reports, List.zipIdx_append]

theorem reports_length (first : Nat) (outcomes : List LineOutcome) :
    (reports first outcomes).length = outcomes.countP LineOutcome.failed := by
  induction outcomes generalizing first with
  | nil => rfl
  | cons outcome rest ih =>
    unfold reports at ih ⊢
    rw [List.zipIdx_cons, List.countP_cons, ← ih (first + 1)]
    cases outcome <;> simp [LineOutcome.report?, LineOutcome.failed]

/-- The session after lines that came to these outcomes. -/
structure Books (session : Session) (outcomes : List LineOutcome) (after : Session) : Prop where
  results : after.results = session.results ++ (outcomes.filterMap LineOutcome.entry?).toArray
  errors : after.errors = session.errors ++ (reports (session.lines + 1) outcomes).toArray
  lines : after.lines = session.lines + outcomes.length

theorem Books.nil (session : Session) : Books session [] session :=
  ⟨by simp, by simp [reports], rfl⟩

theorem Books.append {session middle after : Session} {outcomes more : List LineOutcome}
    (first : Books session outcomes middle) (second : Books middle more after) :
    Books session (outcomes ++ more) after where
  results := by
    rw [second.results, first.results, List.filterMap_append]
    simp
  errors := by
    have number : session.lines + 1 + outcomes.length = session.lines + outcomes.length + 1 := by
      omega
    rw [second.errors, first.errors, first.lines, reports_append, number]
    simp
  lines := by
    rw [second.lines, first.lines, List.length_append, Nat.add_assoc]

/-- A line is kept in the books as the one outcome that it has. -/
theorem LineEnd.books {session after : Session} {line : List Token}
    (ended : LineEnd session line after) :
    ∃ outcome, (line = [] ↔ outcome = .blank) ∧ Books session [outcome] after := by
  cases ended with
  | blank => exact ⟨.blank, by simp, by simp [Session.endLine, LineOutcome.entry?],
      by simp [Session.endLine, reports, LineOutcome.report?], rfl⟩
  | @value _ _ e v symbols phrase =>
    refine ⟨.value v, by simp [phrase.ne_nil], ?_, ?_, rfl⟩
    · simp [Session.addResult, Session.endLine, LineOutcome.entry?]
    · simp [Session.addResult, Session.endLine, reports, LineOutcome.report?]
  | @spoilt _ symbols message nonempty =>
    refine ⟨.failure message, by simp [nonempty], ?_, ?_, rfl⟩
    · simp [Session.addResult, Session.endLine, Session.reported, LineOutcome.entry?]
    · simp [Session.addResult, Session.endLine, Session.reported, reports, LineOutcome.report?]

/-- What comes of the lines of a source. -/
structure Kept (session : Session) (lines : List (List Token)) (outcomes : List LineOutcome)
    (after : Session) : Prop where
  blank : List.Forall₂ (fun line outcome => line = [] ↔ outcome = .blank) lines outcomes
  books : Books session outcomes after
  quiet : session.pending = none → after.pending = none

/-- Lines are read one after the other, whatever is behind them. -/
theorem reads_lines (session : Session) {lines : List (List Token)}
    (inline : ∀ line ∈ lines, Inline line) : ∃ cost after outcomes,
      Leads cost ⟨base, 0, session, lines.flatMap (· ++ [.newline])⟩ ⟨base, 0, after, []⟩ ∧
      Kept session lines outcomes after := by
  induction lines generalizing session with
  | nil => exact ⟨0, session, [], .refl _, .nil, .nil session, id⟩
  | cons line rest ih =>
    obtain ⟨first, later⟩ := List.forall_mem_cons.mp inline
    obtain ⟨cost, middle, leads, ended⟩ := first.ends_line session
    obtain ⟨outcome, blank, books⟩ := ended.books
    obtain ⟨more, after, outcomes, leads', kept⟩ := ih middle later
    refine ⟨_, after, outcome :: outcomes, (leads.before _).trans leads', .cons blank kept.blank,
      books.append kept.books, fun quiet => kept.quiet (ended.quiet quiet)⟩

/-- A source without a number that is too large is read line by line. -/
theorem reads_source (session : Session) {source : List Char}
    (fit : ∀ t ∈ tokens source, t.Fits) : ∃ cost after outcomes,
      Leads cost ⟨base, 0, session, closeLine false (tokens source)⟩ ⟨base, 0, after, []⟩ ∧
      Kept session ((sourceLines source).map tokens) outcomes after := by
  have joined : ((sourceLines source).map tokens).flatMap (· ++ [.newline]) =
      closeLine false (tokens source) := by
    rw [closeLine_tokens, List.flatMap_map]
  rw [← joined]
  refine reads_lines session fun line member => ?_
  obtain ⟨text, inside, rfl⟩ := List.mem_map.mp member
  exact inline_of_mem_sourceLines fit inside

/-- An evaluation that is not broken off met no number that is too large. -/
theorem fits_of_eval {source : String} {session : Session} {flags : Trace.Flags} {r : CalculatorRun}
    (evaluated : eval source session flags = some r) (ended : ∃ outcome, r.result = .ok outcome) :
    ∀ t ∈ tokens source.toList, t.Fits := by
  obtain ⟨outcome, ok⟩ := ended
  obtain ⟨r', evaluated', result, _⟩ := exists_eval source session flags
  obtain rfl := Option.some.inj (evaluated.symm.trans evaluated')
  rw [ok] at result
  by_cases fit : ∀ t ∈ tokens source.toList, t.Fits
  · exact fit
  · rw [if_neg fit] at result
    contradiction

/-- The sessions of a calculator: a new one, and what evaluations leave behind, however they end. -/
inductive Reached : Session → Prop where
  | new : Reached {}
  | eval {source : String} {session : Session} {flags : Trace.Flags} {r : CalculatorRun}
      (before : Reached session) (evaluated : eval source session flags = some r) :
      Reached r.final.context

/-- No error is left to be reported between two evaluations. -/
theorem Reached.quiet {session : Session} (reached : Reached session) : session.pending = none := by
  induction reached with
  | new => rfl
  | @eval source session flags r _ evaluated ih =>
    obtain ⟨r', evaluated', _, quiet⟩ := exists_eval source session flags
    obtain rfl := Option.some.inj (evaluated.symm.trans evaluated')
    exact quiet ih

/-- What an evaluation adds to the books: each line counts, has a result unless it is blank, and a
report with its number if the result is missing. The run has counted these errors, and none is
left to be reported. -/
theorem eval_books {source : String} {session : Session} {flags : Trace.Flags} {r : CalculatorRun}
    (reached : Reached session) (evaluated : eval source session flags = some r)
    (ended : ∃ outcome, r.result = .ok outcome) :
    ∃ outcomes, List.Forall₂ (fun line outcome => tokens line = [] ↔ outcome = .blank)
        (sourceLines source.toList) outcomes ∧
      r.final.context.results =
        session.results ++ (outcomes.filterMap LineOutcome.entry?).toArray ∧
      r.final.context.errors = session.errors ++ (reports (session.lines + 1) outcomes).toArray ∧
      r.final.context.lines = session.lines + (sourceLines source.toList).length ∧
      r.final.stats.errors = outcomes.countP LineOutcome.failed ∧
      r.final.context.pending = none := by
  obtain ⟨cost, after, outcomes, leads, blank, books, quiet⟩ :=
    reads_source session (fits_of_eval evaluated ended)
  obtain rfl := eval_of_ends (leads.ends (ends_accept after)) evaluated
  have blank := List.forall₂_map_left_iff.mp blank
  refine ⟨outcomes, blank, books.results, books.errors, ?_, ?_, quiet reached.quiet⟩
  · rw [books.lines, blank.length_eq]
  · have counted := eval_counted evaluated
    have made : (reports (session.lines + 1) outcomes).toArray.size = _ := reports_length _ outcomes
    rw [books.errors, Array.size_append, made] at counted
    exact (Nat.add_left_cancel counted).symm

/-- Text behind the last newline is a line, and a blank line has a number but no result. -/
theorem eval_books_unclosed : ∃ r, eval "1 + 2\n\n1 / 0" {} = some r ∧
    r.final.context.lines = 3 ∧ r.final.context.results.size = 2 := by
  obtain ⟨r, evaluated, result, _⟩ := exists_eval "1 + 2\n\n1 / 0" {} .none
  rw [if_pos (by decide)] at result
  obtain ⟨outcomes, blank, results, _, lines, _⟩ := eval_books .new evaluated ⟨_, result⟩
  have split : sourceLines "1 + 2\n\n1 / 0".toList = ["1 + 2".toList, [], "1 / 0".toList] := by
    decide
  rw [split] at blank lines
  refine ⟨r, evaluated, lines, ?_⟩
  obtain ⟨first, _, sum, later, rfl⟩ := List.forall₂_cons_left_iff.mp blank
  obtain ⟨second, _, empty, last, rfl⟩ := List.forall₂_cons_left_iff.mp later
  obtain ⟨third, _, quotient, none, rfl⟩ := List.forall₂_cons_left_iff.mp last
  obtain rfl := List.forall₂_nil_left_iff.mp none
  have summed : first ≠ .blank := mt sum.mpr (by decide)
  have divided : third ≠ .blank := mt quotient.mpr (by decide)
  rw [results, empty.mp rfl]
  cases first <;> cases third <;> first | contradiction | rfl

/-- A source of complete lines that is evaluated leaves nothing behind but its session: what follows
it is evaluated there as if it were read by the same run. -/
theorem eval_append {first second : String} {session : Session} {r : CalculatorRun}
    (flags flags' flags'' : Trace.Flags) (complete : first = "" ∨ ∃ text, first = text ++ "\n")
    (evaluated : eval first session flags = some r) (ended : ∃ outcome, r.result = .ok outcome) :
    ∃ rest whole, eval second r.final.context flags' = some rest ∧
      eval (first ++ second) session flags'' = some whole ∧
      whole.result = rest.result ∧ whole.final.context = rest.final.context := by
  obtain ⟨cost, after, _, leads, _⟩ := reads_source session (fits_of_eval evaluated ended)
  obtain rfl := eval_of_ends (leads.ends (ends_accept after)) evaluated
  obtain ⟨result, last, ends, _⟩ :=
    ends_input r.final.context (closeLine_closed false (tokens second.toList))
  have joined : closeLine false (tokens (first ++ second).toList) =
      closeLine false (tokens first.toList) ++ closeLine false (tokens second.toList) := by
    rw [String.toList_append]
    refine closeLine_append ?_ _
    rcases complete with rfl | ⟨text, rfl⟩
    · exact .inl rfl
    · exact .inr ⟨text.toList, String.toList_append⟩
  have whole_ends := (leads.before (closeLine false (tokens second.toList))).ends ends
  rw [Situation.before, ← joined] at whole_ends
  obtain ⟨rest, evaluated', _⟩ := exists_eval second r.final.context flags'
  obtain ⟨whole, evaluated'', _⟩ := exists_eval (first ++ second) session flags''
  obtain ⟨result', context⟩ := eval_ends ends evaluated'
  obtain ⟨result'', context'⟩ := eval_ends whole_ends evaluated''
  exact ⟨rest, whole, evaluated', evaluated'', result''.trans result'.symm,
    context'.trans context.symm⟩

theorem eval_append_assignment : ∃ r rest whole, eval "x = 4\n" {} = some r ∧
    eval "x / 2" r.final.context = some rest ∧ eval ("x = 4\n" ++ "x / 2") {} = some whole ∧
    whole.result = rest.result ∧ whole.final.context = rest.final.context := by
  obtain ⟨r, evaluated, result, _⟩ := exists_eval "x = 4\n" {} .none
  rw [if_pos (by decide)] at result
  obtain ⟨rest, whole, same⟩ :=
    @eval_append _ "x / 2" _ _ .none .none .none (.inr ⟨"x = 4", rfl⟩) evaluated ⟨_, result⟩
  exact ⟨r, rest, whole, evaluated, same⟩

end ShiftReduce.Calculator
