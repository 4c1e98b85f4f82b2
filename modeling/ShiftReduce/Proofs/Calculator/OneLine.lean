import ShiftReduce.Proofs.Calculator.Assignments
import ShiftReduce.Proofs.Calculator.Descriptions
import ShiftReduce.Proofs.Calculator.Lexing

namespace ShiftReduce.Calculator

def OneLine (text : String) : Prop := '\n' ∉ text.toList

instance : DecidablePred OneLine := fun _ => inferInstanceAs (Decidable (¬ _))

section Texts

@[simp] theorem oneLine_append {first second : String} :
    OneLine (first ++ second) ↔ OneLine first ∧ OneLine second := by
  simp [OneLine]

theorem oneLine_nat (n : Nat) : OneLine (toString n) := (printable_nat n).newline_not_mem

theorem oneLine_int (n : Int) : OneLine (toString n) := by
  rw [Int.toString_eq_repr]
  cases n with
  | ofNat n => exact oneLine_nat n
  | negSucc n => exact oneLine_append.mpr ⟨by decide, oneLine_nat n.succ⟩

theorem oneLine_syntaxMessage (view : View Value) : OneLine (syntaxMessage view) :=
  (printable_syntaxMessage view).newline_not_mem

end Texts

/-- A name that is carried fits on a line. -/
def Value.Fits : Value → Prop
  | .number _ => True
  | .ident name => OneLine name

/-- All texts that a session keeps fit on a line each. -/
structure Session.Fits (s : Session) : Prop where
  names : ∀ name ∈ s.symbols.names, OneLine name
  pending : ∀ e ∈ s.pending, OneLine e.message
  errors : ∀ message ∈ s.errors, OneLine message

/-- The lexer takes a name from within a line. -/
theorem lexer_fits : lexer.Upholds Value.Fits := by
  intro status scanner lexeme answered v carried
  have called := scanner.next_called
  have answered : scanner.next.1 = .ok lexeme := answered
  generalize scanner.next = call at called answered
  cases called with
  | @atRun skipped piece answer t cut _ made =>
    have run := (decomposes_munch scanner.rest).matches piece (by simp [cut])
    obtain rfl : answer = .ok lexeme := answered
    obtain ⟨kind, text⟩ := piece
    cases kind with
    | blank | comment => contradiction
    | digits =>
      simp only [Piece.answer?, Option.some.injEq] at made
      split at made
      · obtain rfl := Except.ok.inj made
        obtain rfl := Option.some.inj carried
        trivial
      · contradiction
    | name =>
      obtain rfl := Except.ok.inj (Option.some.inj made)
      obtain rfl := Option.some.inj carried
      have within : '\n' ∉ text := fun inside => by
        obtain ⟨other, _⟩ := run.newline inside
        contradiction
      simpa [Value.Fits, OneLine] using within
    | other =>
      obtain rfl := Except.ok.inj (Option.some.inj made)
      contradiction
  | atEnd =>
    obtain rfl := Except.ok.inj answered
    unfold Scanner.finish at carried
    split at carried <;> contradiction

/-- A reply of an action that leaves nothing behind that does not fit. -/
structure Fitting (reply : ActionReply) : Prop where
  sound : reply.Sound Value.Fits Session.Fits
  produced : ∀ v, reply.result = .ok (some v) → v.Fits

namespace Session.Fits

variable {s : Session}

theorem endLine (fits : s.Fits) : s.endLine.Fits := ⟨fits.names, fits.pending, fits.errors⟩

theorem addResult (fits : s.Fits) (result : Option Int) : (s.addResult result).Fits :=
  ⟨fits.names, fits.pending, fits.errors⟩

theorem assign (fits : s.Fits) {name : String} (within : OneLine name) (n : Int) :
    (s.assign name n).Fits where
  names other member := by
    have member : other ∈ (Symbols.assignIn name n s.symbols.entries).map Prod.fst := member
    rw [Symbols.assignIn_names] at member
    split at member
    · exact fits.names other member
    · rcases List.mem_append.mp member with known | last
      · exact fits.names other known
      · exact List.mem_singleton.mp last ▸ within
  pending := fits.pending
  errors := fits.errors

theorem produce (fits : s.Fits) {value : Option Value} (known : ∀ v ∈ value, v.Fits) :
    Fitting (s.produce value) where
  sound := ⟨fits, by simp [Session.produce]⟩
  produced v same := known v (Except.ok.inj same)

theorem produce_number (fits : s.Fits) (n : Int) : Fitting (s.produce (some (.number n))) :=
  fits.produce fun v same => by
    obtain rfl := Option.some.inj same
    trivial

theorem produce_none (fits : s.Fits) : Fitting (s.produce none) := fits.produce (by simp)

theorem reject (fits : s.Fits) (e : Error) : Fitting (s.reject e) where
  sound := ⟨fits, by simp [Session.reject]⟩
  produced v same := by contradiction

theorem spoil (fits : s.Fits) {e : LineError} (within : OneLine e.message) : Fitting (s.spoil e) where
  sound := by
    refine ⟨⟨fits.names, fun other same => ?_, fits.errors⟩, by simp [Session.spoil]⟩
    obtain rfl := Option.some.inj same
    exact within
  produced v same := by
    have none := Except.ok.inj same
    contradiction

/-- A computation fails without naming anything. -/
theorem compute (fits : s.Fits) {result : Except LineError Int}
    (nameless : ∀ e, result = .error e → OneLine e.message) : Fitting (s.compute result) := by
  cases result with
  | ok n => exact fits.produce_number n
  | error e => exact fits.spoil (nameless e rfl)

end Session.Fits

theorem checked_nameless {n : Int} : ∀ e, checked n = .error e → OneLine e.message := by
  intro e failed
  unfold checked at failed
  split at failed
  · contradiction
  · obtain rfl := Except.error.inj failed
    decide

theorem divide_nameless {a b : Int} : ∀ e, divide a b = .error e → OneLine e.message := by
  intro e failed
  unfold divide at failed
  split at failed
  · obtain rfl := Except.error.inj failed
    decide
  · exact checked_nameless e failed

section Actions

variable {values : List (Option Value)} (given : ∀ value ∈ values, ∀ v ∈ value, v.Fits)

include given in
theorem Production.valueAt_fits (i : Nat) : ∀ v ∈ valueAt values i, v.Fits := by
  intro v found
  exact given (some v) (List.mem_of_getElem? (Option.join_eq_some_iff.mp found)) v rfl

include given in
theorem Production.identAt_fits {p : Production} {i : Nat} {name : String}
    (named : p.identAt values i = .ok name) : OneLine name := by
  unfold identAt at named
  split at named
  · next found =>
    obtain rfl := Except.ok.inj named
    obtain ⟨v, carried, same⟩ := Option.bind_eq_some_iff.mp found
    have known := valueAt_fits given i v carried
    cases v with
    | number => contradiction
    | ident name =>
      obtain rfl := Option.some.inj same
      exact known
  · contradiction

variable {s : Session} (fits : s.Fits)
include fits

theorem Production.binary_fits (p : Production) {op : Int → Int → Except LineError Int}
    (nameless : ∀ a b e, op a b = .error e → OneLine e.message) :
    Fitting (p.binary op values s) := by
  unfold binary
  split
  · exact fits.reject _
  · exact fits.reject _
  · exact fits.compute (nameless _ _)

include given

/-- An action that is given names that fit on a line leaves no other texts behind. -/
theorem Production.act_fits (p : Production) : Fitting (p.act values s) := by
  cases p with
  | start | noLine | nextLine | number =>
    refine fits.produce fun v first => ?_
    exact given (some v) (List.mem_of_head? (Option.join_eq_some_iff.mp first)) v rfl
  | blankLine => exact fits.endLine.produce_none
  | resultLine =>
    simp only [act]
    split
    · exact fits.endLine.reject _
    · exact (fits.endLine.addResult _).produce_none
  | spoiltLine =>
    have ended := fits.endLine.addResult none
    exact ⟨⟨ended, by simp [act]⟩, (ended.produce_none).produced⟩
  | «variable» =>
    simp only [act]
    split
    · exact fits.reject _
    · next name named =>
      split
      · exact fits.produce_number _
      · exact fits.spoil (oneLine_append.mpr ⟨by decide, identAt_fits given named⟩)
  | assignment =>
    simp only [act]
    split
    · exact fits.reject _
    · exact fits.reject _
    · next named => exact (fits.assign (identAt_fits given named) _).produce_number _
  | sum | difference | product => exact binary_fits fits _ fun _ _ => checked_nameless
  | quotient => exact binary_fits fits _ fun _ _ => divide_nameless
  | negation =>
    simp only [act]
    split
    · exact fits.reject _
    · exact fits.compute checked_nameless
  | parenthesized => exact fits.produce (valueAt_fits given 1)

end Actions

theorem reportError_fits (view : View Value) {s : Session} (fits : s.Fits) :
    (reportError view s).Sound Value.Fits Session.Fits := by
  refine ⟨⟨fits.names, by simp [reportError], fun message member => ?_⟩, by simp [reportError]⟩
  rcases Array.mem_push.mp member with earlier | rfl
  · exact fits.errors message earlier
  · refine oneLine_append.mpr ⟨?_, ?_⟩
    · exact oneLine_append.mpr ⟨oneLine_append.mpr ⟨by decide, oneLine_nat _⟩, by decide⟩
    · cases pending : s.pending with
      | none => exact oneLine_syntaxMessage view
      | some e => exact fits.pending e pending

theorem driver_fits : driver.Upholds Value.Fits Session.Fits where
  reduce rule values view s given fits := by
    simp only [driver]
    cases Production.ofRule? rule with
    | none =>
      have rejected := fits.reject (.foreignRule rule)
      exact ⟨rejected.sound, rejected.produced⟩
    | some p =>
      have acted := p.act_fits given fits
      exact ⟨acted.sound, acted.produced⟩
  onError view s fits := reportError_fits view fits

/-- Whatever an evaluation in a new session keeps fits on a line. -/
theorem eval_fits {source : String} {flags : Trace.Flags} {r : CalculatorRun}
    (evaluated : eval source {} flags = some r) : r.final.context.Fits :=
  Parser.run_upholds driver_fits lexer_fits evaluated ⟨by simp [Symbols.names], by simp, by simp⟩

end ShiftReduce.Calculator
