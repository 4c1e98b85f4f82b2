import ShiftReduce.Proofs.Calculator.Outcome
import ShiftReduce.Proofs.Calculator.Reports
import ShiftReduce.Proofs.Calculator.Track

/-! A syntax error is reported at the first token that cannot follow the tokens of its line before
it, and every token that is said to be expected can. Whatever was reduced in the meantime makes no
difference to that. -/

namespace ShiftReduce.Calculator

/-- What was shifted of the current line. -/
def lineSoFar (past : List (Act Value)) : List (Lexeme Value) :=
  ((shifts past).takeWhile (·.token != Token.newline.name)).reverse

section Shifts

variable {past more : List (Act Value)}

theorem lineSoFar_silent (silent : shifts more = []) :
    lineSoFar (more ++ past) = lineSoFar past := by
  simp [lineSoFar, silent]

theorem lineSoFar_shifted {shifted : List Token}
    (same : shifts more = (shifted.map Token.lexeme).reverse) (inside : .newline ∉ shifted) :
    lineSoFar (more ++ past) = lineSoFar past ++ shifted.map Token.lexeme := by
  have kept : ∀ l ∈ (shifted.map Token.lexeme).reverse, (l.token != Token.newline.name) = true := by
    intro l member
    obtain ⟨t, among, rfl⟩ := List.mem_map.mp (List.mem_reverse.mp member)
    refine bne_iff_ne.mpr fun named => inside ?_
    obtain rfl : t = .newline := Token.name_eq_singleton_iff.mp named
    exact among
  unfold lineSoFar
  rw [shifts_append, same, List.takeWhile_append_of_pos kept, List.reverse_append,
    List.reverse_reverse]

theorem lineSoFar_newline (same : shifts more = [Token.newline.lexeme]) :
    lineSoFar (more ++ past) = [] := by
  have newline : (Token.newline.lexeme.token != Token.newline.name) = false := by decide
  simp [lineSoFar, same, newline]

end Shifts

/-- The tokens of a source up to a situation: those of the lines before, and those of the current
line, which were shifted or thrown away. -/
structure Located (source : List Token) (first : Nat) (past : List (Act Value))
    (w skipped : List Token) (due : Nat) (s : Situation) : Prop where
  split : ∃ earlier, source = earlier ++ (w ++ (skipped ++ s.input)) ∧ Closed earlier ∧
    s.session.lines + due = first + earlier.count .newline
  inside : .newline ∉ w ++ skipped
  shifted : lineSoFar past = w.map Token.lexeme

namespace Located

variable {source : List Token} {first : Nat} {past more : List (Act Value)}
  {w skipped shifted dropped : List Token} {due : Nat} {s s' : Situation}

theorem closed (located : Located source first past w skipped due s) (closed : Closed source) :
    Closed (w ++ (skipped ++ s.input)) := by
  obtain ⟨⟨earlier, rfl, _⟩, _⟩ := located
  exact .of_append earlier closed

/-- A line that has begun goes on. -/
theorem more_of_begun (located : Located source first past w skipped due s) (closed : Closed source)
    (begun : w ≠ []) : s.input ≠ [] := by
  intro empty
  have closed := located.closed closed
  rw [empty, List.append_nil] at closed
  obtain ⟨front, t, same⟩ := List.eq_nil_or_concat (w ++ skipped) |>.resolve_left (by simp [begun])
  have last : t = .newline := closed t (by rw [same]; simp)
  exact located.inside (by rw [same, last]; simp)

theorem reads (located : Located source first past w skipped due s)
    (same : shifts more = (shifted.map Token.lexeme).reverse)
    (input : s.input = shifted ++ s'.input) (inside : .newline ∉ shifted)
    (fresh : shifted = [] ∨ skipped = []) (lines : s'.session.lines = s.session.lines) :
    Located source first (more ++ past) (w ++ shifted) skipped due s' where
  split := by
    obtain ⟨⟨earlier, split, complete, count⟩, _⟩ := located
    refine ⟨earlier, ?_, complete, lines ▸ count⟩
    rw [split, input]
    rcases fresh with rfl | rfl <;> simp
  inside := by
    have within := located.inside
    simp only [List.mem_append, not_or] at within ⊢
    exact ⟨⟨within.1, inside⟩, within.2⟩
  shifted := by
    rw [lineSoFar_shifted same inside, located.shifted, List.map_append]

theorem ends (located : Located source first past w skipped 0 s)
    (same : shifts more = [Token.newline.lexeme]) (input : s.input = .newline :: s'.input)
    (lines : s'.session.lines = s.session.lines) :
    Located source first (more ++ past) [] [] 1 s' where
  split := by
    obtain ⟨⟨earlier, split, complete, count⟩, inside, _⟩ := located
    refine ⟨earlier ++ (w ++ (skipped ++ [.newline])), ?_, ?_, ?_⟩
    · rw [split, input]
      simp
    · simp [Closed]
    · rw [List.count_append, ← List.append_assoc w, List.count_append,
        List.count_eq_zero_of_not_mem inside, lines]
      simp
      omega
  inside := by simp
  shifted := lineSoFar_newline same

theorem counts (located : Located source first past w skipped 1 s) (same : shifts more = [])
    (input : s.input = s'.input) (lines : s'.session.lines = s.session.lines + 1) :
    Located source first (more ++ past) w skipped 0 s' where
  split := by
    obtain ⟨⟨earlier, split, complete, count⟩, _⟩ := located
    refine ⟨earlier, ?_, complete, ?_⟩
    · rw [split, input]
    · omega
  inside := located.inside
  shifted := (lineSoFar_silent same).trans located.shifted

theorem errs (located : Located source first past w skipped due s) (same : shifts more = [])
    (input : s.input = dropped ++ s'.input) (inside : .newline ∉ dropped)
    (lines : s'.session.lines = s.session.lines) :
    Located source first (more ++ past) w (skipped ++ dropped) due s' where
  split := by
    obtain ⟨⟨earlier, split, complete, count⟩, _⟩ := located
    refine ⟨earlier, ?_, complete, lines ▸ count⟩
    rw [split, input]
    simp
  inside := by
    have within := located.inside
    simp only [List.mem_append, not_or] at within ⊢
    exact ⟨within.1, within.2, inside⟩
  shifted := (lineSoFar_silent same).trans located.shifted

end Located

/-- What makes the token `t` a syntax error, where the tokens `w` of its line were shifted and the
terminals `names` are expected. -/
structure Misplaced (source : List Token) (first : Nat) (past : List (Act Value))
    (b : CalculatorConfig) (earlier w later : List Token) (t : Token) (names : List String) :
    Prop where
  split : source = earlier ++ (w ++ t :: later)
  complete : Closed earlier
  inside : .newline ∉ w
  shifted : lineSoFar past = w.map Token.lexeme
  lookahead : b.status.token = some t.name
  report : reportAt b = s!"line {first + earlier.count .newline + 1}: " ++
    ("syntax error near " ++ describe t.name ++ ", expected one of: " ++
      ", ".intercalate (names.map describe))
  viable : Viable w
  erroneous : ¬ Viable (w ++ [t])
  expected : ∀ name ∈ names, name ≠ endToken → ∃ u : Token, u.name = name ∧ Viable (w ++ [u])

/-- A syntax error that is new is one at its place. -/
theorem Located.misplaced {source : List Token} {first : Nat} {past : List (Act Value)}
    {w skipped : List Token} {s : Situation} {b : CalculatorConfig} {cause : Cause}
    (located : Located source first past w skipped 0 s) (viable : Viable w)
    (explains : Explains w skipped s.input cause) (because : cause.Of b)
    (lines : b.context.lines = s.session.lines) (fresh : b.status.errorStatus = 0)
    (quiet : b.context.pending = none) :
    ∃ earlier later t names, Misplaced source first past b earlier w later t names := by
  cases cause with
  | failed e => exact absurd (because.symm.trans quiet) (by simp)
  | skipped => exact absurd fresh because
  | missed n t =>
    obtain ⟨rfl, head, erroneous, follow⟩ := explains
    obtain ⟨⟨earlier, split, complete, count⟩, inside, shifted⟩ := located
    obtain ⟨later, input⟩ := List.head?_eq_some_iff.mp head
    obtain ⟨⟨value, below, stack⟩, token⟩ := because
    have report : reportAt b =
        s!"line {first + earlier.count .newline + 1}: " ++ complaint n t := by
      unfold reportAt
      rw [quiet, syntaxMessage_eq stack token, lines, ← count]
      rfl
    refine ⟨earlier, later, t, _, ?_, complete, ?_, shifted, token, report, viable, erroneous, ?_⟩
    · rw [split, input, List.nil_append]
    · simpa using inside
    · intro name listed endless
      obtain ⟨listed, errorless⟩ := List.mem_filter.mp listed
      exact follow name listed (bne_iff_ne.mp errorless) endless

section Histories

variable {flags : Trace.Flags} {source : List Token} {first : Nat} {past more : List (Act Value)}
  {c : CalculatorConfig} {m : Moment Value Session Scanner}

def OnTrack (source : List Token) (first : Nat) (past : List (Act Value)) (c : CalculatorConfig) :
    Prop :=
  ∃ w skipped due s, Shows c s ∧ At w skipped due s ∧ Located source first past w skipped due s

/-- What holds at a moment of a run. An entry into recovery leads back onto the track, and a syntax
error that is new there is one. -/
def Accounted (flags : Trace.Flags) (source : List Token) (first : Nat) (past : List (Act Value)) :
    Moment Value Session Scanner → Prop
  | .top c => OnTrack source first past c
  | .entry b =>
    (∃ w, Viable w ∧ lineSoFar past = w.map Token.lexeme) ∧
    (∃ acts d, (parser flags).Goes lexer (.entry b) acts (.top d) ∧
      OnTrack source first (acts ++ past) d) ∧
    (b.status.errorStatus = 0 → b.context.pending = none →
      ∃ earlier w later t names, Misplaced source first past b earlier w later t names)

theorem OnTrack.goes (track : OnTrack source first past c) (closed : Closed source)
    (goes : (parser flags).Goes lexer (.top c) more m) :
    Accounted flags source first (more ++ past) m := by
  -- there is one way on, and the tokens of the line so far tell which
  obtain ⟨w, skipped, due, s, shown, here, located⟩ := track
  have rest : Closed s.input := by
    have closed := located.closed closed
    rw [← List.append_assoc] at closed
    exact .of_append _ closed
  cases here.next rest (located.more_of_begun closed) with
  | @reads shifted s' hops input inside fresh lines next =>
    obtain ⟨c', rfl, same, shown'⟩ := hops.of_goes shown goes
    exact ⟨_, _, _, s', shown', next, located.reads same input inside fresh lines⟩
  | @ends s' hops input uncounted lines next =>
    subst uncounted
    obtain ⟨c', rfl, same, shown'⟩ := hops.of_goes shown goes
    exact ⟨_, _, _, s', shown', next, located.ends same input lines⟩
  | @counts s' hops input uncounted lines next =>
    subst uncounted
    obtain ⟨c', rfl, same, shown'⟩ := hops.of_goes shown goes
    exact ⟨_, _, _, s', shown', next, located.counts same input lines⟩
  | @errs cause dropped s' errs input inside uncounted explains lines next =>
    subst uncounted
    obtain ⟨b, acts, d, rfl, because, entered, back, same, same', shown'⟩ := errs.of_goes shown goes
    have entry : Located source first (more ++ past) w skipped 0 s :=
      ⟨located.split, located.inside, (lineSoFar_silent same).trans located.shifted⟩
    refine ⟨⟨w, here.viable, entry.shifted⟩,
      ⟨acts, d, back, _, _, _, s', shown', next, entry.errs same' input inside lines⟩,
      fun fresh quiet => ?_⟩
    obtain ⟨earlier, later, t, names, misplaced⟩ :=
      entry.misplaced here.viable explains because entered fresh quiet
    exact ⟨earlier, w, later, t, names, misplaced⟩
  | stuck stuck => exact absurd goes (stuck flags c shown _ _)

/-- Every moment of a run is accounted for. -/
theorem accounted {source : String} {session : Session}
    (passed : (parser flags).Past lexer (.start (.ofSource source) session) past m) :
    Accounted flags (closeLine false (tokens source.toList)) session.lines past m := by
  induction passed with
  | start =>
    exact ⟨[], [], 0, _, start_shows .., .start, ⟨[], rfl, by simp [Closed], rfl⟩, by simp, rfl⟩
  | @next acts more m m' _ goes ih =>
    cases m with
    | top c => exact OnTrack.goes ih (closeLine_closed _ _) goes
    | entry b =>
      -- the way back onto the track is the one that the entry was accounted for with
      obtain ⟨_, ⟨acts', d, back, track⟩, _⟩ := ih
      obtain ⟨rfl, rfl⟩ := goes.unique back
      exact track

end Histories

/-- What a report tells of. -/
inductive Diagnosis (flags : Trace.Flags) (source : String) (session : Session) (report : String) :
    Prop where
  | failure (line : Nat) (e : LineError) (told : report = s!"line {line}: " ++ e.message)
  | misplaced {past : List (Act Value)} {b : CalculatorConfig} {earlier w later : List Token}
      {t : Token} {names : List String}
      (passed : (parser flags).Past lexer (.start (.ofSource source) session) past (.entry b))
      (misplaced : Misplaced (closeLine false (tokens source.toList)) session.lines past b
        earlier w later t names)
      (told : report = reportAt b)

/-- What an error hook reports has a diagnosis. -/
theorem diagnosis_of_past {flags : Trace.Flags} {source : String} {session : Session}
    {past : List (Act Value)} {b : CalculatorConfig}
    (passed : (parser flags).Past lexer (.start (.ofSource source) session) past (.entry b))
    (fresh : b.status.errorStatus = 0) : Diagnosis flags source session (reportAt b) := by
  obtain ⟨_, _, misplaced⟩ := accounted passed
  cases pending : b.context.pending with
  | some e =>
    refine .failure (b.context.lines + 1) e ?_
    unfold reportAt
    rw [pending]
    rfl
  | none =>
    obtain ⟨earlier, w, later, t, names, misplaced⟩ := misplaced fresh pending
    exact .misplaced passed misplaced rfl

/-- The diagnostics of an evaluation tell of arithmetic and of undefined variables, or else of the
first token of a line that cannot follow the tokens before it. Such a token is never shifted. -/
theorem eval_diagnoses (source : String) (session : Session) (flags : Trace.Flags) :
    ∃ r, eval source session flags = some r ∧
      (∃ reports : List String, r.final.context.errors = session.errors ++ reports.toArray ∧
        ∀ report ∈ reports, Diagnosis flags source session report) ∧
      ∀ past m, (parser flags).Past lexer (.start (.ofSource source) session) past m →
        ∃ w, Viable w ∧ lineSoFar past = w.map Token.lexeme := by
  obtain ⟨r, evaluated, _⟩ := exists_eval source session flags
  refine ⟨r, evaluated, ?_, fun past m passed => ?_⟩
  · refine Parser.runFrom_invariant (fun c => ∃ reports : List String,
      c.context.errors = session.errors ++ reports.toArray ∧
        ∀ report ∈ reports, Diagnosis flags source session report) evaluated ?_ ?_
    · exact ⟨[], Array.append_empty.symm, by simp⟩
    · rintro c reached ⟨reports, same, diagnosed⟩
      cases step_tells flags c with
      | silent silent => exact ⟨reports, silent.errors.trans same, diagnosed⟩
      | @report b recovers fresh errors _ =>
        obtain ⟨_, passed⟩ := reached.past
        obtain ⟨_, entered⟩ := passed.of_recovers recovers
        refine ⟨reports ++ [reportAt b], ?_, ?_⟩
        · rw [errors, same]
          simp
        · rw [List.forall_mem_append]
          exact ⟨diagnosed, by simpa using diagnosis_of_past entered fresh⟩
  · cases m with
    | top c =>
      obtain ⟨w, _, _, s, _, here, located⟩ := accounted passed
      exact ⟨w, here.viable, located.shifted⟩
    | entry b => exact (accounted passed).1

/-- The first number is reduced to an expression before it is seen that no number can follow it. -/
example : (eval "(1 2" {}).map (·.final.context.errors) =
    some #["line 1: syntax error near number, expected one of: ')', '*', '+', '-', '/'"] := by
  decide +kernel

end ShiftReduce.Calculator
