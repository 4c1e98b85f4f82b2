import ShiftReduce.Proofs.Calculator.Assignments
import ShiftReduce.Proofs.Calculator.Books

namespace ShiftReduce.Calculator

/-- What the lines behind the text `before` come to, of which the first has the number `number`,
where the variables are `symbols`: their results, their messages, and the variables behind them. A
line that is an expression does what its evaluation does. A line that is none has no value, but it
may have assigned before that is seen. -/
inductive Transcript : (before : List Char) → (number : Nat) → (symbols : Symbols) →
    (lines : List (List Char)) → (results : List (Option Int)) → (messages : List String) →
    (after : Symbols) → Prop where
  | done {before : List Char} {number : Nat} {symbols : Symbols} :
      Transcript before number symbols [] [] [] symbols
  | blank {before line : List Char} {number : Nat} {symbols after : Symbols}
      {lines : List (List Char)} {results : List (Option Int)} {messages : List String}
      (empty : tokens line = [])
      (rest : Transcript (before ++ line ++ ['\n']) (number + 1) symbols lines results messages
        after) :
      Transcript before number symbols (line :: lines) results messages after
  | value {before line : List Char} {number : Nat} {symbols middle after : Symbols}
      {lines : List (List Char)} {results : List (Option Int)} {messages : List String}
      {isOpen : Bool} {e : Expr} {v : Int} (phrase : Phrase .expr isOpen (tokens line) e)
      (evaluated : e.eval symbols = (some v, middle))
      (rest : Transcript (before ++ line ++ ['\n']) (number + 1) middle lines results messages
        after) :
      Transcript before number symbols (line :: lines) (some v :: results) messages after
  | failure {before line : List Char} {number : Nat} {symbols middle after : Symbols}
      {lines : List (List Char)} {results : List (Option Int)} {messages : List String}
      {isOpen : Bool} {e : Expr} (phrase : Phrase .expr isOpen (tokens line) e)
      (evaluated : e.eval symbols = (none, middle)) (message : String)
      (rest : Transcript (before ++ line ++ ['\n']) (number + 1) middle lines results messages
        after) :
      Transcript before number symbols (line :: lines) (none :: results)
        ((s!"line {number}: " ++ message) :: messages) after
  | garbled {before line : List Char} {number : Nat} {symbols middle after : Symbols}
      {lines : List (List Char)} {results : List (Option Int)} {messages : List String}
      (nonempty : tokens line ≠ [])
      (unphrased : ∀ isOpen e, ¬ Phrase .expr isOpen (tokens line) e) (message : String)
      (bindings : Bindings (assignments (String.ofList (before ++ line ++ ['\n']))) middle.entries)
      (rest : Transcript (before ++ line ++ ['\n']) (number + 1) middle lines results messages
        after) :
      Transcript before number symbols (line :: lines) (none :: results)
        ((s!"line {number}: " ++ message) :: messages) after

namespace Transcript

variable {before : List Char} {number : Nat} {symbols after : Symbols} {lines : List (List Char)}
  {results : List (Option Int)} {messages : List String}

theorem results_length
    (transcript : Transcript before number symbols lines results messages after) :
    results.length = lines.countP (tokens · ≠ []) := by
  induction transcript with
  | done => rfl
  | blank empty _ ih => simpa [empty] using ih
  | value phrase _ _ ih | failure phrase _ _ _ ih => simp [ih, phrase.ne_nil]
  | garbled nonempty _ _ _ _ ih => simp [ih, nonempty]

theorem messages_length
    (transcript : Transcript before number symbols lines results messages after) :
    messages.length = results.count none := by
  induction transcript with
  | done => rfl
  | blank _ _ ih => exact ih
  | value _ _ _ ih => simpa using ih
  | failure _ _ _ _ ih | garbled _ _ _ _ _ ih => simp [ih]

/-- Each message names a line. -/
theorem numbered (transcript : Transcript before number symbols lines results messages after) :
    ∀ message ∈ messages, ∃ (number : Nat) (text : String),
      message = "line " ++ toString number ++ ": " ++ text := by
  induction transcript with
  | done => simp
  | blank _ _ ih | value _ _ _ ih => exact ih
  | failure _ _ message _ ih | garbled _ _ message _ _ ih =>
    exact List.forall_mem_cons.mpr ⟨⟨_, message, rfl⟩, ih⟩

end Transcript

/-- A new session comes to this one by the text, which is complete lines. -/
structure Behind (text : List Char) (session : Session) : Prop where
  complete : text = [] ∨ ∃ front, text = front ++ ['\n']
  leads : ∃ cost, Leads cost ⟨base, 0, {}, closeLine false (tokens text)⟩ ⟨base, 0, session, []⟩

namespace Behind

variable {text line : List Char} {session after : Session}

theorem new : Behind [] {} := ⟨.inl rfl, 0, .refl _⟩

theorem context (behind : Behind text session) {source : String} {flags : Trace.Flags}
    (same : closeLine false (tokens source.toList) = closeLine false (tokens text))
    {r : CalculatorRun} (evaluated : eval source {} flags = some r) :
    r.final.context = session := by
  obtain ⟨_, cost, leads⟩ := behind
  rw [← same] at leads
  exact eval_of_ends (leads.ends (ends_accept session)) evaluated

theorem bindings (behind : Behind text session) :
    Bindings (assignments (String.ofList text)) session.symbols.entries := by
  obtain ⟨r, evaluated, _⟩ := exists_eval (String.ofList text) {} .none
  have bindings := eval_bindings evaluated
  rwa [behind.context (by rw [String.toList_ofList]) evaluated] at bindings

theorem further (behind : Behind text session) {cost : Nat}
    (leads : Leads cost ⟨base, 0, session, tokens line ++ [.newline]⟩ ⟨base, 0, after, []⟩) :
    Behind (text ++ line ++ ['\n']) after := by
  obtain ⟨complete, cost', leads'⟩ := behind
  have ended : tokens (line ++ ['\n']) = tokens line ++ [.newline] := tokens_newline line []
  refine ⟨.inr ⟨text ++ line, rfl⟩, cost' + cost, ?_⟩
  have closed : Closed (tokens line ++ [Token.newline]) := by simp [Closed]
  rw [List.append_assoc, closeLine_append complete, ended, closeLine_eq closed]
  exact (leads'.before _).trans leads

end Behind

/-- The session has these results and messages more. -/
structure Adds (session : Session) (results : List (Option Int)) (messages : List String)
    (after : Session) : Prop where
  results : after.results = session.results ++ results.toArray
  errors : after.errors = session.errors ++ messages.toArray

/-- A line is read to its newline, and what it comes to goes before what the others come to. -/
theorem Inline.transcribed {text line : List Char} (inline : Inline (tokens line))
    {session : Session} (behind : Behind text session) :
    ∃ middle, Behind (text ++ line ++ ['\n']) middle ∧
      ∀ {lines results messages after},
        Transcript (text ++ line ++ ['\n']) (middle.lines + 1) middle.symbols lines results messages
          after.symbols → Adds middle results messages after →
        ∃ results messages, Transcript text (session.lines + 1) session.symbols (line :: lines)
          results messages after.symbols ∧ Adds session results messages after := by
  by_cases phrased : ∃ isOpen e, Phrase .expr isOpen (tokens line) e
  · obtain ⟨isOpen, e, phrase⟩ := phrased
    obtain ⟨cost, middle, leads, settled⟩ := phrase.settles_line inline session []
    refine ⟨middle, behind.further leads, fun {lines results messages after} transcript adds => ?_⟩
    generalize evaluated : e.eval session.symbols = outcome at settled
    cases settled with
    | value v symbols =>
      refine ⟨_, _, .value phrase evaluated transcript, ?_, ?_⟩
      · simp [adds.results, Session.addResult, Session.endLine]
      · simp [adds.errors, Session.addResult, Session.endLine]
    | failure symbols message =>
      refine ⟨_, _, .failure phrase evaluated message transcript, ?_, ?_⟩
      · simp [adds.results, Session.addResult, Session.endLine, Session.reported]
      · simp [adds.errors, Session.addResult, Session.endLine, Session.reported]
  · obtain ⟨cost, middle, leads, ended⟩ := inline.ends_line session
    have behind' := behind.further leads
    have bindings := behind'.bindings
    refine ⟨middle, behind', fun {lines results messages after} transcript adds => ?_⟩
    generalize same : tokens line = ts at ended
    cases ended with
    | blank => exact ⟨_, _, .blank same transcript, adds.results, adds.errors⟩
    | value phrase => exact absurd ⟨_, _, same ▸ phrase⟩ phrased
    | @spoilt _ symbols message nonempty =>
      refine ⟨_, _, .garbled (same ▸ nonempty) (fun isOpen e phrase => phrased ⟨isOpen, e, phrase⟩)
        message bindings transcript, ?_, ?_⟩
      · simp [adds.results, Session.addResult, Session.endLine, Session.reported]
      · simp [adds.errors, Session.addResult, Session.endLine, Session.reported]

theorem transcribed_lines {text : List Char} {lines : List (List Char)}
    (inline : ∀ line ∈ lines, Inline (tokens line)) {session : Session}
    (behind : Behind text session) : ∃ after results messages,
      Behind (text ++ lines.flatMap (· ++ ['\n'])) after ∧
      Transcript text (session.lines + 1) session.symbols lines results messages after.symbols ∧
      Adds session results messages after := by
  induction lines generalizing text session with
  | nil => exact ⟨session, [], [], by simpa using behind, .done, by simp, by simp⟩
  | cons line rest ih =>
    obtain ⟨first, later⟩ := List.forall_mem_cons.mp inline
    obtain ⟨middle, behind', extends'⟩ := first.transcribed behind
    obtain ⟨after, results, messages, behind'', transcript, adds⟩ := ih later behind'
    obtain ⟨results, messages, transcript, adds⟩ := extends' transcript adds
    refine ⟨after, results, messages, ?_, transcript, adds⟩
    simpa using behind''

theorem tokens_lines (lines : List (List Char)) : tokens (lines.flatMap (· ++ ['\n'])) =
    lines.flatMap fun line => tokens line ++ [.newline] := by
  induction lines with
  | nil => rfl
  | cons line rest ih =>
    rw [List.flatMap_cons, List.flatMap_cons, List.append_assoc, List.singleton_append,
      tokens_newline, ih, List.append_assoc, List.singleton_append]

/-- A source without a number that is too large has a transcript, whatever is traced, and leaves
the variables behind that it assigns. -/
theorem eval_transcript {source : String} (fit : ∀ t ∈ tokens source.toList, t.Fits) :
    ∃ after results messages,
      Transcript [] 1 {} (sourceLines source.toList) results messages after.symbols ∧
      Bindings (assignments source) after.symbols.entries ∧
      after.results = results.toArray ∧ after.errors = messages.toArray ∧
      ∀ flags, ∃ r, eval source {} flags = some r ∧ r.result = .ok (.accept none) ∧
        r.final.context = after := by
  obtain ⟨after, results, messages, behind, transcript, adds⟩ :=
    transcribed_lines (fun line => inline_of_mem_sourceLines fit) .new
  rw [List.nil_append] at behind
  have same : closeLine false (tokens source.toList) =
      closeLine false (tokens ((sourceLines source.toList).flatMap (· ++ ['\n']))) := by
    have closed := closeLine_closed false (tokens source.toList)
    rw [closeLine_tokens, ← tokens_lines] at closed ⊢
    exact (closeLine_eq closed).symm
  have evaluates (flags : Trace.Flags) : ∃ r, eval source {} flags = some r ∧
      r.result = .ok (.accept none) ∧ r.final.context = after := by
    obtain ⟨r, evaluated, result, _⟩ := exists_eval source {} flags
    rw [if_pos fit] at result
    exact ⟨r, evaluated, result, behind.context same evaluated⟩
  obtain ⟨r, evaluated, _, context⟩ := evaluates .none
  have bindings := eval_bindings evaluated
  rw [context] at bindings
  exact ⟨after, results, messages, transcript, bindings, by simpa using adds.results,
    by simpa using adds.errors, evaluates⟩

end ShiftReduce.Calculator
