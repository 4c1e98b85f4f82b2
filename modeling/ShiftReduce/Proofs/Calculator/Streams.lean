import Mathlib.Order.WellFounded
import ShiftReduce.Proofs.Calculator.Regularity

namespace ShiftReduce

variable {V ε δ σ : Type}

namespace Lexer

/-- The answers of a lexer that is shown these statuses one after the other. -/
def answers (lexer : Lexer V ε σ) (shown : Nat → Status V) (source : σ) :
    Nat → Except ε (Lexeme V) × σ
  | 0 => lexer (shown 0) source
  | k + 1 => lexer (shown (k + 1)) (answers lexer shown source k).2

/-- Whatever the lexer is shown, from some call on it delivers nothing but the end. -/
def DriesUp (lexer : Lexer V ε σ) (source : σ) : Prop :=
  ∀ shown, ∃ n, ∀ k, n ≤ k → ∀ lexeme, (lexer.answers shown source k).1 = .ok lexeme →
    lexeme.isEnd = true

/-- One call delivers a lexeme that is not the end. -/
def Feeds (lexer : Lexer V ε σ) (after before : σ) : Prop :=
  ∃ status lexeme, lexer status before = (.ok lexeme, after) ∧ lexeme.isEnd = false

theorem DriesUp.acc {lexer : Lexer V ε σ} {source : σ} (dries : lexer.DriesUp source) :
    Acc lexer.Feeds source := by
  by_contra endless
  obtain ⟨sources, start, feeds⟩ := not_acc_iff_exists_descending_chain.mp endless
  choose shown lexeme answer inside using feeds
  have fed (k : Nat) : lexer.answers shown source k = (.ok (lexeme k), sources (k + 1)) := by
    induction k with
    | zero => rw [answers, ← start, answer]
    | succ k ih => rw [answers, ih, answer]
  obtain ⟨n, dry⟩ := dries shown
  have ended := dry n (Nat.le_refl n) (lexeme n) (by rw [fed])
  rw [inside] at ended
  contradiction

end Lexer

theorem LexemeQueue.driesUp (queue : LexemeQueue V) :
    Lexer.DriesUp (LexemeQueue.lexer : Lexer V ε _) queue := by
  intro shown
  have answered (k : Nat) : ∃ rest : LexemeQueue V, rest.pending = queue.pending.drop k ∧
      Lexer.answers (LexemeQueue.lexer : Lexer V ε _) shown queue k =
        (.ok rest.next.1, rest.next.2) := by
    induction k with
    | zero => exact ⟨queue, rfl, rfl⟩
    | succ k ih =>
      obtain ⟨rest, pending, answer⟩ := ih
      refine ⟨rest.next.2, ?_, by rw [Lexer.answers, answer]; rfl⟩
      rw [← List.tail_drop, ← pending, LexemeQueue.next]
      cases left : rest.pending <;> simp [left]
  refine ⟨queue.pending.length, fun k used lexeme delivered => ?_⟩
  obtain ⟨rest, pending, answer⟩ := answered k
  rw [List.drop_eq_nil_of_le used] at pending
  simp only [answer, LexemeQueue.next, pending, Except.ok.injEq] at delivered
  subst delivered
  rfl

namespace Calculator

section Termination

variable {wrap : Error → δ} {flags : Trace.Flags} {lexer : Lexer Value δ σ} {c d : StreamConfig σ}

/-- The run ends, and in a way in which it may. -/
def Halts (wrap : Error → δ) (flags : Trace.Flags) (lexer : Lexer Value δ σ) (c : StreamConfig σ) :
    Prop :=
  ∃ steps r, (streamParser wrap flags).runFrom lexer.logging steps c = some r ∧
    Verdict r.final r.result

theorem Halts.of_stop {result : Result Value δ} (verdict : Verdict d result)
    (step : (streamParser wrap flags).step lexer.logging c = .stop result d) :
    Halts wrap flags lexer c :=
  ⟨1, ⟨result, d⟩, Parser.runFrom_stop step, verdict⟩

theorem Halts.of_next (halts : Halts wrap flags lexer d)
    (step : (streamParser wrap flags).step lexer.logging c = .next d) :
    Halts wrap flags lexer c := by
  obtain ⟨steps, r, ended, verdict⟩ := halts
  exact ⟨steps + 1, r, (Parser.runFrom_next step).trans ended, verdict⟩

/-- With the end of the input pending the lexer is not called any more. -/
theorem Regular.halts_at_end (regular : Regular c) (ended : c.status.token = some endToken) :
    Halts wrap flags lexer c := by
  induction light : weight c using Nat.strongRecOn generalizing c with
  | ind n ih =>
    have ways := regular.step wrap flags lexer
    generalize step : (streamParser wrap flags).step lexer.logging c = next at ways
    cases ways with
    | ended verdict => exact .of_stop verdict step
    | kept after supply token _ lower =>
      cases supply with
      | idle token' =>
        exact .of_next (ih _ (light ▸ lower) after (token.trans (token'.trans ended)) rfl) step
      | delivered missing => simp [ended] at missing
    | used _ supply pending inside =>
      cases supply with
      | idle token' =>
        rw [token', ended] at pending
        exact absurd (Option.some.inj pending).symm inside
      | delivered missing => simp [ended] at missing

variable (wrap flags) in
/-- The induction is on the calls of the lexer that deliver a lexeme, and between two of them on
the weight, to which a lexeme that is used may add. -/
theorem Regular.halts {source : σ} (feeds : Acc lexer.Feeds source) (regular : Regular c)
    (here : c.source.1 = source) : Halts wrap flags lexer c := by
  induction feeds generalizing c with
  | intro source _ later =>
    induction light : weight c + (if c.status.token.isSome then 8 else 0)
      using Nat.strongRecOn generalizing c with
    | ind n ih =>
      have fed {lexeme : Lexeme Value} {b : StreamConfig σ}
          (answer : (lexer.logging c.status c.source).1 = .ok lexeme)
          (source' : b.source = (lexer.logging c.status c.source).2)
          (inside : lexeme.isEnd = false) : lexer.Feeds b.source.1 source :=
        ⟨c.status, lexeme, by rw [source', ← here]; exact Prod.ext answer rfl, inside⟩
      have ways := regular.step wrap flags lexer
      generalize step : (streamParser wrap flags).step lexer.logging c = next at ways
      cases ways with
      | ended verdict => exact .of_stop verdict step
      | @kept b d after supply token source lower =>
        refine .of_next ?_ step
        cases supply with
        | idle token' _ source' =>
          have still : d.source.1 = c.source.1 := by rw [source, source']
          exact ih _ (by rw [← light, token, token']; omega) after (still.trans here) rfl
        | @delivered lexeme missing answer token' _ source' =>
          cases ended : lexeme.isEnd with
          | true =>
            have atEnd : lexeme.token = endToken := by simpa [Lexeme.isEnd] using ended
            exact after.halts_at_end (by rw [token, token', atEnd])
          | false => exact later d.source.1 (source ▸ fed answer source' ended) after rfl
      | @used b d t after supply pending inside token source risen =>
        refine .of_next ?_ step
        cases supply with
        | idle token' _ source' =>
          have still : d.source.1 = c.source.1 := by rw [source, source']
          refine ih _ ?_ after (still.trans here) rfl
          rw [token'] at pending
          rw [← light, token, pending, Option.isSome_none, Option.isSome_some, if_pos rfl,
            if_neg Bool.false_ne_true]
          omega
        | @delivered lexeme missing answer token' _ source' =>
          have ended : lexeme.isEnd = false := by
            rw [token'] at pending
            simpa [Lexeme.isEnd, Option.some.inj pending] using inside
          exact later d.source.1 (source ▸ fed answer source' ended) after rfl

end Termination

theorem malformed_iff {lexeme : Lexeme Value} : ¬ WellFormed lexeme ↔
    lexeme.token = Terminal.number.name ∧ (∀ n, lexeme.value ≠ some (.number n)) ∨
    lexeme.token = Terminal.ident.name ∧ ∀ name, lexeme.value ≠ some (.ident name) := by
  have other : Terminal.ident.name ≠ Terminal.number.name := by decide
  unfold WellFormed Carries tokenContent
  constructor
  · intro malformed
    split at malformed
    · next number => exact .inl ⟨number, by simpa [Content.Of] using malformed⟩
    · split at malformed
      · next ident => exact .inr ⟨ident, by simpa [Content.Of] using malformed⟩
      · simp at malformed
  · rintro (⟨token, missing⟩ | ⟨token, missing⟩)
    · simpa [token, Content.Of] using missing
    · simpa [token, other, Content.Of] using missing

/-- The calculator is sound on any stream of tokens. Whatever its tokens and values are, a run on a
stream that dries up ends: it accepts without a value and with nothing on the stack but its first
entry, it gives up at the end of the input, or the lexer fails. An action fails only if a number
was delivered without its value or a variable without its name. The lexer keeps a log of what it
delivers, which makes no difference to the run. -/
theorem calculator_sound_on_any_stream (wrap : Error → δ) (flags : Trace.Flags)
    (lexer : Lexer Value δ σ) (source : σ) (session : Session) (dries : lexer.DriesUp source) :
    ∃ steps r,
      (streamParser wrap flags).run lexer.logging steps (source, []) session = some r ∧
      (streamParser wrap flags).run lexer steps source session =
        some (r.project id Prod.fst id) ∧
      (r.result = .ok (.accept none) ∧ r.final.stack = [⟨0, none⟩] ∨
        r.result = .ok (.fail .endOfInput) ∨
        (∃ e, r.result = .error (.lexer e)) ∨
        ∃ rule e, r.result = .error (.action rule e) ∧ ∃ lexeme ∈ r.final.source.2,
          lexeme.token = Terminal.number.name ∧ (∀ n, lexeme.value ≠ some (.number n)) ∨
          lexeme.token = Terminal.ident.name ∧ ∀ name, lexeme.value ≠ some (.ident name)) := by
  have regular : Regular (.start (source, []) session : StreamConfig σ) :=
    ⟨.bottom, rfl, .inl rfl, by simp [Config.start], by simp [Config.start, Status.lookahead?],
      by simp [Config.start, Apt, Carries, stateContent]⟩
  obtain ⟨steps, r, ended, verdict⟩ := regular.halts wrap flags dries.acc rfl
  refine ⟨steps, r, ended, ?_, ?_⟩
  · have projects : Parser.Projects (streamParser wrap flags) (streamParser wrap flags) id id :=
      .of_driver (.refl _) flags
    have projected := projects.runFrom lexer.logging_projects steps (.start (source, []) session)
    rw [ended] at projected
    exact projected
  · obtain ⟨result, final⟩ := r
    cases verdict with
    | accepted cleared => exact .inl ⟨rfl, cleared⟩
    | endOfInput => exact .inr (.inl rfl)
    | lexer e => exact .inr (.inr (.inl ⟨e, rfl⟩))
    | action rule e delivered malformed =>
      exact .inr (.inr (.inr ⟨rule, e, rfl, _, delivered, malformed_iff.mp malformed⟩))

/-- A line that is spoilt by stray tokens, and one with a number that has no value. -/
def strayTokens : LexemeQueue Value :=
  ⟨[⟨"error", none⟩, ⟨"%", some (.number 1)⟩, ⟨"\n", none⟩, ⟨"NUM", none⟩, ⟨"\n", none⟩], 0⟩

theorem stray_tokens_survived :
    (LexemeQueue.lexer : Lexer Value Error _).DriesUp strayTokens ∧
    (((streamParser id .none).run LexemeQueue.lexer 60 strayTokens {}).map Run.result =
      some (.error (.action 4 (.notNumber .resultLine 1)))) ∧
    ∃ steps r,
      (streamParser id .none).run LexemeQueue.lexer.logging steps (strayTokens, []) {} = some r ∧
      (streamParser id .none).run LexemeQueue.lexer steps strayTokens {} =
        some (r.project id Prod.fst id) ∧
      (r.result = .ok (.accept none) ∧ r.final.stack = [⟨0, none⟩] ∨
        r.result = .ok (.fail .endOfInput) ∨
        (∃ e, r.result = .error (.lexer e)) ∨
        ∃ rule e, r.result = .error (.action rule e) ∧ ∃ lexeme ∈ r.final.source.2,
          lexeme.token = Terminal.number.name ∧ (∀ n, lexeme.value ≠ some (.number n)) ∨
          lexeme.token = Terminal.ident.name ∧ ∀ name, lexeme.value ≠ some (.ident name)) := by
  have dries := strayTokens.driesUp (ε := Error)
  exact ⟨dries, by decide +kernel,
    calculator_sound_on_any_stream id .none LexemeQueue.lexer strayTokens {} dries⟩

end Calculator

end ShiftReduce
