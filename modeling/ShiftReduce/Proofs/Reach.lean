import ShiftReduce.Parser.Run

namespace ShiftReduce.Parser

variable {V ε γ σ : Type}

/-- A run that is in configuration `c` comes to be in configuration `d`. -/
inductive Reaches (p : Parser V ε γ) (lexer : Lexer V ε σ) (c : Config V γ σ) :
    Config V γ σ → Prop where
  | refl : Reaches p lexer c c
  | next {d e : Config V γ σ} : Reaches p lexer c d → p.step lexer d = .next e →
      Reaches p lexer c e

variable {p : Parser V ε γ} {lexer : Lexer V ε σ} {c d e : Config V γ σ}

theorem Reaches.single (step : p.step lexer c = .next d) : p.Reaches lexer c d := .next .refl step

theorem Reaches.trans (first : p.Reaches lexer c d) (second : p.Reaches lexer d e) :
    p.Reaches lexer c e := by
  induction second with
  | refl => exact first
  | next _ step ih => exact .next ih step

theorem Reaches.invariant {property : Config V γ σ → Prop} (reached : p.Reaches lexer c d)
    (initial : property c)
    (preserved : ∀ {b b' : Config V γ σ}, p.Reaches lexer c b → property b →
      p.step lexer b = .next b' → property b') : property d := by
  induction reached with
  | refl => exact initial
  | next reached step ih => exact preserved reached ih step

theorem runFrom_next {steps : Nat} (step : p.step lexer c = .next d) :
    p.runFrom lexer (steps + 1) c = p.runFrom lexer steps d := by
  simp [runFrom, step]

theorem runFrom_stop {steps : Nat} {result : Result V ε} (step : p.step lexer c = .stop result d) :
    p.runFrom lexer (steps + 1) c = some ⟨result, d⟩ := by
  simp [runFrom, step]

/-- A run that ends does so in the step of a reachable configuration. -/
theorem runFrom_origin {steps : Nat} {r : Run V ε γ σ} (ended : p.runFrom lexer steps c = some r) :
    ∃ d, p.Reaches lexer c d ∧ p.step lexer d = .stop r.result r.final := by
  induction steps generalizing c with
  | zero => simp [runFrom] at ended
  | succ steps ih =>
    cases step : p.step lexer c with
    | stop result d =>
      rw [runFrom_stop step] at ended
      cases ended
      exact ⟨c, .refl, step⟩
    | next d =>
      rw [runFrom_next step] at ended
      obtain ⟨e, reached, stopped⟩ := ih ended
      exact ⟨e, (Reaches.single step).trans reached, stopped⟩

/-- What every step keeps, the last one too, holds where a run ends. -/
theorem runFrom_invariant (property : Config V γ σ → Prop) {steps : Nat} {r : Run V ε γ σ}
    (ended : p.runFrom lexer steps c = some r) (initial : property c)
    (preserved : ∀ b, p.Reaches lexer c b → property b → property (p.step lexer b).config) :
    property r.final := by
  obtain ⟨d, reached, stopped⟩ := runFrom_origin ended
  have last := preserved d reached <| reached.invariant initial fun {b b'} reached before step => by
    have after := preserved b reached before
    rwa [step] at after
  rwa [stopped] at last

theorem runFrom_unique {m n : Nat} {r r' : Run V ε γ σ} (first : p.runFrom lexer m c = some r)
    (second : p.runFrom lexer n c = some r') : r = r' := by
  have left := p.runFrom_add lexer first n
  have right := p.runFrom_add lexer second m
  rw [Nat.add_comm n m] at right
  exact Option.some.inj (left.symm.trans right)

end ShiftReduce.Parser
