import ShiftReduce.Parser.Step

/-! A run repeats steps until one of them stops. Tables may make a run go on for ever, so a run is
given a number of steps and tells when they were too few. -/

namespace ShiftReduce

variable {V ε γ σ : Type}

structure Run (V ε γ σ : Type) where
  result : Result V ε
  final : Config V γ σ

namespace Parser

variable (p : Parser V ε γ) (lexer : Lexer V ε σ)

/-- Goes on from a configuration; `none` if the run does not end within the steps. -/
def runFrom : Nat → Config V γ σ → Option (Run V ε γ σ)
  | 0, _ => none
  | steps + 1, c =>
    match p.step lexer c with
    | .next c => runFrom steps c
    | .stop result c => some ⟨result, c⟩

/-- Parses what the lexer delivers, from a fresh stack and status. -/
def run (steps : Nat) (source : σ) (context : γ) : Option (Run V ε γ σ) :=
  p.runFrom lexer steps (.start source context)

/-- More steps do not change how a run ends. -/
theorem runFrom_add {steps : Nat} {c : Config V γ σ} {r : Run V ε γ σ}
    (h : p.runFrom lexer steps c = some r) (more : Nat) :
    p.runFrom lexer (steps + more) c = some r := by
  induction steps generalizing c with
  | zero => simp [runFrom] at h
  | succ steps ih =>
    rw [Nat.succ_add]
    simp only [runFrom] at h ⊢
    split at h
    · exact ih h
    · exact h

end Parser

end ShiftReduce
