import ShiftReduce.Parser.Status

/-! A driver gives a grammar its meaning: an action for each rule that has one, and a hook that
hears of syntax errors. Callbacks are functions of what they see and of a context that they hand on;
what they want of the run they put into their reply. -/

namespace ShiftReduce

variable {V ε γ : Type}

/-- What a callback leaves behind. -/
structure Reply (V γ α : Type) where
  result : α
  context : γ
  /-- In the order in which they were made. -/
  requests : List (Request V) := []
  warnings : List String := []

structure Driver (V ε γ : Type) where
  /-- Rules without an action produce the first of their values. -/
  hasAction : Nat → Bool
  reduce : (rule : Nat) → (values : List (Option V)) → View V → γ → Reply V γ (Except ε (Option V))
  /-- Called once for each syntax error, before recovery starts. -/
  onError : View V → γ → Reply V γ Unit

def firstValue (values : List (Option V)) : Option V := values.head?.join

namespace Driver

def defaultHook (_ : View V) (context : γ) : Reply V γ Unit :=
  { result := (), context, warnings := ["Parse error."] }

/-- The driver without any action: every rule passes its first value on. -/
def plain : Driver V ε γ where
  hasAction _ := false
  reduce _ values _ context := { result := .ok (firstValue values), context }
  onError := defaultHook

def always (d : Driver V ε γ) : Driver V ε γ := { d with hasAction := fun _ => true }

end Driver

end ShiftReduce
