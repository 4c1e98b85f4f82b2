import ShiftReduce.Tables.Validation

/-! The LALR(1) tables of the calculator's grammar. `=` is right-associative and binds least, then
`+ -` and `* /`, which are left-associative, and the unary minus binds most. -/

namespace ShiftReduce.Calculator

/-- The tokens with which an expression begins, and where they lead. -/
def expressionActions : List (String × Int) := [("NUM", 5), ("VAR", 6), ("-", 7), ("(", 8)]

/-- A state behind an operator, an opening parenthesis or an equals sign. -/
def operandState (goto : Nat) : StateDefinition :=
  { actions := some expressionActions, gotos := [("exp", goto)] }

def productActions : List (String × Int) := [("*", 18), ("/", 19)]

def sumActions : List (String × Int) := [("+", 16), ("-", 17)] ++ productActions

def reduceState (rule : Int) : StateDefinition := { default := some (-rule) }

def definition : TablesDefinition where
  rules :=
    [⟨"$start", 2⟩, ⟨"input", 0⟩, ⟨"input", 2⟩, ⟨"line", 1⟩, ⟨"line", 2⟩, ⟨"line", 2⟩,
     ⟨"exp", 1⟩, ⟨"exp", 1⟩, ⟨"exp", 3⟩, ⟨"exp", 3⟩, ⟨"exp", 3⟩, ⟨"exp", 3⟩, ⟨"exp", 3⟩,
     ⟨"exp", 2⟩, ⟨"exp", 3⟩]
  states :=
    [{ default := some (-1), gotos := [("input", 1)] },
     -- 1: between lines
     { actions := some ([("", 2), ("\n", 3), ("error", 4)] ++ expressionActions)
       gotos := [("line", 9), ("exp", 10)] },
     { default := some 0 },
     reduceState 3,
     -- 4: in a spoilt line
     { actions := some [("\n", 11)] },
     reduceState 6,
     -- 6: behind a name
     { default := some (-7), actions := some [("=", 12)] },
     operandState 13,
     operandState 14,
     reduceState 2,
     -- 10: behind an expression
     { actions := some ([("\n", 15)] ++ sumActions) },
     reduceState 5,
     operandState 20,
     reduceState 13,
     -- 14: in parentheses
     { actions := some ([(")", 21)] ++ sumActions) },
     reduceState 4,
     operandState 22,
     operandState 23,
     operandState 24,
     operandState 25,
     -- 20: behind the right side of an assignment
     { default := some (-8), actions := some sumActions },
     reduceState 14,
     -- 22 and 23: behind the right side of a sum or a difference
     { default := some (-9), actions := some productActions },
     { default := some (-10), actions := some productActions },
     reduceState 11,
     reduceState 12]

def tables : Tables :=
  match Tables.ofDefinition definition with
  | .ok tables => tables
  | .error _ => ⟨#[], #[]⟩

theorem ofDefinition_definition : Tables.ofDefinition definition = .ok tables := by
  have valid : (Tables.ofDefinition definition).toOption.isSome := by decide
  unfold tables
  split
  · assumption
  · next defect => simp [defect, Except.toOption] at valid

end ShiftReduce.Calculator
