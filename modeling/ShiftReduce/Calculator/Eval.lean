import ShiftReduce.Calculator.Driver
import ShiftReduce.Calculator.Lexer
import ShiftReduce.Calculator.Tables
import ShiftReduce.Parser.Run

/-! Evaluates a source line by line in a session. Each token costs a bounded number of steps, so the
number of steps can be told from the length of the source. -/

namespace ShiftReduce.Calculator

abbrev CalculatorRun := Run Value Error Session Scanner

def parser (flags : Trace.Flags := .none) : Parser Value Error Session :=
  ⟨tables, driver, flags⟩

/-- More steps than the evaluation of a source can take. -/
def stepBound (source : String) : Nat := 8 * (source.length + 2)

/-- Evaluates every line of a source; the final configuration holds the new session. -/
def eval (source : String) (session : Session) (flags : Trace.Flags := .none) :
    Option CalculatorRun :=
  (parser flags).run lexer (stepBound source) (.ofSource source) session

end ShiftReduce.Calculator
