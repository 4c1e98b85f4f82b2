import ShiftReduce.Calculator.Symbols

namespace ShiftReduce.Calculator

inductive LineError where
  | undefined (name : String)
  | divisionByZero
  | overflow
  deriving DecidableEq, Repr

def LineError.message : LineError → String
  | .undefined name => "undefined variable " ++ name
  | .divisionByZero => "division by zero"
  | .overflow => "integer overflow"

structure Session where
  symbols : Symbols := {}
  /-- One entry for each line that is not blank: its value, or `none` if it failed. -/
  results : Array (Option Int) := #[]
  errors : Array String := #[]
  lines : Nat := 0
  /-- An error that was met and has not been reported. -/
  pending : Option LineError := none
  deriving DecidableEq, Repr

namespace Session

def endLine (s : Session) : Session := { s with lines := s.lines + 1 }

def addResult (s : Session) (result : Option Int) : Session :=
  { s with results := s.results.push result }

def assign (s : Session) (name : String) (value : Int) : Session :=
  { s with symbols := s.symbols.assign name value }

end Session

end ShiftReduce.Calculator
