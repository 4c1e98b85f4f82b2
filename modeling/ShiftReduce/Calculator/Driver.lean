import ShiftReduce.Calculator.Production

namespace ShiftReduce.Calculator

/-- What a syntax error says: the lookahead, and the tokens that the state would take. -/
def syntaxMessage (view : View Value) : String :=
  match view.status.token with
  | none => "syntax error"
  | some token =>
    let expected := (view.expected.filter (· != errorToken)).map describe
    "syntax error near " ++ describe token ++ ", expected one of: " ++ ", ".intercalate expected

/-- Reports the pending error, or else the syntax error, and leaves nothing pending. -/
def reportError (view : View Value) (s : Session) : Reply Value Session Unit :=
  let message := (s.pending.map LineError.message).getD (syntaxMessage view)
  let report := s!"line {s.lines + 1}: " ++ message
  { result := ()
    context := { s with pending := none, errors := s.errors.push report }
    warnings := [report] }

def driver : Driver Value Error Session where
  hasAction rule := ((Production.ofRule? rule).map Production.hasAction).getD false
  reduce rule values _ session :=
    match Production.ofRule? rule with
    | some production => production.act values session
    | none => session.reject (.foreignRule rule)
  onError := reportError

end ShiftReduce.Calculator
