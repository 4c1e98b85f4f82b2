import ShiftReduce.Text.Escape
import ShiftReduce.Trace.Flags

namespace ShiftReduce.Trace

/-- How a reduction goes on once its entries are popped. -/
inductive Aftermath where
  | accept
  | abort
  /-- The action asked for error recovery; `state` has come to the top of the stack. -/
  | recover (state : Nat)
  | goto (state : Nat) (target : Nat)
  deriving DecidableEq, Repr

inductive Event where
  | state (number : Nat)
  | stack (states : List Nat)
  | fetched (token : String)
  | noTokenNeeded
  | shift (target : Nat)
  | reduced (rule : Nat) (lhs : String) (length : Nat) (next : Aftermath)
  | recoveryEntered
  | discarded (token : String)
  | inputExhausted
  | popped (state : Nat)
  | stackExhausted
  | errorShift (target : Nat)
  | recoveryEnded
  deriving DecidableEq, Repr

def Aftermath.text : Aftermath → String
  | .accept => "Accept."
  | .abort => "Abort."
  | .recover state => s!"back to state {state}, then forced error recovery."
  | .goto state target => s!"back to state {state}, then go to state {target}."

namespace Event

def category : Event → Category
  | .state _ => .state
  | .stack _ => .stack
  | .fetched _ | .noTokenNeeded => .token
  | .shift _ | .reduced .. => .action
  | .recoveryEntered | .discarded _ | .inputExhausted | .popped _ | .stackExhausted
  | .errorShift _ | .recoveryEnded => .recovery

def showToken (token : String) : String := String.ofList (Text.showBytes token.toList)

/-- The line of the trace. Rule 0 belongs to the start and is not named. -/
def text : Event → String
  | .state number => s!"In state {number}:"
  | .stack states => "Stack:[" ++ ",".intercalate (states.map toString) ++ "]"
  | .fetched token => "Need token. Got >" ++ showToken token ++ "<."
  | .noTokenNeeded => "Don't need token."
  | .shift target => s!"Shift and go to state {target}."
  | .reduced rule lhs length next =>
    (if rule = 0 then "" else s!"Reduce using rule {rule} ({lhs},{length}): ") ++ next.text
  | .recoveryEntered => "**Entering error recovery."
  | .discarded token => "**Discard invalid token >" ++ showToken token ++ "<."
  | .inputExhausted => "**At EOF: aborting."
  | .popped number => s!"**Pop state {number}."
  | .stackExhausted => "**No state left on stack: aborting."
  | .errorShift target => s!"**Shift $error token and go to state {target}."
  | .recoveryEnded => "**End of error recovery."

end Event

/-- An entry of a run's record: a trace event, or a warning from a driver. -/
inductive Record where
  | event (event : Event)
  | warning (text : String)
  deriving DecidableEq, Repr

namespace Record

def line? : Record → Option String
  | .event e => some e.text
  | .warning _ => none

/-- The entry as a line of a log: a trace line behind its category, a warning behind `warn`. -/
def logLine : Record → String
  | .event e => "[" ++ e.category.name ++ "] " ++ e.text
  | .warning text => "warn " ++ text

end Record

end ShiftReduce.Trace
