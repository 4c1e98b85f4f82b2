import ShiftReduce.Tables.Basic

namespace ShiftReduce

inductive Control where
  | normal
  | accept
  | abort
  /-- Enter error recovery in place of the goto. -/
  | error
  deriving DecidableEq, Repr

/-- An entry of the parse stack: a state and the value of the symbol that led to it. -/
structure Entry (V : Type) where
  state : Nat
  value : Option V
  deriving DecidableEq, Repr

structure Status (V : Type) where
  token : Option String := none
  value : Option V := none
  /-- 0 in normal parsing, 1 when an error was just met; recovery sets it to 3, and every shift
  takes one away. -/
  errorStatus : Nat := 0
  errorCount : Nat := 0
  control : Control := .normal
  /-- How many values the rule being reduced was given. -/
  dot : Nat := 0
  deriving DecidableEq, Repr

inductive Request (V : Type) where
  | accept
  | abort
  | error
  | errok
  | setToken (token : Option String)
  | setValue (value : Option V)
  deriving DecidableEq, Repr

variable {V : Type}

namespace Status

def recovering (s : Status V) : Bool := s.errorStatus != 0

def atEnd (s : Status V) : Bool := s.token == some endToken

def apply (s : Status V) : Request V → Status V
  | .accept => { s with control := .accept }
  | .abort => { s with control := .abort }
  | .error => { s with control := .error }
  | .errok => { s with errorStatus := 0 }
  | .setToken token => { s with token }
  | .setValue value => { s with value }

/-- Applies requests in the order in which they were made. -/
def applyAll (s : Status V) (requests : List (Request V)) : Status V :=
  requests.foldl apply s

def dropToken (s : Status V) : Status V := { s with token := none, value := none }

/-- The status after its lookahead was shifted. The end of the input is never used up. -/
def consume (s : Status V) : Status V := if s.atEnd then s else s.dropToken

@[simp] theorem applyAll_nil (s : Status V) : s.applyAll [] = s := rfl

@[simp] theorem applyAll_cons (s : Status V) (r : Request V) (rs : List (Request V)) :
    s.applyAll (r :: rs) = (s.apply r).applyAll rs := rfl

end Status

/-- What a callback sees of the run. The top of the stack is the head of the list. -/
structure View (V : Type) where
  status : Status V
  stack : List (Entry V)
  tables : Tables
  /-- The rule being reduced; `none` in the error hook. -/
  rule : Option Nat

namespace View

def apply (v : View V) (r : Request V) : View V := { v with status := v.status.apply r }

/-- The tokens that have an action in the state on top of the stack. -/
def expected (v : View V) : List String :=
  match v.stack with
  | [] => []
  | top :: _ => ((v.tables.states[top.state]?).map State.expected).getD []

/-- The value of a symbol of the rule being reduced, counted from 1. Lower numbers reach further
to the left in the stack; there is no value outside of it. -/
def symbolValue (v : View V) (index : Int) : Option V :=
  let depth : Int := v.status.dot - index
  if 0 ≤ depth then (v.stack[depth.toNat]?).bind Entry.value else none

end View

end ShiftReduce
