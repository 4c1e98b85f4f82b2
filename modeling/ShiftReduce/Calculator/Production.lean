import ShiftReduce.Parser.Driver
import ShiftReduce.Calculator.Session
import ShiftReduce.Calculator.Terminal
import ShiftReduce.Word

/-! What each production of the grammar does. Arithmetic is exact on signed words. A result that is
no such word, a zero divisor or an unbound variable spoils its line: the error is kept for the
report, and the run is asked to recover. -/

namespace ShiftReduce.Calculator

/-- The productions of the grammar:

    input: (nothing) | input line
    line:  newline | exp newline | error newline
    exp:   NUM | VAR | VAR = exp | exp + exp | exp - exp | exp * exp | exp / exp
         | - exp | ( exp ) -/
inductive Production where
  | start
  | noLine
  | nextLine
  | blankLine
  | resultLine
  | spoiltLine
  | number
  | variable
  | assignment
  | sum
  | difference
  | product
  | quotient
  | negation
  | parenthesized
  deriving DecidableEq, Repr

namespace Production

/-- All productions, in the order of the rules in the tables. -/
def all : List Production :=
  [.start, .noLine, .nextLine, .blankLine, .resultLine, .spoiltLine, .number, .variable,
   .assignment, .sum, .difference, .product, .quotient, .negation, .parenthesized]

def ofRule? (rule : Nat) : Option Production := all[rule]?

/-- A nonterminal and the number of the alternative, as error messages name a production. -/
def label : Production → String
  | .start => "Start"
  | .noLine => "Input1"
  | .nextLine => "Input2"
  | .blankLine => "Line1"
  | .resultLine => "Line2"
  | .spoiltLine => "Line3"
  | .number => "Exp1"
  | .variable => "Exp2"
  | .assignment => "Exp3"
  | .sum => "Exp4"
  | .difference => "Exp5"
  | .product => "Exp6"
  | .quotient => "Exp7"
  | .negation => "Exp8"
  | .parenthesized => "Exp9"

/-- Whether the production does more than to pass its first value on. -/
def hasAction : Production → Bool
  | .start | .noLine | .nextLine | .number => false
  | _ => true

end Production

inductive Error where
  | numberTooLarge
  /-- The value of a symbol, counted from 1, is not what its production needs. -/
  | notNumber (production : Production) (symbol : Nat)
  | notIdent (production : Production) (symbol : Nat)
  | foreignRule (rule : Nat)
  deriving DecidableEq, Repr

namespace Error

def message : Error → String
  | .numberTooLarge => "unable to parse ParseIntError \x7b kind: PosOverflow \x7d"
  | .notNumber production symbol => s!"{production.label}: symbol {symbol} is not a number"
  | .notIdent production symbol => s!"{production.label}: symbol {symbol} is not a variable"
  | .foreignRule rule => s!"rule {rule} is not part of the calculator grammar"

def chain : Error → List String
  | .numberTooLarge => [message .numberTooLarge, "number too large to fit in target type"]
  | e => [e.message]

end Error

/-- The reply of an action, which may break the run off. -/
abbrev ActionReply := Reply Value Session (Except Error (Option Value))

namespace Session

def produce (s : Session) (value : Option Value) : ActionReply :=
  { result := .ok value, context := s }

def reject (s : Session) (e : Error) : ActionReply := { result := .error e, context := s }

def spoil (s : Session) (e : LineError) : ActionReply :=
  { result := .ok none, context := { s with pending := some e }, requests := [.error] }

def compute (s : Session) : Except LineError Int → ActionReply
  | .ok n => s.produce (some (.number n))
  | .error e => s.spoil e

end Session

def checked (n : Int) : Except LineError Int := if Word.fitsSigned n then .ok n else .error .overflow

def divide (a b : Int) : Except LineError Int :=
  if b = 0 then .error .divisionByZero else checked (a.tdiv b)

namespace Production

/-- The value of a symbol, counted from 0. -/
def valueAt (values : List (Option Value)) (i : Nat) : Option Value := values[i]?.join

def numberAt (p : Production) (values : List (Option Value)) (i : Nat) : Except Error Int :=
  match (valueAt values i).bind Value.number? with
  | some n => .ok n
  | none => .error (.notNumber p (i + 1))

def identAt (p : Production) (values : List (Option Value)) (i : Nat) : Except Error String :=
  match (valueAt values i).bind Value.ident? with
  | some name => .ok name
  | none => .error (.notIdent p (i + 1))

/-- Applies an operation to the numbers on both sides of an operator. -/
def binary (p : Production) (op : Int → Int → Except LineError Int)
    (values : List (Option Value)) (s : Session) : ActionReply :=
  match p.numberAt values 0, p.numberAt values 2 with
  | .error e, _ => s.reject e
  | .ok _, .error e => s.reject e
  | .ok a, .ok b => s.compute (op a b)

def act (p : Production) (values : List (Option Value)) (s : Session) : ActionReply :=
  match p with
  | .start | .noLine | .nextLine | .number => s.produce (firstValue values)
  | .blankLine => s.endLine.produce none
  | .resultLine =>
    match p.numberAt values 0 with
    | .error e => s.endLine.reject e
    | .ok n => (s.endLine.addResult (some n)).produce none
  | .spoiltLine =>
    { result := .ok none, context := s.endLine.addResult none, requests := [.errok] }
  | .variable =>
    match p.identAt values 0 with
    | .error e => s.reject e
    | .ok name =>
      match s.symbols.lookup? name with
      | some n => s.produce (some (.number n))
      | none => s.spoil (.undefined name)
  | .assignment =>
    match p.numberAt values 2, p.identAt values 0 with
    | .error e, _ => s.reject e
    | .ok _, .error e => s.reject e
    | .ok n, .ok name => (s.assign name n).produce (some (.number n))
  | .sum => p.binary (fun a b => checked (a + b)) values s
  | .difference => p.binary (fun a b => checked (a - b)) values s
  | .product => p.binary (fun a b => checked (a * b)) values s
  | .quotient => p.binary divide values s
  | .negation =>
    match p.numberAt values 1 with
    | .error e => s.reject e
    | .ok n => s.compute (checked (-n))
  | .parenthesized => s.produce (valueAt values 1)

end Production

end ShiftReduce.Calculator
