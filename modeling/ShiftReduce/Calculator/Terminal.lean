import ShiftReduce.Tables.Basic
import ShiftReduce.Text.Escape

namespace ShiftReduce.Calculator

/-- What a symbol on the stack carries: a number, or the name of a variable. -/
inductive Value where
  | number (n : Int)
  | ident (name : String)
  deriving DecidableEq, Repr

def Value.number? : Value → Option Int
  | .number n => some n
  | .ident _ => none

def Value.ident? : Value → Option String
  | .ident name => some name
  | .number _ => none

inductive Terminal where
  | number
  | ident
  | newline
  | plus
  | minus
  | asterisk
  | slash
  | equals
  | leftParen
  | rightParen
  | atEnd
  deriving DecidableEq, Repr

namespace Terminal

def name : Terminal → String
  | .number => "NUM"
  | .ident => "VAR"
  | .newline => "\n"
  | .plus => "+"
  | .minus => "-"
  | .asterisk => "*"
  | .slash => "/"
  | .equals => "="
  | .leftParen => "("
  | .rightParen => ")"
  | .atEnd => endToken

/-- The terminal that is written by a single character, if there is one. -/
def ofChar? : Char → Option Terminal
  | '\n' => some .newline
  | '+' => some .plus
  | '-' => some .minus
  | '*' => some .asterisk
  | '/' => some .slash
  | '=' => some .equals
  | '(' => some .leftParen
  | ')' => some .rightParen
  | _ => none

end Terminal

/-- How a diagnostic speaks of a token: the kinds by a word, all others by their name in
quotes. -/
def describe (token : String) : String :=
  if token = endToken then "end of input"
  else if token = Terminal.newline.name then "newline"
  else if token = Terminal.number.name then "number"
  else if token = Terminal.ident.name then "variable"
  else String.ofList (['\''] ++ Text.escape token.toList ++ ['\''])

end ShiftReduce.Calculator
