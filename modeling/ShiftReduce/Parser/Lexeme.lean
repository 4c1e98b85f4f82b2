import ShiftReduce.Parser.Status

namespace ShiftReduce

variable {V ε : Type}

structure Lexeme (V : Type) where
  token : String
  value : Option V := none
  deriving DecidableEq, Repr

namespace Lexeme

def atEnd : Lexeme V := ⟨endToken, none⟩

def isEnd (l : Lexeme V) : Bool := l.token == endToken

end Lexeme

/-- A source of lexemes with its own state `σ`, which may fail with an `ε`. -/
abbrev Lexer (V ε σ : Type) := Status V → σ → Except ε (Lexeme V) × σ

structure LexemeQueue (V : Type) where
  pending : List (Lexeme V)
  taken : Nat := 0
  deriving DecidableEq, Repr

namespace LexemeQueue

/-- The queue of a stream that ends at its first pause, whatever comes after it. -/
def ofStream (items : List (Option (Lexeme V))) : LexemeQueue V :=
  ⟨(items.takeWhile Option.isSome).filterMap id, 0⟩

/-- The next lexeme, and the end of the input when none is left. -/
def next (q : LexemeQueue V) : Lexeme V × LexemeQueue V :=
  match q.pending with
  | [] => (.atEnd, q)
  | lexeme :: rest => (lexeme, ⟨rest, q.taken + 1⟩)

def lexer : Lexer V ε (LexemeQueue V) := fun _ queue => (.ok queue.next.1, queue.next.2)

end LexemeQueue

end ShiftReduce
