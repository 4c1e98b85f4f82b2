import ShiftReduce.Parser.Lexeme
import ShiftReduce.Calculator.Production
import ShiftReduce.Text.Radix
import ShiftReduce.Word

/-! Splits a source into numbers, names and single characters. A newline is a token, since it ends a
line. Text after the last newline is a line too: if it holds a token, the lexer supplies the newline
that it lacks. -/

namespace ShiftReduce.Calculator

def isSpace (c : Char) : Bool := c = ' ' || c = '\t' || c = '\r'

def isNameStart (c : Char) : Bool := c.isAlpha || c = '_'

def isNamePart (c : Char) : Bool := isNameStart c || c.isDigit

/-- Drops blanks and comments. A comment runs from `#` to the end of its line. -/
def skip (inComment : Bool) : List Char → List Char
  | [] => []
  | c :: cs =>
    if inComment then if c = '\n' then c :: cs else skip true cs
    else if isSpace c then skip false cs
    else if c = '#' then skip true cs
    else c :: cs

structure Scanner where
  rest : List Char
  /-- The number of the line, counted from 1. -/
  line : Nat := 1
  /-- Whether a line has begun that lacks its newline. -/
  lineOpen : Bool := false
  deriving DecidableEq, Repr

namespace Scanner

def ofSource (source : String) : Scanner := { rest := source.toList }

/-- The end of the input, behind the newline that an open line lacks. -/
def finish (s : Scanner) : Lexeme Value × Scanner :=
  if s.lineOpen then (⟨Terminal.newline.name, none⟩, { s with rest := [], lineOpen := false })
  else (⟨Terminal.atEnd.name, none⟩, { s with rest := [] })

def character (s : Scanner) (c : Char) (rest : List Char) : Lexeme Value × Scanner :=
  (⟨String.singleton c, none⟩,
    { rest, line := if c = '\n' then s.line + 1 else s.line, lineOpen := c != '\n' })

/-- A number, which has to be a word; one that is not is passed over all the same. -/
def number (s : Scanner) (text : List Char) (rest : List Char) :
    Except Error (Lexeme Value) × Scanner :=
  let n := (Text.decimal? text).getD 0
  if Word.fitsSigned n then
    (.ok ⟨Terminal.number.name, some (.number n)⟩, { s with rest, lineOpen := true })
  else (.error .numberTooLarge, { s with rest })

def ident (s : Scanner) (text : List Char) (rest : List Char) : Lexeme Value × Scanner :=
  (⟨Terminal.ident.name, some (.ident (String.ofList text))⟩, { s with rest, lineOpen := true })

/-- The next token, the longest that can be read. -/
def next (s : Scanner) : Except Error (Lexeme Value) × Scanner :=
  match skip false s.rest with
  | [] => (.ok s.finish.1, s.finish.2)
  | c :: cs =>
    if c.isDigit then
      s.number (c :: cs.takeWhile Char.isDigit) (cs.dropWhile Char.isDigit)
    else if isNameStart c then
      let read := s.ident (c :: cs.takeWhile isNamePart) (cs.dropWhile isNamePart)
      (.ok read.1, read.2)
    else
      let read := s.character c cs
      (.ok read.1, read.2)

end Scanner

/-- The lexer of a source; it takes no notice of the run. -/
def lexer : Lexer Value Error Scanner := fun _ scanner => scanner.next

end ShiftReduce.Calculator
