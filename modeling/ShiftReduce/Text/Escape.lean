import ShiftReduce.Text.Radix

namespace ShiftReduce.Text

/-- A character by its code point in hexadecimal, as in `\u` and a number in braces. -/
def escapeCode (c : Char) : List Char :=
  ['\\', 'u', '\x7b'] ++ hexDigits c.toNat ++ ['\x7d']

def isVisible (c : Char) : Bool := ' ' ≤ c && c ≤ '~'

def escapeChar (c : Char) : List Char :=
  if c = '\t' then ['\\', 't']
  else if c = '\r' then ['\\', 'r']
  else if c = '\n' then ['\\', 'n']
  else if c = '\'' ∨ c = '"' ∨ c = '\\' then ['\\', c]
  else if isVisible c then [c]
  else escapeCode c

def escape (cs : List Char) : List Char := cs.flatMap escapeChar

@[simp] theorem escape_nil : escape [] = [] := rfl
@[simp] theorem escape_cons (c : Char) (cs : List Char) :
    escape (c :: cs) = escapeChar c ++ escape cs := by simp [escape]

/-- A byte as two upper-case hexadecimal digits in angle brackets. -/
def byteCode (byte : UInt8) : List Char :=
  let digit (n : Nat) : Char := (Nat.digitChar n).toUpper
  ['<', digit (byte.toNat / 16), digit (byte.toNat % 16), '>']

/-- Shows printable ASCII as it is and every other character by its UTF-8 bytes. -/
def showBytes (cs : List Char) : List Char :=
  cs.flatMap fun c => if isVisible c then [c] else (String.utf8EncodeChar c).flatMap byteCode

end ShiftReduce.Text
