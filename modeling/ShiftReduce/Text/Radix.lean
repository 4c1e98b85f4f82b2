namespace ShiftReduce.Text

def hexValue? (c : Char) : Option Nat :=
  if '0' ≤ c ∧ c ≤ '9' then some (c.toNat - '0'.toNat)
  else if 'a' ≤ c ∧ c ≤ 'f' then some (c.toNat - 'a'.toNat + 10)
  else if 'A' ≤ c ∧ c ≤ 'F' then some (c.toNat - 'A'.toNat + 10)
  else none

/-- The value of a decimal digit; ASCII digits are the only ones. -/
def decimalValue? (c : Char) : Option Nat :=
  if c.isDigit then some (c.toNat - '0'.toNat) else none

/-- The number that the digits denote, most significant first. -/
def ofDigits (radix : Nat) (digits : List Nat) : Nat :=
  digits.foldl (fun n digit => radix * n + digit) 0

def decimal? (cs : List Char) : Option Nat :=
  if cs.isEmpty then none else (cs.mapM decimalValue?).map (ofDigits 10)

def hexadecimal? (cs : List Char) : Option Nat :=
  if cs.isEmpty then none else (cs.mapM hexValue?).map (ofDigits 16)

/-- The lower-case hexadecimal digits of a number, without leading zeros. -/
def hexDigits (n : Nat) : List Char := Nat.toDigits 16 n

theorem ofDigits_append (radix : Nat) (xs : List Nat) (y : Nat) :
    ofDigits radix (xs ++ [y]) = radix * ofDigits radix xs + y := by
  simp [ofDigits]

end ShiftReduce.Text
