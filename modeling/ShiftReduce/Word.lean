namespace ShiftReduce.Word

def signedLimit : Nat := 0x8000000000000000

def unsignedLimit : Nat := 0x10000000000000000

/-- Whether a number is an integer of 64 bits with a sign. -/
def fitsSigned (n : Int) : Bool := -signedLimit ≤ n && n < signedLimit

/-- Whether a number is an integer of 64 bits without a sign. -/
def fitsUnsigned (n : Nat) : Bool := n < unsignedLimit

/-- The number after `n`, unless it leaves the integers without a sign. -/
def next? (n : Nat) : Option Nat := if fitsUnsigned (n + 1) then some (n + 1) else none

theorem fitsSigned_iff {n : Int} : fitsSigned n = true ↔ -signedLimit ≤ n ∧ n < signedLimit := by
  simp [fitsSigned]

theorem fitsUnsigned_iff {n : Nat} : fitsUnsigned n = true ↔ n < unsignedLimit := by
  simp [fitsUnsigned]

theorem next?_eq_some_iff {n m : Nat} : next? n = some m ↔ n + 1 < unsignedLimit ∧ n + 1 = m := by
  simp [next?, fitsUnsigned_iff]

end ShiftReduce.Word
