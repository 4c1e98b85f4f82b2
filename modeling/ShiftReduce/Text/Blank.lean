/-! The characters with the Unicode property `White_Space`, of which core's `Char.isWhitespace`
knows only four, and texts trimmed of them at both ends. -/

namespace ShiftReduce.Text

/-- The code points of the blank characters, as closed ranges. -/
def blankRanges : List (Nat × Nat) :=
  [(0x9, 0xd), (0x20, 0x20), (0x85, 0x85), (0xa0, 0xa0), (0x1680, 0x1680), (0x2000, 0x200a),
   (0x2028, 0x2029), (0x202f, 0x202f), (0x205f, 0x205f), (0x3000, 0x3000)]

def inRanges (ranges : List (Nat × Nat)) (code : Nat) : Bool :=
  ranges.any fun range => range.1 ≤ code && code ≤ range.2

def isBlank (c : Char) : Bool := inRanges blankRanges c.toNat

/-- Drops the blanks at both ends and keeps those inside. -/
def trim (cs : List Char) : List Char :=
  ((cs.dropWhile isBlank).reverse.dropWhile isBlank).reverse

@[simp] theorem trim_nil : trim [] = [] := rfl

end ShiftReduce.Text
