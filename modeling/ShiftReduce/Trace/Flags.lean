import ShiftReduce.Text.Blank
import ShiftReduce.Text.Quoted
import ShiftReduce.Text.Radix
import ShiftReduce.Text.Split

/-! A set of categories selects the lines of a trace that are shown. It is written as a bit mask in
decimal or hexadecimal, or as a list of names. -/

namespace ShiftReduce.Trace

inductive Category where
  | token
  | state
  | action
  | stack
  | recovery
  deriving DecidableEq, Repr

def Category.all : List Category := [.token, .state, .action, .stack, .recovery]

def Category.name : Category → String
  | .token => "token"
  | .state => "state"
  | .action => "action"
  | .stack => "stack"
  | .recovery => "recovery"

/-- A set of categories, one bit each. -/
structure Flags where
  bits : BitVec 5
  deriving DecidableEq, Repr

namespace Flags

def none : Flags := ⟨0⟩
def all : Flags := ⟨0x1f⟩

def only : Category → Flags
  | .token => ⟨0x01⟩
  | .state => ⟨0x02⟩
  | .action => ⟨0x04⟩
  | .stack => ⟨0x08⟩
  | .recovery => ⟨0x10⟩

/-- The set with these bits; bits of no category are dropped. -/
def ofBits (bits : Nat) : Flags := ⟨BitVec.ofNat 5 bits⟩

def union (f g : Flags) : Flags := ⟨f.bits ||| g.bits⟩

instance : OrOp Flags := ⟨union⟩

def isEmpty (f : Flags) : Bool := f.bits == 0

/-- Whether all categories of `g` are in `f`. The empty set counts as contained in none. -/
def contains (f g : Flags) : Bool := g.bits != 0 && f.bits &&& g.bits == g.bits

def shows (f : Flags) (c : Category) : Bool := f.contains (only c)

/-- The names of the categories, or `none` for the empty set. -/
def toText (f : Flags) : String :=
  if f.isEmpty then "none"
  else ",".intercalate ((Category.all.filter f.shows).map Category.name)

instance : ToString Flags := ⟨toText⟩

structure ParseError where
  text : String
  deriving DecidableEq, Repr

def ParseError.message (e : ParseError) : String :=
  "invalid trace flags " ++ Text.quote e.text

/-- A mask has to fit in a byte. -/
def ofMask? (n : Option Nat) : Option Flags :=
  n.bind fun n => if n ≤ 255 then some (ofBits n) else Option.none

def ofName? (name : List Char) : Option Flags :=
  let name := String.ofList (name.map Char.toLower)
  if name = "all" then some all
  else if name = "none" then some none
  else (Category.all.find? fun c => c.name == name).map only

def ofNames? (pieces : List (List Char)) : Option Flags :=
  (pieces.mapM fun piece => ofName? (Text.trim piece)).map fun sets => sets.foldl union none

def dropPlus : List Char → List Char
  | '+' :: cs => cs
  | cs => cs

/-- Reads a set from a trimmed text: `0x` and hexadecimal digits, which one plus sign may
precede, or decimal digits, or names between commas. The first form that applies decides. -/
def ofTrimmed? (text : List Char) : Option Flags :=
  match text with
  | '0' :: 'x' :: digits => ofMask? (Text.hexadecimal? (dropPlus digits))
  | '0' :: 'X' :: digits => ofMask? (Text.hexadecimal? (dropPlus digits))
  | text =>
    if !text.isEmpty && text.all Char.isDigit then ofMask? (Text.decimal? text)
    else ofNames? (Text.split ',' text)

/-- Reads a set of categories; blanks around the text and around each name do not count. -/
def parse (text : String) : Except ParseError Flags :=
  let trimmed := Text.trim text.toList
  match ofTrimmed? trimmed with
  | some flags => .ok flags
  | Option.none => .error ⟨String.ofList trimmed⟩

end Flags

end ShiftReduce.Trace
