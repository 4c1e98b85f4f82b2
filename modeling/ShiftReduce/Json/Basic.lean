import ShiftReduce.Word

/-! JSON as a reader of table definitions sees it. A number is kept only when it is a plain integer,
and a text only when its escapes spell characters: what no definition can use is still read, so that
unknown members may hold it. -/

namespace ShiftReduce

inductive Json where
  | null
  | bool (value : Bool)
  | integer (value : Int)
  /-- A number with a fraction or an exponent, or minus zero. -/
  | decimal
  /-- A text; `none` when an escape leaves half of a surrogate pair. -/
  | text (value : Option String)
  | array (items : List Json)
  | object (members : List (Option String × Json))

namespace Json

def text? : Json → Option String
  | .text value => value
  | _ => none

def int64? : Json → Option Int
  | .integer n => if Word.fitsSigned n then some n else none
  | _ => none

def nat64? : Json → Option Nat
  | .integer (.ofNat n) => if Word.fitsUnsigned n then some n else none
  | _ => none

/-- An object read as a map: every name must be a text and every value readable. -/
def entries? {α : Type} (read : Json → Option α) : Json → Option (List (String × α))
  | .object members => members.mapM fun member => do
      let name ← member.1
      let value ← read member.2
      return (name, value)
  | _ => none

end Json

end ShiftReduce
