import ShiftReduce.Json.Token

/-! Builds the value from the tokens with a stack of the containers that are still open, one token
at a time, so that nesting may be of any depth. -/

namespace ShiftReduce.Json

/-- A container whose end has not been read; what it holds so far stands in reverse. -/
inductive Frame where
  | array (items : List Json)
  /-- An object whose last name still lacks its value. -/
  | object (members : List (Option String × Json)) (name : Option String)

inductive Expect where
  | value
  /-- A value, or the end of the array that was just opened. -/
  | item
  /-- A name, or also the end of the object if it was just opened. -/
  | name (members : List (Option String × Json)) (opened : Bool)
  | colon (members : List (Option String × Json)) (name : Option String)
  /-- A value is complete: a separator or the end of what it stands in. -/
  | after (value : Json)

def beginValue (token : Token) (frames : List Frame) : Option (Expect × List Frame) :=
  match token with
  | .openBrace => some (.name [] true, frames)
  | .openBracket => some (.item, frames)
  | .text value => some (.after (.text value), frames)
  | .scalar value => some (.after value, frames)
  | _ => none

def endValue (value : Json) (token : Token) (frames : List Frame) : Option (Expect × List Frame) :=
  match token, frames with
  | .comma, .array items :: frames => some (.value, .array (value :: items) :: frames)
  | .closeBracket, .array items :: frames =>
    some (.after (.array (value :: items).reverse), frames)
  | .comma, .object members name :: frames => some (.name ((name, value) :: members) false, frames)
  | .closeBrace, .object members name :: frames =>
    some (.after (.object ((name, value) :: members).reverse), frames)
  | _, _ => none

def advance (expect : Expect) (token : Token) (frames : List Frame) :
    Option (Expect × List Frame) :=
  match expect, token with
  | .value, token => beginValue token frames
  | .item, .closeBracket => some (.after (.array []), frames)
  | .item, token => (beginValue token (.array [] :: frames))
  | .name _ true, .closeBrace => some (.after (.object []), frames)
  | .name members _, .text name => some (.colon members name, frames)
  | .name _ _, _ => none
  | .colon members name, .colon => some (.value, .object members name :: frames)
  | .colon _ _, _ => none
  | .after value, token => endValue value token frames

/-- Reads the rest of the tokens; the value must be complete exactly when they end. -/
def readTokens : List Token → Expect → List Frame → Option Json
  | [], .after value, [] => some value
  | [], _, _ => none
  | token :: tokens, expect, frames =>
    match advance expect token frames with
    | some (expect, frames) => readTokens tokens expect frames
    | none => none

def read? (text : String) : Option Json :=
  (Token.ofChars text.toList).bind fun tokens => readTokens tokens .value []

end ShiftReduce.Json
