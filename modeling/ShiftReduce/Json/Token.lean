import ShiftReduce.Json.Basic
import ShiftReduce.Text.Radix

/-! A JSON text is split into tokens by the strict rules: four blank characters, no leading zeros,
no control characters inside a text. Each token leaves a shorter rest, which is why the splitting
ends. -/

namespace ShiftReduce.Json

inductive Token where
  | openBrace
  | closeBrace
  | openBracket
  | closeBracket
  | colon
  | comma
  | text (value : Option String)
  | scalar (value : Json)

namespace Token

def isSpace (c : Char) : Bool := c = ' ' || c = '\t' || c = '\n' || c = '\r'

/-! ## Texts -/

/-- An element of a text: a character, or a 16-bit unit given by its code. -/
inductive Piece where
  | char (c : Char)
  | unit (code : Nat)

/-- The character after a backslash, escapes by code left aside. -/
def escaped? (c : Char) : Option Char :=
  match c with
  | '"' => some '"'
  | '\\' => some '\\'
  | '/' => some '/'
  | 'b' => some '\x08'
  | 'f' => some '\x0c'
  | 'n' => some '\n'
  | 'r' => some '\r'
  | 't' => some '\t'
  | _ => none

/-- The elements up to the closing quote, and what follows it. -/
def pieces : List Char → Option (List Piece × List Char)
  | [] => none
  | '"' :: rest => some ([], rest)
  | '\\' :: 'u' :: a :: b :: c :: d :: rest =>
    match Text.hexadecimal? [a, b, c, d], pieces rest with
    | some code, some (more, rest) => some (.unit code :: more, rest)
    | _, _ => none
  | '\\' :: c :: rest =>
    match escaped? c, pieces rest with
    | some c, some (more, rest) => some (.char c :: more, rest)
    | _, _ => none
  | c :: rest =>
    match pieces rest with
    | some (more, rest) => if c < ' ' then none else some (.char c :: more, rest)
    | none => none

def isLead (code : Nat) : Bool := 0xd800 ≤ code && code ≤ 0xdbff
def isTrail (code : Nat) : Bool := 0xdc00 ≤ code && code ≤ 0xdfff

def ofPair (lead trail : Nat) : Char :=
  Char.ofNat (0x10000 + (lead - 0xd800) * 0x400 + (trail - 0xdc00))

def spell : List Piece → Option (List Char)
  | [] => some []
  | .char c :: rest => (spell rest).map (c :: ·)
  | .unit lead :: .unit trail :: rest =>
    if isLead lead && isTrail trail then (spell rest).map (ofPair lead trail :: ·)
    else if isLead lead || isTrail lead then none
    else (spell (.unit trail :: rest)).map (Char.ofNat lead :: ·)
  | .unit code :: rest =>
    if isLead code || isTrail code then none else (spell rest).map (Char.ofNat code :: ·)

/-! ## Numbers -/

/-- A run of digits, which may not be empty, and what follows it. -/
def digits (cs : List Char) : Option (List Char × List Char) :=
  let run := cs.takeWhile Char.isDigit
  if run.isEmpty then none else some (run, cs.dropWhile Char.isDigit)

/-- The digits before the point: a zero stands alone. -/
def whole : List Char → Option (List Char × List Char)
  | '0' :: rest => some (['0'], rest)
  | cs => digits cs

/-- Skips a fraction and tells whether there was one. -/
def fraction : List Char → Option (Bool × List Char)
  | '.' :: rest => (digits rest).map fun parts => (true, parts.2)
  | cs => some (false, cs)

def dropSign : List Char → List Char
  | '+' :: rest => rest
  | '-' :: rest => rest
  | cs => cs

def exponent : List Char → Option (Bool × List Char)
  | 'e' :: rest => (digits (dropSign rest)).map fun parts => (true, parts.2)
  | 'E' :: rest => (digits (dropSign rest)).map fun parts => (true, parts.2)
  | cs => some (false, cs)

def number (negative : Bool) (cs : List Char) : Option (Token × List Char) :=
  match whole cs with
  | none => none
  | some (run, rest) =>
    match fraction rest with
    | none => none
    | some (hasFraction, rest) =>
      match exponent rest with
      | none => none
      | some (hasExponent, rest) =>
        let n := (Text.decimal? run).getD 0
        let plain := !hasFraction && !hasExponent && !(negative && n == 0)
        some (.scalar (if plain then .integer (if negative then -n else n) else .decimal), rest)

/-! ## Tokens -/

/-- The token that starts with this character, and what follows it. -/
def scan (c : Char) (rest : List Char) : Option (Token × List Char) :=
  match c, rest with
  | '\x7b', rest => some (.openBrace, rest)
  | '\x7d', rest => some (.closeBrace, rest)
  | '[', rest => some (.openBracket, rest)
  | ']', rest => some (.closeBracket, rest)
  | ':', rest => some (.colon, rest)
  | ',', rest => some (.comma, rest)
  | '"', rest => (pieces rest).map fun parts => (.text ((spell parts.1).map String.ofList), parts.2)
  | 'n', 'u' :: 'l' :: 'l' :: rest => some (.scalar .null, rest)
  | 't', 'r' :: 'u' :: 'e' :: rest => some (.scalar (.bool true), rest)
  | 'f', 'a' :: 'l' :: 's' :: 'e' :: rest => some (.scalar (.bool false), rest)
  | '-', rest => number true rest
  | c, rest => if c.isDigit then number false (c :: rest) else none

theorem pieces_length {cs : List Char} {ps : List Piece} {rest : List Char}
    (h : pieces cs = some (ps, rest)) : rest.length < cs.length := by
  fun_induction pieces cs generalizing ps rest with
  | case2 => simp_all
  | case3 a b c d tail code more after read _ ih =>
    have := ih read
    simp_all only [Option.some.injEq, Prod.mk.injEq, List.length_cons]
    omega
  | case5 c tail _ e more after read _ ih =>
    have := ih read
    simp_all only [Option.some.injEq, Prod.mk.injEq, List.length_cons]
    omega
  | case8 c tail _ _ _ more after read _ ih =>
    have := ih read
    simp_all only [Option.some.injEq, Prod.mk.injEq, List.length_cons]
    omega
  | _ => simp at h

theorem digits_length {cs run rest : List Char} (h : digits cs = some (run, rest)) :
    rest.length < cs.length := by
  unfold digits at h
  cases cs with
  | nil => simp at h
  | cons c cs =>
    by_cases digit : c.isDigit = true
    · simp only [List.takeWhile_cons, List.dropWhile_cons, digit, if_true, List.isEmpty_cons,
        Bool.false_eq_true, if_false, Option.some.injEq, Prod.mk.injEq] at h
      rw [← h.2, List.length_cons]
      exact Nat.lt_succ_of_le (List.dropWhile_sublist _).length_le
    · simp [digit] at h

theorem whole_length {cs run rest : List Char} (h : whole cs = some (run, rest)) :
    rest.length < cs.length := by
  unfold whole at h
  split at h
  · simp only [Option.some.injEq, Prod.mk.injEq] at h
    simp [← h.2]
  · exact digits_length h

theorem fraction_length {cs rest : List Char} {found : Bool}
    (h : fraction cs = some (found, rest)) : rest.length ≤ cs.length := by
  unfold fraction at h
  split at h
  · next tail =>
    obtain ⟨⟨run, after⟩, read, same⟩ := Option.map_eq_some_iff.mp h
    have := digits_length read
    simp only [Prod.mk.injEq] at same
    rw [← same.2, List.length_cons]
    omega
  · simp only [Option.some.injEq, Prod.mk.injEq] at h
    simp [h.2]

theorem dropSign_length (cs : List Char) : (dropSign cs).length ≤ cs.length := by
  unfold dropSign; split <;> simp

theorem exponent_length {cs rest : List Char} {found : Bool}
    (h : exponent cs = some (found, rest)) : rest.length ≤ cs.length := by
  unfold exponent at h
  split at h
  case h_3 =>
    simp only [Option.some.injEq, Prod.mk.injEq] at h
    simp [h.2]
  all_goals
    next tail =>
    obtain ⟨⟨run, after⟩, read, same⟩ := Option.map_eq_some_iff.mp h
    have := digits_length read
    have := dropSign_length tail
    simp only [Prod.mk.injEq] at same
    rw [← same.2, List.length_cons]
    omega

theorem number_length {negative : Bool} {cs rest : List Char} {token : Token}
    (h : number negative cs = some (token, rest)) : rest.length < cs.length := by
  unfold number at h
  split at h
  · simp at h
  · next run r read =>
    split at h
    · simp at h
    · next found r1 read1 =>
      split at h
      · simp at h
      · next found2 r2 read2 =>
        have := whole_length read
        have := fraction_length read1
        have := exponent_length read2
        simp only [Option.some.injEq, Prod.mk.injEq] at h
        rw [← h.2]
        omega

/-- A token leaves a rest no longer than what stood after its first character. -/
theorem scan_length {c : Char} {cs rest : List Char} {token : Token}
    (h : scan c cs = some (token, rest)) : rest.length ≤ cs.length := by
  unfold scan at h
  split at h
  case h_7 =>
    obtain ⟨⟨run, after⟩, read, same⟩ := Option.map_eq_some_iff.mp h
    have := pieces_length read
    simp only [Prod.mk.injEq] at same
    rw [← same.2]
    omega
  case h_11 => exact Nat.le_of_lt (number_length h)
  case h_12 =>
    split at h
    · exact Nat.le_of_lt_succ (number_length h)
    · simp at h
  all_goals
    simp only [Option.some.injEq, Prod.mk.injEq] at h
    simp only [← h.2, List.length_cons]
    grind

/-- All tokens of a text, blanks between them skipped; `none` if some part is no token. -/
def ofChars : List Char → Option (List Token)
  | [] => some []
  | c :: cs =>
    if isSpace c then ofChars cs
    else
      match h : scan c cs with
      | none => none
      | some (token, rest) =>
        have : rest.length < cs.length + 1 := Nat.lt_succ_of_le (scan_length h)
        (ofChars rest).map (token :: ·)
termination_by cs => cs.length

end Token

end ShiftReduce.Json
