import ShiftReduce.Json.Token
import ShiftReduce.Proofs.Numerals

namespace ShiftReduce.Json

open Token (Piece)

/-- The scanner takes the whole of a spelling for this token and stops at the rest. -/
def Token.Covers (token : Token) (cs rest : List Char) : Prop :=
  ∃ c tail, cs = c :: tail ∧ Token.isSpace c = false ∧
    Token.scan c (tail ++ rest) = some (token, rest)

/-! ## Texts -/

/-- A hexadecimal digit, in either case. -/
def HexDigit (c : Char) (value : Nat) : Prop :=
  value < 16 ∧ (c = Nat.digitChar value ∨ c = (Nat.digitChar value).toUpper)

/-- The letters that may stand behind a backslash, and the characters that they stand for. -/
def shortEscapes : List (Char × Char) :=
  [('"', '"'), ('\\', '\\'), ('/', '/'), ('b', '\x08'), ('f', '\x0c'), ('n', '\n'), ('r', '\r'),
   ('t', '\t')]

/-- An element of a text: a character that needs no escape, a short escape, or a 16-bit unit. -/
inductive Spells : Piece → List Char → Prop
  | plain {c : Char} : ' ' ≤ c → c ≠ '"' → c ≠ '\\' → Spells (.char c) [c]
  | escape {letter c : Char} : (letter, c) ∈ shortEscapes → Spells (.char c) ['\\', letter]
  | unit {a b c d : Char} {w x y z : Nat} : HexDigit a w → HexDigit b x → HexDigit c y →
      HexDigit d z →
      Spells (.unit (16 * (16 * (16 * w + x) + y) + z)) ['\\', 'u', a, b, c, d]

/-- What stands between the quotes of a text. -/
inductive Inside : List Piece → List Char → Prop
  | nil : Inside [] []
  | cons {p : Piece} {ps : List Piece} {cs ds : List Char} : Spells p cs → Inside ps ds →
      Inside (p :: ps) (cs ++ ds)

/-- The characters that the elements of a text stand for. A character beyond the first 65536
takes two units, as in UTF-16. -/
inductive Decodes : List Piece → List Char → Prop
  | nil : Decodes [] []
  | char {c : Char} {ps : List Piece} {cs : List Char} : Decodes ps cs →
      Decodes (.char c :: ps) (c :: cs)
  | unit {c : Char} {ps : List Piece} {cs : List Char} : c.toNat < 0x10000 → Decodes ps cs →
      Decodes (.unit c.toNat :: ps) (c :: cs)
  | pair {c : Char} {ps : List Piece} {cs : List Char} : 0x10000 ≤ c.toNat → Decodes ps cs →
      Decodes (.unit (0xd800 + (c.toNat - 0x10000) / 0x400) ::
        .unit (0xdc00 + (c.toNat - 0x10000) % 0x400) :: ps) (c :: cs)

/-- A text in quotes; `none` if its elements stand for no characters. -/
inductive Quoted : Option String → List Char → Prop
  | text {s : String} {ps : List Piece} {cs : List Char} : Inside ps cs → Decodes ps s.toList →
      Quoted (some s) ('"' :: (cs ++ ['"']))
  | halved {ps : List Piece} {cs : List Char} : Inside ps cs → (∀ s, ¬ Decodes ps s) →
      Quoted none ('"' :: (cs ++ ['"']))

/-- A text in which nothing has to be escaped can be written as it is. -/
theorem quoted_plain {s : String} (plain : ∀ c ∈ s.toList, ' ' ≤ c ∧ c ≠ '"' ∧ c ≠ '\\') :
    Quoted (some s) ('"' :: (s.toList ++ ['"'])) := by
  have elements (cs : List Char) (plain : ∀ c ∈ cs, ' ' ≤ c ∧ c ≠ '"' ∧ c ≠ '\\') :
      Inside (cs.map .char) cs ∧ Decodes (cs.map .char) cs := by
    induction cs with
    | nil => exact ⟨.nil, .nil⟩
    | cons c cs ih =>
      obtain ⟨⟨printable, quote, backslash⟩, plain⟩ := List.forall_mem_cons.mp plain
      obtain ⟨inside, decodes⟩ := ih plain
      exact ⟨.cons (.plain printable quote backslash) inside, .char decodes⟩
  exact .text (elements _ plain).1 (elements _ plain).2

theorem hexValue?_eq {c : Char} {value : Nat} (digit : HexDigit c value) :
    Text.hexValue? c = some value := by
  have all : ∀ v < 16, Text.hexValue? (Nat.digitChar v) = some v ∧
      Text.hexValue? (Nat.digitChar v).toUpper = some v := by decide
  obtain ⟨bound, rfl | rfl⟩ := digit
  · exact (all value bound).1
  · exact (all value bound).2

theorem pieces_spelled {p : Piece} {cs rest behind : List Char} {ps : List Piece}
    (spells : Spells p cs) (read : Token.pieces rest = some (ps, behind)) :
    Token.pieces (cs ++ rest) = some (p :: ps, behind) := by
  cases spells with
  | @plain c printable quote backslash =>
    have printable : ¬ c < ' ' := by simpa [Char.lt_def, Char.le_def] using printable
    simp only [List.cons_append, List.nil_append]
    unfold Token.pieces
    split <;> simp_all
  | @escape letter c member =>
    simp only [shortEscapes, List.mem_cons, Prod.mk.injEq, List.not_mem_nil, or_false] at member
    rcases member with ⟨rfl, rfl⟩ | ⟨rfl, rfl⟩ | ⟨rfl, rfl⟩ | ⟨rfl, rfl⟩ | ⟨rfl, rfl⟩ | ⟨rfl, rfl⟩ |
      ⟨rfl, rfl⟩ | ⟨rfl, rfl⟩ <;> simp [Token.pieces, Token.escaped?, read]
  | unit a b c d =>
    simp [Token.pieces, Text.hexadecimal?, List.mapM_cons, hexValue?_eq a, hexValue?_eq b,
      hexValue?_eq c, hexValue?_eq d, Text.ofDigits, read]

theorem pieces_inside {ps : List Piece} {cs : List Char} (inside : Inside ps cs)
    (rest : List Char) : Token.pieces (cs ++ '"' :: rest) = some (ps, rest) := by
  induction inside with
  | nil => simp [Token.pieces]
  | cons spells _ ih =>
    rw [List.append_assoc]
    exact pieces_spelled spells ih

theorem unit_lt {ps : List Piece} {cs : List Char} (inside : Inside ps cs) :
    ∀ code, .unit code ∈ ps → code < 0x10000 := by
  induction inside with
  | nil => simp
  | cons spells _ ih =>
    intro code member
    rcases List.mem_cons.mp member with rfl | behind
    · cases spells with
      | unit a b c d =>
        have := a.1
        have := b.1
        have := c.1
        have := d.1
        omega
    · exact ih code behind

theorem toNat_ofNat {n : Nat} (valid : n.isValidChar) : (Char.ofNat n).toNat = n := by
  rw [Char.ofNat, dif_pos valid]
  rfl

theorem not_surrogate (c : Char) : Token.isLead c.toNat = false ∧ Token.isTrail c.toNat = false := by
  have valid : c.toNat.isValidChar := c.valid
  simp only [Nat.isValidChar] at valid
  simp only [Token.isLead, Token.isTrail, Bool.and_eq_false_iff, decide_eq_false_iff_not]
  omega

theorem spell_unit {code : Nat} {ps : List Piece} (lead : Token.isLead code = false)
    (trail : Token.isTrail code = false) :
    Token.spell (.unit code :: ps) = (Token.spell ps).map (Char.ofNat code :: ·) := by
  cases ps with
  | nil => simp [Token.spell, lead, trail]
  | cons p ps => cases p <;> simp [Token.spell, lead, trail]

theorem spell_eq {ps : List Piece} {cs : List Char} (decodes : Decodes ps cs) :
    Token.spell ps = some cs := by
  induction decodes with
  | nil => rfl
  | char _ ih => simp [Token.spell, ih]
  | @unit c ps cs small _ ih =>
    obtain ⟨lead, trail⟩ := not_surrogate c
    rw [spell_unit lead trail, ih, Char.ofNat_toNat]
    rfl
  | @pair c ps cs large _ ih =>
    have bound : c.toNat < 0x110000 := by
      have valid : c.toNat.isValidChar := c.valid
      simp only [Nat.isValidChar] at valid
      omega
    have lead : Token.isLead (0xd800 + (c.toNat - 0x10000) / 0x400) = true := by
      simp only [Token.isLead, Bool.and_eq_true, decide_eq_true_eq]
      omega
    have trail : Token.isTrail (0xdc00 + (c.toNat - 0x10000) % 0x400) = true := by
      simp only [Token.isTrail, Bool.and_eq_true, decide_eq_true_eq]
      omega
    have whole : Token.ofPair (0xd800 + (c.toNat - 0x10000) / 0x400)
        (0xdc00 + (c.toNat - 0x10000) % 0x400) = c := by
      have code : 0x10000 + (0xd800 + (c.toNat - 0x10000) / 0x400 - 0xd800) * 0x400 +
          (0xdc00 + (c.toNat - 0x10000) % 0x400 - 0xdc00) = c.toNat := by
        omega
      rw [Token.ofPair, code, Char.ofNat_toNat]
    simp only [Token.spell, lead, trail, ih, whole, Bool.and_self, if_true, Option.map_some]

theorem decodes_unit {code : Nat} {ps : List Piece} {cs : List Char}
    (plain : (Token.isLead code || Token.isTrail code) ≠ true) (small : code < 0x10000)
    (behind : Decodes ps cs) : Decodes (.unit code :: ps) (Char.ofNat code :: cs) := by
  have valid : code.isValidChar := by
    simp only [Token.isLead, Token.isTrail, ne_eq, Bool.or_eq_true, Bool.and_eq_true,
      decide_eq_true_eq] at plain
    simp only [Nat.isValidChar]
    omega
  have same := toNat_ofNat valid
  have decodes := Decodes.unit (same ▸ small) behind
  rwa [same] at decodes

theorem decodes_pair {lead trail : Nat} {ps : List Piece} {cs : List Char}
    (surrogates : (Token.isLead lead && Token.isTrail trail) = true) (behind : Decodes ps cs) :
    Decodes (.unit lead :: .unit trail :: ps) (Token.ofPair lead trail :: cs) := by
  simp only [Token.isLead, Token.isTrail, Bool.and_eq_true, decide_eq_true_eq] at surrogates
  have same : (Token.ofPair lead trail).toNat =
      0x10000 + (lead - 0xd800) * 0x400 + (trail - 0xdc00) := by
    refine toNat_ofNat ?_
    simp only [Nat.isValidChar]
    omega
  have decodes := Decodes.pair (c := Token.ofPair lead trail) (by omega) behind
  have lead_same : 0xd800 + ((Token.ofPair lead trail).toNat - 0x10000) / 0x400 = lead := by omega
  have trail_same : 0xdc00 + ((Token.ofPair lead trail).toNat - 0x10000) % 0x400 = trail := by
    omega
  rwa [lead_same, trail_same] at decodes

theorem decodes_of_spell {ps : List Piece} {cs : List Char} (spelled : Token.spell ps = some cs)
    (small : ∀ code, .unit code ∈ ps → code < 0x10000) : Decodes ps cs := by
  fun_induction Token.spell ps generalizing cs with
  | case1 =>
    cases spelled
    exact .nil
  | case2 c rest ih =>
    obtain ⟨tail, read, rfl⟩ := Option.map_eq_some_iff.mp spelled
    exact .char (ih read fun code member => small code (List.mem_cons_of_mem _ member))
  | case3 lead trail rest surrogates ih =>
    obtain ⟨tail, read, rfl⟩ := Option.map_eq_some_iff.mp spelled
    exact decodes_pair surrogates (ih read fun code member =>
      small code (List.mem_cons_of_mem _ (List.mem_cons_of_mem _ member)))
  | case4 | case6 => contradiction
  | case5 lead trail rest _ plain ih =>
    obtain ⟨tail, read, rfl⟩ := Option.map_eq_some_iff.mp spelled
    exact decodes_unit plain (small lead List.mem_cons_self)
      (ih read fun code member => small code (List.mem_cons_of_mem _ member))
  | case7 code rest _ plain ih =>
    obtain ⟨tail, read, rfl⟩ := Option.map_eq_some_iff.mp spelled
    exact decodes_unit plain (small code List.mem_cons_self)
      (ih read fun code member => small code (List.mem_cons_of_mem _ member))

theorem Quoted.covers {value : Option String} {cs : List Char} (quoted : Quoted value cs)
    (rest : List Char) : (Token.text value).Covers cs rest := by
  cases quoted with
  | @text s ps cs inside decodes =>
    refine ⟨_, _, rfl, rfl, ?_⟩
    have read := pieces_inside inside rest
    simp [Token.scan, read, spell_eq decodes]
  | @halved ps cs inside undecoded =>
    refine ⟨_, _, rfl, rfl, ?_⟩
    have read := pieces_inside inside rest
    have unspelled : Token.spell ps = none := by
      cases spelled : Token.spell ps with
      | none => rfl
      | some s => exact absurd (decodes_of_spell spelled (unit_lt inside)) (undecoded s)
    simp [Token.scan, read, unspelled]

/-! ## Numbers -/

/-- The digits before a point: a zero stands alone. -/
def Whole (cs : List Char) (n : Nat) : Prop :=
  Text.Numeral cs n ∧ (cs.head? = some '0' → cs = ['0'])

inductive Fraction : List Char → Prop
  | absent : Fraction []
  | present {ds : List Char} {n : Nat} : Text.Numeral ds n → Fraction ('.' :: ds)

inductive Exponent : List Char → Prop
  | absent : Exponent []
  | present {letter : Char} {sign ds : List Char} {n : Nat} : letter = 'e' ∨ letter = 'E' →
      sign ∈ [[], ['+'], ['-']] → Text.Numeral ds n → Exponent (letter :: (sign ++ ds))

/-- A number. Only one that is written without point and exponent, and is not minus zero, is an
integer. -/
inductive Number : Json → List Char → Prop
  | natural {cs : List Char} {n : Nat} : Whole cs n → Number (.integer n) cs
  | negative {cs : List Char} {n : Nat} : Whole cs n → 0 < n → Number (.integer (-n)) ('-' :: cs)
  | minusZero : Number .decimal ['-', '0']
  | decimal {sign cs fraction exponent : List Char} {n : Nat} : sign ∈ [[], ['-']] → Whole cs n →
      Fraction fraction → Exponent exponent → fraction ≠ [] ∨ exponent ≠ [] →
      Number .decimal (sign ++ (cs ++ (fraction ++ exponent)))

/-- What may follow a number without becoming part of it. -/
def Delimited (rest : List Char) : Prop :=
  ∀ c, rest.head? = some c → c.isDigit = false ∧ c ≠ '.' ∧ c ≠ 'e' ∧ c ≠ 'E'

theorem digits_append {ds rest : List Char} {n : Nat} (numeral : Text.Numeral ds n)
    (stops : ∀ c, rest.head? = some c → c.isDigit = false) :
    Token.digits (ds ++ rest) = some (ds, rest) := by
  have none_taken : rest.takeWhile Char.isDigit = [] ∧ rest.dropWhile Char.isDigit = rest := by
    cases rest with
    | nil => exact ⟨rfl, rfl⟩
    | cons c cs => simp [stops c rfl]
  simp [Token.digits, List.takeWhile_append_of_pos numeral.digits,
    List.dropWhile_append_of_pos numeral.digits, none_taken, numeral.nonempty]

theorem whole_append {cs rest : List Char} {n : Nat} (whole : Whole cs n)
    (stops : ∀ c, rest.head? = some c → c.isDigit = false) :
    Token.whole (cs ++ rest) = some (cs, rest) := by
  obtain ⟨numeral, alone⟩ := whole
  cases cs with
  | nil => exact absurd rfl numeral.nonempty
  | cons c cs =>
    by_cases zero : c = '0'
    · cases alone (congrArg some zero)
      rfl
    · have read := digits_append numeral stops
      rw [List.cons_append] at read ⊢
      unfold Token.whole
      split
      · next same => exact absurd (List.cons.inj same).1 zero
      · exact read

theorem fraction_append {fraction rest : List Char} (form : Fraction fraction)
    (stops : ∀ c, rest.head? = some c → c.isDigit = false ∧ c ≠ '.') :
    Token.fraction (fraction ++ rest) = some (!fraction.isEmpty, rest) := by
  cases form with
  | absent =>
    rw [List.nil_append]
    unfold Token.fraction
    split
    · exact absurd rfl (stops '.' rfl).2
    · rfl
  | present numeral =>
    simp [Token.fraction, digits_append numeral fun c first => (stops c first).1]

theorem dropSign_append {sign ds rest : List Char} {n : Nat} (member : sign ∈ [[], ['+'], ['-']])
    (numeral : Text.Numeral ds n) : Token.dropSign (sign ++ (ds ++ rest)) = ds ++ rest := by
  simp only [List.mem_cons, List.not_mem_nil, or_false] at member
  obtain rfl | rfl | rfl := member
  · cases ds with
    | nil => exact absurd rfl numeral.nonempty
    | cons d ds =>
      have digit := numeral.digits d List.mem_cons_self
      rw [List.nil_append, List.cons_append]
      unfold Token.dropSign
      split
      · next same => exact absurd ((List.cons.inj same).1 ▸ digit) (by decide)
      · next same => exact absurd ((List.cons.inj same).1 ▸ digit) (by decide)
      · rfl
  · rfl
  · rfl

theorem exponent_append {exponent rest : List Char} (form : Exponent exponent)
    (delimited : Delimited rest) :
    Token.exponent (exponent ++ rest) = some (!exponent.isEmpty, rest) := by
  cases form with
  | absent =>
    rw [List.nil_append]
    unfold Token.exponent
    split
    · exact absurd rfl (delimited 'e' rfl).2.2.1
    · exact absurd rfl (delimited 'E' rfl).2.2.2
    · rfl
  | present either sign numeral =>
    have read := digits_append numeral fun c first => (delimited c first).1
    rcases either with rfl | rfl <;>
      simp [Token.exponent, List.append_assoc, dropSign_append sign numeral, read]

theorem exponent_head {exponent rest : List Char} (form : Exponent exponent)
    (delimited : Delimited rest) :
    ∀ c, (exponent ++ rest).head? = some c → c.isDigit = false ∧ c ≠ '.' := by
  intro c first
  cases form with
  | absent => exact ⟨(delimited c first).1, (delimited c first).2.1⟩
  | present either =>
    cases first
    rcases either with rfl | rfl <;> decide

theorem fraction_head {fraction rest : List Char} (form : Fraction fraction)
    (stops : ∀ c, rest.head? = some c → c.isDigit = false ∧ c ≠ '.') :
    ∀ c, (fraction ++ rest).head? = some c → c.isDigit = false := by
  intro c first
  cases form with
  | absent => exact (stops c first).1
  | present =>
    cases first
    decide

/-- A number is read up to its end, and it is an integer if it has neither point nor exponent. -/
theorem number_append {cs fraction exponent rest : List Char} {n : Nat} (negative : Bool)
    (whole : Whole cs n) (point : Fraction fraction) (power : Exponent exponent)
    (delimited : Delimited rest) :
    Token.number negative (cs ++ (fraction ++ (exponent ++ rest))) =
      some (.scalar (if fraction.isEmpty && exponent.isEmpty && !(negative && n == 0)
        then .integer (if negative then -n else n) else .decimal), rest) := by
  have behind := exponent_head power delimited
  simp [Token.number, whole_append whole (fraction_head point behind),
    fraction_append point behind, exponent_append power delimited, whole.1.decimal?]

theorem scan_digit {c : Char} (digit : c.isDigit = true) (rest : List Char) :
    Token.scan c rest = Token.number false (c :: rest) := by
  unfold Token.scan
  split
  case h_12 => rw [if_pos digit]
  all_goals exact absurd digit (by decide)

theorem scan_whole {cs : List Char} {n : Nat} (whole : Whole cs n) : ∃ c tail, cs = c :: tail ∧
    Token.isSpace c = false ∧
    ∀ rest, Token.scan c (tail ++ rest) = Token.number false (cs ++ rest) := by
  cases cs with
  | nil => exact absurd rfl whole.1.nonempty
  | cons c tail =>
    have digit := whole.1.digits c List.mem_cons_self
    refine ⟨c, tail, rfl, ?_, fun rest => scan_digit digit _⟩
    simp only [Token.isSpace, Bool.or_eq_false_iff, decide_eq_false_iff_not]
    refine ⟨⟨⟨?_, ?_⟩, ?_⟩, ?_⟩ <;> (rintro rfl; contradiction)

theorem Number.covers {json : Json} {cs rest : List Char} (number : Number json cs)
    (delimited : Delimited rest) : (Token.scalar json).Covers cs rest := by
  have minus (tail : List Char) : Token.scan '-' tail = Token.number true tail := by
    simp [Token.scan]
  cases number with
  | natural whole =>
    obtain ⟨c, tail, same, solid, read⟩ := scan_whole whole
    refine ⟨c, tail, same, solid, ?_⟩
    simpa [read] using number_append false whole .absent .absent delimited
  | negative whole positive =>
    refine ⟨'-', _, rfl, rfl, ?_⟩
    rw [minus]
    simpa [Nat.ne_of_gt positive] using number_append true whole .absent .absent delimited
  | minusZero =>
    refine ⟨'-', _, rfl, rfl, ?_⟩
    rw [minus]
    have zero : Whole ['0'] 0 := ⟨Text.numeral_digit rfl, fun _ => rfl⟩
    simpa using number_append true zero .absent .absent delimited
  | @decimal sign cs fraction exponent n signed whole point power nonempty =>
    have fractional : (fraction.isEmpty && exponent.isEmpty) = false := by
      rcases nonempty with present | present <;> simp [present]
    have read (negative : Bool) := number_append negative whole point power delimited
    simp only [fractional, Bool.false_and, Bool.false_eq_true, if_false] at read
    simp only [List.mem_cons, List.not_mem_nil, or_false] at signed
    obtain rfl | rfl := signed
    · obtain ⟨c, tail, rfl, solid, starts⟩ := scan_whole whole
      refine ⟨c, tail ++ (fraction ++ exponent), rfl, solid, ?_⟩
      rw [List.append_assoc, List.append_assoc, starts]
      exact read false
    · refine ⟨'-', cs ++ (fraction ++ exponent), rfl, rfl, ?_⟩
      rw [minus, List.append_assoc, List.append_assoc]
      exact read true

end ShiftReduce.Json
