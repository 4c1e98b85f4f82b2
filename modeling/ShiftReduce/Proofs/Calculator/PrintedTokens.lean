import ShiftReduce.Proofs.Calculator.Lexing

namespace ShiftReduce.Calculator

namespace Token

/-- The token is one that a source can hold. -/
def Writable : Token → Prop
  | .number n => n < Word.signedLimit
  | .ident name => Kind.name.Matches name.toList
  | .mark c => Kind.other.Matches [c]

/-- What a token is printed as. A number may have any number of zeros in front. -/
inductive Spelt : Token → List Char → Prop where
  | number (zeros n : Nat) : Spelt (.number n) (List.replicate zeros '0' ++ Nat.toDigits 10 n)
  | ident (name : String) : Spelt (.ident name) name.toList
  | mark (c : Char) : Spelt (.mark c) [c]

end Token

/-- A text that prints the tokens in order. Blanks stand between neighbours, and a comment may
stand in front of a newline and at the end. The flag says that no token has been printed before,
from which blanks would have to keep the next one apart. -/
inductive Printed : Bool → List Token → List Char → Prop where
  | done {first : Bool} {blanks note : List Char} (blank : ∀ c ∈ blanks, Blank c)
      (comment : note = [] ∨ Kind.comment.Matches note) : Printed first [] (blanks ++ note)
  | token {first : Bool} {t : Token} {ts : List Token} {blanks note text more : List Char}
      (blank : ∀ c ∈ blanks, Blank c) (apart : first = false → blanks ≠ [])
      (comment : note = [] ∨ t = .newline ∧ Kind.comment.Matches note) (spelt : t.Spelt text)
      (behind : Printed false ts more) :
      Printed first (t :: ts) (blanks ++ (note ++ (text ++ more)))

/-- The newline that the tokens lack at their end. -/
def lacking (ts : List Token) : List Token :=
  match ts.getLast? with
  | none => []
  | some last => if last = .newline then [] else [.newline]

variable {t : Token} {ts : List Token} {text more note blanks : List Char}

/-- The text goes on with a blank or a comment, if it goes on. -/
def Bounded (more : List Char) : Prop := ∀ c ∈ more.head?, Blank c ∨ c = '#'

theorem Printed.bounded (printed : Printed false ts more) : Bounded more := by
  intro c first
  cases printed with
  | @done _ blanks note blank comment =>
    cases blanks with
    | cons b blanks =>
      cases first
      exact .inl (blank c (by simp))
    | nil =>
      rcases comment with rfl | ⟨_, rfl, _⟩
      · contradiction
      · cases first
        exact .inr rfl
  | @token _ t ts blanks note text more blank apart =>
    cases blanks with
    | nil => exact absurd rfl (apart rfl)
    | cons b blanks =>
      cases first
      exact .inl (blank c (by simp))

/-- What keeps tokens apart belongs to no run but one of blanks or a comment. -/
theorem Bounded.ends {kind : Kind} (bounded : Bounded more) (solid : kind ≠ .blank)
    (uncommented : kind ≠ .comment) : more.takeWhile kind.takes = [] := by
  cases more with
  | nil => rfl
  | cons c more =>
    have refused : kind.takes c = false := by
      rcases bounded c rfl with blank | rfl
      · rcases blank with rfl | rfl | rfl <;> cases kind <;> simp_all <;> decide
      · cases kind <;> simp_all <;> decide
    simp [refused]

theorem tokens_blanks (blank : ∀ c ∈ blanks, Blank c) (more : List Char) :
    tokens (blanks ++ more) = tokens more := by
  induction blanks with
  | nil => rfl
  | cons c blanks ih =>
    obtain ⟨first, later⟩ := List.forall_mem_cons.mp blank
    rw [List.cons_append, tokens_blank (isSpace_iff.mpr first), ih later]

/-- A comment reaches up to the next newline. -/
theorem tokens_note (comment : Kind.comment.Matches note) (ended : ∀ c ∈ more.head?, c = '\n') :
    tokens (note ++ more) = tokens more := by
  obtain ⟨words, rfl, inside⟩ := comment
  have taken : ∀ c ∈ words, (c != '\n') = true := by
    intro c member
    simpa using ne_of_mem_of_not_mem member inside
  rw [List.cons_append, tokens_comment, List.dropWhile_append_of_pos taken]
  cases more with
  | nil => rfl
  | cons c more => simp [ended c rfl]

/-- A run that is followed by nothing that it could take is cut off as a whole. -/
theorem tokens_run {kind : Kind} (run : kind.Matches text)
    (ends : more.takeWhile kind.takes = []) (made : Piece.token? ⟨kind, text⟩ = some t) :
    tokens (text ++ more) = t :: tokens more := by
  cases text with
  | nil => exact absurd rfl run.ne_nil
  | cons c cs =>
    obtain ⟨rfl, taken⟩ := run.begins
    have kept : more.dropWhile (Kind.ofChar c).takes = more := by
      have split := List.takeWhile_append_dropWhile (p := (Kind.ofChar c).takes) (l := more)
      rwa [ends] at split
    rw [List.cons_append, tokens_of_token (t := t), List.dropWhile_append_of_pos taken, kept]
    rw [List.takeWhile_append_of_pos taken, ends, List.append_nil]
    exact made

theorem decimal_padded (zeros n : Nat) :
    decimal (List.replicate zeros '0' ++ Nat.toDigits 10 n) = n := by
  have value : Nat.ofDigitChars 10 (List.replicate zeros '0' ++ Nat.toDigits 10 n) 0 = n := by
    simp [Nat.ofDigitChars_append, Nat.ofDigitChars_replicate_zero]
  rwa [Nat.ofDigitChars_eq_foldl] at value

theorem digits_padded (zeros n : Nat) :
    Kind.digits.Matches (List.replicate zeros '0' ++ Nat.toDigits 10 n) := by
  refine ⟨by simp [Nat.toDigits_ne_nil], ?_⟩
  intro c member
  rcases List.mem_append.mp member with zero | digit
  · rw [List.eq_of_mem_replicate zero]
    decide
  · exact isDigit_iff.mp (Nat.isDigit_of_mem_toDigits (by decide) (by decide) digit)

/-- A token is read from what it is printed as. -/
theorem Token.Spelt.tokens (spelt : t.Spelt text) (writable : t.Writable) (bounded : Bounded more) :
    tokens (text ++ more) = t :: tokens more := by
  cases spelt with
  | number zeros n =>
    apply tokens_run (digits_padded zeros n) (bounded.ends (by simp) (by simp))
    simp [Piece.token?, decimal_padded]
  | ident name =>
    have run : Kind.name.Matches name.toList := writable
    apply tokens_run run (bounded.ends (by simp) (by simp))
    simp [Piece.token?]
  | mark c =>
    have run : Kind.other.Matches [c] := writable
    exact tokens_run run (bounded.ends (by simp) (by simp)) rfl

/-- Whatever is printed between the tokens, they are what is read. -/
theorem Printed.tokens {first : Bool} (printed : Printed first ts text)
    (writable : ∀ t ∈ ts, t.Writable) : tokens text = ts := by
  induction printed with
  | @done _ blanks note blank comment =>
    rw [tokens_blanks blank]
    rcases comment with rfl | comment
    · rfl
    · have silent : Calculator.tokens (note ++ []) = Calculator.tokens [] :=
        tokens_note comment (by simp)
      rwa [List.append_nil] at silent
  | @token _ t ts blanks note text more blank _ comment spelt behind ih =>
    obtain ⟨head, tail⟩ := List.forall_mem_cons.mp writable
    have read : Calculator.tokens (text ++ more) = t :: ts := by
      rw [spelt.tokens head behind.bounded, ih tail]
    rw [tokens_blanks blank, ← read]
    rcases comment with rfl | ⟨rfl, comment⟩
    · rfl
    · cases spelt
      exact tokens_note comment (by simp)

theorem Token.Writable.fits (writable : t.Writable) : t.Fits := by
  cases t with
  | number n => exact fitsSigned_natCast.mpr writable
  | ident | mark => trivial

theorem closeLine_lacking (ts : List Token) : closeLine false ts = ts ++ lacking ts := by
  suffices ∀ lineOpen, closeLine lineOpen ts = ts ++
      if (ts.getLast?.elim lineOpen fun last => last != .newline) then [.newline] else [] by
    rw [this false, lacking]
    cases ts.getLast? with
    | none => rfl
    | some last => by_cases newline : last = .newline <;> simp [newline]
  induction ts with
  | nil =>
    intro lineOpen
    rfl
  | cons t ts ih =>
    intro lineOpen
    rw [closeLine, ih, List.getLast?_cons]
    cases ts.getLast? <;> rfl

/-- A call delivers the first of the tokens that the scanner has in front of it, if none is too
large, and leaves the others. -/
theorem Scanner.next_tokens (s : Scanner) (fits : ∀ t ∈ s.tokens, t.Fits) :
    s.next.1 = .ok ((s.tokens[0]?.map Token.lexeme).getD .atEnd) ∧
      s.next.2.tokens = s.tokens.drop 1 := by
  have delivers := s.next_delivers
  generalize s.next = call at delivers
  generalize s.tokens = pending at delivers fits
  cases delivers with
  | atEnd left => exact ⟨rfl, left⟩
  | token _ left => exact ⟨rfl, left⟩
  | tooLarge large => exact absurd (fits _ (by simp)) large

theorem calls_tokens (shown : Nat → Status Value) {source : Scanner}
    (fits : ∀ t ∈ source.tokens, t.Fits) (k : Nat) :
    (lexer.answers shown source k).1 = .ok ((source.tokens[k]?.map Token.lexeme).getD .atEnd) ∧
      (lexer.answers shown source k).2.tokens = source.tokens.drop (k + 1) := by
  induction k with
  | zero => exact source.next_tokens fits
  | succ k ih =>
    obtain ⟨_, left⟩ := ih
    have later : ∀ t ∈ (lexer.answers shown source k).2.tokens, t.Fits := by
      intro t member
      rw [left] at member
      exact fits t (List.mem_of_mem_drop member)
    obtain ⟨answer, rest⟩ := Scanner.next_tokens _ later
    rw [left] at answer rest
    rw [answers_succ]
    exact ⟨by simpa using answer, by simpa using rest⟩

/-- Lexing undoes printing. From a text in which tokens are printed, with whatever blanks, comments
and zeros, successive calls of the lexer read these tokens with their values, then a newline if
there are tokens and the last one is none, and then the end of the input for ever. -/
theorem lexing_undoes_printing {ts : List Token} {source : String}
    (printed : Printed true ts source.toList) (writable : ∀ t ∈ ts, t.Writable)
    (shown : Nat → Status Value) (k : Nat) :
    (lexer.answers shown (.ofSource source) k).1 =
      .ok (((ts ++ lacking ts)[k]?.map Token.lexeme).getD .atEnd) := by
  have ahead : (Scanner.ofSource source).tokens = closeLine false ts :=
    congrArg (closeLine false) (printed.tokens writable)
  have fits : ∀ t ∈ (Scanner.ofSource source).tokens, t.Fits := by
    rw [ahead]
    exact fits_closeLine.mpr fun t member => (writable t member).fits
  rw [(calls_tokens shown fits k).1, ahead, closeLine_lacking]

/-- A name, a number with zeros in front, a comment at the end of the line, and a stray character
with another comment. -/
theorem sample_printed : Printed true [.ident "x", .number 7, .newline, .mark 'é']
    "x 007 #n\n\té#z".toList := by
  have done : Printed false [] ([] ++ ['#', 'z']) := .done (by simp) (.inr ⟨['z'], rfl, by simp⟩)
  have stray : Printed false [.mark 'é'] (['\t'] ++ ([] ++ (['é'] ++ ['#', 'z']))) :=
    .token (by simp [Blank]) (by simp) (.inl rfl) (.mark 'é') done
  have line : Printed false [.newline, .mark 'é']
      ([' '] ++ (['#', 'n'] ++ (['\n'] ++ ['\t', 'é', '#', 'z']))) :=
    .token (by simp [Blank]) (by simp) (.inr ⟨rfl, ['n'], rfl, by simp⟩) (.mark '\n') stray
  have number : Printed false [.number 7, .newline, .mark 'é']
      ([' '] ++ ([] ++ (['0', '0', '7'] ++ [' ', '#', 'n', '\n', '\t', 'é', '#', 'z']))) :=
    .token (by simp [Blank]) (by simp) (.inl rfl) (.number 2 7) line
  change Printed true _ ([] ++ ([] ++ ("x".toList ++ " 007 #n\n\té#z".toList)))
  exact .token (by simp) (by simp) (.inl rfl) (.ident "x") number

theorem sample_read : Printed true [.ident "x", .number 7, .newline, .mark 'é']
      "x 007 #n\n\té#z".toList ∧
    (∀ t ∈ ([.ident "x", .number 7, .newline, .mark 'é'] : List Token), t.Writable) ∧
    ∀ shown, (List.range 7).map (fun k =>
        (lexer.answers shown (.ofSource "x 007 #n\n\té#z") k).1.toOption) =
      [some ⟨"VAR", some (.ident "x")⟩, some ⟨"NUM", some (.number 7)⟩, some ⟨"\n", none⟩,
        some ⟨"é", none⟩, some ⟨"\n", none⟩, some .atEnd, some .atEnd] := by
  have writable : ∀ t ∈ ([.ident "x", .number 7, .newline, .mark 'é'] : List Token),
      t.Writable := by
    simp [Token.Writable, Kind.Matches, Blank, Letter, Digit, Word.signedLimit]
  refine ⟨sample_printed, writable, ?_⟩
  intro shown
  simp only [lexing_undoes_printing sample_printed writable shown]
  decide

end ShiftReduce.Calculator
