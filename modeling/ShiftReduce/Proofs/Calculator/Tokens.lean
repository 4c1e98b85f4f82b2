import ShiftReduce.Calculator.Lexer
import ShiftReduce.Proofs.Numerals

/-! A source is cut from left to right into runs, each as long as its kind allows. What is neither a
blank nor a comment is a token. -/

namespace ShiftReduce.Calculator

/-- The kinds of runs. A run of the last kind is a single character. -/
inductive Kind where
  | blank
  | comment
  | digits
  | name
  | other
  deriving DecidableEq, Repr

namespace Kind

def ofChar (c : Char) : Kind :=
  if isSpace c then .blank
  else if c = '#' then .comment
  else if c.isDigit then .digits
  else if isNameStart c then .name
  else .other

def takes : Kind → Char → Bool
  | .blank, c => isSpace c
  | .comment, c => c != '\n'
  | .digits, c => c.isDigit
  | .name, c => isNamePart c
  | .other, _ => false

end Kind

structure Piece where
  kind : Kind
  text : List Char
  deriving DecidableEq, Repr

def munchFrom (kind : Kind) (text : List Char) : List Char → List Piece
  | [] => [⟨kind, text⟩]
  | c :: cs =>
    if kind.takes c then munchFrom kind (text ++ [c]) cs
    else ⟨kind, text⟩ :: munchFrom (.ofChar c) [c] cs

def munch : List Char → List Piece
  | [] => []
  | c :: cs => munchFrom (.ofChar c) [c] cs

theorem munchFrom_eq (kind : Kind) (text cs : List Char) : munchFrom kind text cs =
    ⟨kind, text ++ cs.takeWhile kind.takes⟩ :: munch (cs.dropWhile kind.takes) := by
  induction cs generalizing text with
  | nil => simp [munchFrom, munch]
  | cons c cs ih =>
    unfold munchFrom
    split
    · next takes => simp [ih, takes]
    · next refuses => simp [refuses, munch]

theorem munch_cons (c : Char) (cs : List Char) : munch (c :: cs) =
    ⟨.ofChar c, c :: cs.takeWhile (Kind.ofChar c).takes⟩ ::
      munch (cs.dropWhile (Kind.ofChar c).takes) :=
  munchFrom_eq _ _ _

theorem munchFrom_length (kind : Kind) (text cs : List Char) :
    (munchFrom kind text cs).length ≤ cs.length + 1 := by
  induction cs generalizing kind text with
  | nil => simp [munchFrom]
  | cons c cs ih =>
    unfold munchFrom
    split
    · exact Nat.le_succ_of_le (ih _ _)
    · exact Nat.succ_le_succ (ih _ _)

theorem munch_length (cs : List Char) : (munch cs).length ≤ cs.length := by
  cases cs with
  | nil => simp [munch]
  | cons c cs => exact munchFrom_length _ _ cs

/-- A word of the calculator's language. Every character that begins no longer token is one. -/
inductive Token where
  | number (n : Nat)
  | ident (name : String)
  | mark (c : Char)
  deriving DecidableEq, Repr

namespace Token

def name : Token → String
  | .number _ => Terminal.number.name
  | .ident _ => Terminal.ident.name
  | .mark c => String.singleton c

def value : Token → Option Value
  | .number n => some (.number n)
  | .ident name => some (.ident name)
  | .mark _ => none

def lexeme (t : Token) : Lexeme Value := ⟨t.name, t.value⟩

/-- Whether the token is no number that is too large for a word. -/
def Fits : Token → Prop
  | .number n => Word.fitsSigned n = true
  | .ident _ | .mark _ => True

instance : DecidablePred Fits := fun t => by
  cases t <;> unfold Fits <;> infer_instance

abbrev newline : Token := .mark '\n'

theorem name_ne_end (t : Token) : t.name ≠ endToken := by
  cases t with
  | number | ident => simp [name, Terminal.name, endToken]
  | mark c => simp [name, endToken]

end Token

def decimal (digits : List Char) : Nat :=
  digits.foldl (fun n c => 10 * n + (c.toNat - '0'.toNat)) 0

def Piece.token? : Piece → Option Token
  | ⟨.blank, _⟩ | ⟨.comment, _⟩ => none
  | ⟨.digits, text⟩ => some (.number (decimal text))
  | ⟨.name, text⟩ => some (.ident (String.ofList text))
  | ⟨.other, text⟩ => text.head?.map .mark

def tokens (source : List Char) : List Token := (munch source).filterMap Piece.token?

@[simp] theorem tokens_nil : tokens [] = [] := rfl

theorem tokens_of_token {c : Char} {cs : List Char} {t : Token}
    (same : Piece.token? ⟨.ofChar c, c :: cs.takeWhile (Kind.ofChar c).takes⟩ = some t) :
    tokens (c :: cs) = t :: tokens (cs.dropWhile (Kind.ofChar c).takes) := by
  simp [tokens, munch_cons, same]

theorem tokens_blank {c : Char} {cs : List Char} (blank : isSpace c = true) :
    tokens (c :: cs) = tokens cs := by
  have kind : Kind.ofChar c = .blank := by simp [Kind.ofChar, blank]
  have skipped (d : Char) (ds : List Char) (same : Kind.ofChar d = .blank) :
      tokens (d :: ds) = tokens (ds.dropWhile isSpace) := by
    have takes : Kind.blank.takes = isSpace := rfl
    simp only [tokens, munch_cons, same, takes]
    rfl
  rw [skipped c cs kind]
  cases cs with
  | nil => rfl
  | cons d ds =>
    by_cases more : isSpace d = true
    · rw [skipped d ds (by simp [Kind.ofChar, more])]
      simp [more]
    · simp [more]

theorem tokens_comment (cs : List Char) : tokens ('#' :: cs) = tokens (cs.dropWhile (· != '\n')) := by
  have kind : Kind.ofChar '#' = .comment := by decide
  have takes : Kind.comment.takes = (· != '\n') := rfl
  simp only [tokens, munch_cons, kind, takes]
  rfl

theorem skip_comment (cs : List Char) : skip true cs = cs.dropWhile (· != '\n') := by
  induction cs with
  | nil => rfl
  | cons c cs ih =>
    by_cases last : c = '\n'
    · simp [skip, last]
    · simp [skip, last, ih]

theorem tokens_skip (cs : List Char) : tokens (skip false cs) = tokens cs := by
  induction cs with
  | nil => rfl
  | cons c cs ih =>
    simp only [skip, Bool.false_eq_true, if_false]
    split
    · next blank => rw [ih, tokens_blank blank]
    · split
      · next comment => rw [comment, skip_comment, tokens_comment]
      · rfl

/-- What the scanner does not skip begins a token. -/
theorem skip_head {inComment : Bool} {cs rest : List Char} {c : Char}
    (skipped : skip inComment cs = c :: rest) : isSpace c = false ∧ c ≠ '#' := by
  induction cs generalizing inComment with
  | nil => simp [skip] at skipped
  | cons d ds ih =>
    unfold skip at skipped
    split at skipped
    · split at skipped
      · next newline =>
        obtain ⟨rfl, _⟩ := List.cons.inj skipped
        subst newline
        decide
      · exact ih skipped
    · split at skipped
      · exact ih skipped
      · next solid =>
        split at skipped
        · exact ih skipped
        · next other =>
          obtain ⟨rfl, _⟩ := List.cons.inj skipped
          exact ⟨by simpa using solid, other⟩

theorem decimal?_eq {digits : List Char} (nonempty : digits ≠ [])
    (all : ∀ c ∈ digits, c.isDigit = true) : Text.decimal? digits = some (decimal digits) :=
  Text.Numeral.decimal? ⟨nonempty, all, Nat.ofDigitChars_eq_foldl⟩

/-- The newline that the last line lacks. -/
def closeLine : Bool → List Token → List Token
  | lineOpen, [] => if lineOpen then [.newline] else []
  | _, t :: ts => t :: closeLine (t != .newline) ts

/-- Either nothing is left, or the last token is a newline. -/
def Closed (ts : List Token) : Prop := ∀ t ∈ ts.getLast?, t = .newline

theorem Closed.of_append (ts : List Token) {us : List Token} (closed : Closed (ts ++ us)) :
    Closed us := by
  intro t last
  apply closed
  rw [Option.mem_def] at last ⊢
  simp [List.getLast?_append, last]

theorem Closed.tail {t : Token} {ts : List Token} (closed : Closed (t :: ts)) : Closed ts :=
  Closed.of_append [t] closed

/-- A line goes on behind every other token than a newline. -/
theorem Closed.more {t : Token} {ts : List Token} (closed : Closed (t :: ts))
    (inside : t ≠ .newline) : ∃ u us, ts = u :: us := by
  cases ts with
  | nil => exact absurd (closed t rfl) inside
  | cons u us => exact ⟨u, us, rfl⟩

theorem closeLine_closed (lineOpen : Bool) (ts : List Token) : Closed (closeLine lineOpen ts) := by
  induction ts generalizing lineOpen with
  | nil => cases lineOpen <;> simp [Closed, closeLine]
  | cons t ts ih =>
    intro last member
    rw [closeLine, Option.mem_def, List.getLast?_cons] at member
    cases rest : (closeLine (t != .newline) ts).getLast? with
    | some u =>
      rw [rest] at member
      cases member
      exact ih _ _ rest
    | none =>
      rw [rest] at member
      cases member
      by_cases inside : t = .newline
      · exact inside
      · rw [List.getLast?_eq_none_iff] at rest
        have inside : (t != .newline) = true := by simpa using inside
        rw [inside] at rest
        cases ts <;> simp [closeLine] at rest

/-- A source whose last line is complete needs no further newline. -/
theorem closeLine_eq {ts : List Token} (closed : Closed ts) : closeLine false ts = ts := by
  suffices ∀ lineOpen, (lineOpen = true → ts ≠ []) → closeLine lineOpen ts = ts from
    this false (by simp)
  induction ts with
  | nil => simp [closeLine]
  | cons t ts ih =>
    intro lineOpen _
    rw [closeLine, ih closed.tail]
    intro inside
    obtain ⟨u, us, rfl⟩ := closed.more (by simpa using inside)
    simp

/-- Closing a line adds no number. -/
theorem fits_closeLine {lineOpen : Bool} {ts : List Token} :
    (∀ t ∈ closeLine lineOpen ts, t.Fits) ↔ ∀ t ∈ ts, t.Fits := by
  induction ts generalizing lineOpen with
  | nil => cases lineOpen <;> simp [closeLine, Token.Fits]
  | cons t ts ih => simp [closeLine, ih]

theorem closeLine_length (lineOpen : Bool) (ts : List Token) :
    (closeLine lineOpen ts).length ≤ ts.length + 1 := by
  induction ts generalizing lineOpen with
  | nil => cases lineOpen <;> simp [closeLine]
  | cons t ts ih => exact Nat.succ_le_succ (ih _)

namespace Scanner

/-- The tokens that a scanner will deliver, the supplied newline among them. -/
def tokens (s : Scanner) : List Token := closeLine s.lineOpen (Calculator.tokens s.rest)

/-- What a scanner does: it delivers a token, or fails at a number that is too large, and behind
the last token it delivers the end of the input. -/
inductive Delivery : List Token → Except Error (Lexeme Value) × Scanner → Prop where
  | atEnd {s : Scanner} (left : s.tokens = []) : Delivery [] (.ok .atEnd, s)
  | token {t : Token} {ts : List Token} {s : Scanner} (fits : t.Fits) (left : s.tokens = ts) :
      Delivery (t :: ts) (.ok t.lexeme, s)
  | tooLarge {t : Token} {ts : List Token} {s : Scanner} (large : ¬ t.Fits) :
      Delivery (t :: ts) (.error .numberTooLarge, s)

theorem finish_delivers (s : Scanner) :
    Delivery (closeLine s.lineOpen []) (.ok s.finish.1, s.finish.2) := by
  unfold finish closeLine
  split
  · exact .token (t := .newline) trivial rfl
  · next closed => exact .atEnd (by simp [tokens, closeLine, closed])

theorem number_delivers (s : Scanner) {text rest : List Char} (nonempty : text ≠ [])
    (digits : ∀ c ∈ text, c.isDigit = true) :
    Delivery (.number (decimal text) :: closeLine true (Calculator.tokens rest))
      (s.number text rest) := by
  unfold number
  rw [decimal?_eq nonempty digits]
  dsimp only [Option.getD_some]
  split
  · next fits => exact .token (t := .number _) fits rfl
  · next large => exact .tooLarge (t := .number _) large

/-- The scanner delivers the tokens of its source, closed by a newline, in their order. -/
theorem next_delivers (s : Scanner) : Delivery s.tokens s.next := by
  unfold tokens next
  rw [← tokens_skip]
  cases skipped : skip false s.rest with
  | nil => exact s.finish_delivers
  | cons c cs =>
    obtain ⟨solid, uncommented⟩ := skip_head skipped
    dsimp only
    split
    · next digit =>
      have kind : Kind.ofChar c = .digits := by simp [Kind.ofChar, solid, uncommented, digit]
      rw [tokens_of_token (t := .number _) (by rw [kind]; rfl), kind]
      refine s.number_delivers (by simp) (List.forall_mem_cons.mpr ⟨digit, fun d member => ?_⟩)
      exact List.all_eq_true.mp List.all_takeWhile d member
    · split
      · next letterless letter =>
        have kind : Kind.ofChar c = .name := by
          simp [Kind.ofChar, solid, uncommented, letterless, letter]
        rw [tokens_of_token (t := .ident _) (by rw [kind]; rfl), kind]
        exact .token (t := .ident _) trivial rfl
      · next digitless letterless =>
        have kind : Kind.ofChar c = .other := by
          simp [Kind.ofChar, solid, uncommented, digitless, letterless]
        rw [tokens_of_token (t := .mark c) (by rw [kind]; rfl), kind]
        have single : cs.dropWhile Kind.other.takes = cs := by cases cs <;> rfl
        have inside : (Token.mark c != .newline) = (c != '\n') := by
          rw [Bool.eq_iff_iff]
          simp
        refine .token (t := .mark c) trivial ?_
        rw [single, inside]
        rfl

/-- No token is without a character of its own, but for the supplied newline. -/
theorem tokens_length (s : Scanner) : s.tokens.length ≤ s.rest.length + 1 :=
  calc s.tokens.length
    _ ≤ (Calculator.tokens s.rest).length + 1 := closeLine_length _ _
    _ ≤ (munch s.rest).length + 1 := Nat.succ_le_succ (List.length_filterMap_le _ _)
    _ ≤ s.rest.length + 1 := Nat.succ_le_succ (munch_length _)

end Scanner

end ShiftReduce.Calculator
