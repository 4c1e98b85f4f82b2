import ShiftReduce.Proofs.Calculator.Streams
import ShiftReduce.Proofs.Calculator.Unfinished

/-! Of every source there is one decomposition into runs that are each as long as can be. The lexer
goes through it from left to right, one token at a call, and always stops behind a whole run, also
behind a number that it fails at. -/

namespace ShiftReduce.Calculator

def Digit (c : Char) : Prop := '0' ≤ c ∧ c ≤ '9'

def Letter (c : Char) : Prop := ('A' ≤ c ∧ c ≤ 'Z') ∨ ('a' ≤ c ∧ c ≤ 'z') ∨ c = '_'

def Blank (c : Char) : Prop := c = ' ' ∨ c = '\t' ∨ c = '\r'

/-- Whether a text is a run of the kind. A character that begins no other run is one by itself. -/
def Kind.Matches : Kind → List Char → Prop
  | .blank, text => text ≠ [] ∧ ∀ c ∈ text, Blank c
  | .comment, text => ∃ note, text = '#' :: note ∧ '\n' ∉ note
  | .digits, text => text ≠ [] ∧ ∀ c ∈ text, Digit c
  | .name, text => ∃ c cs, text = c :: cs ∧ Letter c ∧ ∀ d ∈ cs, Letter d ∨ Digit d
  | .other, text => ∃ c, text = [c] ∧ ¬ Blank c ∧ c ≠ '#' ∧ ¬ Digit c ∧ ¬ Letter c

/-- The decomposition of a text from left to right, where no run could be longer. -/
inductive Decomposes : List Char → List Piece → Prop where
  | nil : Decomposes [] []
  | cons {piece : Piece} {text : List Char} {pieces : List Piece}
      (run : piece.kind.Matches piece.text)
      (longest : ∀ kind longer, Kind.Matches kind longer → longer <+: piece.text ++ text →
        longer.length ≤ piece.text.length)
      (behind : Decomposes text pieces) : Decomposes (piece.text ++ text) (piece :: pieces)

/-- The answer of the lexer to a call. -/
abbrev Answer := Except Error (Lexeme Value)

/-- What is to be answered at a run: nothing where it is skipped, and an error where it is a number
beyond the words. -/
def Piece.answer? : Piece → Option Answer
  | ⟨.blank, _⟩ | ⟨.comment, _⟩ => none
  | ⟨.digits, text⟩ => some <|
    if decimal text < Word.signedLimit then .ok ⟨"NUM", some (.number (decimal text))⟩
    else .error .numberTooLarge
  | ⟨.name, text⟩ => some (.ok ⟨"VAR", some (.ident (String.ofList text))⟩)
  | ⟨.other, text⟩ => some (.ok ⟨String.ofList text, none⟩)

/-- The newline that is supplied behind these answers, unless the last lexeme among them is one or
there is none. -/
def supplied (answers : List Answer) : List Answer :=
  match (answers.filterMap Except.toOption).getLast? with
  | none => []
  | some lexeme => if lexeme.token = "\n" then [] else [.ok ⟨"\n", none⟩]

/-- The calls of a lexer go through the decomposition of the source. -/
structure Traverses (source : List Char) (pieces : List Piece) (calls : Nat → Answer × Scanner) :
    Prop where
  /-- The runs are answered in order, then the newline that lacks, and then the end for ever. -/
  answered : ∀ k, (calls k).1 =
    (pieces.filterMap Piece.answer? ++ supplied (pieces.filterMap Piece.answer?))[k]?.getD
      (.ok .atEnd)
  unfailing : (∀ piece ∈ pieces, piece.kind = .digits → decimal piece.text < Word.signedLimit) →
    ∀ k, ∃ lexeme, (calls k).1 = .ok lexeme
  /-- The lexer stands between two characters, and knows in which line. -/
  placed : ∀ k, ∃ consumed, source = consumed ++ (calls k).2.rest ∧
    (calls k).2.line = 1 + consumed.count '\n' ∧
    (String.ofList consumed).rawEndPos.IsValid (String.ofList source)
  /-- Whatever the answer to a run, the next call goes on right behind the run. -/
  resumes : ∀ before piece behind answer, pieces = before ++ piece :: behind →
    piece.answer? = some answer → ∀ k, (before.filterMap Piece.answer?).length = k →
      (calls k).1 = answer ∧ (calls k).2.rest = behind.flatMap Piece.text
  exhausted : ∀ k, (pieces.filterMap Piece.answer?).length ≤ k → (calls k).2.rest = []

section Kinds

theorem isDigit_iff {c : Char} : c.isDigit = true ↔ Digit c := by
  simp [Char.isDigit, Digit, Char.le_def]

theorem isNameStart_iff {c : Char} : isNameStart c = true ↔ Letter c := by
  unfold isNameStart Char.isAlpha Char.isUpper Char.isLower
  simp [Letter, Char.le_def, or_assoc]

theorem isNamePart_iff {c : Char} : isNamePart c = true ↔ Letter c ∨ Digit c := by
  rw [isNamePart, Bool.or_eq_true, isNameStart_iff, isDigit_iff]

theorem isSpace_iff {c : Char} : isSpace c = true ↔ Blank c := by
  simp [isSpace, Blank, or_assoc]

instance : DecidablePred Digit := fun _ => inferInstanceAs (Decidable (_ ∧ _))

instance : DecidablePred Letter := fun _ => inferInstanceAs (Decidable (_ ∨ _))

theorem Digit.not_letter {c : Char} (digit : Digit c) : ¬ Letter c := by
  rintro (⟨upper, _⟩ | ⟨lower, _⟩ | rfl)
  · exact absurd (Char.le_trans upper digit.2) (by decide)
  · exact absurd (Char.le_trans lower digit.2) (by decide)
  · exact absurd digit (by decide)

theorem Digit.solid {c : Char} (digit : Digit c) : ¬ Blank c ∧ c ≠ '#' := by
  refine ⟨?_, ?_⟩
  · rintro (rfl | rfl | rfl) <;> revert digit <;> decide
  · rintro rfl
    revert digit
    decide

theorem Letter.solid {c : Char} (letter : Letter c) : ¬ Blank c ∧ c ≠ '#' := by
  refine ⟨?_, ?_⟩
  · rintro (rfl | rfl | rfl) <;> revert letter <;> decide
  · rintro rfl
    revert letter
    decide

/-- The first character of a run tells its kind, and the kind what may follow. -/
theorem Kind.Matches.begins {kind : Kind} {c : Char} {cs : List Char}
    (run : kind.Matches (c :: cs)) : kind = .ofChar c ∧ ∀ d ∈ cs, kind.takes d = true := by
  unfold Kind.ofChar
  cases kind with
  | blank =>
    obtain ⟨first, more⟩ := List.forall_mem_cons.mp run.2
    simpa [isSpace_iff, Kind.takes, first] using more
  | comment =>
    obtain ⟨note, same, within⟩ := run
    obtain ⟨rfl, rfl⟩ := List.cons.inj same
    exact ⟨rfl, fun d member => by simpa [Kind.takes] using ne_of_mem_of_not_mem member within⟩
  | digits =>
    obtain ⟨first, more⟩ := List.forall_mem_cons.mp run.2
    obtain ⟨solid, uncommented⟩ := first.solid
    simpa [isSpace_iff, isDigit_iff, solid, uncommented, first, Kind.takes] using more
  | name =>
    obtain ⟨_, _, same, first, more⟩ := run
    obtain ⟨rfl, rfl⟩ := List.cons.inj same
    obtain ⟨solid, uncommented⟩ := first.solid
    have numberless : ¬ Digit c := fun digit => digit.not_letter first
    simpa [isSpace_iff, isDigit_iff, isNameStart_iff, isNamePart_iff, solid, uncommented,
      numberless, first, Kind.takes] using more
  | other =>
    obtain ⟨_, same, solid, uncommented, numberless, letterless⟩ := run
    obtain ⟨rfl, rfl⟩ := List.cons.inj same
    simp [isSpace_iff, isDigit_iff, isNameStart_iff, solid, uncommented, numberless, letterless]

theorem Kind.matches_ofChar {c : Char} {cs : List Char}
    (more : ∀ d ∈ cs, (Kind.ofChar c).takes d = true) : (Kind.ofChar c).Matches (c :: cs) := by
  revert more
  fun_cases Kind.ofChar c with
  | case1 blank =>
    intro more
    exact ⟨by simp, List.forall_mem_cons.mpr ⟨isSpace_iff.mp blank, fun d member =>
      isSpace_iff.mp (more d member)⟩⟩
  | case2 _ comment =>
    intro more
    exact ⟨cs, by rw [comment], fun member => by simpa [Kind.takes] using more _ member⟩
  | case3 _ _ digit =>
    intro more
    exact ⟨by simp, List.forall_mem_cons.mpr ⟨isDigit_iff.mp digit, fun d member =>
      isDigit_iff.mp (more d member)⟩⟩
  | case4 _ _ _ letter =>
    intro more
    exact ⟨c, cs, rfl, isNameStart_iff.mp letter, fun d member => isNamePart_iff.mp (more d member)⟩
  | case5 solid uncommented numberless letterless =>
    intro more
    rw [isSpace_iff] at solid
    rw [isDigit_iff] at numberless
    rw [isNameStart_iff] at letterless
    refine ⟨c, ?_, solid, uncommented, numberless, letterless⟩
    cases cs with
    | nil => rfl
    | cons d _ => exact absurd (more d (by simp)) (by simp [Kind.takes])

theorem Kind.Matches.ne_nil {kind : Kind} {text : List Char} (run : kind.Matches text) :
    text ≠ [] := by
  rintro rfl
  cases kind <;> simp [Kind.Matches] at run

end Kinds

section Decomposition

/-- Cutting a text into its longest runs is the only way to decompose it. -/
theorem Decomposes.eq_munch {text : List Char} {pieces : List Piece}
    (decomposed : Decomposes text pieces) : pieces = munch text := by
  induction decomposed with
  | nil => rfl
  | @cons piece text pieces run longest behind ih =>
    obtain ⟨kind, first⟩ := piece
    cases first with
    | nil => exact absurd rfl run.ne_nil
    | cons c cs =>
      obtain ⟨rfl, taken⟩ := run.begins
      -- what the run could take besides is a part of a longer one
      have whole : text.takeWhile (Kind.ofChar c).takes = [] := by
        have longer : (Kind.ofChar c).Matches
            (c :: (cs ++ text.takeWhile (Kind.ofChar c).takes)) :=
          Kind.matches_ofChar fun d member => (List.mem_append.mp member).elim (taken d)
            List.mem_takeWhile_imp
        have short := longest _ _ longer (by simpa using List.takeWhile_prefix _)
        rw [List.length_cons, List.length_cons, List.length_append] at short
        exact List.eq_nil_of_length_eq_zero (by omega)
      have kept : text.dropWhile (Kind.ofChar c).takes = text := by
        have split := List.takeWhile_append_dropWhile (p := (Kind.ofChar c).takes) (l := text)
        rwa [whole] at split
      rw [List.cons_append, munch_cons, List.takeWhile_append_of_pos taken, whole,
        List.dropWhile_append_of_pos taken, kept, List.append_nil, ih]

theorem decomposes_munch (text : List Char) : Decomposes text (munch text) := by
  induction size : text.length using Nat.strongRecOn generalizing text with
  | ind _ ih =>
    subst size
    cases text with
    | nil => exact .nil
    | cons c cs =>
      let takes := (Kind.ofChar c).takes
      have split : c :: cs = (c :: cs.takeWhile takes) ++ cs.dropWhile takes := by simp
      have shorter : (cs.dropWhile takes).length < (c :: cs).length :=
        Nat.lt_succ_of_le (List.dropWhile_suffix takes).length_le
      have cut : Decomposes ((c :: cs.takeWhile takes) ++ cs.dropWhile takes)
          (⟨.ofChar c, c :: cs.takeWhile takes⟩ :: munch (cs.dropWhile takes)) := by
        refine @Decomposes.cons ⟨_, _⟩ _ _ (Kind.matches_ofChar fun _ => List.mem_takeWhile_imp) ?_
          (ih _ shorter _ rfl)
        intro kind longer run within
        rw [← split] at within
        cases longer with
        | nil => exact absurd rfl run.ne_nil
        | cons d ds =>
          obtain ⟨rfl, more, rfl⟩ := List.cons_prefix_cons.mp within
          obtain ⟨rfl, taken⟩ := run.begins
          simp only [takes, List.takeWhile_append_of_pos taken, List.length_cons,
            List.length_append]
          omega
      rwa [← split, ← munch_cons] at cut

theorem decomposes_iff {text : List Char} {pieces : List Piece} :
    Decomposes text pieces ↔ pieces = munch text :=
  ⟨Decomposes.eq_munch, fun same => same ▸ decomposes_munch text⟩

theorem Decomposes.matches {text : List Char} {pieces : List Piece}
    (decomposed : Decomposes text pieces) : ∀ piece ∈ pieces, piece.kind.Matches piece.text := by
  induction decomposed with
  | nil => simp
  | cons run _ _ ih => exact List.forall_mem_cons.mpr ⟨run, ih⟩

/-- A newline is a run of its own. -/
theorem Kind.Matches.newline {kind : Kind} {text : List Char} (run : kind.Matches text)
    (inside : '\n' ∈ text) : kind = .other ∧ text = ['\n'] := by
  cases text with
  | nil => exact absurd rfl run.ne_nil
  | cons c cs =>
    obtain ⟨rfl, taken⟩ := run.begins
    rcases List.mem_cons.mp inside with rfl | later
    · have kind : Kind.ofChar '\n' = .other := by decide
      refine ⟨kind, ?_⟩
      cases cs with
      | nil => rfl
      | cons d _ => exact absurd (taken d (by simp)) (by simp [kind, Kind.takes])
    · exact absurd (taken _ later) (by rw [takes_newline]; decide)

end Decomposition

section Calls

theorem skip_blanks (cs : List Char) : skip false (cs.dropWhile isSpace) = skip false cs := by
  induction cs with
  | nil => rfl
  | cons c cs ih =>
    by_cases blank : isSpace c = true
    · simp [blank, skip, ih]
    · simp [blank]

/-- What the scanner skips is whole runs. -/
theorem munch_skip (cs : List Char) : ∃ skipped, munch cs = skipped ++ munch (skip false cs) ∧
    ∀ piece ∈ skipped, piece.answer? = none := by
  induction size : cs.length using Nat.strongRecOn generalizing cs with
  | ind _ ih =>
    subst size
    cases cs with
    | nil => exact ⟨[], rfl, by simp⟩
    | cons c cs =>
      by_cases blank : isSpace c = true
      · have kind : Kind.ofChar c = .blank := by simp [Kind.ofChar, blank]
        have shorter : (cs.dropWhile isSpace).length < (c :: cs).length :=
          Nat.lt_succ_of_le (List.dropWhile_suffix isSpace).length_le
        obtain ⟨skipped, cut, silent⟩ := ih _ shorter _ rfl
        have skips : skip false (c :: cs) = skip false (cs.dropWhile isSpace) := by
          simp [skip, blank, skip_blanks]
        rw [munch_cons, kind, skips]
        exact ⟨_ :: skipped, congrArg _ cut, List.forall_mem_cons.mpr ⟨rfl, silent⟩⟩
      · by_cases comment : c = '#'
        · subst comment
          have skips : skip false ('#' :: cs) = cs.dropWhile (· != '\n') := by
            simp [skip, isSpace, skip_comment]
          rw [munch_cons, skips]
          exact ⟨[_], rfl, List.forall_mem_cons.mpr ⟨rfl, by simp⟩⟩
        · exact ⟨[], by simp [skip, blank, comment], by simp⟩

/-- Whether a line is open behind an answer. An error makes no difference. -/
def opens (lineOpen : Bool) : Answer → Bool
  | .ok lexeme => lexeme.token != "\n"
  | .error _ => lineOpen

/-- One call, by the runs that the scanner has in front of it. -/
inductive Called (s : Scanner) : Answer × Scanner → Prop where
  | atRun {skipped : List Piece} {piece : Piece} {answer : Answer} {t : Scanner}
      (cut : munch s.rest = skipped ++ piece :: munch t.rest)
      (silent : ∀ piece ∈ skipped, piece.answer? = none)
      (made : piece.answer? = some answer)
      (line : t.line = s.line + piece.text.count '\n')
      (lineOpen : t.lineOpen = opens s.lineOpen answer) : Called s (answer, t)
  | atEnd (silent : ∀ piece ∈ munch s.rest, piece.answer? = none) :
      Called s (.ok s.finish.1, s.finish.2)

/-- Only a run that is a newline counts as one. -/
theorem count_newline {kind : Kind} {text : List Char} (run : kind.Matches text)
    (solid : kind ≠ .other) : text.count '\n' = 0 :=
  List.count_eq_zero.mpr fun inside => solid (run.newline inside).1

theorem fitsSigned_natCast {n : Nat} : Word.fitsSigned n = true ↔ n < Word.signedLimit := by
  rw [Word.fitsSigned_iff]
  omega

theorem Scanner.number_eq (s : Scanner) {text : List Char} (run : Kind.digits.Matches text)
    (rest : List Char) : s.number text rest =
      if decimal text < Word.signedLimit then
        (.ok ⟨"NUM", some (.number (decimal text))⟩, { s with rest, lineOpen := true })
      else (.error .numberTooLarge, { s with rest }) := by
  unfold number
  rw [decimal?_eq run.1 fun c member => isDigit_iff.mpr (run.2 c member)]
  simp only [Option.getD_some, fitsSigned_natCast]
  rfl

section

variable {s : Scanner} {skipped : List Piece} {text rest : List Char}

theorem Called.digits (cut : munch s.rest = skipped ++ ⟨.digits, text⟩ :: munch rest)
    (silent : ∀ piece ∈ skipped, piece.answer? = none) (run : Kind.digits.Matches text) :
    Called s (s.number text rest) := by
  have quiet := count_newline run (by simp)
  rw [s.number_eq run]
  split
  · next fits => exact .atRun cut silent (congrArg some (if_pos fits)) (by simp [quiet]) rfl
  · next large => exact .atRun cut silent (congrArg some (if_neg large)) (by simp [quiet]) rfl

theorem Called.name (cut : munch s.rest = skipped ++ ⟨.name, text⟩ :: munch rest)
    (silent : ∀ piece ∈ skipped, piece.answer? = none) (run : Kind.name.Matches text) :
    Called s (.ok (s.ident text rest).1, (s.ident text rest).2) := by
  have quiet := count_newline run (by simp)
  exact .atRun cut silent rfl (by simp [Scanner.ident, quiet]) rfl

theorem Called.other {c : Char} (cut : munch s.rest = skipped ++ ⟨.other, [c]⟩ :: munch rest)
    (silent : ∀ piece ∈ skipped, piece.answer? = none) :
    Called s (.ok (s.character c rest).1, (s.character c rest).2) := by
  have same : (String.singleton c != "\n") = (c != '\n') := by
    rw [Bool.eq_iff_iff]
    simp [← String.toList_inj]
  refine .atRun cut silent rfl ?_ same.symm
  by_cases newline : c = '\n' <;> simp [Scanner.character, newline]

end

theorem Scanner.next_called (s : Scanner) : Called s s.next := by
  obtain ⟨skipped, cut, silent⟩ := munch_skip s.rest
  unfold next
  cases left : skip false s.rest with
  | nil =>
    rw [left] at cut
    have none : munch [] = [] := rfl
    rw [none, List.append_nil] at cut
    exact .atEnd (cut ▸ silent)
  | cons c cs =>
    rw [left, munch_cons] at cut
    obtain ⟨solid, uncommented⟩ := skip_head left
    have run := Kind.matches_ofChar (c := c) fun _ =>
      List.mem_takeWhile_imp (p := (Kind.ofChar c).takes) (l := cs)
    dsimp only
    split
    · next digit =>
      have kind : Kind.ofChar c = .digits := by simp [Kind.ofChar, solid, uncommented, digit]
      rw [kind] at cut run
      exact .digits cut silent run
    · split
      · next numberless letter =>
        have kind : Kind.ofChar c = .name := by
          simp [Kind.ofChar, solid, uncommented, numberless, letter]
        rw [kind] at cut run
        exact .name cut silent run
      · next numberless letterless =>
        have kind : Kind.ofChar c = .other := by
          simp [Kind.ofChar, solid, uncommented, numberless, letterless]
        have single : cs.takeWhile Kind.other.takes = [] ∧ cs.dropWhile Kind.other.takes = cs := by
          cases cs <;> exact ⟨rfl, rfl⟩
        rw [kind, single.1, single.2] at cut
        exact .other cut silent

end Calls

section Runs

namespace Scanner

/-- What is to be answered at the runs in front of the scanner. -/
def ahead (s : Scanner) : List Answer := (munch s.rest).filterMap Piece.answer?

/-- The answers that are to come before the end, the supplied newline among them. -/
def owed (s : Scanner) : List Answer :=
  s.ahead ++ if s.ahead.foldl opens s.lineOpen then [.ok ⟨"\n", none⟩] else []

theorem next_ahead (s : Scanner) :
    (s.ahead = s.next.1 :: s.next.2.ahead ∧ s.next.2.lineOpen = opens s.lineOpen s.next.1) ∨
      (s.ahead = [] ∧ s.next = (.ok s.finish.1, s.finish.2)) := by
  have called := s.next_called
  generalize s.next = call at *
  cases called with
  | atRun cut silent made line lineOpen =>
    refine .inl ⟨?_, lineOpen⟩
    rw [Scanner.ahead, cut, List.filterMap_append, List.filterMap_eq_nil_iff.mpr silent,
      List.filterMap_cons_some made]
    rfl
  | atEnd silent => exact .inr ⟨List.filterMap_eq_nil_iff.mpr silent, rfl⟩

theorem next_ahead_drop (s : Scanner) : s.next.2.ahead = s.ahead.drop 1 := by
  rcases s.next_ahead with ⟨ahead, _⟩ | ⟨ahead, ended⟩
  · rw [ahead]
    rfl
  · rw [ahead, ended, finish]
    split <;> rfl

theorem next_owed (s : Scanner) :
    s.next.1 = s.owed[0]?.getD (.ok .atEnd) ∧ s.next.2.owed = s.owed.drop 1 := by
  rcases s.next_ahead with ⟨ahead, lineOpen⟩ | ⟨ahead, ended⟩
  · rw [owed, owed, ahead, lineOpen]
    exact ⟨rfl, rfl⟩
  · rw [ended, finish, owed, ahead]
    cases s.lineOpen <;> exact ⟨rfl, rfl⟩

theorem next_exhausted {s : Scanner} (none : s.ahead = []) : s.next.2.rest = [] := by
  rcases s.next_ahead with ⟨ahead, _⟩ | ⟨_, ended⟩
  · rw [none] at ahead
    contradiction
  · rw [ended, finish]
    split <;> rfl

/-- No newline is skipped. -/
theorem skipped_newlines {cs : List Char} {pieces : List Piece}
    (part : ∀ piece ∈ pieces, piece ∈ munch cs)
    (silent : ∀ piece ∈ pieces, piece.answer? = none) :
    (pieces.flatMap Piece.text).count '\n' = 0 := by
  refine List.count_eq_zero.mpr fun inside => ?_
  obtain ⟨piece, member, inside⟩ := List.mem_flatMap.mp inside
  have run := (decomposes_munch cs).matches piece (part piece member)
  obtain ⟨other, _⟩ := run.newline inside
  have none := silent piece member
  obtain ⟨kind, text⟩ := piece
  obtain rfl : kind = .other := other
  contradiction

/-- A call takes whole runs from what is left, and counts the newlines that it passes. -/
theorem next_consumes (s : Scanner) : ∃ consumed, s.rest = consumed ++ s.next.2.rest ∧
    s.next.2.line = s.line + consumed.count '\n' := by
  have called := s.next_called
  generalize s.next = call at *
  cases called with
  | @atRun skipped piece _ t cut silent made line lineOpen =>
    refine ⟨skipped.flatMap Piece.text ++ piece.text, ?_, ?_⟩
    · rw [← munch_text s.rest, cut, List.flatMap_append, List.flatMap_cons, munch_text,
        List.append_assoc]
    · have part : ∀ piece ∈ skipped, piece ∈ munch s.rest := fun piece member => by
        simp [cut, member]
      rw [List.count_append, skipped_newlines part silent, Nat.zero_add, line]
  | atEnd silent =>
    have none := skipped_newlines (fun _ => id) silent
    rw [munch_text] at none
    refine ⟨s.rest, ?_, ?_⟩
    · unfold finish
      split <;> simp
    · unfold finish
      split <;> simp [none]

end Scanner

variable (shown : Nat → Status Value) (source : Scanner)

theorem answers_succ (k : Nat) :
    lexer.answers shown source (k + 1) = (lexer.answers shown source k).2.next :=
  rfl

theorem calls_owed (k : Nat) :
    (lexer.answers shown source k).1 = source.owed[k]?.getD (.ok .atEnd) ∧
      (lexer.answers shown source k).2.owed = source.owed.drop (k + 1) := by
  induction k with
  | zero => exact source.next_owed
  | succ k ih =>
    obtain ⟨answer, left⟩ := (lexer.answers shown source k).2.next_owed
    rw [ih.2] at answer left
    rw [answers_succ]
    exact ⟨by simpa using answer, by simpa using left⟩

theorem calls_ahead (k : Nat) :
    (lexer.answers shown source k).2.ahead = source.ahead.drop (k + 1) := by
  induction k with
  | zero => exact source.next_ahead_drop
  | succ k ih => rw [answers_succ, Scanner.next_ahead_drop, ih, List.drop_drop]

theorem calls_exhausted {k : Nat} (behind : source.ahead.length ≤ k) :
    (lexer.answers shown source k).2.rest = [] := by
  cases k with
  | zero => exact Scanner.next_exhausted (List.eq_nil_of_length_eq_zero (Nat.le_zero.mp behind))
  | succ k =>
    rw [answers_succ]
    refine Scanner.next_exhausted ?_
    rw [calls_ahead, List.drop_eq_nil_of_le behind]

theorem calls_consume (k : Nat) : ∃ consumed,
    source.rest = consumed ++ (lexer.answers shown source k).2.rest ∧
      (lexer.answers shown source k).2.line = source.line + consumed.count '\n' := by
  induction k with
  | zero => exact source.next_consumes
  | succ k ih =>
    obtain ⟨consumed, rest, line⟩ := ih
    obtain ⟨more, rest', line'⟩ := (lexer.answers shown source k).2.next_consumes
    refine ⟨consumed ++ more, ?_, ?_⟩
    · rw [rest, rest', List.append_assoc, answers_succ]
    · rw [List.count_append, ← Nat.add_assoc, ← line, ← line', answers_succ]

/-- A call at which a run is answered goes through the runs before, and through that one. -/
theorem Scanner.next_left {before behind : List Piece} {piece : Piece} {answer : Answer}
    (s : Scanner) (cut : munch s.rest = before ++ piece :: behind)
    (silent : ∀ piece ∈ before, piece.answer? = none) (made : piece.answer? = some answer) :
    munch s.next.2.rest = behind := by
  have called := s.next_called
  generalize s.next = call at *
  cases called with
  | @atRun _ other _ _ cut' silent' made' =>
    rw [cut] at cut'
    rcases List.append_eq_append_iff.mp cut' with ⟨more, longer, same⟩ | ⟨more, shorter, same⟩
    · cases more with
      | nil => exact (List.cons.inj same).2.symm
      | cons last more =>
        obtain ⟨rfl, _⟩ := List.cons.inj same
        have none := silent' piece (by simp [longer])
        rw [made] at none
        contradiction
    · cases more with
      | nil => exact (List.cons.inj same).2
      | cons last more =>
        obtain ⟨rfl, _⟩ := List.cons.inj same
        have none := silent other (by simp [shorter])
        rw [made'] at none
        contradiction
  | atEnd silent' =>
    have none := silent' piece (by simp [cut])
    rw [made] at none
    contradiction

theorem calls_left {before behind : List Piece} {piece : Piece}
    {answer : Answer} (cut : munch source.rest = before ++ piece :: behind)
    (made : piece.answer? = some answer) (k : Nat)
    (position : (before.filterMap Piece.answer?).length = k) :
    munch (lexer.answers shown source k).2.rest = behind := by
  induction k generalizing before behind piece answer with
  | zero =>
    have none := List.eq_nil_of_length_eq_zero position
    exact source.next_left cut (List.filterMap_eq_nil_iff.mp none) made
  | succ k ih =>
    -- the call before was for the last run in front of this one that is answered
    obtain ⟨answers, last, init⟩ : ∃ answers last,
        before.filterMap Piece.answer? = answers ++ [last] := by
      rcases List.eq_nil_or_concat (before.filterMap Piece.answer?) with none | ⟨_, _, init⟩
      · rw [none] at position
        contradiction
      · exact ⟨_, _, by rw [init, List.concat_eq_append]⟩
    obtain ⟨first, tail, rfl, answered, tail_answer⟩ := List.filterMap_eq_append_iff.mp init
    obtain ⟨skipped, run, silent, rfl, skips, made', tail_silent⟩ :=
      List.filterMap_eq_cons_iff.mp tail_answer
    have earlier : ((first ++ skipped).filterMap Piece.answer?).length = k := by
      rw [init, List.length_append, List.length_singleton] at position
      rw [List.filterMap_append, List.filterMap_eq_nil_iff.mpr skips, answered, List.append_nil]
      omega
    have cut' : munch source.rest = (first ++ skipped) ++ run :: (silent ++ piece :: behind) := by
      simp [cut]
    rw [answers_succ]
    exact Scanner.next_left _ (ih cut' made' earlier) (List.filterMap_eq_nil_iff.mp tail_silent) made

/-- A line is open behind the last lexeme, unless that is a newline. -/
theorem supplied_eq (answers : List Answer) : supplied answers =
    if answers.foldl opens false then [.ok ⟨"\n", none⟩] else [] := by
  induction answers using List.reverseRecOn with
  | nil => rfl
  | append_singleton answers last ih =>
    cases last with
    | ok lexeme => simp [supplied, opens, Except.toOption]
    | error e =>
      have same : supplied (answers ++ [.error e]) = supplied answers := by
        simp [supplied, Except.toOption]
      have unopened : (answers ++ [Except.error e]).foldl opens false =
          answers.foldl opens false := by
        simp [opens]
      rw [same, unopened, ih]

theorem supplied_ok {answers : List Answer} {answer : Answer} (member : answer ∈ supplied answers) :
    answer = .ok ⟨"\n", none⟩ := by
  rw [supplied_eq] at member
  split at member
  · exact List.mem_singleton.mp member
  · contradiction

theorem not_error_of_fits {piece : Piece} {answer : Answer} (made : piece.answer? = some answer)
    (fits : piece.kind = .digits → decimal piece.text < Word.signedLimit) :
    ∃ lexeme, answer = .ok lexeme := by
  obtain ⟨kind, text⟩ := piece
  cases kind with
  | blank | comment => contradiction
  | digits =>
    simp only [Piece.answer?, if_pos (fits rfl), Option.some.injEq] at made
    exact ⟨_, made.symm⟩
  | name | other => exact ⟨_, (Option.some.inj made).symm⟩

end Runs

/-- Of every source there is one decomposition into longest runs, and whatever statuses the lexer is
shown its calls go through this one. -/
theorem lexing_exact (source : String) : ∃ pieces,
    (∀ cut, Decomposes source.toList cut ↔ cut = pieces) ∧
      ∀ shown, Traverses source.toList pieces (lexer.answers shown (.ofSource source)) := by
  refine ⟨munch source.toList, fun _ => decomposes_iff, fun shown => ?_⟩
  let start := Scanner.ofSource source
  have answered (k : Nat) : (lexer.answers shown start k).1 =
      (start.ahead ++ supplied start.ahead)[k]?.getD (.ok .atEnd) := by
    rw [supplied_eq]
    exact (calls_owed shown start k).1
  refine ⟨answered, fun fit k => ?_, fun k => ?_, ?_, fun k => calls_exhausted shown start⟩
  · rw [answered]
    cases answer : (start.ahead ++ supplied start.ahead)[k]? with
    | none => exact ⟨_, rfl⟩
    | some answer' =>
      rcases List.mem_append.mp (List.mem_of_getElem? answer) with run | newline
      · obtain ⟨piece, member, made⟩ := List.mem_filterMap.mp run
        exact not_error_of_fits made (fit piece member)
      · exact ⟨_, supplied_ok newline⟩
  · obtain ⟨consumed, rest, line⟩ := calls_consume shown start k
    refine ⟨consumed, rest, line, String.Pos.Raw.isValid_iff_exists_append.mpr
      ⟨.ofList consumed, .ofList (lexer.answers shown start k).2.rest, ?_, rfl⟩⟩
    rw [← String.ofList_append, ← rest]
    rfl
  · intro before piece behind answer cut made k position
    have left := calls_left shown start cut made k position
    have ahead : start.ahead = before.filterMap Piece.answer? ++
        answer :: behind.filterMap Piece.answer? := by
      rw [Scanner.ahead, ← List.filterMap_cons_some made, ← List.filterMap_append, ← cut]
      rfl
    refine ⟨?_, by rw [← munch_text (lexer.answers shown start k).2.rest, left]⟩
    rw [answered, ahead, List.append_assoc, List.getElem?_append_right (by omega), position]
    simp

end ShiftReduce.Calculator
