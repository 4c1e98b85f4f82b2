import Mathlib.Data.List.DropRight
import ShiftReduce.Proofs.Calculator.Books

/-! An evaluation that meets a number that is too large breaks off within a line. It has done with
the lines before, and of the line that it did not finish there is at most a report. -/

namespace ShiftReduce.Calculator

/-- The piece holds no number that is too large. -/
def Piece.Readable (piece : Piece) : Prop := ∀ t ∈ piece.token?, t.Fits

instance : DecidablePred Piece.Readable := fun piece =>
  inferInstanceAs (Decidable (∀ t ∈ piece.token?, t.Fits))

/-- The source before the first number that is too large. -/
def readablePart (source : List Char) : List Char :=
  ((munch source).takeWhile (fun piece => decide piece.Readable)).flatMap Piece.text

/-- What is readable of the source, up to its last newline. -/
def completed (source : String) : String :=
  String.ofList ((readablePart source.toList).rdropWhile (· != '\n'))

section Pieces

theorem munchFrom_text (kind : Kind) (text cs : List Char) :
    (munchFrom kind text cs).flatMap Piece.text = text ++ cs := by
  induction cs generalizing kind text with
  | nil => simp [munchFrom]
  | cons c cs ih =>
    unfold munchFrom
    split
    · rw [ih, List.append_assoc, List.singleton_append]
    · rw [List.flatMap_cons, ih, List.singleton_append]

/-- The pieces of a source make up the source. -/
theorem munch_text (cs : List Char) : (munch cs).flatMap Piece.text = cs := by
  cases cs with
  | nil => rfl
  | cons c cs => exact munchFrom_text _ _ cs

theorem munch_append {first : List Char} (ended : first = [] ∨ ∃ text, first = text ++ ['\n'])
    (second : List Char) : munch (first ++ second) = munch first ++ munch second := by
  rcases ended with rfl | ⟨text, rfl⟩
  · rfl
  · rw [List.append_assoc, List.singleton_append, munch_newline, munch_newline, List.append_assoc]
    rfl

/-- A number that is too large has a digit. -/
theorem Piece.text_ne_nil {piece : Piece} (unreadable : ¬ piece.Readable) : piece.text ≠ [] := by
  rintro empty
  obtain ⟨kind, text⟩ := piece
  subst empty
  revert unreadable
  cases kind <;> decide

/-- The pieces up to the first number that is too large. -/
theorem munch_unreadable {cs : List Char} (large : ¬ ∀ t ∈ tokens cs, t.Fits) :
    ∃ kept big more, munch cs = kept ++ big :: more ∧ kept.flatMap Piece.text = readablePart cs ∧
      (∀ piece ∈ kept, piece.Readable) ∧ ¬ big.Readable := by
  let fits : Piece → Bool := fun piece => decide piece.Readable
  have split : (munch cs).takeWhile fits ++ (munch cs).dropWhile fits = munch cs :=
    List.takeWhile_append_dropWhile
  cases behind : (munch cs).dropWhile fits with
  | nil =>
    refine absurd (fun t member => ?_) large
    obtain ⟨piece, cut, made⟩ := List.mem_filterMap.mp member
    have all := List.dropWhile_eq_nil_iff.mp behind piece cut
    exact of_decide_eq_true all t made
  | cons big more =>
    have first := List.head?_dropWhile_not fits (munch cs)
    rw [behind] at first split
    have all : ∀ piece ∈ (munch cs).takeWhile fits, piece.Readable := fun piece member =>
      of_decide_eq_true (List.mem_takeWhile_imp (p := fits) member)
    exact ⟨_, big, more, split.symm, rfl, all, of_decide_eq_false first⟩

/-- Complete lines within the readable part are cut as they are on their own. -/
theorem munch_aligned {whole rest tail : List Char} {kept more : List Piece} {big : Piece}
    (cut : munch whole ++ munch rest = kept ++ big :: more)
    (within : kept.flatMap Piece.text = whole ++ tail) (unreadable : ¬ big.Readable) :
    ∃ part, kept = munch whole ++ part ∧ munch rest = part ++ big :: more ∧
      part.flatMap Piece.text = tail := by
  rcases List.append_eq_append_iff.mp cut with ⟨part, longer, behind⟩ | ⟨part, shorter, behind⟩
  · refine ⟨part, longer, behind, ?_⟩
    rw [longer, List.flatMap_append, munch_text] at within
    exact List.append_cancel_left within
  · -- the pieces of the lines cannot reach over the number, which has text of its own
    have texts := congrArg (List.flatMap Piece.text) shorter
    rw [munch_text, List.flatMap_append, within, List.append_assoc] at texts
    obtain ⟨no_tail, no_text⟩ := List.append_eq_nil_iff.mp (List.self_eq_append_right.mp texts)
    cases part with
    | nil => exact ⟨[], by simpa using shorter.symm, by simpa using behind.symm, no_tail.symm⟩
    | cons piece part =>
      obtain ⟨rfl, _⟩ := List.cons.inj behind
      have empty : big.text = [] := List.flatMap_eq_nil_iff.mp no_text big (by simp)
      exact absurd empty (Piece.text_ne_nil unreadable)

end Pieces

theorem rdropWhile_newline (cs : List Char) :
    (cs.rdropWhile (· != '\n') = [] ∨ ∃ text, cs.rdropWhile (· != '\n') = text ++ ['\n']) ∧
      ∃ tail, cs = cs.rdropWhile (· != '\n') ++ tail ∧ '\n' ∉ tail := by
  induction cs using List.reverseRecOn with
  | nil => exact ⟨.inl rfl, [], rfl, by simp⟩
  | append_singleton cs c ih =>
    by_cases last : c = '\n'
    · rw [List.rdropWhile_concat_neg _ _ _ (by simp [last])]
      exact ⟨.inr ⟨cs, by rw [last]⟩, [], by simp, by simp⟩
    · obtain ⟨ended, tail, split, within⟩ := ih
      rw [List.rdropWhile_concat_pos _ _ _ (by simp [last])]
      refine ⟨ended, tail ++ [c], ?_, by simp [within, Ne.symm last]⟩
      rw [← List.append_assoc, ← split]

/-- A source with a number that is too large. Before the line of the first one it is complete, and
in that line it can be read up to the number. -/
structure Breaks (source whole rest : List Char) : Prop where
  split : source = whole ++ rest
  ended : whole = [] ∨ ∃ text, whole = text ++ ['\n']
  fit : ∀ t ∈ tokens whole, t.Fits
  broken : ∃ line t more, tokens rest = line ++ t :: more ∧ Inline line ∧ ¬ t.Fits

theorem completed_breaks {source : String} (large : ¬ ∀ t ∈ tokens source.toList, t.Fits) :
    ∃ rest, Breaks source.toList (completed source).toList rest := by
  obtain ⟨kept, big, more, cut, text, readable, unreadable⟩ := munch_unreadable large
  obtain ⟨ended, tail, within, inside⟩ := rdropWhile_newline (readablePart source.toList)
  rw [← text] at ended within
  rw [completed, String.toList_ofList, ← text]
  generalize (kept.flatMap Piece.text).rdropWhile (· != '\n') = whole at *
  have split : source.toList = whole ++ (tail ++ (big :: more).flatMap Piece.text) := by
    rw [← munch_text source.toList, cut, List.flatMap_append, within, List.append_assoc]
  rw [split, munch_append ended] at cut
  obtain ⟨part, lines, behind, rfl⟩ := munch_aligned cut within unreadable
  refine ⟨_, split, ended, fun t member => ?_, ?_⟩
  · obtain ⟨piece, known, made⟩ := List.mem_filterMap.mp member
    exact readable piece (by simp [lines, known]) t made
  · obtain ⟨t, made, large⟩ : ∃ t, big.token? = some t ∧ ¬ t.Fits := by
      simpa [Piece.Readable] using unreadable
    refine ⟨part.filterMap Piece.token?, t, more.filterMap Piece.token?, ?_, fun u member => ?_,
      large⟩
    · rw [tokens, behind, List.filterMap_append, List.filterMap_cons_some made]
    · obtain ⟨piece, known, made⟩ := List.mem_filterMap.mp member
      refine ⟨readable piece (by simp [lines, known]) u made, ?_⟩
      rintro rfl
      exact inside (List.mem_flatMap.mpr ⟨piece, known, Piece.newline_mem made⟩)

/-- The line that is not finished has no result, does not count, and has at most one report. -/
theorem LineLeft.books {session after : Session} (left : LineLeft session after) :
    after.results = session.results ∧ after.lines = session.lines ∧
      (after.errors = session.errors ∨ ∃ message, after.errors =
        session.errors.push (s!"line {session.lines + 1}: " ++ message)) := by
  cases left with
  | unspoilt => exact ⟨rfl, rfl, .inl rfl⟩
  | spoilt => exact ⟨rfl, rfl, .inr ⟨_, rfl⟩⟩

/-- The first token that ends a line or breaks it off is the only first one. -/
theorem Inline.stop_unique {ts us more more' : List Token} {t u : Token} (inline : Inline ts)
    (inline' : Inline us) (stops : ¬ (t.Fits ∧ t ≠ .newline)) (stops' : ¬ (u.Fits ∧ u ≠ .newline))
    (same : ts ++ t :: more = us ++ u :: more') : t = u := by
  induction ts generalizing us with
  | nil =>
    cases us with
    | nil => exact (List.cons.inj same).1
    | cons w ws =>
      obtain ⟨rfl, _⟩ := List.cons.inj same
      exact absurd (inline' t (by simp)) stops
  | cons v vs ih =>
    cases us with
    | nil =>
      obtain ⟨rfl, _⟩ := List.cons.inj same
      exact absurd (inline v (by simp)) stops'
    | cons w ws =>
      obtain ⟨_, later⟩ := List.forall_mem_cons.mp inline
      obtain ⟨_, later'⟩ := List.forall_mem_cons.mp inline'
      exact ih later later' (List.cons.inj same).2

/-- Behind the lines that are complete, the line of the number is broken off. -/
theorem Breaks.reads {source whole rest : List Char} (breaks : Breaks source whole rest)
    (session : Session) : ∃ cost bound after last,
      Leads cost ⟨base, 0, session, closeLine false (tokens whole)⟩ ⟨base, 0, after, []⟩ ∧
      Ends bound ⟨base, 0, session, closeLine false (tokens source)⟩
        (.error (.lexer .numberTooLarge)) last ∧
      LineLeft after last := by
  obtain ⟨split, ended, fit, line, t, more, unfinished, inline, large⟩ := breaks
  obtain ⟨cost, after, _, leads, _⟩ := reads_source session fit
  have joined := closeLine_append ended rest
  rw [← split] at joined
  have behind : closeLine false (tokens rest) = line ++ t :: closeLine (t != .newline) more := by
    rw [unfinished, closeLine_behind]
  cases reads_line after (closeLine_closed false (tokens rest)) (by simp [behind]) with
  | ended same inline' =>
    rw [behind] at same
    obtain rfl := inline.stop_unique inline' (fun stop => large stop.1) (by simp) same
    exact absurd trivial large
  | broken _ _ _ ends left =>
    have whole_ends := (leads.before (closeLine false (tokens rest))).ends ends
    rw [Situation.before, ← joined] at whole_ends
    exact ⟨cost, _, after, _, leads, whole_ends, left⟩

/-- What there is to be seen of a session. -/
def Session.visible (s : Session) : Symbols × Array (Option Int) × Array String × Nat :=
  (s.symbols, s.results, s.errors, s.lines)

theorem Reached.eq_of_visible {session other : Session} (reached : Reached session)
    (reached' : Reached other) (same : session.visible = other.visible) : session = other := by
  have quiet := reached.quiet
  have quiet' := reached'.quiet
  obtain ⟨symbols, results, errors, lines, pending⟩ := session
  obtain ⟨symbols', results', errors', lines', pending'⟩ := other
  simp_all [Session.visible]

/-- An evaluation that is broken off at a number that is too large has done exactly what its
complete lines do on their own, but that it may have reported the line that it did not finish. What
it leaves behind is not to be told from another session that looks the same. -/
theorem eval_broken_off {source : String} {session : Session} {flags : Trace.Flags}
    {r : CalculatorRun} {e : Error} (reached : Reached session)
    (evaluated : eval source session flags = some r) (failed : r.result = .error (.lexer e))
    (flags' : Trace.Flags) :
    ∃ whole, eval (completed source) session flags' = some whole ∧
      whole.result = .ok (.accept none) ∧
      r.final.context.results = whole.final.context.results ∧
      r.final.context.lines = whole.final.context.lines ∧
      (r.final.context.errors = whole.final.context.errors ∨ ∃ message, r.final.context.errors =
        whole.final.context.errors.push
          (s!"line {whole.final.context.lines + 1}: " ++ message)) ∧
      r.final.context.pending = none ∧
      ∀ other, Reached other → r.final.context.visible = other.visible →
        ∀ later flags'', eval later r.final.context flags'' = eval later other flags'' := by
  have large : ¬ ∀ t ∈ tokens source.toList, t.Fits := by
    intro fit
    obtain ⟨r', evaluated', result, _⟩ := exists_eval source session flags
    obtain rfl := Option.some.inj (evaluated.symm.trans evaluated')
    rw [failed, if_pos fit] at result
    contradiction
  obtain ⟨rest, breaks⟩ := completed_breaks large
  obtain ⟨_, _, after, last, leads, ends, left⟩ := breaks.reads session
  obtain ⟨whole, evaluated', result, _⟩ := exists_eval (completed source) session flags'
  rw [if_pos breaks.fit] at result
  have context := eval_of_ends ends evaluated
  have context' := eval_of_ends (leads.ends (ends_accept after)) evaluated'
  obtain ⟨results, lines, errors⟩ := left.books
  have reached' := reached.eval evaluated
  refine ⟨whole, evaluated', result, ?_, ?_, ?_, reached'.quiet, fun other known same _ _ => ?_⟩
  · rw [context, context', results]
  · rw [context, context', lines]
  · rw [context, context']
    exact errors
  · rw [reached'.eq_of_visible known same]

/-- The number in the comment is none. The line of the other one has been spoilt before it, and its
report is all that is left of it. -/
theorem eval_broken_off_spoilt : ∃ r whole,
    eval "1 # 99999999999999999999\n2 % 99999999999999999999\n3\n" {} = some r ∧
    r.result = .error (.lexer .numberTooLarge) ∧
    eval "1 # 99999999999999999999\n" {} = some whole ∧
    r.final.context.results = whole.final.context.results ∧
    r.final.context.lines = whole.final.context.lines ∧
    (r.final.context.errors = whole.final.context.errors ∨ ∃ message, r.final.context.errors =
      whole.final.context.errors.push
        (s!"line {whole.final.context.lines + 1}: " ++ message)) ∧
    r.final.context.pending = none := by
  obtain ⟨r, evaluated, result, _⟩ :=
    exists_eval "1 # 99999999999999999999\n2 % 99999999999999999999\n3\n" {} .none
  rw [if_neg (by decide)] at result
  obtain ⟨whole, evaluated', _, results, lines, errors, quiet, _⟩ :=
    eval_broken_off .new evaluated result .none
  have complete : completed "1 # 99999999999999999999\n2 % 99999999999999999999\n3\n" =
      "1 # 99999999999999999999\n" := by decide
  rw [complete] at evaluated'
  exact ⟨r, whole, evaluated, result, evaluated', results, lines, errors, quiet⟩

end ShiftReduce.Calculator
