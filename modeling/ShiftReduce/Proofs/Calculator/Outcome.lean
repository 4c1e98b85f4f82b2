import ShiftReduce.Proofs.Calculator.Reading

namespace ShiftReduce.Calculator

inductive LineEnd (session : Session) : List Token → Session → Prop where
  | blank : LineEnd session [] session.endLine
  | value {line : List Token} {isOpen : Bool} {e : Expr} {v : Int} {symbols : Symbols}
      (phrase : Phrase .expr isOpen line e) :
      LineEnd session line ({ session with symbols }.endLine.addResult (some v))
  | spoilt {line : List Token} {symbols : Symbols} {message : String} (nonempty : line ≠ []) :
      LineEnd session line (({ session with symbols }.reported message).endLine.addResult none)

theorem LineEnd.quiet {session after : Session} {line : List Token}
    (ended : LineEnd session line after) (quiet : session.pending = none) : after.pending = none := by
  cases ended with
  | blank | value => exact quiet
  | spoilt => rfl

/-- What a line leaves behind that is broken off: what it has assigned, and its report if it was
spoilt before. -/
inductive LineLeft (session : Session) : Session → Prop where
  | unspoilt {symbols : Symbols} : LineLeft session { session with symbols }
  | spoilt {symbols : Symbols} {message : String} :
      LineLeft session ({ session with symbols }.reported message)

theorem LineLeft.quiet {session after : Session} (left : LineLeft session after)
    (quiet : session.pending = none) : after.pending = none := by
  cases left with
  | unspoilt => exact quiet
  | spoilt => rfl

/-- What becomes of the first line of the input. -/
inductive LineRead (session : Session) (input : List Token) : Prop where
  | ended {line rest : List Token} {after : Session} (split : input = line ++ .newline :: rest)
      (inline : Inline line) (ended : LineEnd session line after)
      (leads : Leads (4 * (line.length + 1)) ⟨base, 0, session, input⟩ ⟨base, 0, after, rest⟩)
  | broken {ts rest : List Token} {t : Token} {after : Session} (split : input = ts ++ t :: rest)
      (inline : Inline ts) (large : ¬ t.Fits)
      (ends : Ends (4 * ts.length + 2) ⟨base, 0, session, input⟩
        (.error (.lexer .numberTooLarge)) after)
      (left : LineLeft session after)

/-- A line ends at a newline, unless a number before it is too large. -/
theorem Closed.line {ts : List Token} (closed : Closed ts) (more : ts ≠ []) :
    ∃ line rest, Inline line ∧ (ts = line ++ .newline :: rest ∨
      ∃ t, ¬ t.Fits ∧ ts = line ++ t :: rest) := by
  induction ts with
  | nil => exact absurd rfl more
  | cons t ts ih =>
    by_cases fits : t.Fits
    case neg => exact ⟨[], ts, .nil, .inr ⟨t, fits, rfl⟩⟩
    by_cases last : t = .newline
    case pos => exact ⟨[], ts, .nil, .inl (by rw [last, List.nil_append])⟩
    obtain ⟨u, us, rfl⟩ := closed.more last
    obtain ⟨line, rest, inline, split⟩ := ih closed.tail (by simp)
    refine ⟨t :: line, rest, inline.cons fits last, split.imp ?_ ?_⟩
    · rintro same
      rw [same, List.cons_append]
    · rintro ⟨w, large, same⟩
      exact ⟨w, large, by rw [same, List.cons_append]⟩

/-- A line that fails is skipped up to its newline. -/
theorem Fails.line {session : Session} {t : Token} {ts : List Token}
    (fails : Fails ⟨base, 0, session, t :: ts⟩) (closed : Closed (t :: ts)) (inside : t ≠ .newline) :
    LineRead session (t :: ts) := by
  cases fails with
  | broken split inline large ends => exact .broken split inline large (ends.mono (by omega)) .unspoilt
  | @spoilt rs rest symbols message split more inline leads =>
    dsimp only at split leads
    have rested : Closed rest := .of_append rs (split ▸ closed)
    obtain ⟨us, rest', inline', newline | ⟨w, large, tooLarge⟩⟩ := rested.line more
    · subst newline
      -- the line has a token, since it does not begin with its newline
      have nonempty : rs ++ us ≠ [] := by
        intro empty
        obtain ⟨rfl, rfl⟩ := List.append_eq_nil_iff.mp empty
        exact inside (List.cons.inj split).1
      have skipped := leads.trans (leads_skip _ (.newline :: rest') inline')
      have whole := (skipped.trans (leads_spoiltLine _ rest')).mono
        (n := 4 * ((rs ++ us).length + 1)) (by rw [List.length_append]; omega)
      exact .ended (by rw [split, List.append_assoc]) (inline.append inline') (.spoilt nonempty) whole
    · subst tooLarge
      have skipped := leads.trans (leads_skip _ (w :: rest') inline')
      have ended := (skipped.ends (ends_tooLarge (by decide) (by decide) large 3 _)).mono
        (n := 4 * (rs ++ us).length + 2) (by rw [List.length_append]; omega)
      exact .broken (by rw [split, List.append_assoc]) (inline.append inline') large ended .spoilt

/-- The first line of an input is read to its end, unless a number in it is too large. -/
theorem reads_line (session : Session) {input : List Token} (closed : Closed input)
    (more : input ≠ []) : LineRead session input := by
  obtain ⟨t, ts, rfl⟩ := List.exists_cons_of_ne_nil more
  by_cases blank : t = .newline
  case pos =>
    subst blank
    exact @LineRead.ended session _ [] ts _ rfl .nil .blank
      ((leads_blankLine session ts).mono (by simp))
  cases reads_below (ts.length + 2) .line base session t ts (by simp) closed Context.under_line
    (fun _ => blank) with
  | fails failed => exact failed.line closed blank
  | @expression level isOpen rs rest u e v session' phrase le follows final passes =>
    by_cases last : u = .newline
    case neg =>
      have missed := Context.under_line.missesBehind session' rest (.inl rfl) (some (.number v))
        final (fun _ => last) (by simp)
      exact (passes.fails (by omega) (.of_missed (by simp) ⟨_, missed.leads⟩)).line closed blank
    subst last
    obtain ⟨leads, split, inline, symbols, rfl⟩ := passes
    have whole := leads.trans (leads_resultLine _ rest v)
    exact .ended split inline (.value (phrase.lift le)) (whole.mono (by omega))

/-- Every input is used up, unless a number in it is too large. No error is left to be reported. -/
theorem ends_input (session : Session) {input : List Token} (closed : Closed input) :
    ∃ result after, Ends (4 * input.length + 2) ⟨base, 0, session, input⟩ result after ∧
      (result = if ∀ t ∈ input, t.Fits then .ok (.accept none)
        else .error (.lexer .numberTooLarge)) ∧
      (session.pending = none → after.pending = none) := by
  induction size : input.length using Nat.strongRecOn generalizing session input with
  | ind k ih =>
  cases input with
  | nil => exact ⟨_, session, (ends_accept session).mono (by omega), by simp, id⟩
  | cons t ts =>
    cases reads_line session closed (by simp) with
    | @ended line rest after split inline ended leads =>
      have lengths := congrArg List.length split
      simp only [List.length_append, List.length_cons] at lengths size
      rw [split] at closed
      obtain ⟨result, last, ends, same, quiet⟩ := ih rest.length (by omega) after
        (Closed.of_append line closed).tail rfl
      refine ⟨result, last, (leads.ends ends).mono (by omega), same.trans ?_,
        fun before => quiet (ended.quiet before)⟩
      have fits : (∀ u ∈ t :: ts, u.Fits) ↔ ∀ u ∈ rest, u.Fits := by
        rw [split]
        simp only [List.forall_mem_append, List.forall_mem_cons]
        exact ⟨fun all => all.2.2, fun all => ⟨fun u member => (inline u member).1, trivial, all⟩⟩
      simp only [fits]
    | @broken line rest u after split inline large ends left =>
      have lengths := congrArg List.length split
      simp only [List.length_append, List.length_cons] at lengths size
      refine ⟨_, after, ends.mono (by omega), (if_neg fun all => large (all u ?_)).symm, left.quiet⟩
      simp [split]

theorem start_shows (source : String) (session : Session) :
    Shows (.start (.ofSource source) session)
      ⟨[⟨0, none⟩], 0, session, closeLine false (tokens source.toList)⟩ :=
  ⟨rfl, rfl, rfl, rfl, .unread rfl rfl⟩

/-- Every evaluation ends within the steps that it is given. If no error is to be reported before
it, none is left. -/
theorem exists_eval (source : String) (session : Session) (flags : Trace.Flags) :
    ∃ r, eval source session flags = some r ∧
      (r.result = if ∀ t ∈ tokens source.toList, t.Fits then .ok (.accept none)
        else .error (.lexer .numberTooLarge)) ∧
      (session.pending = none → r.final.context.pending = none) := by
  obtain ⟨result, after, ends, same, quiet⟩ :=
    ends_input session (closeLine_closed false (tokens source.toList))
  have length : (closeLine false (tokens source.toList)).length ≤ source.length + 1 := by
    rw [← String.length_toList]
    exact (Scanner.ofSource source).tokens_length
  have within := ((moves_start session _).leads.ends ends).mono (n := stepBound source)
    (by unfold stepBound; omega)
  obtain ⟨r, ended, agrees, rfl⟩ := within flags _ (start_shows source session)
  refine ⟨r, ended, ?_, quiet⟩
  rw [agrees, same]
  simp only [fits_closeLine]

/-- Every evaluation ends within the steps that it is given. It accepts if all numbers of the source
are words, and breaks off at the lexer otherwise; no syntax error and no failing operation makes any
difference to that. -/
theorem eval_total (source : String) (session : Session) (flags : Trace.Flags) :
    ∃ r, eval source session flags = some r ∧
      r.result = if ∀ t ∈ tokens source.toList, t.Fits then .ok (.accept none)
        else .error (.lexer .numberTooLarge) := by
  obtain ⟨r, ended, result, _⟩ := exists_eval source session flags
  exact ⟨r, ended, result⟩

end ShiftReduce.Calculator
