import ShiftReduce.Proofs.Calculator.Lines

namespace ShiftReduce.Calculator

/-- Tokens within a line that are no numbers that are too large. -/
def Inline (ts : List Token) : Prop := ∀ t ∈ ts, t.Fits ∧ t ≠ .newline

theorem Inline.nil : Inline [] := by simp [Inline]

theorem Inline.cons {t : Token} {ts : List Token} (fits : t.Fits) (inside : t ≠ .newline)
    (inline : Inline ts) : Inline (t :: ts) :=
  List.forall_mem_cons.mpr ⟨⟨fits, inside⟩, inline⟩

theorem Inline.append {ts us : List Token} (first : Inline ts) (second : Inline us) :
    Inline (ts ++ us) :=
  List.forall_mem_append.mpr ⟨first, second⟩

/-- The token may stand behind a phrase of this level without going on with it. -/
structure Follows (level : Level) (isOpen : Bool) (t : Token) : Prop where
  loose : level = .expr → ∀ op : Operator, op.level = .term → t ≠ op.token
  closed : isOpen = true → ∀ op : Operator, t ≠ op.token

theorem Follows.of_primary (t : Token) : Follows .primary false t := ⟨by simp, by simp⟩

/-- An operator that follows a phrase can take it for its left operand. -/
theorem Follows.operand {level : Level} {isOpen : Bool} {op : Operator} {ts : List Token} {e : Expr}
    (follows : Follows level isOpen op.token) (phrase : Phrase level isOpen ts e) :
    Phrase op.level false ts e := by
  have closed : isOpen = false := by
    cases isOpen with
    | false => rfl
    | true => exact absurd rfl (follows.closed rfl op)
  have tight : level ≤ op.level := by
    cases tighter : op.level with
    | expr => cases level <;> decide
    | term =>
      cases level with
      | expr => exact absurd rfl (follows.loose rfl op tighter)
      | primary | unary | term => decide
    | primary | unary => cases op <;> simp [Operator.level] at tighter
  subst closed
  exact phrase.lift tight

inductive Fails (s : Situation) : Prop where
  | spoilt {ts rest : List Token} {symbols : Symbols} {message : String}
      (split : s.input = ts ++ rest) (more : rest ≠ []) (inline : Inline ts)
      (leads : Leads (4 * ts.length + 1) s
        ⟨spoiltStack, 3, { s.session with symbols }.reported message, rest⟩)
  | broken {ts rest : List Token} {t : Token} {symbols : Symbols}
      (split : s.input = ts ++ t :: rest) (inline : Inline ts) (large : ¬ t.Fits)
      (ends : Ends (4 * ts.length + 1) s (.error (.lexer .numberTooLarge))
        { s.session with symbols })

/-- The second situation comes of the first one by getting past these tokens. -/
structure Passes (cost : Nat) (s s' : Situation) (passed : List Token) : Prop where
  leads : Leads cost s s'
  split : s.input = passed ++ s'.input
  inline : Inline passed
  session : ∃ symbols, s'.session = { s.session with symbols }

/-- What comes of an expression that is expected, of which the tokens `before` were read. -/
inductive Reading (s : Situation) (ctx : Context) (stack : Stack) (before : List Token) : Prop where
  | expression {level : Level} {isOpen : Bool} {ts rest : List Token} {t : Token} {e : Expr} {v : Int}
      {session : Session} (phrase : Phrase level isOpen (before ++ ts) e) (le : level ≤ ctx.level)
      (follows : Follows level isOpen t) (final : ctx.Final t)
      (passes : Passes (4 * ts.length) s
        ⟨⟨ctx.goto, some (.number v)⟩ :: stack, 0, session, t :: rest⟩ ts)
  | fails (fails : Fails s)

theorem Fails.of_missed {s : Situation} (more : s.input ≠ []) (missed : ∃ message,
    Leads 1 s ⟨spoiltStack, 3, s.session.reported message, s.input⟩) : Fails s := by
  obtain ⟨message, leads⟩ := missed
  exact @Fails.spoilt s [] s.input s.session.symbols message rfl more .nil leads

section Passing

variable {s s' : Situation} {passed : List Token} {cost : Nat}

theorem Passes.fails (passes : Passes cost s s' passed) (within : cost ≤ 4 * passed.length)
    (fails : Fails s') : Fails s := by
  obtain ⟨leads, split, inline, symbols, session⟩ := passes
  cases fails with
  | @spoilt ts rest _ _ split' more inline' leads' =>
    rw [session] at leads'
    have le := (leads.trans leads').mono (n := 4 * (passed ++ ts).length + 1)
      (by rw [List.length_append]; omega)
    exact .spoilt (by rw [split, split', List.append_assoc]) more (inline.append inline') le
  | @broken ts rest t _ split' inline' large ends' =>
    rw [session] at ends'
    have le := (leads.ends ends').mono (n := 4 * (passed ++ ts).length + 1)
      (by rw [List.length_append]; omega)
    exact .broken (by rw [split, split', List.append_assoc]) (inline.append inline') large le

theorem Passes.trans {s'' : Situation} {passed' : List Token} {cost' : Nat}
    (first : Passes cost s s' passed) (second : Passes cost' s' s'' passed') :
    Passes (cost + cost') s s'' (passed ++ passed') := by
  obtain ⟨symbols, session⟩ := second.session
  obtain ⟨symbols', session'⟩ := first.session
  refine ⟨first.leads.trans second.leads, ?_, first.inline.append second.inline, symbols, ?_⟩
  · rw [first.split, second.split, List.append_assoc]
  · rw [session, session']

theorem Passes.mono {n : Nat} (passes : Passes cost s s' passed) (le : cost ≤ n) :
    Passes n s s' passed :=
  { passes with leads := passes.leads.mono le }

theorem Passes.reading {ctx : Context} {stack : Stack} {before : List Token}
    (passes : Passes cost s s' passed) (within : cost ≤ 4 * passed.length)
    (reading : Reading s' ctx stack (before ++ passed)) : Reading s ctx stack before := by
  cases reading with
  | fails failed => exact .fails (passes.fails within failed)
  | @expression level isOpen ts rest t e v session phrase le follows final passes' =>
    rw [List.append_assoc] at phrase
    have both := (passes.trans passes').mono (n := 4 * (passed ++ ts).length)
      (by rw [List.length_append]; omega)
    exact .expression phrase le follows final both

theorem Passes.closed (passes : Passes cost s s' passed) (closed : Closed s.input) :
    Closed s'.input :=
  .of_append passed (passes.split ▸ closed)

theorem Passes.length (passes : Passes cost s s' passed) :
    s.input.length = passed.length + s'.input.length := by
  rw [passes.split, List.length_append]

/-- A value that is computed is read behind, and one that is missing spoils the line. -/
theorem Passes.yields {ctx : Context} {stack : Stack} {before : List Token} {v : Option Int}
    (passes : Passes cost s s' passed) (within : cost + 1 ≤ 4 * passed.length)
    (yields : Yields s' ctx stack v) (more : s'.input ≠ [])
    (behind : ∀ n : Int, Reading ⟨⟨ctx.goto, some (.number n)⟩ :: stack, 0, s'.session, s'.input⟩ ctx
      stack (before ++ passed)) : Reading s ctx stack before := by
  cases v with
  | some n =>
    have yielded : Passes 1 s' ⟨⟨ctx.goto, some (.number n)⟩ :: stack, 0, s'.session, s'.input⟩ [] :=
      ⟨yields.leads, rfl, .nil, s'.session.symbols, rfl⟩
    have both := passes.trans yielded
    rw [List.append_nil] at both
    exact both.reading within (behind n)
  | none =>
    obtain ⟨e, errs⟩ := yields
    exact .fails (passes.fails (by omega) (.of_missed more ⟨_, errs.leads⟩))

end Passing

/-- Whatever is expected before fewer than `n` tokens is read or fails. -/
def ReadsBelow (n : Nat) : Prop :=
  ∀ ctx stack session t ts, (t :: ts).length < n → Closed (t :: ts) → ctx.Under stack →
    (ctx = .line → t ≠ .newline) → Reading ⟨stack, 0, session, t :: ts⟩ ctx stack []

section Reading

variable {n : Nat}

theorem Passes.of_leads (passed ts : List Token) {cost : Nat} {stack stack' : Stack}
    {session : Session} (inline : Inline passed)
    (leads : Leads cost ⟨stack, 0, session, passed ++ ts⟩ ⟨stack', 0, session, ts⟩) :
    Passes cost ⟨stack, 0, session, passed ++ ts⟩ ⟨stack', 0, session, ts⟩ passed :=
  ⟨leads, rfl, inline, session.symbols, rfl⟩

theorem Fails.of_tooLarge {m : Nat} {value : Option Value} {below : Stack} {session : Session}
    {t : Token} {ts : List Token} (known : m < 26) (looks : (stateAt m).needsToken = true)
    (large : ¬ t.Fits) : Fails ⟨⟨m, value⟩ :: below, 0, session, t :: ts⟩ :=
  @Fails.broken _ [] ts t session.symbols rfl .nil large (ends_tooLarge known looks large 0 session)

/-- Behind a phrase, either an operator goes on with it or it is complete. -/
theorem reading_behind (below : ReadsBelow n) {ctx : Context} {stack : Stack}
    (under : ctx.Under stack) {session : Session} {v : Int} {level : Level} {isOpen : Bool}
    {before : List Token} {e : Expr} {t : Token} {ts : List Token} (within : (t :: ts).length ≤ n)
    (closed : Closed (t :: ts)) (phrase : Phrase level isOpen before e) (le : level ≤ ctx.level)
    (follows : Follows level isOpen t) :
    Reading ⟨⟨ctx.goto, some (.number v)⟩ :: stack, 0, session, t :: ts⟩ ctx stack before := by
  -- `below` reads the right operand of an operator, and the induction on what is left then goes on
  -- behind the operation, which has become part of the phrase
  induction size : ts.length using Nat.strongRecOn
    generalizing session v level isOpen before e t ts with
  | ind k ih =>
  have complete (final : ctx.Final t) :
      Reading ⟨⟨ctx.goto, some (.number v)⟩ :: stack, 0, session, t :: ts⟩ ctx stack before := by
    rw [← List.append_nil before] at phrase
    exact .expression phrase le follows final (.of_leads [] _ .nil (.refl _))
  -- a state that does not look reduces, whatever comes next, be it a number that is too large
  by_cases looks : ctx.Looks
  case neg =>
    refine complete ⟨fun looks' => absurd looks' looks, fun op le' _ => looks ?_⟩
    exact Level.le_trans (by cases op <;> decide) le'
  by_cases fits : t.Fits
  case neg => exact .fails (.of_tooLarge ctx.goto_inside.2 (ctx.goto_looks.mpr looks) fits)
  by_cases goes : ∃ op : Operator, op.level ≤ ctx.level ∧ t = op.token
  case neg => exact complete ⟨fun _ => fits, fun op le' same => goes ⟨op, le', same⟩⟩
  obtain ⟨op, le', rfl⟩ := goes
  obtain ⟨u, us, rfl⟩ := closed.more op.token_ne_newline
  obtain ⟨shifted, under'⟩ := under.operates session (u :: us) op le' (some (.number v))
  have first := Passes.of_leads [op.token] (u :: us)
    (.cons trivial op.token_ne_newline .nil) shifted.leads
  cases below (.operand op) _ session u us within closed.tail under' (by simp) with
  | fails failed => exact .fails (first.fails (by simp) failed)
  | @expression level' isOpen' rs rest t' e' v' session' right le'' follows' final passes =>
    have lengths := passes.length
    refine (first.trans passes).yields (by simp; omega) (under.operated session' rest op v v' final)
      (by simp) fun m => ?_
    refine ih rest.length ?_ ?_ (passes.closed closed.tail)
      (.binary op (follows.operand phrase) (right.lift le'')) le' ?_ rfl
    · simp at lengths size
      omega
    · simp at lengths within ⊢
      omega
    · exact ⟨fun loose inner tight =>
        final.halts inner (Operator.le_operand_iff.mpr ⟨loose, tight⟩), follows'.closed⟩

variable (below : ReadsBelow n) {ctx : Context} {stack : Stack} (under : ctx.Under stack)
  {session : Session} {ts : List Token}

include below under

theorem reading_number {k : Nat} (fits : (Token.number k).Fits)
    (within : (.number k :: ts).length ≤ n) (closed : Closed (.number k :: ts)) :
    Reading ⟨stack, 0, session, .number k :: ts⟩ ctx stack [] := by
  obtain ⟨u, us, rfl⟩ := closed.more (by simp)
  have first := Passes.of_leads [.number k] (u :: us) (.cons fits (by simp) .nil)
    (under.number session (u :: us) fits)
  refine first.reading (by simp) ?_
  exact reading_behind below under (Nat.le_of_succ_le within) closed.tail (.number k) (Nat.zero_le _)
    (.of_primary u)

theorem reading_name {name : String} (within : (.ident name :: ts).length ≤ n)
    (closed : Closed (.ident name :: ts)) :
    Reading ⟨stack, 0, session, .ident name :: ts⟩ ctx stack [] := by
  obtain ⟨u, us, rfl⟩ := closed.more (by simp)
  have shifted : Moves [.ident name] ⟨stack, 0, session, .ident name :: u :: us⟩
      ⟨⟨6, some (.ident name)⟩ :: stack, 0, session, u :: us⟩ :=
    under.shift session (u :: us) (t := .ident name) trivial ctx.state_select.2.1
  have first := Passes.of_leads [.ident name] (u :: us) (.cons trivial (by simp) .nil) shifted.leads
  by_cases fits : u.Fits
  case neg => exact .fails (first.fails (by simp) (.of_tooLarge (by decide) (by decide) fits))
  by_cases assigned : u = .mark '='
  case neg =>
    refine first.yields (by simp) (under.reads session us fits assigned) (by simp) fun m => ?_
    exact reading_behind below under (Nat.le_of_succ_le within) closed.tail (.ident name)
      (Nat.zero_le _) (.of_primary u)
  subst assigned
  obtain ⟨w, ws, rfl⟩ := closed.tail.more (by decide)
  obtain ⟨equated, under'⟩ := under.assigns session (w :: ws) name
  have second := first.trans
    (.of_leads [.mark '='] (w :: ws) (.cons trivial (by decide) .nil) equated.leads)
  cases below .assignment _ session w ws (Nat.le_of_succ_le within) closed.tail.tail under'
    (by simp) with
  | fails failed => exact .fails (second.fails (by simp) failed)
  | @expression level isOpen rs rest t e v session' phrase le follows final passes =>
    have assigned : Passes 1 _ ⟨⟨ctx.goto, some (.number v)⟩ :: stack, 0, session'.assign name v,
        t :: rest⟩ [] := ⟨(under.assigned session' rest v final).leads, rfl, .nil, _, rfl⟩
    have lengths := passes.length
    refine ((second.trans passes).trans assigned).reading (by simp; omega) ?_
    simp only [List.cons_append, List.nil_append, List.append_nil]
    refine reading_behind below under ?_ (passes.closed closed.tail.tail)
      (.assign name (phrase.lift le)) (Nat.zero_le _) ⟨by simp, fun _ op => final.halts op ?_⟩
    · simp at lengths within ⊢
      omega
    · cases op <;> decide

theorem reading_negation (within : (.mark '-' :: ts).length ≤ n) (closed : Closed (.mark '-' :: ts)) :
    Reading ⟨stack, 0, session, .mark '-' :: ts⟩ ctx stack [] := by
  obtain ⟨u, us, rfl⟩ := closed.more (by simp)
  obtain ⟨shifted, under'⟩ := under.negates session (u :: us)
  have first := Passes.of_leads [.mark '-'] (u :: us) (.cons trivial (by simp) .nil) shifted.leads
  cases below .negation _ session u us within closed.tail under' (by simp) with
  | fails failed => exact .fails (first.fails (by simp) failed)
  | @expression level isOpen rs rest t e v session' phrase le follows final passes =>
    have lengths := passes.length
    refine (first.trans passes).yields (by simp; omega) (under.negated session' (t :: rest) v)
      (by simp) fun m => ?_
    refine reading_behind below under ?_ (passes.closed closed.tail) (.negate (phrase.lift le))
      ctx.unary_le ⟨by simp, follows.closed⟩
    simp at lengths within ⊢
    omega

theorem reading_group (within : (.mark '(' :: ts).length ≤ n) (closed : Closed (.mark '(' :: ts)) :
    Reading ⟨stack, 0, session, .mark '(' :: ts⟩ ctx stack [] := by
  obtain ⟨u, us, rfl⟩ := closed.more (by simp)
  obtain ⟨shifted, under'⟩ := under.opens session (u :: us)
  have first := Passes.of_leads [.mark '('] (u :: us) (.cons trivial (by simp) .nil) shifted.leads
  cases below .group _ session u us within closed.tail under' (by simp) with
  | fails failed => exact .fails (first.fails (by simp) failed)
  | @expression level isOpen rs rest t e v session' phrase le follows final passes =>
    have lengths := passes.length
    have both := first.trans passes
    by_cases ends : t = .mark ')'
    case neg =>
      have missed := under'.missesBehind session' rest (.inr rfl) (some (.number v)) final (by simp)
        (fun _ => ends)
      exact .fails (both.fails (by simp; omega) (.of_missed (by simp) ⟨_, missed.leads⟩))
    subst ends
    obtain ⟨w, ws, rfl⟩ := (passes.closed closed.tail).more (by decide)
    have grouped := Passes.of_leads [.mark ')'] (w :: ws) (.cons trivial (by decide) .nil)
      (under.closes session' (w :: ws) v)
    refine (both.trans grouped).reading (by simp; omega) ?_
    refine reading_behind below under ?_ (passes.closed closed.tail).tail
      (.group (phrase.lift le)) (Nat.zero_le _) (.of_primary w)
    simp at lengths within ⊢
    omega

end Reading

/-- Where an expression is expected, it is read or the line fails. -/
theorem reads_below (n : Nat) : ReadsBelow n := by
  induction n with
  | zero => exact fun _ _ _ _ _ within => absurd within (Nat.not_lt_zero _)
  | succ n ih =>
    intro ctx stack session t ts within closed under inside
    have within := Nat.le_of_lt_succ within
    by_cases fits : t.Fits
    case neg =>
      obtain ⟨⟨value, below, rfl⟩, _⟩ := under
      exact .fails (.of_tooLarge ctx.state_lt ctx.state_looks fits)
    cases t with
    | number k => exact reading_number ih under fits within closed
    | ident name => exact reading_name ih under within closed
    | mark c =>
      by_cases sign : c = '-'
      case pos =>
        subst sign
        exact reading_negation ih under within closed
      by_cases opening : c = '('
      case pos =>
        subst opening
        exact reading_group ih under within closed
      have missed := under.misses session ts fits (by simp) (by simp) (by simpa using sign)
        (by simpa using opening) inside
      exact .fails (.of_missed (by simp) ⟨_, missed.leads⟩)

end ShiftReduce.Calculator
