import Mathlib.Data.List.Basic
import ShiftReduce.Proofs.Calculator.Outcome

/-! Where an expression is expected, the automaton reads any phrase that stands there, whatever the
stack below and the tokens behind, and does with it what the evaluation of its syntax tree from left
to right does. -/

namespace ShiftReduce.Calculator

/-- The automaton comes to the value of an expression in front of the tokens `after`, or spoils the
line before it is past them. -/
def Comes (s : Situation) (ctx : Context) (stack : Stack) (after : List Token) :
    Evaluated → Prop
  | (some v, symbols) => ∃ cost, Leads cost s
      ⟨⟨ctx.goto, some (.number v)⟩ :: stack, 0, { s.session with symbols }, after⟩
  | (none, symbols) => ∃ cost passed left message, s.input = passed ++ left ++ after ∧
      Leads cost s ⟨spoiltStack, 3, { s.session with symbols }.reported message, left ++ after⟩

section Coming

variable {s s' : Situation} {ctx : Context} {stack : Stack} {after : List Token}

theorem Comes.of_leads {cost : Nat} (passed : List Token) {symbols : Symbols}
    (leads : Leads cost s s') (split : s.input = passed ++ s'.input)
    (session : s'.session = { s.session with symbols }) {outcome : Evaluated}
    (comes : Comes s' ctx stack after outcome) : Comes s ctx stack after outcome := by
  rcases outcome with ⟨_ | v, changed⟩
  · obtain ⟨cost', passed', left, message, split', leads'⟩ := comes
    rw [session] at leads'
    refine ⟨cost + cost', passed ++ passed', left, message, ?_, leads.trans leads'⟩
    rw [split, split']
    simp only [List.append_assoc]
  · obtain ⟨cost', leads'⟩ := comes
    rw [session] at leads'
    exact ⟨cost + cost', leads.trans leads'⟩

theorem Comes.of_yields {v : Option Int} (yields : Yields s ctx stack v) :
    Comes s ctx stack s.input (v, s.session.symbols) := by
  cases v with
  | some v => exact ⟨1, yields.leads⟩
  | none =>
    obtain ⟨e, errs⟩ := yields
    exact ⟨1, [], [], e.message, rfl, errs.leads⟩

/-- An operand that spoils its line leaves the expression without a value. -/
theorem Comes.failed {inner : Context} {above : Stack} {more : List Token} {symbols : Symbols}
    (comes : Comes s inner above (more ++ after) (none, symbols)) :
    Comes s ctx stack after (none, symbols) := by
  obtain ⟨cost, passed, left, message, split, leads⟩ := comes
  refine ⟨cost, passed, left ++ more, message, ?_, ?_⟩
  · rw [split]
    simp only [List.append_assoc]
  · rw [List.append_assoc]
    exact leads

/-- An operand is evaluated first, and the rest goes on from its value. -/
theorem Comes.bind {inner : Context} {above : Stack} (more : List Token) {outcome : Evaluated}
    {next : Int → Symbols → Evaluated}
    (comes : Comes s inner above (more ++ after) outcome)
    (split : ∃ passed, s.input = passed ++ (more ++ after))
    (continues : ∀ v symbols, Comes ⟨⟨inner.goto, some (.number v)⟩ :: above, 0,
      { s.session with symbols }, more ++ after⟩ ctx stack after (next v symbols)) :
    Comes s ctx stack after (outcome.andThen next) := by
  rcases outcome with ⟨_ | v, symbols⟩
  · exact comes.failed
  · obtain ⟨cost, leads⟩ := comes
    obtain ⟨passed, split⟩ := split
    exact (continues v symbols).of_leads passed leads split rfl

end Coming

/-- A phrase is evaluated where an expression of its level is expected, if the token behind it does
not go on with it. -/
theorem Phrase.evaluated {level : Level} {isOpen : Bool} {ts : List Token} {e : Expr}
    (phrase : Phrase level isOpen ts e) (fit : ∀ u ∈ ts, u.Fits) {ctx : Context} {stack : Stack}
    (under : ctx.Under stack) (le : level ≤ ctx.level) (session : Session) {t : Token}
    (rest : List Token) (fits : t.Fits) (follows : Follows level isOpen t) (read : t ≠ .mark '=') :
    Comes ⟨stack, 0, session, ts ++ t :: rest⟩ ctx stack (t :: rest) (e.eval session.symbols) := by
  -- over every stack and every rest, since an operand stands on an operator and before another one
  induction phrase generalizing ctx stack session t rest with
  | number n =>
    obtain ⟨fit, _⟩ := List.forall_mem_cons.mp fit
    exact ⟨2, under.number session (t :: rest) fit⟩
  | ident name =>
    have shifted : Moves [.ident name] ⟨stack, 0, session, .ident name :: t :: rest⟩
        ⟨⟨6, some (.ident name)⟩ :: stack, 0, session, t :: rest⟩ :=
      under.shift session (t :: rest) (t := .ident name) trivial ctx.state_select.2.1
    exact (Comes.of_yields (under.reads session rest fits read)).of_leads [.ident name] shifted.leads
      rfl rfl
  | @assign isOpen ts e name right ih =>
    obtain ⟨_, fit⟩ := List.forall_mem_cons.mp fit
    obtain ⟨_, fit⟩ := List.forall_mem_cons.mp fit
    have closed (op : Operator) : t ≠ op.token := follows.closed rfl op
    have shifted : Moves [.ident name]
        ⟨stack, 0, session, .ident name :: .mark '=' :: (ts ++ t :: rest)⟩
        ⟨⟨6, some (.ident name)⟩ :: stack, 0, session, .mark '=' :: (ts ++ t :: rest)⟩ :=
      under.shift session _ (t := .ident name) trivial ctx.state_select.2.1
    obtain ⟨equated, under'⟩ := under.assigns session (ts ++ t :: rest) name
    have right := ih fit under' (by decide) session rest fits ⟨fun _ op _ => closed op,
      fun _ => closed⟩ read
    refine Comes.of_leads [.ident name, .mark '='] (shifted.leads.trans equated.leads) rfl rfl ?_
    exact right.bind [] ⟨ts, rfl⟩ fun v symbols =>
      ⟨1, (under.assigned _ rest v ⟨fun _ => fits, fun op _ => closed op⟩).leads⟩
  | @group isOpen ts e inner ih =>
    have fit : ∀ u ∈ ts, u.Fits := fun u member => fit u (by simp [member])
    obtain ⟨shifted, under'⟩ := under.opens session (ts ++ .mark ')' :: t :: rest)
    have apart (op : Operator) : Token.mark ')' ≠ op.token := by cases op <;> decide
    have inner := ih fit under' (by decide) session (t := .mark ')') (t :: rest) trivial
      ⟨fun _ op _ => apart op, fun _ op => apart op⟩ (by decide)
    rw [← (e.eval session.symbols).andThen_value, List.append_assoc]
    refine Comes.of_leads [.mark '('] shifted.leads rfl rfl ?_
    exact inner.bind [.mark ')'] ⟨ts, rfl⟩ fun v symbols =>
      ⟨2, under.closes _ (t :: rest) v⟩
  | @negate isOpen ts e operand ih =>
    obtain ⟨_, fit⟩ := List.forall_mem_cons.mp fit
    obtain ⟨shifted, under'⟩ := under.negates session (ts ++ t :: rest)
    have operand := ih fit under' (by decide) session rest fits ⟨by simp, follows.closed⟩ read
    refine Comes.of_leads [.mark '-'] shifted.leads rfl rfl ?_
    exact operand.bind [] ⟨ts, rfl⟩ fun v symbols => .of_yields (under.negated _ (t :: rest) v)
  | ofPrimary _ ih | ofUnary _ ih | ofTerm _ ih =>
    exact ih fit under (Level.le_trans (by decide) le) session rest fits ⟨by simp, follows.closed⟩
      read
  | @binary isOpen ls rs l r op left right ihl ihr =>
    obtain ⟨fitl, fitr⟩ := List.forall_mem_append.mp fit
    obtain ⟨_, fitr⟩ := List.forall_mem_cons.mp fitr
    have apart (loose : op.level = .expr) (inner : Operator) (tight : inner.level = .term) :
        op.token ≠ inner.token := by
      intro same
      rw [Operator.token_injective same, tight] at loose
      contradiction
    have left := ihl fitl under le session (rs ++ t :: rest) (t := op.token) trivial
      ⟨apart, by simp⟩ op.token_ne_equals
    rw [List.append_assoc]
    refine left.bind (op.token :: rs) ⟨ls, rfl⟩ fun a middle => ?_
    obtain ⟨shifted, under'⟩ := under.operates { session with symbols := middle }
      (rs ++ t :: rest) op le (some (.number a))
    refine Comes.of_leads [op.token] shifted.leads rfl rfl ?_
    have right := ihr fitr under' (by cases op <;> decide) { session with symbols := middle } rest
      fits ⟨fun loose => by cases op <;> simp [Operator.operand] at loose, follows.closed⟩ read
    refine right.bind [] ⟨rs, rfl⟩ fun b symbols => ?_
    refine .of_yields (under.operated _ rest op a b ⟨fun _ => fits, fun inner le' => ?_⟩)
    obtain ⟨loose, tight⟩ := Operator.le_operand_iff.mp le'
    exact follows.loose loose inner tight

/-- What a line that is an expression makes of the session, by what the expression comes to. -/
inductive Settled (session : Session) : Evaluated → Session → Prop where
  | value (v : Int) (symbols : Symbols) :
      Settled session (some v, symbols) ({ session with symbols }.endLine.addResult (some v))
  | failure (symbols : Symbols) (message : String) :
      Settled session (none, symbols)
        (({ session with symbols }.reported message).endLine.addResult none)

theorem Phrase.settles_line {isOpen : Bool} {line : List Token} {e : Expr}
    (phrase : Phrase .expr isOpen line e) (inline : Inline line) (session : Session)
    (rest : List Token) : ∃ cost after,
      Leads cost ⟨base, 0, session, line ++ .newline :: rest⟩ ⟨base, 0, after, rest⟩ ∧
      Settled session (e.eval session.symbols) after := by
  have apart (op : Operator) : Token.newline ≠ op.token := op.token_ne_newline.symm
  have comes := phrase.evaluated (fun t member => (inline t member).1) Context.under_line (by decide)
    session rest (t := .newline) trivial ⟨fun _ op _ => apart op, fun _ op => apart op⟩ (by decide)
  generalize e.eval session.symbols = outcome at comes ⊢
  rcases outcome with ⟨_ | v, symbols⟩
  · obtain ⟨cost, passed, left, message, split, leads⟩ := comes
    have same : line = passed ++ left := List.append_cancel_right split
    have skipped : Inline left := fun t member => inline t (by simp [same, member])
    exact ⟨_, _, (leads.trans (leads_skip _ (.newline :: rest) skipped)).trans
      (leads_spoiltLine _ rest), .failure symbols message⟩
  · obtain ⟨cost, leads⟩ := comes
    exact ⟨_, _, leads.trans (leads_resultLine _ rest v), .value v symbols⟩

/-- A line that is an expression has its value for a result, or none if it has no value. -/
theorem Phrase.ends_line {isOpen : Bool} {line : List Token} {e : Expr}
    (phrase : Phrase .expr isOpen line e) (inline : Inline line) (session : Session)
    (rest : List Token) : ∃ cost after,
      Leads cost ⟨base, 0, session, line ++ .newline :: rest⟩ ⟨base, 0, after, rest⟩ ∧
      after.results = session.results.push (e.eval session.symbols).1 ∧
      after.symbols = (e.eval session.symbols).2 := by
  obtain ⟨cost, after, leads, settled⟩ := phrase.settles_line inline session rest
  refine ⟨cost, after, leads, ?_⟩
  generalize e.eval session.symbols = outcome at settled ⊢
  cases settled with
  | value | failure => exact ⟨rfl, rfl⟩

section

variable {source : String} {session : Session} {flags : Trace.Flags} {bound : Nat}
  {result : Result Value Error} {after : Session} {r : CalculatorRun}

/-- An evaluation ends as the situation in which it begins does. -/
theorem eval_ends
    (ends : Ends bound ⟨base, 0, session, closeLine false (tokens source.toList)⟩ result after)
    (ended : eval source session flags = some r) : r.result = result ∧ r.final.context = after := by
  obtain ⟨r', ended', agrees⟩ :=
    (moves_start session _).leads.ends ends flags _ (start_shows source session)
  rw [Parser.runFrom_unique ended ended']
  exact agrees

theorem eval_of_ends
    (ends : Ends bound ⟨base, 0, session, closeLine false (tokens source.toList)⟩ result after)
    (ended : eval source session flags = some r) : r.final.context = after :=
  (eval_ends ends ended).2

end

/-- A line without a number that is too large is read to its newline. -/
theorem Inline.ends_line {line : List Token} (inline : Inline line) (session : Session) :
    ∃ cost after, Leads cost ⟨base, 0, session, line ++ [.newline]⟩ ⟨base, 0, after, []⟩ ∧
      LineEnd session line after := by
  have closed : Closed (line ++ [.newline]) := by simp [Closed]
  cases reads_line session closed (by simp) with
  | @broken ts rest t _ split _ large =>
    have member : t ∈ line ++ [.newline] := by simp [split]
    rcases List.mem_append.mp member with inside | last
    · exact absurd (inline t inside).1 large
    · rw [List.mem_singleton.mp last] at large
      exact absurd trivial large
  | ended split _ ended leads =>
    obtain ⟨rfl, _, rfl⟩ := (List.append_cons_inj_of_notMem
      (fun member => (inline _ member).2 rfl) (by simp)).mp split
    exact ⟨_, _, leads, ended⟩

/-- What a line adds to the results is the value of an expression that it is, if it has one. -/
theorem LineEnd.results {session after : Session} {line : List Token}
    (ended : LineEnd session line after) (evaluated : ∀ {isOpen e}, Phrase .expr isOpen line e →
      after.results = session.results.push (e.eval session.symbols).1) :
    (line = [] → after.results = session.results) ∧
    (line ≠ [] → ∃ result, after.results = session.results.push result ∧
      ∀ v, result = some v ↔ ∃ isOpen e, Phrase .expr isOpen line e ∧
        (e.eval session.symbols).1 = some v) := by
  refine ⟨?_, fun nonempty => ?_⟩
  · rintro rfl
    cases ended with
    | blank => rfl
    | value phrase => exact absurd rfl phrase.ne_nil
    | spoilt nonempty => exact absurd rfl nonempty
  by_cases phrased : ∃ isOpen e, Phrase .expr isOpen line e
  · obtain ⟨isOpen, e, phrase⟩ := phrased
    refine ⟨_, evaluated phrase, fun v => ⟨fun same => ⟨isOpen, e, phrase, same⟩, ?_⟩⟩
    rintro ⟨_, e', phrase', same⟩
    -- the line may have several trees, but each of them told what was added
    have pushed := (evaluated phrase).symm.trans (evaluated phrase')
    rw [Array.push_eq_push] at pushed
    exact pushed.1.trans same
  · refine ⟨none, ?_, fun v => ⟨by simp, ?_⟩⟩
    · cases ended with
      | blank => exact absurd rfl nonempty
      | value phrase => exact absurd ⟨_, _, phrase⟩ phrased
      | spoilt => rfl
    · rintro ⟨isOpen, e, phrase, _⟩
      exact absurd ⟨isOpen, e, phrase⟩ phrased

/-- A line of a source that is evaluated adds its value to the results exactly if it is an
expression of the grammar and evaluates to that value, and otherwise adds a failure, unless it is
blank. If it is an expression, the variables are as its evaluation leaves them. -/
theorem eval_line (source : String) (session : Session) (flags : Trace.Flags) {line : List Token}
    (read : tokens source.toList = line ++ [.newline]) (inline : Inline line) :
    ∃ r, eval source session flags = some r ∧ r.result = .ok (.accept none) ∧
      (line = [] → r.final.context.results = session.results) ∧
      (line ≠ [] → ∃ result, r.final.context.results = session.results.push result ∧
        ∀ v, result = some v ↔ ∃ isOpen e, Phrase .expr isOpen line e ∧
          (e.eval session.symbols).1 = some v) ∧
      ∀ isOpen e, Phrase .expr isOpen line e →
        r.final.context.symbols = (e.eval session.symbols).2 := by
  obtain ⟨r, ended, result, _⟩ := exists_eval source session flags
  have fit : ∀ t ∈ tokens source.toList, t.Fits := by
    rw [read, List.forall_mem_append]
    exact ⟨fun t member => (inline t member).1, by simp [Token.Fits]⟩
  rw [if_pos fit] at result
  have ends {cost : Nat} {after : Session} (leads : Leads cost
      ⟨base, 0, session, line ++ [.newline]⟩ ⟨base, 0, after, []⟩) : r.final.context = after := by
    have closed : Closed (line ++ [.newline]) := by simp [Closed]
    rw [← closeLine_eq closed, ← read] at leads
    exact eval_of_ends (leads.ends (ends_accept after)) ended
  have evaluated {isOpen : Bool} {e : Expr} (phrase : Phrase .expr isOpen line e) :
      r.final.context.results = session.results.push (e.eval session.symbols).1 ∧
        r.final.context.symbols = (e.eval session.symbols).2 := by
    obtain ⟨cost, after, leads, results, symbols⟩ := phrase.ends_line inline session []
    rw [ends leads]
    exact ⟨results, symbols⟩
  obtain ⟨cost, after, leads, completed⟩ := inline.ends_line session
  rw [← ends leads] at completed
  obtain ⟨blank, added⟩ := completed.results fun phrase => (evaluated phrase).1
  exact ⟨r, ended, result, blank, added, fun _ _ phrase => (evaluated phrase).2⟩

/-- The negation holds tighter than the division, which drops the fraction, and the assignment
takes in both. -/
theorem eval_line_quotient :
    let line : List Token := [.ident "x", .mark '=', .mark '-', .number 7, .mark '/', .number 2]
    tokens "x = -7 / 2 # a comment\n".toList = line ++ [.newline] ∧ Inline line ∧
    ∃ r, eval "x = -7 / 2 # a comment\n" {} = some r ∧ r.final.context.results = #[some (-3)] ∧
      r.final.context.symbols.lookup? "x" = some (-3) := by
  intro line
  have read : tokens "x = -7 / 2 # a comment\n".toList = line ++ [.newline] := by decide
  have inline : Inline line := by
    unfold Inline
    decide
  have dividend : Phrase .term false [.mark '-', .number 7] (.negate (.number 7)) :=
    .ofUnary (.negate (.ofPrimary (.number 7)))
  have quotient := Phrase.binary .divide dividend (.ofPrimary (.number 2))
  have phrase : Phrase .expr true line _ := (Phrase.assign "x" (.ofTerm quotient)).lift (by decide)
  obtain ⟨r, ended, _, _, pushed, symbols⟩ := eval_line _ {} .none read inline
  obtain ⟨result, results, value⟩ := pushed (by simp [line])
  refine ⟨read, inline, r, ended, ?_, ?_⟩
  · rw [results, (value (-3)).mpr ⟨true, _, phrase, by decide⟩]
    rfl
  · rw [symbols true _ phrase]
    decide

end ShiftReduce.Calculator
