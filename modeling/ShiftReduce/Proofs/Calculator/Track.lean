import ShiftReduce.Proofs.Calculator.Lines
import ShiftReduce.Proofs.Calculator.Sentences

/-! The stack spells the tokens of the line that were shifted, whatever was reduced since. What the
next step does is told from there: it reads on, it ends the line, or it meets an error. -/

namespace ShiftReduce.Calculator

open Place

/-- The stack up to where an operand is expected, and the tokens of the line that it stands for. -/
inductive Spells : Context → Stack → List Token → Prop where
  | line : Spells .line base []
  | negation {ctx : Context} {stack : Stack} {w : List Token} (outer : Spells ctx stack w) :
      Spells .negation (⟨7, none⟩ :: stack) (w ++ [.mark '-'])
  | group {ctx : Context} {stack : Stack} {w : List Token} (outer : Spells ctx stack w) :
      Spells .group (⟨8, none⟩ :: stack) (w ++ [.mark '('])
  | assignment {ctx : Context} {stack : Stack} {w : List Token} (name : String)
      (outer : Spells ctx stack w) :
      Spells .assignment (⟨12, none⟩ :: ⟨6, some (.ident name)⟩ :: stack)
        (w ++ [.ident name, .mark '='])
  | operand {ctx : Context} {stack : Stack} {w ts : List Token} (op : Operator) (v : Int)
      (outer : Spells ctx stack w) (le : op.level ≤ ctx.level) (left : Expression ts) :
      Spells (.operand op) (⟨op.state, none⟩ :: ⟨ctx.goto, some (.number v)⟩ :: stack)
        (w ++ ts ++ [op.token])

namespace Spells

variable {ctx : Context} {stack : Stack} {w ts : List Token}

theorem under (spells : Spells ctx stack w) : ctx.Under stack := by
  induction spells with
  | line => exact Context.under_line
  | negation _ ih => exact ⟨⟨none, _, rfl⟩, ih.grounded.push none (by decide)⟩
  | group _ ih => exact ⟨⟨none, _, rfl⟩, ih.grounded.push none (by decide)⟩
  | assignment name _ ih =>
    exact ⟨⟨none, _, rfl⟩, (ih.grounded.push _ (by decide)).push none (by decide)⟩
  | operand op v _ _ _ ih =>
    refine ⟨⟨none, _, rfl⟩, (ih.grounded.push _ (Context.goto_inside _)).push none ?_⟩
    cases op <;> decide

/-- Any expression may stand where one is expected. -/
theorem completes (spells : Spells ctx stack w) (expression : Expression ts) :
    ∃ rest, Line (w ++ ts ++ rest) := by
  induction spells generalizing ts with
  | line => exact ⟨[.newline], .expression expression⟩
  | negation _ ih =>
    obtain ⟨rest, line⟩ := ih (.negate expression)
    exact ⟨rest, by simpa using line⟩
  | group _ ih =>
    obtain ⟨rest, line⟩ := ih (.group expression)
    exact ⟨.mark ')' :: rest, by simpa using line⟩
  | assignment name _ ih =>
    obtain ⟨rest, line⟩ := ih (.assign name expression)
    exact ⟨rest, by simpa using line⟩
  | operand op _ _ _ left ih =>
    obtain ⟨rest, line⟩ := ih (.binary op left expression)
    exact ⟨rest, by simpa using line⟩

theorem viable (spells : Spells ctx stack w) (expression : Expression ts) : Viable (w ++ ts) :=
  spells.completes expression

/-- Whatever an expression goes on with may follow what it begins with. -/
theorem begins (spells : Spells ctx stack w) {t : Token} {rest : List Token}
    (expression : Expression (ts ++ t :: rest)) : Viable (w ++ ts ++ [t]) := by
  have viable := spells.viable expression
  have split : w ++ (ts ++ t :: rest) = (w ++ ts ++ [t]) ++ rest := by simp
  rw [split] at viable
  exact viable.of_append

/-- The scan of the tokens expects an operand, too, behind as many open parentheses. -/
theorem scan (spells : Spells ctx stack w) : ∃ p depth, lineStart.scan w = some p ∧
    p.Expects depth ∧ (p = .lineStart → ctx = .line) ∧ (ctx = .line → depth = 0) ∧
    (ctx = .group → depth ≠ 0) := by
  induction spells with
  | line => exact ⟨.lineStart, 0, rfl, .inr ⟨rfl, rfl⟩, by simp, by simp, by simp⟩
  | negation _ ih =>
    obtain ⟨p, depth, scanned, expects, _⟩ := ih
    refine ⟨.operand depth, depth, ?_, .inl rfl, by simp, by simp, by simp⟩
    rw [scan_append_of_scan scanned]
    exact scan_cons_of_next (expects.next (by simp))
  | group _ ih =>
    obtain ⟨p, depth, scanned, expects, _⟩ := ih
    refine ⟨.operand (depth + 1), depth + 1, ?_, .inl rfl, by simp, by simp, by simp⟩
    rw [scan_append_of_scan scanned]
    exact scan_cons_of_next (expects.next (by simp))
  | assignment name _ ih =>
    obtain ⟨p, depth, scanned, expects, _⟩ := ih
    refine ⟨.operand depth, depth, ?_, .inl rfl, by simp, by simp, by simp⟩
    rw [scan_append_of_scan scanned, scan_cons_of_next (q := .name depth) (expects.next (by simp))]
    exact scan_cons_of_next rfl
  | operand op _ _ _ left ih =>
    obtain ⟨p, depth, scanned, expects, _⟩ := ih
    obtain ⟨q, scanned', completes⟩ := left.scan expects
    refine ⟨.operand depth, depth, ?_, .inl rfl, by simp, by simp, by simp⟩
    rw [scan_append_of_scan (scan_append_of_scan scanned |>.trans scanned')]
    exact scan_cons_of_next
      ((completes.next op.token_ne_equals).trans (proceed_operator depth op))

end Spells

/-- The terminals that a state lists can follow these tokens, but for the end of the input. -/
def Follow (n : Nat) (w : List Token) : Prop :=
  ∀ name ∈ (stateAt n).expected, name ≠ errorToken → name ≠ endToken →
    ∃ t : Token, t.name = name ∧ Viable (w ++ [t])

/-- What an error says of the tokens before it: a token that is missed is the first that no line
goes on with. -/
def Explains (w skipped input : List Token) : Cause → Prop
  | .missed n t => skipped = [] ∧ input.head? = some t ∧ ¬ Viable (w ++ [t]) ∧ Follow n w
  | .failed _ | .skipped => True

section Errors

variable {ctx : Context} {stack : Stack} {w ts input : List Token} {t : Token}

theorem Spells.follow (spells : Spells ctx stack w) : Follow ctx.state w := by
  intro name listed errorless endless
  have begins (u : Token) (rest : List Token) (expression : Expression ([] ++ u :: rest)) :
      Viable (w ++ [u]) := by
    simpa using spells.begins expression
  rcases ctx.state_expected name listed with named | ⟨rfl, named⟩
  · simp only [List.mem_cons, List.not_mem_nil, or_false] at named
    rcases named with rfl | rfl | rfl | rfl
    · exact ⟨.number 0, rfl, begins _ [] (.number 0)⟩
    · exact ⟨.ident "x", rfl, begins _ [] (.ident "x")⟩
    · exact ⟨.mark '-', rfl, begins _ _ (.negate (.number 0))⟩
    · exact ⟨.mark '(', rfl, begins _ _ (.group (.number 0))⟩
  · simp only [List.mem_cons, List.not_mem_nil, or_false] at named
    rcases named with rfl | rfl | rfl
    · exact absurd rfl endless
    · cases spells
      exact ⟨.newline, rfl, [], .blank⟩
    · exact absurd rfl errorless

theorem Spells.followBehind (spells : Spells ctx stack w) (operand : Expression ts) :
    Follow ctx.goto (w ++ ts) := by
  intro name listed _ _
  rcases ctx.goto_expected name listed with ⟨op, _, _, rfl⟩ | ⟨rfl, rfl⟩ | ⟨rfl, rfl⟩
  · exact ⟨op.token, rfl, spells.begins (.binary op operand (.number 0))⟩
  · cases spells
    exact ⟨.newline, rfl, [], by simpa using Line.expression operand⟩
  · cases spells with
    | group outer =>
      have viable := outer.viable (.group operand)
      exact ⟨.mark ')', rfl, by simpa using viable⟩

/-- A token with which no expression begins is in error where one is expected. -/
theorem Spells.missed (spells : Spells ctx stack w) (numberless : ∀ n, t ≠ .number n)
    (nameless : ∀ name, t ≠ .ident name) (signless : t ≠ .mark '-') (closed : t ≠ .mark '(')
    (inside : ctx = .line → t ≠ .newline) : Explains w [] (t :: ts) (.missed ctx.state t) := by
  refine ⟨rfl, rfl, ?_, spells.follow⟩
  obtain ⟨p, depth, scanned, expects, start, _, _⟩ := spells.scan
  refine not_viable_of_stuck scanned ?_
  have stuck : begin depth t = none := begin_none numberless nameless signless closed
  rcases expects with rfl | ⟨rfl, rfl⟩
  · exact stuck
  · exact (if_neg (inside (start rfl))).trans stuck

/-- No equals sign follows a name that was read. -/
def Reads (ts input : List Token) : Prop := endsInName ts → input.head? ≠ some (.mark '=')

theorem Reads.append {us : List Token} (reads : Reads us input) (nonempty : us ≠ [])
    (ts : List Token) : Reads (ts ++ us) input :=
  fun ends => reads (endsInName_append nonempty ends)

/-- A token that goes on with no operand, and closes neither its line nor its group, is in error
behind one. -/
theorem Spells.missedBehind (spells : Spells ctx stack w) (within : ctx = .line ∨ ctx = .group)
    (operand : Expression ts) (reads : Reads ts (t :: input)) (final : ctx.Final t)
    (inside : ctx = .line → t ≠ .newline) (grouped : ctx = .group → t ≠ .mark ')') :
    Explains (w ++ ts) [] (t :: input) (.missed ctx.goto t) := by
  refine ⟨rfl, rfl, ?_, spells.followBehind operand⟩
  obtain ⟨p, depth, scanned, expects, _, outermost, nested⟩ := spells.scan
  obtain ⟨q, scanned', completes⟩ := operand.scan expects
  refine not_viable_of_stuck (scan_append_of_scan scanned |>.trans scanned') ?_
  have halts (op : Operator) : t ≠ op.token := by
    refine final.halts op ?_
    rcases within with rfl | rfl <;> cases op <;> decide
  have stuck : proceed depth t = none := by
    refine proceed_none halts (fun closes => ?_) fun ends => ?_
    · rcases within with rfl | rfl
      · exact outermost rfl
      · exact absurd closes (grouped rfl)
    · rcases within with rfl | rfl
      · exact absurd ends (inside rfl)
      · exact nested rfl
  by_cases assigns : t = .mark '='
  · subst assigns
    rcases completes with rfl | ⟨_, ends⟩
    · exact stuck
    · exact absurd rfl (reads ends)
  · exact (completes.next assigns).trans stuck

end Errors

/-- Where a run is within a line, of which the tokens `w` were shifted. -/
inductive Inside : Stack → (w input : List Token) → Prop where
  | expects {ctx : Context} {stack : Stack} {w input : List Token} (spells : Spells ctx stack w) :
      Inside stack w input
  | number {ctx : Context} {stack : Stack} {w input : List Token} (spells : Spells ctx stack w)
      (n : Nat) : Inside (⟨5, some (.number n)⟩ :: stack) (w ++ [.number n]) input
  | name {ctx : Context} {stack : Stack} {w input : List Token} (spells : Spells ctx stack w)
      (name : String) : Inside (⟨6, some (.ident name)⟩ :: stack) (w ++ [.ident name]) input
  | grouped {ctx : Context} {stack : Stack} {w ts input : List Token} (spells : Spells ctx stack w)
      (v : Int) (inner : Expression ts) :
      Inside (⟨21, none⟩ :: ⟨14, some (.number v)⟩ :: ⟨8, none⟩ :: stack)
        (w ++ (.mark '(' :: ts ++ [.mark ')'])) input
  | behind {ctx : Context} {stack : Stack} {w ts input : List Token} (spells : Spells ctx stack w)
      (v : Int) (operand : Expression ts) (reads : Reads ts input) :
      Inside (⟨ctx.goto, some (.number v)⟩ :: stack) (w ++ ts) input

/-- Where a run is. Of the current line the tokens `w` were shifted and the tokens `skipped` thrown
away; `due` is 1 if its newline was shifted and it has not been counted yet. -/
inductive At : (w skipped : List Token) → (due : Nat) → Situation → Prop where
  | start {session : Session} {input : List Token} : At [] [] 0 ⟨[⟨0, none⟩], 0, session, input⟩
  | inside {stack : Stack} {w input : List Token} {session : Session}
      (inside : Inside stack w input) : At w [] 0 ⟨stack, 0, session, input⟩
  | blank {session : Session} {input : List Token} :
      At [] [] 1 ⟨⟨3, none⟩ :: base, 0, session, input⟩
  | result {session : Session} {input : List Token} (v : Int) :
      At [] [] 1 ⟨⟨15, none⟩ :: ⟨10, some (.number v)⟩ :: base, 0, session, input⟩
  | spoilt {w skipped input : List Token} {session : Session} (viable : Viable w)
      (more : input ≠ []) :
      At w skipped 0 ⟨spoiltStack, 3, session, input⟩
  | mended {session : Session} {input : List Token} :
      At [] [] 1 ⟨⟨11, none⟩ :: spoiltStack, 2, session, input⟩
  | counted {session : Session} {input : List Token} :
      At [] [] 0 ⟨⟨9, none⟩ :: base, 0, session, input⟩
  | atEnd {session : Session} : At [] [] 0 ⟨⟨2, none⟩ :: base, 0, session, []⟩

theorem Inside.viable {stack : Stack} {w input : List Token} (inside : Inside stack w input) :
    Viable w := by
  cases inside with
  | expects spells => exact (spells.viable (.number 0)).of_append
  | number spells n => exact spells.viable (.number n)
  | name spells name => exact spells.viable (.ident name)
  | grouped spells _ inner => exact spells.viable (.group inner)
  | behind spells _ operand => exact spells.viable operand

/-- Whatever was shifted of the current line begins a line. -/
theorem At.viable {w skipped : List Token} {due : Nat} {s : Situation} (here : At w skipped due s) :
    Viable w := by
  cases here with
  | start | blank | result | mended | counted | atEnd => exact ⟨_, .blank⟩
  | inside inside => exact inside.viable
  | spoilt viable => exact viable

/-- What the next step does. -/
inductive Next (w skipped : List Token) (due : Nat) (s : Situation) : Prop where
  | reads {shifted : List Token} {s' : Situation} (hops : Hops shifted s s')
      (input : s.input = shifted ++ s'.input) (inside : .newline ∉ shifted)
      (fresh : shifted = [] ∨ skipped = []) (lines : s'.session.lines = s.session.lines)
      (next : At (w ++ shifted) skipped due s')
  | ends {s' : Situation} (hops : Hops [.newline] s s') (input : s.input = .newline :: s'.input)
      (uncounted : due = 0) (lines : s'.session.lines = s.session.lines) (next : At [] [] 1 s')
  | counts {s' : Situation} (hops : Hops [] s s') (input : s.input = s'.input)
      (uncounted : due = 1) (lines : s'.session.lines = s.session.lines + 1)
      (next : At w skipped 0 s')
  | errs {cause : Cause} (dropped : List Token) {s' : Situation} (errs : Errs cause s s')
      (input : s.input = dropped ++ s'.input) (inside : .newline ∉ dropped) (uncounted : due = 0)
      (explains : Explains w skipped s.input cause) (lines : s'.session.lines = s.session.lines)
      (next : At w (skipped ++ dropped) due s')
  | stuck (stuck : Stuck s)

section Steps

variable {ctx : Context} {stack : Stack} {w ts input : List Token} {t : Token} {session : Session}

/-- A step that shifts no token, behind which the line goes on. -/
theorem Next.of_reduced {stack stack' : Stack} {session' : Session}
    (moves : Moves [] ⟨stack, 0, session, input⟩ ⟨stack', 0, session', input⟩)
    (lines : session'.lines = session.lines) (inside : Inside stack' w input) :
    Next w [] 0 ⟨stack, 0, session, input⟩ := by
  refine .reads moves.hops rfl (by simp) (.inl rfl) lines ?_
  rw [List.append_nil]
  exact .inside inside

theorem Next.of_shifted {stack stack' : Stack} {t : Token}
    (moves : Moves [t] ⟨stack, 0, session, t :: input⟩ ⟨stack', 0, session, input⟩)
    (other : t ≠ .newline) (inside : Inside stack' (w ++ [t]) input) :
    Next w [] 0 ⟨stack, 0, session, t :: input⟩ :=
  .reads moves.hops rfl (by simpa using other.symm) (.inr rfl) rfl (.inside inside)

theorem Next.of_error {stack : Stack} {cause : Cause} {session' : Session}
    (errs : Errs cause ⟨stack, 0, session, input⟩ ⟨spoiltStack, 3, session', input⟩)
    (viable : Viable w) (more : input ≠ []) (explains : Explains w [] input cause)
    (lines : session'.lines = session.lines) : Next w [] 0 ⟨stack, 0, session, input⟩ :=
  .errs [] errs rfl (by simp) rfl explains lines (.spoilt viable more)

theorem Yields.next {s : Situation} {stack : Stack} {v : Option Int} (yields : Yields s ctx stack v)
    (fresh : s.errorStatus = 0) (spells : Spells ctx stack w) (operand : Expression ts)
    (reads : Reads ts s.input) (more : s.input ≠ []) : Next (w ++ ts) [] 0 s := by
  obtain ⟨stack', errorStatus, session, input⟩ := s
  obtain rfl : errorStatus = 0 := fresh
  cases v with
  | some v => exact .of_reduced yields rfl (.behind spells v operand reads)
  | none =>
    obtain ⟨e, errs⟩ := yields
    exact .of_error errs (spells.viable operand) more trivial rfl

/-- Where an expression is expected. -/
theorem Spells.next (spells : Spells ctx stack w) (more : w ≠ [] → input ≠ []) :
    Next w [] 0 ⟨stack, 0, session, input⟩ := by
  have under := spells.under
  cases input with
  | nil =>
    have empty : w = [] := by
      by_cases empty : w = []
      · exact empty
      · exact absurd rfl (more empty)
    cases spells with
    | line => exact .reads (hops_end session) rfl (by simp) (.inl rfl) rfl .atEnd
    | negation | group | assignment | operand => simp at empty
  | cons t ts =>
    by_cases fits : t.Fits
    case neg =>
      obtain ⟨⟨value, below, rfl⟩, _⟩ := under
      exact .stuck (stuck_tooLarge ctx.state_lt ctx.state_looks fits)
    cases t with
    | number n =>
      exact .of_shifted (under.shift session ts fits ctx.state_select.1) (by simp)
        (.number spells n)
    | ident name =>
      exact .of_shifted (under.shift session ts fits ctx.state_select.2.1) (by simp)
        (.name spells name)
    | mark c =>
      by_cases sign : c = '-'
      case pos =>
        subst sign
        exact .of_shifted (under.negates session ts).1 (by simp) (.expects (.negation spells))
      by_cases opening : c = '('
      case pos =>
        subst opening
        exact .of_shifted (under.opens session ts).1 (by simp) (.expects (.group spells))
      by_cases blank : ctx = .line ∧ c = '\n'
      case pos =>
        obtain ⟨rfl, rfl⟩ := blank
        cases spells
        exact .ends (moves_blank session ts).hops rfl rfl rfl .blank
      have signless : Token.mark c ≠ .mark '-' := by simpa using sign
      have closed : Token.mark c ≠ .mark '(' := by simpa using opening
      have inside : ctx = .line → Token.mark c ≠ .newline := fun here same =>
        blank ⟨here, Token.mark.inj same⟩
      exact .of_error (under.misses session ts fits (by simp) (by simp) signless closed inside)
        (spells.viable (.number 0)).of_append (by simp)
        (spells.missed (by simp) (by simp) signless closed inside) rfl

/-- Behind a name, which is assigned to or read. -/
theorem Spells.nextName (spells : Spells ctx stack w) (name : String) (more : input ≠ []) :
    Next (w ++ [.ident name]) [] 0 ⟨⟨6, some (.ident name)⟩ :: stack, 0, session, input⟩ := by
  obtain ⟨t, ts, rfl⟩ := List.exists_cons_of_ne_nil more
  by_cases fits : t.Fits
  case neg => exact .stuck (stuck_tooLarge (by decide) (by decide) fits)
  by_cases assigned : t = .mark '='
  case pos =>
    subst assigned
    refine .of_shifted (spells.under.assigns session ts name).1 (by decide) ?_
    rw [List.append_assoc]
    exact .expects (.assignment name spells)
  case neg =>
    refine (spells.under.reads session ts fits assigned).next rfl spells (.ident name) ?_ more
    exact fun _ => by simpa using assigned

/-- Behind an operand that the next token does not go on with. -/
theorem Spells.nextComplete (spells : Spells ctx stack w) (v : Int) (operand : Expression ts)
    (reads : Reads ts (t :: input)) (final : ctx.Final t) :
    Next (w ++ ts) [] 0 ⟨⟨ctx.goto, some (.number v)⟩ :: stack, 0, session, t :: input⟩ := by
  have under := spells.under
  cases spells with
  | line =>
    by_cases last : t = .newline
    case pos =>
      subst last
      exact .ends (moves_result session input _).hops rfl rfl rfl (.result v)
    case neg =>
      exact .of_error
        (under.missesBehind session input (.inl rfl) _ final (fun _ => last) (by simp))
        (Spells.line.viable operand) (by simp)
        (Spells.line.missedBehind (.inl rfl) operand reads final (fun _ => last) (by simp)) rfl
  | @group _ stack w outer =>
    by_cases closes : t = .mark ')'
    case pos =>
      subst closes
      have inside : Inside _ _ input := .grouped outer v operand
      refine .of_shifted (Context.moves_closing session input _) (by decide) ?_
      simpa using inside
    case neg =>
      exact .of_error
        (under.missesBehind session input (.inr rfl) _ final (by simp) (fun _ => closes))
        ((Spells.group outer).viable operand) (by simp)
        ((Spells.group outer).missedBehind (.inr rfl) operand reads final (by simp)
          (fun _ => closes)) rfl
  | @negation outer_ctx stack w outer =>
    rw [List.append_assoc, List.singleton_append]
    exact (outer.under.negated session (t :: input) v).next rfl outer (.negate operand)
      (reads.append operand.ne_nil [.mark '-']) (by simp)
  | @assignment outer_ctx stack w name outer =>
    rw [List.append_assoc]
    exact .of_reduced (outer.under.assigned session input v final) rfl
      (.behind outer v (.assign name operand)
        (reads.append operand.ne_nil [.ident name, .mark '=']))
  | @operand outer_ctx stack w ls op a outer le left =>
    have split : w ++ ls ++ [op.token] ++ ts = w ++ (ls ++ op.token :: ts) := by simp
    have reads' : Reads (ls ++ op.token :: ts) (t :: input) := by
      have append := reads.append operand.ne_nil (ls ++ [op.token])
      rwa [List.append_assoc] at append
    rw [split]
    exact (outer.under.operated session input op a v final).next rfl outer
      (.binary op left operand) reads' (by simp)

/-- Behind an operand. -/
theorem Spells.nextBehind (spells : Spells ctx stack w) (v : Int) (operand : Expression ts)
    (reads : Reads ts input) (more : input ≠ []) :
    Next (w ++ ts) [] 0 ⟨⟨ctx.goto, some (.number v)⟩ :: stack, 0, session, input⟩ := by
  obtain ⟨t, us, rfl⟩ := List.exists_cons_of_ne_nil more
  by_cases looks : ctx.Looks
  case neg =>
    -- the state reduces whatever comes, so that the token is not looked at
    refine spells.nextComplete v operand reads
      ⟨fun looks' => absurd looks' looks, fun op le _ => ?_⟩
    exact looks (Level.le_trans (by cases op <;> decide) le)
  by_cases fits : t.Fits
  case neg => exact .stuck (stuck_tooLarge ctx.goto_inside.2 (ctx.goto_looks.mpr looks) fits)
  by_cases goes : ∃ op : Operator, op.level ≤ ctx.level ∧ t = op.token
  case neg =>
    exact spells.nextComplete v operand reads ⟨fun _ => fits, fun op le same => goes ⟨op, le, same⟩⟩
  obtain ⟨op, le, rfl⟩ := goes
  exact .of_shifted (spells.under.operates session us op le _).1 op.token_ne_newline
    (.expects (.operand op v spells le operand))

theorem Inside.next {stack : Stack} (inside : Inside stack w input) (more : w ≠ [] → input ≠ []) :
    Next w [] 0 ⟨stack, 0, session, input⟩ := by
  cases inside with
  | expects spells => exact spells.next more
  | number spells n =>
    exact .of_reduced (spells.under.numbered session input n) rfl
      (.behind spells n (.number n) fun ⟨_, last⟩ => by simp at last)
  | name spells name => exact spells.nextName name (more (by simp))
  | @grouped ctx stack w ts _ spells v inner =>
    refine .of_reduced (spells.under.grouped session input v) rfl
      (.behind spells v (.group inner) fun ⟨_, last⟩ => ?_)
    rw [List.getLast?_concat] at last
    exact absurd (Option.some.inj last) (by simp)
  | behind spells v operand reads =>
    exact spells.nextBehind v operand reads (more (by simp [operand.ne_nil]))

end Steps

/-- What the next step does, wherever a run is. -/
theorem At.next {w skipped : List Token} {due : Nat} {s : Situation} (here : At w skipped due s)
    (closed : Closed s.input) (more : w ≠ [] → s.input ≠ []) : Next w skipped due s := by
  cases here with
  | @start session input =>
    exact .reads (moves_start session input).hops rfl (by simp) (.inl rfl) rfl
      (.inside (.expects .line))
  | inside inside => exact inside.next more
  | @blank session input =>
    exact .counts (moves_blankLine session input).hops rfl rfl rfl .counted
  | @result session input v =>
    exact .counts (moves_resultLine session input v).hops rfl rfl rfl .counted
  | @mended session input =>
    exact .counts (moves_spoiltLine session input).hops rfl rfl rfl .counted
  | @counted session input =>
    exact .reads (moves_nextLine session input).hops rfl (by simp) (.inl rfl) rfl
      (.inside (.expects .line))
  | atEnd => exact .stuck (stuck_accept _)
  | @spoilt _ _ input session viable nonempty =>
    obtain ⟨t, ts, rfl⟩ := List.exists_cons_of_ne_nil nonempty
    by_cases fits : t.Fits
    case neg => exact .stuck (stuck_tooLarge (by decide) (by decide) fits)
    by_cases last : t = .newline
    case pos =>
      subst last
      exact .ends (moves_mended session ts).hops rfl rfl rfl .mended
    case neg =>
      obtain ⟨u, us, rfl⟩ := closed.more last
      exact .errs [t] (errs_discard fits last session) rfl (by simpa using Ne.symm last)
        rfl trivial rfl (.spoilt viable (by simp))

end ShiftReduce.Calculator
