import ShiftReduce.Proofs.Calculator.Grammar
import ShiftReduce.Proofs.Calculator.Moves

namespace ShiftReduce.Calculator

theorem Chooses.blind {n : Nat} {input : List Token} {action : Option Action}
    (blind : Blind n action) : Chooses n input action := by
  obtain ⟨known, blind, default⟩ := blind
  exact ⟨known, fun looks => by simp [blind] at looks, (State.select_blind blind _).trans default⟩

theorem Chooses.unexpected {n : Nat} {t : Token} {ts : List Token} {action : Option Action}
    (known : n < 26) (fits : t.Fits) (unexpected : t.name ∉ (stateAt n).expected)
    (default : (stateAt n).default = action) : Chooses n (t :: ts) action :=
  ⟨known, fun _ => ⟨t, ts, rfl, fits⟩, (State.select_of_unexpected unexpected).trans default⟩

namespace Operator

def state : Operator → Nat
  | .plus => 16
  | .minus => 17
  | .times => 18
  | .divide => 19

def goto : Operator → Nat
  | .plus => 22
  | .minus => 23
  | .times => 24
  | .divide => 25

def rule : Operator → Nat
  | .plus => 9
  | .minus => 10
  | .times => 11
  | .divide => 12

def production : Operator → Production
  | .plus => .sum
  | .minus => .difference
  | .times => .product
  | .divide => .quotient

end Operator

/-- Where an expression is expected. -/
inductive Context where
  | line
  | negation
  | group
  | assignment
  | operand (op : Operator)
  deriving DecidableEq, Repr

namespace Context

instance (property : Context → Prop) [DecidablePred property] : Decidable (∀ ctx, property ctx) :=
  decidable_of_iff
    ((property .line ∧ property .negation ∧ property .group ∧ property .assignment) ∧
      ∀ op, property (.operand op))
    ⟨fun all ctx => by
      cases ctx with
      | line => exact all.1.1
      | negation => exact all.1.2.1
      | group => exact all.1.2.2.1
      | assignment => exact all.1.2.2.2
      | operand op => exact all.2 op,
    fun all => ⟨⟨all .line, all .negation, all .group, all .assignment⟩, fun op => all (.operand op)⟩⟩

def state : Context → Nat
  | .line => 1
  | .negation => 7
  | .group => 8
  | .assignment => 12
  | .operand op => op.state

def goto : Context → Nat
  | .line => 10
  | .negation => 13
  | .group => 14
  | .assignment => 20
  | .operand op => op.goto

/-- The loosest level that the expression may be of. -/
def level : Context → Level
  | .line | .group | .assignment => .expr
  | .negation => .unary
  | .operand op => op.operand

/-- The state behind the expression looks whether an operator goes on with it. -/
def Looks (ctx : Context) : Prop := .term ≤ ctx.level

instance : DecidablePred Looks := fun ctx => inferInstanceAs (Decidable (.term ≤ ctx.level))

structure Final (ctx : Context) (t : Token) : Prop where
  fits : ctx.Looks → t.Fits
  halts : ∀ op : Operator, op.level ≤ ctx.level → t ≠ op.token

structure Under (ctx : Context) (stack : Stack) : Prop where
  top : ∃ value below, stack = ⟨ctx.state, value⟩ :: below
  grounded : Grounded stack

theorem under_line : line.Under base := ⟨⟨none, _, rfl⟩, .base⟩

variable (ctx : Context)

theorem unary_le : .unary ≤ ctx.level := by
  revert ctx
  decide

theorem state_lt : ctx.state < 26 := by
  revert ctx
  decide

theorem goto_inside : 1 < ctx.goto ∧ ctx.goto < 26 := by
  revert ctx
  decide

theorem state_looks : (stateAt ctx.state).needsToken = true := by
  revert ctx
  decide

theorem goto_looks : (stateAt ctx.goto).needsToken = true ↔ ctx.Looks := by
  revert ctx
  decide

theorem state_goes : (stateAt ctx.state).goto? "exp" = some ctx.goto := by
  revert ctx
  decide

/-- What an operand begins with is shifted everywhere alike. -/
theorem state_select :
    (stateAt ctx.state).select (some "NUM") = some (.shift 5) ∧
    (stateAt ctx.state).select (some "VAR") = some (.shift 6) ∧
    (stateAt ctx.state).select (some "-") = some (.shift 7) ∧
    (stateAt ctx.state).select (some "(") = some (.shift 8) := by
  revert ctx
  decide

theorem state_expected : ∀ name ∈ (stateAt ctx.state).expected,
    name ∈ ["NUM", "VAR", "-", "("] ∨ ctx = .line ∧ name ∈ ["", "\n", "error"] := by
  revert ctx
  decide

theorem state_default : (stateAt ctx.state).default = none := by
  revert ctx
  decide

/-- No other token is shifted, but for the newline of a blank line. -/
theorem state_select_none {t : Token} (numberless : ∀ n, t ≠ .number n)
    (nameless : ∀ name, t ≠ .ident name) (signless : t ≠ .mark '-') (closed : t ≠ .mark '(')
    (inside : ctx = .line → t ≠ .newline) : (stateAt ctx.state).select (some t.name) = none := by
  have unexpected : t.name ∉ (stateAt ctx.state).expected := by
    intro member
    cases t with
    | number n => exact numberless n rfl
    | ident name => exact nameless name rfl
    | mark c =>
      have named := ctx.state_expected _ member
      simp only [Token.name, List.mem_cons, List.not_mem_nil, or_false, ← String.toList_inj] at named
      -- of the names that are listed only those of single characters can be the name of a mark
      simp at named signless closed inside
      grind
  rw [State.select_of_unexpected unexpected, state_default]

theorem goto_select (op : Operator) (le : op.level ≤ ctx.level) :
    (stateAt ctx.goto).select (some op.token.name) = some (.shift op.state) := by
  revert ctx op
  decide

theorem goto_expected : ∀ name ∈ (stateAt ctx.goto).expected,
    (∃ op ∈ [Operator.plus, .minus, .times, .divide], op.level ≤ ctx.level ∧ name = op.token.name) ∨
      ctx = .line ∧ name = Token.newline.name ∨ ctx = .group ∧ name = (Token.mark ')').name := by
  revert ctx
  decide

theorem goto_unexpected {t : Token} (halts : ∀ op : Operator, op.level ≤ ctx.level → t ≠ op.token)
    (inside : ctx = .line → t ≠ .newline) (grouped : ctx = .group → t ≠ .mark ')') :
    t.name ∉ (stateAt ctx.goto).expected := by
  intro member
  rcases ctx.goto_expected _ member with ⟨op, _, le, same⟩ | ⟨here, same⟩ | ⟨here, same⟩
  · exact halts op le (Token.name_eq_singleton_iff.mp same)
  · exact inside here (Token.name_eq_singleton_iff.mp same)
  · exact grouped here (Token.name_eq_singleton_iff.mp same)

/-- Behind a complete operand the state reduces by its default. -/
theorem Final.chooses {ctx : Context} {t : Token} {ts : List Token} {action : Option Action}
    (final : ctx.Final t) (within : ctx ≠ .line ∧ ctx ≠ .group)
    (default : (stateAt ctx.goto).default = action) : Chooses ctx.goto (t :: ts) action := by
  by_cases looks : ctx.Looks
  · refine .unexpected ctx.goto_inside.2 (final.fits looks) ?_ default
    exact ctx.goto_unexpected final.halts (fun here => absurd here within.1)
      (fun here => absurd here within.2)
  · refine .blind ⟨ctx.goto_inside.2, ?_, default⟩
    simpa using mt ctx.goto_looks.mp looks

end Context

section Reductions

variable {ctx : Context} {stack : Stack} (popped : Stack) {under : Stack} {n r : Nat}
  {value : Option Value} {p : Production} {session : Session} {input : List Token}

theorem Context.Under.replies (above : ctx.Under stack)
    (rule : tables.rules[r]? = some ⟨"exp", popped.length, none⟩)
    (found : Production.ofRule? r = some p) {reply : ActionReply}
    (act : p.act (values popped) session = reply) :
    ∃ value' below, stack = ⟨ctx.state, value'⟩ :: below ∧
      Replies ⟨popped ++ stack, 0, session, input⟩ r "exp" popped ⟨ctx.state, value'⟩ below
        reply := by
  obtain ⟨⟨value', below, rfl⟩, _⟩ := above
  exact ⟨value', below, rfl, rfl, rule, p, found, act⟩

/-- A reduction to an expression leads to the state behind it. -/
theorem Context.Under.reduces (above : ctx.Under stack) (top : popped = ⟨n, value⟩ :: under)
    (chooses : Chooses n input (some (.reduce r)))
    (rule : tables.rules[r]? = some ⟨"exp", popped.length, none⟩)
    (found : Production.ofRule? r = some p) {session' : Session} {v : Option Value}
    (act : p.act (values popped) session = session'.produce v) :
    Moves [] ⟨popped ++ stack, 0, session, input⟩ ⟨⟨ctx.goto, v⟩ :: stack, 0, session', input⟩ := by
  obtain ⟨value', below, same, replies⟩ := above.replies popped rule found act
  have top' : popped ++ stack = ⟨n, value⟩ :: (under ++ stack) := by rw [top, List.cons_append]
  rw [same] at replies top' ⊢
  exact replies.moves top' chooses rfl ctx.state_lt ctx.state_goes (.inl ⟨rfl, rfl⟩)

theorem Context.Under.fails (above : ctx.Under stack) (top : popped = ⟨n, value⟩ :: under)
    (chooses : Chooses n input (some (.reduce r)))
    (rule : tables.rules[r]? = some ⟨"exp", popped.length, none⟩)
    (found : Production.ofRule? r = some p) {e : LineError}
    (act : p.act (values popped) session = session.spoil e) :
    Errs (.failed e) ⟨popped ++ stack, 0, session, input⟩
      ⟨spoiltStack, 3, session.reported e.message, input⟩ := by
  obtain ⟨value', below, same, replies⟩ := above.replies popped rule found act
  have top' : popped ++ stack = ⟨n, value⟩ :: (under ++ stack) := by rw [top, List.cons_append]
  exact errs_fail replies rfl top' chooses (same ▸ above.grounded)

/-- The value of an operation takes the place of its operands; without a value the line is
spoilt. -/
def Yields (s : Situation) (ctx : Context) (stack : Stack) (v : Option Int) : Prop :=
  match v with
  | some n => Moves [] s ⟨⟨ctx.goto, some (.number n)⟩ :: stack, 0, s.session, s.input⟩
  | none => ∃ e : LineError,
    Errs (.failed e) s ⟨spoiltStack, 3, s.session.reported e.message, s.input⟩

theorem Context.Under.computes (above : ctx.Under stack) (top : popped = ⟨n, value⟩ :: under)
    (chooses : Chooses n input (some (.reduce r)))
    (rule : tables.rules[r]? = some ⟨"exp", popped.length, none⟩)
    (found : Production.ofRule? r = some p) {result : Except LineError Int}
    (act : p.act (values popped) session = session.compute result) :
    Yields ⟨popped ++ stack, 0, session, input⟩ ctx stack result.toOption := by
  cases result with
  | ok v => exact above.reduces popped top chooses rule found act
  | error e => exact ⟨e, above.fails popped top chooses rule found act⟩

end Reductions

namespace Context

section Operands

variable {ctx : Context} {stack : Stack} (under : ctx.Under stack) (session : Session)
  (ts : List Token)

include under

theorem Under.shift {t : Token} {target : Nat} (fits : t.Fits)
    (selected : (stateAt ctx.state).select (some t.name) = some (.shift target)) :
    Moves [t] ⟨stack, 0, session, t :: ts⟩ ⟨⟨target, t.value⟩ :: stack, 0, session, ts⟩ := by
  obtain ⟨⟨value, below, rfl⟩, _⟩ := under
  exact moves_shift ⟨ctx.state_lt, ctx.state_looks, selected⟩ fits 0 session

theorem Under.numbered (v : Int) :
    Moves [] ⟨⟨5, some (.number v)⟩ :: stack, 0, session, ts⟩
      ⟨⟨ctx.goto, some (.number v)⟩ :: stack, 0, session, ts⟩ :=
  under.reduces (r := 6) (p := .number) [_] rfl
    (.blind (by decide)) rfl rfl rfl

theorem Under.number {n : Nat} (fits : (Token.number n).Fits) :
    Leads 2 ⟨stack, 0, session, .number n :: ts⟩
      ⟨⟨ctx.goto, some (.number n)⟩ :: stack, 0, session, ts⟩ :=
  (under.shift session ts fits ctx.state_select.1).leads.trans (under.numbered session ts n).leads

omit under in
/-- A name is a variable that is read unless an equals sign follows. -/
theorem chooses_variable {t : Token} (fits : t.Fits) (read : t ≠ .mark '=') :
    Chooses 6 (t :: ts) (some (.reduce 7)) := by
  have expected : (stateAt 6).expected = [String.singleton '='] := by decide
  refine .unexpected (by decide) fits ?_ (by decide)
  rw [expected, List.mem_singleton, Token.name_eq_singleton_iff]
  exact read

theorem Under.reads {name : String} {t : Token} (fits : t.Fits) (read : t ≠ .mark '=') :
    Yields ⟨⟨6, some (.ident name)⟩ :: stack, 0, session, t :: ts⟩ ctx stack
      (session.symbols.lookup? name) := by
  let result : Except LineError Int :=
    match session.symbols.lookup? name with
    | some v => .ok v
    | none => .error (.undefined name)
  have act : Production.variable.act (values [⟨6, some (.ident name)⟩]) session =
      session.compute result := by
    cases found : session.symbols.lookup? name <;>
      simp [Production.act, Production.identAt, Production.valueAt, values, Value.ident?, found,
        Session.compute, result]
  have same : result.toOption = session.symbols.lookup? name := by
    cases found : session.symbols.lookup? name <;> simp [result, found, Except.toOption]
  rw [← same]
  exact under.computes [_] rfl (chooses_variable ts fits read) rfl rfl act

/-- The right side of an assignment is expected behind a name and an equals sign. -/
theorem Under.assigns (name : String) :
    Moves [.mark '='] ⟨⟨6, some (.ident name)⟩ :: stack, 0, session, .mark '=' :: ts⟩
      ⟨⟨12, none⟩ :: ⟨6, some (.ident name)⟩ :: stack, 0, session, ts⟩ ∧
    assignment.Under (⟨12, none⟩ :: ⟨6, some (.ident name)⟩ :: stack) := by
  constructor
  · exact moves_shift (t := .mark '=') (by decide) trivial 0 session
  · refine ⟨⟨none, _, rfl⟩, (under.grounded.push _ (by decide)).push none (by decide)⟩

theorem Under.assigned {name : String} {t : Token} (v : Int) (final : assignment.Final t) :
    Moves [] ⟨⟨20, some (.number v)⟩ :: ⟨12, none⟩ :: ⟨6, some (.ident name)⟩ :: stack, 0, session,
        t :: ts⟩
      ⟨⟨ctx.goto, some (.number v)⟩ :: stack, 0, session.assign name v, t :: ts⟩ := by
  have chooses : Chooses 20 (t :: ts) (some (.reduce 8)) := final.chooses (by decide) (by decide)
  exact under.reduces (p := .assignment) [_, _, _] rfl chooses rfl rfl rfl

theorem Under.negates :
    Moves [.mark '-'] ⟨stack, 0, session, .mark '-' :: ts⟩ ⟨⟨7, none⟩ :: stack, 0, session, ts⟩ ∧
    negation.Under (⟨7, none⟩ :: stack) :=
  ⟨under.shift session ts (t := .mark '-') trivial ctx.state_select.2.2.1,
    ⟨none, _, rfl⟩, under.grounded.push none (by decide)⟩

omit under in
theorem checked_toOption (n : Int) : (checked n).toOption = word? n := by
  have limit : Word.signedLimit = 9223372036854775808 := rfl
  have same : Word.fitsSigned n = true ↔
      -9223372036854775808 ≤ n ∧ n ≤ 9223372036854775807 := by
    rw [Word.fitsSigned_iff, limit]
    omega
  unfold checked word?
  split
  · next fits => rw [if_pos (same.mp fits)]; rfl
  · next large => rw [if_neg (mt same.mpr large)]; rfl

theorem Under.negated (v : Int) :
    Yields ⟨⟨13, some (.number v)⟩ :: ⟨7, none⟩ :: stack, 0, session, ts⟩ ctx stack
      (word? (-v)) := by
  rw [← checked_toOption]
  exact under.computes (r := 13) (p := .negation) [_, _] rfl
    (.blind (by decide)) rfl rfl rfl

theorem Under.opens :
    Moves [.mark '('] ⟨stack, 0, session, .mark '(' :: ts⟩ ⟨⟨8, none⟩ :: stack, 0, session, ts⟩ ∧
    group.Under (⟨8, none⟩ :: stack) :=
  ⟨under.shift session ts (t := .mark '(') trivial ctx.state_select.2.2.2,
    ⟨none, _, rfl⟩, under.grounded.push none (by decide)⟩

omit under in
theorem moves_closing (v : Option Value) :
    Moves [.mark ')'] ⟨⟨14, v⟩ :: ⟨8, none⟩ :: stack, 0, session, .mark ')' :: ts⟩
      ⟨⟨21, none⟩ :: ⟨14, v⟩ :: ⟨8, none⟩ :: stack, 0, session, ts⟩ :=
  moves_shift (t := .mark ')') (by decide) trivial 0 session

theorem Under.grouped (v : Int) :
    Moves [] ⟨⟨21, none⟩ :: ⟨14, some (.number v)⟩ :: ⟨8, none⟩ :: stack, 0, session, ts⟩
      ⟨⟨ctx.goto, some (.number v)⟩ :: stack, 0, session, ts⟩ :=
  under.reduces (r := 14) (p := .parenthesized) [_, _, _] rfl
    (.blind (by decide)) rfl rfl rfl

theorem Under.closes (v : Int) :
    Leads 2 ⟨⟨14, some (.number v)⟩ :: ⟨8, none⟩ :: stack, 0, session, .mark ')' :: ts⟩
      ⟨⟨ctx.goto, some (.number v)⟩ :: stack, 0, session, ts⟩ :=
  (moves_closing session ts _).leads.trans (under.grouped session ts v).leads

theorem Under.operates (op : Operator) (le : op.level ≤ ctx.level) (v : Option Value) :
    Moves [op.token] ⟨⟨ctx.goto, v⟩ :: stack, 0, session, op.token :: ts⟩
      ⟨⟨op.state, none⟩ :: ⟨ctx.goto, v⟩ :: stack, 0, session, ts⟩ ∧
    (operand op).Under (⟨op.state, none⟩ :: ⟨ctx.goto, v⟩ :: stack) := by
  have looks : ctx.Looks := Level.le_trans (by cases op <;> decide) le
  constructor
  · exact moves_shift (t := op.token)
      ⟨ctx.goto_inside.2, ctx.goto_looks.mpr looks, ctx.goto_select op le⟩ trivial 0 session
  · exact ⟨⟨none, _, rfl⟩,
      (under.grounded.push v ctx.goto_inside).push none (by cases op <;> decide)⟩

omit under in
theorem act_operator (op : Operator) (a b : Int) : ∃ result : Except LineError Int,
    op.production.act [some (.number a), none, some (.number b)] session = session.compute result ∧
      result.toOption = op.apply a b := by
  cases op with
  | plus => exact ⟨checked (a + b), rfl, checked_toOption _⟩
  | minus => exact ⟨checked (a - b), rfl, checked_toOption _⟩
  | times => exact ⟨checked (a * b), rfl, checked_toOption _⟩
  | divide =>
    refine ⟨divide a b, rfl, ?_⟩
    by_cases zero : b = 0
    · simp [divide, Operator.apply, zero, Except.toOption]
    · simpa [divide, Operator.apply, zero] using checked_toOption _

theorem Under.operated (op : Operator) (a b : Int) {t : Token} (final : (operand op).Final t) :
    Yields ⟨⟨op.goto, some (.number b)⟩ :: ⟨op.state, none⟩ :: ⟨ctx.goto, some (.number a)⟩ ::
      stack, 0, session, t :: ts⟩ ctx stack (op.apply a b) := by
  obtain ⟨result, act, same⟩ := act_operator session op a b
  have chooses : Chooses op.goto (t :: ts) (some (.reduce op.rule)) :=
    final.chooses (by simp) (by cases op <;> decide)
  have rule : tables.rules[op.rule]? = some ⟨"exp", 3, none⟩ := by cases op <;> rfl
  have found : Production.ofRule? op.rule = some op.production := by cases op <;> rfl
  rw [← same]
  exact under.computes [_, _, _] rfl chooses rule found act

/-- A token with which no expression begins spoils the line. -/
theorem Under.misses {t : Token} (fits : t.Fits) (numberless : ∀ n, t ≠ .number n)
    (nameless : ∀ name, t ≠ .ident name) (signless : t ≠ .mark '-') (closed : t ≠ .mark '(')
    (inside : ctx = .line → t ≠ .newline) :
    Errs (.missed ctx.state t) ⟨stack, 0, session, t :: ts⟩
      ⟨spoiltStack, 3, session.reported (missMessage ctx.state t session), t :: ts⟩ := by
  obtain ⟨⟨value, below, rfl⟩, grounded⟩ := under
  exact errs_miss ctx.state_lt ctx.state_looks
    (ctx.state_select_none numberless nameless signless closed inside) fits grounded session

/-- A token that neither goes on with an expression nor ends its line or its group spoils the
line. -/
theorem Under.missesBehind (within : ctx = .line ∨ ctx = .group) (v : Option Value) {t : Token}
    (final : ctx.Final t) (inside : ctx = .line → t ≠ .newline)
    (grouped : ctx = .group → t ≠ .mark ')') :
    Errs (.missed ctx.goto t) ⟨⟨ctx.goto, v⟩ :: stack, 0, session, t :: ts⟩
      ⟨spoiltStack, 3, session.reported (missMessage ctx.goto t session), t :: ts⟩ := by
  have looks : ctx.Looks := by rcases within with rfl | rfl <;> decide
  have default : (stateAt ctx.goto).default = none := by rcases within with rfl | rfl <;> decide
  have selected := State.select_of_unexpected (ctx.goto_unexpected final.halts inside grouped)
  rw [default] at selected
  exact errs_miss ctx.goto_inside.2 (ctx.goto_looks.mpr looks) selected (final.fits looks)
    (under.grounded.push v ctx.goto_inside) session

end Operands

end Context

end ShiftReduce.Calculator
