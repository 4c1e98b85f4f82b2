import ShiftReduce.Calculator.Session
import ShiftReduce.Proofs.Calculator.Tokens

/-! What an expression is and what it means, without any automaton: the grammar in the levels of a
recursive descent, and the evaluation of a syntax tree from left to right. -/

namespace ShiftReduce.Calculator

inductive Operator where
  | plus
  | minus
  | times
  | divide
  deriving DecidableEq, Repr

/-- How tightly a phrase holds together, the tightest first. -/
inductive Level where
  | primary
  | unary
  | term
  | expr
  deriving DecidableEq, Repr

namespace Level

def rank : Level → Nat
  | .primary => 0
  | .unary => 1
  | .term => 2
  | .expr => 3

instance : LE Level := ⟨fun a b => a.rank ≤ b.rank⟩

instance (a b : Level) : Decidable (a ≤ b) := inferInstanceAs (Decidable (a.rank ≤ b.rank))

theorem le_trans {a b c : Level} (first : a ≤ b) (second : b ≤ c) : a ≤ c :=
  Nat.le_trans first second

end Level

namespace Operator

instance (property : Operator → Prop) [DecidablePred property] : Decidable (∀ op, property op) :=
  decidable_of_iff
    (property .plus ∧ property .minus ∧ property .times ∧ property .divide)
    ⟨fun all op => by
      cases op with
      | plus => exact all.1
      | minus => exact all.2.1
      | times => exact all.2.2.1
      | divide => exact all.2.2.2,
    fun all => ⟨all .plus, all .minus, all .times, all .divide⟩⟩

def char : Operator → Char
  | .plus => '+'
  | .minus => '-'
  | .times => '*'
  | .divide => '/'

abbrev token (op : Operator) : Token := .mark op.char

/-- The level of a phrase that the operator joins, and of its left operand. -/
def level : Operator → Level
  | .plus | .minus => .expr
  | .times | .divide => .term

def operand : Operator → Level
  | .plus | .minus => .term
  | .times | .divide => .unary

theorem token_injective {a b : Operator} (same : a.token = b.token) : a = b := by
  revert a b
  decide

/-- The right operand of a sum may be a product, and no other operand ends in an operation. -/
theorem le_operand_iff {op inner : Operator} :
    inner.level ≤ op.operand ↔ op.level = .expr ∧ inner.level = .term := by
  revert op inner
  decide

theorem token_ne_equals (op : Operator) : op.token ≠ .mark '=' := by
  revert op
  decide

theorem token_ne_newline (op : Operator) : op.token ≠ .newline := by
  revert op
  decide

end Operator

inductive Expr where
  | number (n : Nat)
  | ident (name : String)
  | assign (name : String) (e : Expr)
  | negate (e : Expr)
  | binary (op : Operator) (left right : Expr)
  deriving DecidableEq, Repr

/-- The phrases of the language:

    expr    := term (('+' | '-') term)*
    term    := unary (('*' | '/') unary)*
    unary   := '-' unary | primary
    primary := NUM | VAR | VAR '=' expr | '(' expr ')'

A phrase is open if it ends in an assignment. The right side of an assignment extends as far as it
can, so no operator follows an open phrase: a left operand has to be closed. -/
inductive Phrase : Level → (isOpen : Bool) → List Token → Expr → Prop where
  | number (n : Nat) : Phrase .primary false [.number n] (.number n)
  | ident (name : String) : Phrase .primary false [.ident name] (.ident name)
  | assign {isOpen : Bool} {ts : List Token} {e : Expr} (name : String)
      (right : Phrase .expr isOpen ts e) :
      Phrase .primary true (.ident name :: .mark '=' :: ts) (.assign name e)
  | group {isOpen : Bool} {ts : List Token} {e : Expr} (inner : Phrase .expr isOpen ts e) :
      Phrase .primary false (.mark '(' :: ts ++ [.mark ')']) e
  | ofPrimary {isOpen : Bool} {ts : List Token} {e : Expr} (phrase : Phrase .primary isOpen ts e) :
      Phrase .unary isOpen ts e
  | negate {isOpen : Bool} {ts : List Token} {e : Expr} (operand : Phrase .unary isOpen ts e) :
      Phrase .unary isOpen (.mark '-' :: ts) (.negate e)
  | ofUnary {isOpen : Bool} {ts : List Token} {e : Expr} (phrase : Phrase .unary isOpen ts e) :
      Phrase .term isOpen ts e
  | ofTerm {isOpen : Bool} {ts : List Token} {e : Expr} (phrase : Phrase .term isOpen ts e) :
      Phrase .expr isOpen ts e
  | binary {isOpen : Bool} {ls rs : List Token} {l r : Expr} (op : Operator)
      (left : Phrase op.level false ls l) (right : Phrase op.operand isOpen rs r) :
      Phrase op.level isOpen (ls ++ op.token :: rs) (.binary op l r)

namespace Phrase

variable {level : Level} {isOpen : Bool} {ts : List Token} {e : Expr}

theorem lift {looser : Level} (phrase : Phrase level isOpen ts e) (le : level ≤ looser) :
    Phrase looser isOpen ts e := by
  cases level <;> cases looser <;> first
    | exact phrase
    | exact .ofPrimary phrase
    | exact .ofUnary phrase
    | exact .ofTerm phrase
    | exact .ofUnary (.ofPrimary phrase)
    | exact .ofTerm (.ofUnary phrase)
    | exact .ofTerm (.ofUnary (.ofPrimary phrase))
    | exact absurd le (by decide)

theorem ne_nil (phrase : Phrase level isOpen ts e) : ts ≠ [] := by
  induction phrase with
  | number | ident | assign | group | negate => simp
  | ofPrimary _ ih | ofUnary _ ih | ofTerm _ ih => exact ih
  | binary => simp

end Phrase

def word? (n : Int) : Option Int :=
  if -9223372036854775808 ≤ n ∧ n ≤ 9223372036854775807 then some n else none

/-- The result of an operation on words, if it is one; division drops the fraction. -/
def Operator.apply : Operator → Int → Int → Option Int
  | .plus, a, b => word? (a + b)
  | .minus, a, b => word? (a - b)
  | .times, a, b => word? (a * b)
  | .divide, a, b => if b = 0 then none else word? (a.tdiv b)

/-- What an evaluation comes to: the value, if there is one, and the variables as the assignments
made so far leave them. -/
abbrev Evaluated := Option Int × Symbols

def Evaluated.andThen (first : Evaluated) (next : Int → Symbols → Evaluated) : Evaluated :=
  match first with
  | (none, symbols) => (none, symbols)
  | (some v, symbols) => next v symbols

theorem Evaluated.andThen_value (first : Evaluated) :
    (first.andThen fun v symbols => (some v, symbols)) = first := by
  rcases first with ⟨_ | v, symbols⟩ <;> rfl

/-- Evaluates from left to right, up to the first failure. -/
def Expr.eval : Expr → Symbols → Evaluated
  | .number n, symbols => (some n, symbols)
  | .ident name, symbols => (symbols.lookup? name, symbols)
  | .assign name e, symbols =>
    (e.eval symbols).andThen fun v after => (some v, after.assign name v)
  | .negate e, symbols => (e.eval symbols).andThen fun v after => (word? (-v), after)
  | .binary op left right, symbols =>
    (left.eval symbols).andThen fun a middle =>
      (right.eval middle).andThen fun b after => (op.apply a b, after)

end ShiftReduce.Calculator
