import ShiftReduce.Proofs.Calculator.Grammar

/-! The grammar of a line as the productions state it, which is ambiguous and generates the same
expressions as the levels of precedence do. A scan that counts the open parentheses gets stuck on
whatever begins no line. -/

namespace ShiftReduce.Calculator

/-- The expressions that the productions generate. -/
inductive Expression : List Token → Prop where
  | number (n : Nat) : Expression [.number n]
  | ident (name : String) : Expression [.ident name]
  | assign {ts : List Token} (name : String) (right : Expression ts) :
      Expression (.ident name :: .mark '=' :: ts)
  | binary {ls rs : List Token} (op : Operator) (left : Expression ls) (right : Expression rs) :
      Expression (ls ++ op.token :: rs)
  | negate {ts : List Token} (operand : Expression ts) : Expression (.mark '-' :: ts)
  | group {ts : List Token} (inner : Expression ts) : Expression (.mark '(' :: ts ++ [.mark ')'])

inductive Line : List Token → Prop where
  | blank : Line [.newline]
  | expression {ts : List Token} (expression : Expression ts) : Line (ts ++ [.newline])

/-- The tokens begin a line. -/
def Viable (w : List Token) : Prop := ∃ rest, Line (w ++ rest)

section Levels

variable {level : Level} {isOpen : Bool} {ts us : List Token} {e u : Expr}

theorem Phrase.expression (phrase : Phrase level isOpen ts e) : Expression ts := by
  induction phrase with
  | number n => exact .number n
  | ident name => exact .ident name
  | assign name _ ih => exact .assign name ih
  | group _ ih => exact .group ih
  | negate _ ih => exact .negate ih
  | ofPrimary _ ih | ofUnary _ ih | ofTerm _ ih => exact ih
  | binary op _ _ left right => exact .binary op left right

theorem Phrase.operate_closed (left : Phrase level false ts e) {op : Operator}
    (le : level ≤ op.level) (right : Phrase .unary isOpen us u) {looser : Level}
    (loose : op.level ≤ looser) : ∃ isOpen' e', Phrase looser isOpen' (ts ++ op.token :: us) e' :=
  ⟨isOpen, _, (Phrase.binary op (left.lift le) (right.lift (by cases op <;> decide))).lift loose⟩

/-- An operator may follow any phrase. It takes a closed phrase for its operand, or the right side
of one that it holds tighter than; an open phrase goes on with it. -/
theorem Phrase.operate (phrase : Phrase level isOpen ts e) (op : Operator) {wide : Bool}
    (right : Phrase .unary wide us u) {looser : Level} (le : level ≤ looser)
    (loose : isOpen = false → op.level ≤ looser) :
    ∃ isOpen' e', Phrase looser isOpen' (ts ++ op.token :: us) e' := by
  have within : op.level ≤ .expr := by cases op <;> decide
  have tight : .unary ≤ op.level := by cases op <;> decide
  induction phrase generalizing looser with
  | number n =>
    exact (Phrase.number n).operate_closed (Level.le_trans (by decide) tight) right (loose rfl)
  | ident name =>
    exact (Phrase.ident name).operate_closed (Level.le_trans (by decide) tight) right (loose rfl)
  | group inner =>
    exact (Phrase.group inner).operate_closed (Level.le_trans (by decide) tight) right (loose rfl)
  | assign name _ ih =>
    obtain ⟨_, _, phrase⟩ := ih (show Level.expr ≤ .expr by decide) fun _ => within
    exact ⟨_, _, (Phrase.assign name phrase).lift le⟩
  | @negate isOpen _ _ operand ih =>
    cases isOpen with
    | false => exact (Phrase.negate operand).operate_closed tight right (loose rfl)
    | true =>
      obtain ⟨_, _, phrase⟩ := ih (show Level.unary ≤ .unary by decide) (by simp)
      exact ⟨_, _, (Phrase.negate phrase).lift le⟩
  | ofPrimary _ ih | ofUnary _ ih | ofTerm _ ih => exact ih (Level.le_trans (by decide) le) loose
  | @binary isOpen _ _ _ _ inner left operand _ ih =>
    by_cases goes : isOpen = false → op.level ≤ inner.operand
    · obtain ⟨_, _, phrase⟩ := ih (show inner.operand ≤ inner.operand from Nat.le_refl _) goes
      rw [List.append_assoc, List.cons_append]
      exact ⟨_, _, (Phrase.binary inner left phrase).lift le⟩
    · obtain ⟨rfl, tighter⟩ : isOpen = false ∧ ¬ op.level ≤ inner.operand := by simpa using goes
      have le' : inner.level ≤ op.level := by
        revert tighter
        cases op <;> cases inner <;> decide
      exact (Phrase.binary inner left operand).operate_closed le' right (loose rfl)

/-- What any operand may stand behind, any expression may: it is added operand by operand. -/
theorem Phrase.behind (before : List Token) (operand : ∀ {isOpen us u}, Phrase .unary isOpen us u →
      ∃ isOpen' e', Phrase .expr isOpen' (before ++ us) e') (phrase : Phrase level isOpen ts e) :
    ∃ isOpen' e', Phrase .expr isOpen' (before ++ ts) e' := by
  induction phrase generalizing before with
  | number n => exact operand (.ofPrimary (.number n))
  | ident name => exact operand (.ofPrimary (.ident name))
  | assign name right => exact operand (.ofPrimary (.assign name right))
  | group inner => exact operand (.ofPrimary (.group inner))
  | negate inner => exact operand (.negate inner)
  | ofPrimary _ ih | ofUnary _ ih | ofTerm _ ih => exact ih before operand
  | @binary _ ls rs _ _ op _ _ left right =>
    obtain ⟨_, _, phrase⟩ := left before operand
    have joined : before ++ (ls ++ op.token :: rs) = (before ++ ls ++ [op.token]) ++ rs := by simp
    rw [joined]
    refine right _ fun {_ us _} operand => ?_
    have split : before ++ ls ++ [op.token] ++ us = (before ++ ls) ++ op.token :: us := by simp
    rw [split]
    exact phrase.operate op operand (Nat.le_refl _) fun _ => by cases op <;> decide

/-- However the productions group an expression, the levels of precedence group it, too. -/
theorem expression_iff_phrase : Expression ts ↔ ∃ isOpen e, Phrase .expr isOpen ts e := by
  refine ⟨fun expression => ?_, fun ⟨_, _, phrase⟩ => phrase.expression⟩
  induction expression with
  | number n => exact ⟨_, _, (Phrase.number n).lift (by decide)⟩
  | ident name => exact ⟨_, _, (Phrase.ident name).lift (by decide)⟩
  | assign name _ ih =>
    obtain ⟨_, _, right⟩ := ih
    exact ⟨_, _, (Phrase.assign name right).lift (by decide)⟩
  | group _ ih =>
    obtain ⟨_, _, inner⟩ := ih
    exact ⟨_, _, (Phrase.group inner).lift (by decide)⟩
  | negate _ ih =>
    obtain ⟨_, _, operand⟩ := ih
    exact operand.behind [.mark '-'] fun operand =>
      ⟨_, _, (Phrase.negate operand).lift (by decide)⟩
  | @binary ls rs op _ _ left right =>
    obtain ⟨_, _, left⟩ := left
    obtain ⟨_, _, right⟩ := right
    have split (us : List Token) : ls ++ op.token :: us = (ls ++ [op.token]) ++ us := by simp
    rw [split]
    refine right.behind _ fun operand => ?_
    rw [← split]
    exact left.operate op operand (Nat.le_refl _) fun _ => by cases op <;> decide

end Levels

theorem Expression.ne_nil {ts : List Token} (expression : Expression ts) : ts ≠ [] := by
  cases expression <;> simp

theorem Viable.of_append {w us : List Token} (viable : Viable (w ++ us)) : Viable w := by
  obtain ⟨rest, line⟩ := viable
  rw [List.append_assoc] at line
  exact ⟨_, line⟩

/-- What a scan of a line knows of the tokens that it has passed: what may come next, and how many
parentheses are open. -/
inductive Place where
  | lineStart
  | operand (depth : Nat)
  /-- Behind a name, which may be assigned to. -/
  | name (depth : Nat)
  | behind (depth : Nat)
  | lineEnd
  deriving DecidableEq, Repr

namespace Place

/-- An operand is expected. -/
def begin (depth : Nat) : Token → Option Place
  | .number _ => some (.behind depth)
  | .ident _ => some (.name depth)
  | .mark c =>
    if c = '-' then some (.operand depth)
    else if c = '(' then some (.operand (depth + 1))
    else none

/-- An operand is complete. -/
def proceed (depth : Nat) : Token → Option Place
  | .number _ | .ident _ => none
  | .mark c =>
    if c = '+' ∨ c = '-' ∨ c = '*' ∨ c = '/' then some (.operand depth)
    else if c = ')' then if depth = 0 then none else some (.behind (depth - 1))
    else if c = '\n' then if depth = 0 then some .lineEnd else none
    else none

def next : Place → Token → Option Place
  | .lineStart, t => if t = .newline then some .lineEnd else begin 0 t
  | .operand depth, t => begin depth t
  | .name depth, t => if t = .mark '=' then some (.operand depth) else proceed depth t
  | .behind depth, t => proceed depth t
  | .lineEnd, _ => none

def scan (p : Place) (ts : List Token) : Option Place := ts.foldlM next p

variable {p q : Place} {depth : Nat} {t : Token} {ts us : List Token}

theorem scan_cons : p.scan (t :: ts) = (p.next t).bind (·.scan ts) := rfl

theorem scan_append : p.scan (ts ++ us) = (p.scan ts).bind (·.scan us) := by
  unfold scan
  rw [List.foldlM_append]
  rfl

theorem scan_cons_of_next (next : p.next t = some q) : p.scan (t :: ts) = q.scan ts := by
  rw [scan_cons, next, Option.bind_some]

theorem scan_append_of_scan (first : p.scan ts = some q) : p.scan (ts ++ us) = q.scan us := by
  rw [scan_append, first, Option.bind_some]

/-- An operand is expected at this place. -/
def Expects (p : Place) (depth : Nat) : Prop := p = .operand depth ∨ p = .lineStart ∧ depth = 0

theorem Expects.next (expects : p.Expects depth) (inside : t ≠ .newline) :
    p.next t = begin depth t := by
  rcases expects with rfl | ⟨rfl, rfl⟩
  · rfl
  · exact if_neg inside

def endsInName (ts : List Token) : Prop := ∃ name, ts.getLast? = some (.ident name)

/-- An operand is complete at this place, of which these tokens are the last. -/
def Completes (p : Place) (depth : Nat) (ts : List Token) : Prop :=
  p = .behind depth ∨ p = .name depth ∧ endsInName ts

theorem Completes.next (completes : p.Completes depth ts) (other : t ≠ .mark '=') :
    p.next t = proceed depth t := by
  rcases completes with rfl | ⟨rfl, _⟩
  · rfl
  · exact if_neg other

theorem Completes.append (completes : p.Completes depth us) (ts : List Token) :
    p.Completes depth (ts ++ us) := by
  refine completes.imp_right fun ⟨same, word, last⟩ => ⟨same, word, ?_⟩
  rw [List.getLast?_append, last, Option.some_or]

theorem endsInName_append {ts us : List Token} (nonempty : us ≠ []) (ends : endsInName (ts ++ us)) :
    endsInName us := by
  obtain ⟨word, last⟩ := ends
  obtain ⟨front, t, rfl⟩ := List.eq_nil_or_concat us |>.resolve_left nonempty
  refine ⟨word, ?_⟩
  simpa using last

theorem begin_none (numberless : ∀ n, t ≠ .number n) (nameless : ∀ name, t ≠ .ident name)
    (signless : t ≠ .mark '-') (closed : t ≠ .mark '(') : begin depth t = none := by
  cases t with
  | number n => exact absurd rfl (numberless n)
  | ident name => exact absurd rfl (nameless name)
  | mark c =>
    rw [begin, if_neg (by simpa using signless), if_neg (by simpa using closed)]

theorem proceed_none (halts : ∀ op : Operator, t ≠ op.token)
    (closing : t = .mark ')' → depth = 0) (ending : t = .newline → depth ≠ 0) :
    proceed depth t = none := by
  cases t with
  | number | ident => rfl
  | mark c =>
    have operatorless : ¬ (c = '+' ∨ c = '-' ∨ c = '*' ∨ c = '/') := by
      rintro (rfl | rfl | rfl | rfl)
      · exact halts .plus rfl
      · exact halts .minus rfl
      · exact halts .times rfl
      · exact halts .divide rfl
    rw [proceed, if_neg operatorless]
    split
    · next closes => exact if_pos (closing (by rw [closes]))
    · split
      · next ends => exact if_neg (ending (by rw [ends]))
      · rfl

theorem proceed_operator (depth : Nat) (op : Operator) :
    proceed depth op.token = some (.operand depth) := by
  cases op <;> rfl

end Place

open Place

/-- The scan of an expression comes from where an operand is expected to where one is complete. -/
theorem Expression.scan {ts : List Token} (expression : Expression ts) {p : Place} {depth : Nat}
    (expects : p.Expects depth) : ∃ q, p.scan ts = some q ∧ q.Completes depth ts := by
  induction expression generalizing p depth with
  | number n =>
    refine ⟨.behind depth, ?_, .inl rfl⟩
    exact scan_cons_of_next (expects.next (by simp))
  | ident name =>
    refine ⟨.name depth, ?_, .inr ⟨rfl, name, rfl⟩⟩
    exact scan_cons_of_next (expects.next (by simp))
  | assign name _ ih =>
    obtain ⟨q, scanned, completes⟩ := ih (p := .operand depth) (.inl rfl)
    refine ⟨q, ?_, completes.append [.ident name, .mark '=']⟩
    rw [scan_cons_of_next (q := .name depth) (expects.next (by simp))]
    exact (scan_cons_of_next rfl).trans scanned
  | @binary ls rs op _ _ left right =>
    obtain ⟨q, scanned, completes⟩ := left expects
    obtain ⟨q', scanned', completes'⟩ := right (p := .operand depth) (.inl rfl)
    refine ⟨q', ?_, ?_⟩
    · rw [scan_append_of_scan scanned]
      rw [scan_cons_of_next ((completes.next op.token_ne_equals).trans (proceed_operator depth op))]
      exact scanned'
    · have split : ls ++ op.token :: rs = (ls ++ [op.token]) ++ rs := by simp
      rw [split]
      exact completes'.append _
  | negate _ ih =>
    obtain ⟨q, scanned, completes⟩ := ih (p := .operand depth) (.inl rfl)
    refine ⟨q, ?_, completes.append [.mark '-']⟩
    exact (scan_cons_of_next (expects.next (by simp))).trans scanned
  | group _ ih =>
    obtain ⟨q, scanned, completes⟩ := ih (p := .operand (depth + 1)) (.inl rfl)
    refine ⟨.behind depth, ?_, .inl rfl⟩
    rw [List.cons_append, scan_cons_of_next (expects.next (by simp)), scan_append_of_scan scanned]
    exact scan_cons_of_next (completes.next (by simp))

theorem Line.scan {ts : List Token} (line : Line ts) : lineStart.scan ts = some .lineEnd := by
  cases line with
  | blank => rfl
  | expression expression =>
    obtain ⟨q, scanned, completes⟩ := expression.scan (p := .lineStart) (.inr ⟨rfl, rfl⟩)
    rw [scan_append_of_scan scanned]
    exact scan_cons_of_next (completes.next (by simp))

/-- A token at which the scan gets stuck makes a line impossible. -/
theorem not_viable_of_stuck {w : List Token} {t : Token} {p : Place}
    (scanned : lineStart.scan w = some p) (stuck : p.next t = none) : ¬ Viable (w ++ [t]) := by
  rintro ⟨rest, line⟩
  have whole := line.scan
  rw [List.append_assoc, scan_append_of_scan scanned, List.singleton_append, scan_cons, stuck]
    at whole
  contradiction

end ShiftReduce.Calculator
