import ShiftReduce.Proofs.Stack
import ShiftReduce.Proofs.Calculator.Moves

/-! Which states a stack of the calculator can hold one on top of the other, whatever is read: few
enough that all the paths below a reduction can be listed. The list tells that the entries of the
rule are there, that the state below them has a goto, and which values the entries carry. -/

namespace ShiftReduce.Calculator

/-- The states on which a state can stand. -/
def below : Nat → List Nat
  | 1 => [0]
  | 2 | 3 | 4 | 9 | 10 => [1]
  | 5 | 6 | 7 | 8 => [1, 7, 8, 12, 16, 17, 18, 19]
  | 11 => [4]
  | 12 => [6]
  | 13 => [7]
  | 14 => [8]
  | 15 => [10]
  | 16 | 17 => [10, 14, 20]
  | 18 | 19 => [10, 14, 20, 22, 23]
  | 20 => [12]
  | 21 => [14]
  | 22 => [16]
  | 23 => [17]
  | 24 => [18]
  | 25 => [19]
  | _ => []

/-- The states of `k` entries and of the one below them, if state `n` is on top. -/
def paths : Nat → Nat → List (List Nat)
  | 0, n => [[n]]
  | k + 1, n => (below n).flatMap fun m => (paths k m).map (n :: ·)

/-- Below state `n` there are at least `k` entries. -/
def Deep : Nat → Nat → Prop
  | 0, _ => True
  | k + 1, n => n ≠ 0 ∧ ∀ m ∈ below n, Deep k m

instance Deep.decidable : (k n : Nat) → Decidable (Deep k n)
  | 0, _ => inferInstanceAs (Decidable True)
  | k + 1, n =>
    have : ∀ m, Decidable (Deep k m) := Deep.decidable k
    inferInstanceAs (Decidable (n ≠ 0 ∧ ∀ m ∈ below n, Deep k m))

/-- What a symbol has to carry. -/
inductive Content where
  | number
  | ident
  deriving DecidableEq, Repr

def Content.Of : Content → Option Value → Prop
  | .number, value => ∃ n, value = some (.number n)
  | .ident, value => ∃ name, value = some (.ident name)

/-- What the symbol carries that leads to a state. -/
def stateContent : Nat → Option Content
  | 5 | 10 | 13 | 14 | 20 | 22 | 23 | 24 | 25 => some .number
  | 6 => some .ident
  | _ => none

/-- What a terminal carries. -/
def tokenContent (token : String) : Option Content :=
  if token = Terminal.number.name then some .number
  else if token = Terminal.ident.name then some .ident
  else none

def Carries (kind : Option Content) (value : Option Value) : Prop := ∀ k, kind = some k → k.Of value

/-- How much a reduction may go on to do from a state, above what the height of the stack tells. -/
def bonus : Nat → Nat
  | 0 => 6
  | 1 | 3 => 3
  | 9 => 2
  | 11 => 4
  | 5 | 6 | 15 => 1
  | _ => 0

def tokenActions (s : State) : List (String × Action) := (s.actions.map (·.entries)).getD []

/-- A token is only ever shifted, and carries what the state needs to which it leads. -/
def Shifted (n : Nat) : String × Action → Prop
  | (token, .shift target) => n ∈ below target ∧ target ≠ 1 ∧
      stateContent target = tokenContent token ∧ 2 + bonus target ≤ 6 + bonus n ∧
      (token = endToken → 2 + bonus target < bonus n) ∧ (n = 4 → target = 11) ∧ n ≠ 11
  | _ => False

instance (n : Nat) : DecidablePred (Shifted n)
  | (_, .shift _) => inferInstanceAs (Decidable (_ ∧ _))
  | (_, .reduce _) => inferInstanceAs (Decidable False)
  | (_, .accept) => inferInstanceAs (Decidable False)

theorem tokens_shifted : ∀ n < 26, ∀ entry ∈ tokenActions (stateAt n), Shifted n entry := by
  decide

theorem gotos_below : ∀ n < 26, ∀ entry ∈ (stateAt n).gotos.entries, n ∈ below entry.2 := by
  decide

namespace Production

def isExpression : Production → Bool
  | .number | .variable | .assignment | .sum | .difference | .product | .quotient | .negation
  | .parenthesized => true
  | _ => false

/-- What the values have to be on which the production works, counted from 0. -/
def needs : Production → List (Nat × Content)
  | .resultLine | .number => [(0, .number)]
  | .variable => [(0, .ident)]
  | .assignment => [(0, .ident), (2, .number)]
  | .sum | .difference | .product | .quotient => [(0, .number), (2, .number)]
  | .negation | .parenthesized => [(1, .number)]
  | _ => []

def Served (p : Production) (values : List (Option Value)) : Prop :=
  ∀ need ∈ p.needs, need.2.Of (valueAt values need.1)

section

variable (p : Production) (values : List (Option Value)) (s : Session)

theorem numberAt_of {i : Nat} (carried : Content.number.Of (valueAt values i)) :
    ∃ n, p.numberAt values i = .ok n := by
  obtain ⟨n, carried⟩ := carried
  exact ⟨n, by simp [numberAt, carried, Value.number?]⟩

theorem identAt_of {i : Nat} (carried : Content.ident.Of (valueAt values i)) :
    ∃ name, p.identAt values i = .ok name := by
  obtain ⟨name, carried⟩ := carried
  exact ⟨name, by simp [identAt, carried, Value.ident?]⟩

theorem compute_requests (result : Except LineError Int) :
    (s.compute result).requests = [] ∨ (s.compute result).requests = [.error] := by
  cases result with
  | ok => exact .inl rfl
  | error => exact .inr rfl

theorem compute_result (result : Except LineError Int) : ∃ v, (s.compute result).result = .ok v ∧
    ((s.compute result).requests = [] → Content.number.Of v) := by
  cases result with
  | ok n => exact ⟨_, rfl, fun _ => ⟨n, rfl⟩⟩
  | error => exact ⟨_, rfl, by simp [Session.compute, Session.spoil]⟩

theorem binary_served (op : Int → Int → Except LineError Int)
    (left : Content.number.Of (valueAt values 0)) (right : Content.number.Of (valueAt values 2)) :
    ∃ v, (p.binary op values s).result = .ok v ∧
      ((p.binary op values s).requests = [] → Content.number.Of v) := by
  obtain ⟨a, left⟩ := p.numberAt_of values left
  obtain ⟨b, right⟩ := p.numberAt_of values right
  simp only [binary, left, right]
  exact compute_result s (op a b)

/-- Productions of an expression may ask for an error, and that of a spoilt line asks for the end
of recovery. -/
theorem act_requests :
    (p.act values s).requests = [] ∧ p ≠ .spoiltLine ∨
    (p.act values s).requests = [.error] ∧ p.isExpression = true ∨
    (p.act values s).requests = [.errok] ∧ p = .spoiltLine := by
  have computed (result : Except LineError Int) (other : p ≠ .spoiltLine)
      (expression : p.isExpression = true) :
      (s.compute result).requests = [] ∧ p ≠ .spoiltLine ∨
      (s.compute result).requests = [.error] ∧ p.isExpression = true ∨
      (s.compute result).requests = [.errok] ∧ p = .spoiltLine :=
    (compute_requests s result).imp (⟨·, other⟩) (.inl ⟨·, expression⟩)
  cases p with
  | spoiltLine => exact .inr (.inr ⟨rfl, rfl⟩)
  | start | noLine | nextLine | number | blankLine | parenthesized => exact .inl ⟨rfl, by simp⟩
  | resultLine =>
    refine .inl ⟨?_, by simp⟩
    simp only [act]
    split <;> rfl
  | «variable» =>
    simp only [act]
    split
    · exact .inl ⟨rfl, by simp⟩
    · split
      · exact .inl ⟨rfl, by simp⟩
      · exact .inr (.inl ⟨rfl, rfl⟩)
  | assignment =>
    refine .inl ⟨?_, by simp⟩
    simp only [act]
    split <;> rfl
  | sum | difference | product | quotient =>
    simp only [act, binary]
    split
    · exact .inl ⟨rfl, by simp⟩
    · exact .inl ⟨rfl, by simp⟩
    · exact computed _ (by simp) rfl
  | negation =>
    simp only [act]
    split
    · exact .inl ⟨rfl, by simp⟩
    · exact computed _ (by simp) rfl

variable {p values}

/-- On the values that it needs a production raises nothing, and an expression is a number. -/
theorem act_served (served : p.Served values) : ∃ v, (p.act values s).result = .ok v ∧
    (p.isExpression = true → (p.act values s).requests = [] → Content.number.Of v) := by
  unfold Served at served
  cases p with
  | start | noLine | nextLine | blankLine | spoiltLine =>
    exact ⟨_, rfl, by simp [isExpression]⟩
  | number =>
    have carried : Content.number.Of (valueAt values 0) := served (0, .number) (by simp [needs])
    rw [valueAt, ← List.head?_eq_getElem?] at carried
    exact ⟨_, rfl, fun _ _ => carried⟩
  | parenthesized => exact ⟨_, rfl, fun _ _ => served (1, .number) (by simp [needs])⟩
  | resultLine =>
    obtain ⟨n, given⟩ := numberAt_of .resultLine values (served (0, .number) (by simp [needs]))
    exact ⟨none, by simp [act, given, Session.produce], by simp [isExpression]⟩
  | «variable» =>
    obtain ⟨name, given⟩ := identAt_of .variable values (served (0, .ident) (by simp [needs]))
    cases known : s.symbols.lookup? name with
    | none => exact ⟨none, by simp [act, given, known, Session.spoil]⟩
    | some n => exact ⟨_, by simp [act, given, known, Session.produce], fun _ _ => ⟨n, rfl⟩⟩
  | assignment =>
    obtain ⟨name, named⟩ := identAt_of .assignment values (served (0, .ident) (by simp [needs]))
    obtain ⟨n, given⟩ := numberAt_of .assignment values (served (2, .number) (by simp [needs]))
    exact ⟨_, by simp [act, named, given, Session.produce], fun _ _ => ⟨n, rfl⟩⟩
  | sum | difference | product | quotient =>
    obtain ⟨v, result, number⟩ := binary_served _ _ s _ (served (0, .number) (by simp [needs]))
      (served (2, .number) (by simp [needs]))
    exact ⟨v, result, fun _ => number⟩
  | negation =>
    obtain ⟨n, given⟩ := numberAt_of .negation values (served (1, .number) (by simp [needs]))
    simp only [act, given]
    obtain ⟨v, result, number⟩ := compute_result s (checked (-n))
    exact ⟨v, result, fun _ => number⟩

end

end Production

/-- What a reduction finds on a path. Its rule pops all of the path but the last state, which has
a goto; the entries carry what the production needs; and it takes away more than it adds, also
where it ends recovery. -/
def Uncovers (n : Nat) (rule : Rule) (p : Production) (path : List Nat) : Prop :=
  ∃ target ∈ (stateAt (path.getLastD 0)).goto? rule.lhs,
    2 + bonus target + (if p = .spoiltLine then 3 else 0) < 2 * rule.length + bonus n ∧
    stateContent target = (if p.isExpression then some .number else none) ∧
    (p.isExpression = true → path.getLastD 0 ≠ 0) ∧
    (∀ need ∈ p.needs, need.1 < rule.length ∧
      stateContent (path.getD (rule.length - 1 - need.1) 0) = some need.2) ∧
    (target = 1 → p.hasAction = false ∧ (rule.length = 0 ∨ path.getD (rule.length - 1) 0 = 1))

instance (n : Nat) (rule : Rule) (p : Production) (path : List Nat) :
    Decidable (Uncovers n rule p path) :=
  inferInstanceAs (Decidable (∃ target ∈ _, _))

/-- The reduction is possible on every path down from the state. -/
def Reducible (n r : Nat) : Prop :=
  ∃ rule ∈ tables.rules[r]?, ∃ p ∈ Production.ofRule? r,
    rule.marker = none ∧ Deep rule.length n ∧ (n = 11 → p = .spoiltLine) ∧
      ∀ path ∈ paths rule.length n, Uncovers n rule p path

instance (n r : Nat) : Decidable (Reducible n r) :=
  inferInstanceAs (Decidable (∃ rule ∈ _, ∃ p ∈ _, _))

/-- What a state does by default. -/
def Defaults (n : Nat) : Option Action → Prop
  | none => n ≠ 0 ∧ n ≠ 11
  | some (.shift _) => False
  | some .accept => n = 2
  | some (.reduce r) => n ≠ 4 ∧ Reducible n r

instance (n : Nat) : DecidablePred (Defaults n)
  | none => inferInstanceAs (Decidable (_ ∧ _))
  | some (.shift _) => inferInstanceAs (Decidable False)
  | some .accept => inferInstanceAs (Decidable (_ = _))
  | some (.reduce _) => inferInstanceAs (Decidable (_ ∧ _))

theorem defaults : ∀ n < 26, Defaults n (stateAt n).default := by
  decide

theorem asks : ∀ n < 26, (stateAt n).default = none → (stateAt n).needsToken = true := by
  decide

/-- The only error shift is that between lines. -/
theorem errorShifts : ∀ n < 26, (stateAt n).errorShift? = if n = 1 then some 4 else none := by
  decide

section

variable {n target : Nat} {token : Option String} {action : Action} {e : Entry Value}
  {rest : Stack}

theorem tables_sound : tables.Sound := Tables.sound_of_ofDefinition ofDefinition_definition

theorem known_of_found {state : State} (found : tables.states[n]? = some state) :
    n < 26 ∧ state = stateAt n := by
  have known : n < 26 := by
    rw [← states_size]
    exact (Array.getElem?_eq_some_iff.mp found).1
  exact ⟨known, Option.some.inj (found.symm.trans (stateAt_found known))⟩

theorem shifted_of_action? (known : n < 26) {token : String}
    (own : (stateAt n).action? token = some action) : Shifted n (token, action) := by
  apply tokens_shifted n known
  unfold State.action? at own
  unfold tokenActions
  cases actions : (stateAt n).actions with
  | none => simp [actions] at own
  | some map =>
    rw [actions] at own
    exact Association.mem_of_find? own

/-- A state chooses by its token, and then shifts, or else by its default. -/
theorem select_cases (known : n < 26) {chosen : Option Action}
    (selected : (stateAt n).select token = chosen) :
    (∃ t target, token = some t ∧ chosen = some (.shift target) ∧
      Shifted n (t, .shift target)) ∨ (stateAt n).default = chosen := by
  subst selected
  cases own : token.bind (stateAt n).action? with
  | none => exact .inr (by simp [State.select, own])
  | some action =>
    obtain ⟨t, rfl, own⟩ := Option.bind_eq_some_iff.mp own
    have shifted := shifted_of_action? known own
    cases action with
    | shift target => exact .inl ⟨t, target, rfl, by simp [State.select, own], shifted⟩
    | reduce r => exact shifted.elim
    | accept => exact shifted.elim

theorem edge_below {m : Nat} (edge : tables.Edge m n) : m ∈ below n := by
  obtain ⟨state, found, shifts⟩ := edge
  obtain ⟨known, rfl⟩ := known_of_found found
  rcases shifts with default | ⟨token, own⟩ | ⟨lhs, goes⟩
  · have done := defaults m known
    rw [default] at done
    exact done.elim
  · exact (shifted_of_action? known own).1
  · exact gotos_below m known _ (Association.mem_of_find? goes)

theorem below_top (stands : Stands tables (e :: rest)) (above : e.state ≠ 0) :
    ∃ under more, rest = under :: more ∧ under.state ∈ below e.state ∧
      Stands tables (under :: more) := by
  cases stands with
  | bottom => simp at above
  | push edge stands => exact ⟨_, _, rfl, edge_below edge, stands⟩

/-- A stack that is deep enough begins with one of the paths. -/
theorem pops {k : Nat} (stands : Stands tables (e :: rest)) (deep : Deep k e.state) :
    ∃ popped u under, e :: rest = popped ++ u :: under ∧ popped.length = k ∧
      Stands tables (u :: under) ∧ (popped ++ [u]).map Entry.state ∈ paths k e.state := by
  induction k generalizing e rest with
  | zero => exact ⟨[], e, rest, rfl, rfl, stands, by simp [paths]⟩
  | succ k ih =>
    obtain ⟨above, deeper⟩ := deep
    obtain ⟨under, more, rfl, member, stands⟩ := below_top stands above
    obtain ⟨popped, u, below, split, length, stands, path⟩ := ih stands (deeper _ member)
    refine ⟨e :: popped, u, below, by rw [split]; rfl, by simp [length], stands, ?_⟩
    exact List.mem_flatMap.mpr ⟨_, member, List.mem_map.mpr ⟨_, path, rfl⟩⟩

theorem bottom_of_zero (stands : Stands tables (e :: rest)) (zero : e.state = 0) :
    e = ⟨0, none⟩ ∧ rest = [] := by
  cases stands with
  | bottom => exact ⟨rfl, rfl⟩
  | push edge => simpa [zero, below] using edge_below edge

theorem eq_one_of_zero_mem_below (member : 0 ∈ below n) : n = 1 := by
  unfold below at member
  split at member <;> simp at member
  rfl

/-- Above the first entry there is always that of the input so far. -/
theorem one_mem_of_stands {stack : Stack} (stands : Stands tables stack) :
    (∃ v, stack = [⟨0, v⟩]) ∨ ∃ entry ∈ stack, entry.state = 1 := by
  induction stands with
  | bottom => exact .inl ⟨none, rfl⟩
  | push edge _ ih =>
    rcases ih with ⟨v, same⟩ | ⟨entry, member, one⟩
    · obtain ⟨rfl, rfl⟩ := List.cons.inj same
      exact .inr ⟨_, by simp, eq_one_of_zero_mem_below (edge_below edge)⟩
    · exact .inr ⟨entry, List.mem_cons_of_mem _ member, one⟩

/-- The entry of the input so far stands on the first one. -/
theorem rest_of_one (stands : Stands tables (e :: rest)) (one : e.state = 1) :
    rest = [⟨0, none⟩] := by
  obtain ⟨under, more, rfl, member, stands⟩ := below_top stands (by simp [one])
  have zero : under.state = 0 := by simpa [one, below] using member
  obtain ⟨rfl, rfl⟩ := bottom_of_zero stands zero
  rfl

end

end ShiftReduce.Calculator
