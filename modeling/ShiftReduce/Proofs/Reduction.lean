import ShiftReduce.Parser.Run
import ShiftReduce.Proofs.Step
import ShiftReduce.Tables.Validation

/-! Heights of the stack are counted from the bottom here, so the entries of a rule stand at the end
of the list and those that it pops are cut off from it. -/

namespace ShiftReduce

variable {V ε γ σ : Type}

/-- The entries of the stack from the bottom up. -/
def Config.fromBottom (c : Config V γ σ) : List (Entry V) := c.stack.reverse

/-- The value of the entry at a height, counted from 0 at the bottom, if there is one. -/
def View.valueAt (v : View V) (height : Int) : Option V :=
  if 0 ≤ height ∧ height < v.stack.length then (v.stack.reverse[height.toNat]?).bind Entry.value
  else none

namespace Rule

variable (rule : Rule) (c : Config V γ σ)

/-- The values that a reduction hands to the rule's action: the last ones of the stack, from left
to right. -/
def given : List (Option V) :=
  (c.fromBottom.drop (c.stack.length - rule.dot)).map Entry.value

/-- The entries that a reduction leaves on the stack. -/
def kept : List (Entry V) := c.fromBottom.take (c.stack.length - rule.length)

variable {rule c}

theorem given_eq (high : rule.dot ≤ c.stack.length) : rule.given c = c.lastValues rule.dot := by
  rw [given, Config.fromBottom, Config.lastValues, List.drop_reverse, List.map_reverse,
    Nat.sub_sub_self high]

theorem kept_eq (high : rule.length ≤ c.stack.length) :
    rule.kept c = (c.stack.drop rule.length).reverse := by
  rw [kept, Config.fromBottom, List.take_reverse, Nat.sub_sub_self high]

end Rule

namespace Parser

variable (p : Parser V ε γ) (index : Nat) (rule : Rule) (c : Config V γ σ)

/-- What the action of the rule sees of the run. -/
def sight : View V := ⟨{ c.status with dot := rule.dot }, c.stack, p.tables, some index⟩

/-- The reply of the rule's action. -/
def answer : Reply V γ (Except ε (Option V)) :=
  p.driver.reduce index (rule.given c) (p.sight index rule c) c.context

/-- What the reduction produces; a rule without an action passes on the first of its values. -/
def produced : Except ε (Option V) :=
  if p.driver.hasAction index then (p.answer index rule c).result
  else .ok (firstValue (rule.given c))

/-- The control flag that the reduction obeys. -/
def flag : Control :=
  if p.driver.hasAction index then
    (lastControl? (p.answer index rule c).requests).getD c.status.control
  else c.status.control

/-- What a reduction that produced `value` comes to, by the control flag. The last entry that it
keeps is the one that it uncovers. -/
inductive Settles (kept : List (Entry V)) (value : Option V) :
    Control → Move V ε γ σ → Prop where
  | accepted {b : Config V γ σ} (stack : b.fromBottom = kept) :
      Settles kept value .accept (.stop (.ok (.accept value)) b)
  | aborted {b : Config V γ σ} (stack : b.fromBottom = kept) :
      Settles kept value .abort (.stop (.ok .abort) b)
  | forced {b : Config V γ σ} (stack : b.fromBottom = kept) :
      Settles kept value .error (.recover b)
  | continued {b : Config V γ σ} {top : Entry V} {state : State} {target : Nat}
      (uncovered : kept.getLast? = some top) (found : p.tables.states[top.state]? = some state)
      (goes : state.goto? rule.lhs = some target)
      (stack : b.fromBottom = kept ++ [⟨target, value⟩]) : Settles kept value .normal (.next b)
  | missingGoto {b : Config V γ σ} {top : Entry V} {state : State}
      (uncovered : kept.getLast? = some top) (found : p.tables.states[top.state]? = some state)
      (absent : state.goto? rule.lhs = none) :
      Settles kept value .normal (.stop (.error (.missingGoto top.state rule.lhs)) b)
  /-- No state of a run of valid tables is unknown. -/
  | unknownState {b : Config V γ σ} {top : Entry V} (uncovered : kept.getLast? = some top)
      (missing : p.tables.states[top.state]? = none) :
      Settles kept value .normal (.stop (.error (.defect (.unknownState top.state))) b)

variable {p index rule c}

theorem Ready.reply_eq (ready : p.Ready index rule c) :
    p.reply index rule c = p.answer index rule c := by
  rw [answer, Rule.given_eq ready.dot_le]
  rfl

theorem Ready.produced_eq (ready : p.Ready index rule c) :
    (p.acted index rule c).1 = p.produced index rule c := by
  unfold produced
  rw [← ready.reply_eq, Rule.given_eq ready.dot_le]
  unfold acted evaluate
  split <;> rfl

theorem Ready.flag_eq (ready : p.Ready index rule c) :
    (p.acted index rule c).2.status.control = p.flag index rule c := by
  rw [acted_control, asked, ready.reply_eq, flag]
  split <;> rfl

theorem Ready.kept_eq (ready : p.Ready index rule c) :
    rule.kept c = (c.stack.drop rule.length).reverse :=
  Rule.kept_eq (Nat.le_of_lt ready.length_lt)

theorem Ready.uncovered (ready : p.Ready index rule c) {top : Entry V} {rest : List (Entry V)}
    (uncovered : c.stack.drop rule.length = top :: rest) : (rule.kept c).getLast? = some top := by
  rw [ready.kept_eq, uncovered]
  simp

/-- A reduction whose action returned a value does as the control flag says. -/
theorem Ready.settles (ready : p.Ready index rule c) {value : Option V}
    (returned : p.produced index rule c = .ok value) :
    p.Settles rule (rule.kept c) value (p.flag index rule c) (p.reduce index c) := by
  have same {other : Rule} (ready' : p.Ready index other c) : other = rule :=
    Option.some.inj (ready'.found.symm.trans ready.found)
  rw [← ready.produced_eq] at returned
  rw [← ready.flag_eq]
  have agrees {other : Rule} {made : Option V} (ready' : p.Ready index other c)
      (result : (p.acted index other c).1 = .ok made) : other = rule ∧ made = value := by
    obtain rfl := same ready'
    exact ⟨rfl, Except.ok.inj (result.symm.trans returned)⟩
  have cases := p.reduce_cases index c
  generalize p.reduce index c = move at cases
  cases cases with
  | unknownRule missing => exact absurd (missing.symm.trans ready.found) (by simp)
  | underflow found low | overflow found low =>
    obtain rfl := Option.some.inj (found.symm.trans ready.found)
    exact absurd low ready.high
  | raised ready' result =>
    obtain rfl := same ready'
    exact absurd (result.symm.trans returned) (by simp)
  | accepted ready' result control =>
    obtain ⟨rfl, rfl⟩ := agrees ready' result
    exact control ▸ .accepted (by simp [Config.fromBottom, ready.kept_eq])
  | aborted ready' result control =>
    obtain ⟨rfl, rfl⟩ := agrees ready' result
    exact control ▸ .aborted (by simp [Config.fromBottom, ready.kept_eq])
  | forced ready' result control =>
    obtain ⟨rfl, rfl⟩ := agrees ready' result
    exact control ▸ .forced (by simp [Config.fromBottom, ready.kept_eq])
  | unknownState ready' result control uncovered missing =>
    obtain ⟨rfl, rfl⟩ := agrees ready' result
    exact control ▸ .unknownState (ready.uncovered uncovered) missing
  | missingGoto ready' result control uncovered found absent =>
    obtain ⟨rfl, rfl⟩ := agrees ready' result
    exact control ▸ .missingGoto (ready.uncovered uncovered) found absent
  | continued ready' result control uncovered found goes =>
    obtain ⟨rfl, rfl⟩ := agrees ready' result
    exact control ▸ .continued (ready.uncovered uncovered) found goes
      (by simp [Config.fromBottom, ready.kept_eq])

theorem Ready.raises (ready : p.Ready index rule c) {e : ε}
    (raised : p.produced index rule c = .error e) :
    p.reduce index c = .stop (.error (.action index e)) (p.acted index rule c).2 :=
  p.reduce_raises ready (ready.produced_eq.trans raised)

section TooLow

variable (found : p.tables.rules[index]? = some rule)

include found

end TooLow

end Parser

end ShiftReduce
