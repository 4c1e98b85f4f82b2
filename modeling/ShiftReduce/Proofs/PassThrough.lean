import ShiftReduce.Parser.Registry
import ShiftReduce.Proofs.Calculator.Moves

namespace ShiftReduce

variable {V ε γ σ : Type}

/-- Called for a rule without an action, the driver passes the first value on. -/
def Driver.PassesOn (d : Driver V ε γ) (rule : Nat) : Prop :=
  d.hasAction rule = false → ∀ values view context,
    d.reduce rule values view context = { result := .ok (firstValue values), context }

theorem Registry.driver_passesOn (r : Registry V ε γ) (rule : Nat) : r.driver.PassesOn rule := by
  intro passive values view context
  have missing : r.action? rule = none := by simpa [driver] using passive
  simp [driver, missing]

namespace Calculator

theorem driver_passesOn {rule : Nat} (known : rule < tables.rules.size) : driver.PassesOn rule := by
  intro passive values view session
  have listed : rule < Production.all.length := known
  obtain ⟨production, found⟩ : ∃ production, Production.ofRule? rule = some production :=
    ⟨_, List.getElem?_eq_getElem listed⟩
  have passive : production.hasAction = false := by simpa [driver, found] using passive
  simp only [driver, found, act_of_not_hasAction passive]
  rfl

end Calculator

/-- The first value is that of the entry at which the values start, if there are any. -/
theorem Config.firstValue_lastValues (c : Config V γ σ) {count : Nat}
    (high : count ≤ c.stack.length) : firstValue (c.lastValues count) =
      if count = 0 then none else (c.stack[count - 1]?).bind Entry.value := by
  have last : (c.stack.take count).getLast? = if count = 0 then none else c.stack[count - 1]? := by
    rw [List.getLast?_take]
    split
    · rfl
    · rw [List.getElem?_eq_getElem (by omega), Option.some_or]
  rw [firstValue, lastValues, List.head?_reverse, List.getLast?_map, last]
  split
  · rfl
  · cases c.stack[count - 1]? <;> rfl

/-- A run that a caller asks for, and what the caller does to the context and to the source before
it. -/
structure Job (V ε γ σ : Type) where
  flags : Trace.Flags
  lexer : Lexer V ε σ
  steps : Nat
  prepare : γ × σ → γ × σ

namespace Parser

/-- Makes one run after the other, each from the context and the source that the one before it has
left. -/
def runs (p : Parser V ε γ) : List (Job V ε γ σ) → γ × σ → List (Option (Run V ε γ σ))
  | [], _ => []
  | job :: jobs, world =>
    let (context, source) := job.prepare world
    match { p with flags := job.flags }.run job.lexer job.steps source context with
    | none => [none]
    | some r => some r :: runs p jobs (r.final.context, r.final.source)

/-- The same parser, which calls the driver for every rule. -/
def calling (p : Parser V ε γ) : Parser V ε γ := { p with driver := p.driver.always }

/-- All rules of the tables that have no action are passed on by the driver, too. -/
def PassesOn (p : Parser V ε γ) : Prop := ∀ rule < p.tables.rules.size, p.driver.PassesOn rule

variable {p : Parser V ε γ}

theorem evaluate_calling {rule : Nat} (passes : p.driver.PassesOn rule)
    (values : List (Option V)) (c : Config V γ σ) :
    p.calling.evaluate rule values c = p.evaluate rule values c := by
  have called : p.calling.evaluate rule values c =
      ((p.driver.reduce rule values (c.view p.tables rule) c.context).result,
        c.absorb (p.driver.reduce rule values (c.view p.tables rule) c.context)) := rfl
  rw [called, evaluate]
  split
  · rfl
  · next passive =>
    rw [passes (by simpa using passive)]
    rfl

theorem reduce_calling (passes : p.PassesOn) (index : Nat) (c : Config V γ σ) :
    p.calling.reduce index c = p.reduce index c := by
  have tables : p.calling.tables = p.tables := rfl
  unfold reduce
  rw [tables]
  cases found : p.tables.rule index with
  | error defect => rfl
  | ok rule =>
    have known : index < p.tables.rules.size :=
      (Array.getElem?_eq_some_iff.mp (Tables.rule_eq_ok_iff.mp found)).1
    dsimp only
    rw [evaluate_calling (passes index known)]
    rfl

theorem unwind_calling (c : Config V γ σ) (stack : List (Entry V)) :
    p.calling.unwind c stack = p.unwind c stack := by
  -- only tables and flags matter, but the recursion does not unfold by itself
  induction stack generalizing c with
  | nil => rfl
  | cons top rest ih =>
    simp only [unwind, ih]
    rfl

theorem recover_calling (lexer : Lexer V ε σ) (c : Config V γ σ) :
    p.calling.recover lexer c = p.recover lexer c := by
  have resynchronize (c : Config V γ σ) :
      p.calling.resynchronize lexer c = p.resynchronize lexer c := by
    simp only [Parser.resynchronize, unwind_calling]
    rfl
  simp only [recover, resynchronize]
  rfl

/-- A step is the same from every configuration. -/
theorem step_calling (passes : p.PassesOn) (lexer : Lexer V ε σ) (c : Config V γ σ) :
    p.calling.step lexer c = p.step lexer c := by
  have perform (action : Option Action) (c : Config V γ σ) :
      p.calling.perform action c = p.perform action c := by
    cases action with
    | none => rfl
    | some action =>
      cases action with
      | shift target => rfl
      | reduce index => exact reduce_calling passes index c
      | accept => exact reduce_calling passes 0 (c.setControl .accept)
  have recover : p.calling.recover lexer = p.recover lexer := funext (recover_calling lexer)
  simp only [step, perform, recover]
  rfl

theorem runFrom_calling (passes : p.PassesOn) (lexer : Lexer V ε σ) (steps : Nat)
    (c : Config V γ σ) : p.calling.runFrom lexer steps c = p.runFrom lexer steps c := by
  induction steps generalizing c with
  | zero => rfl
  | succ steps ih =>
    unfold runFrom
    rw [step_calling passes]
    cases p.step lexer c with
    | next d => exact ih d
    | stop result d => rfl

theorem runs_calling (passes : p.PassesOn) (jobs : List (Job V ε γ σ)) (world : γ × σ) :
    p.calling.runs jobs world = p.runs jobs world := by
  induction jobs generalizing world with
  | nil => rfl
  | cons job jobs ih =>
    have first (source : σ) (context : γ) :
        run { p.calling with flags := job.flags } job.lexer job.steps source context =
          run { p with flags := job.flags } job.lexer job.steps source context :=
      runFrom_calling (p := { p with flags := job.flags }) passes job.lexer job.steps _
    simp only [runs, first, ih]

/-- Whether a rule has an action makes for a shortcut only. The driver of a registry may as well be
called for every rule: with any tables and any lexer, one that keeps what it is shown included,
every step is the same and so is every run of a sequence, to the last of its records. The same is
true of the driver and the tables of the calculator. What is passed on is the value of the entry at
which the values of the rule start. -/
theorem action_test_is_shortcut (tables : Tables) (registry : Registry V ε γ) :
    (∀ flags (lexer : Lexer V ε σ) c,
      step ⟨tables, registry.driver.always, flags⟩ lexer c =
        step ⟨tables, registry.driver, flags⟩ lexer c) ∧
    (∀ (jobs : List (Job V ε γ σ)) world,
      runs ⟨tables, registry.driver.always, .none⟩ jobs world =
        runs ⟨tables, registry.driver, .none⟩ jobs world) ∧
    (∀ (jobs : List (Job Calculator.Value Calculator.Error Calculator.Session σ)) world,
      runs ⟨Calculator.tables, Calculator.driver.always, .none⟩ jobs world =
        runs ⟨Calculator.tables, Calculator.driver, .none⟩ jobs world) ∧
    (∀ source session flags,
      run ⟨Calculator.tables, Calculator.driver.always, flags⟩ Calculator.lexer
          (Calculator.stepBound source) (.ofSource source) session =
        Calculator.eval source session flags) ∧
    ∀ (c : Config V γ σ) (rule : Rule), rule.dot ≤ c.stack.length →
      firstValue (c.lastValues rule.dot) =
        if rule.dot = 0 then none else (c.stack[rule.dot - 1]?).bind Entry.value := by
  have registered (flags : Trace.Flags) : PassesOn ⟨tables, registry.driver, flags⟩ :=
    fun rule _ => registry.driver_passesOn rule
  have calculated (flags : Trace.Flags) : PassesOn (Calculator.parser flags) :=
    fun rule known => Calculator.driver_passesOn known
  exact ⟨fun flags lexer c => step_calling (registered flags) lexer c,
    fun jobs world => runs_calling (registered .none) jobs world,
    fun jobs world => runs_calling (calculated .none) jobs world,
    fun source session flags => runFrom_calling (calculated flags) Calculator.lexer
      (Calculator.stepBound source) (.start (.ofSource source) session),
    fun c rule high => c.firstValue_lastValues high⟩

end Parser

end ShiftReduce
