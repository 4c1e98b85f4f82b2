import ShiftReduce.OrderedMap
import ShiftReduce.Parser.Driver

namespace ShiftReduce

variable {V ε γ : Type}

abbrev RuleAction (V ε γ : Type) :=
  (values : List (Option V)) → View V → γ → Reply V γ (Except ε (Option V))

abbrev ErrorHook (V γ : Type) := View V → γ → Reply V γ Unit

structure Registry (V ε γ : Type) where
  /-- By rule. -/
  actions : OrderedMap Nat (RuleAction V ε γ) := {}
  hook : Option (ErrorHook V γ) := none

namespace Registry

/-- Binds an action to a rule, in place of one that was bound to it before. -/
def on (r : Registry V ε γ) (rule : Nat) (action : RuleAction V ε γ) : Registry V ε γ :=
  { r with actions := r.actions.insert rule action }

def onError (r : Registry V ε γ) (hook : ErrorHook V γ) : Registry V ε γ :=
  { r with hook := some hook }

def rules (r : Registry V ε γ) : List Nat := r.actions.keys

def action? (r : Registry V ε γ) (rule : Nat) : Option (RuleAction V ε γ) :=
  r.actions.get? rule

/-- Called for a rule without an action, the driver passes the first value on. -/
def driver (r : Registry V ε γ) : Driver V ε γ where
  hasAction rule := (r.action? rule).isSome
  reduce rule values view context :=
    match r.action? rule with
    | some action => action values view context
    | none => { result := .ok (firstValue values), context }
  onError := r.hook.getD Driver.defaultHook

def summary (r : Registry V ε γ) : String :=
  "RuleActions \x7b rules: [" ++ ", ".intercalate (r.rules.map toString) ++
    "], on_error: " ++ (if r.hook.isSome then "true" else "false") ++ " \x7d"

end Registry

end ShiftReduce
