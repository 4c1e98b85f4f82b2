import ShiftReduce.Tables.Basic
import ShiftReduce.Tables.Definition
import ShiftReduce.Text.Radix
import ShiftReduce.Text.Split
import ShiftReduce.Word

/-! Turns a definition into tables, or tells the first defect. Rule 0 and state 0 must exist; the
name of an in-line rule must have the form `@digits-digits`; and every action and goto must lead to
a rule or a state. Rules come before states, and within a state the default before the actions and
the actions before the gotos. -/

namespace ShiftReduce

/-- The number of values that an in-line marker `@digits-digits` asks for. It is a machine word,
so a longer one makes the marker ill-formed. -/
def markerLength? (marker : List Char) : Option Nat :=
  match marker with
  | '@' :: body =>
    match Text.splitFirst '-' body with
    | none => none
    | some (index, length) =>
      match Text.decimal? index, Text.decimal? length with
      | some _, some n => if Word.fitsUnsigned n then some n else none
      | _, _ => none
  | _ => none

/-- Reads a rule; a name that starts with `@` has to be a marker. -/
def Rule.ofDefinition (index : Nat) (d : RuleDefinition) : Except Defect Rule :=
  if d.lhs.toList.head? = some '@' then
    match markerLength? d.lhs.toList with
    | some n => .ok ⟨d.lhs, d.length, some n⟩
    | none => .error (.illFormedMarker index d.lhs)
  else .ok ⟨d.lhs, d.length, none⟩

structure Extent where
  rules : Nat
  states : Nat

def Extent.checkState (e : Extent) (state : Nat) : Except Defect Nat :=
  if state < e.states then .ok state else .error (.unknownState state)

def Extent.checkAction (e : Extent) : Action → Except Defect Action
  | .shift state => (e.checkState state).map .shift
  | .reduce rule => if rule < e.rules then .ok (.reduce rule) else .error (.unknownRule rule)
  | .accept => .ok .accept

def Extent.checkCode (e : Extent) (code : Int) : Except Defect Action :=
  e.checkAction (.ofCode code)

def checkOptional {α β : Type} (check : α → Except Defect β) : Option α → Except Defect (Option β)
  | none => .ok none
  | some a => (check a).map some

def State.ofDefinition (e : Extent) (d : StateDefinition) : Except Defect State := do
  let default ← checkOptional e.checkCode d.default
  let actions ← checkOptional (fun codes => (OrderedMap.ofList codes).mapValues e.checkCode) d.actions
  let gotos ← (OrderedMap.ofList d.gotos).mapValues e.checkState
  return ⟨default, actions, gotos⟩

def Rule.ofDefinitions (index : Nat) : List RuleDefinition → Except Defect (List Rule)
  | [] => .ok []
  | d :: rest => do
    let rule ← Rule.ofDefinition index d
    let rules ← Rule.ofDefinitions (index + 1) rest
    return rule :: rules

def Tables.ofDefinition (d : TablesDefinition) : Except Defect Tables :=
  if d.rules.isEmpty then .error (.unknownRule 0)
  else if d.states.isEmpty then .error (.unknownState 0)
  else do
    let rules ← Rule.ofDefinitions 0 d.rules
    let states ← d.states.mapM (State.ofDefinition ⟨d.rules.length, d.states.length⟩)
    return ⟨rules.toArray, states.toArray⟩

end ShiftReduce
