import ShiftReduce.OrderedMap
import ShiftReduce.Text.Quoted
import ShiftReduce.Word

/-! The automaton that drives a parse: numbered rules and numbered states. A state chooses an action
by the lookahead token or takes its default; after a reduction the state that comes to the top of
the stack gives the next one through its gotos. -/

namespace ShiftReduce

def endToken : String := ""

/-- The name of the token that only error recovery shifts. -/
def errorToken : String := "error"

inductive Action where
  | shift (state : Nat)
  | reduce (rule : Nat)
  /-- Reduces by rule 0 and accepts. -/
  | accept
  deriving DecidableEq, Repr

/-- The integer code of an action: a positive code shifts to that state, a negative one reduces
by the rule of its absolute value, and zero accepts. -/
def Action.ofCode (code : Int) : Action :=
  if code = 0 then .accept
  else if 0 < code then .shift code.toNat
  else .reduce code.natAbs

/-- A rule of the grammar. A rule in the middle of another one has a marker for its name and
hands its action `marker` values from the stack, which it does not pop. -/
structure Rule where
  lhs : String
  length : Nat
  marker : Option Nat := none
  deriving DecidableEq, Repr

namespace Rule

def isEmpty (r : Rule) : Bool := r.length == 0

/-- How many values from the top of the stack the rule's action is given. -/
def dot (r : Rule) : Nat := r.marker.getD r.length

/-- Whether a stack of this height is too low for a reduction: it does not hold the values that the
action is given, or no state is left below the entries that are popped. -/
def exceeds (r : Rule) (height : Nat) : Bool := height < r.dot || height ≤ r.length

/-- The least height of the stack that is not too low. It is reckoned in machine words, so a rule of
the greatest length has none. -/
def needed? (r : Rule) : Option Nat := (Word.next? r.length).map (max r.dot)

theorem exceeds_iff {r : Rule} {height : Nat} :
    r.exceeds height = true ↔ height < max r.dot (r.length + 1) := by
  simp only [exceeds, Bool.or_eq_true, decide_eq_true_eq]
  omega

theorem needed?_eq_some_iff {r : Rule} {height : Nat} : r.needed? = some height ↔
    r.length + 1 < Word.unsignedLimit ∧ max r.dot (r.length + 1) = height := by
  simp [needed?, Word.next?_eq_some_iff, and_assoc]

theorem exceeds_iff_lt {r : Rule} {height needed : Nat} (told : r.needed? = some needed) :
    r.exceeds height = true ↔ height < needed := by
  obtain ⟨_, rfl⟩ := needed?_eq_some_iff.mp told
  exact exceeds_iff

end Rule

structure State where
  default : Option Action := none
  actions : Option (NameMap Action) := none
  gotos : NameMap Nat := {}
  deriving DecidableEq, Repr

namespace State

def needsToken (s : State) : Bool := s.actions.isSome

/-- The action for a token, the default left aside. -/
def action? (s : State) (token : String) : Option Action :=
  s.actions.bind (·.get? token)

/-- The action taken with this lookahead, if any: the token's own action or else the default. -/
def select (s : State) (token : Option String) : Option Action :=
  (token.bind s.action?).or s.default

def errorShift? (s : State) : Option Nat :=
  match s.action? errorToken with
  | some (.shift target) => some target
  | _ => none

def goto? (s : State) (lhs : String) : Option Nat := s.gotos.get? lhs

/-- The tokens with an action of their own, in increasing order of name. -/
def expected (s : State) : List String := (s.actions.map (·.keys)).getD []

end State

inductive Defect where
  | illFormedMarker (rule : Nat) (lhs : String)
  | unknownState (state : Nat)
  | unknownRule (rule : Nat)
  deriving DecidableEq, Repr

def Defect.message : Defect → String
  | .illFormedMarker rule lhs =>
    s!"in-line rule {rule} has ill-formed name " ++ Text.quote lhs
  | .unknownState state => s!"unknown state {state}"
  | .unknownRule rule => s!"unknown rule {rule}"

structure Tables where
  rules : Array Rule
  states : Array State
  deriving DecidableEq, Repr

namespace Tables

def rule (t : Tables) (index : Nat) : Except Defect Rule :=
  match t.rules[index]? with
  | some rule => .ok rule
  | none => .error (.unknownRule index)

def state (t : Tables) (index : Nat) : Except Defect State :=
  match t.states[index]? with
  | some state => .ok state
  | none => .error (.unknownState index)

theorem rule_eq_ok_iff {t : Tables} {index : Nat} {r : Rule} :
    t.rule index = .ok r ↔ t.rules[index]? = some r := by
  unfold rule; split <;> simp_all

theorem state_eq_ok_iff {t : Tables} {index : Nat} {s : State} :
    t.state index = .ok s ↔ t.states[index]? = some s := by
  unfold state; split <;> simp_all

end Tables

end ShiftReduce
