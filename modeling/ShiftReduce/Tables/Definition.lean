namespace ShiftReduce

/-- A rule: the nonterminal it produces, or an in-line marker, and the entries it pops. -/
structure RuleDefinition where
  lhs : String
  length : Nat
  deriving DecidableEq, Repr

/-- A state. A list of actions, even an empty one, makes the state ask for a lookahead. -/
structure StateDefinition where
  default : Option Int := none
  actions : Option (List (String × Int)) := none
  gotos : List (String × Nat) := []
  deriving DecidableEq, Repr

structure TablesDefinition where
  rules : List RuleDefinition
  states : List StateDefinition
  deriving DecidableEq, Repr

end ShiftReduce
