import ShiftReduce.Proofs.Reach
import ShiftReduce.Proofs.Step

/-! A run passes through moments: the top of its loop and, in a step that recovers from an error,
the entry into recovery. Between two moments it shifts, calls actions, calls the error hook, or
shifts the error token. The history of a moment lists these acts, the latest first. -/

namespace ShiftReduce

variable {V ε γ σ : Type}

inductive Act (V : Type) where
  /-- A shift that the tables ask for, with the lookahead that it found. -/
  | shift (token : Option String) (value : Option V)
  /-- A call of the action of a rule, and what it asked for. -/
  | action (rule : Nat) (requests : List (Request V))
  /-- A call of the error hook, and what it asked for. -/
  | hook (requests : List (Request V))
  /-- The shift of the error token, by recovery. -/
  | errorShift
  deriving DecidableEq, Repr

/-- The token that is shifted. The end of the input is none. -/
def Act.lexeme? : Act V → Option (Lexeme V)
  | .shift (some token) value => if token = endToken then none else some ⟨token, value⟩
  | _ => none

/-- The tokens that were shifted, the latest first. -/
def shifts (acts : List (Act V)) : List (Lexeme V) := acts.filterMap Act.lexeme?

@[simp] theorem shifts_nil : shifts ([] : List (Act V)) = [] := rfl

@[simp] theorem shifts_append (more acts : List (Act V)) :
    shifts (more ++ acts) = shifts more ++ shifts acts :=
  List.filterMap_append

inductive Moment (V γ σ : Type) where
  /-- The top of the loop. -/
  | top (c : Config V γ σ)
  /-- The entry into recovery. -/
  | entry (c : Config V γ σ)

def Moment.config : Moment V γ σ → Config V γ σ
  | .top c => c
  | .entry c => c

namespace Parser

variable (p : Parser V ε γ) (lexer : Lexer V ε σ)

/-- The call that a reduction makes, if the rule has an action. -/
def called (index : Nat) (rule : Rule) (c : Config V γ σ) : List (Act V) :=
  if p.driver.hasAction index then [.action index (p.reply index rule c).requests] else []

/-- What recovery does before the run goes on: it tells the hook of an error that is new, and it
shifts the error token unless the hook has cleared the error status. -/
def recovering (c : Config V γ σ) : List (Act V) :=
  if c.status.errorStatus = 0 then
    if (p.report c).status.errorStatus = 0 then [.hook (p.hookReply c).requests]
    else [.errorShift, .hook (p.hookReply c).requests]
  else [.errorShift]

@[simp] theorem called_shifts (index : Nat) (rule : Rule) (c : Config V γ σ) :
    shifts (p.called index rule c) = [] := by
  unfold called
  split <;> rfl

@[simp] theorem recovering_shifts (c : Config V γ σ) : shifts (p.recovering c) = [] := by
  unfold recovering
  split
  · split <;> rfl
  · rfl

/-- From one moment to the next, with what is done in between. -/
inductive Goes : Moment V γ σ → List (Act V) → Moment V γ σ → Prop where
  | shifted {c b : Config V γ σ} {target : Nat}
      (performs : p.Performs lexer c (some (.shift target)) b) :
      Goes (.top c) [.shift b.status.token b.status.value] (.top (p.shift target b))
  | reduced {c b d : Config V γ σ} {index : Nat} {rule : Rule}
      (reduces : p.Reduces lexer c index b) (ready : p.Ready index rule b)
      (reduced : p.reduce index b = .next d) : Goes (.top c) (p.called index rule b) (.top d)
  | forced {c b d : Config V γ σ} {index : Nat} {rule : Rule}
      (reduces : p.Reduces lexer c index b) (ready : p.Ready index rule b)
      (forced : p.reduce index b = .recover d) : Goes (.top c) (p.called index rule b) (.entry d)
  | missed {c b : Config V γ σ} (performs : p.Performs lexer c none b) :
      Goes (.top c) [] (.entry b)
  | recovered {b d : Config V γ σ} (recovered : p.recover lexer b = .next d) :
      Goes (.entry b) (p.recovering b) (.top d)

/-- A run from `start` comes to a moment, having done these acts. -/
inductive Past (start : Config V γ σ) : List (Act V) → Moment V γ σ → Prop where
  | start : Past start [] (.top start)
  | next {acts more : List (Act V)} {m m' : Moment V γ σ} (past : Past start acts m)
      (goes : p.Goes lexer m more m') : Past start (more ++ acts) m'

variable {p lexer} {c d b : Config V γ σ}

/-- A reduction that does not stop the run had its entries on the stack. -/
theorem ready_of_reduce {index : Nat} (going : (∃ d, p.reduce index b = .next d) ∨
    ∃ d, p.reduce index b = .recover d) : ∃ rule, p.Ready index rule b := by
  have cases := p.reduce_cases index b
  rcases going with ⟨d, reduced⟩ | ⟨d, reduced⟩
  all_goals
    rw [reduced] at cases
    cases cases with
    | _ ready => exact ⟨_, ready⟩

/-- Every entry into recovery is a moment of its step. -/
theorem Recovers.goes (recovers : p.Recovers lexer c b) :
    ∃ acts, p.Goes lexer (.top c) acts (.entry b) := by
  rcases recovers with performs | ⟨index, before, reduces, forced⟩
  · exact ⟨[], .missed performs⟩
  · obtain ⟨rule, ready⟩ := ready_of_reduce (.inr ⟨b, forced⟩)
    exact ⟨_, .forced reduces ready forced⟩

theorem Past.of_recovers {start : Config V γ σ} {acts : List (Act V)}
    (past : p.Past lexer start acts (.top c)) (recovers : p.Recovers lexer c b) :
    ∃ acts, p.Past lexer start acts (.entry b) := by
  obtain ⟨more, goes⟩ := recovers.goes
  exact ⟨more ++ acts, past.next goes⟩

/-- Every configuration that a run reaches has a history. -/
theorem Reaches.past {start : Config V γ σ} (reached : p.Reaches lexer start c) :
    ∃ acts, p.Past lexer start acts (.top c) := by
  induction reached with
  | refl => exact ⟨[], .start⟩
  | @next d e _ step ih =>
    obtain ⟨acts, past⟩ := ih
    have cases := p.step_cases lexer d
    rw [step] at cases
    cases cases with
    | shifted performs => exact ⟨_, past.next (.shifted performs)⟩
    | reduced reduces reduced =>
      obtain ⟨rule, ready⟩ := ready_of_reduce (.inl ⟨e, reduced⟩)
      exact ⟨_, past.next (.reduced reduces ready reduced)⟩
    | recovered recovers recovered =>
      obtain ⟨acts, past⟩ := past.of_recovers recovers
      exact ⟨_, past.next (.recovered recovered)⟩

theorem Performs.unique {action action' : Option Action} {b' : Config V γ σ}
    (first : p.Performs lexer c action b) (second : p.Performs lexer c action' b') :
    action = action' ∧ b = b' := by
  obtain ⟨top, rest, state, stack, found, looked, rfl⟩ := first
  obtain ⟨top', rest', state', stack', found', looked', rfl⟩ := second
  obtain ⟨rfl, rfl⟩ := List.cons.inj (stack.symm.trans stack')
  obtain rfl := Option.some.inj (found.symm.trans found')
  obtain rfl := Step.next.inj (looked.symm.trans looked')
  exact ⟨rfl, rfl⟩

/-- A step that reduces does nothing else. -/
theorem Reduces.apart {index : Nat} {action : Option Action} {b' : Config V γ σ}
    (reduces : p.Reduces lexer c index b) (performs : p.Performs lexer c action b')
    (other : action = none ∨ ∃ target, action = some (.shift target)) : False := by
  obtain ⟨reduction, before, performs', known⟩ : ∃ reduction before,
      p.Performs lexer c (some reduction) before ∧ ∀ target, reduction ≠ .shift target := by
    rcases reduces with performs | ⟨before, performs, _, _⟩
    · exact ⟨_, _, performs, by simp⟩
    · exact ⟨_, _, performs, by simp⟩
  rcases other with rfl | ⟨target, rfl⟩
  · exact absurd (performs.unique performs').1 (by simp)
  · exact known target (Option.some.inj (performs.unique performs').1).symm

theorem Reduces.unique {index index' : Nat} {b' : Config V γ σ} (first : p.Reduces lexer c index b)
    (second : p.Reduces lexer c index' b') : index = index' ∧ b = b' := by
  rcases first with performs | ⟨before, performs, rfl, rfl⟩
  · rcases second with performs' | ⟨before', performs', _, _⟩
    · obtain ⟨same, rfl⟩ := performs.unique performs'
      cases same
      exact ⟨rfl, rfl⟩
    · exact absurd (performs.unique performs').1 (by simp)
  · rcases second with performs' | ⟨before', performs', rfl, rfl⟩
    · exact absurd (performs.unique performs').1 (by simp)
    · obtain ⟨_, rfl⟩ := performs.unique performs'
      exact ⟨rfl, rfl⟩

theorem Ready.rule_unique {index : Nat} {rule rule' : Rule} (ready : p.Ready index rule b)
    (ready' : p.Ready index rule' b) : rule = rule' :=
  Option.some.inj (ready.found.symm.trans ready'.found)

/-- What a run does next is determined. -/
theorem Goes.unique {m n n' : Moment V γ σ} {acts acts' : List (Act V)}
    (first : p.Goes lexer m acts n) (second : p.Goes lexer m acts' n') : acts = acts' ∧ n = n' := by
  cases first with
  | shifted performs =>
    cases second with
    | shifted performs' =>
      obtain ⟨same, rfl⟩ := performs.unique performs'
      cases same
      exact ⟨rfl, rfl⟩
    | reduced reduces | forced reduces => exact (reduces.apart performs (.inr ⟨_, rfl⟩)).elim
    | missed performs' => exact absurd (performs.unique performs').1 (by simp)
  | reduced reduces ready reduced =>
    cases second with
    | shifted performs => exact (reduces.apart performs (.inr ⟨_, rfl⟩)).elim
    | missed performs => exact (reduces.apart performs (.inl rfl)).elim
    | reduced reduces' ready' reduced' =>
      obtain ⟨rfl, rfl⟩ := reduces.unique reduces'
      obtain rfl := ready.rule_unique ready'
      cases reduced.symm.trans reduced'
      exact ⟨rfl, rfl⟩
    | forced reduces' _ forced =>
      obtain ⟨rfl, rfl⟩ := reduces.unique reduces'
      exact absurd (reduced.symm.trans forced) (by simp)
  | forced reduces ready forced =>
    cases second with
    | shifted performs => exact (reduces.apart performs (.inr ⟨_, rfl⟩)).elim
    | missed performs => exact (reduces.apart performs (.inl rfl)).elim
    | reduced reduces' _ reduced =>
      obtain ⟨rfl, rfl⟩ := reduces.unique reduces'
      exact absurd (forced.symm.trans reduced) (by simp)
    | forced reduces' ready' forced' =>
      obtain ⟨rfl, rfl⟩ := reduces.unique reduces'
      obtain rfl := ready.rule_unique ready'
      cases forced.symm.trans forced'
      exact ⟨rfl, rfl⟩
  | missed performs =>
    cases second with
    | shifted performs' => exact absurd (performs.unique performs').1 (by simp)
    | reduced reduces | forced reduces => exact (reduces.apart performs (.inl rfl)).elim
    | missed performs' => exact ⟨rfl, congrArg Moment.entry (performs.unique performs').2⟩
  | recovered recovered =>
    cases second with
    | recovered recovered' =>
      cases recovered.symm.trans recovered'
      exact ⟨rfl, rfl⟩

/-- From the top of the loop, a step goes on or enters recovery. -/
theorem Goes.step {acts : List (Act V)} {m : Moment V γ σ} (goes : p.Goes lexer (.top c) acts m) :
    (∃ d, m = .top d ∧ p.step lexer c = .next d) ∨ ∃ b, m = .entry b ∧ p.Recovers lexer c b := by
  cases goes with
  | shifted performs => exact .inl ⟨_, rfl, p.step_of_shift lexer performs⟩
  | reduced reduces _ reduced =>
    refine .inl ⟨_, rfl, ?_⟩
    rw [p.step_of_reduces lexer reduces, reduced]
    rfl
  | forced reduces _ forced => exact .inr ⟨_, rfl, .inr ⟨_, _, reduces, forced⟩⟩
  | missed performs => exact .inr ⟨_, rfl, .inl performs⟩

theorem Goes.performs {acts : List (Act V)} {m : Moment V γ σ}
    (goes : p.Goes lexer (.top c) acts m) : ∃ action b, p.Performs lexer c action b := by
  cases goes with
  | shifted performs | missed performs => exact ⟨_, _, performs⟩
  | reduced reduces | forced reduces =>
    rcases reduces with performs | ⟨before, performs, _⟩
    · exact ⟨_, _, performs⟩
    · exact ⟨_, _, performs⟩

/-- A reduction that ends the run is all that its step can do. -/
theorem Goes.not_stopped {index : Nat} {result : Result V ε} (reduces : p.Reduces lexer c index b)
    (stopped : p.reduce index b = .stop result d) {acts : List (Act V)} {m : Moment V γ σ} :
    ¬ p.Goes lexer (.top c) acts m := by
  intro goes
  cases goes with
  | shifted performs => exact reduces.apart performs (.inr ⟨_, rfl⟩)
  | missed performs => exact reduces.apart performs (.inl rfl)
  | reduced reduces' _ going | forced reduces' _ going =>
    obtain ⟨rfl, rfl⟩ := reduces.unique reduces'
    exact absurd (stopped.symm.trans going) (by simp)

/-- A history is that of a configuration that the run reaches, or of an entry into recovery from
one. -/
theorem Past.reaches {start : Config V γ σ} {acts : List (Act V)} {m : Moment V γ σ}
    (past : p.Past lexer start acts m) :
    (∀ c, m = .top c → p.Reaches lexer start c) ∧
    ∀ b, m = .entry b → ∃ c, p.Reaches lexer start c ∧ p.Recovers lexer c b := by
  induction past with
  | start => exact ⟨fun c same => by cases same; exact .refl, by simp⟩
  | @next acts more m m' _ goes ih =>
    cases m with
    | top c =>
      have reached := ih.1 c rfl
      rcases goes.step with ⟨d, rfl, step⟩ | ⟨b, rfl, recovers⟩
      · exact ⟨fun e same => by cases same; exact .next reached step, by simp⟩
      · exact ⟨by simp, fun b' same => by cases same; exact ⟨c, reached, recovers⟩⟩
    | entry b =>
      obtain ⟨c, reached, recovers⟩ := ih.2 b rfl
      cases goes with
      | @recovered _ d recovered =>
        refine ⟨fun e same => ?_, by simp⟩
        cases same
        exact .next reached ((p.step_of_recovers lexer recovers).trans recovered)

end Parser

end ShiftReduce
