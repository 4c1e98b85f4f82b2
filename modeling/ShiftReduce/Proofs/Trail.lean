import ShiftReduce.Proofs.ErrorStatus

/-! A trail leads from one moment of a run to a later one. It lists the moments that are left
behind, the latest first, each with what was done until the next one. -/

namespace ShiftReduce

variable {V ε γ σ : Type}

def Moment.isEntry : Moment V γ σ → Bool
  | .top _ => false
  | .entry _ => true

@[simp] theorem Moment.config_top (c : Config V γ σ) : (top c).config = c := rfl

@[simp] theorem Moment.config_entry (c : Config V γ σ) : (entry c).config = c := rfl

@[simp] theorem Moment.isEntry_top (c : Config V γ σ) : (top c).isEntry = false := rfl

@[simp] theorem Moment.isEntry_entry (c : Config V γ σ) : (entry c).isEntry = true := rfl

/-- A moment that a run has left behind, and what was done until the next one. -/
structure Leg (V γ σ : Type) where
  moment : Moment V γ σ
  acts : List (Act V)

namespace Leg

variable (leg : Leg V γ σ)

def isEntry : Bool := leg.moment.isEntry

def isShift : Bool := leg.acts.any Act.isShift

end Leg

/-- How often recovery is entered along a trail, its last moment included. -/
def entries (legs : List (Leg V γ σ)) (m : Moment V γ σ) : Nat :=
  legs.countP Leg.isEntry + if m.isEntry then 1 else 0

namespace Parser

section

variable (p : Parser V ε γ) (lexer : Lexer V ε σ)

inductive Trail (origin : Moment V γ σ) : List (Leg V γ σ) → Moment V γ σ → Prop where
  | here : Trail origin [] origin
  | next {legs : List (Leg V γ σ)} {m m' : Moment V γ σ} {acts : List (Act V)}
      (passed : Trail origin legs m) (goes : p.Goes lexer m acts m') :
      Trail origin (⟨m, acts⟩ :: legs) m'

/-- The run stops without coming to another moment. -/
inductive Ends : Moment V γ σ → Result V ε → Config V γ σ → Prop where
  | top {c d : Config V γ σ} {result : Result V ε} (stopped : p.step lexer c = .stop result d)
      (direct : ∀ b, ¬ p.Recovers lexer c b) : Ends (.top c) result d
  | entry {b d : Config V γ σ} {result : Result V ε}
      (stopped : p.recover lexer b = .stop result d) : Ends (.entry b) result d

end

variable {p : Parser V ε γ} {lexer : Lexer V ε σ} {start c : Config V γ σ} {m : Moment V γ σ}

theorem called_silent (index : Nat) (rule : Rule) (c : Config V γ σ) :
    (p.called index rule c).any Act.isShift = false := by
  unfold called
  split <;> rfl

theorem recovering_silent (c : Config V γ σ) : (p.recovering c).any Act.isShift = false := by
  unfold recovering
  split
  · split <;> rfl
  · rfl

/-- Only the shift action shifts the lookahead. -/
theorem Goes.of_shift {token : Option String} {value : Option V} {m' : Moment V γ σ}
    (goes : p.Goes lexer m [.shift token value] m') :
    ∃ c b target, m = .top c ∧ m' = .top (p.shift target b) ∧
      p.Performs lexer c (some (.shift target)) b ∧
      b.status.token = token ∧ b.status.value = value := by
  generalize same : [Act.shift token value] = acts at goes
  have shifts : acts.any Act.isShift = true := by rw [← same]; rfl
  cases goes with
  | shifted performs =>
    obtain ⟨rfl, rfl⟩ : token = _ ∧ value = _ := by simpa using same
    exact ⟨_, _, _, rfl, rfl, performs, rfl, rfl⟩
  | reduced | forced => rw [called_silent] at shifts; contradiction
  | missed => contradiction
  | recovered => rw [recovering_silent] at shifts; contradiction

theorem Past.trail {past : List (Act V)} (passed : p.Past lexer start past m) :
    ∃ legs, p.Trail lexer (.top start) legs m := by
  induction passed with
  | start => exact ⟨[], .here⟩
  | next _ goes ih =>
    obtain ⟨legs, trail⟩ := ih
    exact ⟨_, trail.next goes⟩

theorem Trail.history {legs : List (Leg V γ σ)} (trail : p.Trail lexer (.top start) legs m) :
    ∃ past, p.Past lexer start past m := by
  induction trail with
  | here => exact ⟨[], .start⟩
  | next _ goes ih =>
    obtain ⟨past, passed⟩ := ih
    exact ⟨_, passed.next goes⟩

theorem Reaches.trail (reached : p.Reaches lexer start c) :
    ∃ legs, p.Trail lexer (.top start) legs (.top c) := by
  obtain ⟨past, passed⟩ := reached.past
  exact passed.trail

/-- A run that ends has a trail to the moment from which it does. -/
theorem run_trail {steps : Nat} {source : σ} {context : γ} {r : Run V ε γ σ}
    (ended : p.run lexer steps source context = some r) :
    ∃ legs m, p.Trail lexer (.top (.start source context)) legs m ∧
      p.Ends lexer m r.result r.final := by
  obtain ⟨c, reached, stopped⟩ := runFrom_origin ended
  obtain ⟨legs, trail⟩ := reached.trail
  by_cases recovering : ∃ b, p.Recovers lexer c b
  · obtain ⟨b, recovers⟩ := recovering
    obtain ⟨acts, goes⟩ := recovers.goes
    rw [p.step_of_recovers lexer recovers] at stopped
    exact ⟨_, _, trail.next goes, .entry stopped⟩
  · exact ⟨legs, _, trail, .top stopped (by simpa using recovering)⟩

theorem run_past {steps : Nat} {source : σ} {context : γ} {r : Run V ε γ σ}
    (ended : p.run lexer steps source context = some r) :
    ∃ past m, p.Past lexer (.start source context) past m ∧ p.Ends lexer m r.result r.final := by
  obtain ⟨legs, m, trail, ends⟩ := run_trail ended
  obtain ⟨past, passed⟩ := trail.history
  exact ⟨past, m, passed, ends⟩

end Parser

end ShiftReduce
