import ShiftReduce.Calculator.Eval
import ShiftReduce.Proofs.History
import ShiftReduce.Proofs.Calculator.Tokens

/-! What of a configuration decides how the calculator goes on: the stack, the error status, the
session, and the tokens that are still to come. Whether the next one of them has been fetched
already makes no difference. -/

namespace ShiftReduce.Calculator

abbrev Stack := List (Entry Value)

abbrev CalculatorConfig := Config Value Session Scanner

structure Situation where
  stack : Stack
  errorStatus : Nat
  session : Session
  /-- The tokens that were neither shifted nor discarded. -/
  input : List Token

/-- The lookahead, if one is pending, and behind it what the scanner will deliver. -/
inductive Awaits (status : Status Value) (scanner : Scanner) : List Token → Prop where
  | unread {ts : List Token} (missing : status.token = none) (left : scanner.tokens = ts) :
      Awaits status scanner ts
  | pending {t : Token} {ts : List Token} (fits : t.Fits) (token : status.token = some t.name)
      (value : status.value = t.value) (left : scanner.tokens = ts) :
      Awaits status scanner (t :: ts)
  | atEnd (token : status.token = some endToken) (value : status.value = none)
      (left : scanner.tokens = []) : Awaits status scanner []

theorem Awaits.of_same {status status' : Status Value} {scanner : Scanner} {ts : List Token}
    (awaits : Awaits status scanner ts) (token : status'.token = status.token)
    (value : status'.value = status.value) : Awaits status' scanner ts := by
  cases awaits with
  | unread missing left => exact .unread (token.trans missing) left
  | pending fits pending carried left =>
    exact .pending fits (token.trans pending) (value.trans carried) left
  | atEnd pending carried left => exact .atEnd (token.trans pending) (value.trans carried) left

structure Shows (c : CalculatorConfig) (s : Situation) : Prop where
  stack : c.stack = s.stack
  errorStatus : c.status.errorStatus = s.errorStatus
  control : c.status.control = .normal
  session : c.context = s.session
  input : Awaits c.status c.source s.input

theorem Shows.of_fetch {c b : CalculatorConfig} {s : Situation} (shown : Shows c s)
    (frame : Config.Fetch c b) (input : Awaits b.status b.source s.input) : Shows b s :=
  ⟨frame.stack.trans shown.stack, frame.errorStatus.trans shown.errorStatus,
    frame.control.trans shown.control, frame.context.trans shown.session, input⟩

/-- The situation with more tokens to come behind the others. -/
def Situation.before (s : Situation) (more : List Token) : Situation :=
  { s with input := s.input ++ more }

namespace Situation

variable (s : Situation) (more : List Token)

@[simp] theorem before_stack : (s.before more).stack = s.stack := rfl

@[simp] theorem before_errorStatus : (s.before more).errorStatus = s.errorStatus := rfl

@[simp] theorem before_session : (s.before more).session = s.session := rfl

@[simp] theorem before_input : (s.before more).input = s.input ++ more := rfl

@[simp] theorem before_nil : s.before [] = s := by
  simp [before]

theorem before_before (rest : List Token) :
    (s.before more).before rest = s.before (more ++ rest) := by
  simp [before]

end Situation

/-- Whatever is traced and whatever tokens are behind, a run comes from one situation to another
in at most so many steps. -/
def Leads (bound : Nat) (s s' : Situation) : Prop :=
  ∀ more flags c, Shows c (s.before more) → ∃ c', Shows c' (s'.before more) ∧ ∃ k ≤ bound, ∀ steps,
    (parser flags).runFrom lexer (steps + k) c = (parser flags).runFrom lexer steps c'

/-- Whatever is traced, a run ends within so many steps with this result. -/
def Ends (bound : Nat) (s : Situation) (result : Result Value Error) (session : Session) : Prop :=
  ∀ flags c, Shows c s → ∃ r, (parser flags).runFrom lexer bound c = some r ∧
    r.result = result ∧ r.final.context = session

theorem Leads.refl (s : Situation) : Leads 0 s s :=
  fun _ _ c shown => ⟨c, shown, 0, Nat.le_refl 0, fun _ => rfl⟩

theorem Leads.trans {m n : Nat} {s s' s'' : Situation} (first : Leads m s s')
    (second : Leads n s' s'') : Leads (m + n) s s'' := by
  intro more flags c shown
  obtain ⟨c', shown', k, within, same⟩ := first more flags c shown
  obtain ⟨c'', shown'', k', within', same'⟩ := second more flags c' shown'
  refine ⟨c'', shown'', k' + k, by omega, fun steps => ?_⟩
  rw [← Nat.add_assoc, same, same']

theorem Leads.mono {m n : Nat} {s s' : Situation} (leads : Leads m s s') (le : m ≤ n) :
    Leads n s s' := by
  intro more flags c shown
  obtain ⟨c', shown', k, within, same⟩ := leads more flags c shown
  exact ⟨c', shown', k, Nat.le_trans within le, same⟩

theorem Leads.before {n : Nat} {s s' : Situation} (leads : Leads n s s') (more : List Token) :
    Leads n (s.before more) (s'.before more) := by
  intro rest flags c shown
  rw [Situation.before_before] at shown ⊢
  exact leads (more ++ rest) flags c shown

theorem Ends.mono {m n : Nat} {s : Situation} {result : Result Value Error} {session : Session}
    (ended : Ends m s result session) (le : m ≤ n) : Ends n s result session := by
  intro flags c shown
  obtain ⟨r, ended, agrees⟩ := ended flags c shown
  refine ⟨r, ?_, agrees⟩
  have enough : m + (n - m) = n := by omega
  rw [← enough]
  exact Parser.runFrom_add _ _ ended _

theorem Leads.ends {m n : Nat} {s s' : Situation} {result : Result Value Error} {session : Session}
    (leads : Leads m s s') (ended : Ends n s' result session) : Ends (m + n) s result session := by
  intro flags c shown
  rw [← s.before_nil] at shown
  obtain ⟨c', shown', k, within, same⟩ := leads [] flags c shown
  rw [s'.before_nil] at shown'
  obtain ⟨r, ended, agrees⟩ := ended flags c' shown'
  refine ⟨r, ?_, agrees⟩
  have enough : n + (m - k) + k = m + n := by omega
  rw [← enough, same]
  exact Parser.runFrom_add _ _ ended _

/-- One step that meets no error leads from one situation to another and shifts these tokens. -/
def Hops (shifted : List Token) (s s' : Situation) : Prop :=
  ∀ flags c, Shows c s → ∃ acts c', (parser flags).Goes lexer (.top c) acts (.top c') ∧
    shifts acts = (shifted.map Token.lexeme).reverse ∧ Shows c' s'

theorem Hops.of_goes {shifted : List Token} {s s' : Situation} (hops : Hops shifted s s')
    {flags : Trace.Flags} {c : CalculatorConfig} (shown : Shows c s) {more : List (Act Value)}
    {m : Moment Value Session Scanner} (goes : (parser flags).Goes lexer (.top c) more m) :
    ∃ c', m = .top c' ∧ shifts more = (shifted.map Token.lexeme).reverse ∧ Shows c' s' := by
  obtain ⟨acts, c', goes', same, shown'⟩ := hops flags c shown
  obtain ⟨rfl, rfl⟩ := goes.unique goes'
  exact ⟨c', rfl, same, shown'⟩

/-- It does so whatever tokens are behind. -/
def Moves (shifted : List Token) (s s' : Situation) : Prop :=
  ∀ more, Hops shifted (s.before more) (s'.before more)

theorem Moves.hops {shifted : List Token} {s s' : Situation} (moves : Moves shifted s s') :
    Hops shifted s s' := by
  simpa using moves []

theorem Moves.leads {shifted : List Token} {s s' : Situation} (moves : Moves shifted s s') :
    Leads 1 s s' := by
  intro more flags c shown
  obtain ⟨acts, c', goes, _, shown'⟩ := moves more flags c shown
  rcases goes.step with ⟨d, same, step⟩ | ⟨b, same, _⟩
  · cases same
    exact ⟨c', shown', 1, Nat.le_refl 1, fun _ => Parser.runFrom_next step⟩
  · contradiction

/-- Why a run enters recovery. -/
inductive Cause where
  /-- The state has no action for the token. -/
  | missed (state : Nat) (t : Token)
  | failed (e : LineError)
  /-- A further token of a line that is spoilt already. -/
  | skipped

def Cause.Of (b : CalculatorConfig) : Cause → Prop
  | .missed n t => (∃ value below, b.stack = ⟨n, value⟩ :: below) ∧ b.status.token = some t.name
  | .failed e => b.context.pending = some e
  | .skipped => b.status.errorStatus ≠ 0

/-- No run goes on from here. -/
def Stuck (s : Situation) : Prop :=
  ∀ flags c, Shows c s → ∀ acts m, ¬ (parser flags).Goes lexer (.top c) acts m

/-- One step that goes through recovery leads from one situation to another. It shifts no token. -/
def Errs (cause : Cause) (s s' : Situation) : Prop :=
  ∀ more flags c, Shows c (s.before more) → ∃ acts b acts' c',
    (parser flags).Goes lexer (.top c) acts (.entry b) ∧
    cause.Of b ∧ b.context.lines = s.session.lines ∧
    (parser flags).Goes lexer (.entry b) acts' (.top c') ∧
    shifts acts = [] ∧ shifts acts' = [] ∧ Shows c' (s'.before more)

theorem Errs.of_goes {cause : Cause} {s s' : Situation} (errs : Errs cause s s')
    {flags : Trace.Flags} {c : CalculatorConfig} (shown : Shows c s) {more : List (Act Value)}
    {m : Moment Value Session Scanner} (goes : (parser flags).Goes lexer (.top c) more m) :
    ∃ b acts d, m = .entry b ∧ cause.Of b ∧ b.context.lines = s.session.lines ∧
      (parser flags).Goes lexer (.entry b) acts (.top d) ∧
      shifts more = [] ∧ shifts acts = [] ∧ Shows d s' := by
  rw [← s.before_nil] at shown
  obtain ⟨_, b, acts, d, goes', because, lines, back, same, same', shown'⟩ := errs [] flags c shown
  obtain ⟨rfl, rfl⟩ := goes.unique goes'
  exact ⟨b, acts, d, rfl, because, lines, back, same, same', s'.before_nil ▸ shown'⟩

theorem Errs.leads {cause : Cause} {s s' : Situation} (errs : Errs cause s s') : Leads 1 s s' := by
  intro more flags c shown
  obtain ⟨acts, b, acts', c', goes, _, _, back, _, _, shown'⟩ := errs more flags c shown
  rcases goes.step with ⟨d, same, _⟩ | ⟨b', same, recovers⟩
  · contradiction
  · cases same
    cases back with
    | recovered recovered =>
      have step := ((parser flags).step_of_recovers lexer recovers).trans recovered
      exact ⟨c', shown', 1, Nat.le_refl 1, fun _ => Parser.runFrom_next step⟩

section Lookahead

variable (flags : Trace.Flags) {c : CalculatorConfig} {s : Situation}

inductive Looked (s : Situation) : Step Value Error Session Scanner → Prop where
  | token {t : Token} {ts : List Token} {b : CalculatorConfig} (input : s.input = t :: ts)
      (fits : t.Fits) (shown : Shows b s) (token : b.status.token = some t.name)
      (value : b.status.value = t.value) (left : b.source.tokens = ts) : Looked s (.next b)
  | atEnd {b : CalculatorConfig} (input : s.input = []) (shown : Shows b s)
      (token : b.status.token = some endToken) (value : b.status.value = none)
      (left : b.source.tokens = []) : Looked s (.next b)
  | tooLarge {t : Token} {ts : List Token} {b : CalculatorConfig} (input : s.input = t :: ts)
      (large : ¬ t.Fits) (session : b.context = s.session) :
      Looked s (.stop (.error (.lexer .numberTooLarge)) b)

theorem fetch_looked (shown : Shows c s) (input : c.source.tokens = s.input) :
    Looked s ((parser flags).fetch lexer c) := by
  have delivery := c.source.next_delivers
  have frame := (parser flags).fetch_frame lexer c
  rw [input] at delivery
  unfold Parser.fetch lexer at frame ⊢
  cases next : c.source.next with
  | mk lexeme scanner =>
    rw [next] at delivery frame
    generalize before : s.input = ts at delivery
    cases delivery with
    | atEnd left =>
      refine .atEnd before (shown.of_fetch frame ?_) rfl rfl (by simpa using left)
      rw [before]
      exact .atEnd rfl rfl (by simpa using left)
    | token fits left =>
      refine .token before fits (shown.of_fetch frame ?_) rfl rfl (by simpa using left)
      rw [before]
      exact .pending fits rfl rfl (by simpa using left)
    | tooLarge large => exact .tooLarge before large shown.session

theorem fetchMissing_looked (shown : Shows c s) :
    Looked s ((parser flags).fetchMissing lexer c) := by
  unfold Parser.fetchMissing
  have awaits := shown.input
  generalize input : s.input = ts at awaits
  cases awaits with
  | unread missing left =>
    simp only [missing, Option.isNone_none, if_true]
    exact fetch_looked flags shown (left.trans input.symm)
  | pending fits token value left =>
    simp only [token, Option.isNone_some, Bool.false_eq_true, if_false]
    exact .token input fits shown token value left
  | atEnd token value left =>
    simp only [token, Option.isNone_some, Bool.false_eq_true, if_false]
    exact .atEnd input shown token value left

theorem announced_shows (shown : Shows c s) (number : Nat) :
    Shows ((parser flags).announced c number) s :=
  shown.of_fetch ((parser flags).announced_frame c number) (by simpa using shown.input)

end Lookahead

end ShiftReduce.Calculator
