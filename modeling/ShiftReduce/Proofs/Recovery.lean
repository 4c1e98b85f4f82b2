import ShiftReduce.Proofs.Lookahead
import ShiftReduce.Proofs.Reduction

namespace ShiftReduce

variable {V ε γ σ : Type}

theorem Status.applyAll_errorCount (s : Status V) (requests : List (Request V)) :
    (s.applyAll requests).errorCount = s.errorCount := by
  induction requests generalizing s with
  | nil => rfl
  | cons request rest ih =>
    rw [Status.applyAll_cons, ih]
    cases request <;> rfl

namespace Parser

section

variable (p : Parser V ε γ) (lexer : Lexer V ε σ) (c : Config V γ σ)

/-- The status that recovery goes on with. The hook is told of an error that is new, and what it
asks for is done. -/
def hooked : Status V :=
  if c.status.errorStatus = 0 then
    ({ c.status with errorStatus := 1 } : Status V).applyAll (p.hookReply c).requests
  else c.status

/-- The hook has taken the error back. -/
def Cancelled : Prop := c.status.errorStatus = 0 ∧ (p.hooked c).errorStatus = 0

/-- The token that a repeated error finds: the one that is pending, or else the next one. -/
def faced : Option String :=
  c.status.token.or ((lexer c.status c.source).1.toOption.map Lexeme.token)

/-- A repeated error finds the input at its end. -/
def OutOfInput : Prop := c.status.errorStatus = 3 ∧ faced lexer c = some endToken

def errorCountAfter : Nat := c.status.errorCount + if c.status.errorStatus = 0 then 1 else 0

/-- The status behind a recovery: a repeated error has cost the lookahead. -/
def statusAfter : Status V :=
  { (if c.status.errorStatus = 3 then c.status.dropToken else p.hooked c) with
    errorStatus := 3
    errorCount := errorCountAfter c }

/-- The counters behind a recovery that has popped so many entries. -/
def statsAfter (popped : Nat) : Stats :=
  { c.stats with
    tokens := c.stats.tokens + if c.status.errorStatus = 3 ∧ c.status.token = none then 1 else 0
    errors := c.stats.errors + if c.status.errorStatus = 0 then 1 else 0
    discarded := c.stats.discarded + if c.status.errorStatus = 3 then 1 else 0
    popped := c.stats.popped + popped }

/-- The state of the last entry shifts the error token. -/
def ShiftsError (entries : List (Entry V)) (target : Nat) : Prop :=
  ∃ top state, entries.getLast? = some top ∧ p.tables.states[top.state]? = some state ∧
    state.errorShift? = some target

/-- Of the parts of the stack that begin at the bottom, `kept` is the longest that ends in a state
which shifts the error token. -/
structure Longest (entries kept : List (Entry V)) (target : Nat) : Prop where
  part : kept <+: entries
  shifts : p.ShiftsError kept target
  longest : ∀ other target', other <+: entries → p.ShiftsError other target' →
    other.length ≤ kept.length

/-- What an error comes to that the hook has not taken back. -/
inductive Recovered : Step V ε γ σ → Prop where
  | outOfInput {b : Config V γ σ} (out : OutOfInput lexer c) (stack : b.stack = c.stack)
      (count : b.status.errorCount = c.status.errorCount)
      (stats : b.stats = { statsAfter c 0 with discarded := c.stats.discarded }) :
      Recovered (.stop (.ok (.fail .endOfInput)) b)
  | exhausted {b : Config V γ σ} (going : ¬ OutOfInput lexer c) (lacking : ∀ e ∈ c.stack, p.Lacks e)
      (status : b.status = p.statusAfter c) (stats : b.stats = statsAfter c c.stack.length) :
      Recovered (.stop (.ok (.fail .stackExhausted)) b)
  | resumed {b : Config V γ σ} {kept : List (Entry V)} {target : Nat}
      (going : ¬ OutOfInput lexer c) (longest : p.Longest c.fromBottom kept target)
      (stack : b.fromBottom = kept ++ [⟨target, none⟩]) (status : b.status = p.statusAfter c)
      (stats : b.stats = statsAfter c (c.stack.length - kept.length)) : Recovered (.next b)
  /-- No state of a run of valid tables is unknown. -/
  | unknownState {b : Config V γ σ} {e : Entry V} (going : ¬ OutOfInput lexer c)
      (member : e ∈ c.stack) (missing : p.tables.states[e.state]? = none)
      (status : b.status = p.statusAfter c) :
      Recovered (.stop (.error (.defect (.unknownState e.state))) b)

end

variable {p : Parser V ε γ} {lexer : Lexer V ε σ} {c : Config V γ σ}

/-- The part of a stack below the entries that lack the error shift is the longest that has one. -/
theorem Longest.of_split {above rest : List (Entry V)} {top : Entry V} {state : State} {target : Nat}
    (split : c.stack = above ++ top :: rest) (lacking : ∀ e ∈ above, p.Lacks e)
    (found : p.tables.states[top.state]? = some state) (shifts : state.errorShift? = some target) :
    p.Longest c.fromBottom (top :: rest).reverse target where
  part := by
    rw [Config.fromBottom, split, List.reverse_append]
    exact List.prefix_append _ _
  shifts := ⟨top, state, by simp, found, shifts⟩
  longest := by
    rintro other target' ⟨more, joined⟩ ⟨last, state', ended, found', shifts'⟩
    rw [Config.fromBottom, split, List.reverse_append] at joined
    rcases List.append_eq_append_iff.mp joined with ⟨inside, shorter, _⟩ | ⟨beyond, longer, behind⟩
    · rw [shorter, List.length_append]
      exact Nat.le_add_right _ _
    · -- a part that reaches further up ends in an entry that lacks the shift
      rcases List.eq_nil_or_concat beyond with rfl | ⟨front, e, rfl⟩
      · simp [longer]
      rw [longer, List.concat_eq_append, ← List.append_assoc, List.getLast?_concat] at ended
      obtain rfl := Option.some.inj ended
      have member : e ∈ above.reverse := by simp [behind]
      obtain ⟨state'', found'', shiftless⟩ := lacking e (List.mem_reverse.mp member)
      obtain rfl := Option.some.inj (found'.symm.trans found'')
      exact absurd (shifts'.symm.trans shiftless) (by simp)

theorem fetch_delivers {lexeme : Lexeme V} (answer : (lexer c.status c.source).1 = .ok lexeme) :
    ∃ b, p.fetch lexer c = .next b ∧ b.stack = c.stack ∧
      b.status = { c.status with token := some lexeme.token, value := lexeme.value } ∧
      b.stats = { c.stats with tokens := c.stats.tokens + 1 } := by
  have pair : lexer c.status c.source = (.ok lexeme, (lexer c.status c.source).2) :=
    Prod.ext answer rfl
  unfold fetch
  rw [pair]
  exact ⟨_, rfl, by simp, by simp, by simp⟩

/-- The lexer does not fail where recovery calls it. -/
def Supplied (lexer : Lexer V ε σ) (c : Config V γ σ) : Prop :=
  c.status.errorStatus = 3 → c.status.token = none →
    ∃ lexeme, (lexer c.status c.source).1 = .ok lexeme

/-- A repeated error finds a token. -/
theorem Supplied.finds (supplied : Supplied lexer c) (repeated : c.status.errorStatus = 3) :
    ∃ b token value, p.fetchMissing lexer c = .next b ∧ faced lexer c = some token ∧
      b.stack = c.stack ∧ b.status = { c.status with token := some token, value } ∧
      b.stats =
        { c.stats with tokens := c.stats.tokens + if c.status.token = none then 1 else 0 } := by
  unfold fetchMissing faced
  cases pending : c.status.token with
  | some token => exact ⟨c, token, c.status.value, by simp, by simp, rfl, by rw [← pending], by simp⟩
  | none =>
    obtain ⟨lexeme, answer⟩ := supplied repeated pending
    obtain ⟨b, fetched, stack, status, stats⟩ := fetch_delivers (p := p) answer
    exact ⟨b, lexeme.token, lexeme.value, by simpa using fetched, by simp [answer, Except.toOption],
      stack, status, by simpa using stats⟩

theorem report_status (fresh : c.status.errorStatus = 0) : (p.report c).status = p.hooked c := by
  rw [hooked, if_pos fresh]
  rfl

theorem hooked_errorCount : (p.hooked c).errorCount = c.status.errorCount := by
  unfold hooked
  split
  · exact Status.applyAll_errorCount _ _
  · rfl

theorem entered_status :
    (p.entered c).status = { p.hooked c with errorCount := errorCountAfter c } := by
  unfold entered errorCountAfter
  split
  · next fresh =>
    have count : (p.report c).status.errorCount = c.status.errorCount := by
      rw [report_status fresh, hooked_errorCount]
    simp [enterRecovery, count, ← report_status fresh]
  · next known => rw [hooked, if_neg known, Nat.add_zero]

/-- A repeated error costs the lookahead, or ends the run for want of one. -/
theorem Supplied.discards (supplied : Supplied lexer c) (repeated : c.status.errorStatus = 3) :
    (OutOfInput lexer c → ∃ b, p.discard lexer c = .stop (.ok (.fail .endOfInput)) b ∧
      b.stack = c.stack ∧ b.status.errorCount = c.status.errorCount ∧
      b.stats = { statsAfter c 0 with discarded := c.stats.discarded }) ∧
    (¬ OutOfInput lexer c → ∃ b, p.discard lexer c = .next b ∧ b.stack = c.stack ∧
      b.status = c.status.dropToken ∧ b.stats = statsAfter c 0) := by
  obtain ⟨b, token, value, fetched, faced, stack, status, stats⟩ :=
    Supplied.finds (p := p) supplied repeated
  have atEnd : b.status.atEnd = true ↔ OutOfInput lexer c := by
    simp [Status.atEnd, status, OutOfInput, repeated, faced]
  unfold discard
  rw [if_pos repeated, fetched, Step.andThen_next]
  constructor
  · intro out
    rw [if_pos (atEnd.mpr out)]
    exact ⟨_, rfl, by simpa using stack, by simp [status], by simp [stats, statsAfter, repeated]⟩
  · intro going
    rw [if_neg (mt atEnd.mp going)]
    exact ⟨_, rfl, by simpa using stack, by simp [status, Status.dropToken],
      by simp [stats, statsAfter, repeated]⟩

/-- What becomes of the lookahead before the first entry is popped. -/
theorem Supplied.reaches_pops (supplied : Supplied lexer c) :
    (OutOfInput lexer c → ∃ b, p.discard lexer (p.entered c) = .stop (.ok (.fail .endOfInput)) b ∧
      b.stack = c.stack ∧ b.status.errorCount = c.status.errorCount ∧
      b.stats = { statsAfter c 0 with discarded := c.stats.discarded }) ∧
    (¬ OutOfInput lexer c → ∃ b, p.discard lexer (p.entered c) = .next b ∧ b.stack = c.stack ∧
      (b.setErrorStatus 3).status = p.statusAfter c ∧ b.stats = statsAfter c 0) := by
  by_cases repeated : c.status.errorStatus = 3
  · have same : p.entered c = c := by simp [entered, repeated]
    obtain ⟨out, going⟩ := Supplied.discards (p := p) supplied repeated
    rw [same]
    refine ⟨out, fun more => ?_⟩
    obtain ⟨b, discarded, stack, status, stats⟩ := going more
    refine ⟨b, discarded, stack, ?_, stats⟩
    simp [Config.setErrorStatus, status, statusAfter, repeated, errorCountAfter, Status.dropToken]
  · refine ⟨fun out => absurd out.1 repeated, fun _ => ⟨p.entered c, ?_, by simp, ?_, ?_⟩⟩
    · rw [discard, if_neg fun later => repeated (p.entered_errorStatus later).2]
    · simp [Config.setErrorStatus, entered_status, statusAfter, repeated]
    · rw [entered_stats, entered_errors]
      simp [statsAfter, repeated]

/-- An error that the hook has not taken back ends in one of these ways. -/
theorem Supplied.recovered (supplied : Supplied lexer c) (uncancelled : ¬ p.Cancelled c) :
    p.Recovered lexer c (p.recover lexer c) := by
  obtain ⟨out, going⟩ := Supplied.reaches_pops (p := p) supplied
  have cases := p.recover_cases lexer c
  generalize p.recover lexer c = step at cases
  cases cases with
  | resumed fresh cleared => exact absurd ⟨fresh, report_status fresh ▸ cleared⟩ uncancelled
  | stopped _ discarded =>
    by_cases ends : OutOfInput lexer c
    · obtain ⟨b, same, stack, count, stats⟩ := out ends
      cases discarded.symm.trans same
      exact .outOfInput ends stack count stats
    · obtain ⟨b, same, _⟩ := going ends
      cases discarded.symm.trans same
  | @unwound b _ _ discarded unwound =>
    by_cases ends : OutOfInput lexer c
    · obtain ⟨b, same, _⟩ := out ends
      cases discarded.symm.trans same
    obtain ⟨b', same, stack, status, stats⟩ := going ends
    cases discarded.symm.trans same
    have unwinding := p.unwind_cases (b.setErrorStatus 3) b.stack
    have before : (b.setErrorStatus 3).stats = statsAfter c 0 := stats
    rw [unwound, stack] at unwinding
    cases unwinding with
    | @shifted above rest top _ _ _ split lacking found shifts stack_eq kept counted =>
      have height : c.stack.length - (top :: rest).reverse.length = above.length := by
        rw [split, List.length_append, List.length_reverse, Nat.add_sub_cancel]
      refine .resumed ends (.of_split split lacking found shifts) ?_ (kept.trans status) ?_
      · simp [Config.fromBottom, stack_eq]
      · rw [counted, before, height]
        rfl
    | exhausted lacking _ kept counted =>
      refine .exhausted ends lacking (kept.trans status) ?_
      rw [counted, before]
      rfl
    | unknownState member missing kept =>
      exact .unknownState ends member missing (kept.trans status)

theorem Cancelled.resumes (cancelled : p.Cancelled c) : p.recover lexer c = .next (p.report c) := by
  have cleared : (p.report c).status.errorStatus = 0 := report_status cancelled.1 ▸ cancelled.2
  simp [recover, cancelled.1, cleared]

theorem Recovered.outOfInput_iff {step : Step V ε γ σ} (recovered : p.Recovered lexer c step) :
    (∃ b, step = .stop (.ok (.fail .endOfInput)) b) ↔ OutOfInput lexer c := by
  constructor
  · rintro ⟨b, rfl⟩
    cases recovered with
    | outOfInput out => exact out
  · intro out
    cases recovered with
    | outOfInput => exact ⟨_, rfl⟩
    | exhausted going | resumed going | unknownState going => exact absurd out going

theorem Longest.lacking {kept : List (Entry V)} {target : Nat}
    (longest : p.Longest c.fromBottom kept target) : ¬ ∀ e ∈ c.stack, p.Lacks e := by
  intro lacking
  obtain ⟨top, state, ended, found, shifts⟩ := longest.shifts
  have member : top ∈ c.stack :=
    List.mem_reverse.mp (longest.part.subset (List.mem_of_getLast? ended))
  obtain ⟨state', found', shiftless⟩ := lacking top member
  obtain rfl := Option.some.inj (found.symm.trans found')
  exact absurd (shifts.symm.trans shiftless) (by simp)

theorem Recovered.exhausted_iff {step : Step V ε γ σ} (recovered : p.Recovered lexer c step) :
    (∃ b, step = .stop (.ok (.fail .stackExhausted)) b) ↔
      ¬ OutOfInput lexer c ∧ ∀ e ∈ c.stack, p.Lacks e := by
  constructor
  · rintro ⟨b, rfl⟩
    cases recovered with
    | exhausted going lacking => exact ⟨going, lacking⟩
  · rintro ⟨going, lacking⟩
    cases recovered with
    | outOfInput out => exact absurd out going
    | exhausted => exact ⟨_, rfl⟩
    | resumed _ longest => exact absurd lacking longest.lacking
    | unknownState _ member missing =>
      obtain ⟨state, found, _⟩ := lacking _ member
      exact absurd (missing.symm.trans found) (by simp)

theorem Recovered.errorCount {step : Step V ε γ σ} (recovered : p.Recovered lexer c step) :
    step.config.status.errorCount = errorCountAfter c := by
  cases recovered with
  | outOfInput out _ count =>
    have known : c.status.errorStatus ≠ 0 := by simp [out.1]
    exact count.trans (by simp [errorCountAfter, known])
  | exhausted _ _ status | resumed _ _ _ status | unknownState _ _ _ status =>
    simp [Step.config, status, statusAfter]

/-- One recovery, from end to end. If the hook takes the error back, nothing else is done, and the
run goes on with what the hook left. Otherwise a new error is counted, a repeated one costs the
lookahead, and the stack is cut down to its longest part that ends in a state which shifts the error
token. There are two ways to fail: the input is at its end where a token must be discarded, or no
state of the stack shifts the error token. -/
theorem recovery_exact (p : Parser V ε γ) (lexer : Lexer V ε σ) (c : Config V γ σ)
    (supplied : c.status.errorStatus = 3 → c.status.token = none →
      ∃ lexeme, (lexer c.status c.source).1 = .ok lexeme) :
    (p.Cancelled c → ∃ b, p.recover lexer c = .next b ∧ b.stack = c.stack ∧ b.stats = c.stats ∧
      b.source = c.source ∧ b.status = p.hooked c ∧ b.status.errorCount = c.status.errorCount) ∧
    (¬ p.Cancelled c → p.Recovered lexer c (p.recover lexer c) ∧
      (p.recover lexer c).config.status.errorCount =
        c.status.errorCount + (if c.status.errorStatus = 0 then 1 else 0) ∧
      (p.recover lexer c).config.stats.errors =
        c.stats.errors + if c.status.errorStatus = 0 then 1 else 0) ∧
    ((∃ b, p.recover lexer c = .stop (.ok (.fail .endOfInput)) b) ↔ OutOfInput lexer c) ∧
    ((∃ b, p.recover lexer c = .stop (.ok (.fail .stackExhausted)) b) ↔
      ¬ p.Cancelled c ∧ ¬ OutOfInput lexer c ∧ ∀ e ∈ c.stack, p.Lacks e) := by
  by_cases cancelled : p.Cancelled c
  · have resumed : p.recover lexer c = .next (p.report c) := cancelled.resumes
    have going : ¬ OutOfInput lexer c := fun out => absurd (cancelled.1.symm.trans out.1) (by simp)
    have status : (p.report c).status = p.hooked c := report_status cancelled.1
    refine ⟨fun _ => ⟨_, resumed, rfl, rfl, rfl, status, ?_⟩, fun un => absurd cancelled un, ?_, ?_⟩
    · rw [status, hooked_errorCount]
    · simp [resumed, going]
    · simp [resumed, cancelled]
  · have recovered := Supplied.recovered (p := p) supplied cancelled
    refine ⟨fun taken => absurd taken cancelled, fun _ => ⟨recovered, recovered.errorCount, ?_⟩,
      recovered.outOfInput_iff, ?_⟩
    · have reported : c.status.errorStatus = 0 → (p.report c).status.errorStatus ≠ 0 :=
        fun fresh cleared => cancelled ⟨fresh, report_status fresh ▸ cleared⟩
      rw [recover_errors]
      congr 1
      by_cases fresh : c.status.errorStatus = 0
      · rw [if_pos ⟨fresh, reported fresh⟩, if_pos fresh]
      · rw [if_neg fun both => fresh both.1, if_neg fresh]
    · rw [recovered.exhausted_iff]
      simp [cancelled]

/-- Tables whose state 0 shifts the error token, and whose state 2 does not. -/
def mendingTables : Tables where
  rules := #[⟨"$start", 2, none⟩]
  states := #[{ actions := some ⟨[(errorToken, .shift 1)]⟩ }, {}, { actions := some ⟨[]⟩ }]

def mending : Parser Nat Unit Unit := ⟨mendingTables, Driver.plain, .none⟩

/-- An error that repeats, with its lookahead not yet fetched. -/
def repeating : Config Nat Unit (LexemeQueue Nat) where
  stack := [⟨2, some 5⟩, ⟨0, some 4⟩, ⟨0, none⟩]
  status := { errorStatus := 3, errorCount := 1 }
  context := ()
  source := ⟨[⟨"b", some 7⟩], 0⟩

/-- The next token is discarded and the entry on top popped; the two below keep their values. -/
theorem repeating_mended :
    (LexemeQueue.lexer (ε := Unit) repeating.status repeating.source).1 = .ok ⟨"b", some 7⟩ ∧
    mending.Recovered LexemeQueue.lexer repeating (mending.recover LexemeQueue.lexer repeating) ∧
    (mending.recover LexemeQueue.lexer repeating).config.status.errorCount = 1 ∧
    ∃ b, mending.recover LexemeQueue.lexer repeating = .next b ∧
      b.fromBottom = [⟨0, none⟩, ⟨0, some 4⟩, ⟨1, none⟩] ∧
      b.status = { errorStatus := 3, errorCount := 1 } ∧
      b.stats = { tokens := 1, discarded := 1, popped := 1 } := by
  have answer : (LexemeQueue.lexer (ε := Unit) repeating.status repeating.source).1 =
      .ok ⟨"b", some 7⟩ := rfl
  obtain ⟨_, recovered, _⟩ :=
    recovery_exact mending LexemeQueue.lexer repeating fun _ _ => ⟨_, answer⟩
  obtain ⟨ends, count, _⟩ := recovered fun cancelled => absurd cancelled.1 (by decide)
  exact ⟨answer, ends, count, _, rfl, rfl, rfl, rfl⟩

end Parser

end ShiftReduce
