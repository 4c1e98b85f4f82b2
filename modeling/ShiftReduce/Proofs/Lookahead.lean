import ShiftReduce.Proofs.History

namespace ShiftReduce

variable {V ε γ σ : Type}

def Status.lookahead? (s : Status V) : Option (Lexeme V) := s.token.map (⟨·, s.value⟩)

/-- The lexemes that are not the end of the input. -/
def inner (lexemes : List (Lexeme V)) : List (Lexeme V) := lexemes.filter fun lexeme => !lexeme.isEnd

namespace Request

def setsToken : Request V → Bool
  | .setToken _ => true
  | _ => false

def setsValue : Request V → Bool
  | .setValue _ => true
  | _ => false

end Request

/-- No callback ever asks for something of this kind. -/
structure Driver.Never (d : Driver V ε γ) (kind : Request V → Bool) : Prop where
  action : ∀ rule values view context, d.hasAction rule = true →
    ∀ request ∈ (d.reduce rule values view context).requests, kind request = false
  hook : ∀ view context, ∀ request ∈ (d.onError view context).requests, kind request = false

/-- A part of the status that callbacks change by requests of one kind only. -/
structure Status.ChangedBy {α : Type} (kind : Request V → Bool) (part : Status V → α) : Prop where
  apply : ∀ s request, kind request = false → part (s.apply request) = part s
  dot : ∀ s n, part { s with dot := n } = part s
  control : ∀ s control, part { s with control := control } = part s

theorem Status.token_changedBy : ChangedBy Request.setsToken (Status.token : Status V → _) where
  apply s request other := by cases request <;> first | rfl | contradiction
  dot _ _ := rfl
  control _ _ := rfl

theorem Status.value_changedBy : ChangedBy Request.setsValue (Status.value : Status V → _) where
  apply s request other := by cases request <;> first | rfl | contradiction
  dot _ _ := rfl
  control _ _ := rfl

theorem Status.ChangedBy.applyAll {α : Type} {kind : Request V → Bool} {part : Status V → α}
    (changed : ChangedBy kind part) {requests : List (Request V)}
    (never : ∀ request ∈ requests, kind request = false) (s : Status V) :
    part (s.applyAll requests) = part s := by
  induction requests generalizing s with
  | nil => rfl
  | cons request rest ih =>
    obtain ⟨first, others⟩ := List.forall_mem_cons.mp never
    rw [Status.applyAll_cons, ih others, changed.apply s request first]

theorem Status.atEnd_of_lookahead {s : Status V} {lexeme : Lexeme V}
    (pending : s.lookahead? = some lexeme) : s.atEnd = lexeme.isEnd := by
  obtain ⟨token, known, rfl⟩ := Option.map_eq_some_iff.mp pending
  simp [Status.atEnd, Lexeme.isEnd, known]

/-- From `c` to `b` the lexer may have been called once, for a lookahead that was missing. -/
inductive Lexer.Supply (lexer : Lexer V ε σ) (c b : Config V γ σ) : Prop where
  | idle (token : b.status.token = c.status.token) (value : b.status.value = c.status.value)
      (source : b.source = c.source) (stats : b.stats = c.stats)
  | delivered {lexeme : Lexeme V} (missing : c.status.token = none)
      (answer : (lexer c.status c.source).1 = .ok lexeme)
      (token : b.status.token = some lexeme.token) (value : b.status.value = lexeme.value)
      (source : b.source = (lexer c.status c.source).2)
      (stats : b.stats = { c.stats with tokens := c.stats.tokens + 1 })

theorem Lexer.Supply.refl (lexer : Lexer V ε σ) (c : Config V γ σ) : lexer.Supply c c :=
  .idle rfl rfl rfl rfl

theorem Lexer.Supply.discarded {lexer : Lexer V ε σ} {c b : Config V γ σ}
    (supply : lexer.Supply c b) : b.stats.discarded = c.stats.discarded := by
  cases supply with
  | idle _ _ _ stats | delivered _ _ _ _ _ stats => rw [stats]

namespace Parser

variable (p : Parser V ε γ) (lexer : Lexer V ε σ)

/-- The lookahead that recovery throws away: that of an error that repeats, unless the input is at
its end. -/
def thrown (c : Config V γ σ) : Option (Lexeme V) :=
  if c.status.errorStatus = 3 then
    match p.fetchMissing lexer c with
    | .next b => b.status.lookahead?.filter fun lexeme => !lexeme.isEnd
    | .stop _ _ => none
  else none

inductive Fetched (c : Config V γ σ) : Step V ε γ σ → Prop where
  | pending {lexeme : Lexeme V} (pending : c.status.lookahead? = some lexeme) :
      Fetched c (.next c)
  | delivered {lexeme : Lexeme V} {b : Config V γ σ} (missing : c.status.token = none)
      (answer : (lexer c.status c.source).1 = .ok lexeme)
      (token : b.status.token = some lexeme.token) (value : b.status.value = lexeme.value)
      (source : b.source = (lexer c.status c.source).2)
      (stats : b.stats = { c.stats with tokens := c.stats.tokens + 1 }) : Fetched c (.next b)
  | failed {e : ε} {b : Config V γ σ} (missing : c.status.token = none)
      (answer : (lexer c.status c.source).1 = .error e) : Fetched c (.stop (.error (.lexer e)) b)

theorem fetchMissing_cases (c : Config V γ σ) : Fetched lexer c (p.fetchMissing lexer c) := by
  unfold fetchMissing
  cases known : c.status.token with
  | none =>
    rw [Option.isNone_none, if_pos rfl]
    unfold fetch
    split
    · next answer => exact .failed known (by rw [answer])
    · next answer => exact .delivered known (by rw [answer]) rfl rfl (by simp [answer]) (by simp)
  | some token =>
    have pending : c.status.lookahead? = some ⟨token, c.status.value⟩ := by
      rw [Status.lookahead?, known]
      rfl
    exact .pending pending

/-- Recovery discards the lookahead, which is fetched first if none is pending; otherwise the run
ends for want of one. -/
inductive Consumes (b : Config V γ σ) : Step V ε γ σ → Prop where
  | discarded {step : Step V ε γ σ} {d : Config V γ σ} {lexeme : Lexeme V}
      (supply : lexer.Supply b d) (pending : d.status.lookahead? = some lexeme)
      (inside : lexeme.isEnd = false) (thrown : p.thrown lexer b = some lexeme)
      (token : step.config.status.token = none) (value : step.config.status.value = none)
      (source : step.config.source = d.source) (tokens : step.config.stats.tokens = d.stats.tokens)
      (counted : step.config.stats.discarded = b.stats.discarded + 1) : Consumes b step
  | exhausted {d : Config V γ σ} (counted : d.stats.discarded = b.stats.discarded) :
      Consumes b (.stop (.ok (.fail .endOfInput)) d)
  | failed {e : ε} {d : Config V γ σ} (counted : d.stats.discarded = b.stats.discarded) :
      Consumes b (.stop (.error (.lexer e)) d)

section

variable {p lexer} {c b d : Config V γ σ}

theorem fetchMissing_supply (fetched : p.fetchMissing lexer c = .next b) :
    lexer.Supply c b ∧ ∃ lexeme, b.status.lookahead? = some lexeme := by
  have cases := p.fetchMissing_cases lexer c
  rw [fetched] at cases
  cases cases with
  | pending pending => exact ⟨.refl lexer c, _, pending⟩
  | delivered missing answer token value source stats =>
    exact ⟨.delivered missing answer token value source stats, _,
      by rw [Status.lookahead?, token]; rfl⟩

theorem Performs.supply {action : Option Action} (performs : p.Performs lexer c action b) :
    lexer.Supply c b := by
  obtain ⟨top, rest, state, _, _, looked, _⟩ := performs
  have supply : lexer.Supply (p.announced c top.state) b := by
    unfold lookahead at looked
    split at looked
    · exact (fetchMissing_supply looked).1
    · cases looked
      exact .idle (by simp) (by simp) (by simp) (by simp)
  rcases supply with ⟨token, value, source, stats⟩ | ⟨missing, answer, token, value, source, stats⟩
  · exact .idle (by simpa using token) (by simpa using value) (by simpa using source)
      (by simpa using stats)
  · exact .delivered (by simpa using missing) (by simpa using answer) token value
      (by simpa using source) (by simpa using stats)

theorem Reduces.supply {index : Nat} (reduces : p.Reduces lexer c index b) :
    lexer.Supply c b := by
  rcases reduces with performs | ⟨before, performs, _, rfl⟩
  · exact performs.supply
  · rcases performs.supply with ⟨token, value, source, stats⟩ |
      ⟨missing, answer, token, value, source, stats⟩
    · exact .idle token value source stats
    · exact .delivered missing answer token value source stats

/-- A reduction calls no lexer and counts nothing but itself. -/
theorem reduce_leaves {index : Nat}
    (going : p.reduce index b = .next d ∨ p.reduce index b = .recover d) :
    d.source = b.source ∧ d.stats = { b.stats with reductions := d.stats.reductions } := by
  have moved : (p.reduce index b).config = d := by
    rcases going with reduced | reduced <;> rw [reduced] <;> rfl
  have source := p.reduce_source index b
  have stats := p.reduce_stats index b
  rw [moved] at source stats
  exact ⟨source, stats⟩

section Callbacks

variable {α : Type} {kind : Request V → Bool} {part : Status V → α}

theorem acted_keeps (never : p.driver.Never kind) (changed : Status.ChangedBy kind part)
    (index : Nat) (rule : Rule) (c : Config V γ σ) :
    part (p.acted index rule c).2.status = part c.status := by
  unfold acted evaluate
  split
  · next acts =>
    exact (changed.applyAll (never.action index _ _ _ acts) _).trans (changed.dot ..)
  · exact changed.dot ..

theorem reduce_keeps (never : p.driver.Never kind) (changed : Status.ChangedBy kind part)
    {index : Nat} (going : p.reduce index b = .next d ∨ p.reduce index b = .recover d) :
    part d.status = part b.status := by
  have cases := p.reduce_cases index b
  rcases going with reduced | reduced
  · rw [reduced] at cases
    cases cases with
    | continued =>
      simp only [Config.push_status, closeBracket_status, told_status]
      rw [changed.control, acted_keeps never changed]
  · rw [reduced] at cases
    cases cases with
    | forced => rw [told_status, changed.control, acted_keeps never changed]

theorem report_keeps (never : p.driver.Never kind) (changed : Status.ChangedBy kind part)
    (c : Config V γ σ) : part (p.report c).status = part (c.setErrorStatus 1).status :=
  changed.applyAll (never.hook _ _) _

end Callbacks

theorem entered_token (never : p.driver.Never Request.setsToken) (b : Config V γ σ) :
    (p.entered b).status.token = b.status.token := by
  unfold entered
  split
  · simpa [enterRecovery, Config.setErrorStatus] using report_keeps never Status.token_changedBy b
  · rfl

theorem entered_value (never : p.driver.Never Request.setsValue) (b : Config V γ σ) :
    (p.entered b).status.value = b.status.value := by
  unfold entered
  split
  · simpa [enterRecovery, Config.setErrorStatus] using report_keeps never Status.value_changedBy b
  · rfl

variable (p lexer) in
inductive Discarding (c : Config V γ σ) : Step V ε γ σ → Prop where
  | spared (fresh : c.status.errorStatus ≠ 3) : Discarding c (.next c)
  | failed {e : ε} {d : Config V γ σ} (counted : d.stats.discarded = c.stats.discarded) :
      Discarding c (.stop (.error (.lexer e)) d)
  | exhausted {d : Config V γ σ} (counted : d.stats.discarded = c.stats.discarded) :
      Discarding c (.stop (.ok (.fail .endOfInput)) d)
  | dropped {b d : Config V γ σ} {lexeme : Lexeme V} (supply : lexer.Supply c b)
      (pending : b.status.lookahead? = some lexeme) (inside : lexeme.isEnd = false)
      (thrown : p.thrown lexer c = some lexeme) (status : d.status = b.status.dropToken)
      (source : d.source = b.source) (tokens : d.stats.tokens = b.stats.tokens)
      (counted : d.stats.discarded = c.stats.discarded + 1) : Discarding c (.next d)

variable (p lexer) in
theorem discard_cases (c : Config V γ σ) : p.Discarding lexer c (p.discard lexer c) := by
  unfold discard
  split
  · next repeated =>
    have kept : (p.fetchMissing lexer c).config.stats.discarded = c.stats.discarded := by
      rw [(p.fetchMissing_frame lexer c).stats]
    cases fetched : p.fetchMissing lexer c with
    | stop result b =>
      rw [fetched] at kept
      obtain ⟨e, rfl⟩ := p.fetchMissing_stop lexer fetched
      exact .failed kept
    | next b =>
      rw [fetched] at kept
      have kept : b.stats.discarded = c.stats.discarded := kept
      obtain ⟨supply, lexeme, pending⟩ := fetchMissing_supply fetched
      rw [Step.andThen_next]
      split
      · exact .exhausted (by simpa using kept)
      · next inside =>
        have inside : lexeme.isEnd = false := by
          rw [← Status.atEnd_of_lookahead pending]
          simpa using inside
        have thrown : p.thrown lexer c = some lexeme := by
          simp [thrown, repeated, fetched, pending, inside]
        exact .dropped supply pending inside thrown (by simp) (by simp) (by simp) (by simp [kept])
  · next fresh => exact .spared fresh

theorem thrown_of_fresh (fresh : b.status.errorStatus ≠ 3) : p.thrown lexer b = none := by
  simp [thrown, fresh]

variable (p lexer) in
/-- An error that does not repeat leaves the lookahead pending. -/
theorem recover_spares (fresh : b.status.errorStatus ≠ 3) :
    (p.recover lexer b).config.status.token = (p.entered b).status.token ∧
    (p.recover lexer b).config.status.value = (p.entered b).status.value ∧
    (p.recover lexer b).config.source = b.source ∧
    (p.recover lexer b).config.stats.tokens = b.stats.tokens ∧
    (p.recover lexer b).config.stats.discarded = b.stats.discarded := by
  have discarding := p.discard_cases lexer (p.entered b)
  have spared : p.discard lexer (p.entered b) = .next (p.entered b) := by
    rw [discard, if_neg fun repeated => fresh (p.entered_errorStatus repeated).2]
  have source := p.entered_source b
  have tokens : (p.entered b).stats.tokens = b.stats.tokens := by rw [entered_stats]
  have discarded : (p.entered b).stats.discarded = b.stats.discarded := by rw [entered_stats]
  have cases := p.recover_cases lexer b
  generalize p.recover lexer b = step at cases
  cases cases with
  | resumed known =>
    have entered : p.entered b = p.enterRecovery (p.report b) := if_pos known
    simp [Step.config, entered, enterRecovery, report, Config.absorb, Config.setErrorStatus]
  | stopped _ discard =>
    rw [spared] at discard
    contradiction
  | unwound _ discard unwound =>
    rw [spared] at discard
    cases discard
    subst unwound
    rw [unwind_status, unwind_source, unwind_stats]
    exact ⟨rfl, rfl, source, tokens, discarded⟩

variable (p lexer) in
theorem recover_consumes (repeated : b.status.errorStatus = 3) :
    p.Consumes lexer b (p.recover lexer b) := by
  have entered : p.entered b = b := by simp [entered, repeated]
  have discarding := p.discard_cases lexer b
  have cases := p.recover_cases lexer b
  generalize p.recover lexer b = step at cases
  cases cases with
  | resumed fresh => omega
  | stopped _ discard =>
    rw [entered] at discard
    rw [discard] at discarding
    cases discarding with
    | failed counted => exact .failed counted
    | exhausted counted => exact .exhausted counted
  | unwound _ discard unwound =>
    rw [entered] at discard
    rw [discard] at discarding
    cases discarding with
    | spared fresh => contradiction
    | dropped supply pending inside thrown status source tokens counted =>
      subst unwound
      refine .discarded supply pending inside thrown ?_ ?_ ?_ ?_ ?_
      · rw [unwind_status]
        exact congrArg Status.token status
      · rw [unwind_status]
        exact congrArg Status.value status
      · rw [unwind_source]
        exact source
      · rw [unwind_stats]
        exact tokens
      · rw [unwind_stats]
        exact counted

end

end Parser

end ShiftReduce
