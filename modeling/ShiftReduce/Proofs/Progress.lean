import ShiftReduce.Proofs.Lookahead
import ShiftReduce.Proofs.Trail

/-! An error that repeats before anything is shifted costs a token: recovery discards one, or the
run ends for want of one. So recovery is entered only about as often as tokens are shifted and
discarded, however its actions force errors. -/

namespace ShiftReduce

variable {V ε γ σ : Type}

theorem Status.errorStatus_changedBy :
    ChangedBy Request.isErrok (Status.errorStatus : Status V → _) where
  apply s request other := by cases request <;> first | rfl | contradiction
  dot _ _ := rfl
  control _ _ := rfl

namespace Lexer

variable (lexer : Lexer V ε σ)

/-- What the lexer delivers, shown these statuses one after the other, until it fails. -/
def deliver : List (Status V) → σ → List (Lexeme V)
  | [], _ => []
  | status :: rest, source =>
    match (lexer status source).1 with
    | .ok lexeme => lexeme :: deliver rest (lexer status source).2
    | .error _ => []

/-- Whatever it is shown, the lexer delivers at most `n` more lexemes that are not the end. -/
def Bounded (n : Nat) (source : σ) : Prop :=
  ∀ statuses, (inner (lexer.deliver statuses source)).length ≤ n

variable {lexer} {n : Nat} {source : σ}

theorem Bounded.delivered (bounded : lexer.Bounded n source) {status : Status V}
    {lexeme : Lexeme V} (answer : (lexer status source).1 = .ok lexeme) :
    ∃ rest, lexer.Bounded rest (lexer status source).2 ∧ rest + (inner [lexeme]).length ≤ n := by
  have more (statuses : List (Status V)) : (inner [lexeme]).length +
      (inner (lexer.deliver statuses (lexer status source).2)).length ≤ n := by
    have all := bounded (status :: statuses)
    simp only [deliver, answer] at all
    rwa [← List.singleton_append, inner, List.filter_append, List.length_append] at all
  refine ⟨n - (inner [lexeme]).length, fun statuses => ?_, ?_⟩
  · have := more statuses
    omega
  · have := more []
    omega

end Lexer

/-- A queue delivers what is in it, and then nothing but the end. -/
theorem LexemeQueue.bounded (queue : LexemeQueue V) :
    Lexer.Bounded (LexemeQueue.lexer : Lexer V ε _) (inner queue.pending).length queue := by
  intro statuses
  induction statuses generalizing queue with
  | nil => exact Nat.zero_le _
  | cons status rest ih =>
    obtain ⟨pending, taken⟩ := queue
    cases pending with
    | nil => exact ih ⟨[], taken⟩
    | cons lexeme pending =>
      have fewer := ih ⟨pending, taken + 1⟩
      simp only [Lexer.deliver, LexemeQueue.lexer, LexemeQueue.next]
      simp only [inner, List.filter_cons] at fewer ⊢
      split
      · exact Nat.succ_le_succ fewer
      · exact fewer

namespace Status

/-- 1 if a lookahead is pending that is not the end of the input, and 0 otherwise. -/
def pending (s : Status V) : Nat :=
  match s.token with
  | none => 0
  | some token => if token = endToken then 0 else 1

theorem pending_of_token {s t : Status V} (same : s.token = t.token) : s.pending = t.pending := by
  unfold pending
  rw [same]

theorem pending_of_missing {s : Status V} (missing : s.token = none) : s.pending = 0 := by
  simp [pending, missing]

theorem pending_of_known {s : Status V} {lexeme : Lexeme V}
    (known : s.token = some lexeme.token) : s.pending = (inner [lexeme]).length := by
  by_cases atEnd : lexeme.token = endToken <;>
    simp [pending, inner, Lexeme.isEnd, known, atEnd]

end Status

/-- At most `u` lexemes are left to be consumed before the end, the pending one included. -/
def Unconsumed (lexer : Lexer V ε σ) (u : Nat) (c : Config V γ σ) : Prop :=
  ∃ n, lexer.Bounded n c.source ∧ n + c.status.pending ≤ u

namespace Unconsumed

variable {lexer : Lexer V ε σ} {u : Nat} {c b d : Config V γ σ}

theorem of_same (left : Unconsumed lexer u b) (token : d.status.token = b.status.token)
    (source : d.source = b.source) : Unconsumed lexer u d := by
  obtain ⟨n, bounded, within⟩ := left
  exact ⟨n, source ▸ bounded, Status.pending_of_token token ▸ within⟩

theorem supplied (left : Unconsumed lexer u c) (supply : lexer.Supply c b) :
    Unconsumed lexer u b := by
  cases supply with
  | idle token _ source => exact left.of_same token source
  | delivered missing answer token _ source =>
    obtain ⟨n, bounded, within⟩ := left
    obtain ⟨rest, bounded, fewer⟩ := bounded.delivered answer
    refine ⟨rest, source ▸ bounded, ?_⟩
    rw [Status.pending_of_known token]
    omega

/-- Once the pending lexeme is gone, one less is left. -/
theorem dropped (left : Unconsumed lexer u b) {lexeme : Lexeme V}
    (pending : b.status.lookahead? = some lexeme) (inside : lexeme.isEnd = false)
    (token : d.status.token = none) (source : d.source = b.source) :
    ∃ fewer, Unconsumed lexer fewer d ∧ fewer + 1 ≤ u := by
  obtain ⟨n, bounded, within⟩ := left
  obtain ⟨name, known, rfl⟩ := Option.map_eq_some_iff.mp pending
  refine ⟨n, ⟨n, source ▸ bounded, by simp [Status.pending_of_missing token]⟩, ?_⟩
  have counted : b.status.pending = (inner [(⟨name, b.status.value⟩ : Lexeme V)]).length :=
    Status.pending_of_known known
  simp [inner, inside] at counted
  omega

end Unconsumed

namespace Parser

variable {p : Parser V ε γ} {lexer : Lexer V ε σ} {start b c d : Config V γ σ}
  {m m' : Moment V γ σ} {acts : List (Act V)} {legs : List (Leg V γ σ)}

section Turns

/-- What there is to the way from one moment to the next, as far as recovery is concerned. -/
inductive Turn (p : Parser V ε γ) (lexer : Lexer V ε σ) :
    Moment V γ σ → List (Act V) → Moment V γ σ → Prop where
  | shift {c b : Config V γ σ} {target : Nat}
      (performs : p.Performs lexer c (some (.shift target)) b) :
      Turn p lexer (.top c) [.shift b.status.token b.status.value] (.top (p.shift target b))
  | still {c b : Config V γ σ} {acts : List (Act V)} {m : Moment V γ σ}
      (silent : acts.any Act.isShift = false) (supply : lexer.Supply c b)
      (token : m.config.status.token = b.status.token) (source : m.config.source = b.source)
      (errorStatus : m.config.status.errorStatus = c.status.errorStatus)
      (shifts : m.config.stats.shifts = c.stats.shifts)
      (discarded : m.config.stats.discarded = c.stats.discarded) : Turn p lexer (.top c) acts m
  | recovery {b d : Config V γ σ} (recovered : p.recover lexer b = .next d) :
      Turn p lexer (.entry b) (p.recovering b) (.top d)

variable (quiet : p.driver.Never Request.isErrok) (steady : p.driver.Never Request.setsToken)
include quiet steady

theorem Turn.of_reduced {index : Nat} {rule : Rule} (reduces : p.Reduces lexer c index b)
    (going : p.reduce index b = .next d ∨ p.reduce index b = .recover d)
    (same : m.config = d) : p.Turn lexer (.top c) (p.called index rule b) m := by
  subst same
  obtain ⟨source, stats⟩ := reduce_leaves going
  refine .still (called_silent index rule b) reduces.supply
    (reduce_keeps steady Status.token_changedBy going) source ?_ ?_ ?_
  · rw [reduce_keeps quiet Status.errorStatus_changedBy going, reduces.errorStatus]
  · rw [stats, reduces.stats]
  · rw [stats, reduces.stats]

theorem Goes.turn (goes : p.Goes lexer m acts m') : p.Turn lexer m acts m' := by
  cases goes with
  | shifted performs => exact .shift performs
  | reduced reduces _ reduced => exact .of_reduced quiet steady reduces (.inl reduced) rfl
  | forced reduces _ forced => exact .of_reduced quiet steady reduces (.inr forced) rfl
  | @missed c b performs =>
    have stats : b.stats = _ := performs.frame.stats
    refine .still rfl performs.supply rfl rfl performs.frame.errorStatus ?_ ?_
    · rw [Moment.config, stats]
    · rw [Moment.config, stats]
  | recovered recovered => exact .recovery recovered

end Turns

/-- As long as nothing clears it, recovery leaves an error status of three. -/
theorem recover_leaves_three (quiet : p.driver.Never Request.isErrok)
    (recovered : p.recover lexer b = .next d) : d.status.errorStatus = 3 := by
  have cases := p.recover_cases lexer b
  rw [recovered] at cases
  cases cases with
  | resumed _ cleared =>
    have kept := report_keeps quiet Status.errorStatus_changedBy b
    rw [cleared] at kept
    contradiction
  | @unwound b' _ _ _ unwound =>
    have status := p.unwind_status (ε := ε) (b'.setErrorStatus 3) b'.stack
    rw [unwound] at status
    exact congrArg Status.errorStatus status

/-- What is due at the next entry into recovery: a lexeme to discard, if the error repeats. -/
def due (c : Config V γ σ) : Nat := if c.status.errorStatus = 3 then 1 else 0

theorem due_of_repeated (repeated : c.status.errorStatus = 3) : due c = 1 := if_pos repeated

theorem due_le (c : Config V γ σ) : due c ≤ 1 := by
  unfold due
  split <;> omega

theorem recover_discarded (recovered : p.recover lexer b = .next d) :
    d.stats.discarded = b.stats.discarded + due b := by
  unfold due
  split
  · next repeated =>
    have consumes := p.recover_consumes lexer repeated
    rw [recovered] at consumes
    cases consumes with
    | discarded _ _ _ _ _ _ _ _ counted => exact counted
  · next fresh =>
    have spared := (p.recover_spares lexer fresh).2.2.2.2
    rw [recovered] at spared
    exact spared

section Steady

variable (quiet : p.driver.Never Request.isErrok) (steady : p.driver.Never Request.setsToken)
include quiet steady

/-- Every entry into recovery is paid for by a shift or by a discarded lexeme, or it is the one
that the next will pay for. -/
theorem Goes.pays (goes : p.Goes lexer m acts m') :
    (if m.isEntry then 1 else 0) + m.config.stats.shifts + m.config.stats.discarded +
        due m.config ≤
      m'.config.stats.shifts + m'.config.stats.discarded + due m'.config := by
  cases goes.turn quiet steady with
  | @shift c b target performs =>
    have shifts : b.stats.shifts = c.stats.shifts := by rw [performs.frame.stats]
    have discarded : b.stats.discarded = c.stats.discarded := by rw [performs.frame.stats]
    have bound := due_le c
    simp only [Moment.isEntry_top, Bool.false_eq_true, if_false, Moment.config_top, shift_stats,
      shifts, discarded]
    omega
  | @still c _ _ m' _ _ _ _ errorStatus shifts discarded =>
    have same : due m'.config = due c := by rw [due, errorStatus, due]
    simp only [Moment.isEntry_top, Bool.false_eq_true, if_false, Moment.config_top, shifts,
      discarded, same]
    omega
  | @recovery b d recovered =>
    have shifts := p.recover_shifts lexer b
    rw [recovered] at shifts
    have shifts : d.stats.shifts = b.stats.shifts := shifts
    have after := due_of_repeated (recover_leaves_three quiet recovered)
    simp only [Moment.isEntry_entry, if_true, Moment.config_entry, Moment.config_top, shifts,
      recover_discarded recovered, after]
    omega

theorem Trail.pays {source : σ} {context : γ}
    (trail : p.Trail lexer (.top (.start source context)) legs m) :
    legs.countP Leg.isEntry ≤
      m.config.stats.shifts + m.config.stats.discarded + due m.config := by
  induction trail with
  | here => exact Nat.zero_le _
  | @next legs m m' acts _ goes ih =>
    have paid := goes.pays quiet steady
    rw [List.countP_cons]
    change _ + (if m.isEntry then 1 else 0) ≤ _
    omega

/-- Where nothing is shifted, an entry into recovery is paid for from what the lexer has left. -/
theorem Goes.uses_up (goes : p.Goes lexer m acts m') (silent : acts.any Act.isShift = false)
    {u : Nat} (left : Unconsumed lexer u m.config) :
    ∃ rest, Unconsumed lexer rest m'.config ∧
      rest + (if m.isEntry then 1 else 0) + due m.config ≤ u + due m'.config := by
  cases goes.turn quiet steady with
  | shift => contradiction
  | @still c _ _ m' _ supply token source errorStatus =>
    have same : due m'.config = due c := by rw [due, errorStatus, due]
    refine ⟨u, (left.supplied supply).of_same token source, ?_⟩
    simp [same]
  | @recovery b d recovered =>
    have after := due_of_repeated (recover_leaves_three quiet recovered)
    simp only [Moment.isEntry_entry, if_true, Moment.config_entry, Moment.config_top, after]
    by_cases repeated : b.status.errorStatus = 3
    · have consumes := p.recover_consumes lexer repeated
      rw [recovered] at consumes
      cases consumes with
      | discarded supply pending inside _ token _ source =>
        obtain ⟨rest, left, fewer⟩ := (left.supplied supply).dropped pending inside token source
        exact ⟨rest, left, by rw [due_of_repeated repeated]; omega⟩
    · obtain ⟨token, _, source, _⟩ := p.recover_spares lexer repeated
      rw [recovered] at token source
      exact ⟨u, left.of_same (token.trans (entered_token steady b)) source,
        by simp [due, repeated]⟩

theorem Trail.uses_up {origin : Moment V γ σ} (trail : p.Trail lexer origin legs m)
    (silent : ∀ leg ∈ legs, leg.isShift = false) {u : Nat}
    (left : Unconsumed lexer u origin.config) :
    ∃ rest, Unconsumed lexer rest m.config ∧
      rest + legs.countP Leg.isEntry + due origin.config ≤ u + due m.config := by
  induction trail with
  | here => exact ⟨u, left, by simp⟩
  | @next legs m m' acts _ goes ih =>
    obtain ⟨last, others⟩ := List.forall_mem_cons.mp silent
    obtain ⟨rest, left, fewer⟩ := ih others
    obtain ⟨rest', left, fewer'⟩ := goes.uses_up quiet steady last left
    refine ⟨rest', left, ?_⟩
    rw [List.countP_cons]
    change _ + (_ + if m.isEntry then 1 else 0) + _ ≤ _
    omega

/-- Behind an entry into recovery the error status stays at three until something is shifted. -/
theorem Trail.repeats (trail : p.Trail lexer (.entry b) legs m) (later : legs ≠ [])
    (silent : ∀ leg ∈ legs, leg.isShift = false) : m.config.status.errorStatus = 3 := by
  induction trail with
  | here => contradiction
  | @next legs m m' acts trail goes ih =>
    obtain ⟨last, others⟩ := List.forall_mem_cons.mp silent
    cases goes.turn quiet steady with
    | shift => contradiction
    | still _ _ _ _ errorStatus =>
      cases trail with
      | next => exact errorStatus.trans (ih (by simp) others)
    | recovery recovered => exact recover_leaves_three quiet recovered

end Steady

/-- A run that stops at the top of its loop has shifted and discarded nothing more. -/
theorem step_stop_stats {result : Result V ε} (stopped : p.step lexer c = .stop result d)
    (direct : ∀ b, ¬ p.Recovers lexer c b) :
    d.stats.shifts = c.stats.shifts ∧ d.stats.discarded = c.stats.discarded := by
  have cases := p.step_cases lexer c
  rw [stopped] at cases
  cases cases with
  | empty | unknownState => exact ⟨rfl, rfl⟩
  | @unfetched top state e _ looked =>
    have frame := p.lookahead_frame lexer state (p.announced c top.state)
    rw [looked] at frame
    have stats : d.stats = _ := frame.stats
    rw [stats]
    simp
  | @ended index b _ _ reduces reduced =>
    have stats := p.reduce_stats index b
    rw [reduced] at stats
    have stats : d.stats = _ := stats
    rw [stats, reduces.stats]
    exact ⟨rfl, rfl⟩
  | recovered recovers => exact absurd recovers (direct _)

/-- Recovery ended the run for want of a lexeme. -/
def starved (m : Moment V γ σ) (result : Result V ε) : Bool :=
  m.isEntry && match result with
    | .ok (.fail .endOfInput) => true
    | .error (.lexer _) => true
    | _ => false

theorem Ends.pays {result : Result V ε} (ends : p.Ends lexer m result d) :
    (if m.isEntry then 1 else 0) + m.config.stats.shifts + m.config.stats.discarded +
        due m.config ≤
      1 + d.stats.shifts + d.stats.discarded + if starved m result then 1 else 0 := by
  cases ends with
  | @top c _ _ stopped direct =>
    obtain ⟨shifts, discarded⟩ := step_stop_stats stopped direct
    have bound := due_le c
    simp only [Moment.isEntry_top, Bool.false_eq_true, if_false, Moment.config_top, shifts,
      discarded]
    omega
  | @entry b _ result stopped =>
    have shifts := p.recover_shifts lexer b
    rw [stopped] at shifts
    have shifts : d.stats.shifts = b.stats.shifts := shifts
    simp only [Moment.isEntry_entry, if_true, Moment.config_entry, shifts]
    by_cases repeated : b.status.errorStatus = 3
    · have consumes := p.recover_consumes lexer repeated
      rw [stopped] at consumes
      rw [due_of_repeated repeated]
      cases consumes with
      | discarded _ _ _ _ _ _ _ _ counted =>
        have counted : d.stats.discarded = b.stats.discarded + 1 := counted
        omega
      | exhausted counted | failed counted => simp [starved, counted]
    · have spared := (p.recover_spares lexer repeated).2.2.2.2
      rw [stopped] at spared
      have spared : d.stats.discarded = b.stats.discarded := spared
      simp only [due, repeated, if_false, spared]
      omega

/-- Recovery makes progress. Behind an entry into it, and as long as nothing is shifted, every
other entry discards a lexeme or ends the run for want of one. So recovery is entered once, and
then once for each shift and each lexeme that is discarded; and from any moment on, unless
something is shifted, twice and then once for each lexeme that is left. -/
theorem recovery_progresses (p : Parser V ε γ) (lexer : Lexer V ε σ)
    (quiet : p.driver.Never Request.isErrok) (steady : p.driver.Never Request.setsToken)
    (source : σ) (context : γ) :
    (∀ steps r, p.run lexer steps source context = some r →
      ∃ legs m, p.Trail lexer (.top (.start source context)) legs m ∧
        p.Ends lexer m r.result r.final) ∧
    ∀ legs m, p.Trail lexer (.top (.start source context)) legs m →
      (∀ b, m = .entry b → ∀ between b', p.Trail lexer m between (.entry b') → between ≠ [] →
        (∀ leg ∈ between, leg.isShift = false) → p.Consumes lexer b' (p.recover lexer b')) ∧
      entries legs m ≤ 1 + m.config.stats.shifts + m.config.stats.discarded +
        (if m.isEntry then due m.config else 0) ∧
      (∀ result d, p.Ends lexer m result d → entries legs m ≤
        1 + d.stats.shifts + d.stats.discarded + if starved m result then 1 else 0) ∧
      ∀ n, lexer.Bounded n m.config.source → ∀ later m', p.Trail lexer m later m' →
        (∀ leg ∈ later, leg.isShift = false) →
        entries later m' ≤ n + m.config.status.pending + 2 := by
  refine ⟨fun steps r ended => run_trail ended, fun legs m trail => ?_⟩
  have paid := trail.pays quiet steady
  refine ⟨?_, ?_, ?_, ?_⟩
  · rintro b rfl between b' trail later silent
    exact p.recover_consumes lexer (trail.repeats quiet steady later silent)
  · unfold entries
    cases m with
    | top c =>
      have bound := due_le c
      simp only [Moment.isEntry_top, Bool.false_eq_true, if_false, Moment.config_top] at paid ⊢
      omega
    | entry b =>
      simp only [Moment.isEntry_entry, if_true, Moment.config_entry] at paid ⊢
      omega
  · intro result d ends
    have last := ends.pays
    unfold entries
    omega
  · intro n bounded later m' trail silent
    obtain ⟨rest, _, fewer⟩ := trail.uses_up quiet steady silent ⟨n, bounded, Nat.le_refl _⟩
    have bound := due_le m'.config
    unfold entries
    split <;> omega

/-- Tables for a symbol that only the error token yields, and a driver that refuses it each time. -/
def refusing : Parser Unit Unit Unit where
  tables := {
    rules := #[⟨"$start", 2, none⟩, ⟨"S", 1, none⟩]
    states := #[
      { actions := some ⟨[(errorToken, .shift 1)]⟩, gotos := ⟨[("S", 2)]⟩ },
      { default := some (.reduce 1) },
      { actions := some ⟨[(endToken, .shift 3)]⟩ },
      { default := some .accept }] }
  driver := {
    hasAction := fun _ => true
    reduce := fun _ _ _ context => { result := .ok none, context, requests := [.error] }
    onError := Driver.defaultHook }

def refused : Config Unit Unit (LexemeQueue Unit) := .start ⟨[⟨"x", none⟩, ⟨"y", none⟩], 0⟩ ()

/-- With two lexemes at hand, recovery is entered at most four times: for the error, once for each
lexeme, and at the end of the input. -/
theorem refusing_entries :
    refusing.driver.Never Request.isErrok ∧ refusing.driver.Never Request.setsToken ∧
    (∃ legs m d, refusing.Trail LexemeQueue.lexer (.top refused) legs m ∧
      refusing.Ends LexemeQueue.lexer m (.ok (.fail .endOfInput)) d ∧ entries legs m ≤ 4) ∧
    ∀ legs m, refusing.Trail LexemeQueue.lexer (.top refused) legs m →
      (∀ leg ∈ legs, leg.isShift = false) → entries legs m ≤ 4 := by
  have quiet : refusing.driver.Never Request.isErrok := ⟨by simp [refusing, Request.isErrok],
    by simp [refusing, Driver.defaultHook]⟩
  have steady : refusing.driver.Never Request.setsToken := ⟨by simp [refusing, Request.setsToken],
    by simp [refusing, Driver.defaultHook]⟩
  obtain ⟨ending, bounds⟩ := recovery_progresses refusing LexemeQueue.lexer quiet steady
    ⟨[⟨"x", none⟩, ⟨"y", none⟩], 0⟩ ()
  refine ⟨quiet, steady, ?_, fun legs m trail silent => ?_⟩
  · have outcome : (refusing.runFrom LexemeQueue.lexer 8 refused).map
        (fun r => (r.result, r.final.stats.shifts, r.final.stats.discarded)) =
        some (.ok (.fail .endOfInput), 0, 2) := rfl
    obtain ⟨r, ended, same⟩ := Option.map_eq_some_iff.mp outcome
    obtain ⟨failed, counts⟩ := Prod.mk.inj same
    obtain ⟨shifts, discarded⟩ := Prod.mk.inj counts
    obtain ⟨legs, m, trail, ends⟩ := ending 8 r ended
    obtain ⟨-, -, bound, -⟩ := bounds legs m trail
    have within := bound _ _ ends
    rw [shifts, discarded] at within
    refine ⟨legs, m, _, trail, failed ▸ ends, ?_⟩
    split at within <;> omega
  · obtain ⟨-, -, -, bound⟩ := bounds [] _ .here
    exact bound 2 (LexemeQueue.bounded _) legs m trail silent

end Parser

end ShiftReduce
